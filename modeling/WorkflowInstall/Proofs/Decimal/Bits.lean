import Mathlib
import WorkflowInstall.Decimal.Binary

/-!
# Floating-point numbers and their bits

What the bits of a floating-point number say about it, and how it compares with zero.

## Main Statements

* `Decimal.zero_lt_iff` — the numbers above zero are those that are not at most zero, but for the
  value that is no number
* `Decimal.isNaN_ofBits`, `Decimal.isInf_ofBits` — the bits of no number and of an infinity

## Design Notes

Bits that are read and written again may come out as others, because no number has one spelling
only. It is enough here that they stay of their kind, so nothing is said about the bits themselves.

The lemmas on packed and unpacked numbers, such as `UnpackedFloat.pack_unpack`, come from Batteries.
No file of Mathlib imports them but the one for the whole library.
-/

namespace WorkflowInstall.Decimal

open Float.Model (Format UnpackedFloat)
open Float.Model.UnpackedFloat (unpack unpackExponent unpackMantissa isNaNBits)

/-! ## Comparison with zero -/

theorem lt_iff_unpack (x y : Float) : x < y ↔ x.toModel.unpack.lt y.toModel.unpack = true :=
  decide_eq_true_iff

theorem le_iff_unpack (x y : Float) : x ≤ y ↔ x.toModel.unpack.le y.toModel.unpack = true :=
  decide_eq_true_iff

theorem unpack_zero : (0.0 : Float).toModel.unpack = .zero .positive := by rfl

/-- A value lies above zero when it is a number and not at most zero. -/
theorem zero_lt_iff (x : Float) : 0.0 < x ↔ ¬ x ≤ 0.0 ∧ x.isNaN = false := by
  rw [lt_iff_unpack, le_iff_unpack, unpack_zero]
  show _ ↔ _ ∧ x.toModel.unpack.isNaN = false
  cases x.toModel.unpack with
  | notANumber => decide
  | infinity sign => cases sign <;> decide
  | zero sign => cases sign <;> decide
  | finite sign significand exponent positive =>
    cases sign <;>
      simp [UnpackedFloat.lt, UnpackedFloat.le, UnpackedFloat.compare, UnpackedFloat.isNaN]

/-! ## The fields of the bits -/

theorem toNat_unpackExponent (bits : BitVec Format.binary64.numBits) :
    (unpackExponent bits).toNat = bits.toNat / 2 ^ 52 % 2 ^ 11 := by
  simp [unpackExponent, BitVec.extractLsb, BitVec.extractLsb', Nat.shiftRight_eq_div_pow]

theorem toNat_unpackMantissa (bits : BitVec Format.binary64.numBits) :
    (unpackMantissa bits).toNat = bits.toNat % 2 ^ 52 := by
  simp [unpackMantissa, BitVec.extractLsb, BitVec.extractLsb', Nat.shiftRight_eq_div_pow]

theorem isNaN_unpack (bits : BitVec Format.binary64.numBits) :
    (unpack _ bits).isNaN = isNaNBits bits := by
  unfold unpack isNaNBits
  dsimp only
  split
  · split <;> simp_all [UnpackedFloat.isNaN]
  · split
    · split <;> simp_all [UnpackedFloat.isNaN]
    · simp_all [UnpackedFloat.isNaN]

theorem isInf_unpack (bits : BitVec Format.binary64.numBits) :
    (unpack _ bits).isInf = true ↔ unpackExponent bits = 2047#11 ∧ unpackMantissa bits = 0#52 := by
  unfold unpack
  dsimp only
  split
  · split <;> simp_all [UnpackedFloat.isInf]
  · split
    · split <;> simp_all [UnpackedFloat.isInf]
    · simp_all [UnpackedFloat.isInf]

/-! ## Numbers that are given by their bits -/

theorem unpack_ofBits (bits : UInt64) :
    (Float.ofBits bits).toModel.unpack =
      unpack Format.binary64
        (UnpackedFloat.pack Format.binary64 (unpack Format.binary64 bits.toBitVec)) := rfl

theorem isNaNBits_iff (bits : UInt64) :
    @isNaNBits Format.binary64 bits.toBitVec = true ↔
      bits.toNat / 2 ^ 52 % 2 ^ 11 = 2047 ∧ bits.toNat % 2 ^ 52 ≠ 0 := by
  unfold isNaNBits
  rw [decide_eq_true_iff, ne_eq, ← BitVec.toNat_inj, ← BitVec.toNat_inj, toNat_unpackExponent,
    toNat_unpackMantissa]
  rfl

/-- Bits are no number when the field of the exponent is full and the fraction is not zero. -/
theorem isNaN_ofBits (bits : UInt64) :
    (Float.ofBits bits).isNaN = true ↔
      bits.toNat / 2 ^ 52 % 2 ^ 11 = 2047 ∧ bits.toNat % 2 ^ 52 ≠ 0 := by
  rw [← isNaNBits_iff]
  show (Float.ofBits bits).toModel.unpack.isNaN = true ↔ _
  rw [unpack_ofBits, UnpackedFloat.pack_unpack]
  split
  case isTrue word =>
    rw [UnpackedFloat.unpack_packedNaN]
    exact iff_of_true rfl word
  case isFalse number => rw [isNaN_unpack]

/-- Bits are an infinity when the field of the exponent is full and the fraction is zero. -/
theorem isInf_ofBits (bits : UInt64) :
    (Float.ofBits bits).isInf = true ↔
      bits.toNat / 2 ^ 52 % 2 ^ 11 = 2047 ∧ bits.toNat % 2 ^ 52 = 0 := by
  show (Float.ofBits bits).toModel.unpack.isInf = true ↔ _
  rw [unpack_ofBits, UnpackedFloat.pack_unpack]
  split
  case isTrue word =>
    rw [UnpackedFloat.unpack_packedNaN]
    exact iff_of_false Bool.false_ne_true fun fields => ((isNaNBits_iff bits).mp word).2 fields.2
  case isFalse number =>
    rw [isInf_unpack, ← BitVec.toNat_inj, ← BitVec.toNat_inj, toNat_unpackExponent,
      toNat_unpackMantissa]
    rfl

end WorkflowInstall.Decimal

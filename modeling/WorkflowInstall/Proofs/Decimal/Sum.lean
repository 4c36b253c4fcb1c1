import WorkflowInstall.Proofs.Decimal.Bits

/-!
# Sums of positive floating-point numbers

A sum is rounded, and rounding does not pass a number that has a spelling of its own. So a small
number that is added to a large one leads no further than to the sum with a bound of the small one,
when that sum is exact.

## Main Statements

* `Decimal.unpack_pack_normal` — a normal number is unpacked as it was packed
* `Decimal.round_normal` — rounding stays between two neighbours with the same exponent
* `Decimal.le_iff_of_finite` — positive numbers are compared by their exponents first
* `Decimal.add_between` — a sum lies between the greater number and an exact sum

## Design Notes

A sum is worked out on the finer one of the two exponents and brought to the coarser one digit by
digit. Of the digits that are dropped two bits are kept, and all that is needed about them here is
one invariant of a shift: a significand that is at most a whole number stays so (`AtMost`), for it
reaches that number only when nothing has been dropped.
-/

namespace WorkflowInstall.Decimal

open Float.Model (Format UnpackedFloat totalExponent)
open Float.Model.UnpackedFloat

/-! ## Normal numbers -/

theorem finite_congr {s t : Sign} {m n : Nat} {e f : Int} {mpos : 0 < m} {npos : 0 < n}
    (sign : s = t) (significand : m = n) (exponent : e = f) :
    UnpackedFloat.finite s m e mpos = .finite t n f npos := by
  subst sign significand exponent
  rfl

theorem toNat_hidden_append (fraction : BitVec 52) :
    (1#1 ++ fraction).toNat = 2 ^ 52 + fraction.toNat := by
  rw [BitVec.toNat_append, ← Nat.shiftLeft_add_eq_or_of_lt fraction.isLt]
  rfl

theorem pack_normal {significand field : Nat} {exponent : Int} (pos : 0 < significand)
    (field_eq : exponent = (field : Int) - 1075) (log : significand.log2 = 52)
    (high : field < 2047) :
    pack Format.binary64 (.finite .positive significand exponent pos) =
      packComponents Format.binary64 .positive (BitVec.ofNat 11 field)
        (BitVec.ofNat 52 significand) := by
  have biased : (exponent + (Format.binary64.exponentBias : Nat) + (52 : Nat)).toNat = field := by
    show (exponent + (1023 : Nat) + (52 : Nat)).toNat = field
    omega
  unfold pack
  dsimp only
  rw [biased, if_neg (by omega), if_pos (by rw [log]; rfl)]

theorem unpack_packComponents {spec : Format} {sign : Sign} {exponent : BitVec spec.exponentBits}
    {fraction : BitVec spec.mantissaBitsWithoutImplicit} (notFull : exponent ≠ -1#_)
    (notZero : exponent ≠ 0#_) :
    unpack spec (packComponents spec sign exponent fraction) =
      .finite sign (1#1 ++ fraction).toNat
        ((exponent.toNat : Int) - (spec.exponentBias + spec.mantissaBitsWithoutImplicit))
        (by simp) := by
  unfold unpack
  dsimp only
  rw [if_neg (by rwa [unpackExponent_packComponents]),
    if_neg (by rwa [unpackExponent_packComponents])]
  refine finite_congr ?_ ?_ ?_
  · rw [unpackSign_packComponents, Sign.ofBitVec_toBitVec]
  · rw [unpackMantissa_packComponents]
  · rw [unpackExponent_packComponents]

theorem unpack_normal {field significand : Nat} (low : 0 < field) (high : field < 2047)
    (pos : 0 < significand) (least : 2 ^ 52 ≤ significand) (most : significand < 2 ^ 53) :
    unpack Format.binary64 (packComponents Format.binary64 .positive (BitVec.ofNat 11 field)
        (BitVec.ofNat 52 significand)) =
      .finite .positive significand ((field : Int) - 1075) pos := by
  have full : (BitVec.ofNat 11 field).toNat = field := by
    rw [BitVec.toNat_ofNat, Nat.mod_eq_of_lt (by omega)]
  have notFull : BitVec.ofNat 11 field ≠ -1#11 := by
    rw [ne_eq, ← BitVec.toNat_inj, full]
    exact Nat.ne_of_lt high
  have notZero : BitVec.ofNat 11 field ≠ 0#11 := by
    rw [ne_eq, ← BitVec.toNat_inj, full]
    exact Nat.ne_of_gt low
  have whole : (1#1 ++ BitVec.ofNat 52 significand).toNat = significand := by
    rw [toNat_hidden_append, BitVec.toNat_ofNat]
    omega
  rw [unpack_packComponents notFull notZero]
  refine finite_congr rfl whole ?_
  rw [full]
  rfl

/-- A normal number is unpacked as it was packed. -/
theorem unpack_pack_normal {significand : Nat} {exponent : Int} (pos : 0 < significand)
    (least : 2 ^ 52 ≤ significand) (most : significand < 2 ^ 53) (low : -1074 ≤ exponent)
    (high : exponent ≤ 971) :
    unpack Format.binary64 (pack Format.binary64 (.finite .positive significand exponent pos)) =
      .finite .positive significand exponent pos := by
  obtain ⟨field, field_eq⟩ : ∃ field : Nat, exponent = (field : Int) - 1075 :=
    ⟨(exponent + 1075).toNat, by omega⟩
  have log : significand.log2 = 52 := (Nat.log2_eq_iff (Nat.ne_of_gt pos)).mpr ⟨least, most⟩
  rw [pack_normal pos field_eq log (by omega), unpack_normal (by omega) (by omega) pos least most]
  exact finite_congr rfl rfl field_eq.symm

/-- A significand has at most 53 digits. -/
theorem significand_lt {bits : BitVec Format.binary64.numBits} {sign : Sign} {m : Nat} {e : Int}
    {pos : 0 < m} (h : unpack Format.binary64 bits = .finite sign m e pos) : m < 2 ^ 53 := by
  unfold unpack at h
  dsimp only at h
  split at h
  · split at h <;> exact nomatch h
  · split at h
    · split at h
      · exact nomatch h
      · injection h with _ same
        exact same ▸ Nat.lt_trans (BitVec.isLt _) (by decide)
    · injection h with _ same
      exact same ▸ BitVec.isLt _

/-! ## Comparison -/

theorem le_of_lt {x y : Float} (h : x < y) : x ≤ y := by
  rw [lt_iff_unpack, UnpackedFloat.lt, beq_iff_eq] at h
  rw [le_iff_unpack, UnpackedFloat.le, h]
  rfl

theorem isLE_compare_iff (e f : Int) (m n : Nat) :
    ((compare e f).then (compare m n)).isLE = true ↔ e < f ∨ e = f ∧ m ≤ n := by
  rcases Int.lt_trichotomy e f with less | rfl | more
  · rw [Int.compare_eq_lt.mpr less]
    exact iff_of_true rfl (.inl less)
  · rw [Int.compare_eq_eq.mpr rfl, Ordering.eq_then, Nat.isLE_compare]
    omega
  · rw [Int.compare_eq_gt.mpr more]
    exact iff_of_false Bool.false_ne_true (by omega)

/-- Positive numbers are compared by their exponents first. -/
theorem le_iff_of_finite {x y : Float} {m n : Nat} {e f : Int} {mpos : 0 < m} {npos : 0 < n}
    (left : x.toModel.unpack = .finite .positive m e mpos)
    (right : y.toModel.unpack = .finite .positive n f npos) :
    x ≤ y ↔ e < f ∨ e = f ∧ m ≤ n := by
  rw [le_iff_unpack, left, right, ← isLE_compare_iff]
  rfl

/-- What lies between zero and a positive number is zero or has no greater exponent. -/
theorem between_cases {x y : Float} {n : Nat} {f : Int} {npos : 0 < n}
    (bound : y.toModel.unpack = .finite .positive n f npos) (normal : 2 ^ 52 ≤ n)
    (low : 0.0 ≤ x) (high : x ≤ y) :
    (∃ sign, x.toModel.unpack = .zero sign) ∨
      ∃ m e pos, x.toModel.unpack = .finite .positive m e pos ∧ e ≤ f ∧
        m ≤ n * 2 ^ (f - e).toNat := by
  have above := (le_iff_unpack 0.0 x).mp low
  have below := (le_iff_unpack x y).mp high
  rw [unpack_zero] at above
  rw [bound] at below
  cases unpacked : x.toModel.unpack with
  | notANumber =>
    rw [unpacked] at above
    exact nomatch above
  | infinity sign =>
    rw [unpacked] at above below
    cases sign
    · exact nomatch above
    · exact nomatch below
  | zero sign => exact .inl ⟨sign, rfl⟩
  | finite sign m e pos =>
    cases sign with
    | negative =>
      rw [unpacked] at above
      exact nomatch above
    | positive =>
      refine .inr ⟨m, e, pos, rfl, ?_⟩
      have small : m < 2 ^ 53 := significand_lt unpacked
      rcases (le_iff_of_finite unpacked bound).mp high with finer | ⟨rfl, less⟩
      · obtain ⟨k, k_eq⟩ : ∃ k, (f - e).toNat = k + 1 := ⟨(f - e).toNat - 1, by omega⟩
        have unit : 0 < 2 ^ k := Nat.two_pow_pos k
        refine ⟨Int.le_of_lt finer, ?_⟩
        calc m ≤ n * 2 := by omega
          _ ≤ n * 2 ^ (f - e).toNat := by
            rw [k_eq, Nat.pow_succ]
            exact Nat.mul_le_mul_left n (by omega)
      · rw [Int.sub_self, Int.toNat_zero, Nat.pow_zero, Nat.mul_one]
        exact ⟨Int.le_refl e, less⟩

/-! ## Rounding -/

/-- A significand with its residual digits is at most a whole number. -/
def AtMost (extended : ExtendedMantissa) (most : Nat) : Prop :=
  extended.mantissa < most ∨
    extended.mantissa = most ∧ extended.roundBit = false ∧ extended.stickyBit = false

theorem AtMost.shiftRightOne {extended : ExtendedMantissa} {most : Nat}
    (h : AtMost extended (most * 2)) : AtMost extended.shiftRightOne most := by
  rcases h with below | ⟨same, round, sticky⟩
  · exact .inl (by simp only [ExtendedMantissa.shiftRightOne]; omega)
  · refine .inr ⟨?_, ?_, ?_⟩
    · simp only [ExtendedMantissa.shiftRightOne]
      omega
    · simp [ExtendedMantissa.shiftRightOne, same]
    · simp [ExtendedMantissa.shiftRightOne, round, sticky]

theorem AtMost.shiftRight {extended : ExtendedMantissa} {most : Nat} (digits : Nat)
    (h : AtMost extended (most * 2 ^ digits)) : AtMost (extended >>> digits) most := by
  induction digits generalizing most with
  | zero => exact Nat.mul_one most ▸ h
  | succ digits ih =>
    rw [Nat.pow_succ, Nat.mul_comm (2 ^ digits), ← Nat.mul_assoc] at h
    exact (ih h).shiftRightOne

theorem AtMost.rounded_le {extended : ExtendedMantissa} {most : Nat} (h : AtMost extended most) :
    extended.roundedMantissa ≤ most := by
  obtain ⟨significand, round, sticky⟩ := extended
  rcases h with below | ⟨same, rfl, rfl⟩
  · replace below : significand < most := below
    cases round <;> cases sticky <;>
      simp only [ExtendedMantissa.roundedMantissa, ExtendedMantissa.accuracy,
        Accuracy.roundToNearestEven] <;>
      omega
  · exact Nat.le_of_eq same

/-- The digits that are left are not less than they would be without the ones that are dropped. -/
theorem le_shiftRight {extended : ExtendedMantissa} {least : Nat} (digits : Nat)
    (h : least * 2 ^ digits ≤ extended.mantissa) : least ≤ (extended >>> digits).mantissa := by
  induction digits generalizing least with
  | zero => exact Nat.mul_one least ▸ h
  | succ digits ih =>
    rw [Nat.pow_succ, Nat.mul_comm (2 ^ digits), ← Nat.mul_assoc] at h
    have later : least * 2 ≤ (extended >>> digits).mantissa := ih h
    show least ≤ (extended >>> digits).mantissa / 2
    omega

theorem le_rounded (extended : ExtendedMantissa) :
    extended.mantissa ≤ extended.roundedMantissa := by
  obtain ⟨significand, round, sticky⟩ := extended
  cases round <;> cases sticky <;>
    simp only [ExtendedMantissa.roundedMantissa, ExtendedMantissa.accuracy,
      Accuracy.roundToNearestEven] <;>
    omega

theorem targetExponent_normal {significand digits : Nat} {exponent : Int}
    (log : significand.log2 = 52 + digits) (low : -1074 ≤ exponent + digits) :
    Format.binary64.targetExponent (totalExponent significand exponent) = exponent + digits := by
  have least : Format.binary64.minExponent = -1074 := by rfl
  have count : Format.binary64.mantissaBits = 53 := by rfl
  rw [Format.targetExponent, totalExponent, log, least, count]
  omega

theorem shiftToTargetExponent_normal {significand digits : Nat} {exponent : Int}
    (log : significand.log2 = 52 + digits) (low : -1074 ≤ exponent + digits) :
    shiftToTargetExponent Format.binary64 significand exponent .exact =
      (ExtendedMantissa.mk significand false false >>> digits, exponent + digits) := by
  have amount : (exponent + digits - exponent).toNat = digits := by omega
  rw [shiftToTargetExponent, targetExponent_normal log low, shiftToExponent, amount]
  rfl

theorem log2_normal {significand digits : Nat} (least : 2 ^ 52 * 2 ^ digits ≤ significand)
    (most : significand < 2 ^ 53 * 2 ^ digits) : significand.log2 = 52 + digits := by
  have pos : 0 < 2 ^ 52 * 2 ^ digits := Nat.mul_pos (Nat.two_pow_pos _) (Nat.two_pow_pos _)
  rw [Nat.log2_eq_iff (Nat.ne_of_gt (Nat.lt_of_lt_of_le pos least)), Nat.pow_succ, Nat.pow_add]
  omega

/-- A number is rounded to one between two neighbours with the same exponent. -/
theorem round_normal {significand digits least most : Nat} {exponent : Int}
    (normal : 2 ^ 52 ≤ least) (low : least * 2 ^ digits ≤ significand)
    (high : significand ≤ most * 2 ^ digits) (room : most < 2 ^ 53)
    (small : -1074 ≤ exponent + digits) :
    ∃ rounded pos, Float.Model.UnpackedFloat.round Format.binary64 .positive significand exponent =
        .finite .positive rounded (exponent + digits) pos ∧ least ≤ rounded ∧ rounded ≤ most := by
  have unit : 0 < 2 ^ digits := Nat.two_pow_pos digits
  have log : significand.log2 = 52 + digits := by
    refine log2_normal (Nat.le_trans (Nat.mul_le_mul_right _ normal) low) ?_
    exact Nat.lt_of_le_of_lt high (Nat.mul_lt_mul_of_pos_right room unit)
  obtain ⟨rounded, rounded_eq⟩ : ∃ rounded,
    rounded = (ExtendedMantissa.mk significand false false >>> digits).roundedMantissa := ⟨_, rfl⟩
  have above : least ≤ rounded :=
    rounded_eq ▸ Nat.le_trans (le_shiftRight digits low) (le_rounded _)
  have below : rounded ≤ most := by
    rw [rounded_eq]
    refine (AtMost.shiftRight digits ?_).rounded_le
    rcases Nat.lt_or_eq_of_le high with less | same
    · exact .inl less
    · exact .inr ⟨same, rfl, rfl⟩
  have pos : 0 < rounded := by omega
  have again : rounded.log2 = 52 + 0 := log2_normal (by omega) (by omega)
  refine ⟨rounded, pos, ?_, above, below⟩
  have amount : (exponent - (exponent + digits)).toNat = 0 := by omega
  rw [Float.Model.UnpackedFloat.round, targetExponent_normal log small, decreaseExponent, amount]
  dsimp only
  rw [Nat.shiftLeft_zero, Int.natCast_zero, Int.sub_zero, roundWithAccuracy,
    shiftToTargetExponent_normal log small]
  dsimp only
  rw [← rounded_eq, shiftToTargetExponent_normal again (by omega)]
  dsimp only
  exact (dif_neg (Nat.ne_of_gt pos)).trans (finite_congr rfl rfl (Int.add_zero _))

/-! ## Sums -/

/-- A sum is worked out on the finer exponent. -/
theorem add_finite {m n : Nat} {e f : Int} (mpos : 0 < m) (npos : 0 < n) (finer : f ≤ e) :
    Float.Model.UnpackedFloat.add Format.binary64 (.finite .positive m e mpos)
        (.finite .positive n f npos) =
      Float.Model.UnpackedFloat.round Format.binary64 .positive (m * 2 ^ (e - f).toNat + n) f := by
  have same : min e f = f := Int.min_eq_right finer
  have total : (m * 2 ^ (e - f).toNat : Nat) + (n : Int) =
      (m * 2 ^ (e - f).toNat + n : Nat) := rfl
  have up : compare ((m * 2 ^ (e - f).toNat + n : Nat) : Int) 0 = .gt :=
    Int.compare_eq_gt.mpr (by omega)
  unfold Float.Model.UnpackedFloat.add
  dsimp only
  rw [same, decreaseExponent, decreaseExponent, Int.sub_self]
  simp only [Sign.apply, Nat.shiftLeft_eq, Int.toNat_zero, Nat.pow_zero, Nat.mul_one]
  rw [total, Float.Model.UnpackedFloat.normalize, up]
  rfl

theorem unpack_add (x y : Float) :
    (x + y).toModel.unpack = unpack Format.binary64 (pack Format.binary64
      (Float.Model.UnpackedFloat.add Format.binary64 x.toModel.unpack y.toModel.unpack)) := rfl

/-- A number that is at most `y` is added to `x`. The sum keeps the exponent of `x`, and it lies
between `x` and any number of that exponent which is at least `x` and `y` together. -/
theorem add_between {x y j : Float} {m n most : Nat} {e f : Int} {mpos : 0 < m} {npos : 0 < n}
    (left : x.toModel.unpack = .finite .positive m e mpos) (normal : 2 ^ 52 ≤ m)
    (bound : y.toModel.unpack = .finite .positive n f npos) (bound_normal : 2 ^ 52 ≤ n)
    (finer : f ≤ e) (small : -1074 ≤ e) (large : e ≤ 971)
    (fits : m * 2 ^ (e - f).toNat + n ≤ most * 2 ^ (e - f).toNat) (room : most < 2 ^ 53)
    (low : 0.0 ≤ j) (high : j ≤ y) :
    ∃ sum pos, (x + j).toModel.unpack = .finite .positive sum e pos ∧ m ≤ sum ∧ sum ≤ most := by
  rw [unpack_add, left]
  rcases between_cases bound bound_normal low high with ⟨sign, zero⟩ |
    ⟨added, g, pos, right, finest, scaled⟩
  · have less : m ≤ most :=
      Nat.le_of_mul_le_mul_right (Nat.le_trans (Nat.le_add_right _ n) fits) (Nat.two_pow_pos _)
    rw [zero]
    exact ⟨m, mpos, unpack_pack_normal mpos normal (by omega) small large, Nat.le_refl m, less⟩
  · have digits : (e - g).toNat = (e - f).toNat + (f - g).toNat := by omega
    have back : g + (e - g).toNat = e := by omega
    have sum_le : m * 2 ^ (e - g).toNat + added ≤ most * 2 ^ (e - g).toNat := by
      rw [digits, Nat.pow_add, ← Nat.mul_assoc, ← Nat.mul_assoc]
      calc m * 2 ^ (e - f).toNat * 2 ^ (f - g).toNat + added
          ≤ m * 2 ^ (e - f).toNat * 2 ^ (f - g).toNat + n * 2 ^ (f - g).toNat :=
            Nat.add_le_add_left scaled _
        _ = (m * 2 ^ (e - f).toNat + n) * 2 ^ (f - g).toNat := (Nat.add_mul ..).symm
        _ ≤ most * 2 ^ (e - f).toNat * 2 ^ (f - g).toNat := Nat.mul_le_mul_right _ fits
    obtain ⟨sum, sum_pos, rounded, above, below⟩ :=
      round_normal normal (Nat.le_add_right _ added) sum_le room
        (show -1074 ≤ g + ((e - g).toNat : Int) by omega)
    rw [right, add_finite mpos pos (by omega), rounded,
      unpack_pack_normal sum_pos (by omega) (by omega) (by omega) (by omega)]
    exact ⟨sum, sum_pos, finite_congr rfl rfl back, above, below⟩

end WorkflowInstall.Decimal

import WorkflowInstall.Decimal.Numeral
import WorkflowInstall.Proofs.Decimal.Bits

/-!
# The floating-point number nearest to a fraction

Rounding always gives a number, and it gives an infinity from the point on that lies halfway between
the greatest floating-point number and the next power of two.

## Main Definitions

* `Decimal.infinityBits` — the bits of the positive infinity
* `Decimal.overflow` — the least whole number that is rounded to an infinity
* `Numeral.IsNan` — the text spells the value that is no number

## Main Statements

* `Decimal.isNaN_nearest` — rounding gives a number
* `Decimal.ofInt?_eq_none_iff` — the whole numbers that are too large
* `Numeral.isNaN_of_readFloat?` — only one word stands for no number

## Design Notes

The digits of a whole number are those below its greatest power of two, so the exponent is known
exactly (`gridExponent_whole`), and the significand has 53 digits or is the next power of two.
Whether the greatest exponent is exceeded then depends on one comparison at an odd significand
(`succ_le_roundToEven`), where a tie goes up.
-/

namespace WorkflowInstall

namespace Decimal

/-! ## Rounding -/

theorem le_roundToEven (num den : Nat) : num / den ≤ roundToEven num den := by
  unfold roundToEven
  dsimp only
  split <;> omega

theorem roundToEven_le (num den : Nat) : roundToEven num den ≤ num / den + 1 := by
  unfold roundToEven
  dsimp only
  split <;> omega

/-- A fraction is rounded to more than an odd number from halfway to the next one on. -/
theorem succ_le_roundToEven {num den k : Nat} (pos : 0 < den) (odd : k % 2 = 1) :
    k + 1 ≤ roundToEven num den ↔ (2 * k + 1) * den ≤ 2 * num := by
  have low := le_roundToEven num den
  have high := roundToEven_le num den
  have whole := Nat.div_add_mod num den
  have below := Nat.mod_lt num pos
  rw [Nat.add_mul, Nat.mul_assoc, Nat.mul_comm k den]
  rcases Nat.lt_trichotomy (num / den) k with less | same | more
  · have next : den * (num / den + 1) ≤ den * k := Nat.mul_le_mul_left den less
    rw [Nat.mul_add] at next
    omega
  · unfold roundToEven
    dsimp only
    rw [same] at whole ⊢
    split <;> omega
  · have next : den * (k + 1) ≤ den * (num / den) := Nat.mul_le_mul_left den more
    rw [Nat.mul_add] at next
    omega

/-! ## Bits -/

/-- The bits of the positive infinity. -/
def infinityBits : Nat := (exponentFields - 1) * hiddenDigit

theorem nearestBits_le (num den : Nat) : nearestBits num den ≤ infinityBits := Nat.min_le_right _ _

/-- The bits of a positive number and its sign do not meet. -/
theorem nearest_eq (negative : Bool) (num den : Nat) :
    ∃ bits ≤ infinityBits, (num ≠ 0 → bits = nearestBits num den) ∧ (num = 0 → bits = 0) ∧
      nearest negative num den =
        Float.ofBits (UInt64.ofNat (if negative then signDigit + bits else bits)) := by
  refine ⟨if num = 0 then 0 else nearestBits num den, ?_, fun some => if_neg some,
    fun none => if_pos none, rfl⟩
  split
  · exact Nat.zero_le _
  · exact nearestBits_le num den

/-- The fields of bits are those without the sign. -/
theorem fields_signed {bits : Nat} (bound : bits ≤ infinityBits) (negative : Bool) :
    let signed := (UInt64.ofNat (if negative then signDigit + bits else bits)).toNat
    signed / 2 ^ 52 % 2 ^ 11 = bits / 2 ^ 52 ∧ signed % 2 ^ 52 = bits % 2 ^ 52 := by
  have step : infinityBits = 2047 * 2 ^ 52 := rfl
  have sign : signDigit = 2 ^ 63 := rfl
  intro signed
  have fits : (if negative then signDigit + bits else bits) < UInt64.size := by
    split <;> simp only [UInt64.size] <;> omega
  have value : signed = if negative then signDigit + bits else bits :=
    UInt64.toNat_ofNat_of_lt' fits
  rw [value]
  split <;> omega

/-- Rounding gives a number. -/
theorem isNaN_nearest (negative : Bool) (num den : Nat) :
    (nearest negative num den).isNaN = false := by
  obtain ⟨bits, bound, -, -, same⟩ := nearest_eq negative num den
  obtain ⟨field, fraction⟩ := fields_signed bound negative
  have step : infinityBits = 2047 * 2 ^ 52 := rfl
  rw [same, Bool.eq_false_iff, ne_eq, isNaN_ofBits, field, fraction]
  omega

/-- Rounding gives an infinity when the bits say so. -/
theorem isInf_nearest (negative : Bool) (num den : Nat) :
    (nearest negative num den).isInf = true ↔ num ≠ 0 ∧ nearestBits num den = infinityBits := by
  obtain ⟨bits, bound, some, none, same⟩ := nearest_eq negative num den
  obtain ⟨field, fraction⟩ := fields_signed bound negative
  have step : infinityBits = 2047 * 2 ^ 52 := rfl
  rw [same, isInf_ofBits, field, fraction]
  by_cases zero : num = 0
  · rw [none zero]
    simp [zero]
  · rw [← some zero]
    omega

/-! ## Whole numbers -/

theorem powerOfTwo_sub (n k : Nat) : powerOfTwo ((n : Int) - k) = (2 ^ (n - k), 2 ^ (k - n)) := by
  unfold powerOfTwo
  simp only [Nat.pow_eq]
  split
  · rw [show ((n : Int) - k).natAbs = k - n by omega, show n - k = 0 by omega, Nat.pow_zero]
  · rw [show ((n : Int) - k).toNat = n - k by omega, show k - n = 0 by omega, Nat.pow_zero]

theorem two_pow_mul_sub (n k : Nat) : 2 ^ k * 2 ^ (n - k) = 2 ^ n * 2 ^ (k - n) := by
  rw [← Nat.pow_add, ← Nat.pow_add, Nat.add_comm k, Nat.add_comm n, Nat.sub_add_eq_max,
    Nat.sub_add_eq_max, Nat.max_comm]

/-- The exponent of a whole number is that of its greatest power of two. -/
theorem gridExponent_whole {n : Nat} (some : n ≠ 0) :
    gridExponent n 1 = (n.log2 : Int) - (52 : Nat) := by
  have enough : hiddenDigit * 2 ^ (n.log2 - 52) * 1 ≤ n * 2 ^ (52 - n.log2) := by
    rw [Nat.mul_one, show hiddenDigit = 2 ^ 52 from rfl, two_pow_mul_sub]
    exact Nat.mul_le_mul_right _ (Nat.log2_self_le some)
  have next : (n.log2 : Int) - (Nat.log2 1 : Nat) - 53 + 1 = (n.log2 : Int) - (52 : Nat) := by
    rw [show Nat.log2 1 = 0 from rfl]
    omega
  unfold gridExponent
  dsimp only
  rw [next, powerOfTwo_sub]
  dsimp only
  rw [if_pos enough]
  omega

/-- The digits of a whole number, rounded to those that the format has a place for. -/
def wholeSignificand (n : Nat) : Nat := roundToEven (n * 2 ^ (52 - n.log2)) (2 ^ (n.log2 - 52))

theorem wholeSignificand_bounds {n : Nat} (some : n ≠ 0) :
    2 ^ 52 ≤ wholeSignificand n ∧ wholeSignificand n ≤ 2 ^ 53 := by
  have unit : 0 < 2 ^ (n.log2 - 52) := Nat.two_pow_pos _
  have same := two_pow_mul_sub n.log2 52
  constructor
  · apply Nat.le_trans ((Nat.le_div_iff_mul_le unit).mpr _) (le_roundToEven _ _)
    rw [same]
    exact Nat.mul_le_mul_right _ (Nat.log2_self_le some)
  · apply Nat.le_trans (roundToEven_le _ _) ((Nat.div_lt_iff_lt_mul unit).mpr _)
    rw [Nat.pow_succ, Nat.mul_right_comm, same, Nat.mul_right_comm, ← Nat.pow_succ]
    exact Nat.mul_lt_mul_of_pos_right Nat.lt_log2_self (Nat.two_pow_pos _)

theorem nearestBits_whole {n : Nat} (some : n ≠ 0) :
    nearestBits n 1 = min ((n.log2 + 1022) * hiddenDigit + wholeSignificand n) infinityBits := by
  have field : ((n.log2 : Int) - (52 : Nat) + 1074).toNat = n.log2 + 1022 := by omega
  unfold nearestBits
  dsimp only
  rw [gridExponent_whole some, field, powerOfTwo_sub, Nat.one_mul]
  rfl

/-- The least whole number that is rounded to an infinity: it lies halfway between the greatest
floating-point number and the next power of two. -/
def overflow : Nat := 2 ^ 1024 - 2 ^ 970

theorem nearestBits_whole_eq {n : Nat} (some : n ≠ 0) :
    nearestBits n 1 = infinityBits ↔ overflow ≤ n := by
  have low : 2 ^ n.log2 ≤ n := Nat.log2_self_le some
  have high : n < 2 ^ (n.log2 + 1) := Nat.lt_log2_self
  obtain ⟨least, most⟩ := wholeSignificand_bounds some
  have step : infinityBits = 2047 * 2 ^ 52 := rfl
  have digit : hiddenDigit = 2 ^ 52 := rfl
  have cut : nearestBits n 1 = infinityBits ↔
      infinityBits ≤ (n.log2 + 1022) * hiddenDigit + wholeSignificand n := by
    rw [nearestBits_whole some]
    omega
  rw [cut, step, digit]
  rcases Nat.lt_trichotomy n.log2 1023 with small | edge | large
  · have below : n < overflow := by
      calc n < 2 ^ (n.log2 + 1) := high
        _ ≤ 2 ^ 1023 := Nat.pow_le_pow_right (by decide) small
        _ ≤ overflow := by decide +kernel
    omega
  · -- The power is kept as a name, so that it is not computed.
    obtain ⟨den, den_eq⟩ : ∃ den, den = 2 ^ 971 := ⟨_, rfl⟩
    have same : wholeSignificand n = roundToEven n den := by
      rw [den_eq, wholeSignificand, edge, show 52 - 1023 = 0 by rfl, show 1023 - 52 = 971 by rfl,
        Nat.pow_zero, Nat.mul_one]
    have pos : 0 < den := by
      rw [den_eq]
      decide +kernel
    have halfway : (2 * (2 ^ 53 - 1) + 1) * den = 2 * overflow := by
      rw [den_eq]
      decide +kernel
    have up := @succ_le_roundToEven n den (2 ^ 53 - 1) pos (by decide)
    rw [halfway, ← same] at up
    omega
  · have above : overflow ≤ n := by
      calc overflow ≤ 2 ^ 1024 := by decide +kernel
        _ ≤ 2 ^ n.log2 := Nat.pow_le_pow_right (by decide) large
        _ ≤ n := low
    omega

/-- A whole number is too large for a floating-point number from `overflow` on. -/
theorem ofInt?_eq_none_iff (n : Int) : ofInt? n = none ↔ overflow ≤ n.natAbs := by
  have infinite : (nearest (decide (n < 0)) n.natAbs 1).isInf = true ↔ overflow ≤ n.natAbs := by
    rw [isInf_nearest]
    by_cases zero : n.natAbs = 0
    · have : 0 < overflow := by decide +kernel
      omega
    · rw [nearestBits_whole_eq zero]
      simp [zero]
  rw [← infinite]
  unfold ofInt?
  dsimp only
  split <;> simp_all

end Decimal

namespace Numeral

/-! ## The word for no number -/

/-- The text spells the value that is no number: the word `nan` in letters of either case, with a
sign in front and blanks around it if need be. -/
def IsNan (text : Text) : Prop := Text.lowerAscii (takeSign (core text)).2 = "nan"

instance (text : Text) : Decidable (IsNan text) :=
  inferInstanceAs (Decidable (Text.lowerAscii (takeSign (core text)).2 = "nan"))

theorem isNaN_toFloat (negative : Bool) (f : Fraction) : (f.toFloat negative).isNaN = false := by
  unfold Fraction.toFloat
  dsimp only
  split
  · exact Decimal.isNaN_nearest ..
  · split
    · exact Decimal.isNaN_nearest ..
    · split <;> exact Decimal.isNaN_nearest ..

/-- Where an underscore stands between digits, there is a digit. -/
theorem digit_of_underscoresBetween {before : Char} {text : Text}
    (between : underscoresBetween isDigit before text = true) (mem : '_' ∈ text) :
    isDigit before = true ∨ ∃ c ∈ text, isDigit c = true := by
  induction text generalizing before with
  | nil => exact absurd mem List.not_mem_nil
  | cons c rest ih =>
    rw [underscoresBetween, Bool.and_eq_true] at between
    obtain ⟨here, later⟩ := between
    by_cases mark : c = '_'
    · rw [if_pos mark] at here
      exact .inl here
    · have mem : '_' ∈ rest := (List.mem_cons.mp mem).resolve_left (Ne.symm mark)
      rcases ih later mem with digit | ⟨other, inside, digit⟩
      · exact .inr ⟨c, List.mem_cons_self, digit⟩
      · exact .inr ⟨other, List.mem_cons_of_mem c inside, digit⟩

theorem mem_takeSign {c : Char} {text : Text} (mem : c ∈ text) (plus : c ≠ '+') (minus : c ≠ '-') :
    c ∈ (takeSign text).2 := by
  unfold takeSign
  split
  · exact (List.mem_cons.mp mem).resolve_left plus
  · exact (List.mem_cons.mp mem).resolve_left minus
  · exact mem

theorem toLower_of_isDigit {c : Char} (digit : isDigit c = true) : c.toLower = c := by
  simp only [isDigit, Bool.and_eq_true, decide_eq_true_eq, Char.le_def] at digit
  unfold Char.toLower
  split
  case isTrue letter => exact absurd (UInt32.le_trans letter.1 digit.2) (by decide)
  case isFalse => rfl

theorem ne_nan_of_digit {text : Text} {c : Char} (mem : c ∈ text) (digit : isDigit c = true) :
    Text.lowerAscii (takeSign text).2 ≠ "nan" := by
  intro word
  have inside : c.toLower ∈ Text.lowerAscii (takeSign text).2 := by
    refine List.mem_map_of_mem (mem_takeSign mem ?_ ?_) <;>
      · rintro rfl
        exact absurd digit (by decide)
  have letters : ("nan" : Text).all (fun letter => !isDigit letter) = true := by decide
  rw [word, toLower_of_isDigit digit] at inside
  have letter := List.all_eq_true.mp letters c inside
  rw [digit] at letter
  exact Bool.false_ne_true letter

theorem underscore_notMem {text : Text} (word : Text.lowerAscii (takeSign text).2 = "nan") :
    '_' ∉ text := by
  intro mem
  have inside : Char.toLower '_' ∈ Text.lowerAscii (takeSign text).2 :=
    List.mem_map_of_mem (mem_takeSign mem (by decide) (by decide))
  rw [word] at inside
  exact absurd inside (by decide)

theorem filter_underscores {text : Text} (clear : '_' ∉ text) :
    text.filter (· != '_') = text := by
  rw [List.filter_eq_self]
  intro c mem
  rw [bne_iff_ne]
  rintro rfl
  exact clear mem

/-- The word for no number is read as it. -/
theorem readFloat?_of_isNan {text : Text} (word : IsNan text) :
    readFloat? text = some (0.0 / 0.0) := by
  have clear : '_' ∉ core text := underscore_notMem word
  unfold IsNan at word
  unfold readFloat?
  dsimp only
  rw [filter_underscores clear, word]
  simp [clear]

/-- What a text without underscores is read as is no number only for the word. -/
theorem isNaN_of_unsigned {negative : Bool} {unsigned : Text} {x : Float}
    (read : (if Text.lowerAscii unsigned = "inf" ∨ Text.lowerAscii unsigned = "infinity" then
        some (Decimal.nearest negative (Nat.pow 10 400) 1)
      else if Text.lowerAscii unsigned = "nan" then some (0.0 / 0.0)
      else (fraction? unsigned).map (Fraction.toFloat negative)) = some x)
    (none : x.isNaN = true) : Text.lowerAscii unsigned = "nan" := by
  split at read
  case isTrue =>
    obtain rfl := Option.some.inj read
    exact absurd ((Decimal.isNaN_nearest ..).symm.trans none) Bool.false_ne_true
  case isFalse =>
  split at read
  case isTrue word => exact word
  case isFalse =>
    obtain ⟨fraction, -, rfl⟩ := Option.map_eq_some_iff.mp read
    exact absurd ((isNaN_toFloat negative fraction).symm.trans none) Bool.false_ne_true

/-- Only the word for it is read as no number. -/
theorem isNaN_of_readFloat? {text : Text} {x : Float} (read : readFloat? text = some x) :
    x.isNaN = true ↔ IsNan text := by
  constructor
  case mpr =>
    intro word
    obtain rfl := Option.some.inj ((readFloat?_of_isNan word).symm.trans read)
    decide +kernel
  case mp =>
    intro none
    unfold IsNan
    unfold readFloat? at read
    dsimp only at read
    generalize core text = trimmed at read ⊢
    split at read
    case isTrue => exact nomatch read
    case isFalse placed =>
    have word := isNaN_of_unsigned read none
    by_cases marked : '_' ∈ trimmed
    · -- The underscore stands between digits, and there is no digit in the word.
      have between : underscoresBetween isDigit 'x' trimmed = true := by
        simpa [marked] using placed
      obtain ⟨c, mem, digit⟩ :=
        (digit_of_underscoresBetween between marked).resolve_left (by decide)
      have kept : c ∈ trimmed.filter (· != '_') := by
        refine List.mem_filter.mpr ⟨mem, ?_⟩
        rw [bne_iff_ne]
        rintro rfl
        exact absurd digit (by decide)
      exact absurd word (ne_nan_of_digit kept digit)
    · rwa [filter_underscores marked] at word

end Numeral

end WorkflowInstall

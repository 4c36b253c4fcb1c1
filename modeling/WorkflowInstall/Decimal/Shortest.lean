import WorkflowInstall.Decimal.Binary
import WorkflowInstall.Text.Basic

/-!
# Decimal text of floating-point numbers

A floating-point number is written with the fewest digits that read back as it, and of those with
the ones nearest to it.

## Main Definitions

* `Decimal.shortestDigits` — the digits and the place of the point
* `Decimal.display` — the text, positional or with an exponent
* `Decimal.displayTenths` — the text with one decimal place
-/

namespace WorkflowInstall.Decimal

/-- A positive fraction. -/
structure Ratio where
  /-- The numerator. -/
  num : Nat
  /-- The denominator. -/
  den : Nat
  deriving DecidableEq, Repr

/-- A fraction times a power of ten. -/
def Ratio.scale (x : Ratio) (power : Int) : Ratio :=
  if power < 0 then ⟨x.num, x.den * Nat.pow 10 power.natAbs⟩
  else ⟨x.num * Nat.pow 10 power.toNat, x.den⟩

/-- Whether one fraction is at most another. -/
def Ratio.le (x y : Ratio) : Bool := x.num * y.den ≤ y.num * x.den

/-- Whether one fraction is below another. -/
def Ratio.lt (x y : Ratio) : Bool := x.num * y.den < y.num * x.den

/-- The power of ten just above a positive fraction: the least `p` with `x < 10 ^ p`. -/
def magnitude (x : Ratio) : Int :=
  if x.den ≤ x.num then ((Nat.toDigits 10 (x.num / x.den)).length : Int)
  else
    let steps := (Nat.toDigits 10 (x.den / x.num)).length
    if x.num * Nat.pow 10 (steps - 1) = x.den then 2 - (steps : Int) else 1 - (steps : Int)

/-- The numbers that read back as a floating-point number: the ends lie halfway to its neighbours,
and belong to it when its significand is even. -/
structure Interval where
  /-- The lower end. -/
  low : Ratio
  /-- The upper end. -/
  high : Ratio
  /-- Whether the ends belong to it. -/
  closed : Bool

/-- The interval of a positive number `significand * 2 ^ exponent`. The neighbour below a power of
two is nearer than the one above. -/
def Interval.around (significand : Nat) (exponent : Int) : Interval :=
  let (a, b) := powerOfTwo (exponent - 2)
  let below := if significand = hiddenDigit ∧ -1074 < exponent then 1 else 2
  { low := ⟨(4 * significand - below) * a, b⟩
    high := ⟨(4 * significand + 2) * a, b⟩
    closed := significand % 2 == 0 }

/-- Whether a fraction lies in an interval. -/
def Interval.contains (i : Interval) (x : Ratio) : Bool :=
  if i.closed then i.low.le x && x.le i.high else i.low.lt x && x.lt i.high

/-- The digits of a number, as a whole number, and the power of ten just above it. -/
structure Digits where
  /-- The digits. -/
  digits : Nat
  /-- The number is `0.digits * 10 ^ point`. -/
  point : Int
  deriving DecidableEq, Repr

/-- The whole number of units of the grid with `count` digits that reads back, if there is one: of
the two neighbours the nearer, of two equally near the even one. -/
def hit? (x : Ratio) (i : Interval) (point : Int) (count : Nat) : Option Nat :=
  let unit := point - count
  let scaled := x.scale (-unit)
  let down := scaled.num / scaled.den
  let fits (d : Nat) := i.contains (Ratio.scale ⟨d, 1⟩ unit)
  match fits down, fits (down + 1) with
  | true, true => some (roundToEven scaled.num scaled.den)
  | true, false => some down
  | false, true => some (down + 1)
  | false, false => none

/-- Searches the grids with `count` digits and more for a hit; `more` bounds the search. -/
def search (x : Ratio) (i : Interval) (point : Int) (count : Nat) : Nat → Digits
  | 0 => ⟨x.num / x.den, point⟩
  | more + 1 =>
    match hit? x i point count with
    | some d => if d = Nat.pow 10 count then ⟨1, point + 1⟩ else ⟨d, point⟩
    | none => search x i point (count + 1) more

/-- The fewest digits that read back as the positive number `significand * 2 ^ exponent`. -/
def shortestDigits (significand : Nat) (exponent : Int) : Digits :=
  let (a, b) := powerOfTwo exponent
  let x : Ratio := ⟨significand * a, b⟩
  search x (Interval.around significand exponent) (magnitude x) 1 17

/-- Digits without the zeros at the end. -/
def significantDigits (d : Digits) : Text :=
  Text.dropEndWhile (· == '0') (Text.ofNat d.digits)

/-- The text of digits. Between `10 ^ -4` and `10 ^ 16` it is positional and shows a decimal place;
outside it has an exponent of two or more digits with its sign. -/
def layout (d : Digits) : Text :=
  let digits := significantDigits d
  if -4 < d.point ∧ d.point ≤ 16 then
    if d.point ≤ 0 then
      "0." ++ List.replicate d.point.natAbs '0' ++ digits
    else
      let whole := d.point.toNat
      if digits.length ≤ whole then
        digits ++ List.replicate (whole - digits.length) '0' ++ ".0"
      else digits.take whole ++ "." ++ digits.drop whole
  else
    let power := d.point - 1
    let tail := if digits.length ≤ 1 then [] else '.' :: digits.drop 1
    let sign := if power < 0 then '-' else '+'
    digits.take 1 ++ tail ++ ['e', sign] ++ Text.padded 2 power.natAbs

/-- The text of a floating-point number. -/
def display (x : Float) : Text :=
  match Binary.ofFloat x with
  | .nan => "nan"
  | .infinite negative => if negative then "-inf" else "inf"
  | .finite negative significand exponent =>
    let body : Text :=
      if significand = 0 then "0.0" else layout (shortestDigits significand exponent)
    if negative then '-' :: body else body

/-- The text of a floating-point number with one decimal place; a half goes to the even digit. -/
def displayTenths (x : Float) : Text :=
  match Binary.ofFloat x with
  | .nan => "nan"
  | .infinite negative => if negative then "-inf" else "inf"
  | .finite negative significand exponent =>
    let (a, b) := powerOfTwo exponent
    let tenths := roundToEven (significand * a * 10) b
    let body : Text := Text.ofNat (tenths / 10) ++ "." ++ Text.ofNat (tenths % 10)
    if negative then '-' :: body else body

end WorkflowInstall.Decimal

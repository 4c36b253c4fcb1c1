/-!
# Binary floating-point numbers

A number of the 64-bit binary format as an exact value, and the number nearest to a fraction.

## Main Definitions

* `Decimal.Binary` — the value of a floating-point number
* `Decimal.Binary.ofFloat` — reads it off the bits
* `Decimal.nearest` — the floating-point number nearest to a fraction
-/

namespace WorkflowInstall.Decimal

/-- The value of a floating-point number. -/
inductive Binary
  /-- No number. -/
  | nan
  /-- An infinity. -/
  | infinite (negative : Bool)
  /-- `significand * 2 ^ exponent`; zero has a sign too. -/
  | finite (negative : Bool) (significand : Nat) (exponent : Int)
  deriving DecidableEq, Repr

/-- The weight of the first digit of a significand, which is not written. -/
def hiddenDigit : Nat := 0x10000000000000

/-- The number of exponents that the format has a place for. -/
def exponentFields : Nat := 2048

/-- The weight of the digit that is the sign. -/
def signDigit : Nat := 0x8000000000000000

/-- The value of a floating-point number, read off its bits. -/
def Binary.ofFloat (x : Float) : Binary :=
  let bits := x.toBits.toNat
  let negative := decide (signDigit ≤ bits)
  let field : Nat := bits / hiddenDigit % exponentFields
  let fraction : Nat := bits % hiddenDigit
  if field = exponentFields - 1 then
    if fraction = 0 then .infinite negative else .nan
  else if field = 0 then .finite negative fraction (-1074)
  else .finite negative (hiddenDigit + fraction) ((field : Int) - 1075)

/-- A power of two as a fraction. -/
def powerOfTwo (exponent : Int) : Nat × Nat :=
  if exponent < 0 then (1, Nat.pow 2 exponent.natAbs) else (Nat.pow 2 exponent.toNat, 1)

/-- The whole number nearest to a fraction; a half goes to the even neighbour. -/
def roundToEven (num den : Nat) : Nat :=
  let q := num / den
  let r := num % den
  if den < 2 * r ∨ (den = 2 * r ∧ q % 2 = 1) then q + 1 else q

/-- The greatest exponent whose multiples have 53 binary digits at the fraction, but none below that
of the least positive number. -/
def gridExponent (num den : Nat) : Int :=
  let guess : Int := (num.log2 : Int) - den.log2 - 53
  let (a, b) := powerOfTwo (guess + 1)
  let exponent := if hiddenDigit * a * den ≤ num * b then guess + 1 else guess
  max exponent (-1074)

/-- The bits of the number nearest to a positive fraction, an infinity past the greatest number. -/
def nearestBits (num den : Nat) : Nat :=
  let exponent := gridExponent num den
  let (a, b) := powerOfTwo exponent
  let significand := roundToEven (num * b) (den * a)
  min ((exponent + 1074).toNat * hiddenDigit + significand)
    ((exponentFields - 1) * hiddenDigit)

/-- The floating-point number nearest to a fraction. -/
def nearest (negative : Bool) (num den : Nat) : Float :=
  let bits := if num = 0 then 0 else nearestBits num den
  Float.ofBits (UInt64.ofNat (if negative then signDigit + bits else bits))

/-- A whole number as a floating-point number; none when it is too large for one. -/
def ofInt? (n : Int) : Option Float :=
  let x := nearest (n < 0) n.natAbs 1
  if x.isInf then none else some x

/-- The whole part of a floating-point number; none when it is no finite number. -/
def wholePart? (x : Float) : Option Int :=
  match Binary.ofFloat x with
  | .finite negative significand exponent =>
    let (a, b) := powerOfTwo exponent
    let whole : Int := (significand * a / b : Nat)
    some (if negative then -whole else whole)
  | _ => none

end WorkflowInstall.Decimal

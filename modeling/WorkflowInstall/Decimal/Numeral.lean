import WorkflowInstall.Decimal.Binary
import WorkflowInstall.Text.Blank
import WorkflowInstall.Text.Digit

/-!
# Numerals

The texts that stand for whole numbers and for decimal fractions. Blanks may surround a numeral, a
sign may lead it, digits of every script count, and one underscore may stand between two digits.

## Main Definitions

* `Numeral.readInt` — a whole number in a base
* `Numeral.readFloat?` — a decimal fraction, an infinity or no number
* `Numeral.isTooLong` — whether a whole number has more digits than are written

## Design Notes

A decimal numeral of more than `Numeral.digitLimit` digits is refused, because reading it costs
time quadratic in its length, and so does writing it. In the bases two, eight and sixteen there is
no such limit.
-/

namespace WorkflowInstall.Numeral

/-- Why a text is no whole number. -/
inductive Failure
  /-- The text is no numeral of the base. -/
  | malformed
  /-- The numeral has more decimal digits than are read. -/
  | tooLong (digits : Nat)
  deriving DecidableEq, Repr

/-- The number of decimal digits that are read or written. -/
def digitLimit : Nat := 4300

/-- Whether a whole number has more decimal digits than are written. -/
def isTooLong (n : Int) : Bool := Nat.pow 10 digitLimit ≤ n.natAbs

/-- Whether a character may surround a numeral. The four ASCII separators may not. -/
def isPadding (c : Char) : Bool :=
  Text.isBlank c && !(28 ≤ c.toNat && c.toNat ≤ 31)

/-- The text with decimal digits of every script written in ASCII. -/
def withAsciiDigits (text : Text) : Text :=
  text.map fun c =>
    match Text.decimalDigit? c with
    | some n => Nat.digitChar n
    | none => c

/-- The text without the padding at its ends, its digits in ASCII. -/
def core (text : Text) : Text :=
  Text.dropEndWhile isPadding ((withAsciiDigits text).dropWhile isPadding)

/-- A sign and what follows it. -/
def takeSign : Text → Bool × Text
  | '+' :: rest => (false, rest)
  | '-' :: rest => (true, rest)
  | text => (false, text)

/-- Whether the underscores of a text stand between two of its digits each. -/
def underscoresBetween (isDigit : Char → Bool) : (before : Char) → Text → Bool
  | before, [] => before != '_'
  | before, c :: rest =>
    (if c = '_' then isDigit before else before != '_' || isDigit c) &&
      underscoresBetween isDigit c rest

/-- The value of a digit below the base. -/
def digitBelow? (base : Nat) (c : Char) : Option Nat :=
  match Text.digitValue? c with
  | some n => if n < base then some n else none
  | none => none

/-- Whether a character is a digit of the base. -/
def isDigitOf (base : Nat) (c : Char) : Bool := (digitBelow? base c).isSome

/-- The letter that may stand after a zero to name a base. -/
def baseLetter? : Nat → Option Char
  | 2 => some 'b'
  | 8 => some 'o'
  | 16 => some 'x'
  | _ => none

/-- The text without the name of its base. One underscore may follow the name. -/
def dropBaseName (base : Nat) (text : Text) : Text :=
  match baseLetter? base, text with
  | some letter, '0' :: c :: rest =>
    if c.toLower = letter then
      match rest with
      | '_' :: rest => rest
      | _ => rest
    else text
  | _, _ => text

/-- The value of digits; other characters are skipped. -/
def valueOf (base : Nat) (text : Text) : Nat :=
  text.foldl (fun n c => match digitBelow? base c with | some d => n * base + d | none => n) 0

/-- A whole number in a base. -/
def readInt (base : Nat) (text : Text) : Except Failure Int :=
  let (negative, unsigned) := takeSign (core text)
  let digits := dropBaseName base unsigned
  let run := digits.takeWhile fun c => isDigitOf base c || c == '_'
  if !underscoresBetween (isDigitOf base) '_' run then .error .malformed
  else
    let count := run.countP (isDigitOf base)
    if base = 10 ∧ digitLimit < count then .error (.tooLong count)
    else if run.length < digits.length then .error .malformed
    else
      let value : Int := valueOf base run
      .ok (if negative then -value else value)

/-- A decimal fraction: `digits * 10 ^ power`. -/
structure Fraction where
  /-- The digits, without the point. -/
  digits : Nat
  /-- The power of ten. -/
  power : Int
  deriving DecidableEq, Repr

/-- Whether a character is an ASCII digit. -/
def isDigit (c : Char) : Bool := '0' ≤ c && c ≤ '9'

/-- The exponent at the end of a numeral, zero when there is none. -/
def exponent? : Text → Option Int
  | [] => some 0
  | e :: rest =>
    if e = 'e' ∨ e = 'E' then
      let (negative, digits) := takeSign rest
      if digits.isEmpty || !digits.all isDigit then none
      else
        let value : Int := valueOf 10 digits
        some (if negative then -value else value)
    else none

/-- An unsigned decimal fraction without underscores. -/
def fraction? (text : Text) : Option Fraction :=
  let whole := text.takeWhile isDigit
  let (places, rest) :=
    match text.dropWhile isDigit with
    | '.' :: rest => (rest.takeWhile isDigit, rest.dropWhile isDigit)
    | rest => ([], rest)
  if whole.isEmpty && places.isEmpty then none
  else
    (exponent? rest).map fun power => ⟨valueOf 10 (whole ++ places), power - places.length⟩

/-- The floating-point number nearest to a decimal fraction. Powers far outside the range of the
format are decided by their size. -/
def Fraction.toFloat (negative : Bool) (f : Fraction) : Float :=
  let size : Int := f.power + (Nat.toDigits 10 f.digits).length
  if f.digits = 0 ∨ size < -400 then Decimal.nearest negative 0 1
  else if 400 < size then Decimal.nearest negative (Nat.pow 10 400) 1
  else if f.power < 0 then Decimal.nearest negative f.digits (Nat.pow 10 f.power.natAbs)
  else Decimal.nearest negative (f.digits * Nat.pow 10 f.power.toNat) 1

/-- A decimal fraction, an infinity or no number. -/
def readFloat? (text : Text) : Option Float :=
  let trimmed := core text
  if trimmed.contains '_' && !underscoresBetween isDigit 'x' trimmed then none
  else
    let (negative, unsigned) := takeSign (trimmed.filter (· != '_'))
    let word := Text.lowerAscii unsigned
    if word = "inf" ∨ word = "infinity" then some (Decimal.nearest negative (Nat.pow 10 400) 1)
    else if word = "nan" then some (0.0 / 0.0)
    else (fraction? unsigned).map (Fraction.toFloat negative)

end WorkflowInstall.Numeral

import WorkflowInstall.Text.Quoted
import WorkflowInstall.Text.Utf8

/-!
# Faults of YAML documents

Why a text is no YAML document, or why a scalar of it cannot have the type that it claims.

## Main Definitions

* `Yaml.Fault` — the fault
* `Yaml.Fault.message` — the fault in words
-/

namespace WorkflowInstall.Yaml

/-- Why a date or time does not exist. -/
inductive CalendarProblem
  | yearZero
  | month
  | day
  | hour
  | minute
  | second
  /-- The distance from the universal time is a day or more; it is given in minutes. -/
  | offset (minutes : Int)
  deriving DecidableEq, Repr

/-- A span of whole minutes as days and seconds, the seconds not negative. -/
def spanText (minutes : Int) : Text :=
  let days := minutes.fdiv 1440
  let seconds := minutes.fmod 1440 * 60
  let parts : List Text :=
    (if days = 0 then [] else ["days=" ++ Text.ofInt days]) ++
      (if seconds = 0 then [] else ["seconds=" ++ Text.ofInt seconds])
  let inside : Text := if parts.isEmpty then "0" else Text.joinWith ", " parts
  "datetime.timedelta(" ++ inside ++ ")"

/-- The problem in words. -/
def CalendarProblem.message : CalendarProblem → Text
  | .yearZero => "year 0 is out of range"
  | .month => "month must be in 1..12"
  | .day => "day is out of range for month"
  | .hour => "hour must be in 0..23"
  | .minute => "minute must be in 0..59"
  | .second => "second must be in 0..59"
  | .offset minutes =>
    "offset must be a timedelta strictly between -timedelta(hours=24) and timedelta(hours=24), not "
      ++ spanText minutes ++ "."

/-- What is wrong with a document. -/
inductive Fault
  /-- It breaks the grammar, names a type that is unknown, or uses a value where it cannot stand. -/
  | malformed
  /-- A scalar of the type of truth values is none of their names. -/
  | unknownBool (word : Text)
  /-- A scalar of the type of whole numbers is no numeral of the base. -/
  | notInteger (base : Nat) (text : Text)
  /-- A whole number has more digits than are read. -/
  | integerTooLong (digits : Nat)
  /-- A scalar of a number type has no character after its sign. -/
  | emptyNumber
  /-- A scalar of the type of floating-point numbers is no numeral. -/
  | notFloat (text : Text)
  /-- A sexagesimal numeral has too many places for a floating-point number. -/
  | numberTooLarge
  /-- A date or time does not exist. -/
  | calendar (problem : CalendarProblem)
  /-- A scalar of the type of timestamps is none. -/
  | notTimestamp
  /-- The type of timestamps is given to a collection. -/
  | timestampOfCollection
  /-- An escaped code point is past the last character. -/
  | badCodePoint (code : Nat)
  /-- A piece of the document is no UTF-8. -/
  | undecodable (part : Utf8.Malformed)
  deriving DecidableEq, Repr

/-- The fault in words. -/
def Fault.message : Fault → Text
  | .malformed => []
  | .unknownBool word => word
  | .notInteger base text =>
    "invalid literal for int() with base " ++ Text.ofNat base ++ ": " ++ (Text.quoted text).take 200
  | .integerTooLong digits =>
    "Exceeds the limit (4300 digits) for integer string conversion: value has " ++
      Text.ofNat digits ++ " digits; use sys.set_int_max_str_digits() to increase the limit"
  | .emptyNumber => "string index out of range"
  | .notFloat text => "could not convert string to float: " ++ Text.quoted text
  | .numberTooLarge => "int too large to convert to float"
  | .calendar problem => problem.message
  | .notTimestamp => "'NoneType' object has no attribute 'groupdict'"
  | .timestampOfCollection => "expected string or bytes-like object, got 'list'"
  | .badCodePoint code =>
    if code < 0x80000000 then "chr() arg not in range(0x110000)"
    else "Python int too large to convert to C int"
  | .undecodable part => part.message

end WorkflowInstall.Yaml

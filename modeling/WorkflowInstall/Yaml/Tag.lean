import WorkflowInstall.Text.Basic

/-!
# Tags of YAML nodes

The type of a node, and the type that a plain scalar has by its looks.

## Main Definitions

* `Yaml.Tag` — the type of a node
* `Yaml.Tag.ofUri` — the type that a tag names
* `Yaml.Tag.ofPlain` — the type of a plain scalar

## Design Notes

A plain scalar is a truth value, a number, a timestamp or the like when it has the form of one, else
a string. The forms are those of version 1.1 of the language; one line feed at the end of a scalar
does not count.
-/

namespace WorkflowInstall.Yaml

/-- The type of a node. -/
inductive Tag
  | null
  | bool
  | int
  | float
  | binary
  | timestamp
  | omap
  | pairs
  | set
  | str
  | seq
  | map
  /-- The key that merges a mapping into another one. -/
  | merge
  /-- The key whose value stands for the whole mapping. -/
  | value
  /-- A type that no value can be made of. -/
  | other (uri : Text)
  deriving DecidableEq, Repr

namespace Tag

/-- What the tags of the language begin with. -/
def base : Text := "tag:yaml.org,2002:"

/-- The types that have a name in the language. -/
def named : List (Text × Tag) :=
  [("null", .null), ("bool", .bool), ("int", .int), ("float", .float), ("binary", .binary),
    ("timestamp", .timestamp), ("omap", .omap), ("pairs", .pairs), ("set", .set), ("str", .str),
    ("seq", .seq), ("map", .map), ("merge", .merge), ("value", .value)]

/-- The type that a tag names. -/
def ofUri (uri : Text) : Tag :=
  if Text.startsWith base uri then
    (named.lookup (uri.drop base.length)).getD (.other uri)
  else .other uri

/-! ## The forms of plain scalars -/

/-- Whether a character is a decimal digit or an underscore. -/
def isDigitOrScore (c : Char) : Bool := c.isDigit || c == '_'

/-- The text without its sign. -/
def dropSign : Text → Text
  | '+' :: rest => rest
  | '-' :: rest => rest
  | text => text

/-- Whether a text is a digit with digits and underscores after it. -/
def isDigits : Text → Bool
  | [] => false
  | c :: rest => c.isDigit && rest.all isDigitOrScore

/-- Whether a text is a number below sixty in one or two digits. -/
def isSexagesimalPlace : Text → Bool
  | [c] => c.isDigit
  | [a, b] => '0' ≤ a && a ≤ '5' && b.isDigit
  | _ => false

/-- Whether a text is digits and then places below sixty, with colons between them. -/
def isSexagesimal (first : Text → Bool) (text : Text) : Bool :=
  match Text.splitOn ':' text with
  | head :: place :: places => first head && (place :: places).all isSexagesimalPlace
  | _ => false

/-- Whether a text has the form of a truth value. -/
def isBool (text : Text) : Bool :=
  let words : List Text :=
    ["yes", "Yes", "YES", "no", "No", "NO", "true", "True", "TRUE", "false", "False", "FALSE", "on",
      "On", "ON", "off", "Off", "OFF"]
  words.contains text

/-- Whether a text has the form of the exponent of a floating-point number, or is empty. -/
def isExponent : Text → Bool
  | [] => true
  | e :: sign :: digits =>
    (e == 'e' || e == 'E') && (sign == '+' || sign == '-') && !digits.isEmpty &&
      digits.all Char.isDigit
  | _ => false

/-- Whether a text has the form of a decimal fraction with a point. -/
def isFraction (text : Text) : Bool :=
  match Text.cutAt '.' text with
  | (_, none) => false
  | (whole, some rest) =>
    let places := rest.takeWhile isDigitOrScore
    isExponent (rest.dropWhile isDigitOrScore) &&
      (isDigits (dropSign whole) || (whole.isEmpty && isDigits places))

/-- Whether a text has the form of a sexagesimal number with a point at its end. -/
def isSexagesimalFraction (text : Text) : Bool :=
  match Text.cutAt '.' text with
  | (whole, some rest) => rest.all isDigitOrScore && isSexagesimal isDigits (dropSign whole)
  | (_, none) => false

/-- Whether a text has the form of a floating-point number. -/
def isFloat (text : Text) : Bool :=
  let infinities : List Text := [".inf", ".Inf", ".INF"]
  let nans : List Text := [".nan", ".NaN", ".NAN"]
  isFraction text || isSexagesimalFraction text || infinities.contains (dropSign text) ||
    nans.contains text

/-- Whether a text is digits that do not begin with a zero. -/
def isPositive (text : Text) : Bool := isDigits text && text.head? != some '0'

/-- Whether a text has the form of a whole number. -/
def isInt (text : Text) : Bool :=
  let body := dropSign text
  let inBase (isDigit : Char → Bool) (digits : Text) :=
    !digits.isEmpty && digits.all fun c => isDigit c || c == '_'
  match body with
  | ['0'] => true
  | '0' :: 'b' :: digits => inBase (fun c => c == '0' || c == '1') digits
  | '0' :: 'x' :: digits =>
    inBase (fun c => c.isDigit || ('a' ≤ c && c ≤ 'f') || ('A' ≤ c && c ≤ 'F')) digits
  | '0' :: digits => inBase (fun c => '0' ≤ c && c ≤ '7') digits
  | _ => isPositive body || isSexagesimal isPositive body

/-- The parts of a timestamp, as digits. -/
structure Stamp where
  year : Text
  month : Text
  day : Text
  /-- The hour, the minute and the second. -/
  time : Option (Text × Text × Text)
  /-- The digits after the point of the second. -/
  fraction : Text
  /-- Whether the zone is given, and if it is a distance, its sign, hours and minutes. -/
  zone : Option (Option (Bool × Text × Text))
  deriving DecidableEq, Repr

/-- One or two digits at the front of a text. -/
def oneOrTwoDigits : Text → Option (Text × Text)
  | a :: b :: rest =>
    if a.isDigit then some (if b.isDigit then ([a, b], rest) else ([a], b :: rest)) else none
  | [a] => if a.isDigit then some ([a], []) else none
  | [] => none

/-- Two digits at the front of a text. -/
def twoDigits : Text → Option (Text × Text)
  | a :: b :: rest => if a.isDigit && b.isDigit then some ([a, b], rest) else none
  | _ => none

/-- The text after a given character. -/
def after? (c : Char) : Text → Option Text
  | d :: rest => if c = d then some rest else none
  | [] => none

/-- Whether a character is a space or a tab. -/
def isSpaceOrTab (c : Char) : Bool := c == ' ' || c == '\t'

/-- The zone at the end of a timestamp. -/
def zone? (text : Text) : Option (Option (Option (Bool × Text × Text))) :=
  match text, text.dropWhile isSpaceOrTab with
  | [], _ => some none
  | _, ['Z'] => some (some none)
  | _, sign :: rest =>
    if sign = '+' ∨ sign = '-' then do
      let (hours, rest) ← oneOrTwoDigits rest
      match rest with
      | [] => some (some (some (sign == '-', hours, [])))
      | _ => do
        let (minutes, rest) ← twoDigits (← after? ':' rest)
        if rest.isEmpty then some (some (some (sign == '-', hours, minutes))) else none
    else none
  | _, [] => none

/-- The text after the sign between a date and a time. -/
def afterDateSign? : Text → Option Text
  | 'T' :: rest => some rest
  | 't' :: rest => some rest
  | c :: rest => if isSpaceOrTab c then some (rest.dropWhile isSpaceOrTab) else none
  | [] => none

/-- The parts of a timestamp. -/
def stamp? (text : Text) : Option Stamp := do
  let (century, rest) ← twoDigits text
  let (decade, rest) ← twoDigits rest
  let (month, rest) ← oneOrTwoDigits (← after? '-' rest)
  let (day, rest) ← oneOrTwoDigits (← after? '-' rest)
  let date : Stamp := ⟨century ++ decade, month, day, none, [], none⟩
  if rest.isEmpty then some date
  else
    let (hour, rest) ← oneOrTwoDigits (← afterDateSign? rest)
    let (minute, rest) ← twoDigits (← after? ':' rest)
    let (second, rest) ← twoDigits (← after? ':' rest)
    let (fraction, rest) :=
      match rest with
      | '.' :: rest => (rest.takeWhile Char.isDigit, rest.dropWhile Char.isDigit)
      | _ => ([], rest)
    let zone ← zone? rest
    some { date with time := some (hour, minute, second), fraction := fraction, zone := zone }

/-- Whether a text has the form of a timestamp. A date alone has two digits for month and day. -/
def isTimestamp (text : Text) : Bool :=
  match stamp? text with
  | none => false
  | some stamp => stamp.time.isSome || (stamp.month.length == 2 && stamp.day.length == 2)

/-- Whether a text has the form of nothing. -/
def isNull (text : Text) : Bool :=
  let words : List Text := ["~", "null", "Null", "NULL", ""]
  words.contains text

/-- The text without one line feed at its end. -/
def dropLineFeed (text : Text) : Text :=
  if Text.endsWith "\n" text then text.dropLast else text

/-- The type of a plain scalar. -/
def ofPlain (scalar : Text) : Tag :=
  let text := dropLineFeed scalar
  if scalar.isEmpty then .null
  else if isBool text then .bool
  else if isFloat text then .float
  else if isInt text then .int
  else if text = "<<" then .merge
  else if isNull text && !text.isEmpty then .null
  else if isTimestamp text then .timestamp
  else if text = "=" then .value
  else if text = "!" ∨ text = "&" ∨ text = "*" then .other (base ++ "yaml")
  else .str

end Tag

end WorkflowInstall.Yaml

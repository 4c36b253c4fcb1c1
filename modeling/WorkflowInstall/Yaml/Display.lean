import WorkflowInstall.Decimal.Shortest
import WorkflowInstall.Yaml.Value

/-!
# YAML values as texts

A setting that has to be a text but is another value is written out.

## Main Definitions

* `Yaml.Value.quoted` — a value as it stands inside a collection
* `Yaml.Value.display` — a value that stands alone
* `Yaml.Value.isTooLong` — whether a number in a value has more digits than are written
* `Yaml.Value.isEmpty` — the values that count as no setting
-/

namespace WorkflowInstall.Yaml

/-- The arguments that name a day. -/
def Date.arguments (d : Date) : List Text :=
  [Text.ofNat d.year, Text.ofNat d.month, Text.ofNat d.day]

/-- A day as it stands inside a collection. -/
def Date.quoted (d : Date) : Text := "datetime.date(" ++ Text.joinWith ", " d.arguments ++ ")"

/-- A time zone as it stands inside a collection. -/
def zoneText (minutes : Int) : Text :=
  if minutes = 0 then "datetime.timezone.utc"
  else "datetime.timezone(" ++ spanText minutes ++ ")"

/-- A moment as it stands inside a collection. Seconds and their fraction are left out from the
right while they are zero. -/
def DateTime.quoted (t : DateTime) : Text :=
  let small : List Text :=
    if t.microsecond ≠ 0 then [Text.ofNat t.second, Text.ofNat t.microsecond]
    else if t.second ≠ 0 then [Text.ofNat t.second]
    else []
  let zone : List Text :=
    match t.offset with
    | some minutes => ["tzinfo=" ++ zoneText minutes]
    | none => []
  let arguments := t.date.arguments ++ [Text.ofNat t.hour, Text.ofNat t.minute] ++ small ++ zone
  "datetime.datetime(" ++ Text.joinWith ", " arguments ++ ")"

namespace Value

/-- The whole number that a value is; a truth value is zero or one. -/
def whole? : Value → Option Int
  | .bool b => some (if b then 1 else 0)
  | .int n => some n
  | _ => none

/-- The texts of the items of a set. Whole numbers come in ascending order. -/
def inOrder (items : List Value) (texts : List Text) : List Text :=
  match items.mapM whole? with
  | some numbers =>
    let ascending := (numbers.zip texts).mergeSort fun a b => decide (a.1 ≤ b.1)
    ascending.map Prod.snd
  | none => texts

mutual

/-- A value as it stands inside a collection. -/
def quoted : Value → Text
  | .null => "None"
  | .bool b => if b then "True" else "False"
  | .int n => Text.ofInt n
  | .float x => Decimal.display x
  | .text words => Text.quoted words
  | .bytes content => Text.quotedBytes content
  | .date d => d.quoted
  | .dateTime t => t.quoted
  | .list items => "[" ++ Text.joinWith ", " (quotedAll items) ++ "]"
  | .map pairs => "\x7b" ++ Text.joinWith ", " (quotedPairs pairs) ++ "\x7d"
  | .set [] => "set()"
  | .set (item :: items) =>
    let texts := inOrder (item :: items) (quoted item :: quotedAll items)
    "\x7b" ++ Text.joinWith ", " texts ++ "\x7d"
  | .entry key value => "(" ++ quoted key ++ ", " ++ quoted value ++ ")"
  | .cycle .list => "[...]"
  | .cycle .map => "\x7b...\x7d"
  | .cycle .set => "set(...)"

/-- Values as they stand inside a collection. -/
def quotedAll : List Value → List Text
  | [] => []
  | item :: items => quoted item :: quotedAll items

/-- The pairs of a mapping, each with a colon between key and value. -/
def quotedPairs : List (Value × Value) → List Text
  | [] => []
  | (key, value) :: pairs => (quoted key ++ ": " ++ quoted value) :: quotedPairs pairs

end

/-- A value that stands alone. -/
def display : Value → Text
  | .text words => words
  | .date d => d.iso
  | .dateTime t => t.iso ' '
  | value => value.quoted

mutual

/-- Whether a whole number in a value has more digits than are written. -/
def isTooLong : Value → Bool
  | .int n => Numeral.isTooLong n
  | .list items => anyTooLong items
  | .map pairs => anyPairTooLong pairs
  | .set items => anyTooLong items
  | .entry key value => isTooLong key || isTooLong value
  | _ => false

/-- Whether a whole number in some values has more digits than are written. -/
def anyTooLong : List Value → Bool
  | [] => false
  | item :: items => isTooLong item || anyTooLong items

/-- Whether a whole number in the pairs of a mapping has more digits than are written. -/
def anyPairTooLong : List (Value × Value) → Bool
  | [] => false
  | (key, value) :: pairs => isTooLong key || isTooLong value || anyPairTooLong pairs

end

/-- Whether a value counts as no setting: nothing, false, zero, and what holds nothing. -/
def isEmpty : Value → Bool
  | .null => true
  | .bool b => !b
  | .int n => n == 0
  | .float x => x == 0.0
  | .text words => words.isEmpty
  | .bytes content => content.isEmpty
  | .list items => items.isEmpty
  | .map pairs => pairs.isEmpty
  | .set items => items.isEmpty
  | _ => false

end Value

end WorkflowInstall.Yaml

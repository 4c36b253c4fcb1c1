import WorkflowInstall.Text.Surrogate

/-!
# JSON

A reader for the answers of the hosting service.

## Main Definitions

* `Json` — a value
* `Json.read` — the value of a text
* `Json.field?` — a member of an object

## Design Notes

Besides the numbers of the grammar the words `NaN`, `Infinity` and `-Infinity` are read. A text
holds no control character, and of equal names in an object the last one counts. A whole number of
more than `Json.digitLimit` digits is refused. Half of a surrogate pair that stands alone is kept by
its stand-in.

Every call of `value` and of the functions beside it takes at least one character, so the length of
the text bounds how deep they call each other.
-/

namespace WorkflowInstall

/-- A JSON value. -/
inductive Json
  | null
  | bool (value : Bool)
  /-- A number, as it is written. -/
  | number (numeral : Text)
  | text (value : Text)
  | list (items : List Json)
  /-- The members of an object in order. -/
  | object (members : List (Text × Json))

namespace Json

/-- Whether a character may stand between values. -/
def isSpace (c : Char) : Bool := c == ' ' || c == '\t' || c == '\n' || c == '\r'

/-- The text without the spaces at its front. -/
def skip (text : Text) : Text := text.dropWhile isSpace

/-! ## Texts -/

/-- What a character after a backslash means. -/
def escapes : List (Char × Char) :=
  [('"', '"'), ('\\', '\\'), ('/', '/'), ('b', '\x08'), ('f', '\x0c'), ('n', '\n'), ('r', '\r'),
    ('t', '\t')]

/-- The value of a hexadecimal digit. -/
def hexValue? (c : Char) : Option Nat :=
  match Text.digitValue? c with
  | some n => if n < 16 then some n else none
  | none => none

/-- The number that four hexadecimal digits stand for. -/
def unit? (a b c d : Char) : Option Nat := do
  return (((← hexValue? a) * 16 + (← hexValue? b)) * 16 + (← hexValue? c)) * 16 + (← hexValue? d)

/-- Whether a number is the first half of a surrogate pair. -/
def isHighHalf (n : Nat) : Bool := 0xD800 ≤ n && n < 0xDC00

/-- Whether a number is the second half of a surrogate pair. -/
def isLowHalf (n : Nat) : Bool := 0xDC00 ≤ n && n < 0xE000

/-- The code of the character that two halves make. -/
def pairCode (high low : Nat) : Nat := 0x10000 + (high - 0xD800) * 0x400 + (low - 0xDC00)

/-- The number of the escape that stands at the front, if there is one. -/
def nextUnit? : Text → Option Nat
  | '\\' :: 'u' :: a :: b :: c :: d :: _ => unit? a b c d
  | _ => none

/-- The text up to the closing quotation mark, and what stands after the mark. `pending` is the
first half of a surrogate pair that has been read. -/
def untilQuote (pending : Option Nat) : Text → Option (Text × Text)
  | [] => none
  | '"' :: rest => some ([], rest)
  | '\\' :: 'u' :: a :: b :: c :: d :: rest =>
    match unit? a b c d with
    | none => none
    | some low =>
      match pending with
      | some high =>
        (untilQuote none rest).map fun (inside, after) =>
          (Surrogate.ofCode (pairCode high low) ++ inside, after)
      | none =>
        if isHighHalf low && (nextUnit? rest).any isLowHalf then untilQuote (some low) rest
        else
          (untilQuote none rest).map fun (inside, after) => (Surrogate.ofCode low ++ inside, after)
  | '\\' :: c :: rest =>
    match escapes.lookup c with
    | some meaning => (untilQuote none rest).map fun (inside, after) => (meaning :: inside, after)
    | none => none
  | c :: rest =>
    if c.toNat < 0x20 then none
    else (untilQuote none rest).map fun (inside, after) => (c :: inside, after)

/-! ## Numbers -/

/-- Whether a character is an ASCII digit. -/
def isDigit (c : Char) : Bool := '0' ≤ c && c ≤ '9'

/-- The greatest number of digits of a whole number. -/
def digitLimit : Nat := 4300

/-- The digits before the point. A zero stands alone. -/
def wholePart (text : Text) : Text :=
  match text with
  | '0' :: _ => ['0']
  | _ => text.takeWhile isDigit

/-- The point and the digits after it, if there are any. -/
def places : Text → Text
  | '.' :: rest =>
    let digits := rest.takeWhile isDigit
    if digits.isEmpty then [] else '.' :: digits
  | _ => []

/-- The exponent, if there is one. -/
def exponent : Text → Text
  | e :: rest =>
    if e = 'e' ∨ e = 'E' then
      let sign := (rest.take 1).filter fun c => c == '+' || c == '-'
      let digits := (rest.drop sign.length).takeWhile isDigit
      if digits.isEmpty then [] else e :: (sign ++ digits)
    else []
  | [] => []

/-- The number at the front of a text, and what stands after it. -/
def number? (text : Text) : Option (Json × Text) :=
  let sign := (text.take 1).filter (· == '-')
  let text := text.drop sign.length
  let whole := wholePart text
  let text := text.drop whole.length
  let fraction := places text
  let text := text.drop fraction.length
  let power := exponent text
  if whole.isEmpty then none
  else if fraction.isEmpty && power.isEmpty && decide (digitLimit < whole.length) then none
  else some (.number (sign ++ whole ++ fraction ++ power), text.drop power.length)

/-! ## Values -/

/-- The words that are values. -/
def words : List (Text × Json) :=
  [("null", .null), ("true", .bool true), ("false", .bool false), ("NaN", .number "NaN"),
    ("Infinity", .number "Infinity"), ("-Infinity", .number "-Infinity")]

/-- The word or number at the front of a text, and what stands after it. -/
def plain? (text : Text) : Option (Json × Text) :=
  match words.find? fun word => Text.startsWith word.1 text with
  | some (word, value) => some (value, text.drop word.length)
  | none => number? text

mutual

/-- The value at the front of a text, and what stands after it. -/
def value : Nat → Text → Option (Json × Text)
  | 0, _ => none
  | bound + 1, input =>
    match input with
    | '"' :: rest => (untilQuote none rest).map fun (inside, after) => (.text inside, after)
    | '[' :: rest =>
      match skip rest with
      | ']' :: after => some (.list [], after)
      | rest => (items bound rest).map fun (found, after) => (.list found, after)
    | c :: rest =>
      if c = '\x7b' then
        match skip rest with
        | '\x7d' :: after => some (.object [], after)
        | rest => (members bound rest).map fun (found, after) => (.object found, after)
      else plain? input
    | [] => none

/-- The items of a list, the first of which is at the front, and what stands after the list. -/
def items : Nat → Text → Option (List Json × Text)
  | 0, _ => none
  | bound + 1, input => do
    let (first, rest) ← value bound input
    match skip rest with
    | ']' :: after => some ([first], after)
    | ',' :: rest => do
      let (more, after) ← items bound (skip rest)
      some (first :: more, after)
    | _ => none

/-- The members of an object, the first of which is at the front, and what stands after the
object. -/
def members : Nat → Text → Option (List (Text × Json) × Text)
  | 0, _ => none
  | bound + 1, input =>
    match input with
    | '"' :: rest => do
      let (name, rest) ← untilQuote none rest
      match skip rest with
      | ':' :: rest => do
        let (found, rest) ← value bound (skip rest)
        match skip rest with
        | '\x7d' :: after => some ([(name, found)], after)
        | ',' :: rest => do
          let (more, after) ← members bound (skip rest)
          some ((name, found) :: more, after)
        | _ => none
      | _ => none
    | _ => none

end

/-- The value of a text that holds nothing else. -/
def read (text : Text) : Option Json :=
  match value (text.length + 1) (skip text) with
  | some (found, rest) => if (skip rest).isEmpty then some found else none
  | none => none

/-- The member of an object with a name; of equal names the last one counts. -/
def field? (name : Text) : Json → Option Json
  | .object members => members.reverse.lookup name
  | _ => none

/-- The text that a value is. -/
def text? : Json → Option Text
  | .text value => some value
  | _ => none

end Json

end WorkflowInstall

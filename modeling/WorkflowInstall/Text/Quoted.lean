import WorkflowInstall.Text.Printable
import WorkflowInstall.Text.Surrogate

/-!
# Quoted text

A text between quotation marks, in one line of printable characters. The mark is the apostrophe,
unless the text holds an apostrophe and no double quote. The mark and the backslash are escaped by a
backslash; characters that do not show themselves are written by name or code.

## Main Definitions

* `Text.quoted` — a quoted text
* `Text.quotedBytes` — quoted bytes, where every byte outside printable ASCII is written by its code
* `Text.quotedList` — quoted texts between brackets
-/

namespace WorkflowInstall.Text

/-- The mark around a text. -/
def quotationMark (text : Text) : Char :=
  if text.contains '\'' && !text.contains '"' then '"' else '\''

/-- The shortest code of a character that does not show itself. -/
def escapeCode (n : Nat) : Text :=
  if n < 0x100 then "\\x" ++ hex 2 n
  else if n < 0x10000 then "\\u" ++ hex 4 n
  else "\\U" ++ hex 8 n

/-- A character between the given marks. -/
def quoteChar (mark c : Char) : Text :=
  if c = mark ∨ c = '\\' then ['\\', c]
  else if c = '\n' then "\\n"
  else if c = '\r' then "\\r"
  else if c = '\t' then "\\t"
  else if isPrintable c then [c]
  else escapeCode c.toNat

/-- A code between the given marks. -/
def quoteCode (mark : Char) (code : Nat) : Text :=
  if Surrogate.isHalf code then escapeCode code else quoteChar mark (Char.ofNat code)

/-- A text between quotation marks. -/
def quoted (text : Text) : Text :=
  let mark := quotationMark text
  mark :: ((Surrogate.codes text).flatMap (quoteCode mark) ++ [mark])

/-- Bytes between quotation marks. -/
def quotedBytes (bytes : Bytes) : Text :=
  let chars : Text := bytes.map fun b => Char.ofNat b.toNat
  let mark := quotationMark chars
  let one (c : Char) : Text := if c.toNat < 0x7F then quoteChar mark c else escapeCode c.toNat
  'b' :: mark :: (chars.flatMap one ++ [mark])

/-- Quoted texts between brackets. -/
def quotedList (texts : List Text) : Text :=
  "[" ++ joinWith ", " (texts.map quoted) ++ "]"

end WorkflowInstall.Text

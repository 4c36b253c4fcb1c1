import WorkflowInstall.Text.Pieces
import WorkflowInstall.Yaml.Fault

/-!
# Documents as they come in

A document is read only as far as its tokens are needed. The text that can be read is followed by
its end, or by a fault that shows when something behind the text is looked at.

## Main Definitions

* `Yaml.isAllowed` — the characters that may stand in a document
* `Yaml.Supply` — what there is to read
* `Yaml.Supply.ofText` — a text that is at hand
* `Yaml.Supply.ofFile` — a file that comes in pieces

## Design Notes

A text is checked as a whole before anything is read. Of a file each piece is checked when it comes
in; the first two come in together.
-/

namespace WorkflowInstall.Yaml

/-- Whether a character may stand in a document. Half of a surrogate pair may not. -/
def isAllowed (c : Char) : Bool :=
  let n := Surrogate.codeOf c
  n == 9 || n == 10 || n == 13 || (0x20 ≤ n && n ≤ 0x7E) || n == 0x85 || (0xA0 ≤ n && n ≤ 0xD7FF) ||
    (0xE000 ≤ n && n ≤ 0xFFFD) || 0x10000 ≤ n

/-- What there is to read of a document. -/
structure Supply where
  /-- The text that can be read. -/
  text : Text
  /-- The fault behind the text; none when the document ends there. -/
  fault : Option Fault
  deriving Repr

namespace Supply

/-- What there is to read of pieces that come in one by one, and end in a fault if one is given. -/
def ofPieces (fault : Option Fault) : List Text → Supply
  | [] => ⟨[], fault⟩
  | piece :: pieces =>
    if piece.all isAllowed then
      let more := ofPieces fault pieces
      ⟨piece ++ more.text, more.fault⟩
    else ⟨[], some .malformed⟩

/-- What there is to read of a text that is at hand. -/
def ofText (text : Text) : Supply := ofPieces none [text]

/-- The number of characters of a piece. -/
def pieceSize : Nat := 4096

/-- What there is to read of a file. -/
def ofFile (content : Bytes) : Supply :=
  let (pieces, malformed) := Text.pieces pieceSize content
  let fault := malformed.map Fault.undecodable
  match pieces, fault with
  | first :: second :: more, fault => ofPieces fault ((first ++ second) :: more)
  | _, some fault => ⟨[], some fault⟩
  | few, none => ofPieces none few

/-- A text of allowed characters can be read to its end. -/
theorem ofText_of_all {text : Text} (h : text.all isAllowed = true) :
    ofText text = ⟨text, none⟩ := by
  simp only [ofText, ofPieces, h, if_true, List.append_nil]

end Supply

end WorkflowInstall.Yaml

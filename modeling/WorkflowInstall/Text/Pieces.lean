import WorkflowInstall.Text.Lines
import WorkflowInstall.Text.Utf8

/-!
# Files in pieces

The text of a file that is taken piece by piece, each of them of the same number of characters. The
file is decoded block by block, and only as far as the pieces need, so bytes that are no UTF-8 show
when the first piece is taken for which their block is needed.

## Main Definitions

* `Decoder` — how far a file has been decoded
* `Decoder.take` — the next characters
* `Text.pieces` — all pieces, up to the first one that cannot be decoded

## Design Notes

A block may end inside a character or between a carriage return and a line feed; what is begun is
kept for the next block. Places of malformed bytes count from what was kept.

A block has at least `Decoder.blockSize` bytes. It is larger when the characters of the last block
took so many bytes that a block of this size would not do.
-/

namespace WorkflowInstall

/-- How far a file has been decoded. -/
structure Decoder where
  /-- The bytes after the blocks that have been read. -/
  bytes : Bytes
  /-- The bytes at the end of the last block that begin a character. -/
  begun : Bytes := []
  /-- Whether the last block ends in a carriage return, which is kept back. -/
  keptReturn : Bool := false
  /-- The characters that have been decoded and not been taken. -/
  ready : Text := []
  /-- How many bytes a character of the last block took. -/
  width : Float := 0.0
  /-- Whether the end of the file has been found. -/
  ended : Bool := false

namespace Decoder

/-- The least number of bytes of a block. -/
def blockSize : Nat := 8192

/-- The number of bytes to read when characters are wanted. -/
def sizeFor (decoder : Decoder) (wanted : Nat) : Nat :=
  let width := if decoder.width < 1.0 then 1.0 else decoder.width
  max blockSize (width * wanted.toFloat).toUInt64.toNat

/-- Takes in the text of a block. The end of the file is a block without bytes. -/
def accept (decoder : Decoder) (block : Bytes) (text : Text) (begun : Bytes) : Decoder :=
  let ends := block.isEmpty
  let text := if decoder.keptReturn && (ends || !text.isEmpty) then '\r' :: text else text
  let keeps := !ends && (if text.isEmpty then decoder.keptReturn else text.getLast? == some '\r')
  let text := Text.unifyNewlines (if keeps then text.dropLast else text)
  { bytes := decoder.bytes.drop block.length
    begun := begun
    keptReturn := keeps
    ready := decoder.ready ++ text
    width := if text.isEmpty then 0.0 else block.length.toFloat / text.length.toFloat
    ended := ends && text.isEmpty }

/-- Reads the next block. -/
def readBlock (decoder : Decoder) (wanted : Nat) : Except Utf8.Malformed Decoder :=
  let block := decoder.bytes.take (decoder.sizeFor wanted)
  let bytes := decoder.begun ++ block
  if block.isEmpty then (Utf8.decode bytes).map fun text => decoder.accept block text []
  else (Utf8.decodePart bytes).map fun (text, begun) => decoder.accept block text begun

/-- The next characters; fewer than wanted only at the end of the file. The last argument bounds the
number of blocks. -/
def take (decoder : Decoder) (wanted : Nat) : Nat → Except Utf8.Malformed (Text × Decoder)
  | 0 => .ok ([], decoder)
  | bound + 1 =>
    let taken := decoder.ready.take wanted
    let decoder := { decoder with ready := decoder.ready.drop wanted }
    if taken.length = wanted then .ok (taken, decoder)
    else
      match decoder.readBlock (wanted - taken.length) with
      | .error malformed => .error malformed
      | .ok decoder =>
        if decoder.ended then .ok (taken, decoder)
        else
          match take decoder (wanted - taken.length) bound with
          | .ok (more, decoder) => .ok (taken ++ more, decoder)
          | .error malformed => .error malformed

end Decoder

namespace Text

/-- The pieces of the text that is left of a file, of `size` characters each but the last one, up to
the first piece that cannot be decoded. The last argument bounds their number. -/
def piecesFrom (size : Nat) (decoder : Decoder) : Nat → List Text × Option Utf8.Malformed
  | 0 => ([], none)
  | bound + 1 =>
    match decoder.take size (decoder.bytes.length + 3) with
    | .error malformed => ([], some malformed)
    | .ok (piece, decoder) =>
      if piece.isEmpty then ([], none)
      else
        let (more, malformed) := piecesFrom size decoder bound
        (piece :: more, malformed)

/-- The pieces of the text of a file, of `size` characters each but the last one, up to the first
piece that cannot be decoded. Every piece has a character, and a character takes a byte. -/
def pieces (size : Nat) (content : Bytes) : List Text × Option Utf8.Malformed :=
  piecesFrom size { bytes := content } (content.length + 1)

end Text

end WorkflowInstall

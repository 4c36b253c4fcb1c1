import WorkflowInstall.Text.Utf8

/-!
# Percent encoding

A text as a segment of an address: letters, digits and four marks stand for themselves, and every
other byte of the UTF-8 form is written `%` and two hexadecimal digits.

## Main Definitions

* `Percent.encode` — a text with everything but the unreserved characters escaped
* `Percent.encodePath` — each segment of a path encoded, the slashes kept
* `Percent.unencodable?` — what keeps a path from being encoded
* `Percent.decodeBytes` — the bytes that an encoded text stands for
-/

namespace WorkflowInstall.Percent

/-- Whether a byte is an ASCII letter, a digit or one of the marks `_.-~`. -/
def isUnreserved (byte : UInt8) : Bool :=
  let c := Char.ofNat byte.toNat
  byte.toNat < 0x80 && (c.isAlphanum || c == '_' || c == '.' || c == '-' || c == '~')

/-- A byte as itself or as an escape. -/
def encodeByte (byte : UInt8) : Text :=
  if isUnreserved byte then [Char.ofNat byte.toNat]
  else ['%', (Text.hexDigit (byte.toNat / 16)).toUpper, (Text.hexDigit (byte.toNat % 16)).toUpper]

/-- A text with everything but the unreserved characters escaped. -/
def encode (text : Text) : Text := (Utf8.encode text).flatMap encodeByte

/-- Each segment of a path encoded, the slashes kept. -/
def encodePath (path : Text) : Text :=
  Text.joinWith "/" ((Text.splitOn '/' path).map encode)

/-- The first part of a segment of a path that has no bytes. -/
def unencodable? (path : Text) : Option Utf8.Unencodable :=
  (Text.splitOn '/' path).findSome? Utf8.unencodable?

/-- The value of a hexadecimal digit. -/
def hexValue? (c : Char) : Option Nat :=
  match Text.digitValue? c with
  | some n => if n < 16 then some n else none
  | none => none

/-- The bytes that an encoded ASCII text stands for. -/
def decodeBytes : Text → Option Bytes
  | [] => some []
  | '%' :: a :: b :: rest =>
    match hexValue? a, hexValue? b with
    | some high, some low => (decodeBytes rest).map (UInt8.ofNat (high * 16 + low) :: ·)
    | _, _ => none
  | c :: rest => if c = '%' then none else (decodeBytes rest).map (UInt8.ofNat c.toNat :: ·)

end WorkflowInstall.Percent

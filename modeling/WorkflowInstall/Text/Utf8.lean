import WorkflowInstall.Text.Surrogate

/-!
# UTF-8

Text as bytes and back. A byte sequence that is no UTF-8 is either refused, with the place and the
reason, or read with a replacement character for each longest part that begins a character and
cannot be one. Half of a surrogate pair has no bytes.

## Main Definitions

* `Utf8.encode` — the bytes of a text
* `Utf8.unencodable?` — the halves of surrogate pairs in a text that have no bytes
* `Utf8.front` — what stands at the front of a byte sequence
* `Utf8.decodeLossy` — every byte sequence as a text
* `Utf8.decode` — only UTF-8 as a text
* `Utf8.decodePart` — UTF-8 that may end inside a character
-/

namespace WorkflowInstall.Utf8

/-- The bytes of a code. Half of a surrogate pair has none. -/
def encodeCode (code : Nat) : Bytes :=
  if Surrogate.isHalf code then [] else String.utf8EncodeChar (Char.ofNat code)

/-- The bytes of a text. -/
def encode (text : Text) : Bytes := (Surrogate.codes text).flatMap encodeCode

/-- The first part of a text that has no bytes. -/
structure Unencodable where
  /-- The offset of its first character. -/
  offset : Nat
  /-- How many characters it has. -/
  length : Nat
  /-- The code of its first character. -/
  code : Nat
  deriving DecidableEq, Repr

/-- Why a part of a text has no bytes. -/
def Unencodable.reason : Text := "surrogates not allowed"

/-- What is wrong with the text, in words. -/
def Unencodable.message (u : Unencodable) : Text :=
  let place : Text :=
    if u.length ≤ 1 then
      "character '\\u" ++ Text.hex 4 u.code ++ "' in position " ++ Text.ofNat u.offset
    else
      "characters in position " ++ Text.ofNat u.offset ++ "-" ++
        Text.ofNat (u.offset + u.length - 1)
  "'utf-8' codec can't encode " ++ place ++ ": " ++ Unencodable.reason

/-- The first part of the codes from `offset` on that has no bytes: halves of surrogate pairs in a
row, the first of which does not pass. -/
def unencodableFrom? (passes : Nat → Bool) (offset : Nat) : List Nat → Option Unencodable
  | [] => none
  | code :: rest =>
    if Surrogate.isHalf code && !passes code then
      some ⟨offset, (rest.takeWhile Surrogate.isHalf).length + 1, code⟩
    else unencodableFrom? passes (offset + 1) rest

/-- The first part of a text that has no bytes, when some halves of surrogate pairs pass. -/
def unencodableBut? (passes : Nat → Bool) (text : Text) : Option Unencodable :=
  unencodableFrom? passes 0 (Surrogate.codes text)

/-- The first part of a text that has no bytes. -/
def unencodable? (text : Text) : Option Unencodable := unencodableBut? (fun _ => false) text

/-- The byte after the first one must lie in this range, because of the first one. -/
structure Lead where
  /-- How many bytes follow the first one. -/
  more : Nat
  /-- The least second byte. -/
  low : Nat
  /-- The greatest second byte. -/
  high : Nat
  deriving DecidableEq, Repr

/-- What a first byte above the ASCII range says about the bytes after it. -/
def lead? (byte : Nat) : Option Lead :=
  if 0xC2 ≤ byte ∧ byte ≤ 0xDF then some ⟨1, 0x80, 0xBF⟩
  else if byte = 0xE0 then some ⟨2, 0xA0, 0xBF⟩
  else if byte = 0xED then some ⟨2, 0x80, 0x9F⟩
  else if 0xE1 ≤ byte ∧ byte ≤ 0xEF then some ⟨2, 0x80, 0xBF⟩
  else if byte = 0xF0 then some ⟨3, 0x90, 0xBF⟩
  else if 0xF1 ≤ byte ∧ byte ≤ 0xF3 then some ⟨3, 0x80, 0xBF⟩
  else if byte = 0xF4 then some ⟨3, 0x80, 0x8F⟩
  else none

/-- Why bytes are no UTF-8. -/
inductive Reason
  /-- No character begins with this byte. -/
  | start
  /-- The byte after these does not go on with the character. -/
  | continuation
  /-- The bytes end inside a character. -/
  | unfinished
  deriving DecidableEq, Repr

/-- The reason in words. -/
def Reason.message : Reason → Text
  | .start => "invalid start byte"
  | .continuation => "invalid continuation byte"
  | .unfinished => "unexpected end of data"

/-- What stands at the front of a byte sequence: a character or bytes that are none, and how many
bytes it takes. -/
inductive Front
  | char (value : Char) (length : Nat)
  | broken (reason : Reason) (length : Nat)
  deriving DecidableEq, Repr

/-- Reads the bytes that go on with a character. `seen` counts those read so far, `more` those still
owed, and the next one must lie between `low` and `high`. -/
def follow (value seen : Nat) : Nat → Nat → Nat → Bytes → Front
  | 0, _, _, _ => .char (Char.ofNat value) seen
  | _ + 1, _, _, [] => .broken .unfinished seen
  | more + 1, low, high, byte :: rest =>
    if low ≤ byte.toNat ∧ byte.toNat ≤ high then
      follow (value * 64 + byte.toNat % 64) (seen + 1) more 0x80 0xBF rest
    else .broken .continuation seen

/-- What stands at the front of the byte sequence `byte :: rest`. -/
def front (byte : UInt8) (rest : Bytes) : Front :=
  if byte.toNat < 0x80 then .char (Char.ofNat byte.toNat) 1
  else
    match lead? byte.toNat with
    | none => .broken .start 1
    | some lead =>
      follow (byte.toNat % Nat.pow 2 (6 - lead.more)) 1 lead.more lead.low lead.high rest

/-- The character that stands for bytes which are no text. -/
def replacement : Char := Char.ofNat 0xFFFD

/-- Every byte sequence as a text, the broken parts replaced. -/
def decodeLossy : Bytes → Text
  | [] => []
  | byte :: rest =>
    match front byte rest with
    | .char value length => Surrogate.ofChar value ++ decodeLossy (rest.drop (length - 1))
    | .broken _ length => replacement :: decodeLossy (rest.drop (length - 1))
  termination_by bytes => bytes.length
  decreasing_by all_goals simp only [List.length_cons, List.length_drop]; omega

/-- The first bytes of a sequence that are no UTF-8. -/
structure Malformed where
  /-- The reason. -/
  reason : Reason
  /-- The offset of the first byte. -/
  offset : Nat
  /-- How many bytes they are. -/
  length : Nat
  /-- The value of the first byte. -/
  byte : Nat
  deriving DecidableEq, Repr

/-- What is wrong with the bytes, in words. -/
def Malformed.message (m : Malformed) : Text :=
  let place : Text :=
    if m.length ≤ 1 then
      "byte 0x" ++ Text.hex 2 m.byte ++ " in position " ++ Text.ofNat m.offset
    else
      "bytes in position " ++ Text.ofNat m.offset ++ "-" ++ Text.ofNat (m.offset + m.length - 1)
  "'utf-8' codec can't decode " ++ place ++ ": " ++ m.reason.message

/-- The text of a byte sequence that is UTF-8 from `offset` on. -/
def decodeFrom (offset : Nat) : Bytes → Except Malformed Text
  | [] => .ok []
  | byte :: rest =>
    match front byte rest with
    | .char value length =>
      match decodeFrom (offset + length) (rest.drop (length - 1)) with
      | .ok text => .ok (Surrogate.ofChar value ++ text)
      | .error malformed => .error malformed
    | .broken reason length => .error ⟨reason, offset, length, byte.toNat⟩
  termination_by bytes => bytes.length
  decreasing_by simp only [List.length_cons, List.length_drop]; omega

/-- The text of a byte sequence that is UTF-8. -/
def decode (bytes : Bytes) : Except Malformed Text := decodeFrom 0 bytes

/-- Whether bytes are the first two of half of a surrogate pair, whose third one is missing. -/
def beginsHalf (byte : UInt8) : Bytes → Bool
  | [next] => byte.toNat == 0xED && 0xA0 ≤ next.toNat && next.toNat ≤ 0xBF
  | _ => false

/-- The text of a byte sequence that is UTF-8 from `offset` on, and the bytes at its end that only
begin a character or half of a surrogate pair. -/
def decodePartFrom (offset : Nat) : Bytes → Except Malformed (Text × Bytes)
  | [] => .ok ([], [])
  | byte :: rest =>
    match front byte rest with
    | .char value length =>
      match decodePartFrom (offset + length) (rest.drop (length - 1)) with
      | .ok (text, begun) => .ok (Surrogate.ofChar value ++ text, begun)
      | .error malformed => .error malformed
    | .broken reason length =>
      if reason = .unfinished || beginsHalf byte rest then .ok ([], byte :: rest)
      else .error ⟨reason, offset, length, byte.toNat⟩
  termination_by bytes => bytes.length
  decreasing_by simp only [List.length_cons, List.length_drop]; omega

/-- The text of a byte sequence that is UTF-8, and the bytes at its end that only begin a character
or half of a surrogate pair. -/
def decodePart (bytes : Bytes) : Except Malformed (Text × Bytes) := decodePartFrom 0 bytes

end WorkflowInstall.Utf8

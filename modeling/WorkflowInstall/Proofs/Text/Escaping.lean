import Mathlib.Data.Option.Basic
import WorkflowInstall.Proofs.Path.Segments
import WorkflowInstall.Proofs.Text.Encoding
import WorkflowInstall.Text.Percent

/-!
# Quoted paths

A quoted path holds nothing that has a meaning of its own in an address, it has the segments of the
path, and each of them can be read back. So a request for one path never asks for another one.

## Main Definitions

* `Percent.IsQuoted` — a text of characters that stand for themselves, and of escapes
* `Percent.decode?` — the text that a quoted segment stands for

## Main Statements

* `Percent.decodeBytes_encode` — the bytes of a text, read back from its quoted form
* `Percent.splitOn_encodePath` — the segments of a quoted path are the quoted segments
* `Percent.quoting_reversible` — all that is promised about a quoted path

## Design Notes

A path is given by its characters; a text keeps some of them by two (`Surrogate.ofChar`), but never
by a slash, so the segments are those of the characters. Everything about a quoted text comes from
the two ways in which a byte is written (`Writes`): as itself, or as an escape.
-/

namespace WorkflowInstall

namespace Percent

/-! ## The written form of a byte -/

/-- A character that stands for itself in a segment. -/
def IsPlain (c : Char) : Prop := c.isAlphanum = true ∨ c ∈ ['_', '.', '-', '~']

instance (c : Char) : Decidable (IsPlain c) :=
  inferInstanceAs (Decidable (c.isAlphanum = true ∨ c ∈ ['_', '.', '-', '~']))

/-- A digit of an escape. -/
def IsHexDigit (c : Char) : Prop := c ∈ "0123456789ABCDEF".toList

instance (c : Char) : Decidable (IsHexDigit c) :=
  inferInstanceAs (Decidable (c ∈ "0123456789ABCDEF".toList))

/-- A text of characters that stand for themselves, slashes and escapes. -/
inductive IsQuoted : Text → Prop
  /-- Nothing is left. -/
  | nil : IsQuoted []
  /-- A character that stands for itself. -/
  | plain {c : Char} {rest : Text} (plain : IsPlain c) : IsQuoted rest → IsQuoted (c :: rest)
  /-- A slash between two segments. -/
  | slash {rest : Text} : IsQuoted rest → IsQuoted ('/' :: rest)
  /-- An escape. -/
  | escape {a b : Char} {rest : Text} (high : IsHexDigit a) (low : IsHexDigit b) :
    IsQuoted rest → IsQuoted ('%' :: a :: b :: rest)

/-- The two ways in which a byte is written. -/
inductive Writes (byte : UInt8) : Text → Prop
  /-- The byte stands for itself. -/
  | plain {c : Char} (same : c.toNat = byte.toNat) (plain : IsPlain c) : Writes byte [c]
  /-- The byte is escaped. -/
  | escape {a b : Char} (high : IsHexDigit a) (low : IsHexDigit b)
    (first : hexValue? a = some (byte.toNat / 16))
    (second : hexValue? b = some (byte.toNat % 16)) : Writes byte ['%', a, b]

theorem hexDigit_upper :
    ∀ n < 16, IsHexDigit (Text.hexDigit n).toUpper ∧
      hexValue? (Text.hexDigit n).toUpper = some n := by
  decide

theorem writes_encodeByte (byte : UInt8) : Writes byte (encodeByte byte) := by
  have small : byte.toNat < 256 := byte.toNat_lt
  unfold encodeByte
  split
  case isTrue unreserved =>
    simp only [isUnreserved, Bool.and_eq_true, Bool.or_eq_true, decide_eq_true_eq,
      beq_iff_eq] at unreserved
    refine .plain (Surrogate.toNat_ofNat (.inl (by omega))) ?_
    simp only [IsPlain, List.mem_cons, List.not_mem_nil, or_false]
    tauto
  case isFalse =>
    have high := hexDigit_upper (byte.toNat / 16) (by omega)
    have low := hexDigit_upper (byte.toNat % 16) (by omega)
    exact .escape high.1 low.1 high.2 low.2

variable {byte : UInt8} {written : Text}

theorem Writes.slash_notMem (h : Writes byte written) : '/' ∉ written := by
  cases h with
  | plain same plain =>
    rw [List.mem_singleton]
    rintro rfl
    exact absurd plain (by decide)
  | escape high low =>
    simp only [List.mem_cons, List.not_mem_nil, or_false, not_or]
    refine ⟨by decide, ?_, ?_⟩ <;> rintro rfl
    · exact absurd high (by decide)
    · exact absurd low (by decide)

theorem Writes.isQuoted_append (h : Writes byte written) {rest : Text} (quoted : IsQuoted rest) :
    IsQuoted (written ++ rest) := by
  cases h with
  | plain same plain => exact .plain plain quoted
  | escape high low => exact .escape high low quoted

/-- A byte is read back from its written form. -/
theorem Writes.decodeBytes_append (h : Writes byte written) (rest : Text) :
    decodeBytes (written ++ rest) = (decodeBytes rest).map (byte :: ·) := by
  cases h with
  | @plain c same plain =>
    have noEscape : c ≠ '%' := by
      rintro rfl
      exact absurd plain (by decide)
    rw [List.singleton_append, decodeBytes.eq_3 c rest fun _ _ _ escape => absurd escape noEscape,
      if_neg noEscape, same, UInt8.ofNat_toNat]
  | escape high low first second =>
    rw [List.cons_append, List.cons_append, List.singleton_append, decodeBytes, first, second]
    dsimp only
    rw [show byte.toNat / 16 * 16 + byte.toNat % 16 = byte.toNat by omega, UInt8.ofNat_toNat]

/-! ## Segments -/

theorem slash_notMem_encode (text : Text) : '/' ∉ encode text := by
  rw [encode, List.mem_flatMap]
  rintro ⟨byte, -, mem⟩
  exact (writes_encodeByte byte).slash_notMem mem

theorem isQuoted_encode_append (text : Text) {rest : Text} (quoted : IsQuoted rest) :
    IsQuoted (encode text ++ rest) := by
  unfold encode
  induction Utf8.encode text with
  | nil => exact quoted
  | cons byte bytes ih =>
    rw [List.flatMap_cons, List.append_assoc]
    exact (writes_encodeByte byte).isQuoted_append ih

/-- The bytes of a text are read back from its quoted form. -/
theorem decodeBytes_encode (text : Text) : decodeBytes (encode text) = some (Utf8.encode text) := by
  unfold encode
  induction Utf8.encode text with
  | nil => rfl
  | cons byte bytes ih =>
    rw [List.flatMap_cons, (writes_encodeByte byte).decodeBytes_append, ih]
    rfl

/-- The text that a quoted segment stands for. -/
def decode? (segment : Text) : Option Text :=
  (decodeBytes segment).bind fun bytes => (Utf8.decode bytes).toOption

/-- A quoted segment stands for the segment. -/
theorem decode?_encode (chars : List Char) :
    decode? (encode (Surrogate.ofChars chars)) = some (Surrogate.ofChars chars) := by
  rw [decode?, decodeBytes_encode, Option.bind_some, Utf8.decode_encode_ofChars]
  rfl

/-! ## Paths -/

theorem isQuoted_encodePath (path : Text) : IsQuoted (encodePath path) := by
  unfold encodePath
  induction Text.splitOn '/' path with
  | nil => exact .nil
  | cons segment segments ih =>
    cases segments with
    | nil =>
      rw [List.map_singleton, Text.joinWith, ← List.append_nil (encode segment)]
      exact isQuoted_encode_append segment .nil
    | cons next more => exact isQuoted_encode_append segment (.slash ih)

/-- The segments of a quoted path are the quoted segments. -/
theorem splitOn_encodePath (path : Text) :
    Text.splitOn '/' (encodePath path) = (Text.splitOn '/' path).map encode := by
  refine Text.splitOn_joinWith ?_ ?_
  · rw [Ne, List.map_eq_nil_iff]
    exact Text.splitOn_ne_nil '/' path
  · intro segment mem
    obtain ⟨text, -, rfl⟩ := List.mem_map.mp mem
    exact slash_notMem_encode text

end Percent

namespace Surrogate

/-- A slash is kept for a slash alone. -/
theorem slash_notMem_ofChar {c : Char} (other : c ≠ '/') : '/' ∉ ofChar c := by
  have slash : ('/').toNat = 0x2F := rfl
  have kept {n : Nat} (valid : n.isValidChar) (differs : n ≠ 0x2F) : '/' ≠ Char.ofNat n := by
    intro same
    rw [same, toNat_ofNat valid] at slash
    exact differs slash
  unfold ofChar ofCode
  rw [isHalf_toNat, if_neg Bool.false_ne_true]
  split
  case isTrue aside =>
    have range : 0xE67FF ≤ c.toNat ∧ c.toNat < 0xE7000 := by simpa [isSetAside] using aside
    simp only [List.mem_cons, List.not_mem_nil, or_false, not_or]
    refine ⟨by decide, kept (.inr ?_) ?_⟩ <;> simp only [shift] <;> omega
  case isFalse =>
    rw [List.mem_singleton, Char.ofNat_toNat]
    exact Ne.symm other

theorem slash_notMem_ofChars {chars : List Char} (clear : '/' ∉ chars) :
    '/' ∉ ofChars chars := by
  rw [ofChars, List.mem_flatMap]
  rintro ⟨c, mem, kept⟩
  refine slash_notMem_ofChar ?_ kept
  rintro rfl
  exact clear mem

theorem ofChars_joinWith (pieces : List (List Char)) :
    ofChars (Text.joinWith ['/'] pieces) = Text.joinWith ['/'] (pieces.map ofChars) := by
  induction pieces with
  | nil => rfl
  | cons piece rest ih =>
    cases rest with
    | nil => rfl
    | cons next more =>
      have slash : ofChars ['/'] = ['/'] := by decide
      rw [Text.joinWith, ofChars, List.flatMap_append, List.flatMap_append, ← ofChars, ← ofChars,
        ← ofChars, slash, ih]
      rfl

/-- The segments of what is kept for characters are what is kept for their segments. -/
theorem splitOn_ofChars (chars : List Char) :
    Text.splitOn '/' (ofChars chars) = (Text.splitOn '/' chars).map ofChars := by
  conv_lhs => rw [← Text.joinWith_splitOn '/' chars, ofChars_joinWith]
  refine Text.splitOn_joinWith ?_ ?_
  · rw [Ne, List.map_eq_nil_iff]
    exact Text.splitOn_ne_nil '/' chars
  · intro kept mem
    obtain ⟨piece, inside, rfl⟩ := List.mem_map.mp mem
    exact slash_notMem_ofChars (Text.not_mem_of_mem_splitOn inside)

theorem ofChars_injective : Function.Injective ofChars := by
  intro chars other same
  have codes : chars.map Char.toNat = other.map Char.toNat := by
    rw [← codes_ofChars, ← codes_ofChars, same]
  exact List.map_injective_iff.mpr (Function.LeftInverse.injective Char.ofNat_toNat) codes

end Surrogate

namespace Percent

/-- The segments of a quoted path stand for the segments of the path. -/
theorem decode?_segments (chars : List Char) :
    (Text.splitOn '/' (encodePath (Surrogate.ofChars chars))).map decode? =
      (Text.splitOn '/' chars).map fun segment => some (Surrogate.ofChars segment) := by
  rw [splitOn_encodePath, Surrogate.splitOn_ofChars, List.map_map, List.map_map]
  exact List.map_congr_left fun segment _ => decode?_encode segment

/-- Quoted paths are told apart. -/
theorem encodePath_ofChars_inj {chars other : List Char} :
    encodePath (Surrogate.ofChars chars) = encodePath (Surrogate.ofChars other) ↔
      chars = other := by
  refine ⟨fun same => ?_, fun same => same ▸ rfl⟩
  have segments := decode?_segments chars
  rw [same, decode?_segments other] at segments
  have kept : Function.Injective fun segment => some (Surrogate.ofChars segment) :=
    (Option.some_injective Text).comp Surrogate.ofChars_injective
  rw [← Text.joinWith_splitOn '/' chars, ← Text.joinWith_splitOn '/' other,
    List.map_injective_iff.mpr kept segments]

theorem unencodable?_ofChars (chars : List Char) :
    unencodable? (Surrogate.ofChars chars) = none := by
  rw [unencodable?, Surrogate.splitOn_ofChars, List.findSome?_eq_none_iff]
  intro segment mem
  obtain ⟨piece, -, rfl⟩ := List.mem_map.mp mem
  exact Utf8.unencodable?_ofChars piece

/-- Every path of characters can be quoted. Its quoted form holds nothing but characters that stand
for themselves, slashes and escapes; it has as many segments as the path, each of which stands for
the segment at its place; and no other path has it. -/
theorem quoting_reversible (chars : List Char) :
    let quoted := encodePath (Surrogate.ofChars chars)
    unencodable? (Surrogate.ofChars chars) = none ∧
      IsQuoted quoted ∧
      (Text.splitOn '/' quoted).length = (Text.splitOn '/' chars).length ∧
      (Text.splitOn '/' quoted).map decode? =
        (Text.splitOn '/' chars).map (fun segment => some (Surrogate.ofChars segment)) ∧
      ∀ other, encodePath (Surrogate.ofChars other) = quoted ↔ other = chars := by
  intro quoted
  have segments := decode?_segments chars
  have count := congrArg List.length segments
  rw [List.length_map, List.length_map] at count
  exact ⟨unencodable?_ofChars chars, isQuoted_encodePath _, count, segments,
    fun other => encodePath_ofChars_inj⟩

example :
    encodePath (Surrogate.ofChars ['a', ' ', '%', '/', 'é', '#', '.', 'm', 'd']) =
      "a%20%25/%C3%A9%23.md".toList := by decide

end Percent

end WorkflowInstall

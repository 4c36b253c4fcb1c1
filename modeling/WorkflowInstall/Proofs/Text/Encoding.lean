import Mathlib.Data.List.Basic
import WorkflowInstall.Text.Utf8

/-!
# Text as bytes and back

The bytes of characters are read as these characters again, and every character has bytes: only
half of a surrogate pair, which is no character, has none.

## Main Statements

* `Utf8.front_encodeChar` — what stands at the front of the bytes of a character
* `Utf8.encode_ofChars` — the bytes of characters are those of each in turn
* `Utf8.decode_encode_ofChars` — the bytes of characters are read as these characters
* `Utf8.unencodable?_ofChars` — characters have bytes

## Design Notes

A character has one to four bytes, by the size of its code. The first byte tells how many follow and
what the second one may be; that the second byte of a character always keeps to it is what
`lead_three` and `lead_four` say. The rest is arithmetic: each byte hands on six digits of the code.
-/

namespace WorkflowInstall

/-- Half of a surrogate pair is no character. -/
theorem Surrogate.isHalf_toNat (c : Char) : Surrogate.isHalf c.toNat = false := by
  have valid : c.toNat < 0xD800 ∨ 0xDFFF < c.toNat ∧ c.toNat < 0x110000 := c.valid
  simp only [Surrogate.isHalf, Bool.and_eq_false_iff, decide_eq_false_iff_not]
  omega

namespace Utf8

/-! ## The first two bytes -/

theorem front_lead {n more low high : Nat} {rest : Bytes} (small : n < 256) (above : 0x80 ≤ n)
    (leads : lead? n = some ⟨more, low, high⟩) :
    front (UInt8.ofNat n) rest = follow (n % Nat.pow 2 (6 - more)) 1 more low high rest := by
  unfold front
  rw [UInt8.toNat_ofNat_of_lt' small, if_neg (by omega), leads]

theorem follow_cons {value seen more low high n : Nat} {rest : Bytes} (small : n < 256)
    (least : low ≤ n) (most : n ≤ high) :
    follow value seen (more + 1) low high (UInt8.ofNat n :: rest) =
      follow (value * 64 + n % 64) (seen + 1) more 0x80 0xBF rest := by
  rw [follow, UInt8.toNat_ofNat_of_lt' small, if_pos ⟨least, most⟩]

theorem lead_two {v : Nat} (low : 0x7F < v) (high : v ≤ 0x7FF) :
    lead? (v / 64 % 32 + 0xC0) = some ⟨1, 0x80, 0xBF⟩ :=
  if_pos (by omega)

/-- The first byte of a character of three bytes lets its second one through. -/
theorem lead_three {v : Nat} (low : 0x7FF < v) (high : v ≤ 0xFFFF)
    (whole : v < 0xD800 ∨ 0xDFFF < v) :
    ∃ least most, lead? (v / 4096 % 16 + 0xE0) = some ⟨2, least, most⟩ ∧
      least ≤ v / 64 % 64 + 0x80 ∧ v / 64 % 64 + 0x80 ≤ most := by
  unfold lead?
  rw [if_neg (by omega)]
  split
  case isTrue => exact ⟨_, _, rfl, by omega, by omega⟩
  case isFalse =>
  split
  case isTrue => exact ⟨_, _, rfl, by omega, by omega⟩
  case isFalse => exact ⟨_, _, if_pos (by omega), by omega, by omega⟩

/-- The first byte of a character of four bytes lets its second one through. -/
theorem lead_four {v : Nat} (low : 0xFFFF < v) (high : v < 0x110000) :
    ∃ least most, lead? (v / 262144 % 8 + 0xF0) = some ⟨3, least, most⟩ ∧
      least ≤ v / 4096 % 64 + 0x80 ∧ v / 4096 % 64 + 0x80 ≤ most := by
  unfold lead?
  rw [if_neg (by omega), if_neg (by omega), if_neg (by omega), if_neg (by omega)]
  split
  case isTrue => exact ⟨_, _, rfl, by omega, by omega⟩
  case isFalse =>
  split
  case isTrue => exact ⟨_, _, rfl, by omega, by omega⟩
  case isFalse => exact ⟨_, _, if_pos (by omega), by omega, by omega⟩

/-! ## Characters -/

/-- The bytes of a character begin with that character, whatever follows them. -/
theorem front_encodeChar (c : Char) (rest : Bytes) :
    ∃ byte more, String.utf8EncodeChar c = byte :: more ∧
      front byte (more ++ rest) = .char c (more.length + 1) := by
  -- The code is kept as a name, so that only its size matters.
  obtain ⟨v, value⟩ : ∃ v, v = c.val.toNat := ⟨_, rfl⟩
  have valid : v < 0xD800 ∨ 0xDFFF < v ∧ v < 0x110000 := value ▸ c.valid
  have read {code length : Nat} (back : code = v) :
      Front.char (Char.ofNat code) length = .char c length := by
    rw [back, value]
    exact congrArg (Front.char · length) (Char.ofNat_toNat c)
  unfold String.utf8EncodeChar
  dsimp only
  rw [← value]
  split
  case isTrue one =>
    refine ⟨_, _, rfl, ?_⟩
    unfold front
    rw [UInt8.toNat_ofNat_of_lt' (show v < 256 by omega), if_pos (by omega)]
    exact read rfl
  case isFalse =>
  split
  case isTrue two =>
    refine ⟨_, _, rfl, ?_⟩
    rw [front_lead (by omega) (by omega) (lead_two (by omega) two), List.cons_append,
      follow_cons (by omega) (by omega) (by omega)]
    refine read ?_
    show (v / 64 % 32 + 0xC0) % 32 * 64 + _ = v
    omega
  case isFalse =>
  split
  case isTrue three =>
    obtain ⟨least, most, leads, above, below⟩ := lead_three (by omega) three (by omega)
    refine ⟨_, _, rfl, ?_⟩
    rw [front_lead (by omega) (by omega) leads, List.cons_append,
      follow_cons (by omega) above below, List.cons_append,
      follow_cons (by omega) (by omega) (by omega)]
    refine read ?_
    show ((v / 4096 % 16 + 0xE0) % 16 * 64 + _) * 64 + _ = v
    omega
  case isFalse =>
    obtain ⟨least, most, leads, above, below⟩ := lead_four (v := v) (by omega) (by omega)
    refine ⟨_, _, rfl, ?_⟩
    rw [front_lead (by omega) (by omega) leads, List.cons_append,
      follow_cons (by omega) above below, List.cons_append,
      follow_cons (by omega) (by omega) (by omega), List.cons_append,
      follow_cons (by omega) (by omega) (by omega)]
    refine read ?_
    show (((v / 262144 % 8 + 0xF0) % 8 * 64 + _) * 64 + _) * 64 + _ = v
    omega

/-- The bytes of a character are read as that character, and then what follows them. -/
theorem decodeFrom_encodeChar (offset : Nat) (c : Char) (rest : Bytes) :
    decodeFrom offset (String.utf8EncodeChar c ++ rest) =
      (decodeFrom (offset + c.utf8Size) rest).map (Surrogate.ofChar c ++ ·) := by
  obtain ⟨byte, more, bytes, begins⟩ := front_encodeChar c rest
  have size : more.length + 1 = c.utf8Size := by
    rw [← String.length_utf8EncodeChar, bytes, List.length_cons]
  rw [bytes, List.cons_append, decodeFrom, begins]
  dsimp only
  rw [Nat.add_sub_cancel, List.drop_left, size]
  cases decodeFrom (offset + c.utf8Size) rest <;> rfl

/-! ## Texts -/

theorem decodeFrom_flatMap (offset : Nat) (chars : List Char) :
    decodeFrom offset (chars.flatMap String.utf8EncodeChar) = .ok (Surrogate.ofChars chars) := by
  induction chars generalizing offset with
  | nil =>
    rw [List.flatMap_nil, decodeFrom]
    rfl
  | cons c rest ih =>
    rw [List.flatMap_cons, decodeFrom_encodeChar, ih]
    rfl

theorem encodeCode_toNat (c : Char) : encodeCode c.toNat = String.utf8EncodeChar c := by
  rw [encodeCode, Surrogate.isHalf_toNat, if_neg Bool.false_ne_true, Char.ofNat_toNat]

/-- The bytes of characters are those of each in turn. -/
theorem encode_ofChars (chars : List Char) :
    encode (Surrogate.ofChars chars) = chars.flatMap String.utf8EncodeChar := by
  rw [encode, Surrogate.codes_ofChars, List.flatMap_map]
  exact List.flatMap_congr fun c _ => encodeCode_toNat c

/-- The bytes of characters are read as these characters. -/
theorem decode_encode_ofChars (chars : List Char) :
    decode (encode (Surrogate.ofChars chars)) = .ok (Surrogate.ofChars chars) := by
  rw [encode_ofChars]
  exact decodeFrom_flatMap 0 chars

theorem unencodableFrom?_map_toNat (passes : Nat → Bool) (offset : Nat) (chars : List Char) :
    unencodableFrom? passes offset (chars.map Char.toNat) = none := by
  induction chars generalizing offset with
  | nil => rfl
  | cons c rest ih =>
    rw [List.map_cons, unencodableFrom?, Surrogate.isHalf_toNat, Bool.false_and,
      if_neg Bool.false_ne_true, ih]

/-- Characters have bytes. -/
theorem unencodable?_ofChars (chars : List Char) :
    unencodable? (Surrogate.ofChars chars) = none := by
  rw [unencodable?, unencodableBut?, Surrogate.codes_ofChars]
  exact unencodableFrom?_map_toNat _ 0 chars

end Utf8

end WorkflowInstall

import WorkflowInstall.Text.Basic

/-!
# Halves of surrogate pairs

An escape can write the code of half of a surrogate pair, which is no character. A text keeps such a
half by a stand-in: a code point of a block that texts set aside, from U+E6800 to U+E6FFF. A
character of the block itself is kept by two characters, a mark and a substitute outside the block.

## Main Definitions

* `Surrogate.isHalf` — the codes of halves
* `Surrogate.isByteHalf` — the codes of halves that stand for a byte in names
* `Surrogate.ofCode`, `Surrogate.ofCodes` — what a text keeps for a code, or for several in a row
* `Surrogate.ofChar`, `Surrogate.ofChars` — what a text keeps for characters
* `Surrogate.codes` — the codes that a text keeps
* `Surrogate.spell` — a text with every half written as an escape

## Design Notes

No character is assigned in the block, so characters are hardly ever kept by two. Nothing is lost:
`codes_ofCodes` and `codes_ofChars` give the codes back.
-/

namespace WorkflowInstall.Surrogate

/-- Whether a code is that of half of a surrogate pair. -/
def isHalf (code : Nat) : Bool := 0xD800 ≤ code && code < 0xE000

/-- Whether half of a surrogate pair stands for a byte. -/
def isByteHalf (code : Nat) : Bool := 0xDC80 ≤ code && code ≤ 0xDCFF

/-- The distance between a half and its stand-in. -/
def distance : Nat := 0xD9000

/-- The character before a substitute. -/
def mark : Char := Char.ofNat 0xE67FF

/-- Whether a code is set aside: that of the mark or of a stand-in. -/
def isSetAside (code : Nat) : Bool := 0xE67FF ≤ code && code < 0xE7000

/-- The distance between a substitute and the character it is kept for. -/
def shift : Nat := 0x1000

/-- What a text keeps for a code. -/
def ofCode (code : Nat) : Text :=
  if isHalf code then [Char.ofNat (code + distance)]
  else if isSetAside code then [mark, Char.ofNat (code - shift)]
  else [Char.ofNat code]

/-- What a text keeps for codes in a row. -/
def ofCodes (codes : List Nat) : Text := codes.flatMap ofCode

/-- What a text keeps for a character. -/
def ofChar (c : Char) : Text := ofCode c.toNat

/-- What a text keeps for characters in a row. -/
def ofChars (chars : List Char) : Text := chars.flatMap ofChar

/-- Whether a character of a text is the stand-in of a half. -/
def isStandIn (c : Char) : Bool := isHalf (c.toNat - distance)

/-- The code that a character of a text keeps by itself. -/
def codeOf (c : Char) : Nat := if isStandIn c then c.toNat - distance else c.toNat

/-- The codes that a text keeps. -/
def codes : Text → List Nat
  | [] => []
  | [c] => [codeOf c]
  | c :: d :: rest =>
    if c = mark then (d.toNat + shift) :: codes rest else codeOf c :: codes (d :: rest)

/-- A text with every half written as an escape. -/
def spell (text : Text) : Text :=
  (codes text).flatMap fun code =>
    if isHalf code then "\\u" ++ Text.hex 4 code else [Char.ofNat code]

/-! ## Nothing is lost -/

theorem toNat_ofNat {n : Nat} (h : n.isValidChar) : (Char.ofNat n).toNat = n := by
  rw [Char.ofNat, dif_pos h]
  rfl

theorem toNat_mark : mark.toNat = 0xE67FF := rfl

theorem ne_mark {c : Char} (h : c.toNat ≠ 0xE67FF) : c ≠ mark := by
  intro hc
  rw [hc, toNat_mark] at h
  exact h rfl

/-- A character that is no mark keeps one code. -/
theorem codes_cons {c : Char} (h : c ≠ mark) (text : Text) :
    codes (c :: text) = codeOf c :: codes text := by
  cases text with
  | nil => rfl
  | cons d rest => rw [codes, if_neg h]

/-- A mark and its substitute keep one code. -/
theorem codes_mark (d : Char) (text : Text) :
    codes (mark :: d :: text) = (d.toNat + shift) :: codes text := by
  simp only [codes, if_true]

/-- What is kept for a code in front of a text gives the code back. -/
theorem codes_ofCode_append {code : Nat} (h : code < 0x110000) (text : Text) :
    codes (ofCode code ++ text) = code :: codes text := by
  unfold ofCode
  split
  case isTrue half =>
    have range : 0xD800 ≤ code ∧ code < 0xE000 := by simpa [isHalf] using half
    have kept : (Char.ofNat (code + distance)).toNat = code + distance :=
      toNat_ofNat (Or.inr (by simp only [distance]; omega))
    rw [List.singleton_append, codes_cons (ne_mark (by rw [kept, distance]; omega))]
    simp [codeOf, isStandIn, kept, half]
  case isFalse noHalf =>
    have range : ¬ (0xD800 ≤ code ∧ code < 0xE000) := by simpa [isHalf] using noHalf
    split
    case isTrue aside =>
      have range : 0xE67FF ≤ code ∧ code < 0xE7000 := by simpa [isSetAside] using aside
      have kept : (Char.ofNat (code - shift)).toNat = code - shift :=
        toNat_ofNat (Or.inr (by simp only [shift]; omega))
      have back : code - shift + shift = code :=
        Nat.sub_add_cancel (by simp only [shift]; omega)
      rw [List.cons_append, List.singleton_append, codes_mark, kept, back]
    case isFalse noAside =>
      have outside : ¬ (0xE67FF ≤ code ∧ code < 0xE7000) := by simpa [isSetAside] using noAside
      have kept : (Char.ofNat code).toNat = code :=
        toNat_ofNat (by unfold Nat.isValidChar; omega)
      have alone : isStandIn (Char.ofNat code) = false := by
        simp only [isStandIn, isHalf, kept, distance, Bool.and_eq_false_iff,
          decide_eq_false_iff_not]
        omega
      rw [List.singleton_append, codes_cons (ne_mark (by rw [kept]; omega))]
      simp [codeOf, alone, kept]

/-- The codes that are kept are given back. -/
theorem codes_ofCodes {all : List Nat} (h : ∀ code ∈ all, code < 0x110000) :
    codes (ofCodes all) = all := by
  induction all with
  | nil => rfl
  | cons code rest ih =>
    rw [ofCodes, List.flatMap_cons, codes_ofCode_append (h code List.mem_cons_self)]
    congr 1
    exact ih fun other hm => h other (List.mem_cons_of_mem code hm)

/-- Characters that are kept give their codes back. -/
theorem codes_ofChars (chars : List Char) : codes (ofChars chars) = chars.map Char.toNat := by
  induction chars with
  | nil => rfl
  | cons c rest ih =>
    have small : c.toNat < 0x110000 := by
      rcases c.valid with h | h
      · exact Nat.lt_trans h (by decide)
      · exact h.2
    rw [ofChars, List.flatMap_cons, ofChar, codes_ofCode_append small, List.map_cons]
    exact congrArg (c.toNat :: ·) ih

end WorkflowInstall.Surrogate

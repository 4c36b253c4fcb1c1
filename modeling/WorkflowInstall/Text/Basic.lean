/-!
# Text

A text is a list of characters, so that every function on it recurses on the data and computes in
the kernel.

## Main Definitions

* `Text` — a text, with a coercion from string literals
* `Text.splitOn`, `Text.joinWith` — the pieces between separators, and back
* `Text.cutAt` — the text before the first separator and what follows it
* `Text.ofNat` — decimal digits

## Design Notes

`splitOn` never gives an empty list, so the last piece always exists; `joinWith` undoes it
(`joinWith_splitOn`). Content of files is `Bytes`, which becomes a text only by decoding.
-/

namespace WorkflowInstall

/-- A text is its list of characters. -/
abbrev Text := List Char

/-- Content of a file. -/
abbrev Bytes := List UInt8

instance : Coe String Text := ⟨String.toList⟩

namespace Text

/-- Whether a text begins with another one. -/
def startsWith (start text : Text) : Bool := start.isPrefixOf text

/-- Whether a text ends with another one. -/
def endsWith (ending text : Text) : Bool := ending.isSuffixOf text

/-- The pieces of a text between the occurrences of a separator; there is at least one. -/
def splitOn (separator : Char) : Text → List Text
  | [] => [[]]
  | c :: rest =>
    if c = separator then [] :: splitOn separator rest
    else
      match splitOn separator rest with
      | [] => [[c]]
      | piece :: pieces => (c :: piece) :: pieces

/-- Pieces in a row with the separator between each two. -/
def joinWith (separator : Text) : List Text → Text
  | [] => []
  | [piece] => piece
  | piece :: next :: pieces => piece ++ (separator ++ joinWith separator (next :: pieces))

theorem splitOn_ne_nil (separator : Char) (text : Text) : splitOn separator text ≠ [] := by
  cases text with
  | nil => simp [splitOn]
  | cons c rest =>
    simp only [splitOn]
    split
    · simp
    · split <;> simp

theorem joinWith_cons_append (separator : Text) (c : Char) (piece : Text) (pieces : List Text) :
    joinWith separator ((c :: piece) :: pieces) = c :: joinWith separator (piece :: pieces) := by
  cases pieces <;> simp [joinWith]

/-- Joining the pieces with the separator gives the text back. -/
theorem joinWith_splitOn (separator : Char) (text : Text) :
    joinWith [separator] (splitOn separator text) = text := by
  induction text with
  | nil => rfl
  | cons c rest ih =>
    cases h : splitOn separator rest with
    | nil => exact absurd h (splitOn_ne_nil separator rest)
    | cons piece pieces =>
      rw [h] at ih
      by_cases hc : c = separator
      · subst hc
        simp [splitOn, h, joinWith, ih]
      · simp [splitOn, h, hc, joinWith_cons_append, ih]

/-- No piece holds the separator. -/
theorem not_mem_of_mem_splitOn {separator : Char} {text piece : Text}
    (h : piece ∈ splitOn separator text) : separator ∉ piece := by
  induction text generalizing piece with
  | nil => simp_all [splitOn]
  | cons c rest ih =>
    by_cases hc : c = separator
    · simp only [splitOn, if_pos hc, List.mem_cons] at h
      rcases h with rfl | h
      · simp
      · exact ih h
    · cases hs : splitOn separator rest with
      | nil => exact absurd hs (splitOn_ne_nil separator rest)
      | cons first more =>
        simp only [splitOn, if_neg hc, hs, List.mem_cons] at h
        rcases h with rfl | h
        · have := @ih first (by simp [hs])
          simp [Ne.symm hc, this]
        · exact ih (by simp [hs, h])

/-- The text before the first separator, and the text after it when there is one. -/
def cutAt (separator : Char) : Text → Text × Option Text
  | [] => ([], none)
  | c :: rest =>
    if c = separator then ([], some rest)
    else
      let (before, after) := cutAt separator rest
      (c :: before, after)

/-- The last piece between separators. -/
def lastPiece (separator : Char) (text : Text) : Text :=
  (splitOn separator text).getLastD []

/-- The text with its separators at the front taken away. -/
def dropLeading (c : Char) (text : Text) : Text := text.dropWhile (· == c)

/-- The text without the characters at its end that satisfy a test. -/
def dropEndWhile (test : Char → Bool) (text : Text) : Text :=
  (text.reverse.dropWhile test).reverse

/-- Every occurrence of a character written as another one. -/
def replaceChar (old new : Char) (text : Text) : Text :=
  text.map fun c => if c = old then new else c

/-- The decimal digits of a number. -/
def ofNat (n : Nat) : Text := Nat.toDigits 10 n

/-- The decimal digits of a number after its sign; only a negative number shows it. -/
def ofInt : Int → Text
  | .ofNat n => ofNat n
  | .negSucc n => '-' :: ofNat (n + 1)

/-- A number in at least `width` decimal digits. -/
def padded (width n : Nat) : Text :=
  let digits := ofNat n
  List.replicate (width - digits.length) '0' ++ digits

/-- A digit of a number in base sixteen, in lower case. -/
def hexDigit (n : Nat) : Char := Nat.digitChar (n % 16)

/-- A number in base sixteen with at least `width` digits. -/
def hex (width n : Nat) : Text :=
  let digits := Nat.toDigits 16 n
  List.replicate (width - digits.length) '0' ++ digits

/-- The value of an ASCII digit or letter in the bases up to 36. -/
def digitValue? (c : Char) : Option Nat :=
  if '0' ≤ c ∧ c ≤ '9' then some (c.toNat - '0'.toNat)
  else if 'a' ≤ c ∧ c ≤ 'z' then some (c.toNat - 'a'.toNat + 10)
  else if 'A' ≤ c ∧ c ≤ 'Z' then some (c.toNat - 'A'.toNat + 10)
  else none

/-- ASCII letters in lower case; every other character as it is. -/
def lowerAscii (text : Text) : Text := text.map Char.toLower

end Text

end WorkflowInstall

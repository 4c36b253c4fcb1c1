import WorkflowInstall.Text.Basic

/-!
# Lines

A line ends at any of the characters that Unicode and ASCII know as a line or section end; a
carriage return with a line feed after it is one end.

## Main Definitions

* `Line` — the characters of a line and the characters that end it
* `Text.lines` — the lines of a text

## Main Statements

* `Text.flatMap_whole_lines` — the lines in a row are the text, so nothing is lost
-/

namespace WorkflowInstall

/-- A line of a text. Only the last line of a text can have an empty `ending`. -/
structure Line where
  /-- The characters before the line end. -/
  body : Text
  /-- The characters that end the line. -/
  ending : Text
  deriving DecidableEq, Repr

/-- The line with its end. -/
def Line.whole (line : Line) : Text := line.body ++ line.ending

namespace Text

/-- Whether a character ends a line. -/
def isLineEnd (c : Char) : Bool :=
  let n := c.toNat
  (10 ≤ n && n ≤ 13) || (28 ≤ n && n ≤ 30) || n == 0x85 || n == 0x2028 || n == 0x2029

/-- The lines of a text. -/
def lines : Text → List Line
  | [] => []
  | '\r' :: '\n' :: rest => ⟨[], ['\r', '\n']⟩ :: lines rest
  | c :: rest =>
    if isLineEnd c then ⟨[], [c]⟩ :: lines rest
    else
      match lines rest with
      | [] => [⟨[c], []⟩]
      | line :: more => ⟨c :: line.body, line.ending⟩ :: more

/-- The lines of a text, each with its end, make up the text. -/
theorem flatMap_whole_lines (text : Text) : (lines text).flatMap Line.whole = text := by
  fun_induction lines text with
  | case1 => rfl
  | case2 rest ih => simpa [Line.whole] using ih
  | case3 c rest _ _ ih => simpa [Line.whole] using ih
  | case4 c rest _ _ h ih => rw [h] at ih; simp_all [Line.whole]
  | case5 c rest _ _ line more h ih => rw [h] at ih; simp_all [Line.whole]

/-- Text read in text mode: each of carriage return, line feed, and both together becomes one line
feed. -/
def unifyNewlines : Text → Text
  | [] => []
  | '\r' :: '\n' :: rest => '\n' :: unifyNewlines rest
  | c :: rest => (if c = '\r' then '\n' else c) :: unifyNewlines rest

end Text

end WorkflowInstall

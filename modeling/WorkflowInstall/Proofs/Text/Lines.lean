import WorkflowInstall.Text.Lines

/-!
# The lines of a part of a text

Lines of a text that are next to each other make up a text of their own, and its lines are these
lines again: where a line ends does not depend on what stands around the part. Only a carriage
return could be read in another way there, for it takes a line feed after it into its line end; but
the part has that line feed too, as both are in one line.

## Main Statements

* `Text.lines_flatMap_front` — the lines of the text of the first lines
* `Text.lines_flatMap_tail` — the lines of the text after its first line
* `Text.filled_lines_append_lineEnd` — the lines of two texts with a line end between them, but for
  empty ones
* `Text.not_isLineEnd_of_mem_body` — no line holds a line end

## Design Notes

Two texts with a line end between them have the lines of the first text and those of the second,
give or take an empty one: the line end adds an empty line when the first text ends in a line end of
its own, and it takes one away when it is one half of a line end with the character before or after
it.
-/

namespace WorkflowInstall.Text

/-! ### The first character -/

theorem lines_lineEnd {c : Char} {rest : Text} (ends : isLineEnd c = true)
    (alone : ∀ more, c = '\r' → rest ≠ '\n' :: more) :
    lines (c :: rest) = ⟨[], [c]⟩ :: lines rest := by
  rw [lines.eq_3 c rest alone, if_pos ends]

theorem lines_last {c : Char} (inside : ¬ isLineEnd c = true) : lines [c] = [⟨[c], []⟩] := by
  rw [lines.eq_3 c [] (fun _ _ same => nomatch same), if_neg inside]
  rfl

theorem lines_inside {c : Char} {rest : Text} {line : Line} {more : List Line}
    (inside : ¬ isLineEnd c = true) (after : lines rest = line :: more) :
    lines (c :: rest) = ⟨c :: line.body, line.ending⟩ :: more := by
  have plain : ∀ more, c = '\r' → rest ≠ '\n' :: more := by
    rintro _ rfl
    exact absurd rfl inside
  rw [lines.eq_3 c rest plain, if_neg inside, after]

/-! ### Parts -/

/-- The lines after the first one are the lines of the text that they make up. -/
theorem lines_flatMap_tail {text : Text} {line : Line} {back : List Line}
    (h : lines text = line :: back) : lines (back.flatMap Line.whole) = back := by
  fun_induction lines text generalizing line back with
  | case1 => cases h
  | case2 rest =>
    obtain ⟨-, rfl⟩ := List.cons.inj h
    rw [flatMap_whole_lines]
  | case3 c rest =>
    obtain ⟨-, rfl⟩ := List.cons.inj h
    rw [flatMap_whole_lines]
  | case4 =>
    obtain ⟨-, rfl⟩ := List.cons.inj h
    rfl
  | case5 c rest _ _ first more after ih =>
    obtain ⟨-, rfl⟩ := List.cons.inj h
    exact ih after

/-- The first lines of a text are the lines of the text that they make up. -/
theorem lines_flatMap_front {text : Text} {front back : List Line}
    (h : lines text = front ++ back) : lines (front.flatMap Line.whole) = front := by
  fun_induction lines text generalizing front with
  | case1 =>
    obtain ⟨rfl, -⟩ := List.append_eq_nil_iff.mp h.symm
    rfl
  | case2 rest ih =>
    obtain ⟨rfl, -⟩ | ⟨front, rfl, after⟩ := List.cons_eq_append_iff.mp h
    · rfl
    · exact congrArg _ (ih after)
  | case3 c rest alone ends ih =>
    obtain ⟨rfl, -⟩ | ⟨front, rfl, after⟩ := List.cons_eq_append_iff.mp h
    · rfl
    · -- A line feed at the front of the part would stand at the front of `rest`.
      have whole : rest = front.flatMap Line.whole ++ back.flatMap Line.whole := by
        rw [← List.flatMap_append, ← after, flatMap_whole_lines]
      have alone : ∀ more, c = '\r' → front.flatMap Line.whole ≠ '\n' :: more := by
        intro more carriage feed
        rw [feed] at whole
        exact alone _ carriage whole
      exact (lines_lineEnd ends alone).trans (congrArg _ (ih after))
  | case4 c rest _ inside none =>
    obtain ⟨rfl, -⟩ | ⟨front, rfl, after⟩ := List.cons_eq_append_iff.mp h
    · rfl
    · obtain ⟨rfl, -⟩ := List.append_eq_nil_iff.mp after.symm
      exact lines_last inside
  | case5 c rest _ inside first more some ih =>
    obtain ⟨rfl, -⟩ | ⟨front, rfl, rfl⟩ := List.cons_eq_append_iff.mp h
    · rfl
    · exact lines_inside inside (@ih (first :: front) some)

/-! ### Line ends -/

theorem eq_nil_of_lines {text : Text} (none : lines text = []) : text = [] := by
  rw [← flatMap_whole_lines text, none]
  rfl

/-- A text that begins with a line end begins with an empty line. What follows are the lines of the
rest; a line feed at its front may belong to the line end, and so one empty line less. -/
theorem lines_cons_lineEnd {c : Char} (ends : isLineEnd c = true) (rest : Text) :
    ∃ ending back, lines (c :: rest) = ⟨[], ending⟩ :: back ∧
      (back = lines rest ∨ ∃ feed, lines rest = ⟨[], feed⟩ :: back) := by
  by_cases pair : c = '\r' ∧ ∃ more, rest = '\n' :: more
  case pos =>
    obtain ⟨rfl, more, rfl⟩ := pair
    exact ⟨['\r', '\n'], lines more, lines.eq_2 more, .inr ⟨['\n'],
      lines_lineEnd (by decide) fun _ same => absurd same (by decide)⟩⟩
  case neg =>
    exact ⟨[c], lines rest,
      lines_lineEnd ends fun more carriage feed => pair ⟨carriage, more, feed⟩, .inl rfl⟩

/-- The lines that are not empty, without what ends them. -/
def filled (lines : List Line) : List Text := (lines.map Line.body).filter (· ≠ [])

theorem filled_cons_empty (ending : Text) (back : List Line) :
    filled (⟨[], ending⟩ :: back) = filled back := rfl

theorem filled_cons (line : Line) (back : List Line) :
    filled (line :: back) = if line.body = [] then filled back else line.body :: filled back := by
  by_cases empty : line.body = [] <;> simp [filled, empty]

theorem filled_lines_cons_lineEnd {c : Char} (ends : isLineEnd c = true) (rest : Text) :
    filled (lines (c :: rest)) = filled (lines rest) := by
  obtain ⟨ending, back, split, rfl | ⟨feed, after⟩⟩ := lines_cons_lineEnd ends rest
  · rw [split, filled_cons_empty]
  · rw [split, after, filled_cons_empty, filled_cons_empty]

/-- A first line is kept, but for its end, and what follows it is filled as two texts are. -/
def Extends (line : Line) (back last all : List Line) : Prop :=
  ∃ ending others, all = ⟨line.body, ending⟩ :: others ∧ filled others = filled back ++ filled last

/-- What two texts with a line end between them hold, when the first line of the first text is kept
in front of what follows it. -/
theorem filled_lines_append_of_extends {c : Char} (ends : isLineEnd c = true) {text after : Text}
    (keeps : ∀ line back, lines text = line :: back →
      Extends line back (lines after) (lines (text ++ c :: after))) :
    filled (lines (text ++ c :: after)) = filled (lines text) ++ filled (lines after) := by
  cases split : lines text with
  | nil =>
    rw [eq_nil_of_lines split, List.nil_append, filled_lines_cons_lineEnd ends]
    rfl
  | cons line back =>
    obtain ⟨ending, others, whole, same⟩ := keeps line back split
    rw [whole, filled_cons, filled_cons, same]
    by_cases full : line.body = [] <;> simp [full]

/-- The first line of a text stays the first one, but for its end, when a line end and another text
follow. -/
theorem extends_lines_append {c : Char} (ends : isLineEnd c = true) {text : Text} {line : Line}
    {back : List Line} (split : lines text = line :: back) (after : Text) :
    Extends line back (lines after) (lines (text ++ c :: after)) := by
  fun_induction lines text generalizing line back with
  | case1 => cases split
  | case2 rest ih =>
    obtain ⟨rfl, rfl⟩ := List.cons.inj split
    exact ⟨_, _, lines.eq_2 (rest ++ c :: after),
      filled_lines_append_of_extends ends fun _ _ => ih⟩
  | case3 d rest alone ends' ih =>
    obtain ⟨rfl, rfl⟩ := List.cons.inj split
    obtain ⟨ending, others, whole, same⟩ := lines_cons_lineEnd ends' (rest ++ c :: after)
    refine ⟨ending, others, whole, ?_⟩
    rw [← filled_lines_append_of_extends ends fun _ _ => ih]
    rcases same with rfl | ⟨feed, same⟩
    · rfl
    · rw [same, filled_cons_empty]
  | case4 d rest _ inside none ih =>
    obtain ⟨rfl, rfl⟩ := List.cons.inj split
    obtain rfl := eq_nil_of_lines none
    obtain ⟨ending, others, whole, same⟩ := lines_cons_lineEnd ends after
    refine ⟨ending, others, lines_inside inside whole, ?_⟩
    rcases same with rfl | ⟨feed, same⟩
    · rfl
    · rw [same, filled_cons_empty]
      rfl
  | case5 d rest _ inside first more some ih =>
    obtain ⟨rfl, rfl⟩ := List.cons.inj split
    obtain ⟨ending, others, whole, same⟩ := ih some
    exact ⟨ending, others, lines_inside inside whole, same⟩

/-- Two texts with a line end between them have the lines of both, but for empty ones. -/
theorem filled_lines_append_lineEnd {c : Char} (ends : isLineEnd c = true) (text after : Text) :
    filled (lines (text ++ c :: after)) = filled (lines text) ++ filled (lines after) :=
  filled_lines_append_of_extends ends fun _ _ split => extends_lines_append ends split after

/-- No line holds a line end. -/
theorem not_isLineEnd_of_mem_body {text : Text} {line : Line} (mem : line ∈ lines text) {c : Char}
    (inside : c ∈ line.body) : isLineEnd c = false := by
  fun_induction lines text generalizing line with
  | case1 => exact absurd mem List.not_mem_nil
  | case2 rest ih =>
    rcases List.mem_cons.mp mem with rfl | mem
    · exact absurd inside List.not_mem_nil
    · exact ih mem inside
  | case3 d rest _ _ ih =>
    rcases List.mem_cons.mp mem with rfl | mem
    · exact absurd inside List.not_mem_nil
    · exact ih mem inside
  | case4 d rest _ open_end none ih =>
    obtain rfl := List.mem_singleton.mp mem
    obtain rfl := List.mem_singleton.mp inside
    exact Bool.eq_false_iff.mpr open_end
  | case5 d rest _ open_end first more some ih =>
    rcases List.mem_cons.mp mem with rfl | mem
    · rcases List.mem_cons.mp inside with rfl | inside
      · exact Bool.eq_false_iff.mpr open_end
      · exact ih (some ▸ List.mem_cons_self) inside
    · exact ih (some ▸ List.mem_cons_of_mem first mem) inside

end WorkflowInstall.Text

import Mathlib.Data.List.TakeWhile
import WorkflowInstall.Directive
import WorkflowInstall.Proofs.Path.Section
import WorkflowInstall.Proofs.Text.Lines

/-!
# The grammar of include directives

A line is a directive when it is the keyword, a `?` or nothing, and an argument: a blank and at
least one more character. The same lines are found by a pattern that takes any number of blanks
before the path. There can be many ways to match it, as the path may hold blanks too, but they all
come to one directive, for the blanks around the path do not count.

## Main Definitions

* `Directive.Spells` — what a line of the grammar asks for
* `Directive.Matches` — how a line matches the pattern
* `Directive.Lists` — the directives of lines in a row

## Main Statements

* `Directive.ofLine?_eq_some_iff` — a line is read just when it belongs to the grammar
* `Directive.spells_iff_matches` — the grammar and the pattern
* `Directive.lists_iff` — lines in a row list one row of directives
* `Directive.ofText_append_lineEnd` — a line end between two texts parts their directives
-/

namespace WorkflowInstall

namespace RepoPath

/-- The section begins at the first `#`. -/
theorem splitSection_snd (reference : Text) :
    (splitSection reference).2 = reference.dropWhile (· != '#') := by
  have whole {path : Text} (clear : '#' ∉ path) : ∀ c ∈ path, (c != '#') = true := fun c mem =>
    bne_iff_ne.mpr fun mark => clear (mark ▸ mem)
  rcases splitSection_cases reference with ⟨clear, split⟩ | ⟨path, name, clear, rfl, split⟩
  · rw [split, List.dropWhile_eq_nil_iff.mpr (whole clear)]
  · rw [split, List.dropWhile_append_of_pos (whole clear)]
    rfl

end RepoPath

namespace Directive

/-! ## Lines -/

/-- What stands between the keyword and the argument. -/
def mark (optional : Bool) : Text := if optional then "?" else []

/-- An argument begins with a blank and has at least one more character. -/
def IsArgument : Text → Prop
  | blank :: _ :: _ => Text.isBlank blank = true
  | _ => False

/-- A line of the grammar, and what it asks for: the argument without the blanks around it is the
path, and the section goes from the first `#` of the path to its end. -/
structure Spells (line : Text) (directive : Directive) : Prop where
  line_eq : ∃ argument, IsArgument argument ∧
    line = keyword ++ mark directive.optional ++ argument ∧
    directive.path = Text.trim argument
  fragment_eq : directive.fragment = directive.path.dropWhile (· != '#')

/-- The directive with an argument. -/
def ofArgument (optional : Bool) (argument : Text) : Directive :=
  let path := Text.trim argument
  ⟨path, optional, path.dropWhile (· != '#')⟩

theorem spells_iff {line : Text} {directive : Directive} :
    Spells line directive ↔ ∃ optional argument, IsArgument argument ∧
      line = keyword ++ mark optional ++ argument ∧ directive = ofArgument optional argument := by
  constructor
  · rintro ⟨⟨argument, is_argument, line_eq, path⟩, fragment⟩
    refine ⟨directive.optional, argument, is_argument, line_eq, ?_⟩
    rw [ofArgument, ← path, ← fragment]
  · rintro ⟨optional, argument, is_argument, line_eq, rfl⟩
    exact ⟨⟨argument, is_argument, line_eq, rfl⟩, rfl⟩

/-- Blanks at the front of a text are trimmed. -/
theorem trim_append_of_blank {blanks : Text} (blank : ∀ c ∈ blanks, Text.isBlank c = true)
    (text : Text) : Text.trim (blanks ++ text) = Text.trim text := by
  rw [Text.trim, Text.trimStart, List.dropWhile_append_of_pos blank]
  rfl

theorem ofArgument?_eq_some_iff {optional : Bool} {argument : Text} {directive : Directive} :
    ofArgument? optional argument = some directive ↔
      IsArgument argument ∧ directive = ofArgument optional argument := by
  match argument with
  | [] => simp [ofArgument?, IsArgument]
  | [_] => simp [ofArgument?, IsArgument]
  | blank :: c :: rest =>
    have trimmed (is_blank : Text.isBlank blank = true) :
        Text.trim ([blank] ++ c :: rest) = Text.trim (c :: rest) :=
      trim_append_of_blank (by simpa using is_blank) (c :: rest)
    rw [List.singleton_append] at trimmed
    rw [ofArgument?, IsArgument]
    split
    case isTrue is_blank =>
      rw [ofArgument, trimmed is_blank]
      dsimp only
      rw [RepoPath.splitSection_snd, and_iff_right is_blank, Option.some_inj, eq_comm]
    case isFalse solid =>
      exact iff_of_false (Option.some_ne_none directive).symm fun both => solid both.1

theorem not_isBlank_mark : Text.isBlank '?' = false := by decide

/-- A line is read just when it belongs to the grammar, as what it asks for. -/
theorem ofLine?_eq_some_iff {line : Text} {directive : Directive} :
    ofLine? line = some directive ↔ Spells line directive := by
  rw [spells_iff]
  unfold ofLine?
  split
  case isFalse other =>
    -- Every line of the grammar begins with the keyword.
    refine iff_of_false (Option.some_ne_none directive).symm ?_
    rintro ⟨optional, argument, -, rfl, -⟩
    refine other (List.isPrefixOf_iff_prefix.mpr ?_)
    rw [List.append_assoc]
    exact List.prefix_append keyword _
  case isTrue begins =>
    obtain ⟨after, rfl⟩ := List.isPrefixOf_iff_prefix.mp begins
    rw [List.drop_left]
    simp only [List.append_assoc, List.append_cancel_left_eq]
    split
    case h_1 rest =>
      rw [ofArgument?_eq_some_iff]
      constructor
      · rintro ⟨is_argument, rfl⟩
        exact ⟨true, rest, is_argument, rfl, rfl⟩
      · rintro ⟨optional, argument, is_argument, same, rfl⟩
        cases optional with
        | true =>
          cases same
          exact ⟨is_argument, rfl⟩
        | false =>
          -- Without the mark the argument would begin with it, but it begins with a blank.
          obtain rfl : '?' :: rest = argument := same
          cases rest with
          | nil => exact is_argument.elim
          | cons => exact nomatch not_isBlank_mark.symm.trans is_argument
    case h_2 unmarked =>
      rw [ofArgument?_eq_some_iff]
      constructor
      · rintro ⟨is_argument, rfl⟩
        exact ⟨false, after, is_argument, rfl, rfl⟩
      · rintro ⟨optional, argument, is_argument, same, rfl⟩
        cases optional with
        | true => exact absurd same (unmarked argument)
        | false =>
          obtain rfl : after = argument := same
          exact ⟨is_argument, rfl⟩

/-! ## The pattern -/

/-- How a line matches the pattern: the keyword, the mark or nothing, blanks, at least one, and the
rest of the line, which is not empty and holds no line feed. -/
structure Matches (line : Text) (optional : Bool) (blanks rest : Text) : Prop where
  line_eq : line = keyword ++ mark optional ++ blanks ++ rest
  some_blank : blanks ≠ []
  blank : ∀ c ∈ blanks, Text.isBlank c = true
  some_rest : rest ≠ []
  one_line : '\n' ∉ rest

/-- A line without a line feed belongs to the grammar just when it matches the pattern, and in
whatever way it does, it asks for the same. -/
theorem spells_iff_matches {line : Text} (one_line : '\n' ∉ line) {directive : Directive} :
    Spells line directive ↔ ∃ optional blanks rest, Matches line optional blanks rest ∧
      directive = ofArgument optional rest := by
  rw [spells_iff]
  constructor
  · rintro ⟨optional, argument, is_argument, rfl, rfl⟩
    match argument with
    | blank :: c :: rest =>
      have is_blank : ∀ d ∈ [blank], Text.isBlank d = true :=
        List.forall_mem_singleton.mpr is_argument
      refine ⟨optional, [blank], c :: rest, ⟨?_, List.cons_ne_nil _ _, is_blank,
        List.cons_ne_nil _ _, fun mem => one_line ?_⟩, ?_⟩
      · rw [List.append_assoc _ [blank]]
        rfl
      · exact List.mem_append_right _ (List.mem_cons_of_mem blank mem)
      · rw [ofArgument, ofArgument, ← trim_append_of_blank is_blank (c :: rest)]
        rfl
  · rintro ⟨optional, blanks, rest, found, rfl⟩
    refine ⟨optional, blanks ++ rest, ?_, by rw [found.line_eq, List.append_assoc _ blanks], ?_⟩
    · obtain ⟨blank, blanks, rfl⟩ := List.exists_cons_of_ne_nil found.some_blank
      obtain ⟨c, rest, rfl⟩ := List.exists_cons_of_ne_nil found.some_rest
      have begins : Text.isBlank blank = true := found.blank blank List.mem_cons_self
      cases blanks with
      | nil => exact begins
      | cons => exact begins
    · rw [ofArgument, ofArgument, trim_append_of_blank found.blank]

/-! ## Texts -/

/-- Lines in a row list a directive for each line of the grammar, in order, and none for any other
line. -/
inductive Lists : List Text → List Directive → Prop
  | nil : Lists [] []
  | asks {line lines directive directives} :
      Spells line directive → Lists lines directives →
        Lists (line :: lines) (directive :: directives)
  | passes {line lines directives} :
      (∀ directive, ¬ Spells line directive) → Lists lines directives →
        Lists (line :: lines) directives

theorem ofLine?_eq_none_iff {line : Text} :
    ofLine? line = none ↔ ∀ directive, ¬ Spells line directive := by
  simp only [← ofLine?_eq_some_iff, Option.eq_none_iff_forall_ne_some]

/-- Lines list one row of directives, the one that is read from them. -/
theorem lists_iff {lines : List Text} {directives : List Directive} :
    Lists lines directives ↔ lines.filterMap ofLine? = directives := by
  constructor
  · intro lists
    induction lists with
    | nil => rfl
    | asks spells _ ih => rw [List.filterMap_cons_some (ofLine?_eq_some_iff.mpr spells), ih]
    | passes none _ ih => rw [List.filterMap_cons_none (ofLine?_eq_none_iff.mpr none), ih]
  · rintro rfl
    induction lines with
    | nil => exact .nil
    | cons line lines ih =>
      cases read : ofLine? line with
      | some directive =>
        rw [List.filterMap_cons_some read]
        exact .asks (ofLine?_eq_some_iff.mp read) ih
      | none =>
        rw [List.filterMap_cons_none read]
        exact .passes (ofLine?_eq_none_iff.mp read) ih

theorem ofText_eq_filterMap_body (text : Text) :
    ofText text = ((Text.lines text).map Line.body).filterMap ofLine? := by
  rw [List.filterMap_map]
  rfl

/-- Empty lines ask for nothing. -/
theorem ofText_eq_filterMap_filled (text : Text) :
    ofText text = (Text.filled (Text.lines text)).filterMap ofLine? := by
  rw [ofText_eq_filterMap_body, Text.filled, List.filterMap_filter]
  refine List.filterMap_congr fun line _ => ?_
  cases line <;> rfl

/-- Two texts with a line end between them ask for what the first one asks for, and then for what
the second one does. -/
theorem ofText_append_lineEnd {c : Char} (ends : Text.isLineEnd c = true) (text after : Text) :
    ofText (text ++ c :: after) = ofText text ++ ofText after := by
  simp only [ofText_eq_filterMap_filled, Text.filled_lines_append_lineEnd ends,
    List.filterMap_append]

/-- The directives of a text are those that its lines spell, one for each line of the grammar, in
order. In whatever way a line matches the pattern, its directive is the one that the grammar gives
it. Two texts with a line feed between them ask for what the first one asks for and then for what
the second one does. -/
theorem ofText_grammar (text : Text) :
    (∀ directives, Lists ((Text.lines text).map Line.body) directives ↔
      directives = ofText text) ∧
      (∀ line ∈ Text.lines text, ∀ directive, Spells line.body directive ↔
        ∃ optional blanks rest, Matches line.body optional blanks rest ∧
          directive = ofArgument optional rest) ∧
      ∀ after, ofText (text ++ '\n' :: after) = ofText text ++ ofText after := by
  refine ⟨fun directives => ?_, fun line mem directive => ?_,
    ofText_append_lineEnd (by decide) text⟩
  · rw [lists_iff, ofText_eq_filterMap_body, eq_comm]
  · refine spells_iff_matches fun feed => ?_
    exact absurd (Text.not_isLineEnd_of_mem_body mem feed) (by decide)

/-- A line that matches the pattern in two ways, and one that does not begin with the keyword. -/
theorem ofText_grammar_two_ways :
    let text : Text := "@include?\t a b.md#x \u2028 @include c.md"
    let line : Line := ⟨"@include?\t a b.md#x ", "\u2028"⟩
    let directive : Directive := ⟨"a b.md#x", true, "#x"⟩
    line ∈ Text.lines text ∧ Lists ((Text.lines text).map Line.body) [directive] ∧
      Matches line.body true "\t" " a b.md#x " ∧ Matches line.body true "\t " "a b.md#x " ∧
      Spells line.body directive := by
  intro text line directive
  have mem : line ∈ Text.lines text := by decide
  have shorter : Matches line.body true "\t" " a b.md#x " :=
    ⟨rfl, by decide, List.all_eq_true.mp rfl, by decide, by decide⟩
  have longer : Matches line.body true "\t " "a b.md#x " :=
    ⟨rfl, by decide, List.all_eq_true.mp rfl, by decide, by decide⟩
  have grammar := ofText_grammar text
  exact ⟨mem, (grammar.1 _).mpr (by decide), shorter, longer,
    (grammar.2.1 line mem directive).mpr ⟨true, _, _, longer, by decide⟩⟩

end Directive

end WorkflowInstall

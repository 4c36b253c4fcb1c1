import Mathlib.Data.List.Infix
import WorkflowInstall.Path.Repository

/-!
# The section of a reference

A reference is a path and what stands from its first `#` on. Whether it is pinned depends on the
path, but for an `@` that stands in the section.

## Main Statements

* `Text.cutAt_cases` — a text holds no separator, or it is cut at the first one
* `RepoPath.splitSection_cases` — a reference has no section, or it is its path and its section
* `RepoPath.isPinned_eq` — what the section has to do with being pinned
* `RepoPath.isPinned_of_shared` — a shared reference is pinned only by an `@`
-/

namespace WorkflowInstall

namespace Text

/-- A text holds no separator, or it is cut at the first one. -/
theorem cutAt_cases (separator : Char) (text : Text) :
    separator ∉ text ∧ cutAt separator text = (text, none) ∨
      ∃ before after, separator ∉ before ∧ text = before ++ separator :: after ∧
        cutAt separator text = (before, some after) := by
  induction text with
  | nil => exact .inl ⟨List.not_mem_nil, rfl⟩
  | cons c rest ih =>
    rw [cutAt]
    by_cases here : c = separator
    · rw [if_pos here]
      exact .inr ⟨[], rest, List.not_mem_nil, by rw [here, List.nil_append], rfl⟩
    · rw [if_neg here]
      rcases ih with ⟨clear, cut⟩ | ⟨before, after, clear, same, cut⟩
      · rw [cut]
        exact .inl ⟨List.not_mem_cons_of_ne_of_not_mem (Ne.symm here) clear, rfl⟩
      · rw [cut]
        exact .inr ⟨c :: before, after, List.not_mem_cons_of_ne_of_not_mem (Ne.symm here) clear,
          congrArg (List.cons c) same, rfl⟩

/-- A text is cut at its first separator. -/
theorem cutAt_append {separator : Char} {before : Text} (clear : separator ∉ before)
    (after : Text) : cutAt separator (before ++ separator :: after) = (before, some after) := by
  induction before with
  | nil => exact if_pos rfl
  | cons c rest ih =>
    rw [List.mem_cons, not_or] at clear
    rw [List.cons_append, cutAt, if_neg (Ne.symm clear.1), ih clear.2]

/-- What begins with a text that holds no separator begins with it before its first separator. -/
theorem startsWith_of_append {start before after : Text} {separator : Char}
    (clear : separator ∉ start) (h : startsWith start (before ++ separator :: after) = true) :
    startsWith start before = true := by
  rw [startsWith, List.isPrefixOf_iff_prefix] at h ⊢
  rcases List.prefix_or_prefix_of_prefix h (List.prefix_append before _) with shorter | longer
  · exact shorter
  · -- Otherwise the separator would be the next character of the start.
    obtain ⟨more, rfl⟩ := longer
    obtain ⟨rest, same⟩ := h
    rw [List.append_assoc, List.append_cancel_left_eq] at same
    cases more with
    | nil => rw [List.append_nil]
    | cons c more =>
      cases same
      exact absurd (List.mem_append_right before List.mem_cons_self) clear

end Text

namespace RepoPath

/-- A reference has no section, or it is its path and its section. -/
theorem splitSection_cases (reference : Text) :
    '#' ∉ reference ∧ splitSection reference = (reference, []) ∨
      ∃ path name, '#' ∉ path ∧ reference = path ++ '#' :: name ∧
        splitSection reference = (path, '#' :: name) := by
  unfold splitSection
  rcases Text.cutAt_cases '#' reference with ⟨clear, cut⟩ | ⟨path, name, clear, same, cut⟩
  · rw [cut]
    exact .inl ⟨clear, rfl⟩
  · rw [cut]
    exact .inr ⟨path, name, clear, same, rfl⟩

theorem notMem_splitSection (reference : Text) : '#' ∉ (splitSection reference).1 := by
  rcases splitSection_cases reference with ⟨clear, split⟩ | ⟨path, name, clear, -, split⟩
  · rwa [split]
  · rwa [split]

/-- A path without a section is the whole reference. -/
theorem splitSection_of_notMem {path : Text} (clear : '#' ∉ path) :
    splitSection path = (path, []) := by
  rcases splitSection_cases path with ⟨-, split⟩ | ⟨before, name, -, rfl, -⟩
  · exact split
  · exact absurd (List.mem_append_right before List.mem_cons_self) clear

/-- A reference is pinned when its path is, or when there is an `@` in its section. -/
theorem isPinned_eq (reference : Text) :
    isPinned reference =
      ((splitSection reference).2.contains '@' || isPinned (splitSection reference).1) := by
  rcases splitSection_cases reference with ⟨-, split⟩ | ⟨path, name, clear, rfl, split⟩
  · rw [split, List.contains_nil, Bool.false_or]
  · have marked : (path ++ '#' :: name).contains '@' =
        (('#' :: name).contains '@' || path.contains '@') := by
      rw [List.contains_append, Bool.or_comm]
    rw [isPinned, split, isPinned, splitSection_of_notMem clear, marked, Bool.or_assoc]

/-- A shared reference is pinned only by an `@`. -/
theorem isPinned_of_shared {reference : Text}
    (shared : Text.startsWith "shared/" reference = true) :
    isPinned reference = reference.contains '@' := by
  have same : Text.startsWith "shared/" (splitSection reference).1 = true := by
    rcases splitSection_cases reference with ⟨-, split⟩ | ⟨path, name, -, rfl, split⟩
    · rwa [split]
    · rw [split]
      exact Text.startsWith_of_append (by decide) shared
  rw [isPinned]
  dsimp only
  rw [same, Bool.or_true, Bool.not_true, Bool.and_false, Bool.or_false]

end RepoPath

end WorkflowInstall

import WorkflowInstall.Proofs.Path.Joining

/-!
# The way from a directory to a path

The way goes up from the directory as far as the two are apart, and then down to the path. Walking
it from the directory leads to the path again, and it begins with a step up just when the path lies
elsewhere.

## Main Statements

* `Path.foldl_advance_steps` — walking the steps from a place to another one
* `Path.absolute_join_relative` — the way leads back to the path
* `Path.relative_climbs_iff` — when it leaves the directory
-/

namespace WorkflowInstall.Path

/-! ## Steps -/

theorem climbing_replicate_append (climbs : Nat) {names : List Text}
    (proper : ∀ name ∈ names, IsProper name) : Climbing (List.replicate climbs up ++ names) :=
  ⟨climbs, names, rfl, proper⟩

/-- The steps between two places go up, and then down through proper names. -/
theorem climbing_steps (start : List Text) {goal : List Text}
    (proper : ∀ name ∈ goal, IsProper name) : Climbing (steps start goal) := by
  fun_induction steps start goal with
  | case1 start name goal ih =>
    exact ih fun other mem => proper other (List.mem_cons_of_mem name mem)
  | case2 a start b goal => exact climbing_replicate_append _ proper
  | case3 goal => exact climbing_replicate_append 0 proper
  | case4 start =>
    rw [← List.append_nil (List.replicate _ _)]
    exact climbing_replicate_append _ fun _ mem => absurd mem List.not_mem_nil

/-- As many steps up as there are names undo the names. -/
theorem foldl_advance_replicate_up (front names : List Text) :
    (List.replicate names.length up).foldl advance (front ++ names) = front := by
  induction names generalizing front with
  | nil => exact List.append_nil front
  | cons name names ih =>
    have later := ih (front ++ [name])
    rw [List.append_assoc, List.singleton_append] at later
    rw [List.length_cons, List.replicate_succ', List.foldl_append, later, List.foldl_cons,
      List.foldl_nil, advance, if_neg (by decide), if_pos rfl, List.dropLast_concat]

/-- Walking the steps from a place to another one leads there. `front` is the way that the two have
in common already. -/
theorem foldl_advance_steps (front start : List Text) {goal : List Text}
    (proper : ∀ name ∈ goal, IsProper name) :
    (steps start goal).foldl advance (front ++ start) = front ++ goal := by
  fun_induction steps start goal generalizing front with
  | case1 start name goal ih =>
    have later := ih (front ++ [name]) fun other mem => proper other (List.mem_cons_of_mem name mem)
    rwa [List.append_assoc, List.append_assoc] at later
  | case2 a start b goal apart =>
    rw [List.foldl_append, ← List.length_cons, foldl_advance_replicate_up,
      foldl_advance_of_isProper proper]
  | case3 goal => rw [List.append_nil, foldl_advance_of_isProper proper]
  | case4 start => rw [foldl_advance_replicate_up, List.append_nil]

/-- The steps begin with a step up just when the goal is not at or below the start. -/
theorem steps_climbs_iff {start goal : List Text} (proper : ∀ name ∈ goal, IsProper name) :
    (∃ rest, steps start goal = up :: rest) ↔ ¬ start <+: goal := by
  constructor
  · rintro ⟨rest, climbs⟩ ⟨names, rfl⟩
    rw [steps_append] at climbs
    exact (proper up (List.mem_append_right start (climbs ▸ List.mem_cons_self))).ne_up rfl
  · intro apart
    obtain ⟨rest, climbs, -⟩ := steps_of_not_prefix apart
    exact ⟨rest, climbs⟩

/-! ## Spelled ways -/

/-- Following the spelling of climbing names leads through the names. -/
theorem foldl_advance_spell_here {names : List Text} (climbing : Climbing names)
    (location : List Text) :
    (Text.splitOn '/' (spell .here names)).foldl advance location =
      names.foldl advance location := by
  cases names with
  | nil => rfl
  | cons name rest => rw [climbing.splitOn_spell (List.cons_ne_nil name rest)]

/-- A relative path after a text that is not empty does not change where it begins. -/
theorem anchor_append {front rest : Text} (some : front ≠ []) (relative : isAbsolute rest = false) :
    Anchor.ofText (front ++ rest) = Anchor.ofText front := by
  match front with
  | [c] =>
    by_cases slash : c = '/'
    · subst slash
      exact ofText_slash relative
    · simp [Anchor.ofText, slash]
  | [c, d] =>
    by_cases slash : c = '/'
    · subst slash
      by_cases second : d = '/'
      · subst second
        exact ofText_slash_slash relative
      · simp [Anchor.ofText, second]
    · simp [Anchor.ofText, slash]
  | c :: d :: e :: more =>
    by_cases slash : c = '/'
    · by_cases second : d = '/'
      · by_cases third : e = '/' <;> simp [Anchor.ofText, slash, second, third]
      · simp [Anchor.ofText, slash, second]
    · simp [Anchor.ofText, slash]

/-- A slash after a text that does not end in one does not change where it begins. -/
theorem anchor_append_slash {front : Text} (some : front ≠ [])
    (open_end : Text.endsWith "/" front = false) :
    Anchor.ofText (front ++ "/") = Anchor.ofText front := by
  match front with
  | [c] =>
    have plain : c ≠ '/' := by
      rintro rfl
      exact nomatch open_end
    simp [Anchor.ofText, plain]
  | [c, d] =>
    have plain : d ≠ '/' := by
      rintro rfl
      simp [Text.endsWith, List.isSuffixOf, List.isPrefixOf] at open_end
    by_cases slash : c = '/' <;> simp [Anchor.ofText, slash, plain]
  | c :: d :: e :: more =>
    by_cases slash : c = '/'
    · by_cases second : d = '/'
      · by_cases third : e = '/' <;> simp [Anchor.ofText, slash, second, third]
      · simp [Anchor.ofText, slash, second]
    · simp [Anchor.ofText, slash]

/-- A relative path begins where the directory does that it is joined to. -/
theorem anchor_join (base : Text) {path : Text} (relative : isAbsolute path = false) :
    Anchor.ofText (join base path) = Anchor.ofText base := by
  rw [join, if_neg (by simp [relative])]
  by_cases none : base = []
  · rw [none]
    exact ofText_relative relative
  · split
    case isTrue => exact anchor_append none relative
    case isFalse open_end =>
      rw [Bool.or_eq_true, not_or, Bool.not_eq_true] at open_end
      rw [anchor_append (List.append_ne_nil_of_left_ne_nil none _) relative,
        anchor_append_slash none (Bool.eq_false_iff.mpr open_end.2)]

section

variable {cwd : List Text} (names : ∀ name ∈ cwd, IsProper name) (path directory : Text)
include names

/-- Going the way from the directory leads to the names of the path, seen from the root of the
directory. -/
theorem absolute_join_relative :
    absolute (spell .root cwd) (join directory (relative (spell .root cwd) path directory)) =
      spell (Anchor.ofText directory).rooted (absoluteNames (spell .root cwd) path) := by
  have goal := absoluteNames_isProper names path
  have climbing := climbing_steps (absoluteNames (spell .root cwd) directory) goal
  have relative_way := RepoPath.isAbsolute_spell_here climbing
  have rooted : isAbsolute (join directory (spell .here (steps
      (absoluteNames (spell .root cwd) directory) (absoluteNames (spell .root cwd) path)))) =
      isAbsolute directory := by
    rw [← isRooted_ofText, anchor_join directory relative_way, isRooted_ofText]
  rw [relative, absolute_eq names, anchor_join directory relative_way, start, rooted, ← start,
    foldl_advance_join directory relative_way, ← absoluteNames_eq names,
    foldl_advance_spell_here climbing]
  have walk := foldl_advance_steps [] (absoluteNames (spell .root cwd) directory) goal
  rw [List.nil_append, List.nil_append] at walk
  rw [walk]

theorem absoluteNames_join_relative :
    absoluteNames (spell .root cwd)
        (join directory (relative (spell .root cwd) path directory)) =
      absoluteNames (spell .root cwd) path := by
  rw [absoluteNames, absolute_join_relative names,
    names_spell_rooted (Anchor.isRooted_rooted _) (absoluteNames_isProper names path)]

/-- The way begins with a step up just when the path is not at or below the directory. -/
theorem relative_climbs_iff :
    (∃ rest, Text.splitOn '/' (relative (spell .root cwd) path directory) = up :: rest) ↔
      ¬ absoluteNames (spell .root cwd) directory <+: absoluteNames (spell .root cwd) path := by
  have goal := absoluteNames_isProper names path
  have climbing := climbing_steps (absoluteNames (spell .root cwd) directory) goal
  rw [← steps_climbs_iff goal, relative]
  cases way : steps (absoluteNames (spell .root cwd) directory)
      (absoluteNames (spell .root cwd) path) with
  | nil => simp [show Text.splitOn '/' (spell .here []) = [dot] from rfl]
  | cons name rest =>
    rw [way] at climbing
    rw [climbing.splitOn_spell (List.cons_ne_nil name rest)]

end

end WorkflowInstall.Path

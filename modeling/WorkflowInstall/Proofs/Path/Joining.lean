import WorkflowInstall.Proofs.Path.Ascent
import WorkflowInstall.Proofs.Path.Placing

/-!
# Joined paths

A path that is joined to a directory is a walk from the root of the repository, along the directory
and then along the path. It is refused when the walk goes above the root, and otherwise it spells
the names that the walk leads to.

## Main Definitions

* `RepoPath.fromRoot` — a path as written in a file of a directory, seen from the root

## Main Statements

* `RepoPath.walk?_eq_none_iff` — when a walk goes above the root
* `RepoPath.walk?_eq_some_iff` — a walk leads to the names of the normal form, or above the root
* `RepoPath.join_eq_spell` — a joined path is a normal form
* `RepoPath.join_walk` — what a joined path is, and when it is refused

## Design Notes

A directory that begins with a slash makes the whole path rooted. Its normal form drops the steps up
that go above the root, so such a path is never refused, however often its walk tries to leave.
-/

namespace WorkflowInstall

open Path

namespace RepoPath

/-! ## When a walk goes above the root -/

/-- A walk goes above the root just when one of its segments goes up in the root. -/
theorem walk?_eq_none_iff {location segments : List Text} :
    walk? location segments = none ↔
      ∃ front rest, segments = front ++ up :: rest ∧ walk? location front = some [] := by
  constructor
  case mp =>
    intro h
    induction segments generalizing location with
    | nil => exact nomatch h
    | cons segment rest ih =>
      rw [walk?_cons] at h
      cases step : descend? location segment with
      | none =>
        -- This segment is the one that goes above the root.
        have above : segment = up ∧ location = [] := by
          unfold descend? at step
          split at step
          · assumption
          · exact nomatch step
        exact ⟨[], rest, by rw [above.1, List.nil_append], congrArg some above.2⟩
      | some next =>
        rw [step] at h
        obtain ⟨front, more, rfl, walked⟩ := ih h
        exact ⟨segment :: front, more, rfl, by rw [walk?_cons, step]; exact walked⟩
  case mpr =>
    rintro ⟨front, rest, rfl, walked⟩
    rw [walk?_append, walked]
    rfl

/-! ## Walks and normal forms -/

theorem push_eq_push_of_ne (rooted : Bool) {walked : List Text} {segment : Text}
    (inside : ¬ (segment = up ∧ walked = [])) :
    push rooted walked segment = push true walked segment := by
  rw [push.eq_def, push.eq_def true]
  split
  · rfl
  split
  case isTrue climbs =>
    cases walked with
    | nil => exact absurd ⟨climbs, rfl⟩ inside
    | cons last before => rfl
  case isFalse => rfl

theorem up_notMem_advance {location : List Text} (names : up ∉ location) (segment : Text) :
    up ∉ advance location segment := by
  unfold advance
  split
  · exact names
  split
  · exact fun mem => names (List.dropLast_subset location mem)
  case isFalse other =>
    rw [List.mem_append, List.mem_singleton, not_or]
    exact ⟨names, Ne.symm other⟩

/-- A walk that never goes above the root leads to the names of the normal form, and these do not
climb. -/
theorem reverse_foldl_push_of_walk? {segments location reached : List Text} (names : up ∉ location)
    (h : walk? location segments = some reached) :
    (segments.foldl (push false) location.reverse).reverse = reached ∧ up ∉ reached := by
  -- By induction on the segments, where `location` holds the names walked so far.
  induction segments generalizing location with
  | nil =>
    obtain rfl := Option.some.inj h
    exact ⟨List.reverse_reverse location, names⟩
  | cons segment rest ih =>
    rw [walk?_cons] at h
    obtain ⟨next, step, walked⟩ := Option.bind_eq_some_iff.mp h
    unfold descend? at step
    split at step
    case isTrue => exact nomatch step
    case isFalse inside =>
    obtain rfl := Option.some.inj step
    have pushed : push false location.reverse segment = (advance location segment).reverse := by
      rw [push_eq_push_of_ne false (by rwa [List.reverse_eq_nil_iff]), ← reverse_push names segment,
        List.reverse_reverse]
    rw [List.foldl_cons, pushed]
    exact ih (up_notMem_advance names segment) walked

/-- A walk along a relative path leads to the names of its normal form when these do not climb, and
otherwise it goes above the root. -/
theorem walk?_eq_some_iff {path : Text} (relative : isAbsolute path = false) {reached : List Text} :
    walk? [] (Text.splitOn '/' path) = some reached ↔ segments path = reached ∧ up ∉ reached := by
  have names : segments path = ((Text.splitOn '/' path).foldl (push false) []).reverse := by
    rw [segments, isRooted_ofText, relative, resolve]
  rw [names]
  constructor
  · exact reverse_foldl_push_of_walk? List.not_mem_nil
  · rintro ⟨rfl, climbless⟩
    refine walk?_of_climbless List.not_mem_nil (fun bottom => climbless ?_) []
    exact List.mem_reverse.mpr (List.mem_of_getLast? bottom)

/-- The names of a rooted path are those that the walk from the root leads to. -/
theorem segments_of_isAbsolute {path : Text} (absolute : isAbsolute path = true) :
    segments path = (Text.splitOn '/' path).foldl advance [] := by
  rw [segments, isRooted_ofText, absolute, resolve_rooted (slash_notMem_splitOn path)]

/-- A walk from the root leads to proper names. -/
theorem isProper_walk (path : Text) :
    ∀ name ∈ (Text.splitOn '/' path).foldl advance [], IsProper name :=
  foldl_advance_isProper (slash_notMem_splitOn path) fun _ mem => absurd mem List.not_mem_nil

/-- Climbing names pass the check when none of them is a step up. -/
theorem checkInside_spell_iff {names : List Text} (climbing : Climbing names) :
    checkInside (spell .here names) = .ok () ↔ up ∉ names := by
  have pieces := climbing.pieces
  constructor
  · intro inside mem
    by_cases first : ∃ rest, names = up :: rest
    · obtain ⟨rest, rfl⟩ := first
      refine checkInside_spell_up (fun name mem => ?_) inside
      exact (pieces name (List.mem_cons_of_mem up mem)).1
    · exact up_notMem (climbing.isProper first) mem
  · intro climbless
    rw [checkInside_eq_ok]
    intro refused
    have plain : ∀ name ∈ names, name ≠ [] ∧ '/' ∉ name := fun name mem =>
      ⟨(pieces name mem).1, (pieces name mem).2.2⟩
    rcases (spell_here_refused_iff plain).mp (.inr refused) with rfl | rfl | ⟨rest, rfl⟩
    · exact absurd refused (by decide)
    · exact (pieces dot List.mem_cons_self).2.1 rfl
    · exact climbless List.mem_cons_self

/-- The normal form of a path passes the check when the path is rooted, or when the walk along it
stays inside. -/
theorem checkInside_segments_iff (path : Text) :
    checkInside (spell .here (segments path)) = .ok () ↔
      isAbsolute path = true ∨ StaysInside path := by
  rw [checkInside_spell_iff (climbing_segments path)]
  cases absolute : isAbsolute path with
  | true =>
    refine iff_of_true ?_ (.inl rfl)
    rw [segments_of_isAbsolute absolute]
    exact up_notMem (isProper_walk path)
  | false =>
    rw [StaysInside, Option.isSome_iff_exists]
    simp only [walk?_eq_some_iff absolute, Bool.false_eq_true, false_or]
    constructor
    · exact fun climbless => ⟨segments path, rfl, climbless⟩
    · rintro ⟨-, rfl, climbless⟩
      exact climbless

/-- The names of a path that stays inside are those that the walk from the root leads to. -/
theorem segments_of_inside {path : Text} (inside : isAbsolute path = true ∨ StaysInside path) :
    segments path = (Text.splitOn '/' path).foldl advance [] := by
  cases absolute : isAbsolute path with
  | true => exact segments_of_isAbsolute absolute
  | false =>
    rw [absolute] at inside
    obtain ⟨reached, walked⟩ := Option.isSome_iff_exists.mp (inside.resolve_left Bool.false_ne_true)
    rw [foldl_advance_of_walk? walked, ((walk?_eq_some_iff absolute).mp walked).1]

/-! ## Joined paths -/

/-- What is refused leaves the repository. -/
theorem checkInside_eq_error {path : Text} :
    checkInside path = .error ⟨.leavesRepository, path⟩ ↔ ¬ checkInside path = .ok () := by
  unfold checkInside
  split
  case isTrue => exact iff_of_true rfl (by rintro ⟨⟩)
  case isFalse => exact iff_of_false (by rintro ⟨⟩) (not_not_intro rfl)

/-- A path as written in a file of the directory `base`, seen from the root of the repository. -/
def fromRoot (base path : Text) : Text :=
  match path with
  | '/' :: rest => rest
  | _ => if base = [] then path else base ++ '/' :: path

theorem isAbsolute_append {front : Text} (some : front ≠ []) (rest : Text) :
    isAbsolute (front ++ rest) = isAbsolute front := by
  obtain ⟨c, more, rfl⟩ := List.exists_cons_of_ne_nil some
  rw [List.cons_append, isAbsolute_cons, isAbsolute_cons]

/-- A second slash after a directory does not matter. -/
theorem segments_join {base path : Text} (some : base ≠ []) (relative : isAbsolute path = false) :
    segments (Path.join base path) = segments (base ++ '/' :: path) := by
  unfold Path.join
  rw [if_neg (Bool.eq_false_iff.mp relative)]
  split
  case isTrue closed =>
    rw [List.isEmpty_eq_false_iff.mpr some, Bool.false_or] at closed
    obtain ⟨front, rfl⟩ := List.isSuffixOf_iff_suffix.mp closed
    have rooted (more : Text) := isAbsolute_append some more
    rw [segments, segments, isRooted_ofText, isRooted_ofText, rooted, rooted, resolve, resolve,
      Text.splitOn_append_cons, show ("/" : Text) = '/' :: [] from rfl, List.append_assoc,
      List.cons_append, List.nil_append, Text.splitOn_append_cons, Text.splitOn_append_cons,
      List.foldl_append, List.foldl_append, List.foldl_append]
    rfl
  case isFalse => rw [List.append_assoc]; rfl

/-- A normal path without the slashes at its front is the spelling of its names. -/
theorem dropLeading_normalize_eq (path : Text) :
    (match Text.dropLeading '/' (Path.normalize path) with
      | [] => dot
      | inside => inside) = spell .here (segments path) := by
  by_cases none : segments path = []
  · rw [Path.normalize, none]
    cases Anchor.ofText path <;> rfl
  · have pieces : ∀ name ∈ segments path, name ≠ [] ∧ '/' ∉ name := fun name mem =>
      ⟨((climbing_segments path).pieces name mem).1, ((climbing_segments path).pieces name mem).2.2⟩
    rw [Path.normalize, dropLeading_spell _ none pieces]
    split
    case h_1 empty => exact absurd empty (spell_ne_nil _ _)
    case h_2 => rfl

theorem fromRoot_of_relative {base path : Text} (relative : isAbsolute path = false) :
    fromRoot base path = if base = [] then path else base ++ '/' :: path := by
  unfold fromRoot
  split
  case h_1 => exact nomatch relative
  case h_2 => rfl

/-- A joined path is the normal form of the whole path, spelled from the root of the repository. -/
theorem join_eq_spell (base path : Text) :
    join base path = spell .here (segments (fromRoot base path)) := by
  refine (dropLeading_normalize_eq _).trans (congrArg (spell .here) ?_)
  split
  case h_1 => rfl
  case h_2 other =>
    have relative : isAbsolute path = false := by
      cases path with
      | nil => rfl
      | cons c rest =>
        rw [isAbsolute_cons]
        exact beq_false_of_ne fun slash => other rest (slash ▸ rfl)
    rw [fromRoot_of_relative relative]
    simp only [List.isEmpty_iff]
    split
    case isTrue => rfl
    case isFalse some => exact segments_join some relative

theorem isAbsolute_spell_here {names : List Text} (climbing : Climbing names) :
    isAbsolute (spell .here names) = false := by
  have plain : LocalPath.IsPlain ⟨.here, names⟩ := climbing.pieces
  exact LocalPath.isAbsolute_text plain

/-- Climbing names are read back from their spelling. -/
theorem segments_spell {names : List Text} (climbing : Climbing names) :
    segments (spell .here names) = names := by
  cases names with
  | nil => decide
  | cons name rest =>
    have pieces := climbing.splitOn_spell (List.cons_ne_nil name rest)
    rw [← pieces] at climbing
    rw [segments_of_climbing climbing, pieces]

/-- What is spelled from climbing names is joined as it is. -/
theorem join_spell {names : List Text} (climbing : Climbing names) :
    join [] (spell .here names) = spell .here names := by
  rw [join_eq_spell, fromRoot_of_relative (isAbsolute_spell_here climbing), if_pos rfl,
    segments_spell climbing]

/-- A path that is joined to a directory is a walk from the root of the repository along both, or
along the path alone when it begins with a slash. The check refuses it just when the walk goes above
the root, which it never does when the whole begins with a slash. What is not refused spells the
names that the walk leads to, and a joined path is joined again as it is. -/
theorem join_walk (base path : Text) :
    let pieces := Text.splitOn '/' (fromRoot base path)
    let goal := pieces.foldl advance []
    (checkInside (join base path) = .error ⟨.leavesRepository, join base path⟩ ↔
      isAbsolute (fromRoot base path) = false ∧
        ∃ front rest, pieces = front ++ up :: rest ∧ walk? [] front = some []) ∧
    (checkInside (join base path) = .ok () →
      (∀ name ∈ goal, IsProper name) ∧
      join base path = if goal = [] then dot else Text.joinWith "/" goal) ∧
    join [] (join base path) = join base path := by
  intro pieces goal
  have passes : checkInside (join base path) = .ok () ↔
      isAbsolute (fromRoot base path) = true ∨ StaysInside (fromRoot base path) := by
    rw [join_eq_spell]
    exact checkInside_segments_iff (fromRoot base path)
  refine ⟨?_, fun inside => ?_, ?_⟩
  · rw [← walk?_eq_none_iff, checkInside_eq_error, passes, not_or, Bool.not_eq_true, StaysInside,
      Option.not_isSome_iff_eq_none]
  · have proper : ∀ name ∈ goal, IsProper name := isProper_walk (fromRoot base path)
    have spelled : join base path = spell .here goal := by
      rw [join_eq_spell, segments_of_inside (passes.mp inside)]
    refine ⟨proper, ?_⟩
    rw [spelled]
    split
    case isTrue none => rw [none]; rfl
    case isFalse some => exact spell_here some fun name mem => (proper name mem).ne_nil
  · rw [join_eq_spell base path, join_spell (climbing_segments _)]

/-- A walk that comes back to the root goes on from there, and one that goes above it is refused. -/
theorem join_walk_back :
    checkInside (join "a/.." "./b//../c.md") = .ok () ∧ join "a/.." "./b//../c.md" = "c.md" ∧
      join [] (join "a/.." "./b//../c.md") = join "a/.." "./b//../c.md" ∧
      checkInside (join "a" "../b/../../a/c.md") =
        .error ⟨.leavesRepository, join "a" "../b/../../a/c.md"⟩ := by
  have inside : checkInside (join "a/.." "./b//../c.md") = .ok () := rfl
  obtain ⟨-, spelled, again⟩ := join_walk "a/.." "./b//../c.md"
  refine ⟨inside, (spelled inside).2.trans (by decide), again, ?_⟩
  exact (join_walk "a" "../b/../../a/c.md").1.mpr
    ⟨by decide, ["a", "..", "b", ".."], ["a", "c.md"], by decide, by decide⟩

end RepoPath

end WorkflowInstall

import WorkflowInstall.Proofs.Path.Joining

/-!
# Taking a directory from the front of a path

A file of the repository is kept at the place that it has below a directory, and the directory is
taken from the front of its path as a text. It stands there only when it is spelled in its normal
form, since the path itself is.

## Main Statements

* `RepoPath.strip_join_of_normal`, `RepoPath.strip_join_of_ne` — what is taken from the front
* `RepoPath.toLocal_join_iff` — when an entry of proper names is kept under them

## Design Notes

A directory that leads back to the root of the repository has no names, so nothing has to be taken
from the front of an entry.
-/

namespace WorkflowInstall

open Path

namespace Path

/-- Names in front of climbing names climb. -/
theorem Climbing.front {front rest : List Text} (h : Climbing (front ++ rest)) :
    Climbing front := by
  obtain ⟨climbs, inside, whole, proper⟩ := h
  rcases List.append_eq_append_iff.mp whole with ⟨more, steps, -⟩ | ⟨more, rfl, same⟩
  · -- All names in front are steps up.
    have all : front = List.replicate front.length up :=
      List.eq_replicate_of_mem fun name mem =>
        List.eq_of_mem_replicate (steps ▸ List.mem_append_left more mem)
    exact ⟨front.length, [], by rwa [List.append_nil], fun _ mem => absurd mem List.not_mem_nil⟩
  · exact ⟨climbs, more, rfl, fun name mem => proper name (same ▸ List.mem_append_left rest mem)⟩

/-- Proper names after climbing names climb with them. -/
theorem Climbing.append {names more : List Text} (h : Climbing names)
    (proper : ∀ name ∈ more, IsProper name) : Climbing (names ++ more) := by
  obtain ⟨climbs, inside, rfl, others⟩ := h
  refine ⟨climbs, inside ++ more, List.append_assoc _ _ _, fun name mem => ?_⟩
  exact (List.mem_append.mp mem).elim (others name) (proper name)

/-- Proper names after a path are the last names of the whole. -/
theorem segments_append {front rest : Text} (some : front ≠ [])
    (proper : ∀ segment ∈ Text.splitOn '/' rest, IsProper segment) :
    segments (front ++ '/' :: rest) = segments front ++ Text.splitOn '/' rest := by
  rw [segments, segments, isRooted_ofText, isRooted_ofText, RepoPath.isAbsolute_append some,
    Text.splitOn_append_cons, resolve, resolve, List.foldl_append,
    foldl_push_of_isProper _ proper, List.reverse_append, List.reverse_reverse]

end Path

namespace RepoPath

/-! ## Entries of ordinary names -/

/-- What lies below a directory is stripped of it. -/
theorem strip_append {base : Text} (some : base ≠ []) (rest : Text) :
    strip base (base ++ '/' :: rest) = rest := by
  have same : base ++ '/' :: rest = base ++ ("/" : Text) ++ rest := by
    rw [List.append_assoc]
    rfl
  rw [strip, same, if_pos ⟨some, List.isPrefixOf_iff_prefix.mpr (List.prefix_append _ rest)⟩,
    List.drop_left]

section Entry

variable {base entry : Text} (ordinary : ∀ segment ∈ Text.splitOn '/' entry, IsProper segment)
include ordinary

/-- The names of an entry come after those of its directory. -/
theorem segments_fromRoot :
    segments (fromRoot base entry) = segments base ++ Text.splitOn '/' entry := by
  have canonical := isCanonical_of_isProper ordinary
  rw [fromRoot_of_relative canonical.relative]
  split
  case isTrue none =>
    rw [none]
    exact canonical.segments_eq
  case isFalse some => exact segments_append some ordinary

theorem climbing_entry : Climbing (segments base ++ Text.splitOn '/' entry) :=
  (climbing_segments base).append ordinary

theorem join_eq_spell_append :
    join base entry = spell .here (segments base ++ Text.splitOn '/' entry) := by
  rw [join_eq_spell, segments_fromRoot ordinary]

theorem splitOn_join :
    Text.splitOn '/' (join base entry) = segments base ++ Text.splitOn '/' entry := by
  have some : segments base ++ Text.splitOn '/' entry ≠ [] :=
    List.append_ne_nil_of_right_ne_nil _ (Text.splitOn_ne_nil '/' entry)
  rw [join_eq_spell_append ordinary, (climbing_entry ordinary).splitOn_spell some]

/-- The directory is taken from the front of an entry when it is spelled in its normal form. -/
theorem strip_join_of_normal (normal : segments base = Text.splitOn '/' base) :
    strip base (join base entry) = entry := by
  have some : base ≠ [] := by
    rintro rfl
    exact absurd normal (by decide)
  have whole : join base entry = base ++ '/' :: entry := by
    rw [← Text.joinWith_splitOn '/' (join base entry), splitOn_join ordinary, normal,
      ← Text.splitOn_append_cons, Text.joinWith_splitOn]
  rw [whole, strip_append some]

/-- Otherwise nothing is taken from the front. -/
theorem strip_join_of_ne (other : segments base ≠ Text.splitOn '/' base) :
    strip base (join base entry) = join base entry := by
  refine (strip_cases base (join base entry)).resolve_right ?_
  rintro ⟨-, whole⟩
  -- The segments of the directory would stand in front of climbing names.
  have pieces : Text.splitOn '/' (join base entry) = _ := splitOn_join ordinary
  have climbing : Climbing (segments base ++ Text.splitOn '/' entry) := climbing_entry ordinary
  rw [whole, Text.splitOn_append_cons] at pieces
  rw [← pieces] at climbing
  exact other (segments_of_climbing climbing.front)

theorem appendText_entry (target : LocalPath) :
    target.appendText entry =
      { target with names := target.names ++ Text.splitOn '/' entry } := by
  have canonical := isCanonical_of_isProper ordinary
  have plain : LocalPath.ofText entry = ⟨.here, Text.splitOn '/' entry⟩ := by
    rw [LocalPath.ofText, ofText_relative canonical.relative, List.filter_eq_self.mpr]
    intro segment mem
    simpa using ⟨(ordinary segment mem).ne_nil, (ordinary segment mem).ne_dot⟩
  rw [LocalPath.appendText, plain]
  rfl

/-- An entry is kept under its own names when its directory is spelled in normal form. -/
theorem toLocal_join_of_normal (normal : segments base = Text.splitOn '/' base)
    (target : LocalPath) :
    toLocal (join base entry) base target = .ok (target.appendText entry) := by
  have stripped := strip_join_of_normal ordinary normal
  have names : segments entry = Text.splitOn '/' entry :=
    (isCanonical_of_isProper ordinary).segments_eq
  rw [toLocal_of_isProper, stripped, names, appendText_entry ordinary]
  · rw [stripped, names]
    exact Text.splitOn_ne_nil '/' entry
  · rwa [stripped, names]

theorem segments_join_entry :
    segments (join base entry) = segments base ++ Text.splitOn '/' entry := by
  rw [join_eq_spell_append ordinary, segments_spell (climbing_entry ordinary)]

/-- Otherwise it is kept under the names that the directory leads through and its own. -/
theorem toLocal_join_of_ne (other : segments base ≠ Text.splitOn '/' base)
    (inside : up ∉ segments base) (target : LocalPath) :
    toLocal (join base entry) base target =
      .ok { target with names := target.names ++ (segments base ++ Text.splitOn '/' entry) } := by
  have stripped := strip_join_of_ne ordinary other
  have names : segments (join base entry) = _ := segments_join_entry ordinary
  rw [toLocal_of_isProper, stripped, names]
  · rw [stripped, names]
    exact List.append_ne_nil_of_right_ne_nil _ (Text.splitOn_ne_nil '/' entry)
  · rw [stripped, names]
    intro name mem
    rcases List.mem_append.mp mem with mem | mem
    · refine (climbing_segments base).isProper ?_ name mem
      rintro ⟨rest, climbs⟩
      exact inside (climbs ▸ List.mem_cons_self)
    · exact ordinary name mem

/-- An entry leaves the repository when its directory does. -/
theorem checkInside_join_iff :
    checkInside (join base entry) = .ok () ↔ up ∉ segments base := by
  rw [join_eq_spell_append ordinary, checkInside_spell_iff (climbing_entry ordinary),
    List.mem_append, not_or, and_iff_left (up_notMem ordinary)]

/-- An entry is kept under its own names just when its directory leads back to the root of the
repository or is spelled in normal form. -/
theorem toLocal_join_iff (target : LocalPath) :
    toLocal (join base entry) base target = .ok (target.appendText entry) ↔
      segments base = [] ∨ segments base = Text.splitOn '/' base := by
  by_cases normal : segments base = Text.splitOn '/' base
  · exact iff_of_true (toLocal_join_of_normal ordinary normal target) (.inr normal)
  · rw [or_iff_left normal]
    constructor
    · intro kept
      have names := (toLocal_segments kept).2.2
      rw [strip_join_of_ne ordinary normal, segments_join_entry ordinary,
        appendText_entry ordinary, LocalPath.mk.injEq, List.append_cancel_left_eq] at names
      exact List.self_eq_append_left.mp names.2
    · intro none
      rw [toLocal_join_of_ne ordinary normal (none ▸ List.not_mem_nil), none, List.nil_append,
        appendText_entry ordinary]

end Entry

end RepoPath

end WorkflowInstall

import WorkflowInstall.Proofs.Path.Containment

/-!
# Canonical paths of a repository

A path that is joined to a directory and does not leave the repository has one spelling: proper
names with single slashes between them. Only the root of the repository is spelled as a dot.

## Main Definitions

* `RepoPath.IsCanonical` — proper names with single slashes between them

## Main Statements

* `RepoPath.isCanonical_join` — a path inside the repository is canonical, or it is the root
* `RepoPath.ne_dot_of_toLocal` — the root of the repository is kept nowhere
-/

namespace WorkflowInstall.RepoPath

open Path

/-- A path is spelled as proper names with single slashes between them. -/
structure IsCanonical (path : Text) : Prop where
  ne_nil : path ≠ []
  relative : isAbsolute path = false
  proper : ∀ segment ∈ Text.splitOn '/' path, IsProper segment

theorem isCanonical_spell {names : List Text} (some : names ≠ [])
    (proper : ∀ name ∈ names, IsProper name) : IsCanonical (spell .here names) where
  ne_nil := spell_ne_nil .here names
  relative := by
    have plain : LocalPath.IsPlain ⟨.here, names⟩ := fun name mem =>
      ⟨(proper name mem).ne_nil, (proper name mem).ne_dot, (proper name mem).no_slash⟩
    exact LocalPath.isAbsolute_text plain
  proper segment mem := by
    rw [splitOn_spell_here some (fun name mem => (proper name mem).ne_nil) fun name mem =>
      (proper name mem).no_slash] at mem
    exact proper segment mem

theorem checkInside_eq_ok {path : Text} :
    checkInside path = .ok () ↔ ¬ (path = up ∨ Text.startsWith "../" path = true) := by
  unfold checkInside
  split
  case isTrue leaves => exact ⟨fun h => absurd h (by simp), fun h => absurd leaves h⟩
  case isFalse stays => exact ⟨fun _ => stays, fun _ => rfl⟩

/-- A path that was joined and does not leave the repository is canonical, or it is the root. -/
theorem isCanonical_join {base path : Text} (inside : checkInside (join base path) = .ok ())
    (some : join base path ≠ dot) : IsCanonical (join base path) := by
  rw [checkInside_eq_ok] at inside
  revert inside some
  unfold join
  dsimp only
  generalize same : Path.normalize _ = normal
  split
  case h_1 => exact fun _ some => absurd rfl some
  case h_2 left =>
    -- What is left of the normal path is neither empty nor a dot, and it does not climb.
    intro inside some
    rw [← same] at left inside some ⊢
    obtain ⟨full, proper, spelled⟩ := dropLeading_normalize (not_or.mpr ⟨left, some⟩) inside
    rw [spelled]
    exact isCanonical_spell full proper

/-- The root of the repository is no file, so it is kept nowhere. -/
theorem ne_dot_of_toLocal {path base : Text} {target file : LocalPath}
    (h : toLocal path base target = .ok file) : path ≠ dot := by
  rintro rfl
  have whole : ¬ (base ≠ [] ∧ Text.startsWith (base ++ ("/" : Text)) dot = true) := by
    rintro ⟨some, begins⟩
    have longer := (List.isPrefixOf_iff_prefix.mp begins).length_le
    have full : base.length ≠ 0 := fun none => some (List.length_eq_zero_iff.mp none)
    rw [List.length_append, show ("/" : Text).length = 1 from rfl,
      show dot.length = 1 from rfl] at longer
    omega
  rw [toLocal, if_neg whole, if_pos (Or.inr (by decide))] at h
  exact absurd h (by simp)

end WorkflowInstall.RepoPath

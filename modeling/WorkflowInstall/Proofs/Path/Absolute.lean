import WorkflowInstall.Proofs.Path.Segments

/-!
# Absolute spellings

The absolute spelling of a local path keeps the root that the path begins in, and within one root a
place has one spelling.

## Main Statements

* `LocalPath.absolute_text` — the absolute spelling of a local path
* `Path.spell_injective` — a place has one spelling from a root
-/

namespace WorkflowInstall

namespace Path

/-- Two places with one spelling are one. -/
theorem spell_injective {anchor : Anchor} (rooted : anchor.isRooted = true)
    {names others : List Text} (proper : ∀ name ∈ names, IsProper name)
    (proper' : ∀ name ∈ others, IsProper name) (h : spell anchor names = spell anchor others) :
    names = others := by
  rw [← names_spell_rooted rooted proper, h, names_spell_rooted rooted proper']

end Path

namespace LocalPath

open Path

theorem isAbsolute_joinWith {names : List Text} (plain : IsPlain ⟨.here, names⟩) :
    isAbsolute (Text.joinWith "/" names) = false := by
  cases names with
  | nil => rfl
  | cons name rest =>
    have full : ∀ other ∈ name :: rest, other ≠ [] := by
      intro other mem
      exact (plain other mem).1
    have relative := isAbsolute_text plain
    rwa [text, spell_here (List.cons_ne_nil name rest) full] at relative

/-- A local path is spelled so that it begins where it begins. -/
theorem anchor_text {path : LocalPath} (plain : path.IsPlain) :
    Anchor.ofText path.text = path.anchor := by
  obtain ⟨anchor, names⟩ := path
  have relative : isAbsolute (Text.joinWith "/" names) = false :=
    isAbsolute_joinWith fun name mem => plain name mem
  cases anchor with
  | here => exact ofText_relative (isAbsolute_text plain)
  | root =>
    rw [text, spell_rooted rfl]
    exact ofText_slash relative
  | doubleRoot =>
    rw [text, spell_rooted rfl]
    exact ofText_slash_slash relative

/-- The absolute spelling of a local path: its root and the names that it leads to. -/
theorem absolute_text {cwd : List Text} (proper : ∀ name ∈ cwd, IsProper name) {path : LocalPath}
    (plain : path.IsPlain) :
    absolute (spell .root cwd) path.text =
      spell path.anchor.rooted (absoluteNames (spell .root cwd) path.text) := by
  rw [absolute_eq proper, absoluteNames_eq proper, anchor_text plain]

end LocalPath

end WorkflowInstall

import Mathlib.Data.List.Induction
import WorkflowInstall.Proofs.Disk.Again
import WorkflowInstall.Proofs.Path.Ascent

/-!
# Where directories come to stand

To make the directory at a path, every directory on the way to it is made that is missing. A path
with steps up leads through places that its end does not show.

## Main Definitions

* `Disk.Wants` — a place on the way to a path to which nothing leads yet
* `Disk.IsNewDirectory` — a directory stands where none stood before

## Main Statements

* `Disk.IsTree.makeDirs_wants` — directories come to stand on the way to a path
* `Disk.Wants.below` — below a directory that is there, when the path does not climb out of it
-/

namespace WorkflowInstall

open Path

namespace Disk

/-- A place on the way to a path, given by a front of its names, to which nothing leads. -/
def Wants (disk : Disk) (path : LocalPath) (location : Location) : Prop :=
  ∃ front, front <+: path.names ∧ disk.pathExists (spell path.anchor front) = false ∧
    location = absoluteNames disk.here (spell path.anchor front)

/-- A directory stands at a place at which none stood before. -/
def IsNewDirectory (before after : Disk) (location : Location) : Prop :=
  after.node? location = some .directory ∧ before.node? location ≠ some .directory

variable {before middle after disk : Disk} {location : Location} {path : LocalPath}

/-- A new directory came to stand in one of two steps. -/
theorem IsNewDirectory.cases (h : before.IsNewDirectory after location) (middle : Disk) :
    before.IsNewDirectory middle location ∨ middle.IsNewDirectory after location := by
  by_cases there : middle.node? location = some .directory
  · exact .inl ⟨there, h.2⟩
  · exact .inr ⟨h.1, there⟩

/-- What is missing later was missing before. -/
theorem Wants.earlier (h : after.Wants path location) (grows : before.Grows after) :
    before.Wants path location := by
  obtain ⟨front, is_front, missing, rfl⟩ := h
  refine ⟨front, is_front, ?_, by rw [grows.here]⟩
  rw [← Bool.not_eq_true] at missing ⊢
  exact mt grows.pathExists missing

/-- What is wanted on a part of the way is wanted on the whole. -/
theorem Wants.longer {anchor : Anchor} {names rest : List Text}
    (h : disk.Wants ⟨anchor, names⟩ location) : disk.Wants ⟨anchor, names ++ rest⟩ location := by
  obtain ⟨front, is_front, missing, same⟩ := h
  exact ⟨front, is_front.trans (List.prefix_append names rest), missing, same⟩

theorem Wants.of_parent (h : disk.Wants path.parent location) : disk.Wants path location := by
  obtain ⟨front, is_front, missing, same⟩ := h
  exact ⟨front, is_front.trans (List.dropLast_prefix path.names), missing, same⟩

theorem IsTree.ensureDir_wants (tree : disk.IsTree) (plain : path.IsPlain)
    (new : disk.IsNewDirectory (disk.ensureDir path.text).2 location) :
    disk.Wants path location := by
  obtain ⟨there, absent⟩ := new
  rw [ensureDir_text plain] at there
  cases found : disk.find path.text with
  | error fault =>
    rw [found] at there
    exact absurd there absent
  | ok place =>
    cases place with
    | present other node =>
      rw [found] at there
      cases node <;> exact absurd there absent
    | vacant place slash =>
      rw [found] at there
      have free : disk.IsFree place := tree.holds_of_find found
      have at_place : location = place := Decidable.byContradiction fun apart => by
        rw [node?_put disk free.ne_nil, if_neg apart] at there
        exact absent there
      refine ⟨path.names, List.prefix_rfl, ?_, ?_⟩
      · unfold pathExists
        rw [← LocalPath.text, found]
      · rw [at_place]
        exact location_of_find tree.cwd_isProper found

/-- Directories come to stand on the way to the one that is made. -/
theorem IsTree.makeDirsFrom_wants (tree : disk.IsTree) {anchor : Anchor} {names : List Text}
    (plain : LocalPath.IsPlain ⟨anchor, names.reverse⟩)
    (new : disk.IsNewDirectory (makeDirsFrom anchor names disk).2 location) :
    disk.Wants ⟨anchor, names.reverse⟩ location := by
  -- By induction on the names from the last one: a directory is made for the last name, or for one
  -- of those before it.
  induction names with
  | nil => exact tree.ensureDir_wants plain new
  | cons name before ih =>
    have front := plain_before plain
    rcases makeDirsFrom_cases anchor name before disk with
      ⟨middle, ready, last⟩ | ⟨fault, after, -, -, made, stops⟩
    · rw [last] at new
      rcases new.cases middle with earlier | later
      · rw [List.reverse_cons]
        rcases ready.disk_eq with rfl | rfl
        · exact absurd earlier.1 earlier.2
        · exact (ih front earlier).longer
      · have further := ready.furthers tree front
        exact (further.tree.ensureDir_wants plain later).earlier further.grows
    · rw [stops, ← made] at new
      rw [List.reverse_cons]
      exact (ih front new).longer

theorem IsTree.makeDirs_wants (tree : disk.IsTree) (plain : path.IsPlain)
    (new : disk.IsNewDirectory (disk.makeDirs path).2 location) : disk.Wants path location := by
  obtain ⟨anchor, names⟩ := path
  have way : disk.Wants ⟨anchor, names.reverse.reverse⟩ location :=
    tree.makeDirsFrom_wants (by rwa [List.reverse_reverse]) new
  rwa [List.reverse_reverse] at way

theorem isDirectory_eq_true {path : Text} :
    disk.isDirectory path = true ↔
      ∃ location, disk.find path = .ok (.present location .directory) := by
  unfold isDirectory
  constructor
  · intro h
    split at h
    case h_1 location found => exact ⟨location, found⟩
    case h_2 => exact absurd h Bool.false_ne_true
  · rintro ⟨location, found⟩
    rw [found]

/-- All that leads to a directory that is there is there. -/
theorem isDirectory_front {anchor : Anchor} {front rest : List Text}
    (plain : LocalPath.IsPlain ⟨anchor, front ++ rest⟩)
    (there : disk.isDirectory (spell anchor (front ++ rest)) = true) :
    disk.isDirectory (spell anchor front) = true := by
  induction rest using List.reverseRecOn with
  | nil => rwa [List.append_nil] at there
  | append_singleton rest name ih =>
    rw [← List.append_assoc] at plain there
    obtain ⟨location, found⟩ := isDirectory_eq_true.mp there
    exact ih plain.front (isDirectory_eq_true.mpr (find_front plain found))

theorem isDirectory_parent (plain : path.IsPlain) (there : disk.isDirectory path.text = true) :
    disk.isDirectory path.parent.text = true := by
  obtain ⟨anchor, names⟩ := path
  obtain ⟨rest, whole⟩ : names.dropLast <+: names := List.dropLast_prefix names
  have front : LocalPath.IsPlain ⟨anchor, names.dropLast ++ rest⟩ := by rwa [whole]
  have reached : disk.isDirectory (spell anchor (names.dropLast ++ rest)) = true := by
    rw [whole]
    exact there
  exact isDirectory_front front reached

/-- What is wanted on the way to a path below a directory that is there lies below that directory,
when the path does not climb out of it. -/
theorem Wants.below {base : LocalPath} {names : List Text} (tree : disk.IsTree)
    (plain : LocalPath.IsPlain { base with names := base.names ++ names })
    (there : disk.isDirectory base.text = true)
    (inside : (RepoPath.walk? [] names).isSome = true)
    (wants : disk.Wants { base with names := base.names ++ names } location) :
    absoluteNames disk.here base.text <+: location := by
  obtain ⟨front, is_front, missing, rfl⟩ := wants
  obtain ⟨anchor, base⟩ := base
  have base_plain : LocalPath.IsPlain ⟨anchor, base⟩ := plain.front
  rcases List.prefix_or_prefix_of_prefix is_front (List.prefix_append base names) with
    ⟨rest, rfl⟩ | ⟨more, rfl⟩
  · obtain ⟨location, found⟩ := isDirectory_eq_true.mp (isDirectory_front base_plain there)
    have present := pathExists_eq_true.mpr ⟨location, _, found⟩
    exact absurd (missing.symm.trans present) Bool.false_ne_true
  · have way : more <+: names := (List.prefix_append_right_inj base).mp is_front
    have part : LocalPath.IsPlain ⟨anchor, base ++ more⟩ := by
      obtain ⟨rest, rfl⟩ := way
      have whole : LocalPath.IsPlain ⟨anchor, (base ++ more) ++ rest⟩ := by
        rwa [List.append_assoc]
      exact whole.front
    have at_base := LocalPath.absoluteNames_text tree.cwd_isProper base_plain
    have at_front := LocalPath.absoluteNames_text tree.cwd_isProper part
    show absoluteNames (spell .root disk.cwd) _ <+: absoluteNames (spell .root disk.cwd)
      (LocalPath.text ⟨anchor, base ++ more⟩)
    rw [at_base, at_front, List.foldl_append]
    exact RepoPath.prefix_foldl_advance way inside _

end Disk

end WorkflowInstall

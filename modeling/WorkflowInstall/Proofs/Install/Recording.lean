import WorkflowInstall.Proofs.Install.Keeping
import WorkflowInstall.Proofs.Staging.RollBack

/-!
# What an installation records

The journal of an installation tells all that the installation has done to the files.

## Main Definitions

* `Install.Recorded` — the journal of a world tells all that has happened to the files

## Main Statements

* `Install.Site.anchor_cases`, `Install.Site.anchor` — the root that a file is spelled from
* `Install.Step.recorded`, `Install.recorded_of_steps` — a step is recorded, and so is a row of them

## Design Notes

A journal knows files by their absolute spellings, and a place has two of them: one from each root.
All files of an installation are spelled from one root, because the name of a workflow holds no
slash and so does not begin in a root of its own.
-/

namespace WorkflowInstall

open Path Disk

variable {σ : Type}

/-! ## Names without slashes -/

theorem Text.slash_notMem_lastPiece (text : Text) : '/' ∉ Text.lastPiece '/' text := by
  rw [lastPiece, List.getLastD_eq_getLast?]
  cases last : (splitOn '/' text).getLast? with
  | none => exact List.not_mem_nil
  | some piece => exact slash_notMem_splitOn text piece (List.mem_of_getLast? last)

theorem LocalPath.slash_notMem_stem {path : LocalPath} (plain : path.IsPlain) :
    '/' ∉ path.stem := by
  have name : '/' ∉ path.name := by
    rw [LocalPath.name, List.getLastD_eq_getLast?]
    cases last : path.names.getLast? with
    | none => exact List.not_mem_nil
    | some name => exact (plain name (List.mem_of_getLast? last)).2.2
  rw [stem, stemOf]
  split
  · intro mem
    exact name (List.mem_of_mem_take mem)
  · exact name

theorem isAbsolute_of_slash_notMem {path : Text} (h : '/' ∉ path) : isAbsolute path = false := by
  cases path with
  | nil => rfl
  | cons c rest =>
    rw [isAbsolute_cons]
    exact beq_false_of_ne fun same => h (same ▸ List.mem_cons_self)

theorem LocalPath.anchor_append {path other : LocalPath} (h : other.anchor.isRooted = false) :
    (path.append other).anchor = path.anchor := by
  rw [append, if_neg (Bool.eq_false_iff.mp h)]

theorem LocalPath.anchor_appendText (path : LocalPath) {other : Text} (h : '/' ∉ other) :
    (path.appendText other).anchor = path.anchor := by
  refine anchor_append ?_
  rw [ofText, isRooted_ofText]
  exact isAbsolute_of_slash_notMem h

namespace Install

/-- Every file is spelled from the root of the target, but for a workflow whose name begins in a
root. -/
theorem Site.anchor_cases {target : LocalPath} {early : Bool} {world : World σ} {file : LocalPath}
    {disk : Disk} (site : Site target early world file disk) :
    file = target.appendText (world.spec.name ++ ".md") ∨ file.anchor = target.anchor := by
  cases site with
  | workflow fetched _ _ _ =>
    rw [fileFor]
    split
    · refine Or.inr (LocalPath.anchor_appendText target fun mem => ?_)
      rcases List.mem_append.mp mem with mem | mem
      · exact LocalPath.slash_notMem_stem (LocalPath.isPlain_ofText fetched.path) mem
      · exact absurd mem (by decide)
    · exact Or.inl rfl
  | importing _ _ _ _ _ => exact Or.inr rfl
  | @including path _ _ _ _ _ _ =>
    unfold Include.place
    dsimp only
    split
    · exact Or.inr (LocalPath.anchor_append rfl)
    split
    · rw [LocalPath.anchor_appendText _ (Text.slash_notMem_lastPiece _),
        LocalPath.anchor_appendText _ (by decide)]
      exact Or.inr rfl
    · exact Or.inr (LocalPath.anchor_append rfl)

/-- Every file is spelled from the root of the target. -/
theorem Site.anchor {target : LocalPath} {early : Bool} {world : World σ} {file : LocalPath}
    {disk : Disk} (name : '/' ∉ world.spec.name) (site : Site target early world file disk) :
    file.anchor = target.anchor := by
  rcases site.anchor_cases with rfl | same
  · refine LocalPath.anchor_appendText target fun mem => ?_
    exact (List.mem_append.mp mem).elim name (by decide)
  · exact same

/-- The journal of a world tells all that has happened to the files. -/
def Recorded (anchor : Anchor) (files : Location → Option Bytes) (world : World σ) : Prop :=
  ∃ journal, world.journal = some journal ∧ Staging.Covers anchor files world.disk journal

section Step

variable {target : LocalPath} (plain : target.IsPlain) {force early : Bool}
  {files : Location → Option Bytes} {before after : World σ}
include plain

/-- A step is recorded. -/
theorem Step.recorded (tree : before.disk.IsTree) (sees : early = true → before.disk.Sees target)
    (name : '/' ∉ before.spec.name) (step : Step target force early before after)
    (h : Recorded target.anchor.rooted files before) :
    '/' ∉ after.spec.name ∧ Recorded target.anchor.rooted files after := by
  obtain ⟨journal, known, covers⟩ := h
  cases step with
  | quiet quiet =>
    rw [quiet.name]
    refine ⟨name, journal, quiet.journal.trans known, ?_⟩
    rw [quiet.disk]
    exact covers
  | makeDirs plain =>
    exact ⟨name, journal, known, covers.congr (tree.makeDirs_furthers plain).files⟩
  | @write file disk location earlier content site seen written =>
    have further := site.furthers plain tree
    obtain ⟨place, is_open⟩ := further.tree.writable_eq_ok written
    have truth := site.truthful plain tree sees seen written
    have proper := further.tree.cwd_isProper
    have spelled : absolute disk.here file.text = spell target.anchor.rooted location := by
      rw [place, Disk.here, LocalPath.absolute_text proper (site.isPlain plain), site.anchor name]
    have names : ∀ name ∈ location, IsProper name := by
      rw [place]
      exact absoluteNames_isProper proper file.text
    have written : ∀ other, (disk.put location (.file content)).file? other =
        if other = location then some content else before.disk.file? other := by
      intro other
      rw [file?_put disk is_open.ne_nil, further.files]
    have here : (disk.put location (.file content)).here = disk.here := by
      rw [Disk.here, cwd_put, Disk.here]
    refine ⟨name, journal.note (spell target.anchor.rooted location) earlier, ?_, ?_⟩
    · show before.journal.map _ = _
      rw [known]
      show some (journal.note
        (absolute (disk.put location (.file content)).here file.text) earlier) = _
      rw [here, spelled]
    · -- What the journal notes is what was there, because the lookup told the truth.
      have covered := covers.note written target.anchor.isRooted_rooted tree names
      rw [truth] at covered
      exact covered

/-- A row of steps is recorded. -/
theorem recorded_of_steps (tree : before.disk.IsTree)
    (sees : early = true → before.disk.Sees target) (name : '/' ∉ before.spec.name)
    (steps : Relation.ReflTransGen (Step target force early) before after)
    (h : Recorded target.anchor.rooted files before) :
    '/' ∉ after.spec.name ∧ Recorded target.anchor.rooted files after := by
  induction steps with
  | refl => exact ⟨name, h⟩
  | tail steps step ih =>
    obtain ⟨middle_tree, grows⟩ := grows_of_steps plain tree steps
    exact step.recorded plain middle_tree (fun looks => grows.sees (sees looks)) ih.1 ih.2

end Step

end Install

end WorkflowInstall

import Mathlib.Data.List.Forall2
import WorkflowInstall.Proofs.Import.Downloads
import WorkflowInstall.Proofs.Path.Section
import WorkflowInstall.Proofs.Run.Alike

/-!
# The sections of imports

An entry may name a section of a file. What is installed does not depend on it, but for an `@` in
the section.

## Main Definitions

* `Import.SameFile` — two entries name the same file, whatever sections they name

## Main Statements

* `Import.SameFile.isPinned`, `Import.SameFile.target?` — such entries are looked at in the same way
* `Import.install_likens` — installing the same imports is the same but for the log
* `Import.fragments_ignored` — so it is with other sections, and no file is downloaded twice
* `Import.not_ignored` — an `@` in a section leaves its entry out

## Design Notes

Whether an entry is pinned is asked of the whole entry and not of its path, so an `@` in the section
makes it a pinned reference, and these are left out.
-/

namespace WorkflowInstall.Import

open Run

variable {σ : Type}

/-! ## Entries that name the same file -/

/-- Two entries have the same path, and unless this alone is a pinned reference, both or none of
them have an `@` in their section. -/
structure SameFile (entry other : Text) : Prop where
  path : (RepoPath.splitSection other).1 = (RepoPath.splitSection entry).1
  mark : RepoPath.isPinned (RepoPath.splitSection entry).1 = false →
    ('@' ∈ (RepoPath.splitSection other).2 ↔ '@' ∈ (RepoPath.splitSection entry).2)

theorem SameFile.isPinned {entry other : Text} (same : SameFile entry other) :
    RepoPath.isPinned other = RepoPath.isPinned entry := by
  rw [RepoPath.isPinned_eq, RepoPath.isPinned_eq entry, same.path]
  cases pinned : RepoPath.isPinned (RepoPath.splitSection entry).1 with
  | true => rw [Bool.or_true, Bool.or_true]
  | false =>
    rw [Bool.or_false, Bool.or_false, Bool.eq_iff_iff, List.contains_iff_mem,
      List.contains_iff_mem]
    exact same.mark pinned

/-- Entries that name the same file name the same path in every directory. -/
theorem SameFile.target? {entry other : Text} (same : SameFile entry other) (directory : Text) :
    target? directory other = target? directory entry := by
  unfold Import.target?
  rw [same.isPinned, same.path]

/-! ## Runs -/

section Resolve

variable (source : Source σ) (origin : Origin)

theorem write_likens (file : LocalPath) (isThere : Bool) (content : Bytes) :
    Likens (write file isThere content : Run σ (Option Bytes)) (write file isThere content) := by
  have rest (earlier : Option Bytes) := likens_bind (likens_makeDirs (σ := σ) file.parent)
    fun _ => likens_bind (likens_writeFile file.text content) fun _ => likens_pure earlier
  unfold write
  exact likens_ite _ (likens_bind (likens_map some (likens_ofDisk _)) rest)
    (likens_bind (likens_pure none) rest)

theorem writeOne_likens (path : Text) (file : LocalPath) :
    Likens (writeOne source origin path file) (writeOne source origin path file) := by
  have left_out (message : Text) := likens_bind (likens_log (σ := σ) .imports message message)
    fun _ => likens_pure (none : Option Bytes)
  unfold writeOne
  refine likens_bind (likens_ofDisk _) fun isThere => likens_ite _ (left_out _) ?_
  refine likens_bind (likens_attempt (likens_ask _ _)) fun outcome => ?_
  cases outcome with
  | error fault => exact likens_ite _ (left_out _) (likens_fail fault)
  | ok content =>
    refine likens_bind (likens_attempt (write_likens file isThere content)) fun outcome => ?_
    cases outcome with
    | error fault => exact likens_ite _ (left_out _) (likens_fail fault)
    | ok earlier =>
      exact likens_bind (likens_log _ _ _) fun _ => likens_bind (likens_noteWritten _ _) fun _ =>
        likens_pure (some content)

section Nested

variable {nested : Text → Text → Run σ Unit}
  (nested_likens : ∀ directory text, Likens (nested directory text) (nested directory text))
include nested_likens

/-- An entry is spelled out only in lines that are logged. -/
theorem installAt_likens (entry other path : Text) :
    Likens (installAt source origin nested entry path)
      (installAt source origin nested other path) := by
  unfold installAt
  cases RepoPath.checkInside path with
  | error refused => exact likens_log _ _ _
  | ok value =>
    refine likens_bind likens_visited fun visited => likens_ite _ (likens_pure ()) ?_
    refine likens_bind (likens_visit path) fun _ => likens_bind likens_cwd fun cwd => ?_
    cases place origin cwd path with
    | error refused => exact likens_log _ _ _
    | ok file =>
      refine likens_bind (writeOne_likens source origin path file) fun found => ?_
      cases found with
      | none => exact likens_pure ()
      | some content => exact nested_likens _ _

theorem installOne_likens {entry other : Text} (same : SameFile entry other) (directory : Text) :
    Likens (installOne source origin nested directory entry)
      (installOne source origin nested directory other) := by
  unfold installOne
  rw [same.isPinned, same.path]
  exact likens_ite _ (likens_pure ()) (installAt_likens source origin nested_likens entry other _)

/-- Rows of entries that name the same files are installed in the same way, entry by entry. -/
theorem installAll_likens {entries others : List Text} (same : List.Forall₂ SameFile entries others)
    (directory : Text) :
    Likens (installAll source origin nested directory entries)
      (installAll source origin nested directory others) := by
  induction same with
  | nil => exact likens_pure ()
  | cons first _ ih =>
    exact likens_bind (installOne_likens source origin nested_likens first directory) fun _ => ih

end Nested

/-- Installing the imports of one text reads nothing in the log, by induction on the depth. -/
theorem installFrom_likens_self (depth : Nat) (directory text : Text) :
    Likens (installFrom source origin depth directory text)
      (installFrom source origin depth directory text) := by
  induction depth generalizing directory text with
  | zero => exact likens_fail _
  | succ depth ih =>
    unfold installFrom
    cases listed text with
    | error fault => exact likens_fail fault
    | ok entries =>
      have same : List.Forall₂ SameFile entries entries :=
        List.forall₂_same.mpr fun _ _ => ⟨rfl, fun _ => .rfl⟩
      exact installAll_likens source origin ih same directory

/-- Two texts whose entries name the same files are installed in the same way. What a downloaded
file lists is the same for both, so no other entries differ. -/
theorem installFrom_likens {text other : Text} {entries others : List Text}
    (reads : listed text = .ok entries) (reads' : listed other = .ok others)
    (same : List.Forall₂ SameFile entries others) (depth : Nat) (directory : Text) :
    Likens (installFrom source origin depth directory text)
      (installFrom source origin depth directory other) := by
  cases depth with
  | zero => exact likens_fail _
  | succ depth =>
    unfold installFrom
    rw [reads, reads']
    exact installAll_likens source origin (installFrom_likens_self source origin depth) same _

end Resolve

section Install

variable (source : Source σ) {text other : Text} {entries others : List Text}
  (reads : listed text = .ok entries) (reads' : listed other = .ok others)
  (same : List.Forall₂ SameFile entries others) (target : LocalPath) (force : Bool) (depth : Nat)
include reads reads' same

/-- Installing the imports of two texts whose entries name the same files is the same but for the
log. -/
theorem install_likens :
    Likens (install source target force depth text) (install source target force depth other) := by
  unfold install
  refine likens_bind likens_spec fun spec => ?_
  cases WorkflowSpec.ownerAndRepo? spec.slug with
  | none => exact likens_pure ()
  | some names =>
    have goes_on := fun ref => installFrom_likens source
      ⟨names.1, names.2, ref, RepoPath.parent spec.path, target, force⟩ reads reads' same depth
      (RepoPath.parent spec.path)
    rw [reads, reads']
    cases same with
    | nil => exact likens_pure ()
    | cons => exact likens_bind (Workflow.pinRef_likens source) goes_on

/-- Two texts whose entries differ in their sections alone are installed in the same way when the
same entries have an `@` in their section: the run ends in the same way, and but for the log all
that is done, in its order, and all that is left is the same. No file is downloaded twice, for
however many of its sections it is listed. -/
theorem fragments_ignored (world : World σ) :
    let one := install source target force depth text world
    let two := install source target force depth other world
    two.1 = one.1 ∧ one.2.Alike two.2 ∧
      ∃ events, one.2.trace = events ++ world.trace ∧ (Event.downloads events).Nodup := by
  intro one two
  obtain ⟨ends, alike⟩ :=
    install_likens source reads reads' same target force depth world world (.refl world)
  obtain ⟨downloads, -, ⟨events, trace, asked⟩, once, -⟩ :=
    imports_downloads source target force depth text world
  refine ⟨ends, alike, events, trace, ?_⟩
  rw [asked]
  refine List.pairwise_map.mpr ((List.pairwise_map.mp once).imp fun differ same => differ ?_)
  exact (Query.file.inj same).2.2.1

end Install

theorem listed_of_toOption {text : Text} {entries : List Text}
    (h : (listed text).toOption = some entries) : listed text = .ok entries := by
  cases read : listed text with
  | ok found =>
    rw [read] at h
    exact congrArg Except.ok (Option.some.inj h)
  | error fault =>
    rw [read] at h
    exact absurd h (Option.some_ne_none entries).symm

/-- Sections are added, changed and taken away. -/
theorem fragments_ignored_sections :
    let world := World.fresh () ⟨[], []⟩ ⟨"o/r", [], "flows/ci.md", "ci"⟩
    let source := (Table.ofFiles "o/r" [("flows/a.md", [1]), ("flows/b.md", [2])]).source Unit
    let text : Text := "---\nimports: [a.md#x, b.md, a.md]\n---\n"
    let other : Text := "---\nimports: [a.md, b.md#y, a.md#z]\n---\n"
    let one := install source (LocalPath.ofText "d") false 3 text world
    let two := install source (LocalPath.ofText "d") false 3 other world
    two.1 = one.1 ∧ one.2.Alike two.2 ∧
      ∃ events, one.2.trace = events ++ world.trace ∧ (Event.downloads events).Nodup := by
  intro world source text other
  have reads : listed text = .ok ["a.md#x", "b.md", "a.md"] :=
    listed_of_toOption (by decide +kernel)
  have reads' : listed other = .ok ["a.md", "b.md#y", "a.md#z"] :=
    listed_of_toOption (by decide +kernel)
  have same : List.Forall₂ SameFile ["a.md#x", "b.md", "a.md"] ["a.md", "b.md#y", "a.md#z"] :=
    .cons ⟨by decide, by decide⟩ (.cons ⟨by decide, by decide⟩ (.cons ⟨by decide, by decide⟩ .nil))
  exact fragments_ignored source reads reads' same (LocalPath.ofText "d") false 3 world

/-- An `@` in its section leaves an entry out. -/
theorem not_ignored :
    let run (text : Text) := install ((Table.ofFiles "o/r" [("a.md", [1])]).source Unit)
      (LocalPath.ofText "t") false 3 text (World.fresh () ⟨[], []⟩ ⟨"o/r", [], "ci.md", "ci"⟩)
    let text : Text := "---\nimports: [a.md#x@y]\n---\n"
    let other : Text := "---\nimports: [a.md#x]\n---\n"
    entries text = ["a.md#x@y"] ∧ entries other = ["a.md#x"] ∧
      (RepoPath.splitSection "a.md#x@y").1 = (RepoPath.splitSection "a.md#x").1 ∧
      Event.downloads (run text).2.trace = [] ∧
      Event.downloads (run other).2.trace = [.file "o" "r" "a.md" "main"] ∧
      (run text).2.disk.file? ["t", "a.md"] = none ∧
      (run other).2.disk.file? ["t", "a.md"] = some [1] := by
  decide +kernel

end WorkflowInstall.Import

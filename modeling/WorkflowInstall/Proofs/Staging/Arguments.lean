import Mathlib.Data.List.Forall2
import Mathlib.Data.List.Nodup
import WorkflowInstall.Proofs.Install.Step
import WorkflowInstall.Proofs.Path.Relative
import WorkflowInstall.Staging

/-!
# What is staged

Staging runs git once, for all recorded files that are there, each given by the way to it from the
root of the repository. The ways lead back to the files. A file outside the repository is given too,
by a way that begins with a step up.

## Main Definitions

* `Event.gitRun?` — the run of git that an event is
* `Staging.IsInside` — a path at or below a directory
* `Staging.Climbs` — a way that begins with a step up
* `Staging.SharesRoot` — two paths that are spelled from one root

## Main Statements

* `Staging.stageAll_apply_snd` — what staging does
* `Staging.absolute_join_relative_eq_iff` — when a way leads back to the very same spelling
* `Staging.stageAll_arguments` — git is run for all files that are there
-/

namespace WorkflowInstall

/-- The run of git that an event is: the directory and the arguments. -/
def Event.gitRun? : Event → Option (Text × List Text)
  | .ranGit directory arguments => some (directory, arguments)
  | _ => none

namespace Staging

open Path Run

variable {σ : Type}

/-! ## Ways -/

/-- A path lies at or below a directory. -/
def IsInside (here directory path : Text) : Prop :=
  absoluteNames here directory <+: absoluteNames here path

instance (here directory path : Text) : Decidable (IsInside here directory path) :=
  inferInstanceAs (Decidable (_ <+: _))

/-- A way begins with a step up. -/
def Climbs (way : Text) : Prop := ∃ rest, Text.splitOn '/' way = up :: rest

/-- Two paths are spelled from one root. -/
def SharesRoot (directory path : Text) : Prop :=
  (Anchor.ofText directory).rooted = (Anchor.ofText path).rooted

instance (directory path : Text) : Decidable (SharesRoot directory path) :=
  inferInstanceAs (Decidable (_ = _))

/-- One place is spelled in two ways from two roots. -/
theorem spell_rooted_inj {anchor other : Anchor} (rooted : anchor.isRooted = true)
    (rooted' : other.isRooted = true) {names : List Text}
    (same : spell anchor names = spell other names) : anchor = other := by
  rw [spell_rooted rooted, spell_rooted rooted', List.append_cancel_right_eq] at same
  cases anchor <;> cases other <;> first | rfl | cases same

section

variable {cwd : List Text} (names : ∀ name ∈ cwd, IsProper name)
include names

/-- The way from a directory leads back to a path just when both are spelled from one root. -/
theorem absolute_join_relative_eq_iff (directory : Text) {path : Text}
    (rooted : isAbsolute path = true) (normal : normalize path = path) :
    absolute (spell .root cwd) (join directory (relative (spell .root cwd) path directory)) =
        path ↔ SharesRoot directory path := by
  have spelled :
      path = spell (Anchor.ofText path).rooted (absoluteNames (spell .root cwd) path) := by
    rw [absoluteNames_eq names, ← absolute_eq names, absolute, if_pos rooted, normal]
  rw [absolute_join_relative names, SharesRoot]
  constructor
  · intro back
    exact spell_rooted_inj (Anchor.isRooted_rooted _) (Anchor.isRooted_rooted _)
      (back.trans spelled)
  · intro shares
    rw [shares, ← spelled]

end

/-! ## Staging -/

/-- Running git to stage files changes nothing but the trace. -/
theorem gitAdd_apply_snd (directory : Text) (paths : List Text) (world : World σ) :
    (gitAdd directory paths world).2 =
      world.record (.ranGit directory ("add" :: "--" :: paths)) := by
  have ran {answer : Git → Except Int Text} (arguments : List Text) :
      (git directory arguments answer world).2 = world.record (.ranGit directory arguments) := by
    unfold git record
    simp only [bind_apply, alter_apply, look_apply]
    split
    · cases answer (world.record (.ranGit directory arguments)).git <;> rfl
    · rfl
  rw [gitAdd, bind_apply]
  cases result : git directory ("add" :: "--" :: paths) _ world with
  | mk outcome after =>
    have after_eq := (congrArg Prod.snd result).symm.trans (ran ("add" :: "--" :: paths))
    cases outcome <;> exact after_eq

/-- Staging does nothing at all when no recorded file is there. -/
theorem stageAll_of_nil {world : World σ} {journal : Journal}
    (journaled : world.journal = some journal) (none : stagedPaths world.disk journal = []) :
    stageAll world = (.ok (), world) := by
  unfold stageAll
  simp only [bind_apply, look_apply, journaled, none]
  rfl

/-- Staging logs a line and runs git when a recorded file is there. -/
theorem stageAll_apply_snd {world : World σ} {journal : Journal}
    (journaled : world.journal = some journal) (some : stagedPaths world.disk journal ≠ []) :
    ∃ message, (stageAll world).2 =
      (world.record (.logged .tracker message)).record
        (.ranGit journal.root ("add" :: "--" :: stagedPaths world.disk journal)) := by
  unfold stageAll
  rw [bind_apply, look_apply]
  dsimp only
  rw [journaled]
  dsimp only
  cases given : stagedPaths world.disk journal with
  | nil => exact absurd given some
  | cons path paths => exact ⟨_, gitAdd_apply_snd _ _ _⟩

section

variable {disk : Disk} {journal : Journal}

/-- The files inside the repository are the only ones that are given just when there are no others:
a file outside is not left out. -/
theorem stagedPaths_eq_inside_iff :
    let there := journal.paths.filter fun path => disk.pathExists path
    stagedPaths disk journal = (there.filter fun path => IsInside disk.here journal.root path).map
        (fun path => relative disk.here path journal.root) ↔
      ∀ path ∈ there, IsInside disk.here journal.root path := by
  intro there
  constructor
  · intro same
    have lengths := congrArg List.length same
    rw [stagedPaths, List.length_map, List.length_map] at lengths
    simpa using List.length_filter_eq_length_iff.mp lengths.symm
  · intro inside
    rw [stagedPaths, List.filter_eq_self.mpr fun path mem => decide_eq_true (inside path mem)]

/-- The ways that are given lead from the root back to the files, by the same spellings when all are
spelled from one root. -/
theorem stagedPaths_map_join (tree : disk.IsTree)
    (normal : ∀ path ∈ journal.paths, isAbsolute path = true ∧ normalize path = path) :
    let there := journal.paths.filter fun path => disk.pathExists path
    (∀ path ∈ there, SharesRoot journal.root path) →
      (stagedPaths disk journal).map (fun way => absolute disk.here (join journal.root way)) =
        there := by
  intro there shares
  rw [stagedPaths, List.map_map]
  refine (List.map_congr_left fun path mem => ?_).trans (List.map_id there)
  obtain ⟨rooted, same⟩ := normal path (List.mem_filter.mp mem).1
  exact (absolute_join_relative_eq_iff tree.cwd_isProper journal.root rooted same).mpr
    (shares path mem)

end

/-- Staging runs git once, in the root of the repository, for all recorded files that are there, and
changes nothing but the trace; it does nothing when no such file is there. The arguments stand for
the files in the order in which they were recorded, one for each: going the way from the root leads
to the file, by the same spelling when both are spelled from one root. A way begins with a step up
just when its file lies outside the repository, so the files of the repository are the only ones
that are given just when there are no others. -/
theorem stageAll_arguments {world : World σ} (tree : world.disk.IsTree) {journal : Journal}
    (journaled : world.journal = some journal)
    (normal : ∀ path ∈ journal.paths, isAbsolute path = true ∧ normalize path = path) :
    let here := world.disk.here
    let there := journal.paths.filter fun path => world.disk.pathExists path
    let arguments := stagedPaths world.disk journal
    (there = [] → stageAll world = (.ok (), world)) ∧
      (there ≠ [] → ∃ lines, (∀ line ∈ lines, ∃ message, line = .logged .tracker message) ∧
        (stageAll world).2 = { world with
          trace := .ranGit journal.root ("add" :: "--" :: arguments) :: (lines ++ world.trace) }) ∧
      List.Forall₂ (fun path argument =>
        (absolute here (join journal.root argument) = path ↔ SharesRoot journal.root path) ∧
          absoluteNames here (join journal.root argument) = absoluteNames here path ∧
          (Climbs argument ↔ ¬ IsInside here journal.root path)) there arguments ∧
      ((∀ path ∈ there, SharesRoot journal.root path) →
        arguments.map (fun argument => absolute here (join journal.root argument)) = there ∧
          (journal.paths.Nodup → arguments.Nodup)) ∧
      (arguments = (there.filter fun path => IsInside here journal.root path).map
          (fun path => relative here path journal.root) ↔
        ∀ path ∈ there, IsInside here journal.root path) := by
  intro here there arguments
  refine ⟨fun none => ?_, fun some => ?_, ?_, fun shares => ?_, stagedPaths_eq_inside_iff⟩
  · exact stageAll_of_nil journaled (List.map_eq_nil_iff.mpr none)
  · have given : arguments ≠ [] := fun none => some (List.map_eq_nil_iff.mp none)
    obtain ⟨message, after⟩ := stageAll_apply_snd journaled given
    rw [after]
    cases verbose : world.verbose with
    | true =>
      exact ⟨[.logged .tracker message], by simp, by simp [World.record, verbose, arguments]⟩
    | false => exact ⟨[], by simp, by simp [World.record, verbose, arguments]⟩
  · refine List.forall₂_map_right_iff.mpr (List.forall₂_same.mpr fun path mem => ?_)
    obtain ⟨rooted, same⟩ := normal path (List.mem_filter.mp mem).1
    exact ⟨absolute_join_relative_eq_iff tree.cwd_isProper journal.root rooted same,
      absoluteNames_join_relative tree.cwd_isProper path journal.root,
      relative_climbs_iff tree.cwd_isProper path journal.root⟩
  · have back := stagedPaths_map_join tree normal shares
    exact ⟨back, fun nodup => List.Nodup.of_map _ (back ▸ nodup.filter _)⟩

/-- A file of the repository is given by its name in it. -/
theorem stageAll_arguments_inside :
    let disk : Disk := ⟨[], [(["t"], .directory), (["t", "b.md"], .file [1])]⟩
    let journal : Journal := (Journal.empty "/t").noteCreated "/t/b.md"
    let world : World Unit :=
      { World.fresh () disk ⟨[], [], "ci.md", "ci"⟩ with journal := some journal }
    let arguments := stagedPaths disk journal
    disk.IsTree ∧ (∀ path ∈ journal.paths, isAbsolute path = true ∧ normalize path = path) ∧
      arguments = ["b.md"] ∧
      arguments.map (fun argument => absolute disk.here (join "/t" argument)) = ["/t/b.md"] ∧
      ∃ lines, (stageAll world).2.trace = .ranGit "/t" ["add", "--", "b.md"] :: lines := by
  intro disk journal world arguments
  have tree : disk.IsTree := Disk.isTree_of_entries (by decide) (by decide)
  have normal : ∀ path ∈ journal.paths, isAbsolute path = true ∧ normalize path = path := by
    decide
  obtain ⟨-, ran, -, back, -⟩ := stageAll_arguments (show world.disk.IsTree from tree) rfl normal
  obtain ⟨lines, -, after⟩ := ran (by decide)
  exact ⟨tree, normal, by decide, (back (by decide)).1, lines ++ [], congrArg World.trace after⟩

/-- The files of the repository are not the only ones that are given: an include that is written
beside the target directory, and so outside the repository, is given too, by a way that goes up. -/
theorem not_only_inside :
    let source : Source Unit :=
      (Table.ofFiles "o/r" [(".github/shared/a.md", [1]), ("b.md", [2])]).source Unit
    let disk : Disk := ⟨[], [(["t"], .directory)]⟩
    let world : World Unit :=
      { World.fresh () disk ⟨"o/r", [], "ci.md", "ci"⟩ with journal := some (.empty "/t") }
    let written := (Include.install source (LocalPath.ofText "t") false Install.usualDepth
      "@include shared/a.md\n@include b.md\n" world).2
    (stageAll written).2.trace.filterMap Event.gitRun? =
        ([("/t", ["add", "--", "../shared/a.md", "b.md"])] : List (Text × List Text)) ∧
      written.journal.map Journal.paths = some (["/shared/a.md", "/t/b.md"] : List Text) ∧
      ¬ IsInside "/" "/t" "/shared/a.md" := by
  decide +kernel

end Staging

end WorkflowInstall

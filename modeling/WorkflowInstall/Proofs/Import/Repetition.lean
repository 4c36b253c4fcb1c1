import WorkflowInstall.Proofs.Import.Writing
import WorkflowInstall.Proofs.Workflow.Repetition

/-!
# Installing imports again

When imports are written over the files that are there, they are installed in the same way again,
but for one fault: a name that is too long is only noticed in a directory that is there.

## Main Definitions

* `Import.TooLong` — the fault that says so

## Main Statements

* `Import.Written.of_forced` — how a file ends when files are written over
* `Import.writeOne_repeats` — one import is installed again
* `Import.install_repeats` — imports are installed again, by induction on the depth

## Design Notes

Before an import is downloaded its place is looked up. In the first run the directory may be
missing; then nothing is there, the import is downloaded, the directory is made, and the write that
fails is logged. In the second run the directory is there, the lookup fails, and that ends the run.
-/

namespace WorkflowInstall.Import

open Run

variable {σ : Type}

/-- A fault that says that the place of an import below the target is too long. -/
def TooLong (target : LocalPath) (fault : Fault) : Prop :=
  ∃ path base file, RepoPath.toLocal path base target = .ok file ∧
    fault = .disk (.refused .nameTooLong file.text)

section One

variable {source : Source σ} (fixed : source.IsFixed) {alike : Prop} {origin : Origin}

theorem grows_of_written {path : Text} {file : LocalPath} (plain : file.IsPlain) {world : World σ}
    (tree : world.disk.IsTree) :
    (writeOne source origin path file world).2.disk.IsTree ∧
      world.disk.Grows (writeOne source origin path file world).2.disk := by
  have further := tree.prepare_furthers plain
  have disk : (askFile source origin.owner origin.repo path origin.ref world).2.disk = world.disk :=
    (quiet_ask _ _ world).disk
  have handled := writeOne_written source origin path file world plain
  generalize (writeOne source origin path file world).1 = outcome at handled
  generalize (writeOne source origin path file world).2 = after at handled ⊢
  cases handled with
  | unseen => exact ⟨tree, .refl world.disk⟩
  | skipped _ _ rests =>
    rw [rests.disk]
    exact ⟨tree, .refl world.disk⟩
  | unanswered _ _ _ _ rests =>
    rw [rests.disk, disk]
    exact ⟨tree, .refl world.disk⟩
  | unready _ _ _ ready _ rests =>
    rw [ready] at further
    rw [rests.disk]
    exact ⟨further.tree, further.grows⟩
  | @saved _ content location made _ _ _ _ ready rests =>
    obtain ⟨further, written⟩ := tree.prepare_eq_ok plain ready
    have is_open := (further.tree.writable_eq_ok written).2
    rw [rests.disk]
    exact ⟨further.tree.put is_open _, further.grows.trans (is_open.grows content)⟩

/-- When files are written over, the place of a file turns out to be too long, or the answer of the
source and what comes of making the file ready decide how it ends. -/
theorem Written.of_forced {path : Text} {file : LocalPath} {world after : World σ}
    {outcome : Except Fault (Option Bytes)} (forced : origin.force = true)
    (written : Written source origin path file world outcome after) :
    let asked := askFile source origin.owner origin.repo path origin.ref world
    let too_long : DiskFault := .refused .nameTooLong file.text
    (world.disk.probe file.text = .error too_long ∧ outcome = .error (.disk too_long) ∧
        after = world) ∨
      (∃ isThere, world.disk.probe file.text = .ok isThere) ∧
        match asked.1, world.disk.prepare file with
        | .error fault, _ =>
          outcome = (if fault.isLookupFailure then .ok none else .error fault) ∧
            asked.2.Rests after
        | .ok _, (.error fault, made) =>
          outcome = (if (Fault.disk fault).isStorage then .ok none else .error (.disk fault)) ∧
            World.Rests { asked.2 with disk := made } after
        | .ok content, (.ok location, made) =>
          outcome = .ok (some content) ∧ (asked.2.wrote made location content).Rests after := by
  dsimp only
  cases written with
  | unseen probed =>
    obtain ⟨rfl, -⟩ := Disk.probe_eq_error probed
    exact .inl ⟨probed, rfl, rfl⟩
  | skipped keeps => exact absurd (keeps.symm.trans forced) Bool.false_ne_true
  | unanswered probed _ answer ends rests =>
    rw [answer]
    exact .inr ⟨⟨_, probed⟩, ends, rests⟩
  | unready probed _ answer ready ends rests =>
    rw [answer, ready]
    exact .inr ⟨⟨_, probed⟩, ends, rests⟩
  | saved probed _ answer ready rests =>
    rw [answer, ready]
    exact .inr ⟨⟨_, probed⟩, rfl, rests⟩

include fixed

/-- One import is downloaded and written again, unless its place turns out to be too long. -/
theorem writeOne_repeats (forced : origin.force = true) (path : Text) {file : LocalPath}
    (plain : file.IsPlain) {excused : Fault → Prop}
    (excuse : excused (.disk (.refused .nameTooLong file.text))) :
    Repeats alike excused (writeOne source origin path file) where
  grows world tree := grows_of_written plain tree
  again {replay first second} echoes grows := by
    have asked : (askFile source origin.owner origin.repo path origin.ref first).2.Echoes replay
        alike (askFile source origin.owner origin.repo path origin.ref second).2 := echoes.ask _ _
    have same : (askFile source origin.owner origin.repo path origin.ref second).1 =
        (askFile source origin.owner origin.repo path origin.ref first).1 :=
      fixed.file _ _ _ _ _ _ _ _
    have disk (world : World σ) :
        (askFile source origin.owner origin.repo path origin.ref world).2.disk = world.disk :=
      (quiet_ask _ _ world).disk
    have handled := writeOne_written source origin path file first plain
    have again := (writeOne_written source origin path file second plain).of_forced forced
    dsimp only at again
    rw [same] at again
    generalize (writeOne source origin path file first).1 = outcome at handled ⊢
    generalize (writeOne source origin path file first).2 = after at handled grows ⊢
    generalize (writeOne source origin path file second).1 = other at again ⊢
    generalize (writeOne source origin path file second).2 = later at again ⊢
    -- The first run ends in one of the five ways. The second one ends in the same way, or its place
    -- turns out to be too long.
    cases handled with
    | unseen probed =>
      obtain ⟨rfl, refuses⟩ := Disk.probe_eq_error probed
      rcases again with ⟨-, rfl, rfl⟩ | ⟨⟨_, seen⟩, -⟩
      · exact .inr ⟨rfl, echoes⟩
      · exact absurd ((grows.refuses refuses).probe.symm.trans seen) (by simp)
    | skipped keeps => exact absurd (keeps.symm.trans forced) Bool.false_ne_true
    | unanswered _ _ answer ends rests =>
      rw [answer] at again
      rcases again with ⟨-, rfl, -⟩ | ⟨-, ends', rests'⟩
      · exact .inl ⟨_, rfl, excuse⟩
      · exact .inr ⟨ends'.trans ends.symm, asked.rests rests rests'⟩
    | unready _ _ answer ready ends rests =>
      rw [← disk first] at ready
      rw [rests.disk, ← disk second] at grows
      obtain ⟨ready_again, asked⟩ := asked.unprepared plain ready grows
      rw [disk second] at ready_again
      rw [answer, ready_again, ← disk second] at again
      rcases again with ⟨-, rfl, -⟩ | ⟨-, ends', rests'⟩
      · exact .inl ⟨_, rfl, excuse⟩
      · exact .inr ⟨ends'.trans ends.symm, asked.rests rests rests'⟩
    | saved _ _ answer ready rests =>
      rw [← disk first] at ready
      rw [rests.disk, ← disk second] at grows
      obtain ⟨ready_again, asked⟩ := asked.prepared plain ready grows
      rw [disk second] at ready_again asked
      rw [answer, ready_again] at again
      rcases again with ⟨-, rfl, -⟩ | ⟨-, ends', rests'⟩
      · exact .inl ⟨_, rfl, excuse⟩
      · exact .inr ⟨ends', asked.rests rests rests'⟩

section Nested

variable (forced : origin.force = true) (plain : origin.target.IsPlain) (same : alike)
  {nested : Text → Text → Run σ Unit}
  (nested_repeats : ∀ directory text,
    Repeats alike (TooLong origin.target) (nested directory text))
include forced plain same nested_repeats

theorem installAt_repeats (entry path : Text) :
    Repeats alike (TooLong origin.target) (installAt source origin nested entry path) := by
  unfold installAt
  split
  · exact repeats_log _ _
  · refine repeats_bind (repeats_visited same) fun visited => ?_
    split
    · exact repeats_pure ()
    · refine repeats_bind (repeats_visit path) fun _ => repeats_bind repeats_cwd fun here => ?_
      split
      · exact repeats_log _ _
      case h_2 file placed =>
        obtain ⟨names, -, proper, spelled, -⟩ := place_eq_ok placed
        have file_plain : file.IsPlain := by
          rw [spelled]
          exact plain.appendNames proper
        have excuse : TooLong origin.target (.disk (.refused .nameTooLong file.text)) :=
          ⟨path, origin.base, file, (place_kept placed).1, rfl⟩
        refine repeats_bind (writeOne_repeats fixed forced path file_plain excuse) fun found => ?_
        cases found with
        | none => exact repeats_pure ()
        | some content => exact nested_repeats _ _

theorem installAll_repeats (directory : Text) (entries : List Text) :
    Repeats alike (TooLong origin.target) (installAll source origin nested directory entries) := by
  induction entries with
  | nil => exact repeats_pure ()
  | cons entry rest ih =>
    refine repeats_bind ?_ fun _ => ih
    rw [installOne]
    split
    · exact repeats_pure ()
    · exact installAt_repeats fixed forced plain same nested_repeats entry _

end Nested

theorem installFrom_repeats (forced : origin.force = true) (plain : origin.target.IsPlain)
    (same : alike) (depth : Nat) (directory text : Text) :
    Repeats alike (TooLong origin.target) (installFrom source origin depth directory text) := by
  induction depth generalizing directory text with
  | zero => exact repeats_fail _
  | succ depth ih =>
    unfold installFrom
    split
    · exact repeats_fail _
    · exact installAll_repeats fixed forced plain same ih directory _

end One

/-- Imports are installed in the same way again, unless the place of one of them turns out to be too
long. -/
theorem install_repeats {source : Source σ} (fixed : source.IsFixed) {alike : Prop}
    {target : LocalPath} (plain : target.IsPlain) (same : alike) (depth : Nat) (text : Text) :
    Repeats alike (TooLong target) (install source target true depth text) := by
  unfold install
  refine repeats_bind repeats_spec fun spec => ?_
  cases WorkflowSpec.ownerAndRepo? spec.slug with
  | none => exact repeats_pure ()
  | some names =>
    obtain ⟨owner, repo⟩ := names
    dsimp only
    split
    · exact repeats_fail _
    · exact repeats_pure ()
    · refine repeats_bind (Workflow.pinRef_repeats fixed) fun ref => ?_
      let origin : Origin := ⟨owner, repo, ref, RepoPath.parent spec.path, target, true⟩
      have repeated : Repeats alike (TooLong origin.target)
          (installFrom source origin depth origin.base text) :=
        installFrom_repeats fixed rfl plain same depth origin.base text
      exact repeated

end WorkflowInstall.Import

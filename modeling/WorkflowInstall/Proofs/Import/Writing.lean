import WorkflowInstall.Proofs.Import.Closure

/-!
# What becomes of one import

The file at a path is looked up, asked for and written, and each of these can go wrong. All that is
said about imports and the file system goes back to the five ways in which this can end.

## Main Definitions

* `Import.Written` — the ways in which the file at a path can end
* `Import.Along` — a relation between worlds that holds along installing imports

## Main Statements

* `Import.Stored.unready_of_error` — an import that cannot be written cannot be made ready
* `Import.writeOne_written` — the file at a path ends in one of these ways
* `Import.Along.of_installFrom` — what holds of each path holds of all, by induction on the depth
-/

namespace WorkflowInstall.Import

open Run

variable {σ : Type}

/-- An import that cannot be written cannot be made ready: what was read there before does not
matter. -/
theorem Stored.unready_of_error {force : Bool} {file : LocalPath} (plain : file.IsPlain)
    {content : Bytes} {world after : World σ} {fault : Fault}
    (stored : Stored force file content world (.error fault) after) :
    ∃ problem made, fault = .disk problem ∧ world.disk.prepare file = (.error problem, made) ∧
      after = { world with disk := made } := by
  cases stored with
  | @unread problem there unread =>
    have there := Disk.pathExists_of_probe there
    obtain ⟨_, _, found⟩ := Disk.pathExists_eq_true.mp there
    have ready := Disk.prepare_of_present plain found
    rcases Disk.read_writable_of_pathExists there with
      ⟨_, _, readable, -⟩ | ⟨other, refused, unwritable⟩
    · exact absurd (unread.symm.trans readable) (by simp)
    · cases unread.symm.trans refused
      rw [unwritable] at ready
      exact ⟨problem, world.disk, rfl, ready, rfl⟩
  | unready ready => exact ⟨_, _, rfl, ready, rfl⟩

section One

variable (source : Source σ) (origin : Origin) (path : Text) (file : LocalPath) (world : World σ)

/-- What becomes of the file at a path: its outcome, and the world afterwards. -/
inductive Written : Except Fault (Option Bytes) → World σ → Prop
  /-- Its place cannot be looked up. -/
  | unseen {fault : DiskFault} (probed : world.disk.probe file.text = .error fault) :
      Written (.error (.disk fault)) world
  /-- Something is at its place, and is kept. -/
  | skipped {after : World σ} (keeps : origin.force = false)
      (there : world.disk.probe file.text = .ok true) (rests : world.Rests after) :
      Written (.ok none) after
  /-- The source has nothing for it. -/
  | unanswered {isThere : Bool} {fault : Fault} {outcome : Except Fault (Option Bytes)}
      {after : World σ}
      (probed : world.disk.probe file.text = .ok isThere)
      (allowed : origin.force = false → isThere = false)
      (answer : (askFile source origin.owner origin.repo path origin.ref world).1 = .error fault)
      (ends : outcome = if fault.isLookupFailure then .ok none else .error fault)
      (rests : (askFile source origin.owner origin.repo path origin.ref world).2.Rests after) :
      Written outcome after
  /-- It was downloaded, but it cannot be made ready. -/
  | unready {isThere : Bool} {content : Bytes} {fault : DiskFault} {made : Disk}
      {outcome : Except Fault (Option Bytes)} {after : World σ}
      (probed : world.disk.probe file.text = .ok isThere)
      (allowed : origin.force = false → isThere = false)
      (answer : (askFile source origin.owner origin.repo path origin.ref world).1 = .ok content)
      (ready : world.disk.prepare file = (.error fault, made))
      (ends : outcome = if (Fault.disk fault).isStorage then .ok none else .error (.disk fault))
      (rests : World.Rests { (askFile source origin.owner origin.repo path origin.ref world).2 with
        disk := made } after) :
      Written outcome after
  /-- It was downloaded and written. -/
  | saved {isThere : Bool} {content : Bytes} {location : Location} {made : Disk} {after : World σ}
      (probed : world.disk.probe file.text = .ok isThere)
      (allowed : origin.force = false → isThere = false)
      (answer : (askFile source origin.owner origin.repo path origin.ref world).1 = .ok content)
      (ready : world.disk.prepare file = (.ok location, made))
      (rests : ((askFile source origin.owner origin.repo path origin.ref world).2.wrote made
        location content).Rests after) :
      Written (.ok (some content)) after

/-- The file at a path ends in one of these ways. -/
theorem writeOne_written (plain : file.IsPlain) :
    Written source origin path file world (writeOne source origin path file world).1
      (writeOne source origin path file world).2 := by
  have ended := writeOne_ended source origin path file world
  have same : (askFile source origin.owner origin.repo path origin.ref world).2.disk = world.disk :=
    (quiet_ask _ _ world).disk
  generalize (writeOne source origin path file world).1 = outcome at ended ⊢
  generalize (writeOne source origin path file world).2 = after at ended ⊢
  cases ended with
  | unseen probed => exact .unseen probed
  | skipped keeps there logs => exact .skipped keeps there logs.rests
  | unanswered probed allowed answer ends logs =>
    exact .unanswered probed allowed answer ends logs.rests
  | unwritten probed allowed answer stored ends logs =>
    obtain ⟨fault, made, rfl, ready, rfl⟩ := stored.unready_of_error plain
    exact .unready probed allowed answer (same ▸ ready) ends logs.rests
  | saved probed allowed answer stored =>
    cases stored with
    | saved _ ready =>
      exact .saved probed allowed answer (same ▸ ready) ((World.Rests.log _ _).noted _ _)

end One

/-! ## All imports -/

/-- A relation between worlds that holds when a path is left alone, refused or handled, and of runs
in a row. -/
structure Along (source : Source σ) (origin : Origin) (relation : World σ → World σ → Prop) :
    Prop where
  tree : ∀ {before after}, relation before after → after.disk.IsTree
  rests : ∀ {before after : World σ}, before.disk.IsTree → before.Rests after →
    relation before after
  trans : ∀ {before middle after}, relation before middle → relation middle after →
    relation before after
  refused : ∀ {path problem} {before after : World σ}, before.disk.IsTree →
    place origin before.disk.here path = .error problem → (visit path before).2.Rests after →
    relation before after
  handled : ∀ {path file found} {before after : World σ}, before.disk.IsTree →
    place origin before.disk.here path = .ok file →
    Returns (writeOne source origin path file) (visit path before).2 found after →
    relation before after

namespace Along

variable {source : Source σ} {origin : Origin} {relation : World σ → World σ → Prop}
  (along : Along source origin relation)
include along

section Nested

variable {nested : Text → Text → Run σ Unit}
  (nested_along : ∀ {directory text before after}, before.disk.IsTree →
    Returns (nested directory text) before () after → relation before after)
include nested_along

theorem of_installAt {entry path : Text} {world after : World σ} (tree : world.disk.IsTree)
    (h : Returns (installAt source origin nested entry path) world () after) :
    relation world after := by
  unfold installAt at h
  split at h
  · exact along.rests tree (World.Rests.of_log h)
  · rw [returns_visited_bind] at h
    split at h
    · obtain ⟨-, rfl⟩ := returns_pure.mp h
      exact along.rests tree (.refl world)
    · obtain ⟨_, now, visits, h⟩ := returns_bind.mp h
      cases visits
      rw [returns_cwd_bind] at h
      split at h
      case h_1 refused placed => exact along.refused tree placed (World.Rests.of_log h)
      case h_2 file placed =>
        obtain ⟨found, middle, handled, h⟩ := returns_bind.mp h
        have first := along.handled tree placed handled
        cases found with
        | none =>
          obtain ⟨-, rfl⟩ := returns_pure.mp h
          exact first
        | some content => exact along.trans first (nested_along (along.tree first) h)

theorem of_installAll {directory : Text} {entries : List Text} {world after : World σ}
    (tree : world.disk.IsTree)
    (h : Returns (installAll source origin nested directory entries) world () after) :
    relation world after := by
  induction entries generalizing world with
  | nil =>
    obtain ⟨-, rfl⟩ := returns_pure.mp h
    exact along.rests tree (.refl world)
  | cons entry rest ih =>
    obtain ⟨_, middle, one, h⟩ := returns_bind.mp h
    have first : relation world middle := by
      unfold installOne at one
      dsimp only at one
      split at one
      · obtain ⟨-, rfl⟩ := returns_pure.mp one
        exact along.rests tree (.refl world)
      · exact along.of_installAt nested_along tree one
    exact along.trans first (ih (along.tree first) h)

end Nested

/-- Such a relation holds along installing imports without a fault, by induction on the depth. -/
theorem of_installFrom (depth : Nat) {directory text : Text} {world after : World σ}
    (tree : world.disk.IsTree)
    (h : Returns (installFrom source origin depth directory text) world () after) :
    relation world after := by
  induction depth generalizing directory text world after with
  | zero => exact absurd h not_returns_fail
  | succ depth ih =>
    unfold installFrom at h
    split at h
    · exact absurd h not_returns_fail
    · exact along.of_installAll ih tree h

end Along

end WorkflowInstall.Import

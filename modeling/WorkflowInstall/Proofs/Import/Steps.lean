import WorkflowInstall.Proofs.Install.Step
import WorkflowInstall.Proofs.Run.Fixed

/-!
# The steps of installing imports

Installing the imports of a text, and those of the files that it imports, is a row of steps.

## Main Definitions

* `Import.Leads` — a relation between worlds along which imports are installed
* `Import.Stored` — the ways in which writing a downloaded import can end
* `Import.Ended` — the ways in which handling the file at a path can end

## Main Statements

* `Import.Leads.installFrom` — along such a relation leads the whole run, by induction on the depth
* `Import.place_eq_ok` — an import is kept under proper names below the target
* `Import.writeOne_ended` — handling the file at a path ends in one of these ways
* `Import.install_steps` — installing imports is a row of steps, however it ends
-/

namespace WorkflowInstall.Import

open Run Install

variable {σ : Type} (source : Source σ) {origin : Origin}

/-! ## Along a relation -/

/-- Along a relation between worlds leads all that is done when imports are installed. -/
structure Leads (source : Source σ) (origin : Origin) (relation : World σ → World σ → Prop) :
    Prop where
  log : ∀ (message : Text) (world : World σ), relation world (log .imports message world).2
  visit : ∀ (path : Text) (world : World σ), relation world (visit path world).2
  write : ∀ {path : Text} {file : LocalPath} {world : World σ},
    place origin world.disk.here path = .ok file →
    Within relation (writeOne source origin path file) world

namespace Leads

variable {source : Source σ} {relation : World σ → World σ → Prop}
  (leads : Leads source origin relation)
include leads

section Nested

variable {nested : Text → Text → Run σ Unit}
  (nested_leads : ∀ directory text world, Within relation (nested directory text) world)
include nested_leads

theorem installAt (entry path : Text) (world : World σ) :
    Within relation (installAt source origin nested entry path) world := by
  unfold Import.installAt
  split
  · exact within_single (leads.log _ _)
  · refine within_visited_bind ?_
    split
    · exact within_pure ()
    · refine within_bind (within_single (leads.visit _ _)) fun _ after _ => within_cwd_bind ?_
      split
      · exact within_single (leads.log _ _)
      case h_2 file placed =>
        refine within_bind (leads.write placed) fun found last _ => ?_
        cases found with
        | none => exact within_pure ()
        | some content => exact nested_leads _ _ last

theorem installAll (directory : Text) (entries : List Text) (world : World σ) :
    Within relation (installAll source origin nested directory entries) world := by
  induction entries generalizing world with
  | nil => exact within_pure ()
  | cons entry rest ih =>
    refine within_bind ?_ fun _ after _ => ih after
    rw [installOne]
    split
    · exact within_pure ()
    · exact leads.installAt nested_leads entry _ world

end Nested

/-- Installing imports leads along such a relation, by induction on the depth. -/
theorem installFrom (depth : Nat) (directory text : Text) (world : World σ) :
    Within relation (installFrom source origin depth directory text) world := by
  induction depth generalizing directory text world with
  | zero => exact within_fail _
  | succ depth ih =>
    unfold Import.installFrom
    split
    · exact within_fail _
    · exact leads.installAll ih directory _ world

end Leads

/-! ## Steps -/

theorem place_kept {cwd path : Text} {file : LocalPath} (h : place origin cwd path = .ok file) :
    RepoPath.toLocal path origin.base origin.target = .ok file ∧
      Path.checkContained cwd origin.target.text file.text = .ok () := by
  unfold place at h
  cases kept : RepoPath.toLocal path origin.base origin.target with
  | error refused => rw [kept] at h; exact absurd h (by simp [bind, Except.bind])
  | ok found =>
    rw [kept] at h
    cases contained : Path.checkContained cwd origin.target.text found.text with
    | error refused =>
      simp only [bind, Except.bind, contained] at h
      exact absurd h (by simp)
    | ok value =>
      simp only [bind, Except.bind, contained] at h
      cases h
      exact ⟨rfl, contained⟩

theorem place_eq_ok {origin : Origin} {cwd path : Text} {file : LocalPath}
    (h : place origin cwd path = .ok file) :
    ∃ names, names ≠ [] ∧ (∀ name ∈ names, Path.IsProper name) ∧
      file = { origin.target with names := origin.target.names ++ names } ∧
      Path.checkContained cwd origin.target.text file.text = .ok () := by
  obtain ⟨kept, contained⟩ := place_kept h
  obtain ⟨names, some, proper, spelled⟩ := RepoPath.toLocal_eq_ok kept
  exact ⟨names, some, proper, spelled, contained⟩

theorem isPlain_of_place {origin : Origin} (plain : origin.target.IsPlain) {cwd path : Text}
    {file : LocalPath} (h : place origin cwd path = .ok file) : file.IsPlain := by
  obtain ⟨names, -, proper, rfl, -⟩ := place_eq_ok h
  exact plain.appendNames proper

/-! ## What becomes of one import -/

/-- The ways in which writing a downloaded import can end: the outcome, and the world afterwards. -/
inductive Stored (force : Bool) (file : LocalPath) (content : Bytes) (world : World σ) :
    Except Fault (Option Bytes) → World σ → Prop
  /-- What is there cannot be read. -/
  | unread {fault : DiskFault} (there : world.disk.probe file.text = .ok true)
      (unread : world.disk.read file.text = .error fault) :
      Stored force file content world (.error (.disk fault)) world
  /-- Its file cannot be made ready. -/
  | unready {fault : DiskFault} {made : Disk}
      (ready : world.disk.prepare file = (.error fault, made)) :
      Stored force file content world (.error (.disk fault)) { world with disk := made }
  /-- It is written, and not recorded yet. -/
  | saved {location : Location} {made : Disk} {earlier : Option Bytes}
      (seen : Seen force world.disk file.text earlier)
      (ready : world.disk.prepare file = (.ok location, made)) :
      Stored force file content world (.ok earlier) (world.wrote made location content)

/-- Writing a downloaded import ends in one of these ways. -/
theorem write_stored {force isThere : Bool} {file : LocalPath} (content : Bytes) {world : World σ}
    (probed : world.disk.probe file.text = .ok isThere) (allowed : ¬ (isThere && !force) = true) :
    Stored force file content world (write file isThere content world).1
      (write file isThere content world).2 := by
  have stored {earlier : Option Bytes} (seen : Seen force world.disk file.text earlier) :
      let run : Run σ (Option Bytes) := do
        Run.makeDirs file.parent
        Run.writeFile file.text content
        pure earlier
      Stored force file content world (run world).1 (run world).2 := by
    intro run
    rw [show run world = _ from makeDirs_writeFile_bind_apply file content (fun _ => pure _) world]
    cases ready : world.disk.prepare file with
    | mk outcome made =>
      cases outcome with
      | ok location => exact .saved seen ready
      | error fault => exact .unready ready
  cases isThere with
  | false => exact stored (.absent probed)
  | true =>
    have forced : force = true := by simpa using allowed
    rw [write, if_pos rfl, readFile]
    dsimp only
    rw [map_ofDisk_bind_apply]
    cases read : world.disk.read file.text with
    | error fault => exact .unread probed read
    | ok old => exact stored (.present forced probed read)

section One

variable (source : Source σ) (origin : Origin) (path : Text) (file : LocalPath) (world : World σ)

/-- The ways in which handling the file at a path can end: the outcome, and the world afterwards. -/
inductive Ended : Except Fault (Option Bytes) → World σ → Prop
  /-- Its place cannot be looked up. -/
  | unseen {fault : DiskFault} (probed : world.disk.probe file.text = .error fault) :
      Ended (.error (.disk fault)) world
  /-- Something is at its place, and is kept. -/
  | skipped {after : World σ} (keeps : origin.force = false)
      (there : world.disk.probe file.text = .ok true) (logs : world.Logged after) :
      Ended (.ok none) after
  /-- The source has nothing for it. -/
  | unanswered {isThere : Bool} {fault : Fault} {outcome : Except Fault (Option Bytes)}
      {after : World σ} (probed : world.disk.probe file.text = .ok isThere)
      (allowed : origin.force = false → isThere = false)
      (answer : (askFile source origin.owner origin.repo path origin.ref world).1 = .error fault)
      (ends : outcome = if fault.isLookupFailure then .ok none else .error fault)
      (logs : (askFile source origin.owner origin.repo path origin.ref world).2.Logged after) :
      Ended outcome after
  /-- It was downloaded, and cannot be written. -/
  | unwritten {isThere : Bool} {content : Bytes} {fault : Fault} {middle : World σ}
      {outcome : Except Fault (Option Bytes)} {after : World σ}
      (probed : world.disk.probe file.text = .ok isThere)
      (allowed : origin.force = false → isThere = false)
      (answer : (askFile source origin.owner origin.repo path origin.ref world).1 = .ok content)
      (stored : Stored origin.force file content
        (askFile source origin.owner origin.repo path origin.ref world).2 (.error fault) middle)
      (ends : outcome = if fault.isStorage then .ok none else .error fault)
      (logs : middle.Logged after) :
      Ended outcome after
  /-- It was downloaded, written and recorded. -/
  | saved {isThere : Bool} {content : Bytes} {earlier : Option Bytes} {middle : World σ}
      (probed : world.disk.probe file.text = .ok isThere)
      (allowed : origin.force = false → isThere = false)
      (answer : (askFile source origin.owner origin.repo path origin.ref world).1 = .ok content)
      (stored : Stored origin.force file content
        (askFile source origin.owner origin.repo path origin.ref world).2 (.ok earlier) middle) :
      Ended (.ok (some content))
        ((middle.record (.logged .imports ("Fetched import: " ++ file.text))).noted file.text
          earlier)

/-- Handling the file at a path ends in one of these ways. -/
theorem writeOne_ended :
    Ended source origin path file world (writeOne source origin path file world).1
      (writeOne source origin path file world).2 := by
  rw [writeOne, bind_apply, probe, ofDisk]
  cases probed : world.disk.probe file.text with
  | error fault => exact .unseen probed
  | ok isThere =>
    dsimp only
    split
    case isTrue skips =>
      rw [Bool.and_eq_true, Bool.not_eq_true'] at skips
      exact .skipped skips.2 (probed.trans (congrArg Except.ok skips.1)) (.inr ⟨_, _, rfl⟩)
    case isFalse writes =>
      have allowed : origin.force = false → isThere = false := by
        intro keeps
        simpa [keeps] using writes
      rw [bind_apply, attempt_apply]
      dsimp only
      cases answer : (askFile source origin.owner origin.repo path origin.ref world).1 with
      | error fault =>
        dsimp only
        split
        case isTrue passed =>
          exact .unanswered probed allowed answer (if_pos passed).symm (.inr ⟨_, _, rfl⟩)
        case isFalse fatal =>
          exact .unanswered probed allowed answer (if_neg fatal).symm (.inl rfl)
      | ok content =>
        -- The download has changed no file, so what was looked up before it still holds.
        have same : (askFile source origin.owner origin.repo path origin.ref world).2.disk =
            world.disk := (quiet_ask _ _ world).disk
        have stored := write_stored content (same ▸ probed) writes
        dsimp only
        rw [bind_apply, attempt_apply]
        dsimp only
        cases result : write file isThere content
            (askFile source origin.owner origin.repo path origin.ref world).2 with
        | mk outcome middle =>
          rw [result] at stored
          cases outcome with
          | error fault =>
            dsimp only
            split
            case isTrue passed =>
              exact .unwritten probed allowed answer stored (if_pos passed).symm
                (.inr ⟨_, _, rfl⟩)
            case isFalse fatal =>
              exact .unwritten probed allowed answer stored (if_neg fatal).symm (.inl rfl)
          | ok earlier =>
            dsimp only
            rw [log_noteWritten_bind]
            exact .saved probed allowed answer stored

end One

section Resolve

variable {origin : Origin} (plain : origin.target.IsPlain)
include plain

theorem writeOne_steps {file : LocalPath} {names : List Text} (some : names ≠ [])
    (proper : ∀ name ∈ names, Path.IsProper name)
    (spelled : file = { origin.target with names := origin.target.names ++ names })
    {world : World σ}
    (contained : Path.checkContained world.disk.here origin.target.text file.text = .ok ())
    (path : Text) :
    Within (Step origin.target origin.force true) (writeOne source origin path file) world := by
  have file_plain : file.IsPlain := by
    rw [spelled]
    exact plain.appendNames proper
  have quiet : world.Quiet (askFile source origin.owner origin.repo path origin.ref world).2 :=
    quiet_ask _ _ world
  have asks : Relation.ReflTransGen (Step origin.target origin.force true) world
      (askFile source origin.owner origin.repo path origin.ref world).2 := .single (.quiet quiet)
  have ended := writeOne_ended source origin path file world
  rw [Within]
  generalize (writeOne source origin path file world).1 = outcome at ended
  generalize (writeOne source origin path file world).2 = after at ended ⊢
  cases ended with
  | unseen => exact .refl
  | skipped _ _ logs => exact .single (.quiet logs.quiet)
  | unanswered _ _ _ _ logs => exact asks.tail (.quiet logs.quiet)
  | unwritten _ _ _ stored _ logs =>
    refine (asks.trans ?_).tail (.quiet logs.quiet)
    cases stored with
    | unread => exact .refl
    | unready ready =>
      have steps : Within (Step origin.target origin.force true) (makeDirs file.parent)
          (askFile source origin.owner origin.repo path origin.ref world).2 :=
        within_makeDirs file_plain.parent
      rwa [Within, makeDirs_snd, ← Disk.prepare_snd, ready] at steps
  | saved _ _ _ stored =>
    cases stored with
    | saved seen ready =>
      obtain ⟨made, written⟩ := Disk.made_of_prepare ready
      rw [← quiet.disk] at contained
      subst spelled
      have site : Site origin.target true _ _ _ := .importing rfl some proper contained made
      exact asks.trans (write_logged_noted site seen written _ _)

/-- Along the steps of an installation leads all that is done when imports are installed. -/
theorem leads_steps : Leads source origin (Step origin.target origin.force true) where
  log _ _ := .quiet (quiet_log _ _ _)
  visit _ _ := .quiet (quiet_visit _ _)
  write placed := by
    obtain ⟨names, some, proper, spelled, contained⟩ := place_eq_ok placed
    exact writeOne_steps source plain some proper spelled contained _

end Resolve

/-- Installing imports is a row of steps. -/
theorem install_steps {target : LocalPath} (plain : target.IsPlain) (force : Bool) (depth : Nat)
    (text : Text) (world : World σ) :
    Within (Step target force true) (install source target force depth text) world := by
  unfold install
  refine within_spec_bind ?_
  split
  · exact within_pure _
  case h_2 owner repo _ =>
    -- The imports are read before the version is pinned, so a text that cannot be read pins none.
    split
    · exact within_fail _
    · exact within_pure _
    · refine within_bind (within_quiet (Workflow.pinRef_quiet source world)) fun ref pinned _ => ?_
      let origin : Origin := ⟨owner, repo, ref, RepoPath.parent world.spec.path, target, force⟩
      have leads : Leads source origin (Step target force true) := leads_steps source plain
      exact leads.installFrom depth origin.base text pinned

end WorkflowInstall.Import

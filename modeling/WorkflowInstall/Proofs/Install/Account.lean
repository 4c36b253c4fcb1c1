import WorkflowInstall.Proofs.Import.Placing
import WorkflowInstall.Proofs.Include.Placing
import WorkflowInstall.Proofs.Install.Repetition

/-!
# An account of an installation

The events of an installation come in three rows: those until the workflow is written, those of its
includes, and those of its imports.

## Main Definitions

* `Install.Includes`, `Install.Imports` — what events tell of the includes and the imports of a
  workflow, which are installed if they are wanted

## Main Statements

* `Install.dependencies_account` — what the events of installing both tell
* `Install.addRecorded_account` — what the events of an installation tell

## Design Notes

A row may be empty, because nothing of its kind is wanted or because the installation ends before.
An account of no events holds of every workflow, so it is said apart which workflow it is.
-/

namespace WorkflowInstall.Install

open Run Path

variable {σ : Type}

section Account

variable (source : Source σ) (options : InstallOptions) (spec : WorkflowSpec) (here text : Text)
  (tour : List Visit) (events : List Event)

/-- What the events tell of installing the includes that the text of a workflow asks for. -/
structure Includes : Prop where
  account : Include.Account source options.target spec here text tour events
  wanted : tour ≠ [] → options.includes = true

/-- What the events tell of installing the imports that the text of a workflow asks for, in the
repository of the workflow. -/
structure Imports : Prop where
  account : ∃ owner repo ref,
    Import.Account source
        ⟨owner, repo, ref, RepoPath.parent spec.path, options.target, options.force⟩ here text tour
        events ∧
      (tour ≠ [] → WorkflowSpec.ownerAndRepo? spec.slug = some (owner, repo))
  wanted : tour ≠ [] → options.imports = true

theorem Includes.nil : Includes source options spec here text [] [] :=
  ⟨WorkflowInstall.Account.nil, fun some => absurd rfl some⟩

theorem Imports.nil : Imports source options spec here text [] [] :=
  ⟨⟨[], [], [], WorkflowInstall.Account.nil, fun some => absurd rfl some⟩,
    fun some => absurd rfl some⟩

end Account

/-! ## What a workflow asks for -/

section Dependencies

variable (source : Source σ) (options : InstallOptions) (text : Text) {world : World σ}
  (proper : ∀ name ∈ world.disk.cwd, IsProper name)
include proper

/-- What the events tell of installing imports if they are wanted. -/
theorem imports_account :
    let run : Run σ Unit :=
      if options.imports then forgetVisited >>= fun _ =>
        Import.install source options.target options.force options.depth text
      else pure ()
    ∃ tour events, Imports source options world.spec world.disk.here text tour events ∧
      (run world).2.trace = events ++ world.trace := by
  intro run
  by_cases wanted : options.imports = true
  · have goes_on : run world = Import.install source options.target options.force options.depth text
        (forgetVisited world).2 := by
      rw [show run = _ from if_pos wanted]
      rfl
    rw [goes_on]
    cases slug : WorkflowSpec.ownerAndRepo? (forgetVisited world).2.spec.slug with
    | none =>
      rw [Import.install_of_no_repository source slug]
      exact ⟨[], [], .nil .., rfl⟩
    | some names =>
      obtain ⟨owner, repo⟩ := names
      have forgetful : ∀ name ∈ (forgetVisited world).2.disk.cwd, IsProper name := proper
      obtain ⟨tour, events, account, trace, -⟩ := Import.install_account source options.target
        options.force options.depth text forgetful slug
      exact ⟨tour, events, ⟨⟨owner, repo, _, account, fun _ => slug⟩, fun _ => wanted⟩, trace⟩
  · rw [show run = pure () from if_neg wanted]
    exact ⟨[], [], .nil .., rfl⟩

/-- What the events tell of installing includes and imports: those of the includes come first. -/
theorem addDependencies_account :
    ∃ tour included others imported,
      Includes source options world.spec world.disk.here text tour included ∧
      Imports source options world.spec world.disk.here text others imported ∧
      (addDependencies source options text world).2.trace =
        imported ++ included ++ world.trace := by
  unfold addDependencies
  dsimp only
  split
  case isTrue wanted =>
    rw [bind_of_ok (show (forgetVisited world).1 = .ok () from rfl)]
    have forgetful : ∀ name ∈ (forgetVisited world).2.disk.cwd, IsProper name := proper
    obtain ⟨tour, included, account, trace, spec, cwd, -⟩ := Include.install_account source
      options.target options.force options.depth text forgetful
    have includes : Includes source options world.spec world.disk.here text tour included :=
      ⟨account, fun _ => wanted⟩
    cases result : (Include.install source options.target options.force options.depth text
        (forgetVisited world).2).1 with
    | error fault =>
      rw [bind_of_error result]
      exact ⟨tour, included, [], [], includes, .nil .., trace⟩
    | ok value =>
      rw [bind_of_ok result]
      obtain ⟨others, imported, imports, trace'⟩ := imports_account source options text
        (cwd ▸ forgetful)
      rw [spec, Disk.here, cwd] at imports
      refine ⟨tour, included, others, imported, includes, imports, ?_⟩
      rw [trace', trace, List.append_assoc]
      rfl
  case isFalse =>
    obtain ⟨others, imported, imports, trace⟩ := imports_account source options text proper
    exact ⟨[], [], others, imported, .nil .., imports, by rw [trace, List.append_nil]⟩

/-- What the events tell of installing what a fetched workflow asks for: nothing is done for a local
one. -/
theorem dependencies_account (fetched : FetchedWorkflow) :
    ∃ tour included others imported,
      Includes source options world.spec world.disk.here fetched.text tour included ∧
      Imports source options world.spec world.disk.here fetched.text others imported ∧
      (imported ++ included ≠ [] → fetched.isLocal = false) ∧
      (dependencies source options fetched world).2.trace =
        imported ++ included ++ world.trace := by
  unfold dependencies
  cases is_local : fetched.isLocal with
  | true => exact ⟨[], [], [], [], .nil .., .nil .., fun some => absurd rfl some, rfl⟩
  | false =>
    obtain ⟨tour, included, others, imported, includes, imports, trace⟩ :=
      addDependencies_account source options fetched.text proper
    exact ⟨tour, included, others, imported, includes, imports, fun _ => rfl, trace⟩

end Dependencies

/-! ## The installation -/

/-- When a workflow was written, nothing else was written. -/
theorem events_of_writeWorkflow {options : InstallOptions} {file : LocalPath} {content : Bytes}
    {world after : World σ} (proper : ∀ name ∈ world.disk.cwd, IsProper name)
    (returns : Returns (writeWorkflow options file content) world () after) :
    ∃ events, after.trace = events ++ world.trace ∧ after.disk.cwd = world.disk.cwd ∧
      after.spec = world.spec ∧
      Event.writes events = [(absoluteNames world.disk.here file.text, content)] := by
  obtain ⟨-, earlier, disk, location, -, made, written, logs⟩ := returns_writeWorkflow.mp returns
  have rests := World.Rests.of_log logs
  obtain ⟨events, trace, traffic⟩ := rests.trace
  have cwd : disk.cwd = world.disk.cwd := Disk.cwd_of_makeDirs made
  have stays : after.disk.cwd = world.disk.cwd :=
    rests.cwd.trans ((Disk.cwd_put disk location (.file content)).trans cwd)
  refine ⟨events ++ [.wrote location (disk.file? location) content], ?_, stays, rests.spec, ?_⟩
  · rw [trace, List.append_assoc]
    rfl
  · have place : location = absoluteNames world.disk.here file.text := by
      rw [Disk.location_of_writable (cwd ▸ proper) written, Disk.here, cwd]
      rfl
    rw [Event.writes_append, Event.writes_of_isTraffic traffic, ← place]
    rfl

/-- Whatever is written until a workflow is written lies in the target. -/
theorem writeWorkflow_writes (options : InstallOptions) (file : LocalPath) (content : Bytes)
    {world : World σ} (proper : ∀ name ∈ world.disk.cwd, IsProper name) :
    let after := (writeWorkflow options file content world).2
    ∃ events, after.trace = events ++ world.trace ∧ after.disk.cwd = world.disk.cwd ∧
      after.spec = world.spec ∧ ∀ write ∈ Event.writes events,
        checkContained world.disk.here options.target.text file.text = .ok () ∧
          write.1 = absoluteNames world.disk.here file.text := by
  intro after
  cases result : writeWorkflow options file content world with
  | mk outcome last =>
    have ends : after = last := congrArg Prod.snd result
    rw [ends]
    cases outcome with
    | error fault =>
      have idle := idle_of_writeWorkflow_error (congrArg Prod.fst result)
      rw [result] at idle
      obtain ⟨events, trace, traffic⟩ := idle.trace
      refine ⟨events, trace, idle.cwd, idle.spec, fun write mem => ?_⟩
      rw [Event.writes_of_isTraffic traffic] at mem
      exact absurd mem List.not_mem_nil
    | ok value =>
      obtain ⟨contained, -⟩ := returns_writeWorkflow.mp result
      obtain ⟨events, trace, cwd, spec, writes⟩ := events_of_writeWorkflow proper result
      refine ⟨events, trace, cwd, spec, fun write mem => ⟨contained, ?_⟩⟩
      rw [writes, List.mem_singleton] at mem
      exact congrArg Prod.fst mem

/-- What the events of an installation tell: whatever is written first lies in the target, and what
is done then is done for the workflow that was fetched from a repository. -/
theorem addRecorded_account (source : Source σ) (options : InstallOptions) {world : World σ}
    (proper : ∀ name ∈ world.disk.cwd, IsProper name) :
    ∃ first tour included others imported spec text,
      (addRecorded source options world).2.trace =
        imported ++ included ++ first ++ world.trace ∧
      (∀ write ∈ Event.writes first, ∃ file : LocalPath,
        checkContained world.disk.here options.target.text file.text = .ok () ∧
          write.1 = absoluteNames world.disk.here file.text) ∧
      Includes source options spec world.disk.here text tour included ∧
      Imports source options spec world.disk.here text others imported ∧
      (imported ++ included ≠ [] → ∃ fetched found,
        Returns (Workflow.fetch source) world fetched found ∧ fetched.isLocal = false ∧
          spec = (located fetched found).spec ∧ text = fetched.text) := by
  have quiet := Workflow.fetch_quiet source world
  cases fetches : Workflow.fetch source world with
  | mk outcome found =>
    rw [fetches] at quiet
    obtain ⟨before, asked, untouched⟩ := quiet.trace
    have unwritten := Event.writes_of_isQuiet untouched
    cases outcome with
    | error fault =>
      rw [addRecorded_of_error options (congrArg Prod.fst fetches), fetches]
      refine ⟨before, [], [], [], [], world.spec, [], asked, fun write mem => ?_, .nil .., .nil ..,
        fun some => absurd rfl some⟩
      rw [unwritten] at mem
      exact absurd mem List.not_mem_nil
    | ok fetched =>
      rw [addRecorded_apply fetches]
      dsimp only
      have disk : (located fetched found).disk = world.disk :=
        (disk_located fetched found).trans quiet.disk
      have start := (trace_located fetched found).trans asked
      generalize file_eq : fileFor options.target (located fetched found).spec fetched = file
      obtain ⟨events, trace, cwd, spec, inside⟩ :=
        writeWorkflow_writes options file fetched.content (disk ▸ proper)
      rw [disk] at cwd inside
      -- Fetching writes nothing, so what is written first is what is written for the workflow.
      have first : ∀ write ∈ Event.writes (events ++ before), ∃ file : LocalPath,
          checkContained world.disk.here options.target.text file.text = .ok () ∧
            write.1 = absoluteNames world.disk.here file.text := by
        intro write mem
        rw [Event.writes_append, unwritten, List.append_nil] at mem
        exact ⟨file, inside write mem⟩
      cases result : (writeWorkflow options file fetched.content (located fetched found)).1 with
      | error fault =>
        rw [bind_of_error result]
        refine ⟨events ++ before, [], [], [], [], world.spec, [], ?_, first, .nil .., .nil ..,
          fun some => absurd rfl some⟩
        rw [trace, start, ← List.append_assoc]
        rfl
      | ok value =>
        rw [bind_of_ok result, summary_snd]
        obtain ⟨tour, included, others, imported, includes, imports, remote, trace'⟩ :=
          dependencies_account source options (cwd ▸ proper) fetched
        rw [spec, Disk.here, cwd] at includes imports
        refine ⟨events ++ before, tour, included, others, imported, _, fetched.text, ?_, first,
          includes, imports, fun some => ⟨fetched, found, fetches, remote some, rfl, rfl⟩⟩
        rw [trace', trace, start, ← List.append_assoc events, ← List.append_assoc]

end WorkflowInstall.Install

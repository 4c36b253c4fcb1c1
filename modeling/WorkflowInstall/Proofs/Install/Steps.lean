import WorkflowInstall.Proofs.Import.Steps
import WorkflowInstall.Proofs.Include.Steps

/-!
# The steps of an installation

Installing a workflow with its includes and imports is a row of steps, wherever it breaks off.

## Main Definitions

* `Install.begun` — the world in which an installation begins

## Main Statements

* `Install.writeWorkflow_steps` — writing the workflow is a row of steps
* `Install.addRecorded_steps`, `Install.add_steps` — an installation is a row of steps
-/

namespace WorkflowInstall.Install

open Run

variable {σ : Type}

theorem writeWorkflow_steps {options : InstallOptions} (plain : options.target.IsPlain)
    (fetched : FetchedWorkflow) (content : Bytes) (world : World σ) :
    Within (Step options.target options.force true)
      (writeWorkflow options (fileFor options.target world.spec fetched) content) world := by
  unfold writeWorkflow
  refine within_cwd_bind ?_
  split
  · exact within_fail _
  case h_2 contained =>
    refine within_ofDisk_bind fun isThere probed => ?_
    split
    · exact within_fail _
    case isFalse allowed =>
      dsimp only
      refine within_seen_bind probed allowed fun earlier seen => ?_
      refine within_makeDirs_writeFile_bind plain fun disk location made written => ?_
      rw [bind_apply, noteWritten_apply]
      exact (write_noted (.workflow fetched rfl contained made) seen written).trans (within_log _ _)

theorem addDependencies_steps (source : Source σ) {options : InstallOptions}
    (plain : options.target.IsPlain) (text : Text) (world : World σ) :
    Within (Step options.target options.force true) (addDependencies source options text)
      world := by
  have forget (before : World σ) :
      Within (Step options.target options.force true) forgetVisited before :=
    within_quiet (quiet_forgetVisited before)
  have imports (before : World σ) : Within (Step options.target options.force true)
      (if options.imports then forgetVisited >>= fun _ =>
        Import.install source options.target options.force options.depth text
      else pure ()) before := by
    split
    · refine within_bind (forget before) fun _ after _ => ?_
      exact Import.install_steps source plain options.force options.depth text after
    · exact within_pure _
  unfold addDependencies
  dsimp only
  split
  · refine within_bind (forget world) fun _ after _ => ?_
    refine within_bind (Include.install_steps source plain options.depth text after) ?_
    intro _ last _
    exact imports last
  · exact imports world

theorem recorded_apply (world : World σ) :
    recorded world = (.ok ((world.journal.map Journal.paths).getD []), world) := by
  obtain ⟨disk, git, remote, spec, visited, journal, verbose, trace⟩ := world
  cases journal with
  | none => rfl
  | some journal => rfl

/-- Installing a workflow is a row of steps. -/
theorem addRecorded_steps (source : Source σ) {options : InstallOptions}
    (plain : options.target.IsPlain) (world : World σ) :
    Within (Step options.target options.force true) (addRecorded source options) world := by
  have look (before : World σ) :
      Within (Step options.target options.force true) recorded before := by
    rw [Within, recorded_apply]
  unfold addRecorded
  refine within_bind (look world) fun paths before _ => ?_
  refine within_bind (within_quiet (Workflow.fetch_quiet source before)) fun fetched after _ => ?_
  have finish (last : World σ) (file : Text) :
      Within (Step options.target options.force true) (recorded >>= fun now => pure
        { file := file, source := fetched.path, commit := fetched.commit,
          isLocal := fetched.isLocal,
          written := now.filter fun path => !paths.contains path : Installed }) last :=
    within_bind (look last) fun _ _ _ => within_pure _
  dsimp only
  split
  · refine within_bind (within_quiet (quiet_alterSpec rfl rfl)) fun _ middle _ => ?_
    refine within_spec_bind ?_
    refine within_bind (writeWorkflow_steps plain fetched fetched.content middle) ?_
    intro _ written _
    refine within_bind (addDependencies_steps source plain fetched.text written) ?_
    intro _ last _
    exact finish last _
  · refine within_spec_bind ?_
    refine within_bind (writeWorkflow_steps plain fetched fetched.content after) ?_
    intro _ written _
    exact finish written _

/-- With a journal at hand, an installation records its writes there. -/
theorem add_recorded (source : Source σ) (options : InstallOptions) {world : World σ}
    {journal : Journal} (h : world.journal = some journal) :
    add source options world = addRecorded source options world := by
  rw [add, withJournal, h]

/-- The world in which an installation begins, with a journal of its own when there was none. -/
def begun (options : InstallOptions) (world : World σ) : World σ :=
  { world with journal := some (world.journal.getD (.empty options.target.text)) }

/-- An installation is one that has a journal, which is dropped when it was made for it. -/
theorem add_apply (source : Source σ) (options : InstallOptions) (world : World σ) :
    add source options world =
      ((addRecorded source options (begun options world)).1,
        { (addRecorded source options (begun options world)).2 with
          journal := world.journal.bind fun _ =>
            (addRecorded source options (begun options world)).2.journal }) := by
  obtain ⟨disk, git, remote, spec, visited, journal, verbose, trace⟩ := world
  cases journal <;> rfl

/-- An installation is a row of steps with a journal, which is dropped when it was made for it. -/
theorem add_steps (source : Source σ) (options : InstallOptions) (plain : options.target.IsPlain)
    (world : World σ) :
    ∃ journal after,
      Relation.ReflTransGen (Step options.target options.force true)
        { world with journal := some journal } after ∧
      (add source options world).2 =
        { after with journal := world.journal.bind fun _ => after.journal } :=
  ⟨_, _, addRecorded_steps source plain (begun options world),
    congrArg Prod.snd (add_apply source options world)⟩

end WorkflowInstall.Install

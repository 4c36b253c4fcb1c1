import WorkflowInstall.Proofs.Import.Repetition
import WorkflowInstall.Proofs.Include.Repetition
import WorkflowInstall.Proofs.Install.Steps

/-!
# Installing a workflow again

When a workflow was installed over the files that were there, it can be installed again on the disk
that this has left. The same is asked, and every file is as it was.

## Main Statements

* `Install.returns_writeWorkflow` — when a fetched workflow is written
* `Install.writeWorkflow_again`, `Install.fetch_again` — it is fetched and written again
* `Install.add_repeated` — it is installed again, unless the place of an import is too long
* `Install.not_repeated_too_long` — then installing it again fails

## Design Notes

What is in the journal does not matter for what is asked and written. So the two runs are compared
with a journal each, and the journals are not compared.
-/

namespace WorkflowInstall.Install

open Run Path

variable {σ α : Type}

/-! ## The workflow -/

/-- A workflow is written and noted when its directories can be made and it has a place. -/
theorem returns_write_noted {target file : LocalPath} {content : Bytes} {earlier : Option Bytes}
    {world after : World σ} :
    Returns (makeDirs target >>= fun _ => writeFile file.text content >>= fun _ =>
        noteWritten file.text earlier >>= fun _ =>
          log .install ("Wrote workflow: " ++ file.text)) world () after ↔
      ∃ disk location, world.disk.makeDirs target = (.ok (), disk) ∧
        disk.writable file.text = .ok location ∧
        Returns (log .install ("Wrote workflow: " ++ file.text))
          ((world.wrote disk location content).noted file.text earlier) () after := by
  rw [returns_makeDirs_writeFile_bind]
  simp only [Returns, bind_apply, noteWritten_apply]

/-- A fetched workflow is written when it lies in the target, nothing stands in its way, and its
directories can be made. -/
theorem returns_writeWorkflow {options : InstallOptions} {file : LocalPath} {content : Bytes}
    {world after : World σ} :
    Returns (writeWorkflow options file content) world () after ↔
      checkContained world.disk.here options.target.text file.text = .ok () ∧
      ∃ earlier disk location, Seen options.force world.disk file.text earlier ∧
        world.disk.makeDirs options.target = (.ok (), disk) ∧
        disk.writable file.text = .ok location ∧
        Returns (log .install ("Wrote workflow: " ++ file.text))
          ((world.wrote disk location content).noted file.text earlier) () after := by
  unfold writeWorkflow
  rw [returns_cwd_bind]
  cases contained : checkContained world.disk.here options.target.text file.text with
  | error refused => exact ⟨fun h => absurd h not_returns_fail, fun h => absurd h.1 (by simp)⟩
  | ok value =>
    dsimp only
    rw [returns_bind]
    constructor
    · rintro ⟨isThere, same, probed, writes⟩
      obtain ⟨probed, rfl⟩ := returns_ofDisk.mp probed
      split at writes
      · exact absurd writes not_returns_fail
      case isFalse allowed =>
        split at writes
        case isTrue there =>
          subst there
          rw [Returns, readFile, map_ofDisk_bind_apply] at writes
          split at writes
          case h_2 => exact absurd (congrArg Prod.fst writes) (by simp)
          case h_1 old read =>
            obtain ⟨disk, location, made⟩ := returns_write_noted.mp writes
            have forced : options.force = true := by simpa using allowed
            exact ⟨rfl, some old, disk, location, .present forced probed read, made⟩
        case isFalse absent =>
          rw [Bool.not_eq_true] at absent
          subst absent
          obtain ⟨disk, location, made⟩ := returns_write_noted.mp writes
          exact ⟨rfl, none, disk, location, .absent probed, made⟩
    · rintro ⟨-, earlier, disk, location, seen, made⟩
      have writes := returns_write_noted.mpr ⟨disk, location, made⟩
      cases seen with
      | absent probed => exact ⟨false, world, returns_ofDisk.mpr ⟨probed, rfl⟩, writes⟩
      | present forced probed read =>
        refine ⟨true, world, returns_ofDisk.mpr ⟨probed, rfl⟩, ?_⟩
        rw [forced, Bool.not_true, Bool.and_false, if_neg Bool.false_ne_true]
        rw [if_pos rfl, Returns, readFile, map_ofDisk_bind_apply, read]
        exact writes

/-- A workflow that is not written leaves no more than directories behind. -/
theorem idle_of_writeWorkflow_error {options : InstallOptions} {file : LocalPath} {content : Bytes}
    {world : World σ} {fault : Fault}
    (h : (writeWorkflow options file content world).1 = .error fault) :
    world.Idle (writeWorkflow options file content world).2 := by
  let next (earlier : Option Bytes) : Unit → Run σ Unit := fun _ =>
    noteWritten file.text earlier >>= fun _ => log .install ("Wrote workflow: " ++ file.text)
  have stores (earlier : Option Bytes) : FailsIdle (makeDirs options.target >>= fun _ =>
      writeFile file.text content >>= next earlier) world := by
    rcases makeDirs_writeFile_bind_cases options.target file.text content (next earlier) world with
      ⟨disk, location, -, -, result⟩ | ⟨problem, result⟩
    · -- Recording a write and logging a line do not fail.
      have ends : (next earlier () (world.wrote disk location content)).1 = .ok () := by
        cases earlier <;> rfl
      intro fault failed
      rw [result, ends] at failed
      cases failed
    · intro fault _
      rw [result]
      exact idle_makeDirs options.target
  suffices idle : FailsIdle (writeWorkflow options file content) world from idle fault h
  unfold writeWorkflow
  refine failsIdle_cwd_bind ?_
  split
  · exact failsIdle_fail _
  · refine failsIdle_ofDisk_bind fun isThere _ => ?_
    split
    · exact failsIdle_fail _
    · dsimp only
      split
      · rw [FailsIdle, readFile, map_ofDisk_bind_apply]
        cases world.disk.read file.text with
        | error problem => exact fun _ _ => .refl world
        | ok old => exact stores (some old)
      · exact stores none

/-- A local workflow is fetched when its file can be read. -/
theorem returns_fetchLocal {world after : World σ} {fetched : FetchedWorkflow} :
    Returns Workflow.fetchLocal world fetched after ↔
      ∃ content, world.disk.read world.spec.path = .ok content ∧
        fetched = ⟨content, [], true, world.spec.path⟩ ∧
        after = (log .workflow ("Reading local workflow: " ++ world.spec.path) world).2 := by
  unfold Workflow.fetchLocal
  rw [returns_spec_bind]
  constructor
  · intro h
    obtain ⟨_, middle, logs, reads⟩ := returns_bind.mp h
    have disk : middle.disk = world.disk := (World.Rests.of_log logs).disk
    rw [returns_attempt_bind, readFile, ofDisk, disk] at reads
    cases read : world.disk.read world.spec.path with
    | ok content =>
      rw [read] at reads
      obtain ⟨rfl, rfl⟩ := returns_pure.mp reads
      exact ⟨content, rfl, rfl, (congrArg Prod.snd logs).symm⟩
    | error fault =>
      rw [read] at reads
      dsimp only at reads
      split at reads
      case h_1 same => exact absurd same (by simp)
      all_goals exact absurd reads not_returns_fail
  · rintro ⟨content, read, rfl, ends⟩
    have logs : Returns (log .workflow ("Reading local workflow: " ++ world.spec.path)) world ()
        after := Prod.ext rfl ends.symm
    refine returns_bind.mpr ⟨(), after, logs, ?_⟩
    rw [returns_attempt_bind, readFile, ofDisk, (World.Rests.of_log logs).disk, read]
    exact returns_pure.mpr ⟨rfl, rfl⟩

/-- What was fetched from a repository is not local. -/
theorem isLocal_of_fetchRemote {source : Source σ} {world after : World σ}
    {fetched : FetchedWorkflow} (h : Returns (Workflow.fetchRemote source) world fetched after) :
    fetched.isLocal = false := by
  unfold Workflow.fetchRemote at h
  rw [returns_spec_bind] at h
  split at h
  · exact absurd h not_returns_fail
  · obtain ⟨_, _, -, logs⟩ := returns_bind.mp h
    obtain ⟨_, _, -, resolves⟩ := returns_bind.mp logs
    obtain ⟨_, _, -, downloads⟩ := returns_bind.mp resolves
    obtain ⟨_, _, -, ends⟩ := returns_bind.mp downloads
    obtain ⟨rfl, -⟩ := returns_pure.mp ends
    rfl

section Again

variable {replay : Replay} {alike : Prop} {first second after : World σ}
  (echoes : first.Echoes replay alike second)
include echoes

/-- A fetched workflow that was written is written again. -/
theorem writeWorkflow_again {options : InstallOptions} (plain : options.target.IsPlain)
    (forced : options.force = true) {file : LocalPath} {content : Bytes}
    (returns : Returns (writeWorkflow options file content) first () after)
    (grows : after.disk.Grows second.disk) :
    ∃ later, Returns (writeWorkflow options file content) second () later ∧
      second.disk.Grows later.disk ∧ after.Echoes replay alike later := by
  obtain ⟨contained, earlier, disk, location, -, made, written, logs⟩ :=
    returns_writeWorkflow.mp returns
  have rests := (World.Rests.of_log logs)
  have further := echoes.tree.makeDirs_furthers plain
  rw [made] at further
  have is_open := (further.tree.writable_eq_ok written).2
  have still : (disk.put location (.file content)).Grows second.disk := by
    have same : after.disk = disk.put location (.file content) := rests.disk
    rwa [same] at grows
  have dirs := echoes.tree.makeDirs_again plain made ((is_open.grows content).trans still)
  obtain ⟨node, there, kind⟩ := still.find_present (further.tree.find_put written content)
  cases node with
  | directory => exact absurd kind.symm Bool.false_ne_true
  | file old =>
    have here : second.disk.here = first.disk.here :=
      (further.grows.trans ((is_open.grows content).trans still)).here
    have probed : second.disk.probe file.text = .ok true := by rw [Disk.probe, there]
    have read : second.disk.read file.text = .ok old := by rw [Disk.read, there]
    have place : second.disk.writable file.text = .ok location := by rw [Disk.writable, there]
    have again_open := (echoes.again_tree.writable_eq_ok place).2
    obtain ⟨later, logs'⟩ : ∃ later, Returns (log .install ("Wrote workflow: " ++ file.text))
        ((second.wrote second.disk location content).noted file.text (some old)) () later :=
      ⟨_, rfl⟩
    have rests' := World.Rests.of_log logs'
    refine ⟨later, returns_writeWorkflow.mpr ⟨here ▸ contained, some old, second.disk, location,
      .present forced probed read, dirs, place, logs'⟩, ?_, ?_⟩
    · rw [rests'.disk]
      exact again_open.grows content
    · exact (echoes.wrote further is_open again_open content).rests
        (((World.Rests.refl _).noted _ _).trans rests)
        (((World.Rests.refl _).noted _ _).trans rests')

/-- A workflow that was fetched is fetched again, when a local file still has the same content. -/
theorem fetch_again {source : Source σ} (fixed : source.IsFixed) {fetched : FetchedWorkflow}
    (returns : Returns (Workflow.fetch source) first fetched after)
    (grows : after.disk.Grows second.disk)
    (kept : fetched.isLocal = true → second.disk.read first.spec.path = .ok fetched.content) :
    ∃ later, Returns (Workflow.fetch source) second fetched later ∧
      after.Echoes replay alike later := by
  have remote : Repeats alike (fun _ => False) (Workflow.fetchRemote source) :=
    Workflow.fetchRemote_repeats fixed
  rw [Workflow.fetch, returns_spec_bind] at returns
  rw [Workflow.fetch]
  split at returns
  case isTrue is_local =>
    obtain ⟨content, -, rfl, rfl⟩ := returns_fetchLocal.mp returns
    rw [← echoes.spec] at is_local
    have again := returns_fetchLocal.mpr ⟨content, echoes.spec ▸ kept rfl, rfl, rfl⟩
    rw [echoes.spec] at again
    refine ⟨_, returns_spec_bind.mpr ?_, echoes.rests (.log _ _)
      (.log .workflow ("Reading local workflow: " ++ first.spec.path))⟩
    rw [if_pos is_local]
    exact again
  case isFalse is_remote =>
    rw [← echoes.spec] at is_remote
    rw [Returns] at returns
    have grows : (Workflow.fetchRemote source first).2.disk.Grows second.disk := by
      rwa [returns]
    rcases remote.again echoes grows with ⟨_, _, never⟩ | ⟨same, echoes⟩
    · exact never.elim
    · rw [returns] at same echoes
      refine ⟨_, returns_spec_bind.mpr ?_, echoes⟩
      rw [if_neg is_remote]
      exact Prod.ext same rfl

end Again

/-! ## What it asks for -/

/-- What a workflow asks for is installed again, unless the place of an import is too long. -/
theorem addDependencies_repeats {source : Source σ} (fixed : source.IsFixed) {alike : Prop}
    {options : InstallOptions} (plain : options.target.IsPlain) (forced : options.force = true)
    (text : Text) :
    Repeats alike (fun fault => options.imports = true ∧ Import.TooLong options.target fault)
      (addDependencies source options text) := by
  have imports {alike : Prop} :
      Repeats alike (fun fault => options.imports = true ∧ Import.TooLong options.target fault)
        (if options.imports then forgetVisited >>= fun _ =>
          Import.install source options.target true options.depth text
        else pure ()) := by
    split
    case isTrue wanted =>
      have repeats : Repeats True (Import.TooLong options.target) _ :=
        Import.install_repeats fixed plain trivial options.depth text
      exact repeats_forgetVisited_bind (repeats.mono fun fault long => ⟨wanted, long⟩)
    case isFalse => exact repeats_pure ()
  unfold addDependencies
  rw [forced]
  dsimp only
  split
  · refine repeats_forgetVisited_bind (repeats_bind ?_ fun _ => imports)
    exact Include.install_repeats fixed plain trivial options.depth text
  · exact imports

/-! ## The installation -/

/-- Installs what a fetched workflow asks for, unless it is a local one. -/
def dependencies (source : Source σ) (options : InstallOptions) (fetched : FetchedWorkflow) :
    Run σ Unit :=
  if !fetched.isLocal then addDependencies source options fetched.text else pure ()

/-- What has been installed, by the paths in the journal before and after it. -/
def summary (before after : List Text) (fetched : FetchedWorkflow) (file : LocalPath) :
    Installed where
  file := file.text
  source := fetched.path
  commit := fetched.commit
  isLocal := fetched.isLocal
  written := after.filter fun path => !before.contains path

/-- The world in which the path is known that a workflow was found at. -/
def located (fetched : FetchedWorkflow) (world : World σ) : World σ :=
  if fetched.isLocal then world
  else { world with spec := { world.spec with path := fetched.path } }

/-- The paths in the journal of a world. -/
def paths (world : World σ) : List Text := (world.journal.map Journal.paths).getD []

/-- After a workflow was fetched, it is written, what it asks for is installed, and that is told. -/
theorem addRecorded_apply {source : Source σ} {options : InstallOptions} {world found : World σ}
    {fetched : FetchedWorkflow} (fetches : Returns (Workflow.fetch source) world fetched found) :
    addRecorded source options world =
      let file := fileFor options.target (located fetched found).spec fetched
      (writeWorkflow options file fetched.content >>= fun _ =>
        dependencies source options fetched >>= fun _ => recorded >>= fun after =>
          pure (summary (paths world) after fetched file)) (located fetched found) := by
  unfold addRecorded
  rw [bind_apply, recorded_apply]
  dsimp only
  rw [bind_apply, show Workflow.fetch source world = _ from fetches]
  dsimp only
  obtain ⟨content, commit, isLocal, path⟩ := fetched
  cases isLocal <;> rfl

theorem addRecorded_of_error {source : Source σ} (options : InstallOptions) {world : World σ}
    {fault : Fault} (h : (Workflow.fetch source world).1 = .error fault) :
    addRecorded source options world = (.error fault, (Workflow.fetch source world).2) := by
  unfold addRecorded
  rw [bind_apply, recorded_apply]
  exact bind_of_error h

/-- The journal is only looked at in the end. -/
theorem summary_snd {α β : Type} (run : Run σ α) (next : List Text → β) (world : World σ) :
    ((run >>= fun _ => recorded >>= fun after => pure (next after)) world).2 = (run world).2 := by
  cases result : (run world).1 with
  | error fault => rw [bind_of_error result]
  | ok value =>
    rw [bind_of_ok result, bind_apply, recorded_apply]
    rfl

/-- An installation returns when its parts do. -/
theorem returns_addRecorded {source : Source σ} {options : InstallOptions} {world last : World σ}
    {installed : Installed} :
    Returns (addRecorded source options) world installed last ↔
      ∃ fetched found written,
        Returns (Workflow.fetch source) world fetched found ∧
        Returns (writeWorkflow options (fileFor options.target (located fetched found).spec fetched)
          fetched.content) (located fetched found) () written ∧
        Returns (dependencies source options fetched) written () last ∧
        summary (paths world) (paths last) fetched
          (fileFor options.target (located fetched found).spec fetched) = installed := by
  have finish {value : Installed} {next : List Text → Installed} {middle : World σ} :
      Returns (recorded >>= fun after => pure (next after)) middle value last ↔
        next (paths middle) = value ∧ middle = last := by
    rw [Returns, bind_apply, recorded_apply]
    exact returns_pure
  constructor
  · intro h
    have whole := h
    unfold addRecorded at h
    obtain ⟨_, before, looks, goes_on⟩ := returns_bind.mp h
    rw [Returns, recorded_apply] at looks
    cases looks
    obtain ⟨fetched, found, fetches, -⟩ := returns_bind.mp goes_on
    rw [Returns, addRecorded_apply fetches] at whole
    obtain ⟨_, written, writes, concludes⟩ := returns_bind.mp whole
    obtain ⟨_, finished, depends, told⟩ := returns_bind.mp concludes
    obtain ⟨same, rfl⟩ := finish.mp told
    exact ⟨fetched, found, written, fetches, writes, depends, same⟩
  · rintro ⟨fetched, found, written, fetches, writes, depends, told⟩
    rw [Returns, addRecorded_apply fetches]
    exact returns_bind.mpr ⟨(), written, writes,
      returns_bind.mpr ⟨(), last, depends, finish.mpr ⟨told, rfl⟩⟩⟩

theorem disk_located (fetched : FetchedWorkflow) (world : World σ) :
    (located fetched world).disk = world.disk := by
  unfold located
  split <;> rfl

theorem trace_located (fetched : FetchedWorkflow) (world : World σ) :
    (located fetched world).trace = world.trace := by
  unfold located
  split <;> rfl

/-- What is known of a workflow is known in the same way again. -/
theorem echoes_located {replay : Replay} {alike : Prop} {first second : World σ}
    (echoes : first.Echoes replay alike second) (fetched : FetchedWorkflow) :
    (located fetched first).Echoes replay alike (located fetched second) := by
  unfold located
  split
  · exact echoes
  · exact { echoes with spec := by rw [echoes.spec] }

theorem dependencies_repeats {source : Source σ} (fixed : source.IsFixed) {alike : Prop}
    {options : InstallOptions} (plain : options.target.IsPlain) (forced : options.force = true)
    (fetched : FetchedWorkflow) :
    Repeats alike (fun fault => options.imports = true ∧ Import.TooLong options.target fault)
      (dependencies source options fetched) := by
  unfold dependencies
  split
  · exact addDependencies_repeats fixed plain forced fetched.text
  · exact repeats_pure ()

/-- A local workflow is read again after it was written. -/
theorem read_again {source : Source σ} {options : InstallOptions} (plain : options.target.IsPlain)
    {world found written last : World σ} (tree : world.disk.IsTree) {fetched : FetchedWorkflow}
    (is_local : fetched.isLocal = true)
    (fetches : Returns (Workflow.fetch source) world fetched found) {file : LocalPath}
    (writes :
      Returns (writeWorkflow options file fetched.content) (located fetched found) () written)
    (depends : Returns (dependencies source options fetched) written () last) :
    last.disk.read world.spec.path = .ok fetched.content := by
  have quiet := quiet_of_returns (Workflow.fetch_quiet source world) fetches
  rw [dependencies, is_local, Bool.not_true, if_neg Bool.false_ne_true] at depends
  obtain ⟨-, rfl⟩ := returns_pure.mp depends
  have read : world.disk.read world.spec.path = .ok fetched.content := by
    rw [Workflow.fetch, returns_spec_bind] at fetches
    split at fetches
    · obtain ⟨content, read, rfl, -⟩ := returns_fetchLocal.mp fetches
      exact read
    · exact absurd is_local (by simp [isLocal_of_fetchRemote fetches])
  obtain ⟨-, earlier, disk, location, -, made, place, logs⟩ := returns_writeWorkflow.mp writes
  rw [disk_located, quiet.disk] at made
  have further := tree.makeDirs_furthers plain
  rw [made] at further
  have same : written.disk = disk.put location (.file fetched.content) :=
    (World.Rests.of_log logs).disk
  rw [same]
  exact tree.read_put further read (further.tree.writable_eq_ok place).2

section Whole

variable {source : Source σ} (fixed : source.IsFixed) {options : InstallOptions}
  (plain : options.target.IsPlain) (forced : options.force = true)
  {world last again : World σ} (tree : world.disk.IsTree) {installed : Installed}
include fixed plain forced tree

/-- A workflow that was installed is installed again, unless the place of an import is too long. -/
theorem addRecorded_again (first : Returns (addRecorded source options) world installed last)
    (disk : again.disk = last.disk) (spec : again.spec = world.spec) :
    (∃ fault, (addRecorded source options again).1 = .error fault ∧
      options.imports = true ∧ Import.TooLong options.target fault) ∨
    ∃ other later, Returns (addRecorded source options) again other later ∧
      { other with written := installed.written } = installed ∧
      last.Echoes ⟨last.disk, world.trace, again.trace⟩ False later := by
  obtain ⟨fetched, found, written, fetches, writes, depends, rfl⟩ := returns_addRecorded.mp first
  have depends_again : Repeats False _ (dependencies source options fetched) :=
    dependencies_repeats fixed plain forced fetched
  -- The disk grows from the first world to the last one.
  have found_quiet := quiet_of_returns (Workflow.fetch_quiet source world) fetches
  have located_disk : (located fetched found).disk = world.disk :=
    (disk_located fetched found).trans found_quiet.disk
  have written_grows := grows_of_returns plain
    (writeWorkflow_steps plain fetched fetched.content _) (located_disk ▸ tree) writes
  have last_grows := depends_again.grows written written_grows.1
  rw [show dependencies source options fetched written = _ from depends] at last_grows
  have echoes : world.Echoes ⟨last.disk, world.trace, again.trace⟩ False again :=
    { tree := tree
      again_tree := disk ▸ last_grows.1
      spec := spec
      visited := False.elim
      files := fun location => .inr (by rw [disk])
      asked := ⟨[], [], rfl, rfl, rfl⟩ }
  have grows : world.disk.Grows again.disk := by
    rw [disk, ← located_disk]
    exact written_grows.2.trans last_grows.2
  obtain ⟨found', fetches', echoes⟩ :=
    fetch_again echoes fixed fetches (found_quiet.disk ▸ grows) fun is_local =>
      disk ▸ read_again plain tree is_local fetches writes depends
  have found_quiet' := quiet_of_returns (Workflow.fetch_quiet source again) fetches'
  have located_disk' : (located fetched found').disk = last.disk :=
    ((disk_located fetched found').trans found_quiet'.disk).trans disk
  have echoes := echoes_located echoes fetched
  obtain ⟨written', writes', written_grows', echoes'⟩ :=
    writeWorkflow_again echoes plain forced writes (located_disk' ▸ last_grows.2)
  rw [located_disk'] at written_grows'
  have last_eq : dependencies source options fetched written = (.ok (), last) := depends
  rw [← echoes.spec] at writes'
  rcases depends_again.again echoes' (by rwa [last_eq]) with ⟨fault, fails, excuse⟩ | ⟨same, ends⟩
  · refine .inl ⟨fault, ?_, excuse⟩
    rw [addRecorded_apply fetches']
    dsimp only
    rw [bind_of_ok (congrArg Prod.fst writes'), show writeWorkflow _ _ _ _ = _ from writes',
      bind_of_error fails]
  · rw [last_eq] at same ends
    have depends' : Returns (dependencies source options fetched) written' ()
        (dependencies source options fetched written').2 := Prod.ext same rfl
    exact .inr ⟨_, _, returns_addRecorded.mpr
      ⟨fetched, found', written', fetches', writes', depends', rfl⟩, by rw [echoes.spec]; rfl, ends⟩

end Whole

/-- A workflow that was installed with force is installed again on the disk that this has left: the
same is asked, and every file is left as it was. Only the place of an import may turn out to be too
long, in a directory that was not there the first time. -/
theorem add_repeated {source : Source σ} (fixed : source.IsFixed) (dir : Text)
    (includes imports : Bool) (depth : Nat) {world after again : World σ} {installed : Installed}
    (tree : world.disk.IsTree)
    (first : Returns (add source ⟨LocalPath.ofText dir, true, includes, imports, depth⟩) world
      installed after)
    (disk : again.disk = after.disk) (spec : again.spec = world.spec) :
    (∃ fault, (add source ⟨LocalPath.ofText dir, true, includes, imports, depth⟩ again).1 =
        .error fault ∧ imports = true ∧ Import.TooLong (LocalPath.ofText dir) fault) ∨
    ∃ other last events more,
      Returns (add source ⟨LocalPath.ofText dir, true, includes, imports, depth⟩) again other last ∧
      { other with written := installed.written } = installed ∧
      after.trace = events ++ world.trace ∧ last.trace = more ++ again.trace ∧
      Event.queries more = Event.queries events ∧
      ∀ location, last.disk.file? location = after.disk.file? location := by
  let options : InstallOptions := ⟨LocalPath.ofText dir, true, includes, imports, depth⟩
  let before := begun options world
  let before' := begun options again
  rw [Returns, add_apply] at first
  obtain ⟨returns, rfl⟩ := Prod.mk.inj first
  have begun_tree : before.disk.IsTree := tree
  have first : Returns (addRecorded source options) before installed
      (addRecorded source options before).2 := Prod.ext returns rfl
  have same_disk : before'.disk = (addRecorded source options before).2.disk := disk
  have same_spec : before'.spec = before.spec := spec
  have whole := addRecorded_again fixed (LocalPath.isPlain_ofText dir) rfl begun_tree first
    same_disk same_spec
  have begins := add_apply source options again
  rcases whole with ⟨fault, fails, excuse⟩ | ⟨other, last, ends, same, echoes⟩
  · exact .inl ⟨fault, (congrArg Prod.fst begins).trans fails, excuse⟩
  · obtain ⟨events, more, trace, trace', queries⟩ := echoes.asked
    rw [show addRecorded source options (begun options again) = _ from ends] at begins
    exact .inr ⟨other, _, events, more, begins, same, trace, trace', queries,
      fun location => (echoes.files location).elim id id⟩

/-- An import that the workflow and its include share is written twice in the same way. -/
theorem add_repeated_shared :
    let options : InstallOptions := ⟨LocalPath.ofText "t", true, true, true, 3⟩
    let source := (Table.ofFiles "o/r"
      [("flows/ci.md", Utf8.encode "---\nimports: [a.md]\n---\n@include a.md\n"),
        ("flows/a.md", Utf8.encode "---\nimports: [/ci.md]\n---\n"),
        ("ci.md", [1])]).source Unit
    let world := World.fresh () ⟨[], [(["t"], .directory), (["t", "a.md"], .file [2])]⟩
      ⟨"o/r", "main", "flows/ci.md", "ci"⟩
    let again := World.fresh () (add source options world).2.disk world.spec
    source.IsFixed ∧ world.disk.IsTree ∧ (add source options world).1.isOk = true ∧
      again.disk = (add source options world).2.disk ∧ again.spec = world.spec ∧
      again.disk.file? ["t", "ci.md"] = some [1] ∧
      ∃ other last, Returns (add source options) again other last ∧
        Event.queries last.trace = Event.queries (add source options world).2.trace ∧
        ∀ location, last.disk.file? location = again.disk.file? location := by
  intro options source world again
  have fixed : source.IsFixed := Table.isFixed _ Unit
  have tree : world.disk.IsTree := Disk.isTree_of_entries (by decide) (by decide)
  have ends : (add source options world).1.isOk = true := by decide +kernel
  have disk : again.disk = (add source options world).2.disk := World.fresh_disk () _ world.spec
  have spec : again.spec = world.spec := World.fresh_spec () _ world.spec
  have ends_again : (add source options again).1.isOk = true := by decide +kernel
  refine ⟨fixed, tree, ends, disk, spec, by decide +kernel, ?_⟩
  obtain ⟨installed, returns⟩ := exists_returns ends
  rcases add_repeated fixed "t" true true 3 tree returns disk spec with
    ⟨fault, fails, -⟩ | ⟨other, last, events, more, returns, -, trace, trace', queries, files⟩
  · exact absurd ends_again (not_isOk fails)
  · have blank : world.trace = [] := World.fresh_trace () _ _
    have blank' : again.trace = [] :=
      World.fresh_trace () (add source options world).2.disk world.spec
    rw [blank, List.append_nil] at trace
    rw [blank', List.append_nil] at trace'
    refine ⟨other, last, returns, ?_, fun location => ?_⟩
    · rw [trace', queries]
      exact congrArg Event.queries trace.symm
    · rw [disk]
      exact files location

/-- The directory `sub` is missing the first time, so the place of the import is only found to be
too long when it cannot be written, which is logged. The second time `sub` is there, and the
installation fails. -/
theorem not_repeated_too_long :
    let long : Text := List.replicate 64 '😀'
    let options : InstallOptions := ⟨LocalPath.ofText "t", true, true, true, 3⟩
    let source := (Table.ofFiles "o/r"
      [("ci.md", Utf8.encode ("---\nimports: [sub/" ++ long ++ "]\n---\n")),
        ("sub/" ++ long, [1])]).source Unit
    let world := World.fresh () ⟨[], []⟩ ⟨"o/r", "main", "ci.md", "ci"⟩
    let again := World.fresh () (add source options world).2.disk world.spec
    source.IsFixed ∧ world.disk.IsTree ∧ (add source options world).1.isOk = true ∧
      (add source options again).1.isOk = false :=
  ⟨Table.isFixed _ Unit, Disk.isTree_of_entries (by decide) (by decide), by decide +kernel,
    by decide +kernel⟩

end WorkflowInstall.Install

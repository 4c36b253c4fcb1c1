import WorkflowInstall.CommandLine.Interpreter
import WorkflowInstall.Proofs.Install.Recording

/-!
# All workflows or none

When the command that installs workflows cannot install one of them, it takes back what it has
written for all of them.

## Main Definitions

* `CommandLine.refusal?` — what a part of a command refuses with
* `CommandLine.Stopped` — how installing workflows can break off

## Main Statements

* `WorkflowSpec.slash_notMem_name` — the name of a workflow that was read holds no slash
* `CommandLine.add_recorded_sees` — what holds before a workflow is installed holds after it
* `CommandLine.stopped_of_fault` — what is done after a fault
* `CommandLine.installAll_stopped` — what is there after installing workflows broke off
* `CommandLine.addAll_stopped` — what is there after the command broke off

## Design Notes

Only a refusal or a fault of the file system is followed by taking writes back. Taking them back
looks files up by their absolute paths, which can be too long although the paths as given were not.
-/

namespace WorkflowInstall

open Path Disk Run

/-! ## Names of workflows -/

namespace WorkflowSpec

theorem slash_notMem_nameOfPath (path : Text) : '/' ∉ nameOfPath path := by
  have last := Text.slash_notMem_lastPiece (Text.replaceChar '\\' '/' path)
  rw [nameOfPath]
  split
  · intro mem
    exact last (List.mem_of_mem_take mem)
  · exact last

/-- The name of a workflow that was read holds no slash. -/
theorem slash_notMem_name {homes : Homes} {text : Text} {spec : WorkflowSpec}
    (h : parse homes text = .ok spec) : '/' ∉ spec.name := by
  have remote {raw : Text} (h : parseRemote raw = .ok spec) : '/' ∉ spec.name := by
    unfold parseRemote at h
    dsimp only at h
    split at h
    · exact absurd h (by simp)
    split at h
    · split at h
      · exact absurd h (by simp)
      split at h
      · cases h
        exact slash_notMem_nameOfPath _
      · exact absurd h (by simp)
    · exact absurd h (by simp)
  unfold parse at h
  dsimp only at h
  split at h
  · exact absurd h (by simp)
  split at h
  · split at h
    · exact absurd h (by simp)
    · cases h
      exact slash_notMem_nameOfPath _
  · cases parsed : parseRemote (Text.trim text) with
    | error problem => rw [parsed] at h; injection h
    | ok found =>
      rw [parsed] at h
      cases h
      exact remote parsed

end WorkflowSpec

namespace CommandLine

open Github

variable {α β : Type}

/-! ## Parts of a command -/

theorem bind_run (first : Step α) (next : α → Step β) (world : World Surroundings) :
    (first >>= next).run world =
      match first.run world with
      | (.ok (.ok value), after) => (next value).run after
      | (.ok (.error ending), after) => (.ok (.error ending), after)
      | (.error fault, after) => (.error fault, after) := by
  show (ExceptT.run first >>= ExceptT.bindCont next) world = _
  rw [bind_apply]
  cases first.run world with
  | mk outcome after =>
    cases outcome with
    | error fault => rfl
    | ok value => cases value <;> rfl

theorem perform_run (run : Run Surroundings α) (world : World Surroundings) :
    (perform run).run world =
      match run world with
      | (.ok value, after) => (.ok (.ok value), after)
      | (.error fault, after) => (.error fault, after) := by
  show (run >>= fun value => pure (Except.ok value)) world = _
  rw [bind_apply]
  cases run world with
  | mk outcome after => cases outcome <;> rfl

/-- What a part of a command refuses with, if it refuses. -/
def refusal? : Except Fault (Except Ending α) → Option Text
  | .ok (.error (.refusal message)) => some message
  | _ => none

/-- How installing workflows can break off: everything is as it was, or a fault is passed on that is
no refusal and not of the file system, or a path is too long for taking everything back. -/
inductive Stopped (files : Location → Option Bytes) :
    Except Fault (Except Ending α) × World Surroundings → Prop
  | restored {message : Text} {after : World Surroundings}
      (same : ∀ location, after.disk.file? location = files location) :
      Stopped files (.ok (.error (.refusal message)), after)
  | passedOn {fault : Fault} {after : World Surroundings} (refusal : fault.isRefusal = false)
      (storage : fault.isStorage = false) :
      Stopped files (.ok (.error (.failure fault)), after)
  | overlong {fault : Fault} {after : World Surroundings} (overlong : Staging.Overlong fault) :
      Stopped files (.error fault, after)

/-- What comes after a part that breaks off is not done. -/
theorem Stopped.bind {files : Location → Option Bytes} {first : Step α} {next : α → Step β}
    {world : World Surroundings} (h : Stopped files (first.run world)) :
    Stopped files ((first >>= next).run world) := by
  rw [bind_run]
  generalize first.run world = result at h
  cases h with
  | restored same => exact .restored same
  | passedOn refusal storage => exact .passedOn refusal storage
  | overlong overlong => exact .overlong overlong

/-- Files are where they are without the journal. -/
theorem Stopped.withJournal {files : Location → Option Bytes} {journal : Option Journal}
    {result : Except Fault (Except Ending α) × World Surroundings} (h : Stopped files result) :
    Stopped files (result.1, { result.2 with journal := journal }) := by
  cases h with
  | restored same => exact .restored same
  | passedOn refusal storage => exact .passedOn refusal storage
  | overlong overlong => exact .overlong overlong

theorem parseAll_names {homes : Homes} {texts : List Text} {specs : List WorkflowSpec}
    (h : parseAll homes texts = .ok specs) : ∀ spec ∈ specs, '/' ∉ spec.name := by
  induction texts generalizing specs with
  | nil =>
    cases h
    intro _ mem
    exact absurd mem List.not_mem_nil
  | cons text texts ih =>
    rw [parseAll, List.mapM_cons] at h
    cases first : WorkflowSpec.parse homes text with
    | error refused => rw [first] at h; exact absurd h (by simp [bind, Except.bind])
    | ok spec =>
      rw [first] at h
      cases others : texts.mapM (WorkflowSpec.parse homes) with
      | error refused =>
        simp only [bind, Except.bind, others] at h
        exact absurd h (by simp)
      | ok more =>
        simp only [bind, Except.bind, others, pure, Except.pure, Except.ok.injEq] at h
        subst h
        intro found mem
        rcases List.mem_cons.mp mem with rfl | mem
        · exact WorkflowSpec.slash_notMem_name first
        · exact ih others found mem

section InstallAll

variable (source : Source Surroundings) {options : InstallOptions}

/-- The first of some workflows is installed and then the others, or it cannot be installed, and
then everything is taken back or its fault is passed on. -/
theorem installAll_cons_run (spec : WorkflowSpec) (specs : List WorkflowSpec)
    (world : World Surroundings) :
    (installAll source options (spec :: specs)).run world =
      match Install.add source options { world with spec := spec } with
      | (.ok installed, after) =>
        (installAll source options specs >>= fun more => pure (installed :: more)).run after
      | (.error fault, after) =>
        (if fault.isRefusal || fault.isStorage then
          perform Staging.rollBack >>= fun _ => throw (.refusal fault.message)
        else throw (.failure fault)).run after := by
  rw [installAll, bind_run, perform_run]
  show (perform (attempt (Install.add source options)) >>= _).run { world with spec := spec } = _
  rw [bind_run, perform_run, attempt_apply]
  cases Install.add source options { world with spec := spec } with
  | mk outcome after => cases outcome <;> rfl

/-- Installing one workflow is recorded too, and takes no directory away. -/
theorem add_recorded_sees (plain : options.target.IsPlain) {files : Location → Option Bytes}
    {world : World Surroundings} (name : '/' ∉ world.spec.name) (tree : world.disk.IsTree)
    (sees : world.disk.Sees options.target)
    (recorded : Install.Recorded options.target.anchor.rooted files world) :
    let after := (Install.add source options world).2
    after.disk.IsTree ∧ after.disk.Sees options.target ∧
      Install.Recorded options.target.anchor.rooted files after := by
  intro after
  have steps : Relation.ReflTransGen (Install.Step options.target options.force true) world
      after := by
    obtain ⟨journal, known, -⟩ := recorded
    rw [show after = _ from congrArg Prod.snd (Install.add_recorded source options known)]
    exact Install.addRecorded_steps source plain world
  obtain ⟨after_tree, grows⟩ := Install.grows_of_steps plain tree steps
  obtain ⟨-, after_recorded⟩ :=
    Install.recorded_of_steps plain tree (fun _ => sees) name steps recorded
  exact ⟨after_tree, grows.sees sees, after_recorded⟩

/-- After a fault everything is taken back, or the fault is passed on. -/
theorem stopped_of_fault {files : Location → Option Bytes}
    (proper : ∀ {location content}, files location = some content →
      ∀ name ∈ location, IsProper name)
    (fault : Fault) {world : World Surroundings} (tree : world.disk.IsTree)
    (recorded : Install.Recorded options.target.anchor.rooted files world) :
    Stopped files
      ((if fault.isRefusal || fault.isStorage then
          perform Staging.rollBack >>= fun _ => throw (.refusal fault.message)
        else throw (.failure fault) : Step α).run world) := by
  obtain ⟨journal, known, covers⟩ := recorded
  split
  case isTrue caught =>
    rw [bind_run, perform_run]
    rcases covers.rollBack_cases tree options.target.anchor.isRooted_rooted known proper with
      ⟨last, undone, -, same⟩ | ⟨path, -, last, failed, long⟩
    · rw [undone]
      exact .restored same
    · rw [failed]
      exact .overlong ⟨path, rfl, long⟩
  case isFalse passed =>
    rw [Bool.or_eq_true, not_or, Bool.not_eq_true, Bool.not_eq_true] at passed
    exact .passedOn passed.1 passed.2

/-- Installing workflows ends with all of them installed, or it breaks off. -/
theorem installAll_stopped (plain : options.target.IsPlain) {files : Location → Option Bytes}
    (proper : ∀ {location content}, files location = some content →
      ∀ name ∈ location, IsProper name)
    {specs : List WorkflowSpec} (names : ∀ spec ∈ specs, '/' ∉ spec.name)
    {world : World Surroundings} (tree : world.disk.IsTree)
    (sees : world.disk.Sees options.target)
    (recorded : Install.Recorded options.target.anchor.rooted files world) :
    (∃ installed, ((installAll source options specs).run world).1 = .ok (.ok installed)) ∨
      Stopped files ((installAll source options specs).run world) := by
  induction specs generalizing world with
  | nil => exact Or.inl ⟨[], rfl⟩
  | cons spec specs ih =>
    let asked := { world with spec := spec }
    have asked_tree : asked.disk.IsTree := tree
    have asked_recorded : Install.Recorded options.target.anchor.rooted files asked := recorded
    have name : '/' ∉ asked.spec.name := names spec List.mem_cons_self
    obtain ⟨after_tree, after_sees, after_recorded⟩ :=
      add_recorded_sees source plain name asked_tree sees asked_recorded
    rw [installAll_cons_run]
    generalize Install.add source options asked = result at after_tree after_sees after_recorded
    obtain ⟨outcome, after⟩ := result
    cases outcome with
    | error fault => exact Or.inr (stopped_of_fault proper fault after_tree after_recorded)
    | ok installed =>
      have rest := ih (fun other mem => names other (List.mem_cons_of_mem spec mem)) after_tree
        after_sees after_recorded
      rcases rest with ⟨more, done⟩ | stopped
      · refine Or.inl ⟨installed :: more, ?_⟩
        dsimp only
        rw [bind_run]
        generalize (installAll source options specs).run after = result at done
        obtain ⟨outcome, last⟩ := result
        cases done
        rfl
      · exact Or.inr stopped.bind

end InstallAll

theorem withJournal_apply (journal : Journal) (run : Run Surroundings α)
    (world : World Surroundings) :
    withJournal journal run world =
      ((run { world with journal := some journal }).1,
        { (run { world with journal := some journal }).2 with journal := world.journal }) :=
  rfl

/-- All texts are read before a workflow is installed. -/
theorem addAll_run (source : Source Surroundings) (options : InstallOptions) (staged : Bool)
    (texts : List Text) (start : World Surroundings) :
    (addAll source options staged texts).run start =
      match parseAll start.remote.homes texts with
      | .error refused => (.ok (.error (.refusal refused.problem.message)), start)
      | .ok specs =>
        (installAll source options specs >>= fun installed =>
          perform (sayInstalled installed) >>= fun _ => if staged then stage else pure ()).run
          start := by
  rw [addAll, bind_run, CommandLine.world, perform_run]
  dsimp only [look_apply]
  cases parseAll start.remote.homes texts <;> rfl

/-- When a text cannot be read, nothing is done. When all can be read, no directory that the path of
the target climbs out of is missing and a workflow cannot be installed, all files are as they were,
or a fault is passed on that is no refusal and not of the file system, or a path is too long for
taking everything back. -/
theorem addAll_stopped (source : Source Surroundings) (dir : Text)
    (force includes imports staged : Bool) (depth : Nat) (texts : List Text) (root : Text)
    (world : World Surroundings) (tree : world.disk.IsTree) :
    let options : InstallOptions := ⟨LocalPath.ofText dir, force, includes, imports, depth⟩
    let run := withJournal (.empty root) (addAll source options staged texts).run
    let start := { world with journal := some (.empty root) }
    (∀ refused, parseAll world.remote.homes texts = .error refused →
      run world = (.ok (.error (.refusal refused.problem.message)), world)) ∧
    (world.disk.Sees (LocalPath.ofText dir) → ∀ specs,
      parseAll world.remote.homes texts = .ok specs →
      (∀ installed, ((installAll source options specs).run start).1 ≠ .ok (.ok installed)) →
      Stopped world.disk.file? (run world)) := by
  intro options run start
  have begin : run world = (((addAll source options staged texts).run start).1,
      { ((addAll source options staged texts).run start).2 with journal := world.journal }) :=
    withJournal_apply _ _ world
  rw [begin, addAll_run]
  refine ⟨fun refused bad => ?_, fun sees specs read failed => ?_⟩
  · rw [show parseAll start.remote.homes texts = _ from bad]
  · rw [show parseAll start.remote.homes texts = _ from read]
    have recorded : Install.Recorded options.target.anchor.rooted world.disk.file? start :=
      ⟨.empty root, rfl, Staging.covers_empty _ _ _⟩
    have proper : ∀ {location content}, world.disk.file? location = some content →
        ∀ name ∈ location, IsProper name := tree.isProper_of_file?
    have outcome : (∃ installed, ((installAll source options specs).run start).1 =
          .ok (.ok installed)) ∨
        Stopped world.disk.file? ((installAll source options specs).run start) :=
      installAll_stopped source (LocalPath.isPlain_ofText dir) proper (parseAll_names read) tree
        sees recorded
    exact (outcome.resolve_left fun ⟨installed, done⟩ => failed installed done).bind.withJournal

/-- The second workflow cannot be found, and the first one is taken away again. -/
theorem addAll_stopped_second :
    let world := World.fresh (⟨⟨[]⟩, [], [], 0, 0, fun _ => none⟩ : Surroundings) ⟨[], []⟩
      ⟨[], [], [], []⟩
    let source := (Table.ofFiles "o/r" [("a.md", [2])]).source Surroundings
    let options : InstallOptions := ⟨LocalPath.ofText "d", false, true, true, 3⟩
    let result := withJournal (.empty "/")
      (addAll source options false ["o/r/a.md", "o/r/b.md"]).run world
    world.disk.IsTree ∧ world.disk.Sees (LocalPath.ofText "d") ∧
      Stopped world.disk.file? result ∧ result.2.disk.file? ["d", "a.md"] = none := by
  intro world source options result
  have tree : world.disk.IsTree := isTree_of_entries (by decide) (by decide)
  have sees : world.disk.Sees (LocalPath.ofText "d") := sees_of_up_notMem _ (by decide)
  let specs : List WorkflowSpec := [⟨"o/r", [], "a.md", "a"⟩, ⟨"o/r", [], "b.md", "b"⟩]
  have refused : (refusal? ((installAll source options specs).run
      { world with journal := some (.empty "/") }).1).isSome = true := by decide +kernel
  have stopped := (addAll_stopped source "d" false true true false 3 ["o/r/a.md", "o/r/b.md"] "/"
    world tree).2 sees specs (by rfl)
  refine ⟨tree, sees, stopped fun installed done => ?_, by decide +kernel⟩
  rw [show ((installAll source options specs).run _).1 = _ from done] at refused
  exact absurd refused Bool.false_ne_true

/-- Through the missing directory `new` the file is not seen. It is written over, and then it is
taken away with what was written. -/
theorem not_restored_through_missing :
    let world := World.fresh (⟨⟨[]⟩, [], [], 0, 0, fun _ => none⟩ : Surroundings)
      ⟨[], [(["t"], .directory), (["t", "a.md"], .file [1])]⟩ ⟨[], [], [], []⟩
    let source := (Table.ofFiles "o/r" [("a.md", [2])]).source Surroundings
    let options : InstallOptions := ⟨LocalPath.ofText "new/../t", true, true, true, 3⟩
    let result := withJournal (.empty "/")
      (addAll source options false ["o/r/a.md", "o/r/b.md"]).run world
    (refusal? result.1).isSome = true ∧
      world.disk.file? ["t", "a.md"] = some [1] ∧ result.2.disk.file? ["t", "a.md"] = none := by
  decide +kernel

end CommandLine

end WorkflowInstall

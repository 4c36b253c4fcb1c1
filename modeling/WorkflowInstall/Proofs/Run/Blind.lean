import WorkflowInstall.Proofs.Run.Relating
import WorkflowInstall.Proofs.Run.Tour

/-!
# Runs that do not look at the file system

A run that asks nothing but a source does the same on every file system, as long as the source
answers the same. A source may look at the file system itself, so its answers are held fixed here.

## Main Definitions

* `World.onDisk` — the same world with another file system
* `Source.seeing` — the source with its sight held fixed
* `Run.Blind` — a run does the same on every file system

## Main Statements

* `Run.Blind.apply` — what such a run does on another file system
* `Run.blind_bind`, `Run.blind_attempt_bind` — rows of runs, and runs whose fault is looked at
* `Run.blind_ask` — a source whose sight is held fixed
* `Workflow.fetchRemote_blind` — a workflow is fetched from its repository
-/

namespace WorkflowInstall

variable {σ α β : Type}

/-- The same world with another file system. -/
def World.onDisk (world : World σ) (disk : Disk) : World σ := { world with disk := disk }

/-- The source that answers as if it saw a given file system. -/
def Source.seeing (source : Source σ) (disk : Disk) : Source σ where
  file _ := source.file disk
  commit _ := source.commit disk
  branch _ := source.branch disk

namespace World

theorem disk_record (world : World σ) (event : Event) : (world.record event).disk = world.disk := by
  rcases world.record_cases event with recorded | ⟨recorded, -⟩ <;> rw [recorded]

theorem disk_foldl_record (world : World σ) (events : List Event) :
    (events.foldl World.record world).disk = world.disk := by
  induction events generalizing world with
  | nil => rfl
  | cons event rest ih => exact (ih (world.record event)).trans (world.disk_record event)

theorem record_onDisk (world : World σ) (event : Event) (disk : Disk) :
    (world.onDisk disk).record event = (world.record event).onDisk disk := by
  cases event with
  | logged component message =>
    unfold record onDisk
    dsimp only
    split <;> rfl
  | _ => rfl

theorem foldl_record_onDisk (world : World σ) (events : List Event) (disk : Disk) :
    events.foldl record (world.onDisk disk) = (events.foldl record world).onDisk disk := by
  induction events generalizing world with
  | nil => rfl
  | cons event rest ih =>
    rw [List.foldl_cons, record_onDisk]
    exact ih (world.record event)

end World

namespace Run

/-- A world on a given file system, and the same one on another. -/
def Elsewhere (disk other : Disk) (world world' : World σ) : Prop :=
  world.disk = disk ∧ world' = world.onDisk other

/-- A run that begins on a given file system leaves it as it is, and another one does the same on
every other file system. -/
def Blind (disk : Disk) (run blind : Run σ α) : Prop :=
  ∀ (world : World σ) (other : Disk), world.disk = disk →
    Relates Eq (Elsewhere disk other) run blind world (world.onDisk other)

variable {disk : Disk}

/-- What a run does that does not look at the file system. -/
theorem Blind.apply {run blind : Run σ α} (h : Blind disk run blind) {world : World σ}
    (seen : world.disk = disk) (other : Disk) :
    blind (world.onDisk other) = ((run world).1, (run world).2.onDisk other) :=
  have same := h world other seen
  Prod.ext same.ends.eq same.after.2

theorem blind_pure (value : α) : Blind disk (pure value : Run σ α) (pure value) :=
  fun _ _ seen => relates_pure value ⟨seen, rfl⟩

theorem blind_fail (fault : Fault) : Blind disk (fail fault : Run σ α) (fail fault) :=
  fun _ _ seen => relates_fail rfl ⟨seen, rfl⟩

theorem blind_bind {run blind : Run σ α} {next next' : α → Run σ β} (h : Blind disk run blind)
    (later : ∀ value, Blind disk (next value) (next' value)) :
    Blind disk (run >>= next) (blind >>= next') := by
  intro world other seen
  refine relates_bind (h world other seen) fun value middle middle' _ elsewhere => ?_
  obtain ⟨kept, rfl⟩ := elsewhere
  exact later value middle other kept

theorem blind_attempt_bind {run blind : Run σ α} {next next' : Except Fault α → Run σ β}
    (h : Blind disk run blind) (later : ∀ outcome, Blind disk (next outcome) (next' outcome)) :
    Blind disk (attempt run >>= next) (attempt blind >>= next') := by
  intro world other seen
  refine relates_attempt_bind (h world other seen)
    fun outcome outcome' middle middle' _ ends elsewhere => ?_
  obtain ⟨kept, rfl⟩ := elsewhere
  rw [ends.eq]
  exact later outcome middle other kept

theorem blind_ite (condition : Prop) [Decidable condition] {run blind run' blind' : Run σ α}
    (h : Blind disk run blind) (otherwise : Blind disk run' blind') :
    Blind disk (if condition then run else run') (if condition then blind else blind') :=
  fun world other seen => relates_ite condition (h world other seen) (otherwise world other seen)

theorem blind_log (component : Component) (message : Text) :
    Blind disk (log component message : Run σ Unit) (log component message) := by
  intro world other seen
  refine ⟨.ok (), (world.disk_record _).trans seen, ?_⟩
  exact world.record_onDisk (.logged component message) other

theorem blind_spec : Blind disk (spec : Run σ WorkflowSpec) spec :=
  fun world _ seen => ⟨.ok world.spec, seen, rfl⟩

theorem blind_alterSpec (change : WorkflowSpec → WorkflowSpec) :
    Blind disk (alterSpec change : Run σ Unit) (alterSpec change) :=
  fun _ _ seen => ⟨.ok (), seen, rfl⟩

/-- A source whose sight is held fixed answers the same on every file system. -/
theorem blind_ask (query : Query) (reply : Disk → σ → Reply σ α) :
    Blind disk (ask query reply) (ask query fun _ => reply disk) := by
  rintro world other rfl
  let answer := reply world.disk world.remote
  have asked := World.foldl_record_onDisk (world.asking query answer.state) answer.events other
  exact ⟨.of_eq (fun _ => rfl) rfl, World.disk_foldl_record _ _, asked⟩

end Run

namespace Workflow

open Run

variable (source : Source σ) {disk : Disk}

theorem pinRef_blind : Blind disk (pinRef source) (pinRef (source.seeing disk)) := by
  have pin (ref : Text) : Blind disk
      (alterSpec (fun spec => { spec with version := ref }) >>= fun _ => pure ref : Run σ Text)
      (alterSpec (fun spec => { spec with version := ref }) >>= fun _ => pure ref) :=
    blind_bind (blind_alterSpec _) fun _ => blind_pure ref
  unfold pinRef
  refine blind_bind blind_spec fun spec => blind_ite _ (blind_pure _) ?_
  refine blind_attempt_bind (blind_ask _ _) fun outcome => ?_
  cases outcome with
  | ok ref => exact pin ref
  | error fault => exact blind_ite _ (pin usualRef) (blind_fail fault)

theorem resolveCommit_blind (owner repo ref : Text) :
    Blind disk (resolveCommit source owner repo ref)
      (resolveCommit (source.seeing disk) owner repo ref) := by
  unfold resolveCommit
  refine blind_attempt_bind (blind_ask _ _) fun outcome => ?_
  cases outcome with
  | ok commit => exact blind_bind (blind_log _ _) fun _ => blind_pure commit
  | error fault => exact blind_ite _ (blind_pure []) (blind_fail fault)

theorem firstFallback_blind (owner repo ref : Text) (otherwise : Fault) (places : List Text) :
    Blind disk (firstFallback source owner repo ref otherwise places)
      (firstFallback (source.seeing disk) owner repo ref otherwise places) := by
  induction places with
  | nil => exact blind_fail otherwise
  | cons path places ih =>
    unfold firstFallback
    refine blind_attempt_bind (blind_ask _ _) fun outcome => ?_
    cases outcome with
    | ok content => exact blind_bind (blind_log _ _) fun _ => blind_pure (path, content)
    | error fault => exact blind_ite _ ih (blind_fail fault)

theorem download_blind (owner repo path ref : Text) :
    Blind disk (download source owner repo path ref)
      (download (source.seeing disk) owner repo path ref) := by
  unfold download
  refine blind_attempt_bind (blind_ask _ _) fun outcome => ?_
  cases outcome with
  | ok content => exact blind_bind (blind_log _ _) fun _ => blind_pure (path, content)
  | error fault =>
    exact blind_ite _ (firstFallback_blind source owner repo ref _ _) (blind_fail fault)

/-- A workflow is fetched from its repository without a look at the file system. -/
theorem fetchRemote_blind : Blind disk (fetchRemote source) (fetchRemote (source.seeing disk)) := by
  unfold fetchRemote
  refine blind_bind blind_spec fun spec => ?_
  cases WorkflowSpec.ownerAndRepo? spec.slug with
  | none => exact blind_fail _
  | some slug =>
    obtain ⟨owner, repo⟩ := slug
    refine blind_bind (pinRef_blind source) fun ref => blind_bind (blind_log _ _) fun _ => ?_
    refine blind_bind (resolveCommit_blind source owner repo ref) fun commit => ?_
    refine blind_bind (download_blind source owner repo spec.path ref) fun found => ?_
    exact blind_pure _

end Workflow

end WorkflowInstall

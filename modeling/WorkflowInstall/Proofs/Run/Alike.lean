import WorkflowInstall.Proofs.Run.Tour

/-!
# Runs that differ in what they log

Two runs do the same but for the lines that they log. Nothing reads the log, so a difference in it
stays there.

## Main Definitions

* `Event.deeds` — the events without the lines that were logged
* `World.Alike` — two worlds are the same but for the log
* `Run.Likens` — two runs end in the same way and leave worlds that are the same but for the log

## Main Statements

* `Run.likens_bind`, `Run.likens_attempt` — rows of runs, and runs whose fault is looked at
* `Run.likens_log` — lines may differ
* `Run.likens_ask` — a source is asked the same, and answers the same
* `Workflow.pinRef_likens` — the version is pinned in the same way

## Design Notes

Whether lines are logged at all may differ too, so `World.Alike` says nothing about it.
-/

namespace WorkflowInstall

variable {σ α β : Type}

/-- Whether an event is more than a line that was logged. -/
def Event.isDeed : Event → Bool
  | .logged _ _ => false
  | _ => true

/-- The events without the lines that were logged. -/
def Event.deeds (events : List Event) : List Event := events.filter isDeed

theorem Event.deeds_cons (event : Event) (older : List Event) :
    deeds (event :: older) = deeds [event] ++ deeds older := List.filter_append [event] older

/-- Two worlds are the same but for the log. -/
structure World.Alike (one other : World σ) : Prop where
  disk : other.disk = one.disk
  git : other.git = one.git
  remote : other.remote = one.remote
  spec : other.spec = one.spec
  visited : other.visited = one.visited
  journal : other.journal = one.journal
  deeds : Event.deeds other.trace = Event.deeds one.trace

namespace World.Alike

theorem refl (world : World σ) : world.Alike world := ⟨rfl, rfl, rfl, rfl, rfl, rfl, rfl⟩

/-- The log is no deed, whether a line was logged or not. -/
theorem deeds_record (world : World σ) (event : Event) :
    Event.deeds (world.record event).trace = Event.deeds (event :: world.trace) := by
  cases event with
  | logged component message =>
    unfold World.record
    cases world.verbose <;> rfl
  | _ => rfl

variable {one other : World σ}

/-- Events that come to the same deeds may be recorded. -/
theorem record_deed (h : one.Alike other) {event event' : Event}
    (same : Event.deeds [event'] = Event.deeds [event]) :
    (one.record event).Alike (other.record event') := by
  have deeds : Event.deeds (other.record event').trace = Event.deeds (one.record event).trace := by
    rw [deeds_record, deeds_record, Event.deeds_cons, same, h.deeds, ← Event.deeds_cons]
  rcases one.record_cases event with first | ⟨first, -⟩ <;>
    rcases other.record_cases event' with second | ⟨second, -⟩ <;>
    exact ⟨by rw [first, second]; exact h.disk, by rw [first, second]; exact h.git,
      by rw [first, second]; exact h.remote, by rw [first, second]; exact h.spec,
      by rw [first, second]; exact h.visited, by rw [first, second]; exact h.journal, deeds⟩

theorem record (h : one.Alike other) (event : Event) :
    (one.record event).Alike (other.record event) := h.record_deed rfl

theorem logged (h : one.Alike other) (component : Component) (message message' : Text) :
    (one.record (.logged component message)).Alike (other.record (.logged component message')) :=
  h.record_deed rfl

theorem foldl_record (h : one.Alike other) (events : List Event) :
    (events.foldl World.record one).Alike (events.foldl World.record other) := by
  induction events generalizing one other with
  | nil => exact h
  | cons event rest ih => exact ih (h.record event)

end World.Alike

namespace Run

/-- Two runs that begin in worlds that are the same but for the log end in the same way, in worlds
that are the same but for the log. -/
def Likens (run other : Run σ α) : Prop :=
  ∀ world world' : World σ, world.Alike world' →
    (other world').1 = (run world).1 ∧ (run world).2.Alike (other world').2

/-! ## Runs in a row -/

theorem likens_pure (value : α) : Likens (pure value : Run σ α) (pure value) :=
  fun _ _ alike => ⟨rfl, alike⟩

theorem likens_fail (fault : Fault) : Likens (fail fault : Run σ α) (fail fault) :=
  fun _ _ alike => ⟨rfl, alike⟩

theorem likens_bind {run other : Run σ α} {next next' : α → Run σ β} (h : Likens run other)
    (later : ∀ value, Likens (next value) (next' value)) :
    Likens (run >>= next) (other >>= next') := by
  intro world world' alike
  obtain ⟨ends, after⟩ := h world world' alike
  cases outcome : (run world).1 with
  | error fault =>
    rw [bind_of_error outcome, bind_of_error (ends.trans outcome)]
    exact ⟨rfl, after⟩
  | ok value =>
    rw [bind_of_ok outcome, bind_of_ok (ends.trans outcome)]
    exact later value _ _ after

theorem likens_map (change : α → β) {run other : Run σ α} (h : Likens run other) :
    Likens (change <$> run) (change <$> other) :=
  likens_bind h fun value => likens_pure (change value)

theorem likens_attempt {run other : Run σ α} (h : Likens run other) :
    Likens (attempt run) (attempt other) := by
  intro world world' alike
  obtain ⟨ends, after⟩ := h world world' alike
  rw [attempt_apply, attempt_apply, ends]
  exact ⟨rfl, after⟩

theorem likens_ite (condition : Prop) [Decidable condition] {run other run' other' : Run σ α}
    (h : Likens run other) (otherwise : Likens run' other') :
    Likens (if condition then run else run') (if condition then other else other') := by
  by_cases holds : condition
  · rwa [if_pos holds, if_pos holds]
  · rwa [if_neg holds, if_neg holds]

/-! ## Single runs -/

/-- Lines may differ. -/
theorem likens_log (component : Component) (message message' : Text) :
    Likens (log component message : Run σ Unit) (log component message') :=
  fun _ _ alike => ⟨rfl, alike.logged component message message'⟩

theorem likens_ofDisk (reading : Disk → Except DiskFault α) :
    Likens (ofDisk reading : Run σ α) (ofDisk reading) := by
  intro world world' alike
  unfold ofDisk
  rw [alike.disk]
  cases reading world.disk <;> exact ⟨rfl, alike⟩

theorem likens_spec : Likens (spec : Run σ WorkflowSpec) spec :=
  fun _ _ alike => ⟨congrArg Except.ok alike.spec, alike⟩

theorem likens_visited : Likens (visited : Run σ (List Text)) visited :=
  fun _ _ alike => ⟨congrArg Except.ok alike.visited, alike⟩

theorem likens_cwd : Likens (cwd : Run σ Text) cwd :=
  fun _ _ alike => ⟨congrArg Except.ok (congrArg Disk.here alike.disk), alike⟩

theorem likens_visit (reference : Text) : Likens (visit reference : Run σ Unit) (visit reference) :=
  fun _ _ alike => ⟨rfl, { alike with visited := congrArg (List.cons reference) alike.visited }⟩

theorem likens_alterSpec (change : WorkflowSpec → WorkflowSpec) :
    Likens (alterSpec change : Run σ Unit) (alterSpec change) :=
  fun _ _ alike => ⟨rfl, { alike with spec := congrArg change alike.spec }⟩

theorem likens_makeDirs (path : LocalPath) :
    Likens (makeDirs path : Run σ Unit) (makeDirs path) := by
  intro world world' alike
  unfold makeDirs
  rw [alike.disk]
  cases world.disk.makeDirs path with
  | mk outcome disk => cases outcome <;> exact ⟨rfl, { alike with disk := rfl }⟩

theorem likens_writeFile (path : Text) (content : Bytes) :
    Likens (writeFile path content : Run σ Unit) (writeFile path content) := by
  intro world world' alike
  unfold writeFile
  rw [alike.disk]
  cases world.disk.writable path with
  | error fault => exact ⟨rfl, alike⟩
  | ok location =>
    have put : World.Alike { world with disk := world.disk.put location (.file content) }
      { world' with disk := world.disk.put location (.file content) } := { alike with disk := rfl }
    exact ⟨rfl, put.record (.wrote location (world.disk.file? location) content)⟩

theorem likens_noteWritten (path : Text) (earlier : Option Bytes) :
    Likens (noteWritten path earlier : Run σ Unit) (noteWritten path earlier) := by
  intro world world' alike
  rw [noteWritten_apply, noteWritten_apply]
  refine ⟨rfl, { alike with journal := ?_ }⟩
  show Option.map _ world'.journal = Option.map _ world.journal
  rw [alike.journal, alike.disk]

/-- A source sees the same, and answers the same. -/
theorem likens_ask (query : Query) (reply : Disk → σ → Reply σ α) :
    Likens (ask query reply) (ask query reply) := by
  intro world world' alike
  rw [ask_apply, ask_apply, alike.disk, alike.remote]
  have asking := alike.record (.asked query)
  refine ⟨rfl, World.Alike.foldl_record ?_ _⟩
  exact { asking with remote := rfl }

end Run

open Run in
theorem Workflow.pinRef_likens (source : Source σ) :
    Likens (pinRef source) (pinRef source) := by
  have pin (ref : Text) : Likens
      (alterSpec (fun spec => { spec with version := ref }) >>= fun _ => pure ref : Run σ Text)
      (alterSpec (fun spec => { spec with version := ref }) >>= fun _ => pure ref) :=
    likens_bind (likens_alterSpec _) fun _ => likens_pure ref
  unfold pinRef
  refine likens_bind likens_spec fun spec => likens_ite _ (likens_pure _) ?_
  refine likens_bind (likens_attempt (likens_ask _ _)) fun outcome => ?_
  cases outcome with
  | ok ref => exact pin ref
  | error fault => exact likens_ite _ (pin usualRef) (likens_fail fault)

end WorkflowInstall

import WorkflowInstall.Proofs.Run.Tour

/-!
# Noting downloads

A trace says which files were asked for, but not what the disk was like at that moment. A source can
note both, and a run that asks such a source does the same as before.

## Main Definitions

* `Source.noting` — a source that notes its downloads
* `Run.Notes` — a run does the same with a source that notes its downloads

## Main Statements

* `Run.notes_bind`, `Run.notes_attempt` — a row of runs does the same when each of them does
* `Run.notes_askFile` — asking a source that notes its downloads
* `Workflow.pinRef_notes` — pinning the version does the same

## Design Notes

Only the runs that ask a source know its state, so all others are the same run at another type, and
their laws hold by computation. A source sees the disk, and it could answer by its notes; the one
that is built here gives the answers of the source below.
-/

namespace WorkflowInstall

variable {σ : Type}

/-- A source that notes its downloads, the last one first, and else is the same. -/
def Source.noting (source : Source σ) : Source (σ × List Download) where
  file disk state owner repo path ref :=
    let reply := source.file disk state.1 owner repo path ref
    { outcome := reply.outcome
      state := (reply.state, ⟨disk, owner, repo, path, ref⟩ :: state.2)
      events := reply.events
      traffic := reply.traffic }
  commit disk state owner repo ref :=
    let reply := source.commit disk state.1 owner repo ref
    { outcome := reply.outcome
      state := (reply.state, state.2)
      events := reply.events
      traffic := reply.traffic }
  branch disk state slug :=
    let reply := source.branch disk state.1 slug
    { outcome := reply.outcome
      state := (reply.state, state.2)
      events := reply.events
      traffic := reply.traffic }

/-- The notes after some downloads are these downloads. -/
theorem Download.stateAfter_noting (source : Source σ) (state : σ)
    (earlier downloads : List Download) :
    (stateAfter source.noting (state, earlier) downloads).2 = downloads ++ earlier := by
  induction downloads with
  | nil => rfl
  | cons download rest ih => exact congrArg (List.cons download) ih

/-- The world with the notes of a source. -/
def World.noting (world : World σ) (downloads : List Download) : World (σ × List Download) :=
  { disk := world.disk, git := world.git, remote := (world.remote, downloads), spec := world.spec,
    visited := world.visited, journal := world.journal, verbose := world.verbose,
    trace := world.trace }

theorem World.noting_record (world : World σ) (event : Event) (downloads : List Download) :
    (world.noting downloads).record event = (world.record event).noting downloads := by
  cases event with
  | logged component message =>
    show (if world.verbose then _ else _) = World.noting (if world.verbose then _ else _) downloads
    split <;> rfl
  | _ => rfl

theorem World.noting_foldl_record (events : List Event) (world : World σ)
    (downloads : List Download) :
    events.foldl World.record (world.noting downloads) =
      (events.foldl World.record world).noting downloads := by
  induction events generalizing world with
  | nil => rfl
  | cons event rest ih => rw [List.foldl_cons, noting_record, ih, List.foldl_cons]

namespace Run

variable {α β : Type}

/-- A run does the same with a source that notes its downloads, and more may be noted then. -/
def Notes (noted : Run (σ × List Download) α) (run : Run σ α) : Prop :=
  ∀ world downloads, ∃ more,
    noted (world.noting downloads) = ((run world).1, (run world).2.noting (more ++ downloads))

/-- A run that asks nothing does the same when it does so at both types. -/
theorem notes_of_eq {noted : Run (σ × List Download) α} {run : Run σ α}
    (same : ∀ world downloads,
      noted (world.noting downloads) = ((run world).1, (run world).2.noting downloads)) :
    Notes noted run := fun world downloads => ⟨[], same world downloads⟩

theorem notes_pure (value : α) : Notes (pure value : Run (σ × List Download) α) (pure value) :=
  notes_of_eq fun _ _ => rfl

theorem notes_fail (fault : Fault) :
    Notes (fail fault : Run (σ × List Download) α) (fail fault) := notes_of_eq fun _ _ => rfl

section Rows

variable {noted : Run (σ × List Download) α} {run : Run σ α}

theorem notes_bind {noted_next : α → Run (σ × List Download) β} {next : α → Run σ β}
    (h : Notes noted run) (later : ∀ value, Notes (noted_next value) (next value)) :
    Notes (noted >>= noted_next) (run >>= next) := by
  intro world downloads
  obtain ⟨more, same⟩ := h world downloads
  rw [bind_apply, bind_apply, same]
  cases run world with
  | mk outcome after =>
    cases outcome with
    | error fault => exact ⟨more, rfl⟩
    | ok value =>
      obtain ⟨others, rest⟩ := later value after (more ++ downloads)
      exact ⟨others ++ more, by rw [List.append_assoc]; exact rest⟩

theorem notes_map (change : α → β) (h : Notes noted run) :
    Notes (change <$> noted) (change <$> run) :=
  notes_bind h fun value => notes_pure (change value)

theorem notes_attempt (h : Notes noted run) : Notes (attempt noted) (attempt run) := by
  intro world downloads
  obtain ⟨more, same⟩ := h world downloads
  refine ⟨more, ?_⟩
  rw [attempt_apply, attempt_apply, same]

theorem notes_ite (condition : Prop) [Decidable condition] {noted_other : Run (σ × List Download) α}
    {other : Run σ α} (h : Notes noted run) (otherwise : Notes noted_other other) :
    Notes (if condition then noted else noted_other) (if condition then run else other) := by
  by_cases holds : condition
  · rwa [if_pos holds, if_pos holds]
  · rwa [if_neg holds, if_neg holds]

end Rows

/-! ## Runs that ask nothing -/

theorem notes_ofDisk (reading : Disk → Except DiskFault α) :
    Notes (ofDisk reading : Run (σ × List Download) α) (ofDisk reading) := by
  refine notes_of_eq fun world downloads => ?_
  rw [ofDisk, ofDisk, show (world.noting downloads).disk = world.disk from rfl]
  cases reading world.disk <;> rfl

theorem notes_log (component : Component) (message : Text) :
    Notes (log component message : Run (σ × List Download) Unit) (log component message) :=
  notes_of_eq fun world downloads =>
    congrArg (Prod.mk (Except.ok ())) (world.noting_record (.logged component message) downloads)

theorem notes_writeFile (path : Text) (content : Bytes) :
    Notes (writeFile path content : Run (σ × List Download) Unit) (writeFile path content) := by
  refine notes_of_eq fun world downloads => ?_
  rw [writeFile, writeFile, show (world.noting downloads).disk = world.disk from rfl]
  cases world.disk.writable path <;> rfl

theorem notes_makeDirs (path : LocalPath) :
    Notes (makeDirs path : Run (σ × List Download) Unit) (makeDirs path) := by
  refine notes_of_eq fun world downloads => ?_
  rw [makeDirs, makeDirs, show (world.noting downloads).disk = world.disk from rfl]
  cases world.disk.makeDirs path with
  | mk outcome disk => cases outcome <;> rfl

theorem notes_noteWritten (path : Text) (earlier : Option Bytes) :
    Notes (noteWritten path earlier : Run (σ × List Download) Unit) (noteWritten path earlier) :=
  notes_of_eq fun world downloads => by rw [noteWritten_apply, noteWritten_apply]; rfl

theorem notes_visit (reference : Text) :
    Notes (visit reference : Run (σ × List Download) Unit) (visit reference) :=
  notes_of_eq fun _ _ => rfl

theorem notes_alterSpec (change : WorkflowSpec → WorkflowSpec) :
    Notes (alterSpec change : Run (σ × List Download) Unit) (alterSpec change) :=
  notes_of_eq fun _ _ => rfl

theorem notes_spec : Notes (spec : Run (σ × List Download) WorkflowSpec) spec :=
  notes_of_eq fun _ _ => rfl

theorem notes_visited : Notes (visited : Run (σ × List Download) (List Text)) visited :=
  notes_of_eq fun _ _ => rfl

theorem notes_cwd : Notes (cwd : Run (σ × List Download) Text) cwd :=
  notes_of_eq fun _ _ => rfl

/-! ## Runs that ask a source -/

/-- A question is answered in the same way, and more may be noted. -/
theorem notes_ask (query : Query) {noted : Disk → σ × List Download → Reply (σ × List Download) α}
    {reply : Disk → σ → Reply σ α}
    (same : ∀ disk state downloads, ∃ more,
      (noted disk (state, downloads)).outcome = (reply disk state).outcome ∧
        (noted disk (state, downloads)).events = (reply disk state).events ∧
        (noted disk (state, downloads)).state = ((reply disk state).state, more ++ downloads)) :
    Notes (ask query noted) (ask query reply) := by
  intro world downloads
  obtain ⟨more, outcome, events, state⟩ := same world.disk world.remote downloads
  refine ⟨more, ?_⟩
  have asking :
      (world.noting downloads).asking query (noted world.disk (world.remote, downloads)).state =
        (world.asking query (reply world.disk world.remote).state).noting (more ++ downloads) := by
    rw [state]
    rfl
  rw [ask_apply, ask_apply]
  show ((noted world.disk (world.remote, downloads)).outcome,
    (noted world.disk (world.remote, downloads)).events.foldl World.record
      ((world.noting downloads).asking query
        (noted world.disk (world.remote, downloads)).state)) = _
  rw [outcome, events, asking, World.noting_foldl_record]

variable (source : Source σ)

theorem notes_askFile (owner repo path ref : Text) :
    Notes (askFile source.noting owner repo path ref) (askFile source owner repo path ref) :=
  notes_ask _ fun disk _ _ => ⟨[⟨disk, owner, repo, path, ref⟩], rfl, rfl, rfl⟩

theorem notes_askBranch (slug : Text) :
    Notes (askBranch source.noting slug) (askBranch source slug) :=
  notes_ask _ fun _ _ _ => ⟨[], rfl, rfl, rfl⟩

end Run

open Run in
theorem Workflow.pinRef_notes (source : Source σ) :
    Run.Notes (pinRef source.noting) (pinRef source) := by
  have pin (ref : Text) : Notes
      (alterSpec (fun spec => { spec with version := ref }) >>= fun _ => pure ref :
        Run (σ × List Download) Text)
      (alterSpec (fun spec => { spec with version := ref }) >>= fun _ => pure ref) :=
    notes_bind (notes_alterSpec _) fun _ => notes_pure ref
  unfold pinRef
  refine notes_bind notes_spec fun spec => notes_ite _ (notes_pure _) ?_
  refine notes_bind (notes_attempt (notes_askBranch source spec.slug)) fun outcome => ?_
  cases outcome with
  | ok ref => exact pin ref
  | error fault => exact notes_ite _ (pin usualRef) (notes_fail fault)

end WorkflowInstall

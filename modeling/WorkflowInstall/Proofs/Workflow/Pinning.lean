import WorkflowInstall.Proofs.Run.Tour

/-!
# Pinning the version

Before anything is downloaded for a workflow, its version is pinned: the default branch is asked for
when none is given.

## Main Definitions

* `World.atVersion` — the workflow at hand has a version
* `Workflow.branchOf` — what a source answers when it is asked for the default branch
* `Workflow.Pinned` — all that pinning the version does

## Main Statements

* `Workflow.pinRef_of_version`, `Workflow.pinRef_of_unset` — how the version is pinned
* `Workflow.pinRef_pinned` — however it ends, that is all
-/

namespace WorkflowInstall

variable {σ : Type}

/-- The world in which the workflow at hand has a version. -/
def World.atVersion (world : World σ) (version : Text) : World σ :=
  { world with spec := { world.spec with version := version } }

namespace Workflow

open Run

/-- What a source answers when it is asked for the default branch. -/
def branchOf (source : Source σ) (world : World σ) : Except Fault Text :=
  (source.branch world.disk world.remote world.spec.slug).outcome

/-- A version that was given is kept. -/
theorem pinRef_of_version (source : Source σ) {world : World σ}
    (given : world.spec.version ≠ []) :
    pinRef source world = (.ok world.spec.version, world) := by
  rw [pinRef, bind_apply, show spec world = (.ok world.spec, world) from rfl]
  dsimp only
  rw [if_pos given]
  rfl

/-- The default branch becomes the version, or the usual revision when its lookup fails. -/
theorem pinRef_of_unset (source : Source σ) {world : World σ}
    (unset : world.spec.version = []) :
    pinRef source world =
      let asked := (askBranch source world.spec.slug world).2
      match branchOf source world with
      | .ok ref => (.ok ref, asked.atVersion ref)
      | .error fault =>
        if fault.isLookupFailure then (.ok usualRef, asked.atVersion usualRef)
        else (.error fault, asked) := by
  rw [pinRef, bind_apply, show spec world = (.ok world.spec, world) from rfl]
  dsimp only
  rw [if_neg (not_not_intro unset), bind_apply, attempt_apply]
  dsimp only
  rw [show (askBranch source world.spec.slug world).1 = branchOf source world from rfl]
  cases branchOf source world with
  | ok ref => rfl
  | error fault =>
    dsimp only
    split <;> rfl

/-- Pinning the version gives the version that the workflow has then. It visits, downloads and
writes nothing. -/
structure Pinned (source : Source σ) (before : World σ) (outcome : Except Fault Text)
    (after : World σ) : Prop where
  disk : after.disk = before.disk
  visited : after.visited = before.visited
  spec : ∃ version, after.spec = { before.spec with version := version }
  version : ∀ ref, outcome = .ok ref → after.spec.version = ref
  trace : ∃ events, after.trace = events ++ before.trace ∧ ∀ older,
    Event.downloads (events ++ older) = Event.downloads older ∧
      Event.saves (events ++ older) = Event.saves older
  writes : Event.writes after.trace = Event.writes before.trace
  remote : after.remote = before.remote ∨
    after.remote = (source.branch before.disk before.remote before.spec.slug).state

variable (source : Source σ) (world : World σ)

/-- The default branch was asked for, and then a version was put into the spec. -/
theorem pinned_of_asked {outcome : Except Fault Text} (version : Text)
    (ref : ∀ ref, outcome = .ok ref → version = ref) :
    Pinned source world outcome ((askBranch source world.spec.slug world).2.atVersion version) := by
  have quiet := quiet_ask (.branch world.spec.slug)
    (fun disk state => source.branch disk state world.spec.slug) world
  have idle : (world.asking (.branch world.spec.slug)
      (source.branch world.disk world.remote world.spec.slug).state).Idle
        (askBranch source world.spec.slug world).2 :=
    idle_ask (.branch world.spec.slug) fun disk state => source.branch disk state world.spec.slug
  obtain ⟨events, trace, traffic⟩ := idle.trace
  have told (older : List Event) := Event.queries_saves_of_isTraffic traffic
    (.asked (.branch world.spec.slug) :: older)
  refine
    { disk := quiet.disk
      visited := idle.visited
      spec := ⟨version, congrArg (fun spec => { spec with version := version }) idle.spec⟩
      version := ref
      trace := ⟨events ++ [.asked (.branch world.spec.slug)], ?_, fun older => ?_⟩
      writes := ?_
      remote := Or.inr idle.remote }
  · rw [List.append_assoc]
    exact trace
  · rw [List.append_assoc, List.singleton_append, (told older).2, Event.downloads, (told older).1]
    exact ⟨rfl, rfl⟩
  · have silent := Event.writes_of_quiet quiet
    exact silent

/-- The version was given. -/
theorem pinned_refl : Pinned source world (.ok world.spec.version) world where
  disk := rfl
  visited := rfl
  spec := ⟨world.spec.version, rfl⟩
  version ref same := by cases same; rfl
  trace := ⟨[], rfl, fun _ => ⟨rfl, rfl⟩⟩
  writes := rfl
  remote := Or.inl rfl

/-- However it ends, pinning the version visits, downloads and writes nothing. -/
theorem pinRef_pinned : Pinned source world (pinRef source world).1 (pinRef source world).2 := by
  have asked (version : Text) : Pinned source world (.ok version) _ :=
    pinned_of_asked source world version fun ref same => by cases same; rfl
  by_cases given : world.spec.version ≠ []
  · rw [pinRef_of_version source given]
    exact pinned_refl source world
  · rw [pinRef_of_unset source (Decidable.of_not_not given)]
    dsimp only
    cases branchOf source world with
    | ok ref => exact asked ref
    | error fault =>
      dsimp only
      split
      · exact asked usualRef
      -- Nothing is put into the spec, so its version is the one it had.
      · exact pinned_of_asked source world (askBranch source world.spec.slug world).2.spec.version
          fun ref same => absurd same (by simp)

/-- After the version was pinned, the trace tells the downloads of a tour and what was written,
whatever was done before. -/
theorem Pinned.told_append {source : Source σ} {world middle after : World σ}
    {outcome : Except Fault Text} {tour : List Visit} (pinned : Pinned source world outcome middle)
    (tours : middle.Tours source after tour) :
    ∃ events, after.trace = events ++ world.trace ∧ ∀ older,
      Event.downloads (events ++ older) =
          (Visit.downloads tour).map Download.query ++ Event.downloads older ∧
        Event.saves (events ++ older) = tour.filterMap Visit.save? ++ Event.saves older := by
  obtain ⟨first, trace, nothing⟩ := pinned.trace
  obtain ⟨later, trace', told⟩ := tours.told_append
  refine ⟨later ++ first, by rw [trace', trace, List.append_assoc], fun older => ?_⟩
  rw [List.append_assoc, (told _).1, (told _).2, (nothing older).1, (nothing older).2]
  exact ⟨rfl, rfl⟩

/-- After the version was pinned, the trace tells the downloads of a tour and what was written. -/
theorem Pinned.told {source : Source σ} {world middle after : World σ} {outcome : Except Fault Text}
    {tour : List Visit} (pinned : Pinned source world outcome middle)
    (tours : middle.Tours source after tour) :
    ∃ events, after.trace = events ++ world.trace ∧
      Event.downloads events = (Visit.downloads tour).map Download.query ∧
      Event.saves events = tour.filterMap Visit.save? := by
  obtain ⟨events, trace, told⟩ := pinned.told_append tours
  have alone := told []
  rw [List.append_nil] at alone
  exact ⟨events, trace, alone.1.trans (List.append_nil _), alone.2.trans (List.append_nil _)⟩

end Workflow

end WorkflowInstall

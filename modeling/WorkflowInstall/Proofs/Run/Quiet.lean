import WorkflowInstall.Proofs.Run.Rules
import WorkflowInstall.Workflow

/-!
# Runs that leave the files alone

Most of what a run does is quiet: it asks, looks things up and logs lines, and neither the file
system nor the journal changes.

## Main Definitions

* `World.Quiet` — the files and the journal are the same, and nothing that was done touched them
* `Event.lastQuery?` — the last question asked

## Main Statements

* `Run.quiet_ask` — asking a source is quiet
* `Workflow.fetch_quiet` — fetching a workflow is quiet
-/

namespace WorkflowInstall

/-- Whether an event leaves the files alone. -/
def Event.isQuiet : Event → Bool
  | .wrote _ _ _ => false
  | .removed _ => false
  | _ => true

theorem Event.isQuiet_of_isTraffic {event : Event} (h : event.isTraffic = true) :
    event.isQuiet = true := by
  cases event <;> first | rfl | exact absurd h Bool.false_ne_true

/-- The last question asked, where the last event comes first. -/
def Event.lastQuery? : List Event → Option Query
  | [] => none
  | .asked query :: _ => some query
  | _ :: events => lastQuery? events

variable {σ α : Type}

namespace World

/-- One world follows another one, and the files and the journal are the same. -/
structure Quiet (before after : World σ) : Prop where
  disk : after.disk = before.disk
  journal : after.journal = before.journal
  name : after.spec.name = before.spec.name
  slug : after.spec.slug = before.spec.slug
  trace : ∃ events, after.trace = events ++ before.trace ∧ ∀ event ∈ events, event.isQuiet = true

theorem Quiet.refl (world : World σ) : world.Quiet world :=
  ⟨rfl, rfl, rfl, rfl, [], rfl, fun _ mem => absurd mem List.not_mem_nil⟩

theorem Quiet.trans {before after last : World σ} (first : before.Quiet after)
    (second : after.Quiet last) : before.Quiet last := by
  obtain ⟨events, trace, quiet⟩ := first.trace
  obtain ⟨more, trace', quiet'⟩ := second.trace
  refine ⟨second.disk.trans first.disk, second.journal.trans first.journal,
    second.name.trans first.name, second.slug.trans first.slug, more ++ events, ?_, ?_⟩
  · rw [trace', trace, List.append_assoc]
  · intro event mem
    exact (List.mem_append.mp mem).elim (quiet' event) (quiet event)

/-- An event is recorded, or it is a line that is not logged. -/
theorem record_cases (world : World σ) (event : Event) :
    world.record event = { world with trace := event :: world.trace } ∨
      world.record event = world ∧ event.isTraffic = true := by
  cases event with
  | logged component message =>
    unfold record
    cases world.verbose with
    | true => exact Or.inl rfl
    | false => exact Or.inr ⟨rfl, rfl⟩
  | _ => exact Or.inl rfl

theorem quiet_record (world : World σ) (event : Event) (h : event.isQuiet = true) :
    world.Quiet (world.record event) := by
  rcases world.record_cases event with recorded | ⟨recorded, -⟩
  · rw [recorded]
    exact ⟨rfl, rfl, rfl, rfl, [event], rfl, by simpa using h⟩
  · rw [recorded]
    exact .refl world

theorem quiet_foldl_record {events : List Event} (h : ∀ event ∈ events, event.isQuiet = true)
    (world : World σ) : world.Quiet (events.foldl record world) := by
  induction events generalizing world with
  | nil => exact .refl world
  | cons event rest ih =>
    have first := world.quiet_record event (h event List.mem_cons_self)
    exact first.trans (ih (fun other mem => h other (List.mem_cons_of_mem event mem)) _)

end World

/-! ## Quiet runs -/

namespace Run

theorem quiet_of_within {run : Run σ α} {world : World σ} (h : Within World.Quiet run world) :
    world.Quiet (run world).2 := of_within (.refl world) .trans h

theorem quiet_of_returns {run : Run σ α} {world after : World σ} {value : α}
    (quiet : world.Quiet (run world).2) (h : Returns run world value after) :
    world.Quiet after := by
  rwa [show run world = _ from h] at quiet

theorem quiet_log (component : Component) (message : Text) (world : World σ) :
    world.Quiet (log component message world).2 :=
  world.quiet_record (.logged component message) rfl

theorem quiet_visit (reference : Text) (world : World σ) :
    world.Quiet (visit reference world).2 := ⟨rfl, rfl, rfl, rfl, [], rfl, by simp⟩

theorem quiet_forgetVisited (world : World σ) : world.Quiet (forgetVisited world).2 :=
  ⟨rfl, rfl, rfl, rfl, [], rfl, by simp⟩

theorem quiet_alterSpec {change : WorkflowSpec → WorkflowSpec} {world : World σ}
    (name : (change world.spec).name = world.spec.name)
    (slug : (change world.spec).slug = world.spec.slug) :
    world.Quiet (alterSpec change world).2 := ⟨rfl, rfl, name, slug, [], rfl, by simp⟩

section Ask

variable (query : Query) (reply : Disk → σ → Reply σ α) (world : World σ)

/-- A source touches no file. -/
theorem quiet_ask : world.Quiet (ask query reply world).2 := by
  -- The question is recorded first, and then the traffic that the source reports.
  have traffic := (reply world.disk world.remote).traffic
  have asked : world.Quiet
      { world.record (.asked query) with remote := (reply world.disk world.remote).state } :=
    ⟨rfl, rfl, rfl, rfl, [.asked query], rfl, by simp [Event.isQuiet]⟩
  exact asked.trans (World.quiet_foldl_record (fun event mem =>
    Event.isQuiet_of_isTraffic (List.all_eq_true.mp traffic event mem)) _)

/-- After a question it is the last one asked, because a source asks no other one. -/
theorem lastQuery?_ask : Event.lastQuery? (ask query reply world).2.trace = some query := by
  have traffic := (reply world.disk world.remote).traffic
  have stays (events : List Event) (h : events.all Event.isTraffic = true) (before : World σ) :
      Event.lastQuery? (events.foldl World.record before).trace =
        Event.lastQuery? before.trace := by
    induction events generalizing before with
    | nil => rfl
    | cons event rest ih =>
      rw [List.all_cons, Bool.and_eq_true] at h
      rw [List.foldl_cons, ih h.2]
      rcases before.record_cases event with recorded | ⟨recorded, -⟩
      · rw [recorded]
        cases event with
        | asked other => exact absurd h.1 Bool.false_ne_true
        | _ => rfl
      · rw [recorded]
  exact stays _ traffic _

end Ask

end Run

/-! ## Fetching a workflow -/

namespace Workflow

open Run

variable (source : Source σ) (world : World σ)

theorem pinRef_quiet : world.Quiet (pinRef source world).2 := by
  refine quiet_of_within ?_
  unfold pinRef
  refine within_spec_bind ?_
  split
  · exact within_pure _
  · have pin (ref : Text) (before : World σ) : Within World.Quiet (do
        Run.alterSpec fun spec => { spec with version := ref }
        pure ref) before :=
      within_bind (within_single (quiet_alterSpec rfl rfl)) fun _ _ _ => within_pure _
    refine within_attempt_bind (within_single (quiet_ask _ _ world)) fun outcome after _ => ?_
    cases outcome with
    | ok ref => exact pin ref after
    | error fault =>
      dsimp only
      split
      · exact pin usualRef after
      · exact within_fail fault

theorem fetchLocal_quiet : world.Quiet (fetchLocal world).2 := by
  refine quiet_of_within ?_
  unfold fetchLocal
  refine within_spec_bind (within_bind (within_single (quiet_log _ _ world)) fun _ logged _ => ?_)
  refine within_attempt_bind (within_ofDisk _) fun outcome after _ => ?_
  split
  · exact within_pure _
  · exact within_fail _
  · exact within_fail _

theorem resolveCommit_quiet (owner repo ref : Text) :
    world.Quiet (resolveCommit source owner repo ref world).2 := by
  refine quiet_of_within ?_
  unfold resolveCommit
  refine within_attempt_bind (within_single (quiet_ask _ _ world)) fun outcome after _ => ?_
  cases outcome with
  | ok commit =>
    exact within_bind (within_single (quiet_log _ _ after)) fun _ _ _ => within_pure _
  | error fault =>
    dsimp only
    split
    · exact within_pure _
    · exact within_fail fault

theorem firstFallback_quiet (owner repo ref : Text) (otherwise : Fault) (paths : List Text) :
    world.Quiet (firstFallback source owner repo ref otherwise paths world).2 := by
  induction paths generalizing world with
  | nil => exact .refl world
  | cons path paths ih =>
    refine quiet_of_within ?_
    unfold firstFallback
    refine within_attempt_bind (within_single (quiet_ask _ _ world)) fun outcome after _ => ?_
    cases outcome with
    | ok content =>
      exact within_bind (within_single (quiet_log _ _ after)) fun _ _ _ => within_pure _
    | error fault =>
      dsimp only
      split
      · exact within_single (ih after)
      · exact within_fail fault

theorem download_quiet (owner repo path ref : Text) :
    world.Quiet (download source owner repo path ref world).2 := by
  refine quiet_of_within ?_
  unfold download
  refine within_attempt_bind (within_single (quiet_ask _ _ world)) fun outcome after _ => ?_
  cases outcome with
  | ok content =>
    exact within_bind (within_single (quiet_log _ _ after)) fun _ _ _ => within_pure _
  | error fault =>
    dsimp only
    split
    · exact within_single (firstFallback_quiet source after owner repo ref _ _)
    · exact within_fail fault

theorem fetch_quiet : world.Quiet (fetch source world).2 := by
  refine quiet_of_within ?_
  unfold fetch
  refine within_spec_bind ?_
  split
  · exact within_single (fetchLocal_quiet world)
  · unfold fetchRemote
    refine within_spec_bind ?_
    split
    · exact within_fail _
    · refine within_bind (within_single (pinRef_quiet source world)) fun ref pinned _ => ?_
      refine within_bind (within_single (quiet_log _ _ pinned)) fun _ logged _ => ?_
      refine within_bind (within_single (resolveCommit_quiet source logged _ _ _)) ?_
      intro commit resolved _
      refine within_bind (within_single (download_quiet source resolved _ _ _ _)) ?_
      intro _ _ _
      exact within_pure _

end Workflow

end WorkflowInstall

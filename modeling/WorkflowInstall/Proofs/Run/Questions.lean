import WorkflowInstall.Proofs.Run.Tour

/-!
# What a run asks and writes

A trace grows by the questions that are asked and the files that are written. Here is what each of
the basic runs adds to it.

## Main Definitions

* `World.Tells` — all that was asked and written between two worlds

## Main Statements

* `World.Tells.trans` — what was asked and written in a row
* `Event.saves_eq_of_told` — what events tell alone
* `World.tells_ask`, `World.tells_wrote`, `World.Tours.tells` — a question, a file that is written,
  and a tour
-/

namespace WorkflowInstall

variable {σ α : Type}

/-- When events tell the same whatever was done before, what they tell after some others is what
they tell alone. -/
theorem Event.saves_eq_of_told {events older : List Event} {saves told : List (Query × Bytes)}
    (tells : ∀ earlier, Event.saves (events ++ earlier) = told ++ Event.saves earlier)
    (all : Event.saves (events ++ older) = saves ++ Event.saves older) :
    Event.saves events = saves := by
  have alone := tells []
  rw [List.append_nil, show Event.saves [] = [] from rfl, List.append_nil] at alone
  rw [alone]
  exact List.append_cancel_right ((tells older).symm.trans all)

namespace World

/-- All that was asked and written between two worlds with the same workflow at hand, the last
question and the last file first. -/
structure Tells (before after : World σ) (queries : List Query) (saves : List (Query × Bytes)) :
    Prop where
  spec : after.spec = before.spec
  queries : Event.queries after.trace = queries ++ Event.queries before.trace
  saves : Event.saves after.trace = saves ++ Event.saves before.trace

variable {before middle after : World σ} {queries more : List Query}
  {saves others : List (Query × Bytes)}

theorem Tells.refl (world : World σ) : world.Tells world [] [] := ⟨rfl, rfl, rfl⟩

theorem Tells.trans (first : before.Tells middle queries saves)
    (later : middle.Tells after more others) :
    before.Tells after (more ++ queries) (others ++ saves) where
  spec := later.spec.trans first.spec
  queries := by rw [later.queries, first.queries, List.append_assoc]
  saves := by rw [later.saves, first.saves, List.append_assoc]

/-- What was asked last is the first one that is told. -/
theorem Tells.lastQuery? {query : Query} (h : before.Tells after (query :: more) saves) :
    Event.lastQuery? after.trace = some query := by
  rw [Event.lastQuery?_eq_head?, h.queries]
  rfl

theorem Idle.tells (idle : before.Idle after) : before.Tells after [] [] := by
  obtain ⟨events, trace, traffic⟩ := idle.trace
  have nothing := Event.queries_saves_of_isTraffic traffic before.trace
  rw [← trace] at nothing
  exact ⟨idle.spec, nothing.1, nothing.2⟩

theorem Tours.tells {source : Source σ} {tour : List Visit}
    (tours : before.Tours source after tour) :
    before.Tells after ((Visit.downloads tour).map Download.query)
      (tour.filterMap Visit.save?) := by
  obtain ⟨events, trace, told⟩ := tours.trace
  have all := told before.trace
  rw [← trace] at all
  exact ⟨tours.spec, all.1, all.2⟩

theorem tells_ask (query : Query) (reply : Disk → σ → Reply σ α) (world : World σ) :
    world.Tells (Run.ask query reply world).2 [query] [] := by
  have asking : world.Tells (world.asking query (reply world.disk world.remote).state) [query] [] :=
    ⟨rfl, rfl, rfl⟩
  exact asking.trans (Run.idle_ask query reply).tells

/-- A file that is written is told with the last question. -/
theorem tells_wrote {query : Query} {world : World σ}
    (last : Event.lastQuery? world.trace = some query) (disk : Disk) (location : Location)
    (content : Bytes) : world.Tells (world.wrote disk location content) [] [(query, content)] := by
  refine ⟨rfl, rfl, ?_⟩
  show Event.saves (.wrote location _ content :: world.trace) = _
  rw [Event.saves, last]
  rfl

end World

end WorkflowInstall

import WorkflowInstall.Proofs.Run.Fixed

/-!
# Runs that are repeated

A run is made once more on the disk that it has left. Whatever it found missing the first time is
there now, and yet it asks the same questions and writes the same files.

## Main Definitions

* `Replay` — what the first run leaves, and what was done before each of the two
* `World.Echoes` — how far the second run has come is how far the first one had come
* `Run.Repeats` — a run that ends in the same way when it is made again

## Main Statements

* `Run.repeats_bind`, `Run.repeats_attempt` — rows of runs, and runs whose fault is looked at
* `Run.repeats_ask` — a fixed source is asked again
* `World.Echoes.wrote` — a file is written again

## Design Notes

While the second run goes on, a file has the content that it had at the same moment of the first
run, or else the one that it had in the end: it may have been written more than once. At the end
both are the same. No directory is made, because the second run never sees less than the first one
has left behind.

A run may be excused for a fault, with which the second run ends although the first one has not.
-/

namespace WorkflowInstall

variable {σ α β : Type}

/-- What stays the same while a run is made again. -/
structure Replay where
  /-- The disk that the first run leaves. -/
  last : Disk
  /-- What had been done before the first run. -/
  first : List Event
  /-- What had been done before the second run. -/
  second : List Event

/-- The second run has come as far as the first one had: the same was asked, and every file is as it
was then, or as it was left in the end. -/
structure World.Echoes (replay : Replay) (alike : Prop) (first second : World σ) : Prop where
  tree : first.disk.IsTree
  again_tree : second.disk.IsTree
  spec : second.spec = first.spec
  visited : alike → second.visited = first.visited
  files : ∀ location, second.disk.file? location = first.disk.file? location ∨
    second.disk.file? location = replay.last.file? location
  asked : ∃ events others, first.trace = events ++ replay.first ∧
    second.trace = others ++ replay.second ∧ Event.queries others = Event.queries events

namespace World.Echoes

variable {replay : Replay} {alike : Prop} {first second : World σ}

/-- Nothing happens in between. -/
theorem rests {after later : World σ} (h : first.Echoes replay alike second)
    (one : first.Rests after) (other : second.Rests later) : after.Echoes replay alike later where
  tree := one.disk ▸ h.tree
  again_tree := other.disk ▸ h.again_tree
  spec := by rw [other.spec, one.spec, h.spec]
  visited same := by rw [other.visited, one.visited, h.visited same]
  files location := by
    rw [other.disk, one.disk]
    exact h.files location
  asked := by
    obtain ⟨events, others, trace, trace', same⟩ := h.asked
    obtain ⟨more, goes_on, traffic⟩ := one.trace
    obtain ⟨more', goes_on', traffic'⟩ := other.trace
    refine ⟨more ++ events, more' ++ others, ?_, ?_, ?_⟩
    · rw [goes_on, trace, List.append_assoc]
    · rw [goes_on', trace', List.append_assoc]
    · rw [(Event.queries_saves_of_isTraffic traffic events).1,
        (Event.queries_saves_of_isTraffic traffic' others).1, same]

/-- Both ask the same question. -/
theorem ask (h : first.Echoes replay alike second) (query : Query) (reply : Disk → σ → Reply σ α) :
    (Run.ask query reply first).2.Echoes replay alike (Run.ask query reply second).2 := by
  have put : (first.asking query (reply first.disk first.remote).state).Echoes replay alike
      (second.asking query (reply second.disk second.remote).state) :=
    { tree := h.tree
      again_tree := h.again_tree
      spec := h.spec
      visited := h.visited
      files := h.files
      asked := by
        obtain ⟨events, others, trace, trace', same⟩ := h.asked
        exact ⟨.asked query :: events, .asked query :: others, congrArg (List.cons _) trace,
          congrArg (List.cons _) trace', congrArg (List.cons query) same⟩ }
  exact put.rests ⟨Run.idle_ask query reply, (Run.quiet_ask query reply first).disk⟩
    ⟨Run.idle_ask query reply, (Run.quiet_ask query reply second).disk⟩

/-- In the first run more directories are made. -/
theorem made (h : first.Echoes replay alike second) {disk : Disk}
    (further : first.disk.Furthers disk) :
    World.Echoes replay alike { first with disk := disk } second where
  tree := further.tree
  again_tree := h.again_tree
  spec := h.spec
  visited := h.visited
  files location := by
    rw [further.files]
    exact h.files location
  asked := h.asked

/-- Both write the same file. -/
theorem wrote (h : first.Echoes replay alike second) {disk : Disk}
    (further : first.disk.Furthers disk) {location : Location} (is_open : disk.IsOpen location)
    (again_open : second.disk.IsOpen location) (content : Bytes) :
    (first.wrote disk location content).Echoes replay alike
      (second.wrote second.disk location content) where
  tree := further.tree.put is_open _
  again_tree := h.again_tree.put again_open _
  spec := h.spec
  visited := h.visited
  files other := by
    show (second.disk.put location _).file? other = (disk.put location _).file? other ∨
      (second.disk.put location _).file? other = replay.last.file? other
    rw [Disk.file?_put _ is_open.ne_nil, Disk.file?_put _ is_open.ne_nil]
    by_cases here : other = location
    · rw [if_pos here, if_pos here]
      exact .inl rfl
    · rw [if_neg here, if_neg here, further.files]
      exact h.files other
  asked := by
    obtain ⟨events, others, trace, trace', same⟩ := h.asked
    exact ⟨.wrote location (disk.file? location) content :: events,
      .wrote location (second.disk.file? location) content :: others,
      congrArg (List.cons _) trace, congrArg (List.cons _) trace', same⟩

section Prepare

variable (h : first.Echoes replay alike second) {file : LocalPath} (plain : file.IsPlain)
  {made : Disk}
include h plain

/-- A file that was made ready and written is made ready and written again. -/
theorem prepared {location : Location} (ready : first.disk.prepare file = (.ok location, made))
    {content : Bytes} (grows : (made.put location (.file content)).Grows second.disk) :
    second.disk.prepare file = (.ok location, second.disk) ∧
      (first.wrote made location content).Echoes replay alike
        (second.wrote second.disk location content) := by
  have again := h.tree.prepare_written plain ready grows
  obtain ⟨further, written⟩ := h.tree.prepare_eq_ok plain ready
  obtain ⟨-, written_again⟩ := h.again_tree.prepare_eq_ok plain again
  exact ⟨again, h.wrote further (further.tree.writable_eq_ok written).2
    (h.again_tree.writable_eq_ok written_again).2 content⟩

/-- A file that could not be made ready cannot be made ready again. -/
theorem unprepared {fault : DiskFault} (ready : first.disk.prepare file = (.error fault, made))
    (grows : made.Grows second.disk) :
    second.disk.prepare file = (.error fault, second.disk) ∧
      World.Echoes replay alike { first with disk := made } second := by
  have further := h.tree.prepare_furthers plain
  rw [ready] at further
  exact ⟨h.tree.prepare_failed plain ready grows, h.made further⟩

end Prepare

end World.Echoes

namespace Run

/-- A run ends in the same way when it is made again, unless it ends with a fault that it is excused
for. -/
structure Repeats (alike : Prop) (excused : Fault → Prop) (run : Run σ α) : Prop where
  grows : ∀ world : World σ, world.disk.IsTree →
    (run world).2.disk.IsTree ∧ world.disk.Grows (run world).2.disk
  again : ∀ {replay : Replay} {first second : World σ}, first.Echoes replay alike second →
    (run first).2.disk.Grows second.disk →
      (∃ fault, (run second).1 = .error fault ∧ excused fault) ∨
        ((run second).1 = (run first).1 ∧ (run first).2.Echoes replay alike (run second).2)

section Rules

variable {alike : Prop} {excused : Fault → Prop}

theorem Repeats.mono {run : Run σ α} {others : Fault → Prop} (h : Repeats alike excused run)
    (more : ∀ fault, excused fault → others fault) : Repeats alike others run where
  grows := h.grows
  again echoes grows := (h.again echoes grows).imp
    (fun ⟨fault, fails, excuse⟩ => ⟨fault, fails, more fault excuse⟩) id

/-- A run that does nothing but log lines ends in the same way again. -/
theorem repeats_of_rests {run : Run σ α} (outcome : Except Fault α)
    (ends : ∀ world, (run world).1 = outcome) (rests : ∀ world, World.Rests world (run world).2) :
    Repeats alike excused run where
  grows world tree := by
    rw [(rests world).disk]
    exact ⟨tree, .refl world.disk⟩
  again {_ first second} echoes _ :=
    .inr ⟨(ends second).trans (ends first).symm, echoes.rests (rests first) (rests second)⟩

theorem repeats_pure (value : α) : Repeats alike excused (pure value : Run σ α) :=
  repeats_of_rests (.ok value) (fun _ => rfl) World.Rests.refl

theorem repeats_fail (fault : Fault) : Repeats alike excused (fail fault : Run σ α) :=
  repeats_of_rests (.error fault) (fun _ => rfl) World.Rests.refl

theorem repeats_log (component : Component) (message : Text) :
    Repeats alike excused (log component message : Run σ Unit) :=
  repeats_of_rests (.ok ()) (fun _ => rfl) fun _ => .log component message

theorem repeats_bind {run : Run σ α} {next : α → Run σ β} (h : Repeats alike excused run)
    (later : ∀ value, Repeats alike excused (next value)) :
    Repeats alike excused (run >>= next) where
  grows world tree := by
    have begins := h.grows world tree
    cases ends : (run world).1 with
    | error fault =>
      rw [bind_of_error ends]
      exact begins
    | ok value =>
      rw [bind_of_ok ends]
      have goes_on := (later value).grows _ begins.1
      exact ⟨goes_on.1, begins.2.trans goes_on.2⟩
  again {replay first second} echoes grows := by
    have begins := h.grows first echoes.tree
    have begins_again := h.grows second echoes.again_tree
    cases ends : (run first).1 with
    | error fault =>
      rw [bind_of_error ends] at grows ⊢
      rcases h.again echoes grows with ⟨excuse, fails, excused⟩ | ⟨same, echoes⟩
      · rw [bind_of_error fails]
        exact .inl ⟨excuse, rfl, excused⟩
      · rw [bind_of_error (same.trans ends)]
        exact .inr ⟨rfl, echoes⟩
    | ok value =>
      rw [bind_of_ok ends] at grows ⊢
      have goes_on := (later value).grows _ begins.1
      rcases h.again echoes (goes_on.2.trans grows) with ⟨excuse, fails, excused⟩ | ⟨same, echoes⟩
      · rw [bind_of_error fails]
        exact .inl ⟨excuse, rfl, excused⟩
      · rw [bind_of_ok (same.trans ends)]
        exact (later value).again echoes (grows.trans begins_again.2)

/-- A run whose fault is looked at must not be excused for one. -/
theorem repeats_attempt {run : Run σ α} (h : Repeats alike (fun _ => False) run) :
    Repeats alike excused (attempt run) where
  grows := h.grows
  again echoes grows := by
    rcases h.again echoes grows with ⟨_, _, never⟩ | ⟨ends, echoes⟩
    · exact never.elim
    · exact .inr ⟨congrArg Except.ok ends, echoes⟩

/-- A question whose answer is fixed is answered in the same way again. -/
theorem repeats_ask (query : Query) {reply : Disk → σ → Reply σ α}
    (fixed : ∀ disk later state other, (reply later other).outcome = (reply disk state).outcome) :
    Repeats alike excused (ask query reply) where
  grows world tree := by
    rw [(quiet_ask query reply world).disk]
    exact ⟨tree, .refl world.disk⟩
  again echoes _ := .inr ⟨fixed _ _ _ _, echoes.ask query reply⟩

theorem repeats_askFile {source : Source σ} (fixed : source.IsFixed) (owner repo path ref : Text) :
    Repeats alike excused (askFile source owner repo path ref) :=
  repeats_ask _ fun _ _ _ _ => fixed.file _ _ _ _ owner repo path ref

theorem repeats_askCommit {source : Source σ} (fixed : source.IsFixed) (owner repo ref : Text) :
    Repeats alike excused (askCommit source owner repo ref) :=
  repeats_ask _ fun _ _ _ _ => fixed.commit _ _ _ _ owner repo ref

theorem repeats_askBranch {source : Source σ} (fixed : source.IsFixed) (slug : Text) :
    Repeats alike excused (askBranch source slug) :=
  repeats_ask _ fun _ _ _ _ => fixed.branch _ _ _ _ slug

theorem repeats_spec : Repeats alike excused (spec : Run σ WorkflowSpec) where
  grows world tree := ⟨tree, .refl world.disk⟩
  again echoes _ := .inr ⟨congrArg Except.ok echoes.spec, echoes⟩

theorem repeats_cwd : Repeats alike excused (cwd : Run σ Text) where
  grows world tree := ⟨tree, .refl world.disk⟩
  again echoes grows := .inr ⟨congrArg Except.ok (Disk.Grows.here grows), echoes⟩

theorem repeats_alterSpec (change : WorkflowSpec → WorkflowSpec) :
    Repeats alike excused (alterSpec change : Run σ Unit) where
  grows world tree := ⟨tree, .refl world.disk⟩
  again echoes _ := .inr ⟨rfl,
    { echoes with spec := congrArg change echoes.spec }⟩

theorem repeats_visited (same : alike) : Repeats alike excused (visited : Run σ (List Text)) where
  grows world tree := ⟨tree, .refl world.disk⟩
  again echoes _ := .inr ⟨congrArg Except.ok (echoes.visited same), echoes⟩

theorem repeats_visit (reference : Text) :
    Repeats alike excused (visit reference : Run σ Unit) where
  grows world tree := ⟨tree, .refl world.disk⟩
  again echoes _ := .inr ⟨rfl,
    { echoes with visited := fun same => congrArg (List.cons reference) (echoes.visited same) }⟩

end Rules

/-- After what was visited is forgotten, both runs have visited the same. -/
theorem repeats_forgetVisited_bind {alike : Prop} {excused : Fault → Prop} {next : Unit → Run σ α}
    (later : Repeats True excused (next ())) :
    Repeats alike excused (forgetVisited >>= next) where
  grows world tree := later.grows { world with visited := [] } tree
  again {replay first second} echoes grows := by
    have forgotten : (forgetVisited first).2.Echoes replay True (forgetVisited second).2 :=
      { echoes with visited := fun _ => rfl }
    exact (later.again forgotten grows).imp id
      (And.imp id fun echoes => { echoes with visited := fun _ => echoes.visited trivial })

end Run

end WorkflowInstall

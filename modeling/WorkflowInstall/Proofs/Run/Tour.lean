import WorkflowInstall.Proofs.Run.Files
import WorkflowInstall.Proofs.Run.Quiet

/-!
# Tours

A resolver visits references, asks a source for some of their files and writes some of those. The
tour of a run is the row of these visits, the last one first.

## Main Definitions

* `Event.queries`, `Event.downloads` — what a trace says was asked
* `Event.saves`, `Event.writes` — what it says was written, for which question and at which place
* `Download` — a file that is asked for, and the disk at that moment
* `Visit` — a reference that was visited, and what became of it
* `World.Idle` — nothing was visited, asked or written between two worlds
* `World.Rests` — besides, no file or directory has changed
* `World.Logged` — nothing has happened, or a line was logged
* `World.Tours` — a tour tells all that was visited, asked and written between two worlds

## Main Statements

* `World.Tours.visit`, `World.Tours.ask`, `World.Tours.wrote` — how a tour goes on
* `World.Tours.trans` — tours in a row are one tour
* `World.Tours.told` — the trace tells the downloads of a tour and what was written on it

## Design Notes

A tour is built along a run: a reference that is visited is put in front of it, and when its file is
asked for and written, the visit in front is replaced. A visit whose file was written says where, so
what was written for one reference is never taken for what was written for another one. The state of
the source after a tour is the state that it comes to by the downloads of the tour, so a source that
notes what it is asked notes exactly these.
-/

namespace WorkflowInstall

variable {σ : Type}

/-! ## What a trace says -/

/-- Whether a question asks for a file. -/
def Query.isFile : Query → Bool
  | .file _ _ _ _ => true
  | _ => false

namespace Event

/-- The question that an event is. -/
def query? : Event → Option Query
  | .asked query => some query
  | _ => none

/-- The questions that were asked, the last one first. -/
def queries (events : List Event) : List Query := events.filterMap query?

/-- The files that were asked for, the last one first. -/
def downloads (events : List Event) : List Query := (queries events).filter Query.isFile

/-- What was written, the last file first, each with the question that was asked last before. -/
def saves : List Event → List (Query × Bytes)
  | [] => []
  | .wrote _ _ content :: earlier =>
    match lastQuery? earlier with
    | some query => (query, content) :: saves earlier
    | none => saves earlier
  | _ :: earlier => saves earlier

/-- The place at which an event wrote a file, and the content. -/
def write? : Event → Option (Location × Bytes)
  | .wrote location _ content => some (location, content)
  | _ => none

/-- What was written where, the last file first. -/
def writes (events : List Event) : List (Location × Bytes) := events.filterMap write?

theorem writes_append (events older : List Event) :
    writes (events ++ older) = writes events ++ writes older := List.filterMap_append

/-- Events that leave the files alone write nothing. -/
theorem writes_of_isQuiet {events : List Event} (quiet : ∀ event ∈ events, event.isQuiet = true) :
    writes events = [] := by
  refine List.filterMap_eq_nil_iff.mpr fun event mem => ?_
  have alone := quiet event mem
  cases event with
  | wrote | removed => exact absurd alone Bool.false_ne_true
  | _ => rfl

/-- Traffic writes nothing. -/
theorem writes_of_isTraffic {events : List Event}
    (traffic : ∀ event ∈ events, event.isTraffic = true) : writes events = [] :=
  writes_of_isQuiet fun event mem => isQuiet_of_isTraffic (traffic event mem)

theorem writes_of_quiet {before after : World σ} (quiet : before.Quiet after) :
    writes after.trace = writes before.trace := by
  obtain ⟨events, trace, untouched⟩ := quiet.trace
  rw [trace, writes_append, writes_of_isQuiet untouched, List.nil_append]

theorem queries_append (events older : List Event) :
    queries (events ++ older) = queries events ++ queries older := List.filterMap_append

theorem lastQuery?_eq_head? (events : List Event) : lastQuery? events = (queries events).head? := by
  induction events with
  | nil => rfl
  | cons event earlier ih =>
    cases event with
    | asked query => rfl
    | _ => exact ih

/-- Traffic asks and writes nothing. -/
theorem queries_saves_of_isTraffic {events : List Event}
    (traffic : ∀ event ∈ events, event.isTraffic = true) (older : List Event) :
    queries (events ++ older) = queries older ∧ saves (events ++ older) = saves older := by
  induction events with
  | nil => exact ⟨rfl, rfl⟩
  | cons event rest ih =>
    have later := ih fun other mem => traffic other (List.mem_cons_of_mem event mem)
    have alone := traffic event List.mem_cons_self
    cases event with
    | asked | wrote | ranGit | printed | removed => exact absurd alone Bool.false_ne_true
    | _ => exact later

end Event

/-! ## Downloads -/

/-- A file that a source is asked for, and the disk at that moment. -/
structure Download where
  /-- The disk. -/
  disk : Disk
  /-- The owner of the repository. -/
  owner : Text
  /-- The repository. -/
  repo : Text
  /-- The path. -/
  path : Text
  /-- The revision. -/
  ref : Text
  deriving DecidableEq, Repr

namespace Download

/-- The question that is asked. -/
def query (download : Download) : Query :=
  .file download.owner download.repo download.path download.ref

/-- The answer of a source. -/
def reply (download : Download) (source : Source σ) (state : σ) : Reply σ Bytes :=
  source.file download.disk state download.owner download.repo download.path download.ref

/-- The state of a source after some downloads, the last one first. -/
def stateAfter (source : Source σ) (state : σ) (downloads : List Download) : σ :=
  downloads.foldr (fun download state => (download.reply source state).state) state

theorem stateAfter_append (source : Source σ) (state : σ) (later earlier : List Download) :
    stateAfter source state (later ++ earlier) =
      stateAfter source (stateAfter source state earlier) later := List.foldr_append

/-- A source has answered a download with a content. -/
def Answers (source : Source σ) (download : Download) (content : Bytes) : Prop :=
  ∃ state, (download.reply source state).outcome = .ok content

end Download

/-! ## Visits -/

/-- A reference that was visited, and what became of it. -/
inductive Visit
  /-- Its file was not asked for. -/
  | passed (path : Text)
  /-- Its file was asked for and not written. -/
  | asked (path : Text) (download : Download)
  /-- Its file was asked for and written, at a place. -/
  | saved (path : Text) (download : Download) (location : Location) (content : Bytes)
  deriving DecidableEq, Repr

namespace Visit

/-- The reference. -/
def path : Visit → Text
  | passed path => path
  | asked path _ => path
  | saved path _ _ _ => path

/-- The file that was asked for. -/
def download? : Visit → Option Download
  | passed _ => none
  | asked _ download => some download
  | saved _ download _ _ => some download

/-- The place at which its file was written. -/
def location? : Visit → Option Location
  | saved _ _ location _ => some location
  | _ => none

/-- The question that was asked, and what was written. -/
def save? : Visit → Option (Query × Bytes)
  | saved _ download _ content => some (download.query, content)
  | _ => none

/-- Where it was written, and what. -/
def write? : Visit → Option (Location × Bytes)
  | saved _ _ location content => some (location, content)
  | _ => none

end Visit

/-- The files that were asked for on a tour. -/
def Visit.downloads (tour : List Visit) : List Download := tour.filterMap download?

/-- The references that were visited on a tour. -/
def Visit.paths (tour : List Visit) : List Text := tour.map path

/-- The references on a tour whose files were asked for. -/
def Visit.requested (tour : List Visit) : List Text :=
  tour.filterMap fun visit => visit.download?.map fun _ => visit.path

theorem Visit.requested_sublist (tour : List Visit) : (requested tour).Sublist (paths tour) := by
  induction tour with
  | nil => exact .slnil
  | cons visit rest ih =>
    rw [requested, List.filterMap_cons, paths, List.map_cons]
    cases visit.download? with
    | none => exact ih.cons visit.path
    | some download => exact ih.cons_cons visit.path

/-- What is the same for every download and its reference is the same for all of them. -/
theorem Visit.map_downloads {α : Type} {tour : List Visit} {asked : Download → α}
    {reference : Text → α}
    (same : ∀ visit ∈ tour, ∀ download, visit.download? = some download →
      asked download = reference visit.path) :
    (downloads tour).map asked = (requested tour).map reference := by
  induction tour with
  | nil => rfl
  | cons visit rest ih =>
    have later := ih fun other mem => same other (List.mem_cons_of_mem visit mem)
    have first := same visit List.mem_cons_self
    rw [downloads, requested, List.filterMap_cons, List.filterMap_cons]
    cases found : visit.download? with
    | none => exact later
    | some download =>
      rw [Option.map_some, List.map_cons, List.map_cons, first download found]
      exact congrArg _ later

theorem Visit.downloads_append (more tour : List Visit) :
    downloads (more ++ tour) = downloads more ++ downloads tour := List.filterMap_append

/-! ## Worlds between which nothing was visited -/

namespace World

/-- One world follows another one, and nothing was visited, asked or written in between. -/
structure Idle (before after : World σ) : Prop where
  cwd : after.disk.cwd = before.disk.cwd
  spec : after.spec = before.spec
  visited : after.visited = before.visited
  remote : after.remote = before.remote
  trace : ∃ events, after.trace = events ++ before.trace ∧
    ∀ event ∈ events, event.isTraffic = true

theorem Idle.refl (world : World σ) : world.Idle world :=
  ⟨rfl, rfl, rfl, rfl, [], rfl, fun _ mem => absurd mem List.not_mem_nil⟩

theorem Idle.trans {before after last : World σ} (first : before.Idle after)
    (second : after.Idle last) : before.Idle last := by
  obtain ⟨events, trace, traffic⟩ := first.trace
  obtain ⟨more, trace', traffic'⟩ := second.trace
  refine ⟨second.cwd.trans first.cwd, second.spec.trans first.spec,
    second.visited.trans first.visited, second.remote.trans first.remote, more ++ events, ?_, ?_⟩
  · rw [trace', trace, List.append_assoc]
  · intro event mem
    exact (List.mem_append.mp mem).elim (traffic' event) (traffic event)

theorem idle_record (world : World σ) (event : Event) (traffic : event.isTraffic = true) :
    world.Idle (world.record event) := by
  rcases world.record_cases event with recorded | ⟨recorded, -⟩
  · rw [recorded]
    exact ⟨rfl, rfl, rfl, rfl, [event], rfl, by simpa using traffic⟩
  · rw [recorded]
    exact .refl world

theorem idle_foldl_record {events : List Event} (traffic : events.all Event.isTraffic = true)
    (world : World σ) : world.Idle (events.foldl record world) := by
  induction events generalizing world with
  | nil => exact .refl world
  | cons event rest ih =>
    rw [List.all_cons, Bool.and_eq_true] at traffic
    exact (world.idle_record event traffic.1).trans (ih traffic.2 _)

/-- The world right after a question was put to a source. -/
def asking (world : World σ) (query : Query) (state : σ) : World σ :=
  { world with remote := state, trace := .asked query :: world.trace }

end World

namespace Run

variable {α : Type} {world : World σ}

theorem idle_log (component : Component) (message : Text) :
    world.Idle (log component message world).2 :=
  world.idle_record (.logged component message) rfl

theorem idle_makeDirs (path : LocalPath) : world.Idle (makeDirs path world).2 := by
  rw [makeDirs_snd]
  exact ⟨Disk.cwd_makeDirs world.disk path, rfl, rfl, rfl, [], rfl,
    fun _ mem => absurd mem List.not_mem_nil⟩

theorem idle_noted (path : Text) (earlier : Option Bytes) :
    world.Idle (world.noted path earlier) :=
  ⟨rfl, rfl, rfl, rfl, [], rfl, fun _ mem => absurd mem List.not_mem_nil⟩

theorem ask_apply (query : Query) (reply : Disk → σ → Reply σ α) (world : World σ) :
    ask query reply world =
      ((reply world.disk world.remote).outcome,
        (reply world.disk world.remote).events.foldl World.record
          (world.asking query (reply world.disk world.remote).state)) := rfl

/-- After a question, the traffic that the source reports is recorded. -/
theorem idle_ask (query : Query) (reply : Disk → σ → Reply σ α) :
    (world.asking query (reply world.disk world.remote).state).Idle (ask query reply world).2 :=
  World.idle_foldl_record (reply world.disk world.remote).traffic _

/-- A run visits, asks and writes nothing when it fails. -/
def FailsIdle (run : Run σ α) (world : World σ) : Prop :=
  ∀ fault, (run world).1 = .error fault → world.Idle (run world).2

theorem failsIdle_fail (fault : Fault) : FailsIdle (fail fault : Run σ α) world :=
  fun _ _ => .refl world

theorem failsIdle_cwd_bind {next : Text → Run σ α}
    (later : FailsIdle (next world.disk.here) world) : FailsIdle (cwd >>= next) world := later

theorem failsIdle_ofDisk_bind {β : Type} {reading : Disk → Except DiskFault β}
    {next : β → Run σ α}
    (later : ∀ value, reading world.disk = .ok value → FailsIdle (next value) world) :
    FailsIdle (ofDisk reading >>= next) world := by
  rw [FailsIdle, bind_apply, ofDisk]
  cases result : reading world.disk with
  | ok value => exact later value result
  | error fault => exact fun _ _ => .refl world

/-- Asking for a file visits nothing and stays at the same workflow. -/
theorem askFile_keeps (source : Source σ) (owner repo path ref : Text) (world : World σ) :
    (askFile source owner repo path ref world).2.visited = world.visited ∧
      (askFile source owner repo path ref world).2.spec = world.spec := by
  have idle : (world.asking (.file owner repo path ref)
      (source.file world.disk world.remote owner repo path ref).state).Idle
        (askFile source owner repo path ref world).2 :=
    idle_ask (.file owner repo path ref) fun disk state =>
      source.file disk state owner repo path ref
  exact ⟨idle.visited, idle.spec⟩

end Run

/-- Nothing was visited, asked or written between two worlds, and no file or directory has
changed. -/
structure World.Rests (before after : World σ) : Prop extends before.Idle after where
  disk : after.disk = before.disk

namespace World.Rests

theorem refl (world : World σ) : world.Rests world := ⟨.refl world, rfl⟩

theorem trans {before after last : World σ} (first : before.Rests after)
    (second : after.Rests last) : before.Rests last :=
  ⟨first.toIdle.trans second.toIdle, second.disk.trans first.disk⟩

theorem log {world : World σ} (component : Component) (message : Text) :
    world.Rests (Run.log component message world).2 :=
  ⟨Run.idle_log component message, (Run.quiet_log component message world).disk⟩

theorem of_log {component : Component} {message : Text} {before after : World σ}
    (h : Run.Returns (Run.log component message) before () after) : before.Rests after := by
  have rests : before.Rests (Run.log component message before).2 := .log _ _
  rwa [show Run.log component message before = (.ok (), after) from h] at rests

theorem noted {before after : World σ} (h : before.Rests after) (path : Text)
    (earlier : Option Bytes) : before.Rests (after.noted path earlier) :=
  ⟨h.toIdle.trans (Run.idle_noted path earlier), h.disk⟩

end World.Rests

/-- Nothing has happened between two worlds, or a line was logged. -/
def World.Logged (before after : World σ) : Prop :=
  after = before ∨ ∃ component message, after = (Run.log component message before).2

namespace World.Logged

variable {before after : World σ}

theorem rests (h : before.Logged after) : before.Rests after := by
  rcases h with rfl | ⟨component, message, rfl⟩
  · exact .refl _
  · exact .log component message

theorem quiet (h : before.Logged after) : before.Quiet after := by
  rcases h with rfl | ⟨component, message, rfl⟩
  · exact .refl _
  · exact Run.quiet_log component message before

end World.Logged

/-! ## Tours -/

namespace World

/-- A tour tells all that was visited, asked and written between two worlds. -/
structure Tours (source : Source σ) (before after : World σ) (tour : List Visit) : Prop where
  cwd : after.disk.cwd = before.disk.cwd
  spec : after.spec = before.spec
  visited : after.visited = Visit.paths tour ++ before.visited
  once : (Visit.paths tour).Nodup
  new : ∀ path ∈ Visit.paths tour, path ∉ before.visited
  trace : ∃ events, after.trace = events ++ before.trace ∧
    ∀ older, Event.queries (events ++ older) =
        (Visit.downloads tour).map Download.query ++ Event.queries older ∧
      Event.saves (events ++ older) = tour.filterMap Visit.save? ++ Event.saves older
  writes : Event.writes after.trace = tour.filterMap Visit.write? ++ Event.writes before.trace
  remote : after.remote = Download.stateAfter source before.remote (Visit.downloads tour)
  seen : ∀ download ∈ Visit.downloads tour, download.disk.cwd = before.disk.cwd
  answered : ∀ path download location content, .saved path download location content ∈ tour →
    download.Answers source content

namespace Tours

variable {source : Source σ} {before now after : World σ} {tour more : List Visit} {path : Text}

theorem refl (source : Source σ) (world : World σ) : Tours source world world [] where
  cwd := rfl
  spec := rfl
  visited := rfl
  once := List.nodup_nil
  new _ mem := absurd mem List.not_mem_nil
  trace := ⟨[], rfl, fun _ => ⟨rfl, rfl⟩⟩
  writes := rfl
  remote := rfl
  seen _ mem := absurd mem List.not_mem_nil
  answered _ _ _ _ mem := absurd mem List.not_mem_nil

/-- Tours in a row are one tour. -/
theorem trans (first : Tours source before now tour) (later : Tours source now after more) :
    Tours source before after (more ++ tour) where
  cwd := later.cwd.trans first.cwd
  spec := later.spec.trans first.spec
  visited := by
    rw [later.visited, first.visited, ← List.append_assoc]
    exact congrArg (· ++ before.visited) List.map_append.symm
  once := by
    rw [Visit.paths, List.map_append]
    refine List.nodup_append.mpr ⟨later.once, first.once, ?_⟩
    rintro path mem _ old rfl
    refine later.new path mem ?_
    rw [first.visited]
    exact List.mem_append_left before.visited old
  new path mem := by
    rw [Visit.paths, List.map_append, List.mem_append] at mem
    rcases mem with mem | mem
    · intro old
      refine later.new path mem ?_
      rw [first.visited]
      exact List.mem_append_right (Visit.paths tour) old
    · exact first.new path mem
  trace := by
    obtain ⟨events, trace, told⟩ := first.trace
    obtain ⟨others, trace', told'⟩ := later.trace
    refine ⟨others ++ events, by rw [trace', trace, List.append_assoc], fun older => ?_⟩
    rw [List.append_assoc, (told' _).1, (told' _).2, (told older).1, (told older).2,
      Visit.downloads_append, List.map_append, List.filterMap_append, List.append_assoc,
      List.append_assoc]
    exact ⟨rfl, rfl⟩
  writes := by rw [later.writes, first.writes, List.filterMap_append, List.append_assoc]
  remote := by
    rw [later.remote, first.remote, Visit.downloads_append, Download.stateAfter_append]
  seen download mem := by
    rw [Visit.downloads_append, List.mem_append] at mem
    exact mem.elim (fun mem => (later.seen download mem).trans first.cwd) (first.seen download)
  answered path download location content mem :=
    (List.mem_append.mp mem).elim (later.answered path download location content)
      (first.answered path download location content)

/-- Nothing is added to a tour while nothing is visited. -/
theorem idle (h : Tours source before now tour) (idle : now.Idle after) :
    Tours source before after tour where
  cwd := idle.cwd.trans h.cwd
  spec := idle.spec.trans h.spec
  visited := idle.visited.trans h.visited
  once := h.once
  new := h.new
  trace := by
    obtain ⟨events, trace, told⟩ := h.trace
    obtain ⟨others, trace', traffic⟩ := idle.trace
    refine ⟨others ++ events, by rw [trace', trace, List.append_assoc], fun older => ?_⟩
    have nothing := Event.queries_saves_of_isTraffic traffic (events ++ older)
    rw [List.append_assoc, nothing.1, nothing.2]
    exact told older
  writes := by
    obtain ⟨others, trace, traffic⟩ := idle.trace
    rw [trace, Event.writes_append, Event.writes_of_isTraffic traffic, List.nil_append]
    exact h.writes
  remote := idle.remote.trans h.remote
  seen := h.seen
  answered := h.answered

/-- A new reference is visited. -/
theorem visit (h : Tours source before now tour) (new : path ∉ now.visited) :
    Tours source before (Run.visit path now).2 (.passed path :: tour) where
  cwd := h.cwd
  spec := h.spec
  visited := congrArg (List.cons path) h.visited
  once := by
    refine List.nodup_cons.mpr ⟨fun mem => new ?_, h.once⟩
    rw [h.visited]
    exact List.mem_append_left before.visited mem
  new other mem := by
    rcases List.mem_cons.mp mem with rfl | mem
    · intro old
      refine new ?_
      rw [h.visited]
      exact List.mem_append_right (Visit.paths tour) old
    · exact h.new other mem
  trace := h.trace
  writes := h.writes
  remote := h.remote
  seen := h.seen
  answered other download location content mem := by
    rcases List.mem_cons.mp mem with same | mem
    · exact absurd same Visit.noConfusion
    · exact h.answered other download location content mem

/-- The file of the reference that was visited last is asked for. -/
theorem ask (h : Tours source before now (.passed path :: tour)) (download : Download)
    (disk : download.disk = now.disk) :
    Tours source before
      (Run.askFile source download.owner download.repo download.path download.ref now).2
      (.asked path download :: tour) := by
  have put : Tours source before
      (now.asking download.query (download.reply source now.remote).state)
      (.asked path download :: tour) :=
    { cwd := h.cwd
      spec := h.spec
      visited := h.visited
      once := h.once
      new := h.new
      trace := by
        obtain ⟨events, trace, told⟩ := h.trace
        refine ⟨.asked download.query :: events, congrArg (List.cons _) trace, fun older => ?_⟩
        exact ⟨congrArg (List.cons download.query) (told older).1, (told older).2⟩
      writes := h.writes
      remote := congrArg (fun state => (download.reply source state).state) h.remote
      seen := List.forall_mem_cons.mpr ⟨disk ▸ h.cwd, h.seen⟩
      answered := by
        intro other found location content mem
        rcases List.mem_cons.mp mem with same | mem
        · exact absurd same Visit.noConfusion
        · exact h.answered other found location content (List.mem_cons_of_mem _ mem) }
  refine put.idle ?_
  rw [Download.reply, disk]
  exact Run.idle_ask download.query fun disk state =>
    source.file disk state download.owner download.repo download.path download.ref

/-- The file that was asked for last is written. -/
theorem wrote {download : Download} {content : Bytes}
    (h : Tours source before now (.asked path download :: tour))
    (answered : download.Answers source content) {disk : Disk} (cwd : disk.cwd = now.disk.cwd)
    (location : Location) :
    Tours source before (now.wrote disk location content)
      (.saved path download location content :: tour) where
  cwd := (Disk.cwd_put disk location (.file content)).trans (cwd.trans h.cwd)
  spec := h.spec
  visited := h.visited
  once := h.once
  new := h.new
  trace := by
    obtain ⟨events, trace, told⟩ := h.trace
    refine ⟨.wrote location (disk.file? location) content :: events, congrArg (List.cons _) trace,
      fun older => ⟨(told older).1, ?_⟩⟩
    have last : Event.lastQuery? (events ++ older) = some download.query := by
      rw [Event.lastQuery?_eq_head?, (told older).1]
      rfl
    rw [List.cons_append, Event.saves, last, (told older).2]
    rfl
  writes := congrArg (List.cons (location, content)) h.writes
  remote := h.remote
  seen := h.seen
  answered other found place new mem := by
    rcases List.mem_cons.mp mem with same | mem
    · cases same
      exact answered
    · exact h.answered other found place new (List.mem_cons_of_mem _ mem)

/-- Whatever was done before, the trace tells the downloads of a tour and what was written on it. -/
theorem told_append (h : Tours source before after tour) :
    ∃ events, after.trace = events ++ before.trace ∧ ∀ older,
      Event.downloads (events ++ older) =
          (Visit.downloads tour).map Download.query ++ Event.downloads older ∧
        Event.saves (events ++ older) = tour.filterMap Visit.save? ++ Event.saves older := by
  obtain ⟨events, trace, told⟩ := h.trace
  refine ⟨events, trace, fun older => ⟨?_, (told older).2⟩⟩
  have files : ∀ query ∈ (Visit.downloads tour).map Download.query, query.isFile = true := by
    intro query mem
    obtain ⟨download, -, rfl⟩ := List.mem_map.mp mem
    rfl
  rw [Event.downloads, (told older).1, List.filter_append, List.filter_eq_self.mpr files,
    Event.downloads]

/-- The trace tells the downloads of a tour and what was written on it. -/
theorem told (h : Tours source before after tour) :
    ∃ events, after.trace = events ++ before.trace ∧
      Event.downloads events = (Visit.downloads tour).map Download.query ∧
      Event.saves events = tour.filterMap Visit.save? := by
  obtain ⟨events, trace, told⟩ := h.told_append
  have alone := told []
  rw [List.append_nil] at alone
  exact ⟨events, trace, alone.1.trans (List.append_nil _), alone.2.trans (List.append_nil _)⟩

/-- What was visited before stays visited. -/
theorem subset (h : Tours source before after tour) : before.visited ⊆ after.visited := by
  rw [h.visited]
  exact List.subset_append_right (Visit.paths tour) before.visited

end Tours

end World

end WorkflowInstall

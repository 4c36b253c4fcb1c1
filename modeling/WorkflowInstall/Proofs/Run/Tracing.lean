import WorkflowInstall.Proofs.Run.Tour

/-!
# What a trace tells about the files

The files at any point of a run are those after the events up to that point, so what is said about
every end of the trace is said about every point of the run.

## Main Definitions

* `Event.filesAfter` — the files after some events
* `Event.lastWrite?` — what was written at a place last
* `World.Traced` — the events between two worlds tell all that has happened to the files

## Main Statements

* `Event.filesAfter_eq_or` — where nothing is removed, a file is the last one that was written at
  its place, or the one that was there before
* `Event.exists_write_of_changed` — so a file that has changed was written
* `World.Traced.trans` — traces in a row are one trace
-/

namespace WorkflowInstall

variable {σ : Type}

namespace Event

variable {files : Location → Option Bytes} {events : List Event} {location : Location}
  {content : Bytes}

/-- The files after some events, where the last event comes first. -/
def filesAfter (files : Location → Option Bytes) : List Event → Location → Option Bytes
  | [], location => files location
  | .wrote place _ content :: events, location =>
    if location = place then some content else filesAfter files events location
  | .removed place :: events, location =>
    if location = place then none else filesAfter files events location
  | _ :: events, location => filesAfter files events location

/-- What was written at a place last, where the last write comes first. -/
def lastWrite? (writes : List (Location × Bytes)) (location : Location) : Option Bytes :=
  (writes.find? fun write => write.1 = location).map Prod.snd

theorem lastWrite?_cons (write : Location × Bytes) (writes : List (Location × Bytes))
    (location : Location) :
    lastWrite? (write :: writes) location =
      if location = write.1 then some write.2 else lastWrite? writes location := by
  rw [lastWrite?, List.find?_cons]
  by_cases here : location = write.1
  · rw [if_pos here, decide_eq_true here.symm]
    rfl
  · rw [if_neg here, decide_eq_false fun there => here there.symm]
    rfl

theorem mem_of_lastWrite? {writes : List (Location × Bytes)}
    (h : lastWrite? writes location = some content) : (location, content) ∈ writes := by
  obtain ⟨⟨place, bytes⟩, found, rfl⟩ := Option.map_eq_some_iff.mp h
  have here : place = location := by simpa using List.find?_some found
  exact here ▸ List.mem_of_find?_eq_some found

theorem exists_lastWrite? {writes : List (Location × Bytes)} (mem : (location, content) ∈ writes) :
    ∃ bytes, lastWrite? writes location = some bytes := by
  cases last : lastWrite? writes location with
  | some bytes => exact ⟨bytes, rfl⟩
  | none =>
    have missing := List.find?_eq_none.mp (Option.map_eq_none_iff.mp last) _ mem
    exact absurd (decide_eq_true rfl) missing

theorem filesAfter_append (files : Location → Option Bytes) (later earlier : List Event) :
    filesAfter files (later ++ earlier) = filesAfter (filesAfter files earlier) later := by
  induction later with
  | nil => rfl
  | cons event rest ih =>
    funext location
    cases event with
    | wrote | removed => rw [List.cons_append, filesAfter, filesAfter, ih]
    | _ => exact congrFun ih location

/-- Quiet events change no file. -/
theorem filesAfter_of_isQuiet (quiet : ∀ event ∈ events, event.isQuiet = true)
    (files : Location → Option Bytes) : filesAfter files events = files := by
  induction events with
  | nil => rfl
  | cons event rest ih =>
    have later := ih fun other mem => quiet other (List.mem_cons_of_mem event mem)
    have alone := quiet event List.mem_cons_self
    cases event with
    | wrote | removed => exact absurd alone Bool.false_ne_true
    | _ => exact later

/-- Where nothing is removed, a file is the last one that was written at its place, or the one that
was there before. -/
theorem filesAfter_eq_or (keeps : ∀ location, .removed location ∉ events)
    (files : Location → Option Bytes) (location : Location) :
    filesAfter files events location =
      (lastWrite? (writes events) location).or (files location) := by
  induction events with
  | nil => rfl
  | cons event rest ih =>
    have later := ih fun place mem => keeps place (List.mem_cons_of_mem event mem)
    cases event with
    | wrote place before content =>
      rw [filesAfter, later, show writes (.wrote place before content :: rest) =
        (place, content) :: writes rest from rfl, lastWrite?_cons]
      split <;> rfl
    | removed place => exact absurd List.mem_cons_self (keeps place)
    | _ => exact later

/-- Where nothing is removed, a file that has changed was written. -/
theorem exists_write_of_changed (keeps : ∀ location, .removed location ∉ events)
    (changed : filesAfter files events location ≠ files location) :
    ∃ content, (location, content) ∈ writes events := by
  rw [filesAfter_eq_or keeps] at changed
  cases last : lastWrite? (writes events) location with
  | none =>
    rw [last, Option.none_or] at changed
    exact absurd rfl changed
  | some content => exact ⟨content, mem_of_lastWrite? last⟩

end Event

/-- The events between two worlds tell all that has happened to the files, of which none was
removed. -/
structure World.Traced (before after : World σ) (events : List Event) : Prop where
  trace : after.trace = events ++ before.trace
  files : ∀ location, after.disk.file? location = Event.filesAfter before.disk.file? events location
  keeps : ∀ location, .removed location ∉ events

namespace World.Traced

variable {before after : World σ} {events more : List Event}

theorem refl (world : World σ) : world.Traced world [] :=
  ⟨rfl, fun _ => rfl, fun _ mem => absurd mem List.not_mem_nil⟩

/-- Traces in a row are one trace. -/
theorem trans {last : World σ} (first : before.Traced after events)
    (second : after.Traced last more) : before.Traced last (more ++ events) where
  trace := by rw [second.trace, first.trace, List.append_assoc]
  files location := by
    rw [second.files, show after.disk.file? = Event.filesAfter before.disk.file? events from
      funext first.files, Event.filesAfter_append]
  keeps location mem := (List.mem_append.mp mem).elim (second.keeps location) (first.keeps location)

/-- The trace of both worlds says which events these are. -/
theorem eq_of_trace (h : before.Traced after events) (trace : after.trace = more ++ before.trace) :
    more = events := List.append_cancel_right (trace.symm.trans h.trace)

theorem of_quiet (quiet : before.Quiet after) : ∃ events, before.Traced after events := by
  obtain ⟨events, trace, untouched⟩ := quiet.trace
  refine ⟨events, trace, fun location => ?_, fun location mem => ?_⟩
  · rw [quiet.disk, Event.filesAfter_of_isQuiet untouched]
  · exact absurd (untouched _ mem) Bool.false_ne_true

/-- Directories are made at most. -/
theorem made {disk : Disk} (further : before.disk.Furthers disk) :
    before.Traced { before with disk := disk } [] :=
  ⟨rfl, further.files, fun _ mem => absurd mem List.not_mem_nil⟩

/-- A file is written, on a disk with more directories at most. -/
theorem wrote {disk : Disk} (further : before.disk.Furthers disk) {location : Location}
    (inside : location ≠ []) (content : Bytes) :
    before.Traced (before.wrote disk location content)
      [.wrote location (disk.file? location) content] where
  trace := rfl
  files other := by
    show (disk.put location (.file content)).file? other = _
    rw [Disk.file?_put disk inside, further.files]
    rfl
  keeps place mem := absurd (List.mem_singleton.mp mem) Event.noConfusion

/-- What stands at a place is what was written there last, or what was there before. -/
theorem file?_eq_or (h : before.Traced after events) (location : Location) :
    after.disk.file? location =
      (Event.lastWrite? (Event.writes events) location).or (before.disk.file? location) := by
  rw [h.files, Event.filesAfter_eq_or h.keeps]

end World.Traced

end WorkflowInstall

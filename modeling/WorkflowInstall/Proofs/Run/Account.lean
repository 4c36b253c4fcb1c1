import WorkflowInstall.Proofs.Run.Exploration

/-!
# What the events of a run tell

The events of a run that explores some references give an account of it: which references it has
visited, what it has asked for each of them, and which content it has written for it at which place.

## Main Definitions

* `Account` — what the events of a run tell about the references that it has visited

## Main Statements

* `Explored.account` — the events of a run that explores are such an account
* `Account.exists_of_write` — what was written was written for a reference that was visited

## Design Notes

Every write belongs to one visit, and the visit has the reference. So where a file stands is always
told by the reference that it was written for, not by another one that is asked for in the same way.
-/

namespace WorkflowInstall

open Path

variable {σ : Type}

/-- What the events of a run tell that begins with some references. Each reference on its tour is
reached from these along the files that were written. What was asked for it `fits` it, and what was
written for it stands at a file that `keeps` it. -/
structure Account (source : Source σ) (next : Query → Bytes → List Text)
    (fits : Text → Download → Prop) (keeps : Text → LocalPath → Prop) (here : Text)
    (start : List Text) (tour : List Visit) (events : List Event) : Prop where
  once : (Visit.paths tour).Nodup
  reached : Reaches next start tour
  asked : ∀ visit ∈ tour, ∀ download, visit.download? = some download →
    fits visit.path download ∧ download.disk.here = here
  answered : ∀ path download location content,
    .saved path download location content ∈ tour → download.Answers source content
  kept : ∀ visit ∈ tour, ∀ location, visit.location? = some location →
    ∃ file, keeps visit.path file ∧ location = absoluteNames here file.text
  downloads : Event.downloads events = (Visit.downloads tour).map Download.query
  saves : Event.saves events = tour.filterMap Visit.save?
  writes : Event.writes events = tour.filterMap Visit.write?

section

variable {source : Source σ} {next : Query → Bytes → List Text} {fits : Text → Download → Prop}
  {keeps : Text → LocalPath → Prop} {here : Text} {start : List Text} {tour : List Visit}
  {events : List Event}

/-- The events of a run that explores are an account of it, also when others are added that ask for
no file and write none. -/
theorem Explored.account {before middle after : World σ} {done : Prop}
    (h : Explored source next fits keeps start middle after done tour)
    (proper : ∀ name ∈ middle.disk.cwd, IsProper name)
    (trace : after.trace = events ++ before.trace)
    (told : ∀ older, Event.downloads (events ++ older) =
        (Visit.downloads tour).map Download.query ++ Event.downloads older ∧
      Event.saves (events ++ older) = tour.filterMap Visit.save? ++ Event.saves older)
    (silent : Event.writes middle.trace = Event.writes before.trace) :
    Account source next fits keeps middle.disk.here start tour events := by
  obtain ⟨downloads, saves⟩ := told []
  rw [List.append_nil] at downloads saves
  have saves : Event.saves events = tour.filterMap Visit.save? := saves.trans (List.append_nil _)
  exact
    { once := h.tours.once
      reached := h.reaches
      asked := fun visit mem download asked => by
        have toured := List.mem_filterMap.mpr ⟨visit, mem, asked⟩
        exact ⟨h.fits visit mem download asked, congrArg (spell .root) (h.tours.seen download toured)⟩
      answered := h.tours.answered
      kept := fun visit mem location written => by
        obtain ⟨file, keep, leads⟩ := h.kept visit mem location written
        exact ⟨file, keep, leads.eq proper⟩
      downloads := downloads.trans (List.append_nil _)
      saves := saves
      writes := by
        have all := h.tours.writes
        rw [silent, trace, Event.writes_append] at all
        exact List.append_cancel_right all }

namespace Account

/-- Nothing is told about nothing. -/
theorem nil : Account source next fits keeps here start [] [] where
  once := .nil
  reached := reaches_nil
  asked _ mem := absurd mem List.not_mem_nil
  answered _ _ _ _ mem := absurd mem List.not_mem_nil
  kept _ mem := absurd mem List.not_mem_nil
  downloads := rfl
  saves := rfl
  writes := rfl

variable (account : Account source next fits keeps here start tour events)
include account

/-- A reference that was visited is one of the first ones, or a file that was written names it. -/
theorem named : ∀ path ∈ Visit.paths tour,
    path ∈ start ∨ ∃ save ∈ Event.saves events, path ∈ next save.1 save.2 := by
  rw [account.saves]
  exact account.reached.named

/-- What was written was written for a reference that was visited. -/
theorem exists_of_write {location : Location} {content : Bytes}
    (mem : (location, content) ∈ Event.writes events) :
    ∃ path download, .saved path download location content ∈ tour := by
  rw [account.writes] at mem
  obtain ⟨visit, toured, written⟩ := List.mem_filterMap.mp mem
  cases visit with
  | saved path download place bytes =>
    cases written
    exact ⟨path, download, toured⟩
  | _ => exact absurd written (Option.some_ne_none _).symm

/-- What was written is what a source has answered. -/
theorem answers_of_save {save : Query × Bytes} (mem : save ∈ Event.saves events) :
    ∃ download : Download, download.query = save.1 ∧ download.Answers source save.2 := by
  rw [account.saves] at mem
  obtain ⟨visit, toured, saved⟩ := List.mem_filterMap.mp mem
  cases visit with
  | saved path download location content =>
    cases saved
    exact ⟨download, rfl, account.answered path download location content toured⟩
  | _ => exact absurd saved (Option.some_ne_none _).symm

end Account

end

end WorkflowInstall

import Mathlib.Data.Finset.Card
import Mathlib.Order.Bounds.Defs
import WorkflowInstall.Proofs.Run.Tour

/-!
# Explorations

A run that is begun with some references visits these, and the references that the files which it
writes for them name, and so on. What such a run has visited is a closure.

## Main Definitions

* `Follows` — a file that was written for a reference names another reference
* `Closed` — a set holds the first references, and all that the written files name
* `Reaches`, `Settles` — a tour visits no more than the closure, and no less
* `Explored`, `Run.Explores` — what a run that is begun with some references has visited

## Main Statements

* `Explored.trans`, `Explored.descend` — explorations in a row, and of a file that was just written
* `Explored.isLeast_visited` — a run that is done has visited the least closed set
* `Explored.length_downloads_le` — no more files are asked for than the closure has references
* `Run.explores_visit_bind`, `Run.explores_cons`, `Run.explores_attempt_bind` — what a new one,
  a row of runs, and a run whose fault is passed over explore

## Design Notes

What a file names may depend on the question it was downloaded by, so `next` takes both. A run that
fails, or that goes on after a failure of one of its parts, has visited no more than the closure; it
is `done` when it has also visited no less.
-/

namespace WorkflowInstall

open Relation

variable {σ : Type}

section Closure

variable (next : Query → Bytes → List Text)

/-- A file that was written for a reference on a tour names another reference. -/
def Follows (tour : List Visit) (path other : Text) : Prop :=
  ∃ download location content, .saved path download location content ∈ tour ∧
    other ∈ next download.query content

/-- A set holds the first references, and all that the written files name. -/
def Closed (start : List Text) (saves : List (Query × Bytes)) (paths : Set Text) : Prop :=
  (∀ path ∈ start, path ∈ paths) ∧
    ∀ save ∈ saves, ∀ path ∈ next save.1 save.2, path ∈ paths

/-- Every reference of a tour is reached from the first ones along the files written on it. -/
def Reaches (start : List Text) (tour : List Visit) : Prop :=
  ∀ path ∈ Visit.paths tour, ∃ first ∈ start, ReflTransGen (Follows next tour) first path

/-- The first references, and all that the files written on a tour name, have been visited. -/
structure Settles (start : List Text) (tour : List Visit) (visited : List Text) : Prop where
  first : ∀ path ∈ start, path ∈ visited
  named : ∀ path download location content, .saved path download location content ∈ tour →
    ∀ other ∈ next download.query content, other ∈ visited

variable {next} {start : List Text} {tour more : List Visit}

theorem Follows.subset {path other : Text} (h : Follows next tour path other)
    (sub : tour ⊆ more) : Follows next more path other := by
  obtain ⟨download, location, content, saved, named⟩ := h
  exact ⟨download, location, content, sub saved, named⟩

theorem reaches_nil : Reaches next start [] := fun _ mem => absurd mem List.not_mem_nil

/-- What is reached from references that were reached is reached. -/
theorem Reaches.of_reached {first : List Text} (h : Reaches next first more) (sub : more ⊆ tour)
    (reached : ∀ path ∈ first, ∃ earlier ∈ start,
      ReflTransGen (Follows next tour) earlier path) :
    ∀ path ∈ Visit.paths more, ∃ earlier ∈ start,
      ReflTransGen (Follows next tour) earlier path := by
  intro path mem
  obtain ⟨middle, begins, chain⟩ := h path mem
  obtain ⟨earlier, begins, before⟩ := reached middle begins
  have wider : Follows next more ≤ Follows next tour := fun _ _ follows => follows.subset sub
  exact ⟨earlier, begins, before.trans (ReflTransGen.mono wider _ _ chain)⟩

theorem Reaches.append {others : List Text} (h : Reaches next start tour)
    (later : Reaches next others more) : Reaches next (start ++ others) (more ++ tour) := by
  intro path mem
  rw [Visit.paths, List.map_append, List.mem_append] at mem
  rcases mem with mem | mem
  · exact later.of_reached (List.subset_append_left more tour)
      (fun first begins => ⟨first, List.mem_append_right start begins, .refl⟩) path mem
  · exact h.of_reached (List.subset_append_right more tour)
      (fun first begins => ⟨first, List.mem_append_left others begins, .refl⟩) path mem

/-- The references that are reached lie in every closed set. -/
theorem Reaches.mem_of_closed (h : Reaches next start tour) {paths : Set Text}
    (closed : Closed next start (tour.filterMap Visit.save?) paths) :
    ∀ path ∈ Visit.paths tour, path ∈ paths := by
  intro path mem
  obtain ⟨first, begins, chain⟩ := h path mem
  induction chain with
  | refl => exact closed.1 first begins
  | tail _ follows _ =>
    obtain ⟨download, location, content, saved, named⟩ := follows
    exact closed.2 (download.query, content) (List.mem_filterMap.mpr ⟨_, saved, rfl⟩) _ named

/-- A reference that is reached is one of the first ones, or a file that was written names it. -/
theorem Reaches.named (h : Reaches next start tour) :
    ∀ path ∈ Visit.paths tour,
      path ∈ start ∨ ∃ save ∈ tour.filterMap Visit.save?, path ∈ next save.1 save.2 := by
  have closed : Closed next start (tour.filterMap Visit.save?)
      {path | path ∈ start ∨ ∃ save ∈ tour.filterMap Visit.save?, path ∈ next save.1 save.2} :=
    ⟨fun path begins => .inl begins, fun save saved path names => .inr ⟨save, saved, names⟩⟩
  exact h.mem_of_closed closed

theorem Settles.append {others visited : List Text} (h : Settles next start tour visited)
    (later : Settles next others more visited) :
    Settles next (start ++ others) (more ++ tour) visited where
  first path mem := (List.mem_append.mp mem).elim (h.first path) (later.first path)
  named path download location content mem :=
    (List.mem_append.mp mem).elim (later.named path download location content)
      (h.named path download location content)

theorem Settles.subset {visited others : List Text} (h : Settles next start tour visited)
    (sub : visited ⊆ others) : Settles next start tour others where
  first path mem := sub (h.first path mem)
  named path download location content mem other named :=
    sub (h.named path download location content mem other named)

/-- When all that should have been visited was visited, the visited references are closed. -/
theorem Settles.closed {visited : List Text} (h : Settles next start tour visited) :
    Closed next start (tour.filterMap Visit.save?) {path | path ∈ visited} := by
  refine ⟨h.first, ?_⟩
  rintro ⟨query, content⟩ mem other named
  obtain ⟨visit, mem, saved⟩ := List.mem_filterMap.mp mem
  cases visit with
  | saved path download location new =>
    cases saved
    exact h.named path download location content mem other named
  | _ => exact absurd saved (Option.some_ne_none _).symm

end Closure

/-! ## Runs that explore -/

/-- What was visited between two worlds, beginning with some references. Every file that was asked
for `fits` its reference, and every file that was written is one that `keeps` it. -/
structure Explored (source : Source σ) (next : Query → Bytes → List Text)
    (fits : Text → Download → Prop) (keeps : Text → LocalPath → Prop) (start : List Text)
    (before after : World σ) (done : Prop) (tour : List Visit) : Prop where
  tours : before.Tours source after tour
  fits : ∀ visit ∈ tour, ∀ download, visit.download? = some download → fits visit.path download
  kept : ∀ visit ∈ tour, ∀ location, visit.location? = some location →
    ∃ file, keeps visit.path file ∧ Disk.LeadsFrom before.disk.cwd file.text location
  reaches : Reaches next start tour
  settles : done → Settles next start tour after.visited

/-- What a run visits that begins with some references. It visits all that it should when it ends
well and is `whole`. -/
def Run.Explores (source : Source σ) (next : Query → Bytes → List Text)
    (fits : Text → Download → Prop) (keeps : Text → LocalPath → Prop) (whole : Prop)
    (start : List Text) (run : Run σ Unit) (world : World σ) : Prop :=
  ∃ tour, Explored source next fits keeps start world (run world).2
    (whole ∧ (run world).1 = .ok ()) tour

namespace Explored

variable {source : Source σ} {next : Query → Bytes → List Text} {fits : Text → Download → Prop}
  {keeps : Text → LocalPath → Prop} {start others : List Text} {before middle after : World σ}
  {done before_done : Prop}
  {tour more : List Visit} {path : Text}

/-- Nothing is visited when nothing new is asked for. -/
theorem still (idle : before.Idle after) (known : done → ∀ path ∈ start, path ∈ before.visited) :
    Explored source next fits keeps start before after done [] where
  tours := (World.Tours.refl source before).idle idle
  fits _ mem := absurd mem List.not_mem_nil
  kept _ mem := absurd mem List.not_mem_nil
  reaches := reaches_nil
  settles is_done :=
    { first := fun path mem => idle.visited ▸ known is_done path mem
      named := fun _ _ _ _ mem => absurd mem List.not_mem_nil }

/-- Explorations in a row. -/
theorem trans (h : Explored source next fits keeps start before middle before_done tour)
    (later : Explored source next fits keeps others middle after done more)
    (earlier_done : done → before_done) :
    Explored source next fits keeps (start ++ others) before after done (more ++ tour) where
  tours := h.tours.trans later.tours
  fits visit mem := (List.mem_append.mp mem).elim (later.fits visit) (h.fits visit)
  kept visit mem := (List.mem_append.mp mem).elim (h.tours.cwd ▸ later.kept visit) (h.kept visit)
  reaches := h.reaches.append later.reaches
  settles is_done :=
    ((h.settles (earlier_done is_done)).subset later.tours.subset).append (later.settles is_done)

/-- An exploration that stops early is not done. -/
theorem cut (h : Explored source next fits keeps start before after before_done tour)
    (not_done : ¬ done) :
    Explored source next fits keeps (start ++ others) before after done tour where
  tours := h.tours
  fits := h.fits
  kept := h.kept
  reaches := by
    have none : Reaches next others [] := reaches_nil
    exact h.reaches.append none
  settles is_done := absurd is_done not_done

/-- A reference is visited for which nothing is written. -/
theorem leaf {visit : Visit} (tours : before.Tours source after [visit])
    (fit : ∀ download, visit.download? = some download → fits visit.path download)
    (unsaved : visit.save? = none) :
    Explored source next fits keeps [visit.path] before after done [visit] where
  tours := tours
  fits other mem download asked := by
    rw [List.mem_singleton.mp mem] at asked ⊢
    exact fit download asked
  kept other mem location written := by
    rw [List.mem_singleton.mp mem] at written
    cases visit with
    | saved path download place content => exact absurd unsaved (Option.some_ne_none _)
    | _ => exact absurd written (Option.some_ne_none _).symm
  reaches path mem := ⟨path, mem, .refl⟩
  settles _ :=
    { first := fun path mem => by
        rw [tours.visited]
        exact List.mem_append_left before.visited mem
      named := fun path download location content mem => by
        rw [← List.mem_singleton.mp mem] at unsaved
        exact absurd unsaved (Option.some_ne_none _) }

/-- A reference is visited whose file is not asked for. -/
theorem passed (tours : before.Tours source after [.passed path]) :
    Explored source next fits keeps [path] before after done [.passed path] :=
  .leaf tours (fun _ none => absurd none (Option.some_ne_none _).symm) rfl

/-- A reference is visited whose file is asked for and not written. -/
theorem asked {download : Download} (tours : before.Tours source after [.asked path download])
    (fit : fits path download) :
    Explored source next fits keeps [path] before after done [.asked path download] := by
  refine .leaf tours (fun other same => ?_) rfl
  cases same
  exact fit

/-- A reference is visited, and then what the file that was written for it names. -/
theorem descend {download : Download} {location : Location} {content : Bytes}
    (tours : before.Tours source middle [.saved path download location content])
    (fit : fits path download) {file : LocalPath} (keep : keeps path file)
    (written : Disk.LeadsFrom before.disk.cwd file.text location)
    (h : Explored source next fits keeps (next download.query content) middle after done more) :
    Explored source next fits keeps [path] before after done
      (more ++ [.saved path download location content]) where
  tours := tours.trans h.tours
  fits visit mem other asked := by
    rcases List.mem_append.mp mem with mem | mem
    · exact h.fits visit mem other asked
    · rw [List.mem_singleton.mp mem] at asked ⊢
      cases asked
      exact fit
  kept visit mem place stored := by
    rcases List.mem_append.mp mem with mem | mem
    · rw [← tours.cwd]
      exact h.kept visit mem place stored
    · rw [List.mem_singleton.mp mem] at stored ⊢
      cases stored
      exact ⟨file, keep, written⟩
  reaches := by
    intro other mem
    rw [Visit.paths, List.map_append, List.mem_append] at mem
    have saved : .saved path download location content ∈
        more ++ [.saved path download location content] :=
      List.mem_append_right more (List.mem_singleton.mpr rfl)
    rcases mem with mem | mem
    · refine h.reaches.of_reached (List.subset_append_left more _) ?_ other mem
      intro first named
      exact ⟨path, List.mem_singleton.mpr rfl, .single ⟨download, location, content, saved, named⟩⟩
    · exact ⟨other, mem, .refl⟩
  settles is_done := by
    have all := h.settles is_done
    refine ⟨fun first mem => ?_, fun other found place new mem => ?_⟩
    · refine h.tours.subset ?_
      rw [tours.visited]
      exact List.mem_append_left before.visited mem
    · rcases List.mem_append.mp mem with mem | mem
      · exact all.named other found place new mem
      · cases List.mem_singleton.mp mem
        exact all.first

/-- Nothing is added while nothing is visited. -/
theorem idle (h : Explored source next fits keeps start before middle before_done tour)
    (idle : middle.Idle after) (earlier_done : done → before_done) :
    Explored source next fits keeps start before after done tour where
  tours := h.tours.idle idle
  fits := h.fits
  kept := h.kept
  reaches := h.reaches
  settles is_done := by
    rw [idle.visited]
    exact h.settles (earlier_done is_done)

/-- A run that is done has visited the least closed set. -/
theorem isLeast_visited (h : Explored source next fits keeps start before after done tour)
    (is_done : done) (fresh : before.visited = []) :
    IsLeast {paths | Closed next start (tour.filterMap Visit.save?) paths}
      {path | path ∈ after.visited} := by
  refine ⟨(h.settles is_done).closed, fun paths closed path mem => ?_⟩
  have visited : path ∈ after.visited := mem
  rw [h.tours.visited, fresh, List.append_nil] at visited
  exact h.reaches.mem_of_closed closed path visited

/-- What was written is what a source has answered. -/
theorem answered (h : Explored source next fits keeps start before after done tour)
    {save : Query × Bytes} (mem : save ∈ tour.filterMap Visit.save?) :
    ∃ download : Download, download.query = save.1 ∧ download.Answers source save.2 := by
  obtain ⟨visit, toured, saved⟩ := List.mem_filterMap.mp mem
  cases visit with
  | saved path download location content =>
    cases saved
    exact ⟨download, rfl, h.tours.answered path download location content toured⟩
  | _ => exact absurd saved (Option.some_ne_none _).symm

/-- No more files are asked for than a closed set has references. -/
theorem length_downloads_le (h : Explored source next fits keeps start before after done tour)
    {paths : Finset Text} (closed : Closed next start (tour.filterMap Visit.save?) paths) :
    (Visit.downloads tour).length ≤ paths.card := by
  have inside : (Visit.paths tour).toFinset ⊆ paths := by
    intro path mem
    exact h.reaches.mem_of_closed closed path (List.mem_toFinset.mp mem)
  calc (Visit.downloads tour).length
      ≤ tour.length := List.length_filterMap_le Visit.download? tour
    _ = (Visit.paths tour).length := (List.length_map _).symm
    _ = (Visit.paths tour).toFinset.card := (List.toFinset_card_of_nodup h.tours.once).symm
    _ ≤ paths.card := Finset.card_le_card inside

end Explored

namespace Run

variable {source : Source σ} {next : Query → Bytes → List Text} {fits : Text → Download → Prop}
  {keeps : Text → LocalPath → Prop} {whole : Prop} {start others : List Text} {world : World σ}

/-- A run that explores stays at the same workflow and forgets nothing that was visited. -/
theorem spec_visited_of_explores {run : Run σ Unit}
    (h : Explores source next fits keeps whole start run world) :
    (run world).2.spec = world.spec ∧ world.visited ⊆ (run world).2.visited := by
  obtain ⟨tour, explored⟩ := h
  exact ⟨explored.tours.spec, explored.tours.subset⟩

/-- A run that need not be whole explores no more. -/
theorem Explores.of_whole {run : Run σ Unit}
    (h : Explores source next fits keeps whole start run world) :
    Explores source next fits keeps False start run world := by
  obtain ⟨tour, explored⟩ := h
  exact ⟨tour, explored.idle (.refl _) fun is_done => is_done.1.elim⟩

/-- A run that begins with nothing and visits nothing. -/
theorem explores_idle {run : Run σ Unit} (idle : world.Idle (run world).2) :
    Explores source next fits keeps whole [] run world :=
  ⟨[], .still idle fun _ _ mem => absurd mem List.not_mem_nil⟩

/-- A run that begins with a reference that was visited before, and visits nothing. -/
theorem explores_known {path : Text} {run : Run σ Unit} (idle : world.Idle (run world).2)
    (known : path ∈ world.visited) : Explores source next fits keeps whole [path] run world :=
  ⟨[], .still idle fun _ _ mem => List.mem_singleton.mp mem ▸ known⟩

/-- A run that fails at once is not done with what it should have begun with. -/
theorem explores_fail (fault : Fault) :
    Explores source next fits keeps whole start (fail fault) world :=
  ⟨[], .still (.refl world) fun is_done => absurd is_done.2 (by simp)⟩

theorem explores_visited_bind {run : List Text → Run σ Unit}
    (later : Explores source next fits keeps whole start (run world.visited) world) :
    Explores source next fits keeps whole start (visited >>= run) world := later

/-- A new reference is visited, and what becomes of it depends on the working directory. -/
theorem explores_visit_bind {path : Text} {later : Text → Run σ Unit}
    (fresh : path ∉ world.visited)
    (explored : ∀ now, world.Tours source now [.passed path] →
      ∃ tour, Explored source next fits keeps [path] world (later now.disk.here now).2
        (whole ∧ (later now.disk.here now).1 = .ok ()) tour) :
    Explores source next fits keeps whole [path] (visit path >>= fun _ => cwd >>= later) world :=
  explored (visit path world).2 ((World.Tours.refl source world).visit fresh)

/-- Two runs in a row explore what each of them explores. -/
theorem explores_bind {first second : Run σ Unit}
    (h : Explores source next fits keeps whole start first world)
    (later : ∀ after, first world = (.ok (), after) →
      Explores source next fits keeps whole others second after) :
    Explores source next fits keeps whole (start ++ others) (first >>= fun _ => second) world := by
  obtain ⟨tour, explored⟩ := h
  rw [Explores, bind_apply]
  cases result : first world with
  | mk outcome after =>
    rw [result] at explored
    cases outcome with
    | ok value =>
      obtain ⟨more, explored'⟩ := later after result
      exact ⟨more ++ tour, explored.trans explored' fun is_done => ⟨is_done.1, rfl⟩⟩
    | error fault => exact ⟨tour, explored.cut fun is_done => absurd is_done.2 (by simp)⟩

/-- A row of runs, one for each item, explores what the items name. -/
theorem explores_cons {α : Type} {names : α → Option Text} {item : α} {items : List α}
    {first second : Run σ Unit}
    (h : Explores source next fits keeps whole (names item).toList first world)
    (later : ∀ after, first world = (.ok (), after) →
      Explores source next fits keeps whole (items.filterMap names) second after) :
    Explores source next fits keeps whole ((item :: items).filterMap names)
      (first >>= fun _ => second) world := by
  have both := explores_bind h later
  rw [List.filterMap_cons]
  cases named : names item with
  | none => rwa [named] at both
  | some path => rwa [named] at both

/-- What a run explores is not more or less when its fault is passed over, unless the run is whole:
then it must not be passed over. -/
theorem explores_attempt_bind {first : Run σ Unit} {later : Except Fault Unit → Run σ Unit}
    (h : Explores source next fits keeps whole start first world)
    (idle : ∀ outcome after, World.Idle after (later outcome after).2)
    (firm : whole → ∀ outcome after, first world = (outcome, after) →
      (later outcome after).1 = .ok () → outcome = .ok ()) :
    Explores source next fits keeps whole start (attempt first >>= later) world := by
  obtain ⟨tour, explored⟩ := h
  refine ⟨tour, explored.idle (idle _ _) fun is_done => ⟨is_done.1, ?_⟩⟩
  exact firm is_done.1 _ _ rfl is_done.2

end Run

end WorkflowInstall

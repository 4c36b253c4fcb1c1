import WorkflowInstall.Proofs.Install.Step
import WorkflowInstall.Proofs.Run.Questions

/-!
# Why a run ends with a fault

A run that is begun with some references and goes on with the files that it writes may end with a
fault. The fault then goes back to one of the references, or to one of the files, or the files lie
more deeply than is followed.

## Main Definitions

* `Source.FilesFailSoftly`, `Source.BranchesFailSoftly` — sources that fail in the expected ways
* `Blame` — what can be blamed for a fault
* `Stops` — why a run ends with a fault
* `Run.StopsFor` — a run ends with a fault for no other reason
* `Run.FailsOnly` — all faults of a run are of one kind

## Main Statements

* `Run.stopsFor_bind` — rows of runs
* `Stops.descend` — what stops in a file stops where the file was asked for

## Design Notes

Each file that is gone on with was written, so a run that reaches the end of the depth has written
as many files as the depth says.
-/

namespace WorkflowInstall

variable {σ α β : Type}

/-- A download that fails is a lookup that failed. -/
def Source.FilesFailSoftly (source : Source σ) : Prop :=
  ∀ disk state owner repo path ref fault,
    (source.file disk state owner repo path ref).outcome = .error fault →
      fault.isLookupFailure = true

/-- A default branch that cannot be found out is a lookup that failed. -/
def Source.BranchesFailSoftly (source : Source σ) : Prop :=
  ∀ disk state slug fault,
    (source.branch disk state slug).outcome = .error fault → fault.isLookupFailure = true

namespace Table

variable {table : Table}

theorem filesFailSoftly (answers : ∀ file ∈ table.files, ∀ fault, file.answer = .error fault →
    fault.isLookupFailure = true) : (table.source σ).FilesFailSoftly := by
  intro disk state owner repo path ref fault failed
  have answer : table.file owner repo path ref = .error fault := failed
  unfold Table.file at answer
  dsimp only at answer
  split at answer
  case h_1 file found => exact answers file (List.mem_of_find?_eq_some found) fault answer
  case h_2 =>
    cases answer
    rfl

/-- A field that is missing is a lookup that failed. -/
theorem field_isLookupFailure {asked : Text} {answer : Except Fault (Option Text)} {fault : Fault}
    (soft : ∀ fault, answer = .error fault → fault.isLookupFailure = true)
    (h : field asked answer = .error fault) : fault.isLookupFailure = true := by
  unfold field at h
  split at h
  case h_1 => exact absurd h (by simp)
  case h_2 =>
    cases h
    rfl
  case h_3 other =>
    cases h
    exact soft _ rfl

theorem branchesFailSoftly
    (answers : ∀ fault, table.branch = .error fault → fault.isLookupFailure = true) :
    (table.source σ).BranchesFailSoftly :=
  fun _ _ _ _ failed => field_isLookupFailure answers failed

/-- A source that has some files and knows of no fault fails in the expected ways. -/
theorem soft_ofFiles (slug : Text) (files : List (Text × Bytes)) (σ : Type) :
    ((ofFiles slug files).source σ).FilesFailSoftly ∧
      ((ofFiles slug files).source σ).BranchesFailSoftly := by
  refine ⟨filesFailSoftly fun file mem fault answer => ?_,
    branchesFailSoftly fun fault answer => ?_⟩
  · obtain ⟨named, -, rfl⟩ := List.mem_map.mp mem
    exact absurd answer (by simp)
  · exact absurd answer (by simp [ofFiles])

end Table

/-- What can be blamed for a fault. -/
structure Blame where
  /-- The references that a downloaded file names. -/
  next : Query → Bytes → List Text
  /-- Whether a reference can be blamed for a fault. -/
  path : Text → Fault → Prop
  /-- Whether a downloaded file can be blamed for a fault. -/
  file : Query → Bytes → Fault → Prop

/-- Why a run ends with a fault that is begun with some references and has written some files. -/
inductive Stops (blame : Blame) (start : List Text) (depth : Nat) (saves : List (Query × Bytes))
    (fault : Fault) : Prop
  /-- One of the first references is to blame. -/
  | first {path : Text} (begins : path ∈ start) (blamed : blame.path path fault) :
      Stops blame start depth saves fault
  /-- A reference is to blame that a written file names. -/
  | named {save : Query × Bytes} {path : Text} (saved : save ∈ saves)
      (names : path ∈ blame.next save.1 save.2) (blamed : blame.path path fault) :
      Stops blame start depth saves fault
  /-- A written file is to blame. -/
  | written {save : Query × Bytes} (saved : save ∈ saves)
      (blamed : blame.file save.1 save.2 fault) : Stops blame start depth saves fault
  /-- The written files lie too deeply. -/
  | tooDeep (deep : depth ≤ saves.length) (same : fault = .tooDeep) :
      Stops blame start depth saves fault

namespace Stops

variable {blame : Blame} {start others : List Text} {depth : Nat}
  {saves more : List (Query × Bytes)} {fault : Fault}

/-- What was asked for and written besides does not matter. -/
theorem widen (h : Stops blame start depth saves fault) (sub : start ⊆ others) :
    Stops blame others depth (saves ++ more) fault := by
  cases h with
  | first begins blamed => exact .first (sub begins) blamed
  | named saved names blamed => exact .named (List.mem_append_left more saved) names blamed
  | written saved blamed => exact .written (List.mem_append_left more saved) blamed
  | tooDeep deep same =>
    refine .tooDeep (Nat.le_trans deep ?_) same
    rw [List.length_append]
    exact Nat.le_add_right _ _

/-- A run that stops in a file that was written stops where the file was asked for. -/
theorem descend {query : Query} {content : Bytes}
    (h : Stops blame (blame.next query content) depth saves fault) :
    Stops blame start (depth + 1) (saves ++ [(query, content)]) fault := by
  have last : (query, content) ∈ saves ++ [(query, content)] :=
    List.mem_append_right saves (List.mem_singleton.mpr rfl)
  cases h with
  | first begins blamed => exact .named last begins blamed
  | named saved names blamed => exact .named (List.mem_append_left _ saved) names blamed
  | written saved blamed => exact .written (List.mem_append_left _ saved) blamed
  | tooDeep deep same =>
    refine .tooDeep ?_ same
    rw [List.length_append]
    exact Nat.add_le_add_right deep 1

end Stops

namespace Run

/-- A run that is begun with some references ends with a fault for no other reason. -/
def StopsFor (blame : Blame) (start : List Text) (depth : Nat) (run : Run σ α) (world : World σ) :
    Prop :=
  ∃ queries saves, world.Tells (run world).2 queries saves ∧
    ∀ fault, (run world).1 = .error fault → Stops blame start depth saves fault

variable {blame : Blame} {start others : List Text} {depth : Nat} {world : World σ}

/-- A run that writes nothing stops for the reason of its fault. -/
theorem stopsFor_silent {run : Run σ α} {queries : List Query}
    (tells : world.Tells (run world).2 queries [])
    (blamed : ∀ fault, (run world).1 = .error fault → ∃ path ∈ start, blame.path path fault) :
    StopsFor blame start depth run world := by
  refine ⟨queries, [], tells, fun fault ends => ?_⟩
  obtain ⟨path, begins, blamed⟩ := blamed fault ends
  exact .first begins blamed

theorem stopsFor_visited_bind {next : List Text → Run σ α}
    (h : StopsFor blame start depth (next world.visited) world) :
    StopsFor blame start depth (visited >>= next) world := h

/-- A reference is visited, and what becomes of it depends on the working directory. -/
theorem stopsFor_visit_bind {path : Text} {next : Text → Run σ α}
    (h : ∀ now : World σ, now.disk = world.disk → now.spec = world.spec →
      StopsFor blame start depth (next world.disk.here) now) :
    StopsFor blame start depth (visit path >>= fun _ => cwd >>= next) world := by
  obtain ⟨queries, saves, tells, stops⟩ := h (visit path world).2 rfl rfl
  exact ⟨queries, saves, ⟨tells.spec, tells.queries, tells.saves⟩, stops⟩

/-- A run that does nothing of note and does not fail stops for no reason. -/
theorem stopsFor_idle {run : Run σ α} {value : α} (idle : world.Idle (run world).2)
    (ends : (run world).1 = .ok value) : StopsFor blame start depth run world :=
  stopsFor_silent idle.tells fun fault failed => absurd (ends.symm.trans failed) (by simp)

/-- A row of runs stops for the reasons of its parts. -/
theorem stopsFor_bind {first : Run σ α} {next : α → Run σ β}
    (h : StopsFor blame start depth first world)
    (later : ∀ value after, first world = (.ok value, after) →
      StopsFor blame others depth (next value) after) :
    StopsFor blame (start ++ others) depth (first >>= next) world := by
  obtain ⟨queries, saves, tells, stops⟩ := h
  unfold StopsFor
  rw [bind_apply]
  cases result : first world with
  | mk outcome after =>
    rw [result] at tells stops
    cases outcome with
    | error fault =>
      refine ⟨queries, saves, tells, fun other ends => ?_⟩
      cases ends
      rw [← List.append_nil saves]
      exact (stops fault rfl).widen (List.subset_append_left start others)
    | ok value =>
      obtain ⟨queries', saves', tells', stops'⟩ := later value after result
      exact ⟨_, _, tells.trans tells', fun fault ends =>
        (stops' fault ends).widen (List.subset_append_right start others)⟩

/-- A row of runs, one for each item, stops for the reasons of what the items name. -/
theorem stopsFor_cons {names : β → Option Text} {item : β} {items : List β}
    {first second : Run σ Unit} (h : StopsFor blame (names item).toList depth first world)
    (later : ∀ after, first world = (.ok (), after) →
      StopsFor blame (items.filterMap names) depth second after) :
    StopsFor blame ((item :: items).filterMap names) depth (first >>= fun _ => second) world := by
  have both := stopsFor_bind h fun _ after result => later after result
  rw [List.filterMap_cons]
  cases named : names item with
  | none => rwa [named] at both
  | some path => rwa [named] at both

/-- A file was written, and the run that goes on with it stops for the reasons of the file. -/
theorem StopsFor.descend {run : Run σ α} {before now : World σ} {queries : List Query}
    {query : Query} {content : Bytes} (tells : before.Tells now queries [(query, content)])
    (h : StopsFor blame (blame.next query content) depth run now) :
    ∃ queries saves, before.Tells (run now).2 queries saves ∧
      ∀ fault, (run now).1 = .error fault → Stops blame start (depth + 1) saves fault := by
  obtain ⟨more, saves, goes_on, stops⟩ := h
  exact ⟨_, _, tells.trans goes_on, fun fault ends => (stops fault ends).descend⟩

/-! ## Faults of one kind -/

/-- In whatever world a run begins, its faults are of one kind. -/
def FailsOnly (kind : Fault → Prop) (run : Run σ α) : Prop :=
  ∀ world fault, (run world).1 = .error fault → kind fault

end Run

end WorkflowInstall

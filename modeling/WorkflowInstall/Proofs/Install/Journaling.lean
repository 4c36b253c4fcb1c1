import WorkflowInstall.Proofs.Install.Recording
import WorkflowInstall.Proofs.Install.Repetition
import WorkflowInstall.Proofs.Staging.Journal

/-!
# The journal and the writes

The journal of an installation names the files that the installation has written, and keeps what
they held before. This is so wherever the installation breaks off.

## Main Definitions

* `Write` — a write by the path it was made at, and what was there before
* `Journal.Records` — a journal with some writes recorded in it
* `World.Journals` — the writes between two worlds are recorded in the journal
* `Install.HasOneRoot` — all files are spelled from one root

## Main Statements

* `Journal.Records.note`, `World.Journals.wrote` — one more write is recorded
* `Install.Step.journals`, `Install.journals_of_steps` — a step is journaled, and so is a row
* `Install.add_journaled` — the journal after an installation

## Design Notes

A trace tells places, and a journal tells absolute paths. A place has a path from each of the two
roots, so a list of the paths that were written stands between them. Only the name of a workflow can
begin in another root than the target, and the name of a workflow that was read never does.
-/

namespace WorkflowInstall

open Path Disk Run

variable {σ : Type}

/-- What an event says about a write: the place, and what was there before. -/
def Event.overwrite? : Event → Option (Location × Option Bytes)
  | .wrote location before _ => some (location, before)
  | _ => none

theorem Event.overwrite?_of_isQuiet {event : Event} (h : event.isQuiet = true) :
    event.overwrite? = none := by
  cases event <;> first | rfl | exact absurd h Bool.false_ne_true

/-- A write by the path it was made at, and what was there before. -/
structure Write where
  path : Text
  before : Option Bytes

namespace Write

/-- The absolute path that a write is recorded by. -/
def key (here : Text) (write : Write) : Text := absolute here write.path

/-- What a trace tells about a write. -/
def told (here : Text) (write : Write) : Location × Option Bytes :=
  (absoluteNames here write.path, write.before)

end Write

/-! ## Writes in a journal -/

/-- One journal is another one in which some writes were recorded, given the last one first. -/
structure Journal.Records (here : Text) (old : Journal) (writes : List Write) (new : Journal) :
    Prop where
  exact : new.IsExact
  /-- What is named was named before or has been written. -/
  paths : ∀ key, key ∈ new.paths ↔ key ∈ old.paths ∨ ∃ write ∈ writes, write.key here = key
  /-- What was kept is kept. -/
  stays : ∀ key ∈ old.paths, new.earlier.lookup key = old.earlier.lookup key
  /-- What is kept now was there just before the first write. -/
  first : ∀ key content, key ∉ old.paths → new.earlier.lookup key = some content →
    ∃ later write sooner, writes = later ++ write :: sooner ∧ write.key here = key ∧
      write.before = some content ∧ ∀ other ∈ sooner, other.key here ≠ key

namespace Journal

variable {here : Text} {old new : Journal} {writes : List Write}

theorem records_nil (here : Text) (exact : old.IsExact) : old.Records here [] old where
  exact := exact
  paths key := by simp
  stays _ _ := rfl
  first key content fresh kept := by
    rw [exact.lookup_of_notMem fresh] at kept
    exact absurd kept (by simp)

/-- One more write is recorded. What is kept for it must be what was there. -/
theorem Records.note (h : old.Records here writes new) {write : Write} {earlier : Option Bytes}
    (truth : ∀ content, earlier = some content → write.before = some content) :
    old.Records here (write :: writes) (new.note (write.key here) earlier) where
  exact := h.exact.note _ _
  paths key := by
    rw [mem_paths_note, h.paths, or_assoc]
    simp only [List.mem_cons, exists_eq_or_imp]
    exact or_congr_right (or_comm.trans (or_congr_left eq_comm))
  stays key known := by
    rw [h.exact.lookup_note, if_neg, h.stays key known]
    rintro ⟨rfl, fresh⟩
    exact fresh ((h.paths _).mpr (.inl known))
  first key content fresh kept := by
    rw [h.exact.lookup_note] at kept
    split at kept
    case isTrue new =>
      -- No write has been recorded by this path yet.
      obtain ⟨rfl, unnamed⟩ := new
      refine ⟨[], write, writes, rfl, rfl, truth content kept, fun other mem same => ?_⟩
      exact unnamed ((h.paths _).mpr (.inr ⟨other, mem, same⟩))
    case isFalse =>
      obtain ⟨later, found, sooner, split, place, before, apart⟩ := h.first key content fresh kept
      exact ⟨write :: later, found, sooner, congrArg (write :: ·) split, place, before, apart⟩

end Journal

/-- The writes between two worlds, the last one first, are those that the trace tells and that the
journal has recorded. -/
structure World.Journals (old : Journal) (before after : World σ) (writes : List Write)
    (new : Journal) : Prop where
  here : after.disk.here = before.disk.here
  name : after.spec.name = before.spec.name
  journal : after.journal = some new
  records : old.Records before.disk.here writes new
  trace : ∃ events, after.trace = events ++ before.trace ∧
    events.filterMap Event.overwrite? = writes.map (Write.told before.disk.here)

namespace World.Journals

variable {old new : Journal} {start before after : World σ} {writes : List Write}

/-- A quiet run writes nothing. -/
theorem quiet (h : Journals old start before writes new) (quiet : before.Quiet after) :
    Journals old start after writes new := by
  obtain ⟨events, trace, told⟩ := h.trace
  obtain ⟨more, quiet_trace, leaves⟩ := quiet.trace
  have silent : more.filterMap Event.overwrite? = [] :=
    List.filterMap_eq_nil_iff.mpr fun event mem => Event.overwrite?_of_isQuiet (leaves event mem)
  refine ⟨?_, quiet.name.trans h.name, quiet.journal.trans h.journal, h.records,
    more ++ events, ?_, ?_⟩
  · rw [quiet.disk, h.here]
  · rw [quiet_trace, trace, List.append_assoc]
  · rw [List.filterMap_append, silent, told, List.nil_append]

/-- Directories may be made without a record. -/
theorem made (h : Journals old start before writes new) {disk : Disk}
    (here : disk.here = before.disk.here) :
    Journals old start { before with disk := disk } writes new where
  here := here.trans h.here
  name := h.name
  journal := h.journal
  records := h.records
  trace := h.trace

/-- A file is written and recorded. What is kept for it must be what was there. -/
theorem wrote (h : Journals old start before writes new) {path : Text} {disk : Disk}
    {location : Location} {earlier : Option Bytes} (here : disk.here = before.disk.here)
    (place : location = absoluteNames before.disk.here path)
    (truth : ∀ content, earlier = some content → disk.file? location = some content)
    (content : Bytes) :
    Journals old start ((before.wrote disk location content).noted path earlier)
      (⟨path, disk.file? location⟩ :: writes)
      (new.note (absolute start.disk.here path) earlier) := by
  obtain ⟨events, trace, told⟩ := h.trace
  have after_here : (disk.put location (.file content)).here = start.disk.here := by
    rw [Disk.here, cwd_put]
    exact here.trans h.here
  refine ⟨after_here, h.name, ?_, h.records.note truth,
    .wrote location (disk.file? location) content :: events, congrArg (_ :: ·) trace, ?_⟩
  · show before.journal.map _ = _
    rw [h.journal]
    exact congrArg (fun here => some (new.note (absolute here path) earlier)) after_here
  · have last : Event.overwrite? (.wrote location (disk.file? location) content) =
        some (Write.told start.disk.here ⟨path, disk.file? location⟩) := by
      rw [place, h.here]
      rfl
    rw [List.filterMap_cons_some last, told]
    rfl

end World.Journals

namespace Install

/-- The workflow is written under a path that begins in the root of the target. -/
def HasOneRoot (target : LocalPath) (name : Text) : Prop :=
  (target.appendText (name ++ ".md")).anchor.rooted = target.anchor.rooted

instance (target : LocalPath) (name : Text) : Decidable (HasOneRoot target name) :=
  inferInstanceAs (Decidable (_ = _))

/-- What a file that may be written over held is what was there. -/
theorem Seen.content {force : Bool} {disk other : Disk} (tree : disk.IsTree)
    (further : disk.Furthers other) {path : Text} {location : Location}
    (written : other.writable path = .ok location) {content : Bytes}
    (seen : Seen force disk path (some content)) :
    other.file? location = some content := by
  obtain ⟨place, -⟩ := further.tree.writable_eq_ok written
  cases seen with
  | present _ _ read =>
    rw [further.files, place, further.here]
    exact tree.file?_of_read read

section Step

variable {target : LocalPath} (plain : target.IsPlain) {force early : Bool}
  {old new : Journal} {start before after : World σ} {writes : List Write}
include plain

/-- A step is journaled. Its writes are spelled from one root when all files are. -/
theorem Step.journals (tree : before.disk.IsTree) (step : Step target force early before after)
    (h : World.Journals old start before writes new) :
    ∃ more new, World.Journals old start after (more ++ writes) new ∧
      (HasOneRoot target start.spec.name → ∀ write ∈ more,
        write.key start.disk.here =
          spell target.anchor.rooted (absoluteNames start.disk.here write.path)) := by
  cases step with
  | quiet quiet => exact ⟨[], new, h.quiet quiet, fun _ write mem => absurd mem List.not_mem_nil⟩
  | makeDirs plain =>
    refine ⟨[], new, h.made (tree.makeDirs_furthers plain).here, ?_⟩
    exact fun _ write mem => absurd mem List.not_mem_nil
  | @write file disk location earlier content site seen written =>
    have further := site.furthers plain tree
    have place := (further.tree.writable_eq_ok written).1
    rw [further.here] at place
    have truth : ∀ content, earlier = some content → disk.file? location = some content := by
      rintro content rfl
      exact seen.content tree further written
    refine ⟨[⟨file.text, disk.file? location⟩], _, h.wrote further.here place truth content, ?_⟩
    intro one other mem
    rw [List.mem_singleton.mp mem]
    have rooted : file.anchor.rooted = target.anchor.rooted := by
      rcases site.anchor_cases with rfl | same
      · rw [h.name]
        exact one
      · rw [same]
    show absolute start.disk.here file.text = spell _ (absoluteNames start.disk.here file.text)
    rw [← h.here, Disk.here, LocalPath.absolute_text tree.cwd_isProper (site.isPlain plain),
      rooted]

/-- A row of steps is journaled. -/
theorem journals_of_steps (tree : before.disk.IsTree) (known : before.journal = some old)
    (exact : old.IsExact)
    (steps : Relation.ReflTransGen (Step target force early) before after) :
    ∃ writes new, World.Journals old before after writes new ∧
      (HasOneRoot target before.spec.name → ∀ write ∈ writes,
        write.key before.disk.here =
          spell target.anchor.rooted (absoluteNames before.disk.here write.path)) := by
  induction steps with
  | refl =>
    refine ⟨[], old, ⟨rfl, rfl, known, Journal.records_nil _ exact, [], rfl, rfl⟩, ?_⟩
    exact fun _ write mem => absurd mem List.not_mem_nil
  | tail steps step ih =>
    obtain ⟨writes, new, journals, rooted⟩ := ih
    obtain ⟨middle_tree, -⟩ := grows_of_steps plain tree steps
    obtain ⟨more, last, journals, more_rooted⟩ := step.journals plain middle_tree journals
    refine ⟨more ++ writes, last, journals, fun one write mem => ?_⟩
    exact (List.mem_append.mp mem).elim (more_rooted one write) (rooted one write)

end Step

/-- The files that an installation has written are the paths that its journal did not name
before. -/
theorem mem_written {before after : List Text} {fetched : FetchedWorkflow} {file : LocalPath}
    {path : Text} :
    path ∈ (summary before after fetched file).written ↔ path ∈ after ∧ path ∉ before := by
  simp [summary]

/-- An installation has an exact journal at hand. Whatever it ends with, the journal is exact
afterwards, and it names what it named before and the absolute paths of the files that have been
written, which the trace tells. It keeps the contents that it kept before, and for a file that it
did not name it keeps at most what was there just before the first write under that path. All paths
are spelled from one root when the name of the workflow does not begin in another one, and then a
place has one path. When the installation returns, it tells the paths that were not named before,
each of them once. -/
theorem add_journaled (source : Source σ) (dir : Text) (force includes imports : Bool)
    (depth : Nat) (world : World σ) (tree : world.disk.IsTree) {old : Journal}
    (known : world.journal = some old) (exact : old.IsExact) :
    let options : InstallOptions := ⟨LocalPath.ofText dir, force, includes, imports, depth⟩
    let result := add source options world
    ∃ writes new, World.Journals old world result.2 writes new ∧
      (HasOneRoot options.target world.spec.name → ∀ write ∈ writes,
        write.key world.disk.here =
          spell options.target.anchor.rooted (absoluteNames world.disk.here write.path)) ∧
      ∀ installed, result.1 = .ok installed → installed.written.Nodup ∧
        ∀ path, path ∈ installed.written ↔ path ∈ new.paths ∧ path ∉ old.paths := by
  intro options result
  have plain : options.target.IsPlain := LocalPath.isPlain_ofText dir
  have recorded : result = addRecorded source options world := add_recorded source options known
  have steps : Relation.ReflTransGen (Step options.target options.force true) world result.2 := by
    rw [recorded]
    exact addRecorded_steps source plain world
  obtain ⟨writes, new, journals, rooted⟩ := journals_of_steps plain tree known exact steps
  refine ⟨writes, new, journals, rooted, fun installed done => ?_⟩
  have returns : Returns (addRecorded source options) world installed result.2 := by
    rw [Returns, ← recorded, ← done]
  obtain ⟨fetched, found, written, -, -, -, told⟩ := returns_addRecorded.mp returns
  have before : paths world = old.paths := by rw [paths, known]; rfl
  have after : paths result.2 = new.paths := by rw [paths, journals.journal]; rfl
  rw [before, after] at told
  rw [← told]
  exact ⟨journals.records.exact.nodup_paths.filter _, fun path => mem_written⟩

/-- A workflow is written, and an include is written over the file that was there. -/
theorem add_journaled_include :
    let world : World Unit :=
      { World.fresh () ⟨[], [(["t"], .directory), (["t", "a.md"], .file [1])]⟩
          ⟨"o/r", [], "ci.md", "ci"⟩ with
        journal := some (.empty "/") }
    let files : List (Text × Bytes) := [("ci.md", Utf8.encode "@include a.md"), ("a.md", [2])]
    let options : InstallOptions := ⟨LocalPath.ofText "t", true, true, true, 3⟩
    let result := add ((Table.ofFiles "o/r" files).source Unit) options world
    world.disk.IsTree ∧ (Journal.empty "/").IsExact ∧
      HasOneRoot options.target world.spec.name ∧ result.1.isOk = true ∧
      result.2.journal = some ⟨"/", ["/t/ci.md"], ["/t/a.md"], [("/t/a.md", [1])]⟩ ∧
      ∃ writes new, World.Journals (.empty "/") world result.2 writes new := by
  intro world files options result
  have tree : world.disk.IsTree := isTree_of_entries (by decide) (by decide)
  have exact : (Journal.empty "/").IsExact := Journal.isExact_empty "/"
  obtain ⟨writes, new, journals, -⟩ :=
    add_journaled ((Table.ofFiles "o/r" files).source Unit) "t" true true true 3 world tree rfl
      exact
  refine ⟨tree, exact, by decide, ?_, ?_, writes, new, journals⟩
  · decide +kernel
  · decide +kernel

/-- The name of the workflow begins in the root `/` and the target in the root `//`, and the
workflow imports itself. The file has two paths in the journal, and under the second one the journal
keeps what the installation has written itself. -/
theorem not_first_two_roots :
    let text := Utf8.encode "---\nimports: [x.md]\n---\n"
    let file : Location := ["t", "x.md"]
    let world : World Unit :=
      { World.fresh () ⟨[], [(["t"], .directory), (file, .file [1])]⟩
          ⟨"o/r", "main", "wf/x.md", "/t/x"⟩ with
        journal := some (.empty "/") }
    let result := add ((Table.ofFiles "o/r" [("wf/x.md", text)]).source Unit)
      ⟨LocalPath.ofText "//t", true, true, true, 3⟩ world
    world.disk.IsTree ∧ (Journal.empty "/").IsExact ∧ result.1.isOk = true ∧
      result.2.journal = some ⟨"/", [], ["/t/x.md", "//t/x.md"],
        [("/t/x.md", [1]), ("//t/x.md", text)]⟩ ∧
      result.2.trace.filterMap Event.overwrite? = [(file, some text), (file, some [1])] := by
  intro text file world result
  refine ⟨isTree_of_entries (by decide) (by decide), Journal.isExact_empty "/", ?_, ?_, ?_⟩
  · decide +kernel
  · decide +kernel
  · decide +kernel

end Install

end WorkflowInstall

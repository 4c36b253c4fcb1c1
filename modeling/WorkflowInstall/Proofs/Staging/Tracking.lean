import WorkflowInstall.Proofs.Install.Step
import WorkflowInstall.Proofs.Staging.Journal
import WorkflowInstall.Proofs.Staging.RollBack

/-!
# Writes that are recorded are taken back

Files are written one after the other, each of them recorded with the content it had. Taking
everything back afterwards leaves the files as they were at the start.

## Main Definitions

* `Staging.writeTracked`, `Staging.writeAllTracked` — write files and record them
* `Staging.Tracked` — what holds between two writes

## Main Statements

* `Staging.writeTracked_apply` — what one write does
* `Staging.Tracked.write` — one write keeps what holds between two
* `Staging.rollBack_writeAllTracked` — taking all writes back

## Design Notes

Files are recorded by their absolute paths. All paths that do not begin with two slashes share one
root, so there a place has one such path, however it was spelled. A path that can be written can
have an absolute path that is too long, and then it cannot be taken back.
-/

namespace WorkflowInstall.Staging

open Path Disk Run

variable {σ : Type}

/-- Writes a file and records it with the content it had, if it was there. -/
def writeTracked (path : Text) (content : Bytes) : Run σ Unit := do
  if ← probe path then
    let earlier ← readFile path
    writeFile path content
    noteModified path (some earlier)
  else
    writeFile path content
    noteCreated path

/-- Writes files in order and records each of them. -/
def writeAllTracked : List (Text × Bytes) → Run σ Unit
  | [] => pure ()
  | (path, content) :: writes => do
    writeTracked path content
    writeAllTracked writes

/-- A file that can be written is written, and recorded with what was there. -/
theorem writeTracked_apply {world : World σ} (tree : world.disk.IsTree) {path : Text}
    {location : Location} (h : world.disk.writable path = .ok location) (content : Bytes) :
    writeTracked path content world =
      (.ok (), (world.wrote world.disk location content).noted path
        (world.disk.file? location)) := by
  have write : writeFile path content world =
      (.ok (), world.wrote world.disk location content) :=
    returns_writeFile.mpr ⟨location, h, rfl⟩
  have looked {isThere : Bool} (probed : world.disk.probe path = .ok isThere) :
      Run.probe path world = (.ok isThere, world) := by
    rw [Run.probe, ofDisk, probed]
  rcases find_of_writable h with ⟨old, found⟩ | found
  · have there : world.disk.file? location = some old :=
      file?_eq_some.mpr (tree.holds_of_find found)
    have probed : world.disk.probe path = .ok true := by rw [Disk.probe, found]
    have read : readFile path world = (.ok old, world) := by
      rw [readFile, ofDisk, Disk.read, found]
    rw [writeTracked, bind_apply, looked probed]
    dsimp only
    rw [if_pos rfl, bind_apply, read]
    dsimp only
    rw [bind_apply, write, there]
    rfl
  · have absent : world.disk.file? location = none :=
      file?_of_none (tree.holds_of_find found).1
    have probed : world.disk.probe path = .ok false := by rw [Disk.probe, found]
    rw [writeTracked, bind_apply, looked probed]
    dsimp only
    rw [if_neg Bool.false_ne_true, bind_apply, write, absent]
    rfl

/-- What holds between two writes: every file can be written that could be at the start, and the
journal tells all that has happened since, by paths that are not too long. -/
structure Tracked (start : World σ) (root : Text) (world : World σ) (journal : Journal) :
    Prop where
  tree : world.disk.IsTree
  here : world.disk.here = start.disk.here
  writable : ∀ {path location}, start.disk.writable path = .ok location →
    world.disk.writable path = .ok location
  known : world.journal = some journal
  root : journal.root = root
  fits : ∀ path ∈ journal.paths, byteLength path ≤ pathLimit
  covers : Covers .root start.disk.file? world.disk journal

theorem tracked_start {start : World σ} (tree : start.disk.IsTree) {root : Text}
    (blank : start.journal = some (.empty root)) : Tracked start root start (.empty root) where
  tree := tree
  here := rfl
  writable h := h
  known := blank
  root := rfl
  fits _ mem := absurd mem List.not_mem_nil
  covers := covers_empty _ _ _

/-- The path that a file is recorded by spells its place from the root. -/
theorem absolute_of_writable {disk : Disk} (tree : disk.IsTree) {path : Text} {location : Location}
    (h : disk.writable path = .ok location) (single : Anchor.ofText path ≠ .doubleRoot) :
    absolute disk.here path = spell .root location := by
  have rooted : (Anchor.ofText path).rooted = .root := by
    cases anchor : Anchor.ofText path with
    | doubleRoot => exact absurd anchor single
    | _ => rfl
  rw [(tree.writable_eq_ok h).1, Disk.here, absolute_eq tree.cwd_isProper, rooted,
    absoluteNames_eq tree.cwd_isProper]

/-- One write keeps what holds between two writes. -/
theorem Tracked.write {start world : World σ} {root : Text} {journal : Journal}
    (h : Tracked start root world journal) {path : Text} {location : Location}
    (place : start.disk.writable path = .ok location)
    (single : Anchor.ofText path ≠ .doubleRoot)
    (fits : byteLength (absolute start.disk.here path) ≤ pathLimit) (content : Bytes) :
    ∃ after journal, writeTracked path content world = (.ok (), after) ∧
      Tracked start root after journal := by
  have writable := h.writable place
  have is_open := (h.tree.writable_eq_ok writable).2
  have same := absolute_of_writable h.tree writable single
  let written := world.disk.put location (.file content)
  have after_here : written.here = world.disk.here :=
    congrArg (spell .root) (is_open.grows content).cwd
  have files (other : Location) : written.file? other =
      if other = location then some content else world.disk.file? other :=
    file?_put world.disk is_open.ne_nil content other
  have proper : ∀ name ∈ location, IsProper name := by
    obtain ⟨-, -, -, names, -⟩ := is_open.parent h.tree
    exact fun name mem => (names name mem).proper
  refine ⟨_, journal.note (spell .root location) (world.disk.file? location),
    writeTracked_apply h.tree writable content, ?_⟩
  refine ⟨h.tree.put is_open _, after_here.trans h.here, fun other => ?_, ?_, ?_, ?_, ?_⟩
  · exact h.tree.writable_put is_open content (h.writable other)
  · show world.journal.map _ = _
    rw [h.known, Option.map_some, ← same]
    exact congrArg (fun here => some (journal.note (absolute here path) _)) after_here
  · rw [Journal.root_note, h.root]
  · intro other mem
    rcases Journal.mem_paths_note.mp mem with mem | rfl
    · exact h.fits other mem
    · rwa [← same, h.here]
  · exact h.covers.note files rfl h.tree proper

/-- All writes are done, and the journal tells all of them. -/
theorem Tracked.writeAll {start world : World σ} {root : Text} {journal : Journal}
    (h : Tracked start root world journal) {writes : List (Text × Bytes)}
    (place : ∀ write ∈ writes, ∃ location, start.disk.writable write.1 = .ok location)
    (single : ∀ write ∈ writes, Anchor.ofText write.1 ≠ .doubleRoot)
    (fits : ∀ write ∈ writes, byteLength (absolute start.disk.here write.1) ≤ pathLimit) :
    ∃ after journal, writeAllTracked writes world = (.ok (), after) ∧
      Tracked start root after journal := by
  induction writes generalizing world journal with
  | nil => exact ⟨world, journal, rfl, h⟩
  | cons write writes ih =>
    obtain ⟨path, content⟩ := write
    rw [List.forall_mem_cons] at place single fits
    obtain ⟨location, writable⟩ := place.1
    obtain ⟨middle, more, written, tracked⟩ := h.write writable single.1 fits.1 content
    obtain ⟨after, last, rest, covers⟩ := ih tracked place.2 single.2 fits.2
    refine ⟨after, last, ?_, covers⟩
    rw [writeAllTracked, bind_apply, written]
    exact rest

/-- Nothing is taken back when nothing is recorded. -/
theorem rollBack_empty {world : World σ} {root : Text}
    (blank : world.journal = some (.empty root)) : rollBack world = (.ok (), world) := by
  obtain ⟨disk, git, remote, spec, visited, noted, verbose, trace⟩ := world
  cases blank
  rfl

/-- Files are written in directories that are there, all of them at paths whose absolute spelling
does not begin with two slashes and is not too long, and each of them is recorded. Taking everything
back ends without a fault. Then the files are as they were at the start, and nothing is recorded any
more, so that taking everything back once more changes nothing. -/
theorem rollBack_writeAllTracked {start : World σ} (tree : start.disk.IsTree) {root : Text}
    (blank : start.journal = some (.empty root)) {writes : List (Text × Bytes)}
    (place : ∀ write ∈ writes, ∃ location, start.disk.writable write.1 = .ok location)
    (single : ∀ write ∈ writes, Anchor.ofText write.1 ≠ .doubleRoot)
    (fits : ∀ write ∈ writes, byteLength (absolute start.disk.here write.1) ≤ pathLimit) :
    ∃ written after, writeAllTracked writes start = (.ok (), written) ∧
      rollBack written = (.ok (), after) ∧
      (∀ location, after.disk.file? location = start.disk.file? location) ∧
      after.journal = some (.empty root) ∧ rollBack after = (.ok (), after) := by
  obtain ⟨written, journal, done, tracked⟩ :=
    (tracked_start tree blank).writeAll place single fits
  have proper : ∀ {location content}, start.disk.file? location = some content →
      ∀ name ∈ location, IsProper name := tree.isProper_of_file?
  rcases tracked.covers.rollBack_cases tracked.tree rfl tracked.known proper with
    ⟨after, undone, cleared, same⟩ | ⟨path, mem, -, -, long⟩
  · rw [tracked.root] at cleared
    exact ⟨written, after, done, undone, same, cleared, rollBack_empty cleared⟩
  · exact absurd (tracked.fits path mem) (Nat.not_le.mpr long)

/-- An empty file and a new one, each of them written twice under different spellings. -/
theorem rollBack_writeAllTracked_spellings :
    let start : World Unit :=
      { World.fresh () ⟨["t"], [(["t"], .directory), (["t", "a"], .file [])]⟩ ⟨[], [], [], []⟩ with
        journal := some (.empty "/") }
    let writes : List (Text × Bytes) := [("a", [2]), ("../t/a", [3]), ("/t/b", [4]), ("b", [5])]
    start.disk.IsTree ∧ start.journal = some (.empty "/") ∧
      (∀ write ∈ writes, ∃ location, start.disk.writable write.1 = .ok location) ∧
      (∀ write ∈ writes, Anchor.ofText write.1 ≠ .doubleRoot) ∧
      (∀ write ∈ writes, byteLength (absolute start.disk.here write.1) ≤ pathLimit) ∧
      ∃ written after, writeAllTracked writes start = (.ok (), written) ∧
        rollBack written = (.ok (), after) ∧
        (∀ location, after.disk.file? location = start.disk.file? location) ∧
        after.journal = some (.empty "/") ∧ rollBack after = (.ok (), after) := by
  intro start writes
  have tree : start.disk.IsTree := isTree_of_entries (by decide) (by decide)
  have place : ∀ write ∈ writes, ∃ location, start.disk.writable write.1 = .ok location := by
    simp only [writes, List.forall_mem_cons]
    exact ⟨⟨["t", "a"], rfl⟩, ⟨["t", "a"], rfl⟩, ⟨["t", "b"], rfl⟩, ⟨["t", "b"], rfl⟩, nofun⟩
  have single : ∀ write ∈ writes, Anchor.ofText write.1 ≠ .doubleRoot := by decide
  have fits : ∀ write ∈ writes, byteLength (absolute start.disk.here write.1) ≤ pathLimit := by
    decide +kernel
  exact ⟨tree, rfl, place, single, fits, rollBack_writeAllTracked tree rfl place single fits⟩

/-- A directory so deep that a path of its files is hardly short enough, seen from the directory
`w`. -/
def deepDirectory : Location :=
  ("w" : Text) :: List.replicate 16 (List.replicate 62 '𝕏') ++ [List.replicate 27 '𝕏']

/-- A file in the deep directory. -/
def deepFile : Location := deepDirectory ++ [("a" : Text)]

/-- The path of that file, seen from the directory `w`. -/
def deepPath : Text := Text.joinWith "/" deepFile.tail

/-- A world with the deep directory and no file, seen from the directory `w`. -/
def deepWorld : World Unit :=
  let above := (List.range deepDirectory.length).map fun count =>
    (deepDirectory.take (count + 1), Node.directory)
  { World.fresh () ⟨["w"], above⟩ ⟨[], [], [], []⟩ with journal := some (.empty "/") }

/-- The file is written into the deep directory. -/
def deepWritten : Except Fault Unit × World Unit := writeAllTracked [(deepPath, [1])] deepWorld

/-- The file can be written, but its absolute path is too long, and so it is not taken away
again. -/
theorem not_takenBack_too_long :
    deepWorld.disk.IsTree ∧ (deepWorld.disk.writable deepPath).toOption = some deepFile ∧
      Anchor.ofText deepPath ≠ .doubleRoot ∧ deepWritten.1 = .ok () ∧
      (rollBack deepWritten.2).1.isOk = false ∧
      deepWorld.disk.file? deepFile = none ∧
      (rollBack deepWritten.2).2.disk.file? deepFile = some [1] := by
  have tree : deepWorld.disk.IsTree := isTree_of_entries (by decide +kernel) (by decide +kernel)
  have runs : deepWritten.1.isOk = true ∧ (rollBack deepWritten.2).1.isOk = false ∧
      (rollBack deepWritten.2).2.disk.file? deepFile = some [1] := by decide +kernel
  obtain ⟨written, stuck, still⟩ := runs
  refine ⟨tree, ?_, ?_, eq_ok_of_isOk written, stuck, ?_, still⟩
  · decide +kernel
  · decide +kernel
  · decide +kernel

end WorkflowInstall.Staging

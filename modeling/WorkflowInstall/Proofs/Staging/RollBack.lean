import WorkflowInstall.Proofs.Path.Absolute
import WorkflowInstall.Proofs.Run.Files
import WorkflowInstall.Proofs.Run.Quiet
import WorkflowInstall.Staging

/-!
# Taking writes back

What removing recorded files and restoring recorded contents does to the files, path by path, and
that both together undo a run whose journal tells everything.

## Main Definitions

* `Staging.Overlong` — a fault that says that a path is too long
* `Staging.Brings` — what a run that changes the files at some paths can end with
* `Staging.Covers` — a journal tells all that has happened to the files

## Main Statements

* `Staging.Brings.cons` — files are changed by changing the first one, and then the others
* `Staging.removeAll_brings` — removing files removes them, and only them, or a path is too long
* `Staging.restoreAll_brings` — restoring files restores them, and only them, or a path is too long
* `Staging.Covers.note` — a write that is recorded is told by the journal
* `Staging.Covers.undone` — what was there before, told by the journal
* `Staging.Covers.rollBack_cases` — taking everything back leaves the files as they were, or a path
  is too long

## Design Notes

Recorded paths are absolute, and the files at them are there when they are taken back. So a path
leads to its file, unless it has become too long by being made absolute.
-/

namespace WorkflowInstall.Staging

open Path Disk Run

variable {σ : Type}

/-- A fault that says that a path is too long. -/
def Overlong (fault : Fault) : Prop :=
  ∃ path, fault = .disk (.refused .nameTooLong path) ∧ pathLimit < byteLength path

/-- What a run that changes the files at some paths can end with: each of them holds what it is to
hold and no other file has changed, or one of the paths is too long. -/
inductive Brings (anchor : Anchor) (value : Text → Option Bytes) (paths : List Text)
    (world : World σ) : Except Fault Unit × World σ → Prop
  | done {after : World σ} (tree : after.disk.IsTree) (journal : after.journal = world.journal)
      (files : ∀ location, (∀ name ∈ location, IsProper name) → after.disk.file? location =
        if spell anchor location ∈ paths then value (spell anchor location)
        else world.disk.file? location) : Brings anchor value paths world (.ok (), after)
  | tooLong {path : Text} {after : World σ} (mem : path ∈ paths)
      (long : pathLimit < byteLength path) :
      Brings anchor value paths world (.error (.disk (.refused .nameTooLong path)), after)

namespace Brings

variable {anchor : Anchor} {value : Text → Option Bytes} {world : World σ}

theorem nothing (tree : world.disk.IsTree) : Brings anchor value [] world (.ok (), world) :=
  .done tree rfl fun _ _ => rfl

/-- The files at some paths are changed by changing the first one, and then the others. -/
theorem cons {first rest : Run σ Unit} {path : Text} {paths : List Text}
    (head : Brings anchor value [path] world (first world))
    (tail : ∀ middle : World σ, middle.disk.IsTree →
      (∀ location, (∀ name ∈ location, IsProper name) → middle.disk.file? location =
        if spell anchor location = path then value path else world.disk.file? location) →
      Brings anchor value paths middle (rest middle)) :
    Brings anchor value (path :: paths) world ((first >>= fun _ => rest) world) := by
  rw [bind_apply]
  generalize first world = result at head
  cases head with
  | tooLong mem long =>
    obtain rfl := List.mem_singleton.mp mem
    exact .tooLong List.mem_cons_self long
  | @done middle tree journal files =>
    have others := tail middle tree fun location proper => by
      rw [files location proper]
      by_cases here : spell anchor location = path
      · rw [if_pos (List.mem_singleton.mpr here), if_pos here, here]
      · rw [if_neg (mt List.mem_singleton.mp here), if_neg here]
    dsimp only
    generalize rest middle = result at others
    cases others with
    | tooLong mem long => exact .tooLong (List.mem_cons_of_mem path mem) long
    | done after_tree after_journal after_files =>
      refine .done after_tree (after_journal.trans journal) fun location proper => ?_
      rw [after_files location proper, files location proper]
      by_cases mem : spell anchor location ∈ paths
      · rw [if_pos mem, if_pos (List.mem_cons_of_mem path mem)]
      · simp only [List.mem_cons, List.not_mem_nil, mem, or_false, if_false]

end Brings

theorem removeAll_cons (path : Text) (paths : List Text) :
    (removeAll (path :: paths) : Run σ Unit) = removeAll [path] >>= fun _ => removeAll paths := by
  funext world
  rw [bind_apply, removeAll, removeAll, bind_apply, bind_apply, attempt_apply]
  generalize removeFile path world = result
  obtain ⟨outcome, after⟩ := result
  dsimp only
  split <;> rfl

theorem restoreAll_cons (earlier : List (Text × Bytes)) (path : Text) (paths : List Text) :
    (restoreAll earlier (path :: paths) : Run σ Unit) =
      restoreAll earlier [path] >>= fun _ => restoreAll earlier paths := by
  funext world
  rw [bind_apply, restoreAll, restoreAll]
  cases earlier.lookup path with
  | none => rfl
  | some content =>
    dsimp only
    rw [bind_apply, bind_apply]
    generalize writeFile path content world = result
    obtain ⟨outcome, after⟩ := result
    cases outcome <;> rfl

section Paths

variable {anchor : Anchor} (rooted : anchor.isRooted = true)
include rooted

/-- A file is found by its names from a root, unless they are too long. -/
theorem find_file {disk : Disk} (tree : disk.IsTree) {location : Location} {content : Bytes}
    (there : disk.file? location = some content) :
    disk.find (spell anchor location) = .ok (.present location (.file content)) ∨
      disk.find (spell anchor location) =
        .error (.refused .nameTooLong (spell anchor location)) ∧
        pathLimit < byteLength (spell anchor location) := by
  have node := file?_eq_some.mp there
  rcases Nat.lt_or_ge pathLimit (byteLength (spell anchor location)) with long | fits
  · exact Or.inr ⟨find_too_long rooted (tree.names node) long disk, long⟩
  · exact Or.inl (tree.find_names rooted node fits)

/-- A file whose spelling is known is at the place that it spells. -/
theorem eq_of_spell {disk : Disk} (tree : disk.IsTree) {location other : Location}
    {content : Bytes} (there : disk.file? location = some content)
    (proper : ∀ name ∈ other, IsProper name) (h : spell anchor other = spell anchor location) :
    other = location :=
  spell_injective rooted proper (tree.isProper_of_file? there) h

/-- The world after the file at a location was removed. -/
def removed (world : World σ) (location : Location) : World σ :=
  { world with
    disk := world.disk.erase location
    trace := .removed location :: world.trace }

theorem removeFile_cases {world : World σ} (tree : world.disk.IsTree) {location : Location}
    {content : Bytes} (there : world.disk.file? location = some content) :
    removeFile (spell anchor location) world = (.ok (), removed world location) ∨
      removeFile (spell anchor location) world =
        (.error (.disk (.refused .nameTooLong (spell anchor location))), world) ∧
        pathLimit < byteLength (spell anchor location) := by
  rw [removeFile, removable]
  rcases find_file rooted tree there with found | ⟨refused, long⟩
  · rw [found]
    exact Or.inl rfl
  · rw [refused]
    exact Or.inr ⟨rfl, long⟩

theorem writeFile_cases {world : World σ} (tree : world.disk.IsTree) {location : Location}
    {old : Bytes} (there : world.disk.file? location = some old) (content : Bytes) :
    writeFile (spell anchor location) content world =
        (.ok (), world.wrote world.disk location content) ∨
      writeFile (spell anchor location) content world =
        (.error (.disk (.refused .nameTooLong (spell anchor location))), world) ∧
        pathLimit < byteLength (spell anchor location) := by
  rw [writeFile, writable]
  rcases find_file rooted tree there with found | ⟨refused, long⟩
  · rw [found]
    exact Or.inl rfl
  · rw [refused]
    exact Or.inr ⟨rfl, long⟩

/-- A file comes to hold what it is to hold when that is all that a change does to the files. -/
theorem Brings.one {value : Text → Option Bytes} {world changed after : World σ}
    {location : Location} {content : Bytes} (before : world.disk.IsTree)
    (there : world.disk.file? location = some content) (quiet : changed.Quiet after)
    (tree : changed.disk.IsTree) (journal : changed.journal = world.journal)
    (files : ∀ other, changed.disk.file? other =
      if other = location then value (spell anchor location) else world.disk.file? other) :
    Brings anchor value [spell anchor location] world (.ok (), after) := by
  refine .done (quiet.disk ▸ tree) (quiet.journal.trans journal) fun other proper => ?_
  rw [quiet.disk, files]
  by_cases here : other = location
  · rw [here, if_pos rfl, if_pos List.mem_cons_self]
  · have apart : spell anchor other ∉ [spell anchor location] := fun mem =>
      here (eq_of_spell rooted before there proper (List.mem_singleton.mp mem))
    rw [if_neg here, if_neg apart]

/-- Removing files removes them and nothing else, or a path is too long. -/
theorem removeAll_brings {paths : List Text} {world : World σ} (tree : world.disk.IsTree)
    (recorded : ∀ path ∈ paths, ∃ location content,
      path = spell anchor location ∧ world.disk.file? location = some content)
    (nodup : paths.Nodup) :
    Brings anchor (fun _ => none) paths world (removeAll paths world) := by
  induction paths generalizing world with
  | nil => exact .nothing tree
  | cons path paths ih =>
    obtain ⟨location, content, rfl, there⟩ := recorded path List.mem_cons_self
    rw [List.nodup_cons] at nodup
    have head : Brings anchor (fun _ => none) [spell anchor location] world
        (removeAll [spell anchor location] world) := by
      rw [removeAll, bind_apply, attempt_apply]
      rcases removeFile_cases rooted tree there with done | ⟨failed, long⟩
      · rw [done]
        exact .one rooted tree there (quiet_log _ _ (removed world location))
          (tree.erase (file?_eq_some.mp there)) rfl
          (file?_erase world.disk (ne_nil_of_file? there))
      · rw [failed]
        exact .tooLong List.mem_cons_self long
    rw [removeAll_cons]
    refine head.cons fun middle middle_tree files => ih middle_tree ?_ nodup.2
    -- The other recorded files are still there.
    intro path mem
    obtain ⟨other, kept, rfl, other_there⟩ := recorded path (List.mem_cons_of_mem _ mem)
    refine ⟨other, kept, rfl, ?_⟩
    have apart : spell anchor other ≠ spell anchor location := fun same => nodup.1 (same ▸ mem)
    rw [files other (tree.isProper_of_file? other_there), if_neg apart]
    exact other_there

/-- Restoring files restores them and nothing else, or a path is too long. -/
theorem restoreAll_brings {earlier : List (Text × Bytes)} {paths : List Text} {world : World σ}
    (tree : world.disk.IsTree)
    (recorded : ∀ path ∈ paths, ∃ location content old, path = spell anchor location ∧
      earlier.lookup path = some content ∧ world.disk.file? location = some old) :
    Brings anchor (earlier.lookup ·) paths world (restoreAll earlier paths world) := by
  induction paths generalizing world with
  | nil => exact .nothing tree
  | cons path paths ih =>
    obtain ⟨location, content, old, rfl, kept, there⟩ := recorded path List.mem_cons_self
    have head : Brings anchor (earlier.lookup ·) [spell anchor location] world
        (restoreAll earlier [spell anchor location] world) := by
      rw [restoreAll, kept]
      dsimp only
      rw [bind_apply]
      rcases writeFile_cases rooted tree there content with done | ⟨failed, long⟩
      · rw [done]
        have put := file?_put world.disk (ne_nil_of_file? there) content
        rw [← kept] at put
        exact .one rooted tree there (quiet_log _ _ (world.wrote world.disk location content))
          (tree.put (.inr ⟨old, file?_eq_some.mp there⟩) _) rfl put
      · rw [failed]
        exact .tooLong List.mem_cons_self long
    rw [restoreAll_cons]
    refine head.cons fun middle middle_tree files => ih middle_tree ?_
    intro path mem
    obtain ⟨other, before, old, rfl, was, other_there⟩ := recorded path (List.mem_cons_of_mem _ mem)
    have now := files other (tree.isProper_of_file? other_there)
    -- A path may stand in the row twice; its file then holds what was restored the first time.
    split at now
    · exact ⟨other, before, content, rfl, was, now.trans kept⟩
    · exact ⟨other, before, old, rfl, was, now.trans other_there⟩

end Paths

/-! ## What a journal says about the files -/

/-- A journal tells all that has happened since the files were as given: what was created was not
there, what was changed is kept as it was, and all else is as it was. -/
structure Covers (anchor : Anchor) (files : Location → Option Bytes) (disk : Disk)
    (journal : Journal) : Prop where
  nodup : journal.created.Nodup
  created : ∀ path ∈ journal.created, ∃ location content, path = spell anchor location ∧
    files location = none ∧ disk.file? location = some content
  modified : ∀ path ∈ journal.modified, ∃ location content old, path = spell anchor location ∧
    files location = some content ∧ journal.earlier.lookup path = some content ∧
    disk.file? location = some old
  kept : ∀ path, (journal.earlier.lookup path).isSome = true → path ∈ journal.modified
  others : ∀ location, disk.file? location ≠ files location →
    spell anchor location ∈ journal.created ∨ spell anchor location ∈ journal.modified

theorem covers_empty (anchor : Anchor) (disk : Disk) (root : Text) :
    Covers anchor disk.file? disk (.empty root) where
  nodup := .nil
  created _ mem := absurd mem List.not_mem_nil
  modified _ mem := absurd mem List.not_mem_nil
  kept _ some := absurd some Bool.false_ne_true
  others _ changed := absurd rfl changed

namespace Covers

variable {anchor : Anchor} {files : Location → Option Bytes} {disk after : Disk} {journal : Journal}

theorem congr (h : Covers anchor files disk journal)
    (same : ∀ location, after.file? location = disk.file? location) :
    Covers anchor files after journal where
  nodup := h.nodup
  created path mem := by
    obtain ⟨location, content, spelled, absent, there⟩ := h.created path mem
    exact ⟨location, content, spelled, absent, (same location).trans there⟩
  modified path mem := by
    obtain ⟨location, content, old, spelled, before, kept, there⟩ := h.modified path mem
    exact ⟨location, content, old, spelled, before, kept, (same location).trans there⟩
  kept := h.kept
  others location changed := h.others location (same location ▸ changed)

/-- A place whose path is not recorded is as it was. -/
theorem unchanged (h : Covers anchor files disk journal) {location : Location}
    (created : spell anchor location ∉ journal.created)
    (modified : spell anchor location ∉ journal.modified) :
    disk.file? location = files location := by
  rcases Decidable.em (disk.file? location = files location) with same | changed
  · exact same
  · exact absurd (h.others location changed) (not_or.mpr ⟨created, modified⟩)

/-- A recorded path stands for a file at the place that it spells. -/
theorem file_of_mem (h : Covers anchor files disk journal) (rooted : anchor.isRooted = true)
    (tree : disk.IsTree) {location : Location} (proper : ∀ name ∈ location, IsProper name)
    (mem : spell anchor location ∈ journal.created ∨ spell anchor location ∈ journal.modified) :
    ∃ content, disk.file? location = some content := by
  rcases mem with mem | mem
  · obtain ⟨other, content, spelled, -, there⟩ := h.created _ mem
    obtain rfl := eq_of_spell rooted tree there proper spelled
    exact ⟨content, there⟩
  · obtain ⟨other, -, old, spelled, -, -, there⟩ := h.modified _ mem
    obtain rfl := eq_of_spell rooted tree there proper spelled
    exact ⟨old, there⟩

theorem still_there {location : Location} {content : Bytes} (written : ∀ other,
      after.file? other = if other = location then some content else disk.file? other)
    {other : Location} {old : Bytes} (there : disk.file? other = some old) :
    ∃ new, after.file? other = some new := by
  rw [written]
  split
  · exact ⟨content, rfl⟩
  · exact ⟨old, there⟩

section Write

variable (h : Covers anchor files disk journal) {location : Location} {content : Bytes}
  (written : ∀ other,
    after.file? other = if other = location then some content else disk.file? other)
include h written

/-- A recorded file can be written again. -/
theorem rewritten (recorded : spell anchor location ∈ journal.created ∨
    spell anchor location ∈ journal.modified) : Covers anchor files after journal where
  nodup := h.nodup
  created path mem := by
    obtain ⟨other, old, spelled, absent, there⟩ := h.created path mem
    obtain ⟨new, there⟩ := still_there written there
    exact ⟨other, new, spelled, absent, there⟩
  modified path mem := by
    obtain ⟨other, before, old, spelled, was, kept, there⟩ := h.modified path mem
    obtain ⟨new, there⟩ := still_there written there
    exact ⟨other, before, new, spelled, was, kept, there⟩
  kept := h.kept
  others other changed := by
    by_cases here : other = location
    · exact here ▸ recorded
    · rw [written, if_neg here] at changed
      exact h.others other changed

/-- A file that was not there is recorded as created. -/
theorem noteCreated (fresh : spell anchor location ∉ journal.created)
    (unmodified : spell anchor location ∉ journal.modified)
    (absent : disk.file? location = none) :
    Covers anchor files after (journal.noteCreated (spell anchor location)) := by
  have here : after.file? location = some content := by rw [written, if_pos rfl]
  rw [Journal.noteCreated, if_neg (not_or.mpr ⟨fresh, unmodified⟩)]
  constructor
  · rw [List.nodup_append]
    refine ⟨h.nodup, List.pairwise_singleton _ _, fun path mem other alone => ?_⟩
    rw [List.mem_singleton.mp alone]
    rintro rfl
    exact fresh mem
  · intro path mem
    rcases List.mem_append.mp mem with mem | mem
    · obtain ⟨other, old, spelled, was, there⟩ := h.created path mem
      obtain ⟨new, there⟩ := still_there written there
      exact ⟨other, new, spelled, was, there⟩
    · exact ⟨location, content, List.mem_singleton.mp mem,
        (h.unchanged fresh unmodified).symm.trans absent, here⟩
  · intro path mem
    obtain ⟨other, before, old, spelled, was, kept, there⟩ := h.modified path mem
    obtain ⟨new, there⟩ := still_there written there
    exact ⟨other, before, new, spelled, was, kept, there⟩
  · exact h.kept
  · intro other changed
    by_cases same : other = location
    · rw [same]
      exact Or.inl (List.mem_append_right _ List.mem_cons_self)
    · rw [written, if_neg same] at changed
      exact (h.others other changed).imp_left (List.mem_append_left _)

/-- A file that was there is recorded with its content. -/
theorem noteModified (fresh : spell anchor location ∉ journal.created)
    (unmodified : spell anchor location ∉ journal.modified) {old : Bytes}
    (there : disk.file? location = some old) :
    Covers anchor files after (journal.noteModified (spell anchor location) (some old)) := by
  have here : after.file? location = some content := by rw [written, if_pos rfl]
  have unkept : ¬ (journal.earlier.lookup (spell anchor location)).isSome = true :=
    fun some => unmodified (h.kept _ some)
  have none_kept : journal.earlier.lookup (spell anchor location) = none :=
    Option.not_isSome_iff_eq_none.mp unkept
  rw [Journal.noteModified, if_neg fresh, Journal.keepEarlier, if_neg unkept]
  dsimp only
  rw [if_neg unmodified]
  constructor
  · exact h.nodup
  · intro path mem
    obtain ⟨other, before, spelled, was, there⟩ := h.created path mem
    obtain ⟨new, there⟩ := still_there written there
    exact ⟨other, new, spelled, was, there⟩
  · intro path mem
    rcases List.mem_append.mp mem with mem | mem
    · obtain ⟨other, before, now, spelled, was, kept, there⟩ := h.modified path mem
      obtain ⟨new, there⟩ := still_there written there
      refine ⟨other, before, new, spelled, was, ?_, there⟩
      rw [List.lookup_append, kept]
      rfl
    · obtain rfl := List.mem_singleton.mp mem
      have stays := (h.unchanged fresh unmodified).symm.trans there
      refine ⟨location, old, content, rfl, stays, ?_, here⟩
      rw [List.lookup_append, none_kept]
      simp
  · intro path some
    rw [List.lookup_append] at some
    by_cases same : path = spell anchor location
    · rw [same]
      exact List.mem_append_right _ List.mem_cons_self
    · have apart : (path == spell anchor location) = false := beq_false_of_ne same
      rw [List.lookup_cons, apart, List.lookup_nil, Option.or_none] at some
      exact List.mem_append_left _ (h.kept path some)
  · intro other changed
    by_cases same : other = location
    · rw [same]
      exact Or.inr (List.mem_append_right _ List.mem_cons_self)
    · rw [written, if_neg same] at changed
      exact (h.others other changed).imp_right (List.mem_append_left _)

/-- A file that is written is recorded so that the journal still tells everything. -/
theorem note (rooted : anchor.isRooted = true) (tree : disk.IsTree)
    (proper : ∀ name ∈ location, IsProper name) :
    Covers anchor files after (journal.note (spell anchor location) (disk.file? location)) := by
  cases there : disk.file? location with
  | none =>
    have apart (mem : spell anchor location ∈ journal.created ∨
        spell anchor location ∈ journal.modified) : False := by
      obtain ⟨old, some⟩ := h.file_of_mem rooted tree proper mem
      rw [there] at some
      exact absurd some (by simp)
    exact h.noteCreated written (fun mem => apart (.inl mem)) (fun mem => apart (.inr mem)) there
  | some old =>
    by_cases created : spell anchor location ∈ journal.created
    · have same : journal.note (spell anchor location) (some old) = journal := by
        rw [Journal.note, Journal.noteModified, if_pos created]
      rw [same]
      exact h.rewritten written (.inl created)
    by_cases modified : spell anchor location ∈ journal.modified
    · obtain ⟨_, _, _, -, -, kept, -⟩ := h.modified _ modified
      have same : journal.note (spell anchor location) (some old) = journal := by
        rw [Journal.note, Journal.noteModified, if_neg created, Journal.keepEarlier, kept]
        exact if_pos modified
      rw [same]
      exact h.rewritten written (.inr modified)
    · exact h.noteModified written created modified there

end Write

theorem rollBack_apply {world : World σ} (h : world.journal = some journal) :
    rollBack world =
      (removeAll journal.created.reverse >>= fun _ =>
        restoreAll journal.earlier journal.modified >>= fun _ =>
          alterJournal fun journal => .empty journal.root) world := by
  obtain ⟨disk, git, remote, spec, visited, noted, verbose, trace⟩ := world
  cases h
  rfl

section Undo

variable (h : Covers anchor files disk journal) (rooted : anchor.isRooted = true)
  (tree : disk.IsTree)
include h rooted tree

/-- A file that was there before is not recorded as created. -/
theorem spell_notMem_created {location : Location} {content : Bytes}
    (proper : ∀ name ∈ location, IsProper name) (was : files location = some content) :
    spell anchor location ∉ journal.created := by
  intro mem
  obtain ⟨other, _, spelled, absent, there⟩ := h.created _ mem
  obtain rfl := eq_of_spell rooted tree there proper spelled
  exact absurd (was.symm.trans absent) (by simp)

/-- A changed file was there before, so it stays when the created ones are removed. -/
theorem changed_stay
    (proper : ∀ {location content}, files location = some content →
      ∀ name ∈ location, IsProper name)
    (removed : ∀ location, (∀ name ∈ location, IsProper name) → after.file? location =
      if spell anchor location ∈ journal.created.reverse then none else disk.file? location) :
    ∀ path ∈ journal.modified, ∃ location content old, path = spell anchor location ∧
      journal.earlier.lookup path = some content ∧ after.file? location = some old := by
  intro path mem
  obtain ⟨location, content, old, spelled, was, kept, there⟩ := h.modified path mem
  refine ⟨location, content, old, spelled, kept, ?_⟩
  rw [removed location (tree.isProper_of_file? there), if_neg]
  · exact there
  · exact fun mem => h.spell_notMem_created rooted tree (proper was) was (List.mem_reverse.mp mem)

/-- What was there before is what the journal keeps for a changed file, nothing for a created one,
and what is there now for all others. -/
theorem undone {location : Location} (proper : ∀ name ∈ location, IsProper name) :
    (if spell anchor location ∈ journal.modified then journal.earlier.lookup (spell anchor location)
      else if spell anchor location ∈ journal.created then none else disk.file? location) =
        files location := by
  by_cases modified : spell anchor location ∈ journal.modified
  · obtain ⟨other, content, _, spelled, was, kept, there⟩ := h.modified _ modified
    obtain rfl := eq_of_spell rooted tree there proper spelled
    rw [if_pos modified, kept, was]
  rw [if_neg modified]
  by_cases created : spell anchor location ∈ journal.created
  · obtain ⟨other, _, spelled, absent, there⟩ := h.created _ created
    obtain rfl := eq_of_spell rooted tree there proper spelled
    rw [if_pos created, absent]
  · rw [if_neg created]
    exact h.unchanged created modified

end Undo

/-- Taking everything back leaves the files as they were and empties the journal, or a recorded
path is too long. -/
theorem rollBack_cases {world : World σ} (tree : world.disk.IsTree)
    (rooted : anchor.isRooted = true) (recorded : world.journal = some journal)
    (h : Covers anchor files world.disk journal)
    (proper : ∀ {location content}, files location = some content →
      ∀ name ∈ location, IsProper name) :
    (∃ after, rollBack world = (.ok (), after) ∧ after.journal = some (.empty journal.root) ∧
      ∀ location, after.disk.file? location = files location) ∨
    ∃ path ∈ journal.paths, ∃ after,
      rollBack world = (.error (.disk (.refused .nameTooLong path)), after) ∧
        pathLimit < byteLength path := by
  have created : ∀ path ∈ journal.created.reverse, ∃ location content,
      path = spell anchor location ∧ world.disk.file? location = some content := by
    intro path mem
    obtain ⟨location, content, spelled, -, there⟩ := h.created path (List.mem_reverse.mp mem)
    exact ⟨location, content, spelled, there⟩
  have nodup : journal.created.reverse.Nodup := List.pairwise_reverse.mpr (h.nodup.imp Ne.symm)
  rw [rollBack_apply recorded, bind_apply]
  have removes := removeAll_brings rooted tree created nodup
  generalize removeAll journal.created.reverse world = result at removes
  cases removes with
  | @tooLong path after mem long =>
    exact Or.inr ⟨path, List.mem_append_left _ (List.mem_reverse.mp mem), after, rfl, long⟩
  | @done middle middle_tree middle_journal middle_files =>
    have changed := h.changed_stay rooted tree proper middle_files
    have restores := restoreAll_brings rooted middle_tree changed
    dsimp only
    rw [bind_apply]
    generalize restoreAll journal.earlier journal.modified middle = result at restores
    cases restores with
    | @tooLong path after mem long =>
      exact Or.inr ⟨path, List.mem_append_right _ mem, after, rfl, long⟩
    | @done after after_tree after_journal after_files =>
      have known : after.journal = some journal :=
        (after_journal.trans middle_journal).trans recorded
      refine Or.inl ⟨_, rfl, congrArg (Option.map _) known, fun location => ?_⟩
      show after.disk.file? location = files location
      by_cases good : ∀ name ∈ location, IsProper name
      · rw [after_files location good, middle_files location good, ← h.undone rooted tree good]
        simp only [List.mem_reverse]
      · -- No file can have such names, neither before nor after.
        refine Option.ext fun content => iff_of_false (fun there => ?_) fun was => ?_
        · exact good (after_tree.isProper_of_file? there)
        · exact good (proper was)

end Covers

end WorkflowInstall.Staging

import WorkflowInstall.Proofs.Run.Files

/-!
# What a journal holds

A journal names every recorded file once, and keeps the first content that was recorded for each
file that was there before.

## Main Definitions

* `Journal.IsExact` — every file is named once, and a content is kept for each changed one

## Main Statements

* `Journal.mem_paths_note` — what a journal names after one more record
* `Journal.IsExact.note` — recording keeps a journal exact
* `Journal.IsExact.lookup_note` — the content that is kept after one more record
-/

namespace WorkflowInstall.Journal

variable {journal : Journal} {path : Text} {earlier : Option Bytes}

theorem root_keepEarlier (journal : Journal) (path : Text) (earlier : Option Bytes) :
    (journal.keepEarlier path earlier).root = journal.root := by
  cases earlier with
  | none => rfl
  | some content =>
    rw [keepEarlier]
    split <;> rfl

theorem paths_keepEarlier (journal : Journal) (path : Text) (earlier : Option Bytes) :
    (journal.keepEarlier path earlier).created = journal.created ∧
      (journal.keepEarlier path earlier).modified = journal.modified := by
  cases earlier with
  | none => exact ⟨rfl, rfl⟩
  | some content =>
    rw [keepEarlier]
    split <;> exact ⟨rfl, rfl⟩

/-- Recording a file does not move the root. -/
theorem root_note (journal : Journal) (path : Text) (earlier : Option Bytes) :
    (journal.note path earlier).root = journal.root := by
  cases earlier with
  | none =>
    rw [note, noteCreated]
    split <;> rfl
  | some content =>
    rw [note, noteModified]
    dsimp only
    split
    · rfl
    · split <;> exact root_keepEarlier journal path _

/-- A record adds the path of its file, and no other. -/
theorem mem_paths_note {other : Text} :
    other ∈ (journal.note path earlier).paths ↔ other ∈ journal.paths ∨ other = path := by
  have known (mem : path ∈ journal.paths) :
      other ∈ journal.paths ↔ other ∈ journal.paths ∨ other = path := by
    constructor
    · exact Or.inl
    · rintro (mem | rfl) <;> assumption
  cases earlier with
  | none =>
    rw [note, noteCreated]
    split
    case isTrue there => exact known (List.mem_append.mpr there)
    case isFalse =>
      simp only [paths, List.mem_append, List.mem_singleton]
      exact or_right_comm
  | some content =>
    obtain ⟨created, modified⟩ := paths_keepEarlier journal path (some content)
    rw [note, noteModified]
    dsimp only
    split
    case isTrue there => exact known (List.mem_append_left _ there)
    split
    case isTrue there =>
      rw [modified] at there
      rw [paths, created, modified]
      exact known (List.mem_append_right _ there)
    case isFalse =>
      simp only [paths, created, modified, List.mem_append, List.mem_singleton]
      exact or_assoc.symm

/-! ## Exact journals -/

/-- A journal names every file once, and it keeps a content for those that were there before. -/
structure IsExact (journal : Journal) : Prop where
  created : journal.created.Nodup
  modified : journal.modified.Nodup
  apart : ∀ path ∈ journal.created, path ∉ journal.modified
  kept : ∀ path, (journal.earlier.lookup path).isSome = true ↔ path ∈ journal.modified

theorem isExact_empty (root : Text) : (empty root).IsExact where
  created := .nil
  modified := .nil
  apart _ mem := absurd mem List.not_mem_nil
  kept _ := ⟨fun some => absurd some Bool.false_ne_true, fun mem => absurd mem List.not_mem_nil⟩

theorem note_none (fresh : path ∉ journal.paths) :
    journal.note path none = { journal with created := journal.created ++ [path] } := by
  rw [note, noteCreated, if_neg fun there => fresh (List.mem_append.mpr there)]

theorem lookup_singleton (path other : Text) (content : Bytes) :
    [(path, content)].lookup other = if other = path then some content else none := by
  by_cases same : other = path
  · simp [same]
  · rw [List.lookup_cons, beq_false_of_ne same, if_neg same]
    rfl

theorem nodup_concat {names : List Text} (h : names.Nodup) (fresh : path ∉ names) :
    (names ++ [path]).Nodup := by
  rw [List.nodup_append]
  refine ⟨h, List.pairwise_singleton _ _, fun name mem other alone => ?_⟩
  rw [List.mem_singleton.mp alone]
  rintro rfl
  exact fresh mem

namespace IsExact

variable (h : journal.IsExact)
include h

theorem nodup_paths : journal.paths.Nodup := by
  rw [paths, List.nodup_append]
  refine ⟨h.created, h.modified, fun path mem other mem' => ?_⟩
  rintro rfl
  exact h.apart path mem mem'

/-- A file that is named already is not recorded again. -/
theorem note_of_mem (mem : path ∈ journal.paths) (earlier : Option Bytes) :
    journal.note path earlier = journal := by
  have there := List.mem_append.mp mem
  cases earlier with
  | none => rw [note, noteCreated, if_pos there]
  | some content =>
    rw [note, noteModified]
    rcases there with created | modified
    · rw [if_pos created]
    · have fresh : path ∉ journal.created := fun created => h.apart path created modified
      rw [if_neg fresh, keepEarlier, if_pos ((h.kept path).mpr modified)]
      exact if_pos modified

theorem lookup_of_notMem (fresh : path ∉ journal.paths) :
    journal.earlier.lookup path = none := by
  refine Option.not_isSome_iff_eq_none.mp fun some => fresh ?_
  exact List.mem_append_right _ ((h.kept path).mp some)

theorem note_some (fresh : path ∉ journal.paths) (content : Bytes) :
    journal.note path (some content) =
      { journal with
        modified := journal.modified ++ [path]
        earlier := journal.earlier ++ [(path, content)] } := by
  have created : path ∉ journal.created := fun mem => fresh (List.mem_append_left _ mem)
  have modified : path ∉ journal.modified := fun mem => fresh (List.mem_append_right _ mem)
  rw [note, noteModified, if_neg created, keepEarlier, h.lookup_of_notMem fresh]
  exact if_neg modified

/-- Recording keeps a journal exact. -/
theorem note (path : Text) (earlier : Option Bytes) : (journal.note path earlier).IsExact := by
  by_cases mem : path ∈ journal.paths
  · rwa [h.note_of_mem mem]
  have created : path ∉ journal.created := fun there => mem (List.mem_append_left _ there)
  have modified : path ∉ journal.modified := fun there => mem (List.mem_append_right _ there)
  cases earlier with
  | none =>
    rw [note_none mem]
    refine ⟨nodup_concat h.created created, h.modified, fun other there => ?_, h.kept⟩
    rcases List.mem_append.mp there with there | there
    · exact h.apart other there
    · exact List.mem_singleton.mp there ▸ modified
  | some content =>
    rw [h.note_some mem]
    refine ⟨h.created, nodup_concat h.modified modified, fun other there => ?_, fun other => ?_⟩
    · rw [List.mem_append, List.mem_singleton, not_or]
      refine ⟨h.apart other there, ?_⟩
      rintro rfl
      exact created there
    · dsimp only
      rw [List.lookup_append, lookup_singleton, List.mem_append, List.mem_singleton,
        ← h.kept other]
      by_cases same : other = path
      · simp [same]
      · simp [same]

/-- A record keeps the content of a file that was not named, and nothing else. -/
theorem lookup_note (path : Text) (earlier : Option Bytes) (other : Text) :
    (journal.note path earlier).earlier.lookup other =
      if other = path ∧ path ∉ journal.paths then earlier else journal.earlier.lookup other := by
  by_cases mem : path ∈ journal.paths
  · rw [h.note_of_mem mem, if_neg fun new => new.2 mem]
  cases earlier with
  | none =>
    rw [note_none mem]
    split
    case isTrue new => rw [new.1, h.lookup_of_notMem mem]
    case isFalse => rfl
  | some content =>
    rw [h.note_some mem]
    dsimp only
    rw [List.lookup_append, lookup_singleton]
    by_cases same : other = path
    · simp [same, mem, h.lookup_of_notMem mem]
    · simp [same]

end IsExact

end WorkflowInstall.Journal

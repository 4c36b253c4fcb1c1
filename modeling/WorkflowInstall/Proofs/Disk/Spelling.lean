import WorkflowInstall.Fault
import WorkflowInstall.Proofs.Disk.Again

/-!
# Paths that cannot be spelled

A path that cannot be turned into bytes, or that holds a NUL character, is refused by a fault of its
own kind, whatever the disk holds. Every other fault is one of the file system.

## Main Definitions

* `Disk.Nameable` — a path that can be handed to the file system
* `Disk.IsTooLong` — a path that is too long, or that holds a name that is

## Main Statements

* `Disk.find_eq_error`, `Disk.isStorage_of_find` — only a path that cannot be spelled is refused for
  its spelling
* `Disk.isStorage_of_prepare` — making ready for a file fails like that for no other reason
* `Disk.isTooLong_of_probe` — only a path that is too long cannot be looked up
-/

namespace WorkflowInstall

open Path

namespace Disk

/-- A path that has bytes and holds no NUL character. -/
structure Nameable (path : Text) : Prop where
  encodable : Encodable path
  no_nul : '\x00' ∉ path

instance (path : Text) : Decidable (Nameable path) :=
  decidable_of_iff (Encodable path ∧ '\x00' ∉ path)
    ⟨fun h => ⟨h.1, h.2⟩, fun h => ⟨h.encodable, h.no_nul⟩⟩

/-- A path is too long, or a name in it is. -/
def IsTooLong (path : Text) : Prop :=
  pathLimit < byteLength path ∨ ∃ name ∈ Text.splitOn '/' path, nameLimit < byteLength name

/-! ## Names -/

theorem nameable_slash {text : Text} : Nameable ('/' :: text) ↔ Nameable text := by
  have encodable : Encodable ('/' :: text) ↔ Encodable text :=
    (encodable_append_slash [] text).trans (and_iff_right encodable_nil)
  have nul : '\x00' ∈ '/' :: text ↔ '\x00' ∈ text :=
    List.mem_cons.trans (or_iff_right (by decide))
  exact ⟨fun h => ⟨encodable.mp h.encodable, fun mem => h.no_nul (nul.mpr mem)⟩,
    fun h => ⟨encodable.mpr h.encodable, fun mem => h.no_nul (nul.mp mem)⟩⟩

theorem nameable_joinWith {names : List Text} :
    Nameable (Text.joinWith "/" names) ↔ ∀ name ∈ names, Nameable name := by
  constructor
  · intro h name mem
    exact ⟨encodable_joinWith.mp h.encodable name mem,
      fun nul => h.no_nul (Text.mem_joinWith mem nul)⟩
  · intro h
    refine ⟨encodable_joinWith.mpr fun name mem => (h name mem).encodable, fun nul => ?_⟩
    rcases Text.of_mem_joinWith nul with slash | ⟨name, mem, nul⟩
    · exact absurd slash (by decide)
    · exact (h name mem).no_nul nul

/-- A path can be spelled when each of its names can. -/
theorem nameable_spell {anchor : Anchor} {names : List Text} :
    Nameable (spell anchor names) ↔ ∀ name ∈ names, Nameable name := by
  rw [← nameable_joinWith]
  cases anchor with
  | here =>
    rw [spell, show Anchor.here.mark ++ Text.joinWith "/" names = Text.joinWith "/" names from rfl]
    split
    case h_1 empty =>
      rw [empty]
      exact iff_of_true (by decide) (by decide)
    case h_2 => exact .rfl
  | root => exact nameable_slash
  | doubleRoot => exact nameable_slash.trans nameable_slash

/-! ## Why a path is refused -/

theorem nameLimit_lt_of_walk {disk : Disk} {location : Location} {node : Node}
    {segments : List Text} (h : walk disk location node segments = .error .nameTooLong) :
    ∃ name ∈ segments, nameLimit < byteLength name := by
  induction segments generalizing location node with
  | nil => exact absurd h (by simp [walk])
  | cons segment rest ih =>
    have later {location : Location} {node : Node}
        (h : walk disk location node rest = .error .nameTooLong) :
        ∃ name ∈ segment :: rest, nameLimit < byteLength name :=
      (ih h).imp fun _ long => ⟨List.mem_cons_of_mem segment long.1, long.2⟩
    cases node with
    | file content => exact absurd h (by simp [walk])
    | directory =>
      rcases leads_cases disk location segment with
        ⟨next, node, leads⟩ | ⟨looked_up, long⟩ | ⟨looked_up, fits, free⟩
      · exact later (leads.walk rest ▸ h)
      · exact ⟨segment, List.mem_cons_self, long⟩
      · rw [walk_free looked_up fits free] at h
        split at h <;> exact absurd h (by simp)

/-- A path is refused for its spelling, or by the file system. -/
theorem find_eq_error {disk : Disk} {path : Text} {fault : DiskFault}
    (h : disk.find path = .error fault) :
    (¬ Nameable path ∧ ∀ problem other, fault ≠ .refused problem other) ∨
      ∃ problem, fault = .refused problem path ∧ (problem = .nameTooLong → IsTooLong path) := by
  rw [find, follow] at h
  dsimp only at h
  split at h
  case h_1 part unencodable =>
    cases h
    refine .inl ⟨fun nameable => ?_, by simp⟩
    rw [(unencodableBut?_eq_none path).mpr nameable.encodable] at unencodable
    exact absurd unencodable (Option.some_ne_none part).symm
  split at h
  case isTrue nul =>
    cases h
    exact .inl ⟨fun nameable => nameable.no_nul (List.contains_iff_mem.mp nul), by simp⟩
  split at h
  · cases h
    exact .inr ⟨.notFound, rfl, fun same => absurd same (by decide)⟩
  split at h
  case isTrue long =>
    cases h
    exact .inr ⟨.nameTooLong, rfl, fun _ => .inl long⟩
  case isFalse =>
    generalize reached : walk disk _ .directory (Text.splitOn '/' path) = outcome at h
    cases outcome with
    | ok place => exact absurd (congrArg Except.isOk h) Bool.noConfusion
    | error problem =>
      cases h
      refine .inr ⟨problem, rfl, fun same => .inr ?_⟩
      rw [same] at reached
      exact nameLimit_lt_of_walk reached

/-- A path that can be spelled is refused by the file system, if it is refused. -/
theorem isStorage_of_find {disk : Disk} {path : Text} {fault : DiskFault} (nameable : Nameable path)
    (h : disk.find path = .error fault) : (Fault.disk fault).isStorage = true := by
  rcases find_eq_error h with ⟨unnameable, -⟩ | ⟨problem, rfl, -⟩
  · exact absurd nameable unnameable
  · rfl

theorem isStorage_of_ensureDir {disk after : Disk} {path : LocalPath} (plain : path.IsPlain)
    {fault : DiskFault} (nameable : Nameable path.text)
    (h : disk.ensureDir path.text = (.error fault, after)) :
    (Fault.disk fault).isStorage = true := by
  rw [ensureDir_text plain] at h
  cases found : disk.find path.text with
  | error other =>
    rw [found] at h
    cases h
    exact isStorage_of_find nameable found
  | ok place =>
    rw [found] at h
    cases place with
    | vacant => exact absurd h (by simp)
    | present location node =>
      cases node with
      | directory => exact absurd h (by simp)
      | file content =>
        cases h
        rfl

/-- Directories whose path can be spelled are refused by the file system. -/
theorem isStorage_of_makeDirsFrom {anchor : Anchor} {names : List Text} {disk after : Disk}
    (plain : LocalPath.IsPlain ⟨anchor, names.reverse⟩) {fault : DiskFault}
    (nameable : Nameable (spell anchor names.reverse))
    (h : makeDirsFrom anchor names disk = (.error fault, after)) :
    (Fault.disk fault).isStorage = true := by
  induction names generalizing after with
  | nil => exact isStorage_of_ensureDir plain nameable h
  | cons name before ih =>
    have front : Nameable (spell anchor before.reverse) := by
      rw [nameable_spell] at nameable ⊢
      intro other mem
      exact nameable other (List.reverse_cons ▸ List.mem_append_left [name] mem)
    rcases makeDirsFrom_cases anchor name before disk with
      ⟨middle, -, last⟩ | ⟨_, _, -, -, made, stops⟩
    · exact isStorage_of_ensureDir plain nameable (last ▸ h)
    · exact ih (plain_before plain) front (made.trans (stops.symm.trans h))

section File

variable {disk made : Disk} {file : LocalPath} {fault : DiskFault} (nameable : Nameable file.text)
include nameable

theorem isStorage_of_writable (h : disk.writable file.text = .error fault) :
    (Fault.disk fault).isStorage = true := by
  unfold writable at h
  split at h
  case h_1 => exact absurd h (by simp)
  case h_2 => exact absurd h (by simp)
  case h_3 =>
    cases h
    rfl
  case h_4 found =>
    cases h
    exact isStorage_of_find nameable found

theorem isStorage_of_read (h : disk.read file.text = .error fault) :
    (Fault.disk fault).isStorage = true := by
  unfold read at h
  split at h
  case h_1 => exact absurd h (by simp)
  case h_2 =>
    cases h
    rfl
  case h_3 =>
    cases h
    rfl
  case h_4 found =>
    cases h
    exact isStorage_of_find nameable found

theorem isStorage_of_makeDirs (plain : file.IsPlain)
    (h : disk.makeDirs file.parent = (.error fault, made)) :
    (Fault.disk fault).isStorage = true := by
  have front : Nameable file.parent.text := by
    rw [LocalPath.text, nameable_spell] at nameable ⊢
    exact fun name mem => nameable name (List.dropLast_subset _ mem)
  refine isStorage_of_makeDirsFrom ?_ ?_ h
  · rw [List.reverse_reverse]
    exact plain.parent
  · rw [List.reverse_reverse]
    exact front

/-- A file whose path can be spelled is refused by the file system, if it cannot be made ready. -/
theorem isStorage_of_prepare (plain : file.IsPlain)
    (h : disk.prepare file = (.error fault, made)) : (Fault.disk fault).isStorage = true := by
  rcases prepare_cases disk file with
    ⟨location, disk', -, -, result⟩ | ⟨other, disk', dirs, result⟩ | ⟨other, disk', -, kept, result⟩
  · rw [result] at h
    exact absurd h (by simp)
  · rw [result] at h
    cases h
    exact isStorage_of_makeDirs nameable plain dirs
  · rw [result] at h
    cases h
    exact isStorage_of_writable nameable kept

end File

/-- Only a path that is too long, or that holds a name that is, cannot be looked up. -/
theorem isTooLong_of_probe {disk : Disk} {path : Text} {fault : DiskFault}
    (h : disk.probe path = .error fault) :
    fault = .refused .nameTooLong path ∧ IsTooLong path := by
  obtain ⟨rfl, refuses⟩ := probe_eq_error h
  rcases find_eq_error refuses.find with ⟨-, unrefused⟩ | ⟨problem, same, long⟩
  · exact absurd rfl (unrefused .nameTooLong path)
  · cases same
    exact ⟨rfl, long rfl⟩

end Disk

end WorkflowInstall

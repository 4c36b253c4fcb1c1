import WorkflowInstall.Proofs.Disk.Tree

/-!
# Changing the file system

What the operations that write and remove a file do to a tree, and what the operations that look at
one say about it.

## Main Definitions

* `Disk.IsOpen` — a place where a file can be put

## Main Statements

* `Disk.IsTree.put`, `Disk.IsTree.erase` — a change keeps the tree
* `Disk.IsTree.writable_eq_ok` — a file is written to the place that its path spells
* `Disk.IsTree.find_put` — what has been written is found
* `Disk.read_writable_of_pathExists` — what is there can be read just when it can be written over
-/

namespace WorkflowInstall

open Path

namespace Disk

/-- A place where a file can be put: a free place, or that of a file. -/
def IsOpen (disk : Disk) (location : Location) : Prop :=
  disk.IsFree location ∨ ∃ content, disk.node? location = some (.file content)

theorem IsFree.ne_nil {disk : Disk} {location : Location} (h : disk.IsFree location) :
    location ≠ [] := by
  obtain ⟨-, parent, name, rfl, -⟩ := h
  exact List.concat_ne_nil name parent

section Open

variable {disk : Disk} {location : Location} (h : disk.IsOpen location)
include h

theorem IsOpen.ne_nil : location ≠ [] := by
  rcases h with free | ⟨content, there⟩
  · exact free.ne_nil
  · exact ne_nil_of_file? (file?_eq_some.mpr there)

theorem IsOpen.not_directory : disk.node? location ≠ some .directory := by
  rcases h with free | ⟨content, there⟩
  · rw [free.1]
    intro equal
    exact absurd equal (by simp)
  · rw [there]
    intro equal
    exact absurd equal (by simp)

/-- An open place has a name and lies in a directory. -/
theorem IsOpen.parent (tree : disk.IsTree) :
    ∃ parent name, location = parent ++ [name] ∧ (∀ other ∈ location, IsName other) ∧
      disk.node? parent = some .directory := by
  rcases h with ⟨-, parent, name, rfl, good, there⟩ | ⟨content, there⟩
  · refine ⟨parent, name, rfl, fun other mem => ?_, there⟩
    rcases List.mem_append.mp mem with mem | mem
    · exact tree.names there other mem
    · rw [List.mem_singleton.mp mem]
      exact good
  · rcases List.eq_nil_or_concat location with rfl | ⟨parent, name, rfl⟩
    · rw [node?_nil] at there
      exact absurd there (by simp)
    · rw [List.concat_eq_append] at there ⊢
      exact ⟨parent, name, rfl, tree.names there, tree.parent there⟩

end Open

/-! ## Putting and taking away -/

namespace IsTree

variable {disk : Disk} (tree : disk.IsTree)
include tree

theorem put {location : Location} (h : disk.IsOpen location) (node : Node) :
    (disk.put location node).IsTree := by
  obtain ⟨parent, last, same, names, above⟩ := h.parent tree
  have stays {other : Location} (there : disk.node? other = some .directory) :
      (disk.put location node).node? other = some .directory := by
    rw [node?_put disk h.ne_nil, if_neg]
    · exact there
    · rintro rfl
      exact h.not_directory there
  -- No directory is written over, so every entry still lies in one.
  constructor
  · intro other found there
    rw [node?_put disk h.ne_nil] at there
    split at there
    case isTrue here => rw [here]; exact names
    case isFalse => exact tree.names there
  · intro other name found there
    rw [node?_put disk h.ne_nil] at there
    split at there
    case isTrue here =>
      rw [same] at here
      rw [(List.append_inj' here rfl).1]
      exact stays above
    case isFalse => exact stays (tree.parent there)
  · rw [cwd_put]
    exact stays tree.cwd

/-- A file can be taken away, because nothing lies below it. -/
theorem erase {location : Location} {content : Bytes}
    (h : disk.node? location = some (.file content)) : (disk.erase location).IsTree := by
  have inside : location ≠ [] := ne_nil_of_file? (file?_eq_some.mpr h)
  have stays {other : Location} (there : disk.node? other = some .directory) :
      (disk.erase location).node? other = some .directory := by
    rw [node?_erase disk inside, if_neg]
    · exact there
    · rintro rfl
      rw [h] at there
      exact absurd there (by simp)
  constructor
  · intro other found there
    rw [node?_erase disk inside] at there
    split at there
    case isTrue => exact absurd there (by simp)
    case isFalse => exact tree.names there
  · intro other name found there
    rw [node?_erase disk inside] at there
    split at there
    case isTrue => exact absurd there (by simp)
    case isFalse => exact stays (tree.parent there)
  · exact stays tree.cwd

end IsTree

theorem IsOpen.grows {disk : Disk} {location : Location} (h : disk.IsOpen location)
    (content : Bytes) : disk.Grows (disk.put location (.file content)) := by
  refine ⟨cwd_put disk location _, fun {other found} there => ?_⟩
  rw [node?_put disk h.ne_nil]
  by_cases here : other = location
  · subst here
    rw [if_pos rfl]
    refine ⟨_, rfl, ?_⟩
    rcases h with free | ⟨old, old_there⟩
    · rw [free.1] at there
      exact absurd there (by simp)
    · rw [old_there] at there
      cases there
      rfl
  · rw [if_neg here]
    exact ⟨found, there, rfl⟩

theorem IsFree.grows {disk : Disk} {location : Location} (h : disk.IsFree location)
    (node : Node) : disk.Grows (disk.put location node) := by
  refine ⟨cwd_put disk location _, fun {other found} there => ⟨found, ?_, rfl⟩⟩
  rw [node?_put disk h.ne_nil, if_neg]
  · exact there
  · rintro rfl
    rw [h.1] at there
    exact absurd there (by simp)

theorem file?_put (disk : Disk) {location : Location} (inside : location ≠ []) (content : Bytes)
    (other : Location) :
    (disk.put location (.file content)).file? other =
      if other = location then some content else disk.file? other := by
  rw [file?, node?_put disk inside]
  split
  case h_1 content' there =>
    split at there
    case isTrue here => cases there; rw [if_pos here]
    case isFalse apart => rw [if_neg apart, file?_eq_some.mpr there]
  case h_2 none =>
    split at none
    case isTrue => exact absurd rfl (none content)
    case isFalse apart =>
      rw [if_neg apart, file?]
      split
      case h_1 content' there => exact absurd there (none content')
      case h_2 => rfl

theorem file?_put_directory {disk : Disk} {location : Location} (h : disk.IsFree location)
    (other : Location) : (disk.put location .directory).file? other = disk.file? other := by
  by_cases here : other = location
  · subst here
    rw [file?_of_none h.1, file?_of_directory]
    rw [node?_put disk h.ne_nil, if_pos rfl]
  · refine file?_congr ?_
    rw [node?_put disk h.ne_nil, if_neg here]

theorem file?_erase (disk : Disk) {location : Location} (inside : location ≠ [])
    (other : Location) :
    (disk.erase location).file? other = if other = location then none else disk.file? other := by
  by_cases here : other = location
  · rw [if_pos here, file?_of_none]
    rw [node?_erase disk inside, if_pos here]
  · rw [if_neg here]
    refine file?_congr ?_
    rw [node?_erase disk inside, if_neg here]

/-! ## Writing -/

theorem find_of_writable {disk : Disk} {path : Text} {location : Location}
    (h : disk.writable path = .ok location) :
    (∃ content, disk.find path = .ok (.present location (.file content))) ∨
      disk.find path = .ok (.vacant location false) := by
  unfold writable at h
  split at h
  case h_1 place content found => cases h; exact Or.inl ⟨content, found⟩
  case h_2 place found => cases h; exact Or.inr found
  case h_3 => exact absurd h (by simp)
  case h_4 => exact absurd h (by simp)

/-- A file is written to the place that its path spells. -/
theorem location_of_writable {disk : Disk} (proper : ∀ name ∈ disk.cwd, IsProper name) {path : Text}
    {location : Location} (h : disk.writable path = .ok location) :
    location = absoluteNames disk.here path := by
  rcases find_of_writable h with ⟨content, found⟩ | found
  · exact location_of_find proper found
  · exact location_of_find proper found

/-- Seen from a directory, a path leads to a place at which a file can be written. -/
def LeadsFrom (cwd : Location) (path : Text) (location : Location) : Prop :=
  ∃ disk : Disk, disk.cwd = cwd ∧ disk.writable path = .ok location

theorem LeadsFrom.eq {cwd location : Location} {path : Text} (h : LeadsFrom cwd path location)
    (proper : ∀ name ∈ cwd, IsProper name) : location = absoluteNames (spell .root cwd) path := by
  obtain ⟨disk, rfl, written⟩ := h
  exact location_of_writable proper written

/-- What is put at a free place leaves the way of a segment as it was. -/
theorem IsFree.leads {disk : Disk} {location : Location} (free : disk.IsFree location)
    (new : Node) {base next : Location} {segment : Text} {node : Node}
    (h : disk.Leads base segment next node) :
    (disk.put location new).Leads base segment next node := by
  cases h with
  | stay stays => exact .stay stays
  | climb => exact .climb
  | down name fits there =>
    refine .down name fits ?_
    rw [node?_put disk free.ne_nil, if_neg, there]
    rintro rfl
    rw [free.1] at there
    exact absurd there (by simp)

/-- What is put at the place that a walk leads to is found by the walk. After a slash it must be a
directory. -/
theorem walk_put {disk : Disk} {location : Location} {slash : Bool} {new : Node}
    (fits : slash = true → new = .directory) (free : disk.IsFree location)
    {segments : List Text} {base : Location} {node : Node}
    (h : walk disk base node segments = .ok (.vacant location slash)) :
    walk (disk.put location new) base node segments = .ok (.present location new) := by
  induction segments generalizing base node with
  | nil => exact absurd h (by simp [walk])
  | cons segment rest ih =>
    cases node with
    | file other => exact (walk_file h).elim
    | directory =>
      rcases leads_cases disk base segment with
        ⟨next, node, leads⟩ | ⟨name, long⟩ | ⟨name, short, absent⟩
      · rw [leads.walk] at h
        rw [(free.leads new leads).walk]
        exact ih h
      · rw [walk_too_long name long] at h
        exact absurd h (by simp)
      · rw [walk_free name short absent] at h
        split at h
        case isFalse => exact absurd h (by simp)
        case isTrue blank =>
          injection h with place
          injection place with here ends
          subst here ends
          have there : (disk.put (base ++ [segment]) new).node? (base ++ [segment]) = some new := by
            rw [node?_put disk free.ne_nil, if_pos rfl]
          rw [(Leads.down name short there).walk]
          -- Only slashes come after the last name, and they stay in a directory.
          cases rest with
          | nil => rfl
          | cons next more =>
            have idle : ∀ other ∈ next :: more, other = [] ∨ other = dot := by
              intro other mem
              exact Or.inl (List.isEmpty_iff.mp (List.all_eq_true.mp blank other mem))
            rw [fits rfl]
            exact List.append_nil (next :: more) ▸ walk_idle idle _ (base ++ [segment]) []

namespace IsTree

variable {disk : Disk} (tree : disk.IsTree)
include tree

/-- A file is written to the place that its path spells, which is open. -/
theorem writable_eq_ok {path : Text} {location : Location}
    (h : disk.writable path = .ok location) :
    location = absoluteNames disk.here path ∧ disk.IsOpen location := by
  refine ⟨location_of_writable tree.cwd_isProper h, ?_⟩
  rcases find_of_writable h with ⟨content, found⟩ | found
  · exact .inr ⟨content, tree.holds_of_find found⟩
  · exact .inl (tree.holds_of_find found)

/-- What has been written is found. -/
theorem find_put {path : Text} {location : Location} (h : disk.writable path = .ok location)
    (content : Bytes) :
    (disk.put location (.file content)).find path = .ok (.present location (.file content)) := by
  have is_open := (tree.writable_eq_ok h).2
  rcases find_of_writable h with ⟨old, found⟩ | found
  · obtain ⟨other, there, -⟩ := (is_open.grows content).find_present found
    have holds := (tree.put is_open (.file content)).holds_of_find there
    rw [Holds, node?_put disk is_open.ne_nil, if_pos rfl] at holds
    cases holds
    exact there
  · obtain ⟨accepts, walked⟩ := follow_eq_ok found
    rw [find, follow_of_accepts accepts, cwd_put,
      walk_put (fun ends => absurd ends Bool.false_ne_true) (tree.holds_of_find found) walked]
    rfl

/-- A file that can be written can still be written when another one has been. -/
theorem writable_put {place : Location} (is_open : disk.IsOpen place) (content : Bytes)
    {path : Text} {location : Location} (h : disk.writable path = .ok location) :
    (disk.put place (.file content)).writable path = .ok location := by
  by_cases here : location = place
  · subst here
    rw [writable, tree.find_put h content]
  rcases find_of_writable h with ⟨old, found⟩ | found
  · obtain ⟨node, there, kind⟩ := (is_open.grows content).find_present found
    cases node with
    | file new => rw [writable, there]
    | directory => exact absurd kind Bool.noConfusion
  · have free : (disk.put place (.file content)).node? location = none := by
      rw [node?_put disk is_open.ne_nil, if_neg here]
      exact (tree.holds_of_find found).1
    rw [writable, (is_open.grows content).find_vacant found free]

/-- A file is read at the place that its path spells. -/
theorem file?_of_read {path : Text} {content : Bytes} (h : disk.read path = .ok content) :
    disk.file? (absoluteNames disk.here path) = some content := by
  unfold read at h
  split at h
  case h_1 location content' found =>
    cases h
    have same := location_of_find tree.cwd_isProper found
    rw [← same, file?_eq_some]
    exact tree.holds_of_find found
  all_goals exact absurd h (by simp)

end IsTree

/-! ## Looking -/

theorem pathExists_of_probe {disk : Disk} {path : Text} {isThere : Bool}
    (h : disk.probe path = .ok isThere) : disk.pathExists path = isThere := by
  unfold probe at h
  rw [pathExists]
  split at h
  case h_1 found => rw [found]; exact Except.ok.inj h
  case h_2 => exact absurd h (by simp)
  case h_3 absent _ =>
    split
    case h_1 location node found => exact absurd found (absent location node)
    case h_2 => exact Except.ok.inj h

theorem pathExists_eq_true {disk : Disk} {path : Text} :
    disk.pathExists path = true ↔
      ∃ location node, disk.find path = .ok (.present location node) := by
  rw [pathExists]
  split
  case h_1 location node found => exact ⟨fun _ => ⟨location, node, found⟩, fun _ => rfl⟩
  case h_2 absent =>
    refine ⟨fun h => absurd h Bool.false_ne_true, ?_⟩
    rintro ⟨location, node, found⟩
    exact absurd found (absent location node)

/-- What is at a path is a file, which can be read and written, or a directory, with which neither
can be done. -/
theorem read_writable_of_pathExists {disk : Disk} {path : Text}
    (there : disk.pathExists path = true) :
    (∃ location old, disk.read path = .ok old ∧ disk.writable path = .ok location) ∨
      ∃ fault, disk.read path = .error fault ∧ disk.writable path = .error fault := by
  obtain ⟨location, node, found⟩ := pathExists_eq_true.mp there
  rw [read, writable, found]
  cases node with
  | file old => exact .inl ⟨location, old, rfl, rfl⟩
  | directory => exact .inr ⟨_, rfl, rfl⟩

end Disk

end WorkflowInstall

import WorkflowInstall.Proofs.Disk.Directories

/-!
# Making ready for a file again

What was made for a file is still there when more has been added since. So making ready for the
file once more ends in the same way, and makes nothing.

## Main Definitions

* `Disk.Refuses` — a path cannot be followed, for another reason than a missing name
* `Disk.prepare` — makes directories and finds where a file comes to stand

## Main Statements

* `Disk.lacks_eq_false` — a path that lacks nothing leads to something or is refused
* `Disk.IsTree.makeDirsFrom_blocked` — where directories could not be made, none can be made later
* `Disk.IsTree.makeDirs_again` — directories are made once
* `Disk.IsTree.prepare_written`, `Disk.IsTree.prepare_failed` — making ready for a file again
* `Disk.Grows.read` — a file that was read can still be read

## Design Notes

The first attempt may fail because a name is missing that the second one finds. But a missing name
makes `makeDirs` make a directory, so it is never the reason why it fails. Everything else that can
go wrong stays wrong while the tree grows.
-/

namespace WorkflowInstall

open Path

namespace Disk

/-! ## Paths that are refused -/

/-- A path cannot be followed, and not because a name is missing. -/
structure Refuses (disk : Disk) (path : Text) (fault : DiskFault) : Prop where
  find : disk.find path = .error fault
  lasting : ∀ other, fault ≠ .refused .notFound other

theorem Grows.here {before after : Disk} (grows : before.Grows after) :
    after.here = before.here := by
  rw [Disk.here, Disk.here, grows.cwd]

theorem Grows.refuses {before after : Disk} (grows : before.Grows after) {path : Text}
    {fault : DiskFault} (h : before.Refuses path fault) : after.Refuses path fault :=
  ⟨grows.follow_error h.find h.lasting, h.lasting⟩

/-- A path that lacks nothing leads to something, or it is refused. -/
theorem lacks_eq_false {disk : Disk} {path : Text} :
    disk.lacks path = false ↔
      disk.pathExists path = true ∨ ∃ fault, disk.Refuses path fault := by
  rw [lacks, pathExists]
  constructor
  · intro h
    split at h
    case h_1 => exact absurd h.symm Bool.false_ne_true
    case h_2 => exact absurd h.symm Bool.false_ne_true
    case h_3 vacant missing =>
      cases found : disk.find path with
      | ok place =>
        cases place with
        | present location node => exact Or.inl rfl
        | vacant location slash => exact absurd found (vacant location slash)
      | error fault =>
        refine Or.inr ⟨fault, found, ?_⟩
        rintro other rfl
        exact absurd found (missing other)
  · rintro (there | ⟨fault, found, lasting⟩)
    · split at there
      case h_1 location node found => rw [found]
      case h_2 => exact absurd there Bool.false_ne_true
    · rw [found]
      split
      case h_1 found => exact absurd found (by simp)
      case h_2 other same => exact absurd (Except.error.inj same) (lasting other)
      case h_3 => rfl

theorem lacks_of_pathExists {disk : Disk} {path : Text} (h : disk.pathExists path = true) :
    disk.lacks path = false := lacks_eq_false.mpr (Or.inl h)

theorem Refuses.lacks {disk : Disk} {path : Text} {fault : DiskFault}
    (h : disk.Refuses path fault) : disk.lacks path = false :=
  lacks_eq_false.mpr (Or.inr ⟨fault, h⟩)

theorem Refuses.pathExists {disk : Disk} {path : Text} {fault : DiskFault}
    (h : disk.Refuses path fault) : disk.pathExists path = false := by
  rw [Disk.pathExists, h.find]

/-- Only a path that is too long cannot be looked up. -/
theorem probe_eq_error {disk : Disk} {path : Text} {fault : DiskFault}
    (h : disk.probe path = .error fault) :
    fault = .refused .nameTooLong path ∧ disk.Refuses path fault := by
  unfold probe at h
  split at h
  case h_1 => exact absurd h (by simp)
  case h_2 other found =>
    cases h
    obtain ⟨rfl, -⟩ := find_eq_refused found
    exact ⟨rfl, found, by simp⟩
  case h_3 => exact absurd h (by simp)

theorem Refuses.probe {disk : Disk} {path : Text}
    (h : disk.Refuses path (.refused .nameTooLong path)) :
    disk.probe path = .error (.refused .nameTooLong path) := by
  rw [Disk.probe, h.find]

/-- No directory can be made at a path, and `fault` says so: a file is there, or the path is
refused. -/
def Blocked (disk : Disk) (path : Text) (fault : DiskFault) : Prop :=
  fault = .refused .alreadyThere path ∧
      (∃ location content, disk.find path = .ok (.present location (.file content))) ∨
    ∃ other, disk.Refuses path other

theorem Blocked.lacks {disk : Disk} {path : Text} {fault : DiskFault}
    (h : disk.Blocked path fault) : disk.lacks path = false := by
  rcases h with ⟨-, location, content, found⟩ | ⟨other, refuses⟩
  · exact lacks_of_pathExists (pathExists_eq_true.mpr ⟨location, _, found⟩)
  · exact refuses.lacks

/-- A path leads nowhere for a missing name only when the walk along it does. -/
theorem find_eq_notFound {disk : Disk} {path other : Text} (some : path ≠ [])
    (h : disk.find path = .error (.refused .notFound other)) :
    Accepts path ∧
      walk disk (start disk.cwd path) .directory (Text.splitOn '/' path) = .error .notFound := by
  by_cases accepts : Accepts path
  · refine ⟨accepts, ?_⟩
    rw [find, follow_of_accepts accepts] at h
    cases result : walk disk (start disk.cwd path) .directory (Text.splitOn '/' path) with
    | ok place =>
      rw [result] at h
      exact absurd (congrArg Except.isOk h) Bool.noConfusion
    | error problem =>
      rw [result] at h
      injection h with h
      injection h with same
      rw [same]
  · exfalso
    apply accepts
    rw [find, follow] at h
    split at h
    case h_1 => exact absurd h (by simp)
    case h_2 encodable =>
      split at h
      case isTrue => exact absurd h (by simp)
      case isFalse no_nul =>
        split at h
        case isTrue none => exact absurd (List.isEmpty_iff.mp none) some
        case isFalse =>
          split at h
          case isTrue => exact absurd h (by simp)
          case isFalse fits =>
            exact ⟨(unencodableBut?_eq_none path).mp encodable, by simpa using no_nul, some,
              Nat.le_of_not_lt fits⟩

theorem walk_single_ne_notFound (disk : Disk) (location : Location) (node : Node) (name : Text) :
    walk disk location node [name] ≠ .error .notFound := by
  cases node with
  | file content => simp [walk]
  | directory =>
    rcases leads_cases disk location name with
      ⟨next, node, leads⟩ | ⟨looked_up, long⟩ | ⟨looked_up, fits, free⟩
    · rw [leads.walk]
      simp [walk]
    · rw [walk_too_long looked_up long]
      simp
    · rw [walk_free looked_up fits free]
      simp

section Next

variable {disk : Disk} {anchor : Anchor}

theorem find_root_ne_notFound (disk : Disk) (anchor : Anchor) (other : Text) :
    disk.find (spell anchor []) ≠ .error (.refused .notFound other) := by
  intro missing
  have plain : LocalPath.IsPlain ⟨anchor, []⟩ := fun name mem => absurd mem List.not_mem_nil
  obtain ⟨-, walked⟩ := find_eq_notFound (spell_ne_nil anchor []) missing
  rw [show spell anchor [] = LocalPath.text ⟨anchor, []⟩ from rfl, start_text plain,
    walk_text plain] at walked
  exact absurd walked (by simp [walk])

variable {front : List Text} {name : Text} (plain : LocalPath.IsPlain ⟨anchor, front ++ [name]⟩)
include plain

theorem walk_of_notFound {other : Text}
    (h : disk.find (spell anchor (front ++ [name])) = .error (.refused .notFound other)) :
    Accepts (spell anchor front) ∧
      walk disk (LocalPath.start disk.cwd ⟨anchor, front⟩) .directory (front ++ [name]) =
        .error .notFound := by
  obtain ⟨accepts, walked⟩ := find_eq_notFound (spell_ne_nil anchor _) h
  rw [show spell anchor (front ++ [name]) = LocalPath.text ⟨anchor, front ++ [name]⟩ from rfl,
    start_text plain, walk_text plain] at walked
  exact ⟨accepts.front plain, walked⟩

/-- What comes right after a path that lacks nothing is not refused for a missing name. -/
theorem find_next_ne_notFound
    (ready : front = [] ∨ disk.lacks (spell anchor front) = false) (other : Text) :
    disk.find (spell anchor (front ++ [name])) ≠ .error (.refused .notFound other) := by
  intro missing
  obtain ⟨accepts, walked⟩ := walk_of_notFound plain missing
  have full : name ≠ [] := (plain name (by simp)).1
  have before := find_text plain.front accepts disk
  rw [walk_append disk full] at walked
  rcases ready with rfl | ready
  · exact walk_single_ne_notFound disk _ _ name walked
  · rw [lacks, show spell anchor front = LocalPath.text ⟨anchor, front⟩ from rfl, before] at ready
    cases reached : walk disk (LocalPath.start disk.cwd ⟨anchor, front⟩) .directory front with
    | ok place =>
      rw [reached] at walked ready
      cases place with
      | present location node => exact walk_single_ne_notFound disk location node name walked
      | vacant location slash => exact absurd ready.symm Bool.false_ne_true
    | error problem =>
      rw [reached] at walked ready
      cases walked
      exact absurd ready.symm Bool.false_ne_true

/-- Below a path where no directory can be made, every path is refused. -/
theorem Blocked.refuses_next {fault : DiskFault}
    (blocked : disk.Blocked (spell anchor front) fault) :
    ∃ other, disk.Refuses (spell anchor (front ++ [name])) other := by
  have lasting := find_next_ne_notFound plain (.inr blocked.lacks)
  cases found : disk.find (spell anchor (front ++ [name])) with
  | error fault =>
    refine ⟨fault, found, ?_⟩
    rintro other rfl
    exact lasting other found
  | ok place =>
    -- The path leads through its front, which would have to be a directory.
    obtain ⟨location, directory⟩ := find_front plain found
    rcases blocked with ⟨-, _, _, file⟩ | ⟨fault, refuses⟩
    · exact absurd (directory.symm.trans file) (by simp)
    · exact absurd (directory.symm.trans refuses.find) (by simp)

end Next

/-! ## Making directories again -/

section Ensure

variable {disk after later : Disk} {path : LocalPath} (plain : path.IsPlain)
include plain

theorem ensureDir_error {fault : DiskFault}
    (h : disk.ensureDir path.text = (.error fault, after))
    (ready : ∀ other, disk.find path.text ≠ .error (.refused .notFound other)) :
    after = disk ∧
      (fault = .refused .alreadyThere path.text ∧
          (∃ location content,
            disk.find path.text = .ok (.present location (.file content))) ∨
        disk.Refuses path.text fault) := by
  rw [ensureDir_text plain] at h
  cases found : disk.find path.text with
  | error other =>
    rw [found] at h
    cases h
    refine ⟨rfl, .inr ⟨found, ?_⟩⟩
    rintro other rfl
    exact ready other found
  | ok place =>
    rw [found] at h
    cases place with
    | vacant location slash => exact absurd h (by simp)
    | present location node =>
      cases node with
      | directory => exact absurd h (by simp)
      | file content =>
        cases h
        exact ⟨rfl, .inl ⟨rfl, location, content, rfl⟩⟩

theorem ensureDir_blocked {fault : DiskFault}
    (h : disk.ensureDir path.text = (.error fault, after))
    (ready : ∀ other, disk.find path.text ≠ .error (.refused .notFound other)) :
    after.Blocked path.text fault := by
  obtain ⟨rfl, there | refuses⟩ := ensureDir_error plain h ready
  · exact .inl there
  · exact .inr ⟨fault, refuses⟩

theorem ensureDir_of_present {location : Location}
    (h : disk.find path.text = .ok (.present location .directory)) :
    disk.ensureDir path.text = (.ok (), disk) := by
  rw [ensureDir_text plain, h]

/-- Making a directory again ends in the same way and makes nothing. -/
theorem IsTree.ensureDir_again (tree : disk.IsTree) {outcome : Except DiskFault Unit}
    (h : disk.ensureDir path.text = (outcome, after))
    (ready : ∀ other, disk.find path.text ≠ .error (.refused .notFound other))
    (grows : after.Grows later) : later.ensureDir path.text = (outcome, later) := by
  cases outcome with
  | ok value =>
    obtain ⟨location, there⟩ := (tree.ensureDir_eq_ok plain h).1
    obtain ⟨node, still, kind⟩ := grows.find_present there
    cases node with
    | file content => exact absurd kind Bool.false_ne_true
    | directory => exact ensureDir_of_present plain still
  | error fault =>
    obtain ⟨rfl, ⟨rfl, location, content, there⟩ | refuses⟩ := ensureDir_error plain h ready
    · obtain ⟨node, still, kind⟩ := grows.find_present there
      cases node with
      | directory => exact absurd kind.symm Bool.false_ne_true
      | file other => rw [ensureDir_text plain, still]
    · rw [ensureDir_text plain, (grows.refuses refuses).find]

end Ensure

section All

variable {anchor : Anchor} {names : List Text} {disk after later : Disk}
  (plain : LocalPath.IsPlain ⟨anchor, names.reverse⟩)
include plain

/-- Nothing that leads to the last directory is missing when that one is made. -/
theorem Readies.lacks {middle : Disk} (h : Readies anchor names disk middle) (tree : disk.IsTree) :
    names.reverse = [] ∨ middle.lacks (spell anchor names.reverse) = false :=
  (h.pathExists tree plain).imp (fun none => by rw [none]; rfl) lacks_of_pathExists

/-- Where directories could not be made, none can be made. -/
theorem IsTree.makeDirsFrom_blocked (tree : disk.IsTree) {fault : DiskFault}
    (h : makeDirsFrom anchor names disk = (.error fault, after)) :
    after.Blocked (spell anchor names.reverse) fault := by
  -- By induction on the names from the last one. A name after a path that lacks nothing is not
  -- missing, and where the front could not be made the whole path is refused.
  induction names generalizing after fault with
  | nil => exact ensureDir_blocked plain h (find_root_ne_notFound disk anchor)
  | cons name before ih =>
    have front := plain_before plain
    have whole := List.reverse_cons ▸ plain
    rcases makeDirsFrom_cases anchor name before disk with
      ⟨middle, ready, last⟩ | ⟨_, _, -, -, made, stops⟩
    · refine ensureDir_blocked plain (last ▸ h) fun other => ?_
      rw [LocalPath.text, List.reverse_cons]
      exact find_next_ne_notFound whole (ready.lacks front tree) other
    · rw [List.reverse_cons]
      exact .inr ((ih front (made.trans (stops.symm.trans h))).refuses_next whole)

/-- Making directories again ends in the same way and makes nothing. -/
theorem IsTree.makeDirsFrom_again (tree : disk.IsTree) {outcome : Except DiskFault Unit}
    (h : makeDirsFrom anchor names disk = (outcome, after)) (grows : after.Grows later) :
    makeDirsFrom anchor names later = (outcome, later) := by
  induction names generalizing after outcome with
  | nil => exact tree.ensureDir_again plain h (find_root_ne_notFound disk anchor) grows
  | cons name before ih =>
    have front := plain_before plain
    have whole := List.reverse_cons ▸ plain
    rcases makeDirsFrom_cases anchor name before disk with
      ⟨middle, ready, last⟩ | ⟨fault, stopped, some, apart, made, stops⟩
    · -- When the front is there, it is there again, and only the last name is left to be made.
      have h := last ▸ h
      have further := ready.furthers tree front
      have furthers := further.tree.ensureDir_furthers plain
      rw [LocalPath.text, h] at furthers
      have still : before = [] ∨ later.pathExists (spell anchor before.reverse) = true :=
        (ready.pathExists tree front).imp_right (furthers.grows.trans grows).pathExists
      refine (if_pos still).trans ?_
      refine further.tree.ensureDir_again plain h (fun other => ?_) grows
      rw [LocalPath.text, List.reverse_cons]
      exact find_next_ne_notFound whole (ready.lacks front tree) other
    · obtain ⟨rfl, rfl⟩ := Prod.mk.inj (stops.symm.trans h)
      have again := ih front made grows
      rcases tree.makeDirsFrom_blocked front made with ⟨rfl, -⟩ | ⟨other, refuses⟩
      · exact absurd rfl (apart _)
      · have absent := (grows.refuses refuses).pathExists
        unfold makeDirsFrom
        rw [if_neg (by simp [absent, some]), again]
        split
        case h_1 same => exact absurd same (by simp)
        case h_2 same => cases same; exact absurd rfl (apart _)
        case h_3 => rfl

/-- Directories that are there need not be made. -/
theorem makeDirsFrom_of_present {location : Location}
    (h : disk.find (spell anchor names.reverse) = .ok (.present location .directory)) :
    makeDirsFrom anchor names disk = (.ok (), disk) := by
  cases names with
  | nil => exact ensureDir_of_present plain h
  | cons name before =>
    have found := List.reverse_cons ▸ h
    obtain ⟨place, there⟩ := find_front (List.reverse_cons ▸ plain) found
    unfold makeDirsFrom
    rw [if_pos (.inr (pathExists_eq_true.mpr ⟨place, _, there⟩))]
    exact ensureDir_of_present plain h

end All

section Make

variable {disk after later : Disk} {path : LocalPath} (plain : path.IsPlain)
include plain

/-- Making all directories of a path again ends in the same way and makes nothing. -/
theorem IsTree.makeDirs_again (tree : disk.IsTree) {outcome : Except DiskFault Unit}
    (h : disk.makeDirs path = (outcome, after)) (grows : after.Grows later) :
    later.makeDirs path = (outcome, later) := by
  refine tree.makeDirsFrom_again ?_ h grows
  rwa [List.reverse_reverse]

theorem IsTree.makeDirs_present (tree : disk.IsTree) (h : disk.makeDirs path = (.ok (), after)) :
    ∃ location, after.find path.text = .ok (.present location .directory) := by
  obtain ⟨anchor, names⟩ := path
  rw [← List.reverse_reverse names] at plain
  have made := tree.makeDirsFrom_present plain h
  rwa [List.reverse_reverse] at made

theorem IsTree.makeDirs_blocked (tree : disk.IsTree) {fault : DiskFault}
    (h : disk.makeDirs path = (.error fault, after)) : after.Blocked path.text fault := by
  obtain ⟨anchor, names⟩ := path
  rw [← List.reverse_reverse names] at plain
  have blocked := tree.makeDirsFrom_blocked plain h
  rwa [List.reverse_reverse] at blocked

theorem makeDirs_of_present {location : Location}
    (h : disk.find path.text = .ok (.present location .directory)) :
    disk.makeDirs path = (.ok (), disk) := by
  obtain ⟨anchor, names⟩ := path
  rw [← List.reverse_reverse names] at plain h
  rw [← List.reverse_reverse names, makeDirs]
  dsimp only
  rw [List.reverse_reverse names.reverse]
  exact makeDirsFrom_of_present plain h

end Make

/-! ## Making ready for a file -/

/-- No slash follows a free name at the end of a row of names. -/
theorem slash_of_walk {disk : Disk} {location found : Location} {node : Node} {names : List Text}
    {slash : Bool} (full : ∀ name ∈ names, name ≠ [])
    (h : walk disk location node names = .ok (.vacant found slash)) : slash = false := by
  induction names generalizing location node with
  | nil => exact absurd h (by simp [walk])
  | cons name rest ih =>
    have later : ∀ other ∈ rest, other ≠ [] := fun other mem =>
      full other (List.mem_cons_of_mem name mem)
    cases node with
    | file content => exact (walk_file h).elim
    | directory =>
      rcases leads_cases disk location name with
        ⟨next, node, leads⟩ | ⟨looked_up, long⟩ | ⟨looked_up, fits, free⟩
      · exact ih later (leads.walk rest ▸ h)
      · rw [walk_too_long looked_up long] at h
        exact absurd h (by simp)
      · rw [walk_free looked_up fits free] at h
        split at h
        case isFalse => exact absurd h (by simp)
        case isTrue blank =>
          cases rest with
          | nil =>
            cases h
            rfl
          | cons other more =>
            have empty := List.isEmpty_iff.mp (List.all_eq_true.mp blank other List.mem_cons_self)
            exact absurd empty (later other List.mem_cons_self)

section Prepare

/-- Makes the directories for a file and finds where it comes to stand. -/
def prepare (disk : Disk) (file : LocalPath) : Except DiskFault Location × Disk :=
  match disk.makeDirs file.parent with
  | (.ok (), made) => (made.writable file.text, made)
  | (.error fault, made) => (.error fault, made)

/-- How making ready for a file ends: it comes to stand somewhere, its directories could not be
made, or it is not written. -/
theorem prepare_cases (disk : Disk) (file : LocalPath) :
    (∃ location made, disk.makeDirs file.parent = (.ok (), made) ∧
      made.writable file.text = .ok location ∧ disk.prepare file = (.ok location, made)) ∨
    (∃ fault made, disk.makeDirs file.parent = (.error fault, made) ∧
      disk.prepare file = (.error fault, made)) ∨
    ∃ fault made, disk.makeDirs file.parent = (.ok (), made) ∧
      made.writable file.text = .error fault ∧ disk.prepare file = (.error fault, made) := by
  unfold prepare
  cases result : disk.makeDirs file.parent with
  | mk outcome made =>
    cases outcome with
    | error fault => exact .inr (.inl ⟨fault, made, rfl, rfl⟩)
    | ok value =>
      dsimp only
      cases written : made.writable file.text with
      | ok location => exact .inl ⟨location, made, rfl, written, rfl⟩
      | error fault => exact .inr (.inr ⟨fault, made, rfl, written, rfl⟩)

/-- Making ready for a file makes directories. -/
theorem prepare_snd (disk : Disk) (file : LocalPath) :
    (disk.prepare file).2 = (disk.makeDirs file.parent).2 := by
  rcases prepare_cases disk file with
    ⟨_, _, made, -, result⟩ | ⟨_, _, made, result⟩ | ⟨_, _, made, -, result⟩ <;> rw [made, result]

variable {disk made later : Disk} {file : LocalPath}

theorem made_of_prepare {location : Location} (h : disk.prepare file = (.ok location, made)) :
    disk.makeDirs file.parent = (.ok (), made) ∧ made.writable file.text = .ok location := by
  rcases prepare_cases disk file with
    ⟨place, disk', dirs, written, result⟩ | ⟨_, _, -, result⟩ | ⟨_, _, -, -, result⟩
  · cases result.symm.trans h
    exact ⟨dirs, written⟩
  all_goals exact absurd (result.symm.trans h) (by simp)

variable (plain : file.IsPlain)
include plain

/-- A file is not written where a directory is, or where its path is refused. -/
theorem writable_error {fault : DiskFault} (h : disk.writable file.text = .error fault)
    (ready : ∀ other, disk.find file.text ≠ .error (.refused .notFound other)) :
    fault = .refused .isDirectory file.text ∧
        (∃ location, disk.find file.text = .ok (.present location .directory)) ∨
      disk.Refuses file.text fault := by
  unfold writable at h
  cases found : disk.find file.text with
  | error other =>
    rw [found] at h
    cases h
    refine .inr ⟨found, ?_⟩
    rintro other rfl
    exact ready other found
  | ok place =>
    rw [found] at h
    cases place with
    | vacant location slash =>
      have none := slash_of_walk (fun name mem => (plain name mem).1) (find_text_eq_ok plain found)
      rw [none] at h
      exact absurd h (by simp)
    | present location node =>
      cases node with
      | file content => exact absurd h (by simp)
      | directory =>
        cases h
        exact .inl ⟨rfl, location, rfl⟩

/-- A file whose directory is there is not refused for a missing name. -/
theorem find_file_ne_notFound {location : Location} {node : Node}
    (h : disk.find file.parent.text = .ok (.present location node)) (other : Text) :
    disk.find file.text ≠ .error (.refused .notFound other) := by
  obtain ⟨anchor, names⟩ := file
  rcases List.eq_nil_or_concat names with rfl | ⟨front, name, rfl⟩
  · exact find_root_ne_notFound disk anchor other
  · rw [List.concat_eq_append] at plain h ⊢
    rw [LocalPath.parent, List.dropLast_concat] at h
    exact find_next_ne_notFound plain
      (.inr (lacks_of_pathExists (pathExists_eq_true.mpr ⟨location, node, h⟩))) other

/-- Nothing but directories is made. -/
theorem IsTree.prepare_furthers (tree : disk.IsTree) : disk.Furthers (disk.prepare file).2 := by
  rw [prepare_snd]
  exact tree.makeDirs_furthers plain.parent

/-- For what is there no directories are made. -/
theorem prepare_of_present {location : Location} {node : Node}
    (h : disk.find file.text = .ok (.present location node)) :
    disk.prepare file = (disk.writable file.text, disk) := by
  have dirs : disk.makeDirs file.parent = (.ok (), disk) := by
    obtain ⟨anchor, names⟩ := file
    rcases List.eq_nil_or_concat names with rfl | ⟨front, name, rfl⟩
    · have reached := find_text_eq_ok plain h
      cases reached
      exact makeDirs_of_present plain.parent h
    · rw [List.concat_eq_append] at plain h ⊢
      obtain ⟨place, there⟩ := find_front plain h
      have parent : LocalPath.parent ⟨anchor, front ++ [name]⟩ = ⟨anchor, front⟩ := by
        rw [LocalPath.parent, List.dropLast_concat]
      rw [parent]
      exact makeDirs_of_present plain.front there
  rw [prepare, dirs]

/-- A file that was made ready is written on a disk with more directories at most. -/
theorem IsTree.prepare_eq_ok (tree : disk.IsTree) {location : Location}
    (h : disk.prepare file = (.ok location, made)) :
    disk.Furthers made ∧ made.writable file.text = .ok location := by
  have further := tree.prepare_furthers plain
  rw [h] at further
  exact ⟨further, (made_of_prepare h).2⟩

/-- A file that was made ready and written is there. -/
theorem IsTree.pathExists_of_prepare (tree : disk.IsTree) {location : Location}
    (h : disk.prepare file = (.ok location, made)) (content : Bytes) :
    (made.put location (.file content)).pathExists file.text = true := by
  obtain ⟨further, written⟩ := tree.prepare_eq_ok plain h
  exact pathExists_eq_true.mpr ⟨location, _, further.tree.find_put written content⟩

/-- After a file was written, making ready for it again finds its place and makes nothing. -/
theorem IsTree.prepare_written (tree : disk.IsTree) {location : Location}
    (h : disk.prepare file = (.ok location, made)) {content : Bytes}
    (grows : (made.put location (.file content)).Grows later) :
    later.prepare file = (.ok location, later) := by
  obtain ⟨further, written⟩ := tree.prepare_eq_ok plain h
  obtain ⟨node, there, kind⟩ := grows.find_present (further.tree.find_put written content)
  cases node with
  | directory => exact absurd kind.symm Bool.false_ne_true
  | file other => rw [prepare_of_present plain there, writable, there]

/-- Where a file could not be written, it cannot be written later, for the same reason. -/
theorem IsTree.prepare_failed (tree : disk.IsTree) {fault : DiskFault}
    (h : disk.prepare file = (.error fault, made)) (grows : made.Grows later) :
    later.prepare file = (.error fault, later) := by
  rcases prepare_cases disk file with
    ⟨place, disk', -, -, result⟩ | ⟨fault, disk', dirs, result⟩ | ⟨fault, disk', dirs, kept, result⟩
  · rw [result] at h
    exact absurd h (by simp)
  · rw [result] at h
    cases h
    rw [prepare, tree.makeDirs_again plain.parent dirs grows]
  · rw [result] at h
    cases h
    obtain ⟨location, parent⟩ := tree.makeDirs_present plain.parent dirs
    rw [prepare, tree.makeDirs_again plain.parent dirs grows]
    dsimp only
    rw [writable]
    rcases writable_error plain kept (find_file_ne_notFound plain parent) with
      ⟨rfl, place, there⟩ | refuses
    · obtain ⟨node, still, kind⟩ := grows.find_present there
      cases node with
      | file content => exact absurd kind Bool.false_ne_true
      | directory => rw [still]
    · rw [(grows.refuses refuses).find]

/-- Where a file could not be written, its path lacks nothing. -/
theorem IsTree.prepare_lacks (tree : disk.IsTree) {fault : DiskFault}
    (h : disk.prepare file = (.error fault, made)) : made.lacks file.text = false := by
  rcases prepare_cases disk file with
    ⟨place, disk', -, -, result⟩ | ⟨fault, disk', dirs, result⟩ | ⟨fault, disk', dirs, kept, result⟩
  · rw [result] at h
    exact absurd h (by simp)
  · rw [result] at h
    cases h
    have blocked := tree.makeDirs_blocked plain.parent dirs
    obtain ⟨anchor, names⟩ := file
    rcases List.eq_nil_or_concat names with rfl | ⟨front, name, rfl⟩
    · exact blocked.lacks
    · rw [List.concat_eq_append] at plain blocked ⊢
      rw [LocalPath.parent, List.dropLast_concat] at blocked
      obtain ⟨other, refuses⟩ := blocked.refuses_next plain
      exact refuses.lacks
  · rw [result] at h
    cases h
    obtain ⟨location, parent⟩ := tree.makeDirs_present plain.parent dirs
    rcases writable_error plain kept (find_file_ne_notFound plain parent) with
      ⟨rfl, place, there⟩ | refuses
    · exact lacks_of_pathExists (pathExists_eq_true.mpr ⟨place, _, there⟩)
    · exact refuses.lacks

/-- Nothing is written to a path that is refused. -/
theorem IsTree.prepare_of_refuses (tree : disk.IsTree) {fault : DiskFault}
    (h : disk.Refuses file.text fault) :
    ∃ other made, disk.prepare file = (.error other, made) := by
  rcases prepare_cases disk file with
    ⟨place, disk', dirs, written, result⟩ | ⟨fault, disk', -, result⟩ |
    ⟨fault, disk', -, -, result⟩
  · have further := tree.makeDirs_furthers plain.parent
    rw [dirs] at further
    rw [writable, (further.grows.refuses h).find] at written
    exact absurd written (by simp)
  · exact ⟨fault, disk', result⟩
  · exact ⟨fault, disk', result⟩

end Prepare

/-! ## Reading again -/

theorem read_eq_ok {disk : Disk} {path : Text} {content : Bytes} :
    disk.read path = .ok content ↔
      ∃ location, disk.find path = .ok (.present location (.file content)) := by
  unfold read
  constructor
  · intro h
    split at h
    case h_1 location content' found =>
      cases h
      exact ⟨location, found⟩
    all_goals exact absurd h (by simp)
  · rintro ⟨location, found⟩
    rw [found]

/-- A file that was read can still be read, and what is read is what is at its place by then. -/
theorem Grows.read {before after : Disk} (grows : before.Grows after) (tree : after.IsTree)
    {path : Text} {old content : Bytes} (read : before.read path = .ok old)
    (there : after.file? (absoluteNames after.here path) = some content) :
    after.read path = .ok content := by
  obtain ⟨place, found⟩ := read_eq_ok.mp read
  obtain ⟨node, still, -⟩ := grows.find_present found
  rw [← location_of_find tree.cwd_isProper still] at there
  have holds := tree.holds_of_find still
  cases Option.some.inj (holds.symm.trans (file?_eq_some.mp there))
  exact read_eq_ok.mpr ⟨place, still⟩

/-- What was read is read again after its own content was written to some file. -/
theorem IsTree.read_put {disk made : Disk} (tree : disk.IsTree) (further : disk.Furthers made)
    {path : Text} {content : Bytes} (read : disk.read path = .ok content) {location : Location}
    (is_open : made.IsOpen location) :
    (made.put location (.file content)).read path = .ok content := by
  have grows := further.grows.trans (is_open.grows content)
  refine grows.read (further.tree.put is_open _) read ?_
  rw [file?_put _ is_open.ne_nil, further.files, grows.here, tree.file?_of_read read, ite_self]

end Disk

end WorkflowInstall

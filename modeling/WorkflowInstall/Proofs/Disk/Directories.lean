import WorkflowInstall.Proofs.Disk.Change

/-!
# Making directories

What it takes to make a directory and those that lead to it, and when the file system could be seen
through the path before.

## Main Definitions

* `Disk.Furthers` — there may be more directories, and all else is as before
* `Disk.Readies` — the disk on which the last directory of a row is made
* `Disk.lacks` — whether a name is missing on a path
* `Disk.Sees` — no directory that a path climbs out of is missing

## Main Statements

* `Disk.IsTree.find_names` — every entry is found by its path from a root
* `Disk.makeDirsFrom_cases` — the last directory of a row is made, or one before it cannot be
* `Disk.IsTree.makeDirs_furthers` — making directories makes nothing but directories
* `Disk.IsTree.makeDirs_sees` — a directory that was not there before had nothing in it
* `Disk.pathExists_of_not_sees` — through a missing directory nothing can be seen

## Design Notes

A path `new/../kept` cannot be followed while `new` is missing, although `kept` may be there, and
making its directories makes `new`. So what has been looked up along such a path before says nothing
about what is there afterwards. `Sees` excludes these paths.
-/

namespace WorkflowInstall

open Path

namespace Disk

/-! ## Walking along names -/

theorem walk_append (disk : Disk) {name : Text} (some : name ≠ []) (names : List Text)
    (location : Location) (node : Node) :
    walk disk location node (names ++ [name]) =
      match walk disk location node names with
      | .ok (.present reached found) => walk disk reached found [name]
      | .ok (.vacant _ _) => .error .notFound
      | .error problem => .error problem := by
  induction names generalizing location node with
  | nil => rfl
  | cons segment rest ih =>
    cases node with
    | file content => rfl
    | directory =>
      rw [List.cons_append]
      rcases leads_cases disk location segment with
        ⟨next, node, leads⟩ | ⟨long_name, long⟩ | ⟨free_name, fits, free⟩
      · rw [leads.walk, leads.walk]
        exact ih next node
      · rw [walk_too_long long_name long, walk_too_long long_name long]
      · have more : ¬ (rest ++ [name]).all List.isEmpty = true := by simp [some]
        rw [walk_free free_name fits free, walk_free free_name fits free, if_neg more]
        by_cases blank : rest.all List.isEmpty = true
        · rw [if_pos blank]
        · rw [if_neg blank]

/-- A walk that fails fails in the same way when it is to go on. -/
theorem walk_append_error {disk : Disk} {location : Location} {node : Node} {names : List Text}
    {problem : DiskProblem} (h : walk disk location node names = .error problem)
    (more : List Text) (full : ∀ name ∈ more, name ≠ []) :
    walk disk location node (names ++ more) = .error problem := by
  induction more generalizing names with
  | nil => rwa [List.append_nil]
  | cons name rest ih =>
    rw [List.append_cons]
    refine ih ?_ fun other mem => full other (List.mem_cons_of_mem name mem)
    rw [walk_append disk (full name List.mem_cons_self), h]

section Text

variable {path : LocalPath} (plain : path.IsPlain)
include plain

theorem walk_text (disk : Disk) (location : Location) :
    walk disk location .directory (Text.splitOn '/' path.text) =
      walk disk location .directory path.names := by
  obtain ⟨idle, goes, split⟩ := LocalPath.splitOn_text plain
  rw [split, walk_idle goes]

theorem start_text (cwd : Location) : start cwd path.text = path.start cwd := by
  rw [start, LocalPath.isAbsolute_text plain, LocalPath.start]

theorem find_text (accepts : Accepts path.text) (disk : Disk) :
    disk.find path.text =
      (walk disk (path.start disk.cwd) .directory path.names).mapError
        fun problem => .refused problem path.text := by
  rw [find, follow_of_accepts accepts, walk_text plain, start_text plain]

theorem find_text_eq_ok {disk : Disk} {place : Place} (h : disk.find path.text = .ok place) :
    walk disk (path.start disk.cwd) .directory path.names = .ok place := by
  have walked := (follow_eq_ok h).2
  rwa [walk_text plain, start_text plain] at walked

/-- Taking away the slashes at the end changes nothing. -/
theorem follow_stripped (disk : Disk) :
    disk.follow path.text
        ((Text.splitOn '/' path.text).reverse.dropWhile List.isEmpty).reverse =
      disk.find path.text := by
  by_cases accepts : Accepts path.text
  · rw [find, follow_of_accepts accepts, follow_of_accepts accepts]
    congr 1
    -- The last name is no empty segment, so only segments that stay are taken away.
    obtain ⟨idle, goes, split⟩ := LocalPath.splitOn_text plain
    rcases List.eq_nil_or_concat path.names with none | ⟨names, name, some⟩
    · rw [split, none, List.append_nil]
      have fewer : ∀ segment ∈ (idle.reverse.dropWhile List.isEmpty).reverse,
          segment = [] ∨ segment = dot := by
        intro segment mem
        rw [List.mem_reverse] at mem
        exact goes segment (List.mem_reverse.mp ((List.dropWhile_sublist _).mem mem))
      rw [← List.append_nil idle, walk_idle goes, List.append_nil,
        ← List.append_nil (List.reverse _), walk_idle fewer]
    · have full : name ≠ [] := (plain name (by rw [some]; simp)).1
      have last : ¬ name.isEmpty = true := by simpa using full
      rw [split, some, List.concat_eq_append, ← List.append_assoc, List.reverse_concat,
        List.dropWhile_cons_of_neg last, ← List.reverse_concat, List.reverse_reverse]
  · obtain ⟨fault, refused⟩ := follow_of_not_accepts accepts
    rw [find, refused, refused]

end Text

theorem accepts_dot : Accepts dot :=
  ⟨(unencodableBut?_eq_none dot).mp (by decide), by decide, by decide, by decide⟩

theorem Accepts.front_of_text {before after : Text} (some : before ≠ []) (more : after ≠ [])
    (h : Accepts (before ++ '/' :: after)) : Accepts before where
  encodable := ((encodable_append_slash before after).mp h.encodable).1
  no_nul mem := h.no_nul (List.mem_append_left _ mem)
  some := some
  fits := Nat.le_trans (byteLength_front before more) h.fits

/-- A path is not refused for its spelling when a path that goes on from it is not. -/
theorem Accepts.front {anchor : Anchor} {front rest : List Text}
    (plain : LocalPath.IsPlain ⟨anchor, front ++ rest⟩)
    (h : Accepts (spell anchor (front ++ rest))) : Accepts (spell anchor front) := by
  have full : ∀ name ∈ front ++ rest, name ≠ [] := by
    intro name mem
    exact (plain name mem).1
  rcases Decidable.em (rest = []) with rfl | more
  · rwa [List.append_nil] at h
  rcases Decidable.em (front = []) with rfl | some
  · cases anchor with
    | here => exact accepts_dot
    | root => exact ⟨(unencodableBut?_eq_none _).mp (by decide), by decide, by decide, by decide⟩
    | doubleRoot =>
      exact ⟨(unencodableBut?_eq_none _).mp (by decide), by decide, by decide, by decide⟩
  · rw [spell_append some (fun name mem => full name (List.mem_append_left rest mem)) more] at h
    refine h.front_of_text (spell_ne_nil anchor front) fun none => more ?_
    exact Text.joinWith_eq_nil (fun name mem => full name (List.mem_append_right front mem)) none

section Names

variable {anchor : Anchor} (rooted : anchor.isRooted = true) {names : List Text}
  (good : ∀ name ∈ names, IsName name)
include rooted good

theorem spell_names_clean :
    Encodable (spell anchor names) ∧ '\x00' ∉ spell anchor names := by
  have joined : Encodable (Text.joinWith "/" names) :=
    encodable_joinWith.mpr fun name mem => (good name mem).encodable
  have no_nul : '\x00' ∉ Text.joinWith "/" names := by
    intro mem
    rcases Text.of_mem_joinWith mem with slash | ⟨name, inside, mem⟩
    · exact absurd slash (by decide)
    · exact (good name inside).no_nul mem
  have slash {text : Text} (encodable : Encodable text) : Encodable ('/' :: text) :=
    (encodable_append_slash [] text).mpr ⟨encodable_nil, encodable⟩
  rw [spell_rooted rooted]
  constructor
  · cases anchor with
    | here => exact joined
    | root => exact slash joined
    | doubleRoot => exact slash (slash joined)
  · intro mem
    rcases List.mem_append.mp mem with mem | mem
    · cases anchor <;> exact absurd mem (by decide)
    · exact no_nul mem

/-- Names from a root are refused for nothing but their length. -/
theorem accepts_names (fits : byteLength (spell anchor names) ≤ pathLimit) :
    Accepts (spell anchor names) :=
  have clean := spell_names_clean rooted good
  ⟨clean.1, clean.2, spell_ne_nil anchor names, fits⟩

/-- Names from a root that are too long are refused for that. -/
theorem find_too_long (long : pathLimit < byteLength (spell anchor names)) (disk : Disk) :
    disk.find (spell anchor names) = .error (.refused .nameTooLong (spell anchor names)) := by
  obtain ⟨encodable, no_nul⟩ := spell_names_clean rooted good
  have nul : ¬ (spell anchor names).contains '\x00' = true := by simpa using no_nul
  have some : ¬ (spell anchor names).isEmpty = true := by simpa using spell_ne_nil anchor names
  simp only [find, follow, (unencodableBut?_eq_none _).mpr encodable, if_neg nul, if_neg some,
    if_pos long]

end Names

theorem isPlain_names {anchor : Anchor} {names : List Text} (good : ∀ name ∈ names, IsName name) :
    LocalPath.IsPlain ⟨anchor, names⟩ := fun name mem =>
  ⟨(good name mem).proper.ne_nil, (good name mem).proper.ne_dot, (good name mem).proper.no_slash⟩

/-- What stands at a place is found by the names of the place. -/
theorem IsTree.find_names {disk : Disk} (tree : disk.IsTree) {anchor : Anchor}
    (rooted : anchor.isRooted = true) {location : Location} {node : Node}
    (there : disk.node? location = some node)
    (fits : byteLength (spell anchor location) ≤ pathLimit) :
    disk.find (spell anchor location) = .ok (.present location node) := by
  have good := tree.names there
  have whole : disk.node? ([] ++ location) = some node := there
  obtain ⟨first, root, walked⟩ := tree.walk_names whole
  rw [node?_nil] at root
  cases root
  have found := find_text (isPlain_names good) (accepts_names rooted good fits) disk
  rw [LocalPath.start, if_pos rooted, walked] at found
  exact found

/-- What a path goes through is a directory. -/
theorem find_front {disk : Disk} {anchor : Anchor} {front : List Text} {name : Text} {place : Place}
    (plain : LocalPath.IsPlain ⟨anchor, front ++ [name]⟩)
    (h : disk.find (spell anchor (front ++ [name])) = .ok place) :
    ∃ location, disk.find (spell anchor front) = .ok (.present location .directory) := by
  have full : name ≠ [] := (plain name (by simp)).1
  have walked := find_text_eq_ok plain h
  have accepts : Accepts (LocalPath.text ⟨anchor, front⟩) := (follow_eq_ok h).1.front plain
  rw [walk_append disk full] at walked
  split at walked
  case h_1 location node reached =>
    cases node with
    | file content => exact absurd walked (by simp [walk])
    | directory =>
      have start : LocalPath.start disk.cwd ⟨anchor, front⟩ =
        LocalPath.start disk.cwd ⟨anchor, front ++ [name]⟩ := rfl
      refine ⟨location, (find_text plain.front accepts disk).trans ?_⟩
      rw [start, reached]
      rfl
  all_goals exact absurd walked (by simp)

/-! ## Making one directory -/

theorem walk_ne_alreadyThere {disk : Disk} {location : Location} {node : Node}
    {segments : List Text} {problem : DiskProblem}
    (h : walk disk location node segments = .error problem) : problem ≠ .alreadyThere := by
  rintro rfl
  induction segments generalizing location node with
  | nil => exact absurd h (by simp [walk])
  | cons segment rest ih =>
    cases node with
    | file content => exact absurd h (by simp [walk])
    | directory =>
      rcases leads_cases disk location segment with
        ⟨next, node, leads⟩ | ⟨name, long⟩ | ⟨name, fits, free⟩
      · exact ih (leads.walk rest ▸ h)
      · rw [walk_too_long name long] at h
        exact absurd h (by simp)
      · rw [walk_free name fits free] at h
        split at h <;> exact absurd h (by simp)

/-- A path that is refused is refused under its own name, and not because something is there. -/
theorem find_eq_refused {disk : Disk} {path other : Text} {problem : DiskProblem}
    (h : disk.find path = .error (.refused problem other)) :
    other = path ∧ problem ≠ .alreadyThere := by
  rw [find, follow] at h
  split at h
  · exact absurd h (by simp)
  split at h
  · exact absurd h (by simp)
  split at h
  · cases h
    exact ⟨rfl, by decide⟩
  split at h
  · cases h
    exact ⟨rfl, by decide⟩
  · cases result : walk disk (if isAbsolute path = true then [] else disk.cwd) .directory
        (Text.splitOn '/' path) with
    | ok place =>
      simp only [result] at h
      injection h
    | error found =>
      simp only [result] at h
      injection h with h
      injection h with same name
      subst same
      exact ⟨name.symm, walk_ne_alreadyThere result⟩

/-- Making a directory does what is needed for what the path leads to. -/
theorem ensureDir_text {path : LocalPath} (plain : path.IsPlain) (disk : Disk) :
    disk.ensureDir path.text =
      match disk.find path.text with
      | .ok (.present _ .directory) => (.ok (), disk)
      | .ok (.present _ (.file _)) => (.error (.refused .alreadyThere path.text), disk)
      | .ok (.vacant location _) => (.ok (), disk.put location .directory)
      | .error fault => (.error fault, disk) := by
  rw [ensureDir, makeDir, follow_stripped plain]
  cases found : disk.find path.text with
  | ok place =>
    cases place with
    | vacant location slash => rfl
    | present location node =>
      cases node with
      | directory => simp only [isDirectory, found, if_true]
      | file content => simp only [isDirectory, found, if_neg Bool.false_ne_true]
  | error fault =>
    cases fault with
    | refused problem other =>
      obtain ⟨rfl, -⟩ := find_eq_refused found
      simp only [isDirectory, found, if_neg Bool.false_ne_true]
    | nulInPath => rfl
    | unencodable part => rfl

/-- There may be more directories, and all else is as before. -/
structure Furthers (before after : Disk) : Prop where
  tree : after.IsTree
  grows : before.Grows after
  files : ∀ location, after.file? location = before.file? location

theorem IsTree.furthers {disk : Disk} (tree : disk.IsTree) : disk.Furthers disk :=
  ⟨tree, .refl disk, fun _ => rfl⟩

theorem Furthers.trans {before after last : Disk} (first : before.Furthers after)
    (second : after.Furthers last) : before.Furthers last :=
  ⟨second.tree, first.grows.trans second.grows, fun location =>
    (second.files location).trans (first.files location)⟩

theorem Furthers.here {before after : Disk} (h : before.Furthers after) :
    after.here = before.here := by
  rw [Disk.here, h.grows.cwd, Disk.here]

section Ensure

variable {disk after : Disk} (tree : disk.IsTree) {path : LocalPath} (plain : path.IsPlain)
include tree plain

theorem IsTree.ensureDir_furthers : disk.Furthers (disk.ensureDir path.text).2 := by
  rw [ensureDir_text plain]
  cases found : disk.find path.text with
  | error fault => exact tree.furthers
  | ok place =>
    cases place with
    | present location node => cases node <;> exact tree.furthers
    | vacant location slash =>
      have free : disk.IsFree location := tree.holds_of_find found
      exact ⟨tree.put (.inl free) .directory, free.grows .directory, file?_put_directory free⟩

/-- A directory that was made was there before, or its place was free. -/
theorem IsTree.ensureDir_eq_ok (h : disk.ensureDir path.text = (.ok (), after)) :
    (∃ location, after.find path.text = .ok (.present location .directory)) ∧
      (after = disk ∨ disk.node? (absoluteNames disk.here path.text) = none) := by
  rw [ensureDir_text plain] at h
  cases found : disk.find path.text with
  | error fault => rw [found] at h; exact absurd h (by simp)
  | ok place =>
    rw [found] at h
    cases place with
    | present location node =>
      cases node with
      | file content => exact absurd h (by simp)
      | directory => cases h; exact ⟨⟨location, found⟩, .inl rfl⟩
    | vacant location slash =>
      -- The directory was made just now, so nothing was at its place.
      cases h
      have free : disk.IsFree location := tree.holds_of_find found
      obtain ⟨accepts, walked⟩ := follow_eq_ok found
      refine ⟨⟨location, ?_⟩, .inr ?_⟩
      · rw [find, follow_of_accepts accepts, cwd_put, walk_put (fun _ => rfl) free walked]
        rfl
      · have same : location = _ := location_of_find tree.cwd_isProper found
        rw [← same]
        exact free.1

end Ensure

theorem ensureDir_alreadyThere {disk after : Disk} {path : LocalPath} (plain : path.IsPlain)
    {other : Text} (h : disk.ensureDir path.text = (.error (.refused .alreadyThere other), after)) :
    ∃ location content, after.find path.text = .ok (.present location (.file content)) := by
  rw [ensureDir_text plain] at h
  cases found : disk.find path.text with
  | error fault =>
    rw [found] at h
    injection h with fault_eq disk_eq
    injection fault_eq with fault_eq
    rw [fault_eq] at found
    exact absurd rfl (find_eq_refused found).2
  | ok place =>
    rw [found] at h
    cases place with
    | vacant location slash => exact absurd h (by simp)
    | present location node =>
      cases node with
      | directory => exact absurd h (by simp)
      | file content =>
        injection h with _ disk_eq
        exact ⟨location, content, disk_eq ▸ found⟩

/-! ## Making all directories of a path -/

theorem cwd_ensureDir (disk : Disk) (path : Text) : (disk.ensureDir path).2.cwd = disk.cwd := by
  have make {after : Disk} (h : disk.makeDir path = .ok after) : after.cwd = disk.cwd := by
    rw [makeDir] at h
    split at h
    · cases h
      exact cwd_put disk _ _
    all_goals exact absurd h (by simp)
  unfold ensureDir
  split
  case h_1 after made => exact make made
  case h_2 => split <;> rfl
  case h_3 => rfl

/-- The disk on which the last directory of a row is made, after those that lead to it: they were
there, they were made, or a file was found in the place of one. -/
inductive Readies (anchor : Anchor) (before : List Text) (disk : Disk) : Disk → Prop
  | there (h : before = [] ∨ disk.pathExists (spell anchor before.reverse) = true) :
      Readies anchor before disk disk
  | made {middle : Disk} (missing : disk.pathExists (spell anchor before.reverse) ≠ true)
      (h : makeDirsFrom anchor before disk = (.ok (), middle)) : Readies anchor before disk middle
  | occupied {middle : Disk} {other : Text}
      (h : makeDirsFrom anchor before disk = (.error (.refused .alreadyThere other), middle)) :
      Readies anchor before disk middle

/-- The last directory of a row is made, unless one of those that lead to it cannot be made. -/
theorem makeDirsFrom_cases (anchor : Anchor) (name : Text) (before : List Text) (disk : Disk) :
    (∃ middle, Readies anchor before disk middle ∧
      makeDirsFrom anchor (name :: before) disk =
        middle.ensureDir (spell anchor (name :: before).reverse)) ∨
    ∃ fault after, before ≠ [] ∧ (∀ other, fault ≠ .refused .alreadyThere other) ∧
      makeDirsFrom anchor before disk = (.error fault, after) ∧
      makeDirsFrom anchor (name :: before) disk = (.error fault, after) := by
  by_cases there : before = [] ∨ disk.pathExists (spell anchor before.reverse) = true
  · exact .inl ⟨disk, .there there, if_pos there⟩
  have goes_on : makeDirsFrom anchor (name :: before) disk = _ := if_neg there
  rw [goes_on]
  rw [not_or] at there
  split
  case h_1 middle made => exact .inl ⟨middle, .made there.2 made, rfl⟩
  case h_2 other middle found => exact .inl ⟨middle, .occupied found, rfl⟩
  case h_3 done occupied =>
    cases front : makeDirsFrom anchor before disk with
    | mk outcome after =>
      cases outcome with
      | ok value => exact absurd front (done after)
      | error fault =>
        refine .inr ⟨fault, after, there.1, ?_, rfl, rfl⟩
        rintro other rfl
        exact occupied other after front

theorem Readies.disk_eq {anchor : Anchor} {before : List Text} {disk middle : Disk}
    (h : Readies anchor before disk middle) :
    middle = disk ∨ middle = (makeDirsFrom anchor before disk).2 := by
  cases h with
  | there => exact .inl rfl
  | made _ h => exact .inr (by rw [h])
  | occupied h => exact .inr (by rw [h])

/-- Making directories does not move the working directory. -/
theorem cwd_makeDirsFrom (anchor : Anchor) (names : List Text) (disk : Disk) :
    (makeDirsFrom anchor names disk).2.cwd = disk.cwd := by
  induction names with
  | nil => exact cwd_ensureDir disk _
  | cons name before ih =>
    rcases makeDirsFrom_cases anchor name before disk with
      ⟨middle, ready, last⟩ | ⟨fault, after, -, -, front, stops⟩
    · rw [last, cwd_ensureDir]
      rcases ready.disk_eq with rfl | rfl
      · rfl
      · exact ih
    · rw [stops, ← ih, front]

theorem cwd_makeDirs (disk : Disk) (path : LocalPath) : (disk.makeDirs path).2.cwd = disk.cwd :=
  cwd_makeDirsFrom path.anchor path.names.reverse disk

theorem cwd_of_makeDirs {disk after : Disk} {path : LocalPath} {outcome : Except DiskFault Unit}
    (h : disk.makeDirs path = (outcome, after)) : after.cwd = disk.cwd := by
  have stays := cwd_makeDirs disk path
  rwa [h] at stays

theorem here_makeDirs {disk after : Disk} {path : LocalPath} {outcome : Except DiskFault Unit}
    (h : disk.makeDirs path = (outcome, after)) : after.here = disk.here := by
  rw [here, here, cwd_of_makeDirs h]

theorem plain_before {anchor : Anchor} {name : Text} {before : List Text}
    (plain : LocalPath.IsPlain ⟨anchor, (name :: before).reverse⟩) :
    LocalPath.IsPlain ⟨anchor, before.reverse⟩ := by
  rw [List.reverse_cons] at plain
  exact plain.front

section All

variable {anchor : Anchor} {names : List Text}

/-- Making directories makes nothing but directories, also when it fails half way. -/
theorem IsTree.makeDirsFrom_furthers {disk : Disk} (tree : disk.IsTree)
    (plain : LocalPath.IsPlain ⟨anchor, names.reverse⟩) :
    disk.Furthers (makeDirsFrom anchor names disk).2 := by
  induction names with
  | nil => exact tree.ensureDir_furthers plain
  | cons name before ih =>
    have first := ih (plain_before plain)
    rcases makeDirsFrom_cases anchor name before disk with
      ⟨middle, ready, last⟩ | ⟨fault, after, -, -, front, stops⟩
    · have further : disk.Furthers middle := by
        rcases ready.disk_eq with rfl | rfl
        · exact tree.furthers
        · exact first
      rw [last]
      exact further.trans (further.tree.ensureDir_furthers plain)
    · rw [front] at first
      rwa [stops]

theorem Readies.furthers {disk middle : Disk} (h : Readies anchor names disk middle)
    (tree : disk.IsTree) (plain : LocalPath.IsPlain ⟨anchor, names.reverse⟩) :
    disk.Furthers middle := by
  rcases h.disk_eq with rfl | rfl
  · exact tree.furthers
  · exact tree.makeDirsFrom_furthers plain

theorem IsTree.makeDirsFrom_present {disk after : Disk} (tree : disk.IsTree)
    (plain : LocalPath.IsPlain ⟨anchor, names.reverse⟩)
    (h : makeDirsFrom anchor names disk = (.ok (), after)) :
    ∃ location, after.find (spell anchor names.reverse) = .ok (.present location .directory) := by
  cases names with
  | nil => exact (tree.ensureDir_eq_ok plain h).1
  | cons name before =>
    rcases makeDirsFrom_cases anchor name before disk with
      ⟨middle, ready, last⟩ | ⟨fault, _, -, -, -, stops⟩
    · have further := ready.furthers tree (plain_before plain)
      exact (further.tree.ensureDir_eq_ok plain (last ▸ h)).1
    · exact absurd (stops.symm.trans h) (by simp)

theorem makeDirsFrom_alreadyThere {disk after : Disk} {other : Text}
    (plain : LocalPath.IsPlain ⟨anchor, names.reverse⟩)
    (h : makeDirsFrom anchor names disk = (.error (.refused .alreadyThere other), after)) :
    ∃ location content,
      after.find (spell anchor names.reverse) = .ok (.present location (.file content)) := by
  cases names with
  | nil => exact ensureDir_alreadyThere plain h
  | cons name before =>
    rcases makeDirsFrom_cases anchor name before disk with
      ⟨middle, -, last⟩ | ⟨fault, _, -, apart, -, stops⟩
    · exact ensureDir_alreadyThere plain (last ▸ h)
    · rw [stops] at h
      cases h
      exact absurd rfl (apart other)

/-- What leads to the last directory is there when that one is made, if only as a file. -/
theorem Readies.pathExists {disk middle : Disk} (h : Readies anchor names disk middle)
    (tree : disk.IsTree) (plain : LocalPath.IsPlain ⟨anchor, names.reverse⟩) :
    names = [] ∨ middle.pathExists (spell anchor names.reverse) = true := by
  cases h with
  | there h => exact h
  | made _ h =>
    obtain ⟨location, there⟩ := tree.makeDirsFrom_present plain h
    exact .inr (pathExists_eq_true.mpr ⟨location, _, there⟩)
  | occupied h =>
    obtain ⟨location, content, there⟩ := makeDirsFrom_alreadyThere plain h
    exact .inr (pathExists_eq_true.mpr ⟨location, _, there⟩)

end All

/-! ## Seeing through a path -/

/-- Whether a path leads to nothing because a name on it is missing. -/
def lacks (disk : Disk) (path : Text) : Bool :=
  match disk.find path with
  | .ok (.vacant _ _) => true
  | .error (.refused .notFound _) => true
  | _ => false

/-- No directory that a path climbs out of is missing. -/
def Sees (disk : Disk) (path : LocalPath) : Prop :=
  ∀ front back, path.names = front ++ up :: back → disk.lacks (spell path.anchor front) = false

theorem sees_of_up_notMem (disk : Disk) {path : LocalPath} (h : up ∉ path.names) :
    disk.Sees path := by
  intro front back split
  exact absurd (split ▸ List.mem_append_right front List.mem_cons_self) h

/-- What is not missing stays so. -/
theorem Grows.lacks {before after : Disk} (grows : before.Grows after) {path : Text}
    (h : before.lacks path = false) : after.lacks path = false := by
  rw [Disk.lacks] at h
  rw [Disk.lacks]
  cases found : before.find path with
  | ok place =>
    rw [found] at h
    cases place with
    | vacant location slash => exact absurd h (by simp)
    | present location node =>
      obtain ⟨other, there, -⟩ := grows.find_present found
      rw [there]
  | error fault =>
    rw [found] at h
    have stays : after.find path = .error fault := by
      refine grows.follow_error found fun other missing => ?_
      rw [missing] at h
      exact absurd h (by simp)
    rw [stays]
    exact h

/-- What was not missing and is there now was there before. -/
theorem Grows.pathExists_of_lacks {before after : Disk} (grows : before.Grows after) {path : Text}
    (h : before.lacks path = false) (there : after.pathExists path = true) :
    before.pathExists path = true := by
  rw [Disk.lacks] at h
  cases found : before.find path with
  | ok place =>
    rw [found] at h
    cases place with
    | vacant location slash => exact absurd h (by simp)
    | present location node => exact pathExists_eq_true.mpr ⟨location, node, found⟩
  | error fault =>
    rw [found] at h
    have stays : after.find path = .error fault := by
      refine grows.follow_error found fun other missing => ?_
      rw [missing] at h
      exact absurd h (by simp)
    rw [Disk.pathExists, stays] at there
    exact absurd there Bool.false_ne_true

theorem Grows.sees {before after : Disk} (grows : before.Grows after) {path : LocalPath}
    (h : before.Sees path) : after.Sees path := by
  intro front back split
  exact grows.lacks (h front back split)

/-- Names that do not go up can be added. -/
theorem Sees.append {disk : Disk} {path : LocalPath} (h : disk.Sees path) {names : List Text}
    (proper : up ∉ names) : disk.Sees { path with names := path.names ++ names } := by
  intro front back split
  -- The step up is among the names before, because none of those that are added is one.
  rcases List.append_eq_append_iff.mp split with ⟨more, rfl, tail⟩ | ⟨more, whole, tail⟩
  · exact absurd (tail ▸ List.mem_append_right more List.mem_cons_self) proper
  · cases more with
    | nil =>
      rw [List.nil_append] at tail
      exact absurd (tail ▸ List.mem_cons_self) proper
    | cons name rest =>
      obtain ⟨rfl, -⟩ := List.cons.inj tail
      exact h front rest whole

theorem Sees.front {disk : Disk} {anchor : Anchor} {front rest : List Text}
    (h : disk.Sees ⟨anchor, front ++ rest⟩) : disk.Sees ⟨anchor, front⟩ := by
  intro start back split
  have whole : front ++ rest = start ++ up :: (back ++ rest) := by
    rw [show front = start ++ up :: back from split, List.append_assoc, List.cons_append]
  exact h start (back ++ rest) whole

/-- Directories that were made were there before, or their place was free. -/
theorem IsTree.makeDirsFrom_sees {disk after : Disk} (tree : disk.IsTree) {anchor : Anchor}
    {names : List Text} (plain : LocalPath.IsPlain ⟨anchor, names.reverse⟩)
    (sees : disk.Sees ⟨anchor, names.reverse⟩)
    (h : makeDirsFrom anchor names disk = (.ok (), after)) :
    after = disk ∨ disk.node? (absoluteNames disk.here (spell anchor names.reverse)) = none := by
  -- By induction on the names from the last one. The directory that the last name is made in was
  -- there before, or nothing was below its place.
  induction names generalizing after with
  | nil => exact (tree.ensureDir_eq_ok plain h).2
  | cons name before ih =>
    have front := plain_before plain
    have sees_front : disk.Sees ⟨anchor, before.reverse⟩ := by
      rw [List.reverse_cons] at sees
      exact sees.front
    rcases makeDirsFrom_cases anchor name before disk with
      ⟨middle, ready, last⟩ | ⟨fault, _, -, -, -, stops⟩
    · rw [last] at h
      have further := ready.furthers tree front
      cases ready with
      | there => exact (tree.ensureDir_eq_ok plain h).2
      | made missing made =>
        rcases ih front sees_front made with rfl | free
        · exact (tree.ensureDir_eq_ok plain h).2
        · -- A step up would climb out of a directory that was missing, and `Sees` excludes that.
          have down : name ≠ up := by
            rintro rfl
            obtain ⟨location, there⟩ := tree.makeDirsFrom_present front made
            have there : middle.pathExists (spell anchor before.reverse) = true :=
              pathExists_eq_true.mpr ⟨location, _, there⟩
            have seen := sees before.reverse [] List.reverse_cons
            exact missing (further.grows.pathExists_of_lacks seen there)
          right
          rw [List.reverse_cons] at plain ⊢
          rw [here, LocalPath.absoluteNames_down tree.cwd_isProper plain down, ← here]
          refine tree.none_below ⟨name, [], rfl⟩ ?_
          rw [free]
          intro there
          exact absurd there (by simp)
      | occupied found =>
        -- A file stands where a directory was to be made, so nothing can be made in it.
        obtain ⟨location, content, there⟩ := makeDirsFrom_alreadyThere front found
        have later : middle.Grows after := by
          have grows := (further.tree.ensureDir_furthers plain).grows
          rwa [LocalPath.text, h] at grows
        obtain ⟨reached, whole⟩ := (further.tree.ensureDir_eq_ok plain h).1
        rw [LocalPath.text, List.reverse_cons] at whole
        rw [List.reverse_cons] at plain
        obtain ⟨directory, at_front⟩ := find_front plain whole
        obtain ⟨node, still, kind⟩ := later.find_present there
        rw [at_front] at still
        cases still
        exact absurd kind Bool.noConfusion
    · exact absurd (stops.symm.trans h) (by simp)

section Make

variable {disk : Disk} (tree : disk.IsTree) {path : LocalPath} (plain : path.IsPlain)
include tree plain

theorem IsTree.makeDirs_furthers : disk.Furthers (disk.makeDirs path).2 := by
  refine tree.makeDirsFrom_furthers ?_
  rwa [List.reverse_reverse]

theorem IsTree.makeDirs_sees (sees : disk.Sees path) {after : Disk}
    (h : disk.makeDirs path = (.ok (), after)) :
    after = disk ∨ disk.node? (absoluteNames disk.here path.text) = none := by
  obtain ⟨anchor, names⟩ := path
  rw [← List.reverse_reverse names] at plain sees
  have made := tree.makeDirsFrom_sees plain sees h
  rwa [List.reverse_reverse] at made

end Make

/-- Through a missing directory nothing can be seen: every path that climbs out of it leads to
nothing. -/
theorem pathExists_of_not_sees {disk : Disk} {path : LocalPath} (h : ¬ disk.Sees path)
    {more : List Text} (plain : LocalPath.IsPlain ⟨path.anchor, path.names ++ more⟩) :
    disk.pathExists (spell path.anchor (path.names ++ more)) = false := by
  refine Bool.eq_false_iff.mpr fun there => h fun front back split => ?_
  obtain ⟨location, node, found⟩ := pathExists_eq_true.mp there
  rw [split, List.append_assoc, List.cons_append] at plain found
  have full : ∀ name ∈ up :: (back ++ more), name ≠ [] := by
    intro name mem
    exact (plain name (List.mem_append_right front mem)).1
  have walked := find_text_eq_ok plain found
  have accepts : Accepts (LocalPath.text ⟨path.anchor, front⟩) :=
    (follow_eq_ok found).1.front plain
  have before := find_text plain.front accepts disk
  unfold LocalPath.text at before
  rw [lacks, before]
  -- The walk along the front must have reached something for the whole walk to end.
  cases reached : walk disk (LocalPath.start disk.cwd ⟨path.anchor, front⟩) .directory front with
  | ok place =>
    cases place with
    | present => rfl
    | vacant location slash =>
      have climbed : walk disk (LocalPath.start disk.cwd ⟨path.anchor, front⟩) .directory
          (front ++ [up]) = .error .notFound := by
        rw [walk_append disk (full up List.mem_cons_self), reached]
      have whole := walk_append_error climbed (back ++ more)
        fun name mem => full name (List.mem_cons_of_mem up mem)
      rw [List.append_assoc, List.singleton_append] at whole
      exact absurd (whole.symm.trans walked) (by simp)
  | error problem =>
    exact absurd ((walk_append_error reached _ full).symm.trans walked) (by simp)

/-- A path that leads to something climbs out of no missing directory. -/
theorem sees_of_pathExists {disk : Disk} {path : LocalPath} (plain : path.IsPlain)
    (there : disk.pathExists path.text = true) : disk.Sees path := by
  refine Classical.byContradiction fun blind => ?_
  have missing : disk.pathExists (spell path.anchor (path.names ++ [])) = false :=
    pathExists_of_not_sees blind (by rwa [List.append_nil])
  rw [List.append_nil] at missing
  exact absurd (missing.symm.trans there) (by simp)

end Disk

end WorkflowInstall

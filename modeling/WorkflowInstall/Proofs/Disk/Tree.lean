import WorkflowInstall.Proofs.Disk.Entries
import WorkflowInstall.Proofs.Path.Containment

/-!
# The file system as a tree

Every file and directory lies in a directory. In such a tree a path that can be followed leads to
the place that its names spell, and what has been found stays there while the tree grows.

## Main Definitions

* `Disk.IsTree` — every entry lies in a directory
* `Disk.IsFree` — a place where an entry can be put
* `Disk.Leads` — where one segment leads to
* `Disk.Accepts` — a path that is not refused for its spelling
* `Disk.Grows` — directories stay directories, and files stay files

## Main Statements

* `Disk.location_of_find` — a path leads to the place that its names spell
* `Disk.IsTree.holds_of_find` — what a path leads to stands there
* `Disk.Grows.find_present`, `Disk.Grows.follow_error` — what stays so
* `Disk.IsTree.walk_names` — every entry is found by its names

## Design Notes

A missing name may turn up later. All other faults stay, because files and directories do.
-/

namespace WorkflowInstall

open Path

/-- Where a place is. -/
def Place.location : Place → Location
  | .present location _ => location
  | .vacant location _ => location

/-- Whether a directory stands there. -/
def Node.isDirectory : Node → Bool
  | .directory => true
  | .file _ => false

namespace Disk

/-- Every entry has a name and lies in a directory, and the working directory is one. -/
structure IsTree (disk : Disk) : Prop where
  names : ∀ {location node}, disk.node? location = some node → ∀ name ∈ location, IsName name
  parent : ∀ {location name node}, disk.node? (location ++ [name]) = some node →
    disk.node? location = some .directory
  cwd : disk.node? disk.cwd = some .directory

/-- A place where an entry can be put: a free name in a directory. -/
def IsFree (disk : Disk) (location : Location) : Prop :=
  disk.node? location = none ∧
    ∃ parent name, location = parent ++ [name] ∧ IsName name ∧
      disk.node? parent = some .directory

/-- What a place says about the disk. -/
def Holds (disk : Disk) : Place → Prop
  | .present location node => disk.node? location = some node
  | .vacant location _ => disk.IsFree location

/-- Whatever is there stays there: directories stay directories, and files stay files. -/
structure Grows (before after : Disk) : Prop where
  cwd : after.cwd = before.cwd
  stays : ∀ {location node}, before.node? location = some node →
    ∃ node', after.node? location = some node' ∧ node'.isDirectory = node.isDirectory

/-! ## Trees -/

namespace IsTree

variable {disk : Disk} (tree : disk.IsTree)
include tree

theorem cwd_isProper : ∀ name ∈ disk.cwd, IsProper name := by
  intro name mem
  exact (tree.names tree.cwd name mem).proper

theorem isProper_of_file? {location : Location} {content : Bytes}
    (there : disk.file? location = some content) : ∀ name ∈ location, IsProper name := by
  intro name mem
  exact (tree.names (file?_eq_some.mp there) name mem).proper

theorem start_directory (path : Text) : disk.node? (start disk.cwd path) = some .directory := by
  unfold start
  split
  · exact disk.node?_nil
  · exact tree.cwd

/-- What an entry lies in is a directory, at every height. -/
theorem directory_above {location : Location} {name : Text} {rest : List Text} {node : Node}
    (h : disk.node? (location ++ name :: rest) = some node) :
    disk.node? location = some .directory := by
  -- The entry just below the last name is a directory, and so one name less is to go.
  induction rest generalizing location name with
  | nil => exact tree.parent h
  | cons next rest ih =>
    rw [List.append_cons] at h
    exact tree.parent (ih h)

theorem dropLast {location : Location} (h : disk.node? location = some .directory) :
    disk.node? location.dropLast = some .directory := by
  rcases List.eq_nil_or_concat location with rfl | ⟨parent, name, rfl⟩
  · exact h
  · rw [List.concat_eq_append] at h ⊢
    rw [List.dropLast_concat]
    exact tree.parent h

/-- Nothing lies below a place where no directory is. -/
theorem none_below {directory place : Location} (below : Below directory place)
    (h : disk.node? directory ≠ some .directory) : disk.node? place = none := by
  obtain ⟨name, rest, rfl⟩ := below
  cases there : disk.node? (directory ++ name :: rest) with
  | none => rfl
  | some node => exact absurd (tree.directory_above there) h

end IsTree

/-- A disk is a tree when each of its entries is well placed. -/
theorem isTree_of_entries {disk : Disk}
    (entries : ∀ entry ∈ disk.entries, (∀ name ∈ entry.1, IsName name) ∧
      disk.node? entry.1.dropLast = some .directory)
    (cwd : disk.node? disk.cwd = some .directory) : disk.IsTree := by
  have entry_of {location : Location} {node : Node} (there : disk.node? location = some node)
      (inside : location ≠ []) : ∃ entry ∈ disk.entries, entry.1 = location := by
    rw [node?, if_neg inside] at there
    obtain ⟨front, back, split, -⟩ := List.lookup_eq_some_iff.mp there
    exact ⟨(location, node), by rw [split]; simp, rfl⟩
  refine ⟨fun {location node} there name mem => ?_, fun {location name node} there => ?_, cwd⟩
  · obtain ⟨entry, entry_mem, rfl⟩ := entry_of there (List.ne_nil_of_mem mem)
    exact (entries entry entry_mem).1 name mem
  · obtain ⟨entry, entry_mem, same⟩ := entry_of there (List.concat_ne_nil name location)
    have above := (entries entry entry_mem).2
    rwa [same, List.dropLast_concat] at above

/-! ## Walking -/

/-- A segment that is looked up in a directory: it neither stays nor goes up. -/
structure IsLookedUp (segment : Text) : Prop where
  goes : ¬ (segment = [] ∨ segment = dot)
  down : segment ≠ up

/-- Where a segment leads to from a directory, and what stands there. -/
inductive Leads (disk : Disk) (location : Location) : Text → Location → Node → Prop
  /-- An empty segment and a dot stay. -/
  | stay {segment : Text} (h : segment = [] ∨ segment = dot) :
      Leads disk location segment location .directory
  /-- Two dots go up. -/
  | climb : Leads disk location up location.dropLast .directory
  /-- A name goes down to what stands under it. -/
  | down {segment : Text} {node : Node} (name : IsLookedUp segment)
      (fits : ¬ nameLimit < byteLength segment)
      (there : disk.node? (location ++ [segment]) = some node) :
      Leads disk location segment (location ++ [segment]) node

section Walk

variable {disk : Disk} {location next : Location} {segment : Text} {node : Node}

/-- A segment leads on, or it is a name that is too long, or it is a name that is free. -/
theorem leads_cases (disk : Disk) (location : Location) (segment : Text) :
    (∃ next node, disk.Leads location segment next node) ∨
      (IsLookedUp segment ∧ nameLimit < byteLength segment) ∨
      (IsLookedUp segment ∧ ¬ nameLimit < byteLength segment ∧
        disk.node? (location ++ [segment]) = none) := by
  by_cases stays : segment = [] ∨ segment = dot
  · exact Or.inl ⟨_, _, .stay stays⟩
  by_cases climbs : segment = up
  · subst climbs
    exact Or.inl ⟨_, _, .climb⟩
  have name : IsLookedUp segment := ⟨stays, climbs⟩
  by_cases long : nameLimit < byteLength segment
  · exact Or.inr (Or.inl ⟨name, long⟩)
  cases there : disk.node? (location ++ [segment]) with
  | none => exact Or.inr (Or.inr ⟨name, long, rfl⟩)
  | some node => exact Or.inl ⟨_, node, .down name long there⟩

theorem IsLookedUp.walk (name : IsLookedUp segment) (disk : Disk) (location : Location)
    (rest : List Text) :
    walk disk location .directory (segment :: rest) =
      if nameLimit < byteLength segment then .error .nameTooLong
      else
        match disk.node? (location ++ [segment]) with
        | some child => Disk.walk disk (location ++ [segment]) child rest
        | none =>
          if rest.all List.isEmpty then .ok (.vacant (location ++ [segment]) (!rest.isEmpty))
          else .error .notFound := by
  rw [Disk.walk]
  exact (if_neg name.goes).trans (if_neg name.down)

/-- A walk goes on from where its first segment leads to. -/
theorem Leads.walk (leads : disk.Leads location segment next node) (rest : List Text) :
    walk disk location .directory (segment :: rest) = Disk.walk disk next node rest := by
  cases leads with
  | stay stays => rw [Disk.walk, if_pos stays]
  | climb => rw [Disk.walk, if_neg (by decide), if_pos rfl]
  | down name fits there => rw [name.walk, if_neg fits, there]

theorem walk_too_long (name : IsLookedUp segment) (long : nameLimit < byteLength segment)
    (disk : Disk) (location : Location) (rest : List Text) :
    walk disk location .directory (segment :: rest) = .error .nameTooLong := by
  rw [name.walk, if_pos long]

/-- A name that is free can only be the last one. -/
theorem walk_free (name : IsLookedUp segment) (fits : ¬ nameLimit < byteLength segment)
    (free : disk.node? (location ++ [segment]) = none) (rest : List Text) :
    walk disk location .directory (segment :: rest) =
      if rest.all List.isEmpty then .ok (.vacant (location ++ [segment]) (!rest.isEmpty))
      else .error .notFound := by
  rw [name.walk, if_neg fits, free]

theorem walk_idle {idle : List Text} (h : ∀ segment ∈ idle, segment = [] ∨ segment = dot)
    (disk : Disk) (location : Location) (rest : List Text) :
    walk disk location .directory (idle ++ rest) = walk disk location .directory rest := by
  induction idle with
  | nil => rfl
  | cons segment more ih =>
    rw [List.cons_append, (Leads.stay (h segment List.mem_cons_self)).walk]
    exact ih fun other mem => h other (List.mem_cons_of_mem segment mem)

/-- Nothing can be looked up in a file. -/
theorem walk_file {content : Bytes} {rest : List Text} {place : Place}
    (h : walk disk location (.file content) (segment :: rest) = .ok place) : False := by
  simp [walk] at h

theorem Leads.advance (leads : disk.Leads location segment next node) :
    Path.advance location segment = next := by
  rw [Path.advance]
  cases leads with
  | stay stays => rw [if_pos stays]
  | climb => rw [if_neg (by decide), if_pos rfl]
  | down name => rw [if_neg name.goes, if_neg name.down]

/-- What a segment leads to in a tree stands there. -/
theorem IsTree.node?_of_leads (tree : disk.IsTree) (there : disk.node? location = some .directory)
    (leads : disk.Leads location segment next node) : disk.node? next = some node := by
  cases leads with
  | stay => exact there
  | climb => exact tree.dropLast there
  | down _ _ found => exact found

/-- A walk ends at the place that its segments lead to. -/
theorem location_of_walk {segments : List Text} {place : Place}
    (h : walk disk location node segments = .ok place) :
    place.location = segments.foldl Path.advance location := by
  induction segments generalizing location node with
  | nil => cases h; rfl
  | cons segment rest ih =>
    cases node with
    | file content => exact (walk_file h).elim
    | directory =>
      rw [List.foldl_cons]
      rcases leads_cases disk location segment with
        ⟨next, node, leads⟩ | ⟨name, long⟩ | ⟨name, fits, free⟩
      · rw [leads.advance]
        exact ih (leads.walk rest ▸ h)
      · rw [walk_too_long name long] at h
        exact absurd h (by simp)
      · rw [walk_free name fits free] at h
        split at h
        case isTrue blank =>
          cases h
          rw [Path.advance, if_neg name.goes, if_neg name.down]
          refine (foldl_advance_idle ?_ _).symm
          intro other mem
          exact Or.inl (List.isEmpty_iff.mp (List.all_eq_true.mp blank other mem))
        case isFalse => exact absurd h (by simp)

/-- A segment that can be part of a name. -/
def IsSegment (segment : Text) : Prop := '/' ∉ segment ∧ '\x00' ∉ segment ∧ Encodable segment

/-- A segment that is looked up and fits is a name. -/
theorem IsSegment.isName (piece : IsSegment segment) (name : IsLookedUp segment)
    (fits : ¬ nameLimit < byteLength segment) : IsName segment := by
  obtain ⟨slash, nul, encodable⟩ := piece
  have goes := not_or.mp name.goes
  exact ⟨⟨goes.1, goes.2, name.down, slash⟩, nul, encodable, Nat.le_of_not_lt fits⟩

/-- What a walk in a tree finds stands there. -/
theorem IsTree.holds_of_walk (tree : disk.IsTree) {segments : List Text} {place : Place}
    (there : disk.node? location = some node) (pieces : ∀ segment ∈ segments, IsSegment segment)
    (h : walk disk location node segments = .ok place) : disk.Holds place := by
  induction segments generalizing location node with
  | nil => cases h; exact there
  | cons segment rest ih =>
    have later : ∀ other ∈ rest, IsSegment other := by
      intro other mem
      exact pieces other (List.mem_cons_of_mem segment mem)
    cases node with
    | file content => exact (walk_file h).elim
    | directory =>
      rcases leads_cases disk location segment with
        ⟨next, node, leads⟩ | ⟨name, long⟩ | ⟨name, fits, free⟩
      · exact ih (tree.node?_of_leads there leads) later (leads.walk rest ▸ h)
      · rw [walk_too_long name long] at h
        exact absurd h (by simp)
      · rw [walk_free name fits free] at h
        split at h
        · cases h
          have good := (pieces segment List.mem_cons_self).isName name fits
          exact ⟨free, location, segment, rfl, good, there⟩
        · exact absurd h (by simp)

/-- Every entry of a tree is found by its names. -/
theorem IsTree.walk_names (tree : disk.IsTree) {names : List Text}
    (h : disk.node? (location ++ names) = some node) :
    ∃ first, disk.node? location = some first ∧
      walk disk location first names = .ok (.present (location ++ names) node) := by
  induction names generalizing location with
  | nil =>
    rw [List.append_nil] at h ⊢
    exact ⟨node, h, rfl⟩
  | cons name rest ih =>
    obtain ⟨proper, -, -, fits⟩ : IsName name := tree.names h name (by simp)
    refine ⟨.directory, tree.directory_above h, ?_⟩
    rw [← List.singleton_append, ← List.append_assoc] at h ⊢
    obtain ⟨child, found, walked⟩ := ih h
    have looked_up : IsLookedUp name := ⟨not_or.mpr ⟨proper.ne_nil, proper.ne_dot⟩, proper.ne_up⟩
    have leads : disk.Leads location name (location ++ [name]) child :=
      .down looked_up (Nat.not_lt.mpr fits) found
    rw [List.singleton_append, leads.walk]
    exact walked

end Walk

/-! ## Growth -/

namespace Grows

variable {before after last : Disk}

theorem refl (disk : Disk) : disk.Grows disk := ⟨rfl, fun there => ⟨_, there, rfl⟩⟩

theorem trans (first : before.Grows after) (second : after.Grows last) : before.Grows last := by
  refine ⟨second.cwd.trans first.cwd, fun there => ?_⟩
  obtain ⟨middle, found, same⟩ := first.stays there
  obtain ⟨final, found, same'⟩ := second.stays found
  exact ⟨final, found, same'.trans same⟩

/-- A segment leads to the same place as before. -/
theorem leads (grows : before.Grows after) {location next : Location} {segment : Text}
    {node : Node} (h : before.Leads location segment next node) :
    ∃ node', after.Leads location segment next node' ∧ node'.isDirectory = node.isDirectory := by
  cases h with
  | stay stays => exact ⟨.directory, .stay stays, rfl⟩
  | climb => exact ⟨.directory, .climb, rfl⟩
  | down name fits there =>
    obtain ⟨node', there', alike⟩ := grows.stays there
    exact ⟨node', .down name fits there', alike⟩

theorem walk_present (grows : before.Grows after) {segments : List Text}
    {location found : Location} {node node' found_node : Node}
    (alike : node'.isDirectory = node.isDirectory)
    (h : walk before location node segments = .ok (.present found found_node)) :
    ∃ other, walk after location node' segments = .ok (.present found other) ∧
      other.isDirectory = found_node.isDirectory := by
  -- Both walks go the same way. What they stand at is of one kind, though a file may have changed.
  induction segments generalizing location node node' with
  | nil =>
    cases h
    exact ⟨node', rfl, alike⟩
  | cons segment rest ih =>
    cases node with
    | file content => exact (walk_file h).elim
    | directory =>
      cases node' with
      | file content => exact absurd alike Bool.false_ne_true
      | directory =>
        rcases leads_cases before location segment with
          ⟨next, node, leads⟩ | ⟨name, long⟩ | ⟨name, fits, free⟩
        · obtain ⟨node', leads', alike⟩ := grows.leads leads
          rw [leads.walk] at h
          rw [leads'.walk]
          exact ih alike h
        · rw [walk_too_long name long] at h
          exact absurd h (by simp)
        · rw [walk_free name fits free] at h
          split at h <;> exact absurd h (by simp)

theorem walk_error (grows : before.Grows after) {segments : List Text} {location : Location}
    {node node' : Node} {problem : DiskProblem} (alike : node'.isDirectory = node.isDirectory)
    (h : walk before location node segments = .error problem) (other : problem ≠ .notFound) :
    walk after location node' segments = .error problem := by
  induction segments generalizing location node node' with
  | nil => exact absurd h (by simp [walk])
  | cons segment rest ih =>
    cases node with
    | file content =>
      cases node' with
      | file content' => exact h
      | directory => exact absurd alike.symm Bool.false_ne_true
    | directory =>
      cases node' with
      | file content => exact absurd alike Bool.false_ne_true
      | directory =>
        rcases leads_cases before location segment with
          ⟨next, node, leads⟩ | ⟨name, long⟩ | ⟨name, fits, free⟩
        · obtain ⟨node', leads', alike⟩ := grows.leads leads
          rw [leads.walk] at h
          rw [leads'.walk]
          exact ih alike h
        · rw [walk_too_long name long] at h ⊢
          exact h
        · -- A free name is the one thing that may change, and it is not this fault.
          rw [walk_free name fits free] at h
          split at h
          · exact absurd h (by simp)
          · cases h
            exact absurd rfl other

/-- A free place that is still free is found as before. -/
theorem walk_vacant (grows : before.Grows after) {segments : List Text}
    {location place : Location} {slash : Bool} {node node' : Node}
    (alike : node'.isDirectory = node.isDirectory) (free : after.node? place = none)
    (h : walk before location node segments = .ok (.vacant place slash)) :
    walk after location node' segments = .ok (.vacant place slash) := by
  induction segments generalizing location node node' with
  | nil => exact absurd h (by simp [walk])
  | cons segment rest ih =>
    cases node with
    | file content => exact (walk_file h).elim
    | directory =>
      cases node' with
      | file content => exact absurd alike Bool.false_ne_true
      | directory =>
        rcases leads_cases before location segment with
          ⟨next, node, leads⟩ | ⟨name, long⟩ | ⟨name, fits, absent⟩
        · obtain ⟨node', leads', alike⟩ := grows.leads leads
          rw [leads.walk] at h
          rw [leads'.walk]
          exact ih alike h
        · rw [walk_too_long name long] at h
          exact absurd h (by simp)
        · rw [walk_free name fits absent] at h
          split at h
          case isFalse => exact absurd h (by simp)
          case isTrue blank =>
            cases h
            rw [walk_free name fits free, if_pos blank]

end Grows

/-! ## Following a path -/

/-- A path that is not refused for its spelling. -/
structure Accepts (path : Text) : Prop where
  encodable : Encodable path
  no_nul : '\x00' ∉ path
  some : path ≠ []
  fits : byteLength path ≤ pathLimit

theorem follow_of_accepts {path : Text} (h : Accepts path) (disk : Disk) (segments : List Text) :
    disk.follow path segments =
      (walk disk (start disk.cwd path) .directory segments).mapError
        fun problem => .refused problem path := by
  have nul : ¬ path.contains '\x00' = true := by simpa using h.no_nul
  have some : ¬ path.isEmpty = true := by simpa using h.some
  simp only [follow, (unencodableBut?_eq_none path).mpr h.encodable, if_neg nul, if_neg some,
    if_neg (Nat.not_lt.mpr h.fits)]
  rfl

/-- A path that is refused for its spelling is refused on every disk. -/
theorem follow_of_not_accepts {path : Text} (h : ¬ Accepts path) :
    ∃ fault, ∀ (disk : Disk) (segments : List Text), disk.follow path segments = .error fault := by
  cases coded : Utf8.unencodableBut? Surrogate.isByteHalf path with
  | some part => exact ⟨.unencodable part, fun disk segments => by rw [follow, coded]⟩
  | none =>
    by_cases nul : path.contains '\x00' = true
    · exact ⟨.nulInPath, fun disk segments => by simp only [follow, coded, if_pos nul]⟩
    by_cases none : path.isEmpty = true
    · refine ⟨.refused .notFound path, fun disk segments => ?_⟩
      simp only [follow, coded, if_neg nul, if_pos none]
    by_cases long : pathLimit < byteLength path
    · refine ⟨.refused .nameTooLong path, fun disk segments => ?_⟩
      simp only [follow, coded, if_neg nul, if_neg none, if_pos long]
    · refine absurd ⟨(unencodableBut?_eq_none path).mp coded, ?_, ?_, Nat.le_of_not_lt long⟩ h
      · simpa using nul
      · simpa using none

theorem follow_eq_ok {disk : Disk} {path : Text} {segments : List Text} {place : Place}
    (h : disk.follow path segments = .ok place) :
    Accepts path ∧ walk disk (start disk.cwd path) .directory segments = .ok place := by
  by_cases accepts : Accepts path
  · refine ⟨accepts, ?_⟩
    rw [follow_of_accepts accepts] at h
    cases result : walk disk (start disk.cwd path) .directory segments with
    | error problem =>
      rw [result] at h
      injection h
    | ok other =>
      rw [result] at h
      exact congrArg Except.ok (Except.ok.inj h)
  · obtain ⟨fault, refused⟩ := follow_of_not_accepts accepts
    rw [refused] at h
    exact absurd h (by simp)

theorem Accepts.isSegment {path segment : Text} (h : Accepts path)
    (mem : segment ∈ Text.splitOn '/' path) : IsSegment segment := by
  refine ⟨slash_notMem_splitOn path segment mem, ?_, encodable_of_mem_splitOn h.encodable mem⟩
  intro inside
  apply h.no_nul
  rw [← Text.joinWith_splitOn '/' path]
  exact Text.mem_joinWith mem inside

/-- A path that can be followed leads to the place that its names spell. -/
theorem location_of_find {disk : Disk} (proper : ∀ name ∈ disk.cwd, IsProper name) {path : Text}
    {place : Place} (h : disk.find path = .ok place) :
    place.location = absoluteNames disk.here path := by
  rw [here, absoluteNames_eq proper]
  exact location_of_walk (follow_eq_ok h).2

namespace IsTree

variable {disk : Disk} (tree : disk.IsTree)
include tree

/-- What a path leads to stands there. -/
theorem holds_of_find {path : Text} {place : Place} (h : disk.find path = .ok place) :
    disk.Holds place := by
  obtain ⟨accepts, walked⟩ := follow_eq_ok h
  exact tree.holds_of_walk (tree.start_directory path)
    (fun segment mem => accepts.isSegment mem) walked

end IsTree

namespace Grows

variable {before after : Disk} (grows : before.Grows after)
include grows

theorem follow_present {path : Text} {segments : List Text} {location : Location} {node : Node}
    (h : before.follow path segments = .ok (.present location node)) :
    ∃ other, after.follow path segments = .ok (.present location other) ∧
      other.isDirectory = node.isDirectory := by
  obtain ⟨accepts, walked⟩ := follow_eq_ok h
  obtain ⟨other, found, same⟩ := grows.walk_present rfl walked
  refine ⟨other, ?_, same⟩
  rw [follow_of_accepts accepts, grows.cwd, found]
  rfl

/-- What a path leads to is still there, and of its kind. -/
theorem find_present {path : Text} {location : Location} {node : Node}
    (h : before.find path = .ok (.present location node)) :
    ∃ other, after.find path = .ok (.present location other) ∧
      other.isDirectory = node.isDirectory :=
  grows.follow_present h

/-- A path that leads to a free place leads there as long as it is free. -/
theorem find_vacant {path : Text} {place : Location} {slash : Bool}
    (h : before.find path = .ok (.vacant place slash)) (free : after.node? place = none) :
    after.find path = .ok (.vacant place slash) := by
  obtain ⟨accepts, walked⟩ := follow_eq_ok h
  rw [find, follow_of_accepts accepts, grows.cwd, grows.walk_vacant rfl free walked]
  rfl

/-- A path that cannot be followed for another reason than a missing name never can. -/
theorem follow_error {path : Text} {segments : List Text} {fault : DiskFault}
    (h : before.follow path segments = .error fault)
    (other : ∀ path, fault ≠ .refused .notFound path) :
    after.follow path segments = .error fault := by
  by_cases accepts : Accepts path
  · rw [follow_of_accepts accepts] at h ⊢
    cases result : walk before (start before.cwd path) .directory segments with
    | ok place =>
      rw [result] at h
      injection h
    | error problem =>
      rw [result] at h
      cases h
      have stays := grows.walk_error rfl result fun equal => other path (by rw [equal])
      rw [grows.cwd, stays]
      rfl
  · obtain ⟨fault', refused⟩ := follow_of_not_accepts accepts
    rw [refused] at h ⊢
    exact h

theorem pathExists {path : Text} (h : before.pathExists path = true) :
    after.pathExists path = true := by
  rw [Disk.pathExists] at h
  split at h
  case h_1 location node found =>
    obtain ⟨other, there, -⟩ := grows.find_present found
    rw [Disk.pathExists, there]
  case h_2 => exact absurd h Bool.false_ne_true

end Grows

end Disk

end WorkflowInstall

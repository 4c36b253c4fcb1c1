import WorkflowInstall.Proofs.Disk.Making
import WorkflowInstall.Proofs.Disk.Spelling
import WorkflowInstall.Proofs.Path.Absolute
import WorkflowInstall.Proofs.Run.Relating

/-!
# Two spellings of one directory

Paths that begin with two spellings of one directory and go on with the same names lead to the same
place. What is done there ends in the same way, but that a fault tells the path as it is spelled.

## Main Definitions

* `LocalPath.down` — a path below another one, by its names
* `Disk.Respelled` — two spellings of a directory that is there
* `DiskFault.Alike` — faults that differ in the spelling that they tell

## Main Statements

* `Disk.find_respelled` — two spellings lead to the same place
* `Disk.makeDirs_respelled` — the same directories are made

## Design Notes

A path must not be too long, and one of its spellings may be too long while another one is not, so
all of this is said of spellings that are short enough.
-/

namespace WorkflowInstall

open Path Run

/-- The path that goes on with some names. -/
def LocalPath.down (base : LocalPath) (names : List Text) : LocalPath :=
  { base with names := base.names ++ names }

/-- Two faults are the same, but for the spelling of the path that they tell. -/
inductive DiskFault.Alike : DiskFault → DiskFault → Prop
  | refused (problem : DiskProblem) (path path' : Text) :
    Alike (.refused problem path) (.refused problem path')
  | nulInPath : Alike .nulInPath .nulInPath
  | unencodable (part part' : Utf8.Unencodable) : Alike (.unencodable part) (.unencodable part')

namespace Disk

/-- Two spellings of a directory that is there. -/
structure Respelled (disk : Disk) (base base' : LocalPath) : Prop where
  plain : base.IsPlain
  plain' : base'.IsPlain
  there : disk.isDirectory base.text = true
  there' : disk.isDirectory base'.text = true
  same : absolute disk.here base'.text = absolute disk.here base.text

/-- A walk goes on from the directory that it has reached. -/
theorem walk_append_present {disk : Disk} {location reached : Location} {node : Node}
    {segments : List Text}
    (h : walk disk location node segments = .ok (.present reached .directory))
    (more : List Text) :
    walk disk location node (segments ++ more) = walk disk reached .directory more := by
  induction segments generalizing location node with
  | nil =>
    cases h
    rfl
  | cons segment rest ih =>
    cases node with
    | file content => exact (walk_file h).elim
    | directory =>
      rcases leads_cases disk location segment with
        ⟨next, node, leads⟩ | ⟨looked_up, long⟩ | ⟨looked_up, fits, free⟩
      · rw [List.cons_append, leads.walk]
        exact ih (leads.walk rest ▸ h)
      · exact nomatch (walk_too_long looked_up long disk location rest).symm.trans h
      · rw [walk_free looked_up fits free] at h
        split at h <;> exact nomatch h

namespace Respelled

variable {disk later : Disk} {base base' : LocalPath} (respelled : disk.Respelled base base')
include respelled

/-- Both spellings lead to one location. -/
theorem location (tree : disk.IsTree) : ∃ location,
    disk.find base.text = .ok (.present location .directory) ∧
      disk.find base'.text = .ok (.present location .directory) := by
  obtain ⟨location, found⟩ := isDirectory_eq_true.mp respelled.there
  obtain ⟨location', found'⟩ := isDirectory_eq_true.mp respelled.there'
  have at_base : location = absoluteNames disk.here base.text :=
    location_of_find tree.cwd_isProper found
  have at_base' : location' = absoluteNames disk.here base'.text :=
    location_of_find tree.cwd_isProper found'
  have same : location' = location := by
    rw [at_base, at_base', absoluteNames, respelled.same]
    rfl
  exact ⟨location, found, same ▸ found'⟩

theorem grows (grows : disk.Grows later) : later.Respelled base base' := by
  have stays {path : Text} (there : disk.isDirectory path = true) :
      later.isDirectory path = true := by
    obtain ⟨location, found⟩ := isDirectory_eq_true.mp there
    obtain ⟨node, still, kind⟩ := grows.find_present found
    cases node with
    | directory => exact isDirectory_eq_true.mpr ⟨location, still⟩
    | file content => exact absurd kind Bool.noConfusion
  refine ⟨respelled.plain, respelled.plain', stays respelled.there, stays respelled.there', ?_⟩
  rw [grows.here]
  exact respelled.same

end Respelled

/-! ## Paths that can be spelled -/

theorem encodable_spell {anchor : Anchor} {names : List Text} :
    Encodable (spell anchor names) ↔ ∀ name ∈ names, Encodable name := by
  have slash (text : Text) : Encodable ('/' :: text) ↔ Encodable text :=
    (encodable_append_slash [] text).trans (and_iff_right encodable_nil)
  rw [← encodable_joinWith]
  cases anchor with
  | here =>
    rw [spell, show Anchor.here.mark ++ Text.joinWith "/" names = Text.joinWith "/" names from rfl]
    split
    case h_1 empty =>
      rw [empty]
      exact iff_of_true (by decide) (by decide)
    case h_2 => exact .rfl
  | root => exact slash _
  | doubleRoot => exact (slash _).trans (slash _)

/-- The front of a path is not longer than the path. -/
theorem byteLength_spell_front {anchor : Anchor} {front rest : List Text}
    (plain : LocalPath.IsPlain ⟨anchor, front ++ rest⟩) :
    byteLength (spell anchor front) ≤ byteLength (spell anchor (front ++ rest)) := by
  have full : ∀ name ∈ front ++ rest, name ≠ [] := fun name mem => (plain name mem).1
  rcases Decidable.em (rest = []) with rfl | more
  · exact Nat.le_of_eq (by rw [List.append_nil])
  have some_more : Text.joinWith "/" rest ≠ [] := fun none => more
    (Text.joinWith_eq_nil (fun name mem => full name (List.mem_append_right front mem)) none)
  rcases Decidable.em (front = []) with rfl | some
  · have slash (text : Text) : byteLength ('/' :: text) =
        codeLength (Surrogate.codeOf '/') + byteLength text := byteLength_cons (by decide) text
    rw [List.nil_append]
    cases anchor with
    | here =>
      rw [spell_here more full]
      exact byteLength_pos some_more
    | root =>
      show byteLength ('/' :: []) ≤ byteLength ('/' :: _)
      rw [slash, slash]
      exact Nat.add_le_add_left (Nat.zero_le _) _
    | doubleRoot =>
      show byteLength ('/' :: '/' :: []) ≤ byteLength ('/' :: '/' :: _)
      rw [slash, slash, slash, slash]
      exact Nat.add_le_add_left (Nat.add_le_add_left (Nat.zero_le _) _) _
  · rw [spell_append some (fun name mem => full name (List.mem_append_left rest mem)) more]
    exact byteLength_front (spell anchor front) some_more

/-- A path that cannot be spelled in bytes leads to nothing. -/
theorem find_of_not_encodable {path : Text} (h : ¬ Encodable path) (disk : Disk) :
    ∃ part, disk.find path = .error (.unencodable part) := by
  rw [find, follow]
  cases found : Utf8.unencodableBut? Surrogate.isByteHalf path with
  | none => exact absurd ((unencodableBut?_eq_none path).mp found) h
  | some part => exact ⟨part, rfl⟩

/-- A path with a NUL character leads to nothing. -/
theorem find_of_nul {path : Text} (encodable : Encodable path) (nul : '\x00' ∈ path) (disk : Disk) :
    disk.find path = .error .nulInPath := by
  rw [find, follow, (unencodableBut?_eq_none path).mpr encodable]
  exact if_pos (List.contains_iff_mem.mpr nul)

section Down

variable {disk : Disk} (tree : disk.IsTree) {base base' : LocalPath}
  (respelled : disk.Respelled base base') {names : List Text}

/-- Names can follow either spelling, and neither path is too long. -/
structure Follow (base base' : LocalPath) (names : List Text) : Prop where
  plain : LocalPath.IsPlain (base.down names)
  plain' : LocalPath.IsPlain (base'.down names)
  fits : byteLength (base.down names).text ≤ pathLimit
  fits' : byteLength (base'.down names).text ≤ pathLimit

theorem Follow.front {front rest : List Text} (h : Follow base base' (front ++ rest)) :
    Follow base base' front := by
  have plain : LocalPath.IsPlain ⟨base.anchor, (base.names ++ front) ++ rest⟩ := by
    rw [List.append_assoc]
    exact h.plain
  have plain' : LocalPath.IsPlain ⟨base'.anchor, (base'.names ++ front) ++ rest⟩ := by
    rw [List.append_assoc]
    exact h.plain'
  have shorter := byteLength_spell_front plain
  have shorter' := byteLength_spell_front plain'
  rw [List.append_assoc] at shorter shorter'
  exact ⟨plain.front, plain'.front, Nat.le_trans shorter h.fits, Nat.le_trans shorter' h.fits'⟩

/-- Where names lead to that follow a directory that was found. -/
theorem find_down {location : Location} (plain : LocalPath.IsPlain (base.down names))
    (fits : byteLength (base.down names).text ≤ pathLimit)
    (found : disk.find base.text = .ok (.present location .directory)) :
    ((∃ name ∈ names, ¬ Encodable name) →
      ∃ part, disk.find (base.down names).text = .error (.unencodable part)) ∧
    ((∀ name ∈ names, Encodable name) → (∃ name ∈ names, '\x00' ∈ name) →
      disk.find (base.down names).text = .error .nulInPath) ∧
    ((∀ name ∈ names, Nameable name) →
      disk.find (base.down names).text = (walk disk location .directory names).mapError
        fun problem => .refused problem (base.down names).text) := by
  have accepts := (follow_eq_ok found).1
  have named : ∀ name ∈ base.names, Nameable name :=
    nameable_spell.mp ⟨accepts.encodable, accepts.no_nul⟩
  have encodable : Encodable (base.down names).text ↔ ∀ name ∈ names, Encodable name := by
    rw [LocalPath.text, encodable_spell, LocalPath.down, List.forall_mem_append]
    exact and_iff_right fun name mem => (named name mem).encodable
  have nameable : Nameable (base.down names).text ↔ ∀ name ∈ names, Nameable name := by
    rw [LocalPath.text, nameable_spell, LocalPath.down, List.forall_mem_append]
    exact and_iff_right named
  refine ⟨fun lost => ?_, fun spelled marked => ?_, fun good => ?_⟩
  · refine find_of_not_encodable (fun spelled => ?_) disk
    obtain ⟨name, mem, unspelled⟩ := lost
    exact unspelled (encodable.mp spelled name mem)
  · have spelled := encodable.mpr spelled
    refine find_of_nul spelled (Decidable.byContradiction fun clear => ?_) disk
    obtain ⟨name, mem, nul⟩ := marked
    exact (nameable.mp ⟨spelled, clear⟩ name mem).no_nul nul
  · have good := nameable.mpr good
    rw [find_text plain ⟨good.encodable, good.no_nul, spell_ne_nil _ _, fits⟩]
    have walked := walk_append_present (find_text_eq_ok plain.front found) names
    exact congrArg (Except.mapError _) walked

include tree respelled

/-- Two spellings lead to the same place. -/
theorem find_respelled (follow : Follow base base' names) :
    EndsAlike DiskFault.Alike (disk.find (base.down names).text)
      (disk.find (base'.down names).text) := by
  obtain ⟨location, found, found'⟩ := respelled.location tree
  obtain ⟨unspelled, nul, walks⟩ := find_down follow.plain follow.fits found
  obtain ⟨unspelled', nul', walks'⟩ := find_down follow.plain' follow.fits' found'
  by_cases spelled : ∀ name ∈ names, Encodable name
  case neg =>
    have lost : ∃ name ∈ names, ¬ Encodable name := by
      simpa using spelled
    obtain ⟨part, fails⟩ := unspelled lost
    obtain ⟨part', fails'⟩ := unspelled' lost
    rw [fails, fails']
    exact .error (.unencodable part part')
  by_cases marked : ∃ name ∈ names, '\x00' ∈ name
  case pos =>
    rw [nul spelled marked, nul' spelled marked]
    exact .error .nulInPath
  case neg =>
    have named : ∀ name ∈ names, Nameable name := fun name mem =>
      ⟨spelled name mem, fun nul => marked ⟨name, mem, nul⟩⟩
    rw [walks named, walks' named]
    cases walk disk location .directory names with
    | ok place => exact .ok place
    | error problem => exact .error (.refused problem _ _)

end Down

/-! ## What is done at a path -/

section Operations

variable {disk : Disk} {path path' : Text}
  (finds : EndsAlike DiskFault.Alike (disk.find path) (disk.find path'))
include finds

theorem pathExists_respelled : disk.pathExists path' = disk.pathExists path := by
  unfold pathExists
  rcases finds.split with ⟨place, found, found'⟩ | ⟨fault, fault', found, found', -⟩
  · rw [found, found']
  · rw [found, found']

theorem probe_respelled : EndsAlike DiskFault.Alike (disk.probe path) (disk.probe path') := by
  unfold probe
  rcases finds.split with ⟨place, found, found'⟩ | ⟨fault, fault', found, found', alike⟩
  · rw [found, found']
    cases place <;> exact .ok _
  · rw [found, found']
    cases alike with
    | refused problem =>
      cases problem with
      | nameTooLong => exact .error (.refused _ _ _)
      | _ => exact .ok false
    | nulInPath | unencodable => exact .ok false

theorem read_respelled : EndsAlike DiskFault.Alike (disk.read path) (disk.read path') := by
  unfold read
  rcases finds.split with ⟨place, found, found'⟩ | ⟨fault, fault', found, found', alike⟩
  · rw [found, found']
    cases place with
    | vacant location slash => exact .error (.refused _ _ _)
    | present location node =>
      cases node with
      | directory => exact .error (.refused _ _ _)
      | file content => exact .ok content
  · rw [found, found']
    exact .error alike

theorem writable_respelled :
    EndsAlike DiskFault.Alike (disk.writable path) (disk.writable path') := by
  unfold writable
  rcases finds.split with ⟨place, found, found'⟩ | ⟨fault, fault', found, found', alike⟩
  · rw [found, found']
    cases place with
    | vacant location slash =>
      cases slash with
      | false => exact .ok location
      | true => exact .error (.refused _ _ _)
    | present location node =>
      cases node with
      | directory => exact .error (.refused _ _ _)
      | file content => exact .ok location
  · rw [found, found']
    exact .error alike

end Operations

/-- Two attempts to make directories end in the same way and leave the same file system. -/
structure MakesAlike (made made' : Except DiskFault Unit × Disk) : Prop where
  ends : EndsAlike DiskFault.Alike made.1 made'.1
  disk : made'.2 = made.2

theorem ensureDir_respelled {disk : Disk} {path path' : LocalPath} (plain : path.IsPlain)
    (plain' : path'.IsPlain)
    (finds : EndsAlike DiskFault.Alike (disk.find path.text) (disk.find path'.text)) :
    MakesAlike (disk.ensureDir path.text) (disk.ensureDir path'.text) := by
  rw [ensureDir_text plain, ensureDir_text plain']
  rcases finds.split with ⟨place, found, found'⟩ | ⟨fault, fault', found, found', alike⟩
  · rw [found, found']
    cases place with
    | vacant location slash => exact ⟨.ok (), rfl⟩
    | present location node =>
      cases node with
      | directory => exact ⟨.ok (), rfl⟩
      | file content => exact ⟨.error (.refused _ _ _), rfl⟩
  · rw [found, found']
    exact ⟨.error alike, rfl⟩

/-- How the directory is made that the last of some names leads to, below one that is there. -/
theorem makeDirsFrom_down {disk : Disk} {base : LocalPath}
    (there : disk.pathExists base.text = true) (name : Text) (before : List Text) :
    makeDirsFrom base.anchor (name :: before ++ base.names.reverse) disk =
      if disk.pathExists (base.down before.reverse).text then
        disk.ensureDir (base.down (name :: before).reverse).text
      else
        match makeDirsFrom base.anchor (before ++ base.names.reverse) disk with
        | (.ok (), made) => made.ensureDir (base.down (name :: before).reverse).text
        | (.error (.refused .alreadyThere _), made) =>
          made.ensureDir (base.down (name :: before).reverse).text
        | failed => failed := by
  have spelled (names : List Text) : spell base.anchor (names ++ base.names.reverse).reverse =
      (base.down names.reverse).text := by
    rw [List.reverse_append, List.reverse_reverse]
    rfl
  have ready : before ++ base.names.reverse = [] ∨
        disk.pathExists (base.down before.reverse).text = true ↔
      disk.pathExists (base.down before.reverse).text = true := by
    refine or_iff_right_of_imp fun nothing => ?_
    obtain ⟨rfl, -⟩ := List.append_eq_nil_iff.mp nothing
    rw [List.reverse_nil, LocalPath.down, List.append_nil]
    exact there
  rw [List.cons_append, makeDirsFrom, ← List.cons_append, spelled before, spelled (name :: before)]
  exact if_congr ready rfl rfl

section Make

variable {disk : Disk} (tree : disk.IsTree) {base base' : LocalPath}
  (respelled : disk.Respelled base base')
include tree respelled

/-- The same directories are made under both spellings. -/
theorem makeDirsFrom_respelled {names : List Text} (follow : Follow base base' names.reverse) :
    MakesAlike (makeDirsFrom base.anchor (names ++ base.names.reverse) disk)
      (makeDirsFrom base'.anchor (names ++ base'.names.reverse) disk) := by
  obtain ⟨location, found, found'⟩ := respelled.location tree
  -- By induction on the names that follow the directory, from the last one.
  induction names with
  | nil =>
    have kept {base : LocalPath} (plain : base.IsPlain)
        (found : disk.find base.text = .ok (.present location .directory)) :
        makeDirsFrom base.anchor ([] ++ base.names.reverse) disk = (.ok (), disk) := by
      have names : ([] ++ base.names.reverse).reverse = base.names := List.reverse_reverse _
      have at_base : disk.find (spell base.anchor ([] ++ base.names.reverse).reverse) =
          .ok (.present location .directory) := by
        rw [names]
        exact found
      exact makeDirsFrom_of_present (by rwa [names]) at_base
    rw [kept respelled.plain found, kept respelled.plain' found']
    exact ⟨.ok (), rfl⟩
  | cons name before ih =>
    have front : Follow base base' before.reverse := by
      rw [List.reverse_cons] at follow
      exact follow.front
    have first := ih front
    rw [makeDirsFrom_down (pathExists_eq_true.mpr ⟨location, _, found⟩),
      makeDirsFrom_down (pathExists_eq_true.mpr ⟨location, _, found'⟩),
      pathExists_respelled (find_respelled tree respelled front)]
    split
    case isTrue =>
      exact ensureDir_respelled follow.plain follow.plain' (find_respelled tree respelled follow)
    case isFalse =>
      have whole : LocalPath.IsPlain ⟨base.anchor, (before ++ base.names.reverse).reverse⟩ := by
        rw [List.reverse_append, List.reverse_reverse]
        exact front.plain
      have furthers := tree.makeDirsFrom_furthers whole
      have last := ensureDir_respelled follow.plain follow.plain'
        (find_respelled furthers.tree (respelled.grows furthers.grows) follow)
      obtain ⟨ends, same⟩ := first
      generalize makeDirsFrom base.anchor (before ++ base.names.reverse) disk = made at *
      generalize makeDirsFrom base'.anchor (before ++ base'.names.reverse) disk = made' at *
      obtain ⟨outcome, middle⟩ := made
      obtain ⟨outcome', middle'⟩ := made'
      obtain rfl : middle' = middle := same
      rcases ends.split with ⟨_, rfl, rfl⟩ | ⟨fault, fault', rfl, rfl, alike⟩
      · exact last
      · cases alike with
        | refused problem =>
          cases problem with
          | alreadyThere => exact last
          | _ => exact ⟨.error (.refused _ _ _), rfl⟩
        | nulInPath => exact ⟨.error .nulInPath, rfl⟩
        | unencodable => exact ⟨.error (.unencodable _ _), rfl⟩

theorem makeDirs_respelled {names : List Text} (follow : Follow base base' names) :
    MakesAlike (disk.makeDirs (base.down names)) (disk.makeDirs (base'.down names)) := by
  have named (base : LocalPath) : disk.makeDirs (base.down names) =
      makeDirsFrom base.anchor (names.reverse ++ base.names.reverse) disk := by
    rw [makeDirs, LocalPath.down, List.reverse_append]
  rw [named, named]
  refine makeDirsFrom_respelled tree respelled ?_
  rwa [List.reverse_reverse]

end Make

/-- The names of a place and its spelling tell from which root it is spelled. -/
theorem rooted_eq_of_spell {anchor anchor' : Anchor} {names : List Text}
    (h : spell anchor.rooted names = spell anchor'.rooted names) :
    anchor.rooted = anchor'.rooted := by
  rw [spell_rooted anchor.isRooted_rooted, spell_rooted anchor'.isRooted_rooted,
    List.append_cancel_right_eq] at h
  cases anchor <;> cases anchor' <;> first | rfl | exact absurd h (by decide)

/-- Both spellings have the same absolute one. -/
theorem Respelled.absolute_down {disk : Disk} (tree : disk.IsTree) {base base' : LocalPath}
    (respelled : disk.Respelled base base') {names : List Text}
    (plain : LocalPath.IsPlain (base.down names)) (plain' : LocalPath.IsPlain (base'.down names)) :
    absolute disk.here (base'.down names).text = absolute disk.here (base.down names).text := by
  have proper := tree.cwd_isProper
  have same := respelled.same
  have places : absoluteNames disk.here base'.text = absoluteNames disk.here base.text := by
    rw [absoluteNames, same]
    rfl
  have further {base : LocalPath} (plain : base.IsPlain) (down : (base.down names).IsPlain) :
      absoluteNames disk.here (base.down names).text =
        names.foldl advance (absoluteNames disk.here base.text) := by
    rw [here, LocalPath.absoluteNames_text proper plain, LocalPath.absoluteNames_text proper down,
      LocalPath.down, List.foldl_append]
    rfl
  rw [here, LocalPath.absolute_text proper respelled.plain,
    LocalPath.absolute_text proper respelled.plain', ← here, places] at same
  rw [here, LocalPath.absolute_text proper plain, LocalPath.absolute_text proper plain', ← here,
    further respelled.plain plain, further respelled.plain' plain', places]
  exact congrArg (spell · _) (rooted_eq_of_spell same)

end Disk

end WorkflowInstall

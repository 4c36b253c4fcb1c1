import WorkflowInstall.Disk
import WorkflowInstall.Proofs.Path.Segments

/-!
# Names and entries

The names that an entry of the file system can have, and what stands where after an entry was put
or taken away.

## Main Definitions

* `Disk.Encodable` — a text that has bytes
* `Disk.IsName` — a name that an entry can have

## Main Statements

* `Disk.encodable_joinWith` — a row of segments has bytes when each of them has
* `Disk.byteLength_front` — a path is not shorter than the path of a directory in it
* `Disk.node?_put`, `Disk.node?_erase` — the entries after a change
-/

namespace WorkflowInstall

open Path

/-! ## Names that have bytes -/

namespace Disk

/-- Every half of a surrogate pair in a text stands for a byte. -/
def Encodable (text : Text) : Prop :=
  ∀ code ∈ Surrogate.codes text, Surrogate.isHalf code = true → Surrogate.isByteHalf code = true

theorem unencodableFrom?_eq_none (passes : Nat → Bool) (offset : Nat) (codes : List Nat) :
    Utf8.unencodableFrom? passes offset codes = none ↔
      ∀ code ∈ codes, Surrogate.isHalf code = true → passes code = true := by
  induction codes generalizing offset with
  | nil => simp [Utf8.unencodableFrom?]
  | cons code rest ih =>
    unfold Utf8.unencodableFrom?
    by_cases bad : (Surrogate.isHalf code && !passes code) = true
    · rw [if_pos bad]
      rw [Bool.and_eq_true, Bool.not_eq_true'] at bad
      refine ⟨fun h => absurd h (by simp), fun h => ?_⟩
      have good := h code List.mem_cons_self bad.1
      rw [bad.2] at good
      exact absurd good Bool.false_ne_true
    · rw [if_neg bad, ih, List.forall_mem_cons]
      refine ⟨fun h => ⟨fun half => ?_, h⟩, fun h => h.2⟩
      cases passed : passes code with
      | true => rfl
      | false => exact absurd (by rw [half, passed]; rfl) bad

theorem unencodableBut?_eq_none (text : Text) :
    Utf8.unencodableBut? Surrogate.isByteHalf text = none ↔ Encodable text :=
  unencodableFrom?_eq_none Surrogate.isByteHalf 0 (Surrogate.codes text)

instance (text : Text) : Decidable (Encodable text) :=
  decidable_of_iff _ (unencodableBut?_eq_none text)

/-- A slash between two texts changes no half of a surrogate pair. -/
theorem half_mem_codes_slash (before after : Text) {code : Nat}
    (half : Surrogate.isHalf code = true) :
    code ∈ Surrogate.codes (before ++ '/' :: after) ↔
      code ∈ Surrogate.codes before ∨ code ∈ Surrogate.codes after := by
  have slash : code ≠ Surrogate.codeOf '/' := by rintro rfl; exact absurd half (by decide)
  have pair : code ≠ ('/' : Char).toNat + Surrogate.shift := by
    rintro rfl; exact absurd half (by decide)
  have mark : code ≠ Surrogate.codeOf Surrogate.mark := by
    rintro rfl; exact absurd half (by decide)
  have plain : ('/' : Char) ≠ Surrogate.mark := by decide
  -- A mark at the end takes the slash with it, and neither of the two codes is a half.
  induction before using Surrogate.codes.induct with
  | case1 =>
    rw [List.nil_append, Surrogate.codes_cons plain, List.mem_cons]
    simp [slash, Surrogate.codes]
  | case2 c =>
    rw [List.singleton_append]
    by_cases marked : c = Surrogate.mark
    · rw [marked, Surrogate.codes_mark, List.mem_cons, Surrogate.codes, List.mem_singleton,
        or_iff_right pair, or_iff_right mark]
    · rw [Surrogate.codes_cons marked, Surrogate.codes_cons plain, Surrogate.codes]
      simp [slash]
  | case3 d rest ih =>
    rw [List.cons_append, List.cons_append, Surrogate.codes_mark, Surrogate.codes_mark,
      List.mem_cons, List.mem_cons, or_assoc]
    exact or_congr_right ih
  | case4 c d rest marked ih =>
    rw [List.cons_append, Surrogate.codes_cons marked, Surrogate.codes_cons marked, List.mem_cons,
      List.mem_cons, or_assoc]
    exact or_congr_right ih

theorem encodable_append_slash (before after : Text) :
    Encodable (before ++ '/' :: after) ↔ Encodable before ∧ Encodable after := by
  constructor
  · intro h
    have inside {code : Nat} (half : Surrogate.isHalf code = true) :=
      half_mem_codes_slash before after half
    exact ⟨fun code mem half => h code ((inside half).mpr (.inl mem)) half,
      fun code mem half => h code ((inside half).mpr (.inr mem)) half⟩
  · rintro ⟨left, right⟩ code mem half
    rcases (half_mem_codes_slash before after half).mp mem with mem | mem
    · exact left code mem half
    · exact right code mem half

theorem encodable_nil : Encodable [] := fun _ mem => absurd mem List.not_mem_nil

/-- A row of segments can be encoded when each of them can. -/
theorem encodable_joinWith {pieces : List Text} :
    Encodable (Text.joinWith "/" pieces) ↔ ∀ piece ∈ pieces, Encodable piece := by
  induction pieces with
  | nil => exact ⟨fun _ _ mem => absurd mem List.not_mem_nil, fun _ => encodable_nil⟩
  | cons piece rest ih =>
    cases rest with
    | nil => simp [Text.joinWith]
    | cons next more =>
      rw [Text.joinWith, show ("/" : Text) ++ Text.joinWith "/" (next :: more) =
        '/' :: Text.joinWith "/" (next :: more) from rfl, encodable_append_slash, ih]
      exact List.forall_mem_cons.symm

/-- The segments of a path can be encoded when the path can. -/
theorem encodable_of_mem_splitOn {path segment : Text} (h : Encodable path)
    (mem : segment ∈ Text.splitOn '/' path) : Encodable segment := by
  rw [← Text.joinWith_splitOn '/' path] at h
  exact encodable_joinWith.mp h segment mem

/-! ## The lengths of names -/

/-- The number of bytes of a code in a name. -/
def codeLength (code : Nat) : Nat :=
  (if Surrogate.isHalf code then 1 else 0) + (Utf8.encodeCode code).length

theorem codeLength_pos (code : Nat) : 0 < codeLength code := by
  unfold codeLength
  cases half : Surrogate.isHalf code with
  | true => exact Nat.lt_of_lt_of_le Nat.zero_lt_one (Nat.le_add_right 1 _)
  | false =>
    have bytes : (Utf8.encodeCode code).length = (Char.ofNat code).utf8Size := by
      rw [Utf8.encodeCode, half]
      exact String.length_utf8EncodeChar (Char.ofNat code)
    rw [bytes]
    exact Nat.lt_of_lt_of_le (Char.utf8Size_pos _) (Nat.le_add_left _ _)

/-- The number of bytes of a row of codes. -/
def codesLength : List Nat → Nat
  | [] => 0
  | code :: rest => codeLength code + codesLength rest

/-- The length of a name is that of its codes. -/
theorem byteLength_eq (name : Text) : byteLength name = codesLength (Surrogate.codes name) := by
  rw [byteLength, Utf8.encode]
  generalize Surrogate.codes name = codes
  induction codes with
  | nil => rfl
  | cons code rest ih =>
    rw [List.countP_cons, List.flatMap_cons, List.length_append, codesLength, ← ih, codeLength]
    omega

theorem byteLength_cons {c : Char} (h : c ≠ Surrogate.mark) (rest : Text) :
    byteLength (c :: rest) = codeLength (Surrogate.codeOf c) + byteLength rest := by
  rw [byteLength_eq, byteLength_eq, Surrogate.codes_cons h, codesLength]

theorem byteLength_mark (d : Char) (rest : Text) :
    byteLength (Surrogate.mark :: d :: rest) =
      codeLength (d.toNat + Surrogate.shift) + byteLength rest := by
  rw [byteLength_eq, byteLength_eq, Surrogate.codes_mark, codesLength]

theorem byteLength_pos {name : Text} (h : name ≠ []) : 0 < byteLength name := by
  obtain ⟨c, rest, rfl⟩ := List.exists_cons_of_ne_nil h
  have positive (code : Nat) (codes : List Nat) : 0 < codesLength (code :: codes) :=
    Nat.lt_of_lt_of_le (codeLength_pos code) (Nat.le_add_right _ _)
  rw [byteLength_eq]
  cases rest with
  | nil => exact positive _ []
  | cons d rest =>
    unfold Surrogate.codes
    split
    · exact positive _ _
    · exact positive _ _

/-- A path is not shorter than the path of a directory in it. -/
theorem byteLength_front (before : Text) {after : Text} (h : after ≠ []) :
    byteLength before ≤ byteLength (before ++ '/' :: after) := by
  have plain : ('/' : Char) ≠ Surrogate.mark := by decide
  induction before using Surrogate.codes.induct with
  | case1 => exact Nat.zero_le _
  | case2 c =>
    rw [List.singleton_append]
    by_cases marked : c = Surrogate.mark
    · -- The slash becomes the substitute of the mark, which is one byte longer.
      subst marked
      rw [byteLength_mark]
      have alone : byteLength [Surrogate.mark] = 4 := by decide
      have substitute : codeLength (('/' : Char).toNat + Surrogate.shift) = 3 := by decide
      have positive := byteLength_pos h
      omega
    · rw [byteLength_cons marked, byteLength_cons marked]
      exact Nat.add_le_add_left (Nat.zero_le _) _
  | case3 d rest ih =>
    rw [List.cons_append, List.cons_append, byteLength_mark, byteLength_mark]
    exact Nat.add_le_add_left ih _
  | case4 c d rest marked ih =>
    rw [List.cons_append, byteLength_cons marked, byteLength_cons marked]
    exact Nat.add_le_add_left ih _

/-- A name that a file or directory can have. -/
structure IsName (name : Text) : Prop where
  proper : IsProper name
  no_nul : '\x00' ∉ name
  encodable : Encodable name
  fits : byteLength name ≤ nameLimit

instance (name : Text) : Decidable (IsName name) :=
  decidable_of_iff
    (IsProper name ∧ '\x00' ∉ name ∧ Encodable name ∧ byteLength name ≤ nameLimit)
    ⟨fun h => ⟨h.1, h.2.1, h.2.2.1, h.2.2.2⟩,
      fun h => ⟨h.proper, h.no_nul, h.encodable, h.fits⟩⟩

/-! ## What stands where -/

@[simp] theorem node?_nil (disk : Disk) : disk.node? [] = some .directory := if_pos rfl

theorem lookup_map_replace (entries : List (Location × Node)) {location : Location} (node : Node)
    (some_there : entries.any (·.1 == location) = true) (other : Location) :
    (entries.map fun entry => if entry.1 = location then (location, node) else entry).lookup other =
      if other = location then some node else entries.lookup other := by
  induction entries with
  | nil => exact absurd some_there Bool.false_ne_true
  | cons entry rest ih =>
    obtain ⟨place, old⟩ := entry
    by_cases here : place = location
    · subst here
      by_cases same : other = place
      · simp [same]
      · have apart : (other == place) = false := beq_false_of_ne same
        rw [if_neg same, List.map_cons, if_pos rfl, List.lookup_cons, apart, List.lookup_cons,
          apart]
        by_cases again : rest.any (·.1 == place) = true
        · rw [ih again, if_neg same]
        · -- Nothing is replaced in the rest.
          have same_rest : (rest.map fun entry =>
              if entry.1 = place then (place, node) else entry) = rest := by
            refine (List.map_congr_left ?_).trans (List.map_id rest)
            intro entry mem
            refine if_neg fun equal => again (List.any_eq_true.mpr ⟨entry, mem, ?_⟩)
            rw [equal, beq_self_eq_true]
          rw [same_rest]
    · have apart : (place == location) = false := beq_false_of_ne here
      rw [List.any_cons, apart, Bool.false_or] at some_there
      rw [List.map_cons, if_neg here, List.lookup_cons, List.lookup_cons, ih some_there]
      by_cases same : other = place
      · subst same
        simp [here]
      · rw [beq_false_of_ne same]

theorem lookup_append_single (entries : List (Location × Node)) {location : Location} (node : Node)
    (none_there : ¬ entries.any (·.1 == location) = true) (other : Location) :
    (entries ++ [(location, node)]).lookup other =
      if other = location then some node else entries.lookup other := by
  induction entries with
  | nil =>
    by_cases same : other = location
    · simp [same]
    · simp [same]
  | cons entry rest ih =>
    obtain ⟨place, old⟩ := entry
    rw [List.any_cons, Bool.or_eq_true, not_or] at none_there
    rw [List.cons_append, List.lookup_cons, List.lookup_cons, ih none_there.2]
    by_cases same : other = place
    · subst same
      have apart : other ≠ location := by
        intro equal
        exact none_there.1 (by simp [equal])
      simp [apart]
    · rw [beq_false_of_ne same]

/-- What is put at a place stands there, and everything else stays. -/
theorem node?_put (disk : Disk) {location : Location} (inside : location ≠ []) (node : Node)
    (other : Location) :
    (disk.put location node).node? other =
      if other = location then some node else disk.node? other := by
  have entries : (disk.put location node).entries.lookup other =
      if other = location then some node else disk.entries.lookup other := by
    rw [put]
    split
    case isTrue there => exact lookup_map_replace disk.entries node there other
    case isFalse free => exact lookup_append_single disk.entries node free other
  rw [node?, node?, entries]
  by_cases root : other = []
  · rw [if_pos root, if_pos root, if_neg (fun same => inside (same.symm.trans root))]
  · rw [if_neg root, if_neg root]

@[simp] theorem cwd_put (disk : Disk) (location : Location) (node : Node) :
    (disk.put location node).cwd = disk.cwd := by
  rw [put]
  split <;> rfl

/-- What is taken away is gone, and everything else stays. -/
theorem node?_erase (disk : Disk) {location : Location} (inside : location ≠ [])
    (other : Location) :
    (disk.erase location).node? other = if other = location then none else disk.node? other := by
  have lookup (entries : List (Location × Node)) :
      (entries.filter (·.1 ≠ location)).lookup other =
        if other = location then none else entries.lookup other := by
    induction entries with
    | nil => simp
    | cons entry rest ih =>
      obtain ⟨place, old⟩ := entry
      by_cases here : place = location
      · rw [List.filter_cons_of_neg (by simpa using here), ih]
        by_cases same : other = location
        · rw [if_pos same, if_pos same]
        · rw [if_neg same, if_neg same, List.lookup_cons, here, beq_false_of_ne same]
      · rw [List.filter_cons_of_pos (by simpa using here), List.lookup_cons, ih, List.lookup_cons]
        by_cases same : other = place
        · subst same
          simp [here]
        · rw [beq_false_of_ne same]
  rw [node?, node?, erase, lookup]
  by_cases root : other = []
  · rw [if_pos root, if_pos root, if_neg (fun same => inside (same.symm.trans root))]
  · rw [if_neg root, if_neg root]

theorem file?_eq_some {disk : Disk} {location : Location} {content : Bytes} :
    disk.file? location = some content ↔ disk.node? location = some (.file content) := by
  unfold file?
  split
  case h_1 content' there => rw [there]; simp
  case h_2 other => exact ⟨fun h => absurd h (by simp), fun h => absurd h (other content)⟩

theorem file?_of_directory {disk : Disk} {location : Location}
    (h : disk.node? location = some .directory) : disk.file? location = none := by
  rw [file?, h]

theorem file?_of_none {disk : Disk} {location : Location} (h : disk.node? location = none) :
    disk.file? location = none := by
  rw [file?, h]

theorem file?_congr {disk other : Disk} {location : Location}
    (h : other.node? location = disk.node? location) :
    other.file? location = disk.file? location := by
  rw [file?, file?, h]

theorem ne_nil_of_file? {disk : Disk} {location : Location} {content : Bytes}
    (h : disk.file? location = some content) : location ≠ [] := by
  rintro rfl
  rw [file?_of_directory disk.node?_nil] at h
  exact absurd h (by simp)

end Disk

end WorkflowInstall

import WorkflowInstall.Path.Repository

/-!
# Segments and the names they lead to

A path is followed one segment at a time. This module says what a row of segments leads to, in the
order of the walk, and that the absolute spelling of a path names the same place.

## Main Definitions

* `Path.IsProper` — a name that stays in the directory it is looked up in
* `Path.advance` — the names from the root after one more segment
* `LocalPath.IsPlain` — a local path whose names are segments

## Main Statements

* `Path.absoluteNames_eq` — the names of a path are those its segments lead to
* `LocalPath.absoluteNames_text` — the same for a local path
* `LocalPath.absoluteNames_ofText` — a text and the local path it spells have the same names
-/

namespace WorkflowInstall

/-! ## Pieces between separators -/

namespace Text

/-- A separator between two texts keeps their pieces apart. -/
theorem splitOn_append_cons (separator : Char) (before after : Text) :
    splitOn separator (before ++ separator :: after) =
      splitOn separator before ++ splitOn separator after := by
  induction before with
  | nil => simp [splitOn]
  | cons c rest ih =>
    by_cases hc : c = separator
    · simp [splitOn, hc, ih]
    · rw [List.cons_append, splitOn, if_neg hc, ih, splitOn, if_neg hc]
      cases hs : splitOn separator rest with
      | nil => exact absurd hs (splitOn_ne_nil separator rest)
      | cons piece pieces => rfl

/-- A text without the separator is one piece. -/
theorem splitOn_of_notMem {separator : Char} {text : Text} (h : separator ∉ text) :
    splitOn separator text = [text] := by
  induction text with
  | nil => rfl
  | cons c rest ih =>
    rw [List.mem_cons, not_or] at h
    rw [splitOn, if_neg (Ne.symm h.1), ih h.2]

/-- Pieces that were joined come apart again. -/
theorem splitOn_joinWith {separator : Char} {pieces : List Text} (some : pieces ≠ [])
    (clean : ∀ piece ∈ pieces, separator ∉ piece) :
    splitOn separator (joinWith [separator] pieces) = pieces := by
  induction pieces with
  | nil => exact absurd rfl some
  | cons piece rest ih =>
    have clear : separator ∉ piece := clean piece List.mem_cons_self
    cases rest with
    | nil => exact splitOn_of_notMem clear
    | cons next more =>
      have later := ih (List.cons_ne_nil next more)
        fun other mem => clean other (List.mem_cons_of_mem piece mem)
      rw [joinWith, List.singleton_append, splitOn_append_cons, later, splitOn_of_notMem clear,
        List.singleton_append]

/-- Joining begins with the first piece. -/
theorem joinWith_cons_eq (separator piece : Text) (pieces : List Text) :
    ∃ rest, joinWith separator (piece :: pieces) = piece ++ rest := by
  cases pieces with
  | nil => exact ⟨[], (List.append_nil piece).symm⟩
  | cons next more => exact ⟨_, rfl⟩

theorem joinWith_eq_nil {separator : Text} {pieces : List Text}
    (full : ∀ piece ∈ pieces, piece ≠ []) (h : joinWith separator pieces = []) : pieces = [] := by
  cases pieces with
  | nil => rfl
  | cons piece rest =>
    obtain ⟨more, begins⟩ := joinWith_cons_eq separator piece rest
    rw [begins, List.append_eq_nil_iff] at h
    exact absurd h.1 (full piece List.mem_cons_self)

theorem joinWith_append {separator : Text} {pieces others : List Text} (some : pieces ≠ [])
    (more : others ≠ []) :
    joinWith separator (pieces ++ others) =
      joinWith separator pieces ++ (separator ++ joinWith separator others) := by
  induction pieces with
  | nil => exact absurd rfl some
  | cons piece rest ih =>
    cases rest with
    | nil =>
      obtain ⟨next, last, rfl⟩ := List.exists_cons_of_ne_nil more
      rfl
    | cons next last =>
      rw [List.cons_append, List.cons_append, joinWith, joinWith, ← List.cons_append,
        ih (List.cons_ne_nil next last)]
      simp only [List.append_assoc]

/-- The characters of a piece are among those of the joined text. -/
theorem mem_joinWith {separator piece : Text} {pieces : List Text} {c : Char}
    (mem : piece ∈ pieces) (inside : c ∈ piece) : c ∈ joinWith separator pieces := by
  induction pieces with
  | nil => exact absurd mem List.not_mem_nil
  | cons first rest ih =>
    obtain ⟨more, begins⟩ := joinWith_cons_eq separator first rest
    rcases List.mem_cons.mp mem with rfl | mem
    · rw [begins]
      exact List.mem_append_left more inside
    · cases rest with
      | nil => exact absurd mem List.not_mem_nil
      | cons next others =>
        unfold joinWith
        exact List.mem_append_right first (List.mem_append_right separator (ih mem))

/-- The characters of a joined text are those of the separator and of the pieces. -/
theorem of_mem_joinWith {separator : Text} {pieces : List Text} {c : Char}
    (mem : c ∈ joinWith separator pieces) : c ∈ separator ∨ ∃ piece ∈ pieces, c ∈ piece := by
  induction pieces with
  | nil => exact absurd mem List.not_mem_nil
  | cons piece rest ih =>
    have later (found : c ∈ joinWith separator rest) :
        c ∈ separator ∨ ∃ other ∈ piece :: rest, c ∈ other :=
      (ih found).imp_right fun ⟨other, inside, found⟩ =>
        ⟨other, List.mem_cons_of_mem piece inside, found⟩
    cases rest with
    | nil => exact Or.inr ⟨piece, List.mem_cons_self, mem⟩
    | cons next more =>
      rw [joinWith, List.mem_append, List.mem_append] at mem
      rcases mem with here | between | after
      · exact Or.inr ⟨piece, List.mem_cons_self, here⟩
      · exact Or.inl between
      · exact later after

end Text

namespace Path

/-! ## Walking along segments -/

/-- A name of a file or directory: it neither stays, nor goes up, nor is several names. -/
structure IsProper (name : Text) : Prop where
  ne_nil : name ≠ []
  ne_dot : name ≠ dot
  ne_up : name ≠ up
  no_slash : '/' ∉ name

instance (name : Text) : Decidable (IsProper name) :=
  decidable_of_iff (name ≠ [] ∧ name ≠ dot ∧ name ≠ up ∧ '/' ∉ name)
    ⟨fun h => ⟨h.1, h.2.1, h.2.2.1, h.2.2.2⟩,
      fun h => ⟨h.ne_nil, h.ne_dot, h.ne_up, h.no_slash⟩⟩

/-- The names from the root after one more segment. -/
def advance (location : List Text) (segment : Text) : List Text :=
  if segment = [] ∨ segment = dot then location
  else if segment = up then location.dropLast
  else location ++ [segment]

/-- Where the walk along a path begins, seen from the working directory. -/
def start (cwd : List Text) (path : Text) : List Text := if isAbsolute path then [] else cwd

theorem advance_of_isProper {name : Text} (h : IsProper name) (location : List Text) :
    advance location name = location ++ [name] := by
  rw [advance, if_neg (not_or.mpr ⟨h.ne_nil, h.ne_dot⟩), if_neg h.ne_up]

theorem foldl_advance_of_isProper {names : List Text} (h : ∀ name ∈ names, IsProper name)
    (location : List Text) : names.foldl advance location = location ++ names := by
  induction names generalizing location with
  | nil => exact (List.append_nil location).symm
  | cons name rest ih =>
    rw [List.foldl_cons, advance_of_isProper (h name List.mem_cons_self),
      ih fun other mem => h other (List.mem_cons_of_mem name mem), List.append_assoc,
      List.singleton_append]

/-- Segments that stay can be left out. -/
theorem foldl_advance_filter (segments : List Text) (location : List Text) :
    (segments.filter fun s => s ≠ [] ∧ s ≠ dot).foldl advance location =
      segments.foldl advance location := by
  induction segments generalizing location with
  | nil => rfl
  | cons segment rest ih =>
    by_cases stays : segment = [] ∨ segment = dot
    · rw [List.filter_cons_of_neg (by simpa using Or.resolve_left stays), ih, List.foldl_cons,
        advance, if_pos stays]
    · rw [List.filter_cons_of_pos (by simpa [not_or] using stays), List.foldl_cons, List.foldl_cons,
        ih]

theorem foldl_advance_isProper {segments location : List Text}
    (pieces : ∀ segment ∈ segments, '/' ∉ segment) (names : ∀ name ∈ location, IsProper name) :
    ∀ name ∈ segments.foldl advance location, IsProper name := by
  induction segments generalizing location with
  | nil => exact names
  | cons segment rest ih =>
    -- One segment keeps the names proper, so the rest begins with proper names again.
    refine ih (fun other mem => pieces other (List.mem_cons_of_mem segment mem)) ?_
    intro name mem
    by_cases stays : segment = [] ∨ segment = dot
    · rw [advance, if_pos stays] at mem
      exact names name mem
    · rw [advance, if_neg stays] at mem
      by_cases climbs : segment = up
      · rw [if_pos climbs] at mem
        exact names name (List.dropLast_subset location mem)
      · rw [if_neg climbs, List.mem_append, List.mem_singleton] at mem
        rcases mem with old | rfl
        · exact names name old
        · rw [not_or] at stays
          exact ⟨stays.1, stays.2, climbs, pieces name List.mem_cons_self⟩

/-- The stack of a rooted path, read from its end, is the walk. -/
theorem reverse_push {location : List Text} (names : up ∉ location) (segment : Text) :
    (push true location.reverse segment).reverse = advance location segment := by
  rw [push.eq_def, advance]
  split
  · exact List.reverse_reverse location
  · split
    · rcases List.eq_nil_or_concat location with rfl | ⟨before, last, rfl⟩
      · rfl
      · have other : last ≠ up := fun equal => names (by simp [equal])
        simp [other]
    · simp

theorem up_notMem {names : List Text} (h : ∀ name ∈ names, IsProper name) : up ∉ names :=
  fun mem => (h up mem).ne_up rfl

theorem reverse_foldl_push {segments location : List Text}
    (pieces : ∀ segment ∈ segments, '/' ∉ segment) (names : ∀ name ∈ location, IsProper name) :
    (segments.foldl (push true) location.reverse).reverse = segments.foldl advance location := by
  induction segments generalizing location with
  | nil => exact List.reverse_reverse location
  | cons segment rest ih =>
    -- The stack holds the names so far in reverse. None of them is a step up, so a step up pops.
    have next := reverse_push (up_notMem names) segment
    have single : ∀ other ∈ [segment], '/' ∉ other := by
      intro other mem
      exact pieces other (List.mem_cons.mpr (Or.inl (List.mem_singleton.mp mem)))
    have proper : ∀ name ∈ advance location segment, IsProper name :=
      foldl_advance_isProper single names
    have later := ih (fun other mem => pieces other (List.mem_cons_of_mem segment mem)) proper
    rw [← next, List.reverse_reverse] at later
    rw [List.foldl_cons, List.foldl_cons, later, next]

theorem resolve_rooted {segments : List Text} (pieces : ∀ segment ∈ segments, '/' ∉ segment) :
    resolve true segments = segments.foldl advance [] :=
  reverse_foldl_push pieces fun _ mem => absurd mem List.not_mem_nil

theorem slash_notMem_splitOn (path : Text) : ∀ segment ∈ Text.splitOn '/' path, '/' ∉ segment :=
  fun _ mem => Text.not_mem_of_mem_splitOn mem

/-! ## Spelling -/

theorem spell_of_ne_nil {anchor : Anchor} {names : List Text}
    (h : anchor.mark ++ Text.joinWith "/" names ≠ []) :
    spell anchor names = anchor.mark ++ Text.joinWith "/" names := by
  unfold spell
  split
  · contradiction
  · rfl

theorem spell_ne_nil (anchor : Anchor) (names : List Text) : spell anchor names ≠ [] := by
  unfold spell
  split
  · exact List.cons_ne_nil _ _
  case h_2 text some => exact fun none => some none

theorem spell_rooted {anchor : Anchor} (h : anchor.isRooted = true) (names : List Text) :
    spell anchor names = anchor.mark ++ Text.joinWith "/" names := by
  refine spell_of_ne_nil ?_
  cases anchor with
  | here => exact absurd h Bool.false_ne_true
  | root => exact List.cons_ne_nil _ _
  | doubleRoot => exact List.cons_ne_nil _ _

theorem spell_here {names : List Text} (some : names ≠ []) (full : ∀ name ∈ names, name ≠ []) :
    spell .here names = Text.joinWith "/" names :=
  spell_of_ne_nil fun h => some (Text.joinWith_eq_nil full h)

/-- Names without slashes are the segments of their spelling. -/
theorem splitOn_spell_here {names : List Text} (some : names ≠ [])
    (full : ∀ name ∈ names, name ≠ []) (clean : ∀ name ∈ names, '/' ∉ name) :
    Text.splitOn '/' (spell .here names) = names := by
  rw [spell_here some full]
  exact Text.splitOn_joinWith some clean

/-- A path that goes on after some names is spelled with a slash after them. -/
theorem spell_append {anchor : Anchor} {front rest : List Text} (some : front ≠ [])
    (full : ∀ name ∈ front, name ≠ []) (more : rest ≠ []) :
    spell anchor (front ++ rest) = spell anchor front ++ '/' :: Text.joinWith "/" rest := by
  have spelled : anchor.mark ++ Text.joinWith "/" front ≠ [] := by
    intro none
    exact some (Text.joinWith_eq_nil full (List.append_eq_nil_iff.mp none).2)
  have whole : anchor.mark ++ Text.joinWith "/" (front ++ rest) =
      anchor.mark ++ Text.joinWith "/" front ++ '/' :: Text.joinWith "/" rest := by
    rw [Text.joinWith_append some more, List.append_assoc]
    rfl
  have filled : anchor.mark ++ Text.joinWith "/" (front ++ rest) ≠ [] := by
    rw [whole]
    exact List.append_ne_nil_of_left_ne_nil spelled _
  rw [spell_of_ne_nil filled, spell_of_ne_nil spelled, whole]

theorem isAbsolute_cons (c : Char) (rest : Text) : isAbsolute (c :: rest) = (c == '/') := by
  show (('/' == c) && true) = (c == '/')
  rw [Bool.and_true]
  exact Bool.beq_comm

/-- A path is absolute when it begins in a root. -/
theorem isRooted_ofText (path : Text) : (Anchor.ofText path).isRooted = isAbsolute path := by
  -- The first three characters decide which root it is.
  cases path with
  | nil => rfl
  | cons c rest =>
    rw [isAbsolute_cons]
    by_cases slash : c = '/'
    · subst slash
      cases rest with
      | nil => rfl
      | cons d more =>
        by_cases second : d = '/'
        · subst second
          cases more with
          | nil => rfl
          | cons e last =>
            by_cases third : e = '/'
            · subst third; rfl
            · simp [Anchor.ofText, third, Anchor.isRooted]
        · simp [Anchor.ofText, second, Anchor.isRooted]
    · simp [Anchor.ofText, slash, Anchor.isRooted]

/-- What a spelled path is split into: empty segments for the root, then the names. -/
theorem splitOn_spell_rooted {anchor : Anchor} (rooted : anchor.isRooted = true) {names : List Text}
    (pieces : ∀ name ∈ names, '/' ∉ name) :
    ∃ blanks, (∀ blank ∈ blanks, blank = []) ∧
      Text.splitOn '/' (spell anchor names) = blanks ++ names := by
  rw [spell_rooted rooted]
  have split : ∃ blanks, (∀ blank ∈ blanks, blank = []) ∧
      Text.splitOn '/' (Text.joinWith "/" names) = blanks ++ names := by
    cases names with
    | nil => exact ⟨[[]], by simp, rfl⟩
    | cons name rest =>
      exact ⟨[], by simp, Text.splitOn_joinWith (List.cons_ne_nil name rest) pieces⟩
  obtain ⟨blanks, empty, split⟩ := split
  -- Every slash of the root stands for one more empty segment.
  have add (more : Text) (blanks : List Text) (empty : ∀ blank ∈ blanks, blank = [])
      (split : Text.splitOn '/' more = blanks ++ names) :
      (∀ blank ∈ [] :: blanks, blank = []) ∧
        Text.splitOn '/' ('/' :: more) = ([] :: blanks) ++ names := by
    refine ⟨?_, ?_⟩
    · rintro blank (_ | ⟨_, mem⟩)
      · rfl
      · exact empty blank mem
    · rw [Text.splitOn, if_pos rfl, split, List.cons_append]
  cases anchor with
  | here => exact absurd rooted Bool.false_ne_true
  | root => exact ⟨_, add _ blanks empty split⟩
  | doubleRoot =>
    obtain ⟨empty, split⟩ := add _ blanks empty split
    exact ⟨_, add _ _ empty split⟩

/-! ## Absolute names -/

theorem foldl_advance_idle {idle : List Text} (h : ∀ segment ∈ idle, segment = [] ∨ segment = dot)
    (location : List Text) : idle.foldl advance location = location := by
  rw [← foldl_advance_filter, List.filter_eq_nil_iff.mpr]
  · rfl
  · intro segment mem
    rcases h segment mem with rfl | rfl
    · decide
    · decide

/-- A path seen from another one leads on from where that one leads to. -/
theorem foldl_advance_join (base : Text) {path : Text} (relative : isAbsolute path = false)
    (location : List Text) :
    (Text.splitOn '/' (join base path)).foldl advance location =
      (Text.splitOn '/' path).foldl advance
        ((Text.splitOn '/' base).foldl advance location) := by
  rw [join, if_neg (by simp [relative])]
  split
  case isTrue closed =>
    -- The base is empty or ends in a slash, and no other slash is put after it.
    rw [Bool.or_eq_true] at closed
    rcases closed with none | closed
    · rw [List.isEmpty_iff.mp none]
      rfl
    · obtain ⟨front, rfl⟩ := List.isSuffixOf_iff_suffix.mp closed
      rw [List.append_assoc, show ("/" : Text) ++ path = '/' :: path from rfl,
        show ("/" : Text) = '/' :: [] from rfl, Text.splitOn_append_cons, Text.splitOn_append_cons,
        List.foldl_append, List.foldl_append]
      rfl
  case isFalse =>
    rw [List.append_assoc, show ("/" : Text) ++ path = '/' :: path from rfl,
      Text.splitOn_append_cons, List.foldl_append]

theorem filter_ne_nil_of_isProper {names : List Text} (h : ∀ name ∈ names, IsProper name) :
    (names.filter (· ≠ [])) = names :=
  List.filter_eq_self.mpr fun name mem => by simpa using (h name mem).ne_nil

/-- The names in the spelling of a rooted path. -/
theorem names_spell_rooted {anchor : Anchor} (rooted : anchor.isRooted = true) {names : List Text}
    (proper : ∀ name ∈ names, IsProper name) :
    (Text.splitOn '/' (spell anchor names)).filter (· ≠ []) = names := by
  obtain ⟨blanks, empty, split⟩ :=
    splitOn_spell_rooted rooted fun name mem => (proper name mem).no_slash
  rw [split, List.filter_append, filter_ne_nil_of_isProper proper, List.filter_eq_nil_iff.mpr,
    List.nil_append]
  intro blank mem
  simp [empty blank mem]

/-- Following the spelling of a rooted path leads through its names. -/
theorem foldl_advance_spell_rooted {anchor : Anchor} (rooted : anchor.isRooted = true)
    {names : List Text} (clean : ∀ name ∈ names, '/' ∉ name) (location : List Text) :
    (Text.splitOn '/' (spell anchor names)).foldl advance location =
      names.foldl advance location := by
  obtain ⟨blanks, empty, split⟩ := splitOn_spell_rooted rooted clean
  rw [split, List.foldl_append, foldl_advance_idle fun blank mem => Or.inl (empty blank mem)]

/-- The root that a path is spelled from. -/
def Anchor.rooted : Anchor → Anchor
  | .doubleRoot => .doubleRoot
  | _ => .root

theorem Anchor.isRooted_rooted (anchor : Anchor) : anchor.rooted.isRooted = true := by
  cases anchor <;> rfl

theorem ofText_slash {rest : Text} (relative : isAbsolute rest = false) :
    Anchor.ofText ('/' :: rest) = .root := by
  cases rest with
  | nil => rfl
  | cons c more =>
    rw [isAbsolute_cons] at relative
    have other : c ≠ '/' := by simpa using relative
    simp [Anchor.ofText, other]

theorem ofText_slash_slash {rest : Text} (relative : isAbsolute rest = false) :
    Anchor.ofText ('/' :: '/' :: rest) = .doubleRoot := by
  cases rest with
  | nil => rfl
  | cons c more =>
    rw [isAbsolute_cons] at relative
    have other : c ≠ '/' := by simpa using relative
    simp [Anchor.ofText, other]

theorem ofText_relative {path : Text} (relative : isAbsolute path = false) :
    Anchor.ofText path = .here := by
  have rooted := isRooted_ofText path
  rw [relative] at rooted
  cases anchor : Anchor.ofText path with
  | here => rfl
  | root => rw [anchor] at rooted; exact absurd rooted Bool.noConfusion
  | doubleRoot => rw [anchor] at rooted; exact absurd rooted Bool.noConfusion

section Absolute

variable {cwd : List Text} (names : ∀ name ∈ cwd, IsProper name)
include names

/-- A relative path seen from the working directory begins in the root. -/
theorem ofText_join {path : Text} (relative : isAbsolute path = false) :
    Anchor.ofText (join (spell .root cwd) path) = .root := by
  have apart : ¬ isAbsolute path = true := Bool.eq_false_iff.mp relative
  rw [join, if_neg apart, spell_rooted rfl]
  cases cwd with
  | nil => exact ofText_slash relative
  | cons name rest =>
    obtain ⟨c, chars, rfl⟩ := List.exists_cons_of_ne_nil (names name List.mem_cons_self).ne_nil
    have other : (c == '/') = false :=
      beq_false_of_ne fun same => (names _ List.mem_cons_self).no_slash (same ▸ List.mem_cons_self)
    obtain ⟨more, begins⟩ := Text.joinWith_cons_eq "/" (c :: chars) rest
    rw [begins]
    split
    · exact ofText_slash ((isAbsolute_cons c _).trans other)
    · exact ofText_slash ((isAbsolute_cons c _).trans other)

/-- The absolute spelling of a path: its root and the names that its segments lead to. -/
theorem absolute_eq (path : Text) :
    absolute (spell .root cwd) path =
      spell (Anchor.ofText path).rooted
        ((Text.splitOn '/' path).foldl advance (start cwd path)) := by
  -- Normalizing a rooted path is the walk from the root.
  have walk (whole : Text) (rooted : isAbsolute whole = true) :
      normalize whole =
        spell (Anchor.ofText whole) ((Text.splitOn '/' whole).foldl advance []) := by
    rw [normalize, segments, isRooted_ofText, rooted, resolve_rooted (slash_notMem_splitOn whole)]
  by_cases rooted : isAbsolute path = true
  · have same : (Anchor.ofText path).rooted = Anchor.ofText path := by
      have anchored := isRooted_ofText path
      rw [rooted] at anchored
      cases anchor : Anchor.ofText path with
      | here => rw [anchor] at anchored; exact absurd anchored Bool.noConfusion
      | root => rfl
      | doubleRoot => rfl
    rw [absolute, if_pos rooted, walk path rooted, start, if_pos rooted, same]
  · have relative : isAbsolute path = false := Bool.eq_false_iff.mpr rooted
    have whole : isAbsolute (join (spell .root cwd) path) = true := by
      rw [join, if_neg rooted, spell_rooted rfl]
      split <;> rfl
    rw [absolute, if_neg rooted, walk _ whole, ofText_join names relative, ofText_relative relative,
      start, if_neg rooted, foldl_advance_join _ relative,
      foldl_advance_spell_rooted rfl fun name mem => (names name mem).no_slash,
      foldl_advance_of_isProper names, List.nil_append]
    rfl

theorem walk_isProper (path : Text) :
    ∀ name ∈ (Text.splitOn '/' path).foldl advance (start cwd path), IsProper name := by
  refine foldl_advance_isProper (slash_notMem_splitOn path) ?_
  intro name mem
  unfold start at mem
  split at mem
  · exact absurd mem List.not_mem_nil
  · exact names name mem

/-- The names of a path from the root are those that its segments lead to. -/
theorem absoluteNames_eq (path : Text) :
    absoluteNames (spell .root cwd) path =
      (Text.splitOn '/' path).foldl advance (start cwd path) := by
  rw [absoluteNames, absolute_eq names,
    names_spell_rooted (Anchor.isRooted_rooted _) (walk_isProper names path)]

theorem absoluteNames_isProper (path : Text) :
    ∀ name ∈ absoluteNames (spell .root cwd) path, IsProper name := by
  rw [absoluteNames_eq names]
  exact walk_isProper names path

/-- The absolute spelling of a path has the names of the path. -/
theorem absoluteNames_absolute (path : Text) :
    absoluteNames (spell .root cwd) (absolute (spell .root cwd) path) =
      absoluteNames (spell .root cwd) path := by
  have proper := walk_isProper names path
  have rooted := Anchor.isRooted_rooted (Anchor.ofText path)
  have whole : isAbsolute (absolute (spell .root cwd) path) = true := by
    rw [absolute_eq names, spell_rooted rooted]
    cases anchor : (Anchor.ofText path).rooted with
    | here => rw [anchor] at rooted; exact absurd rooted Bool.noConfusion
    | root => rfl
    | doubleRoot => rfl
  rw [absoluteNames_eq names, start, if_pos whole, absolute_eq names,
    foldl_advance_spell_rooted rooted fun name mem => (proper name mem).no_slash,
    foldl_advance_of_isProper proper, List.nil_append, absoluteNames_eq names]

end Absolute

end Path

/-! ## Local paths -/

namespace LocalPath

open Path

/-- The names of a local path are segments: they are not empty, do not stay and hold no slash. -/
def IsPlain (path : LocalPath) : Prop :=
  ∀ name ∈ path.names, name ≠ [] ∧ name ≠ dot ∧ '/' ∉ name

theorem isPlain_ofText (text : Text) : (ofText text).IsPlain := by
  intro name mem
  rw [ofText, List.mem_filter, decide_eq_true_eq] at mem
  exact ⟨mem.2.1, mem.2.2, slash_notMem_splitOn text name mem.1⟩

theorem IsPlain.append {path other : LocalPath} (h : path.IsPlain) (h' : other.IsPlain) :
    (path.append other).IsPlain := by
  rw [LocalPath.append]
  split
  · exact h'
  · intro name mem
    exact (List.mem_append.mp mem).elim (h name) (h' name)

theorem IsPlain.appendText {path : LocalPath} (h : path.IsPlain) (other : Text) :
    (path.appendText other).IsPlain := h.append (isPlain_ofText other)

theorem IsPlain.parent {path : LocalPath} (h : path.IsPlain) : path.parent.IsPlain := by
  intro name mem
  exact h name (List.dropLast_subset path.names mem)

theorem IsPlain.front {anchor : Anchor} {front rest : List Text}
    (plain : IsPlain ⟨anchor, front ++ rest⟩) : IsPlain ⟨anchor, front⟩ := by
  intro name mem
  exact plain name (List.mem_append_left rest mem)

/-- A plain path stays plain when proper names are put after it. -/
theorem IsPlain.appendNames {path : LocalPath} (plain : path.IsPlain) {names : List Text}
    (proper : ∀ name ∈ names, IsProper name) :
    IsPlain { path with names := path.names ++ names } := by
  intro name mem
  rcases List.mem_append.mp mem with mem | mem
  · exact plain name mem
  · exact ⟨(proper name mem).ne_nil, (proper name mem).ne_dot, (proper name mem).no_slash⟩

theorem isAbsolute_text {path : LocalPath} (h : path.IsPlain) :
    isAbsolute path.text = path.anchor.isRooted := by
  obtain ⟨anchor, names⟩ := path
  cases anchor with
  | here =>
    cases names with
    | nil => rfl
    | cons name rest =>
      have full : ∀ other ∈ name :: rest, other ≠ [] := by
        intro other mem
        exact (h other mem).1
      rw [text, spell_here (List.cons_ne_nil name rest) full]
      obtain ⟨more, begins⟩ := Text.joinWith_cons_eq "/" name rest
      have first := h name List.mem_cons_self
      obtain ⟨c, chars, rfl⟩ := List.exists_cons_of_ne_nil first.1
      rw [begins, List.cons_append, isAbsolute_cons]
      have other : c ≠ '/' := by
        intro equal
        exact first.2.2 (equal ▸ List.mem_cons_self)
      exact beq_false_of_ne other
  | root => rw [text, spell_rooted rfl]; rfl
  | doubleRoot => rw [text, spell_rooted rfl]; rfl

/-- Plain names are what is read back from their spelling. -/
theorem ofText_spell_here {names : List Text} (plain : IsPlain ⟨.here, names⟩) (some : names ≠ []) :
    ofText (spell .here names) = ⟨.here, names⟩ := by
  have split : Text.splitOn '/' (spell .here names) = names :=
    splitOn_spell_here some (fun name mem => (plain name mem).1) fun name mem =>
      (plain name mem).2.2
  have anchored : Anchor.ofText (spell .here names) = .here :=
    ofText_relative (isAbsolute_text plain)
  rw [ofText, anchored, split, List.filter_eq_self.mpr]
  intro name mem
  simpa using ⟨(plain name mem).1, (plain name mem).2.1⟩

/-- What the spelling of a local path is split into: segments that go nowhere, then the names. -/
theorem splitOn_text {path : LocalPath} (h : path.IsPlain) :
    ∃ idle, (∀ segment ∈ idle, segment = [] ∨ segment = dot) ∧
      Text.splitOn '/' path.text = idle ++ path.names := by
  obtain ⟨anchor, names⟩ := path
  have clean : ∀ name ∈ names, '/' ∉ name := by
    intro name mem
    exact (h name mem).2.2
  have rooted (anchored : anchor.isRooted = true) :
      ∃ idle, (∀ segment ∈ idle, segment = [] ∨ segment = dot) ∧
        Text.splitOn '/' (spell anchor names) = idle ++ names := by
    obtain ⟨blanks, empty, split⟩ := splitOn_spell_rooted anchored clean
    exact ⟨blanks, fun blank mem => Or.inl (empty blank mem), split⟩
  cases anchor with
  | here =>
    cases names with
    | nil => exact ⟨[dot], by simp, rfl⟩
    | cons name rest =>
      have full : ∀ other ∈ name :: rest, other ≠ [] := by
        intro other mem
        exact (h other mem).1
      exact ⟨[], by simp, splitOn_spell_here (List.cons_ne_nil name rest) full clean⟩
  | root => exact rooted rfl
  | doubleRoot => exact rooted rfl

/-- Following the spelling of a local path leads through its names. -/
theorem foldl_advance_text {path : LocalPath} (h : path.IsPlain) (location : List Text) :
    (Text.splitOn '/' path.text).foldl advance location = path.names.foldl advance location := by
  obtain ⟨idle, goes, split⟩ := splitOn_text h
  rw [split, List.foldl_append, foldl_advance_idle goes]

/-- Where the walk along a local path begins. -/
def start (cwd : List Text) (path : LocalPath) : List Text :=
  if path.anchor.isRooted then [] else cwd

section Names

variable {cwd : List Text} (proper : ∀ name ∈ cwd, IsProper name)
include proper

/-- The names of a local path from the root are those that its names lead to. -/
theorem absoluteNames_text {path : LocalPath} (h : path.IsPlain) :
    absoluteNames (spell .root cwd) path.text = path.names.foldl advance (path.start cwd) := by
  rw [absoluteNames_eq proper, foldl_advance_text h, Path.start, isAbsolute_text h, start]

/-- A name that does not go up leads one name further down. -/
theorem absoluteNames_down {anchor : Anchor} {front : List Text} {name : Text}
    (h : IsPlain ⟨anchor, front ++ [name]⟩) (down : name ≠ up) :
    absoluteNames (spell .root cwd) (spell anchor (front ++ [name])) =
      absoluteNames (spell .root cwd) (spell anchor front) ++ [name] := by
  obtain ⟨full, goes, -⟩ := h name (List.mem_append_right front (List.mem_singleton.mpr rfl))
  have before := absoluteNames_text proper h.front
  have whole := absoluteNames_text proper h
  rw [text] at before whole
  rw [before, whole, List.foldl_append, List.foldl_cons, List.foldl_nil, advance,
    if_neg (not_or.mpr ⟨full, goes⟩), if_neg down]
  rfl

/-- A text and the local path that it spells have the same names. -/
theorem absoluteNames_ofText (text : Text) :
    absoluteNames (spell .root cwd) (ofText text).text =
      absoluteNames (spell .root cwd) text := by
  rw [absoluteNames_text proper (isPlain_ofText text), absoluteNames_eq proper, start, ofText,
    isRooted_ofText, foldl_advance_filter, Path.start]

end Names

end LocalPath

end WorkflowInstall

import WorkflowInstall.Proofs.Path.Canonical

/-!
# Where canonical paths are kept

A canonical path is kept under its own names, without those of the directory `base` when it lies
there. So two paths have one place only when one of them is the other one below `base`.

## Main Definitions

* `RepoPath.Twins` — one path is the other one below a directory

## Main Statements

* `RepoPath.segments_of_climbing` — when a path is spelled in its normal form
* `RepoPath.strip_cases` — a path is what is left of it, or it lies below `base`
* `RepoPath.toLocal_canonical` — the names under which a canonical path is kept
* `RepoPath.contained_exactly` — what the containment check passes, and that kept files pass it
* `RepoPath.eq_or_twins` — two paths with one place are equal, or one is the other one below `base`
-/

namespace WorkflowInstall

open Path

namespace Path

/-- Proper names are put on the names that were walked before. -/
theorem foldl_push_of_isProper (rooted : Bool) {names : List Text}
    (proper : ∀ name ∈ names, IsProper name) (walked : List Text) :
    names.foldl (push rooted) walked = names.reverse ++ walked := by
  induction names generalizing walked with
  | nil => rfl
  | cons name rest ih =>
    have first := proper name List.mem_cons_self
    have step : push rooted walked name = name :: walked := by
      rw [push.eq_def, if_neg (not_or.mpr ⟨first.ne_nil, first.ne_dot⟩), if_neg first.ne_up]
    rw [List.foldl_cons, step, ih fun other mem => proper other (List.mem_cons_of_mem name mem),
      List.reverse_cons, List.append_assoc, List.singleton_append]

/-- Steps up from the working directory are remembered. -/
theorem foldl_push_replicate_up (climbs before : Nat) :
    (List.replicate climbs up).foldl (push false) (List.replicate before up) =
      List.replicate (before + climbs) up := by
  induction climbs generalizing before with
  | zero => rfl
  | succ climbs ih =>
    have step : push false (List.replicate before up) up = List.replicate (before + 1) up := by
      cases before <;> rfl
    rw [List.replicate_succ, List.foldl_cons, step, ih]
    exact congrArg (List.replicate · up) (by omega)

/-- Climbing names are in normal form. -/
theorem resolve_of_climbing {names : List Text} (climbing : Climbing names) :
    resolve false names = names := by
  obtain ⟨climbs, inside, rfl, proper⟩ := climbing
  have walked := foldl_push_replicate_up climbs 0
  rw [List.replicate_zero, Nat.zero_add] at walked
  rw [resolve, List.foldl_append, walked, foldl_push_of_isProper false proper, List.reverse_append,
    List.reverse_reverse, List.reverse_replicate]

end Path

namespace LocalPath

/-- Names that do not go up lead further down. -/
theorem absoluteNames_append {cwd : List Text} (proper : ∀ name ∈ cwd, IsProper name)
    {path : LocalPath} (plain : path.IsPlain) {names : List Text}
    (down : ∀ name ∈ names, IsProper name) :
    absoluteNames (spell .root cwd) (text { path with names := path.names ++ names }) =
      absoluteNames (spell .root cwd) path.text ++ names := by
  rw [absoluteNames_text proper (plain.appendNames down),
    absoluteNames_text proper plain, List.foldl_append, foldl_advance_of_isProper down]
  rfl

end LocalPath

namespace RepoPath

/-- A place lies below a directory when it goes on after all names of it. -/
theorem below_iff (directory place : List Text) :
    Below directory place ↔ directory <+: place ∧ directory ≠ place := by
  constructor
  · rintro ⟨name, rest, rfl⟩
    exact ⟨List.prefix_append directory _, by simp⟩
  · rintro ⟨⟨rest, rfl⟩, apart⟩
    cases rest with
    | nil => exact absurd (List.append_nil directory).symm apart
    | cons name more => exact ⟨name, more, rfl⟩

/-- A path without an empty segment does not begin with a slash. -/
theorem isAbsolute_of_full {path : Text} (full : ∀ segment ∈ Text.splitOn '/' path, segment ≠ []) :
    isAbsolute path = false := by
  cases path with
  | nil => rfl
  | cons c rest =>
    rw [isAbsolute_cons]
    refine beq_false_of_ne ?_
    rintro rfl
    exact full [] (by rw [Text.splitOn, if_pos rfl]; exact List.mem_cons_self) rfl

/-- A path whose segments climb is in normal form. -/
theorem segments_of_climbing {path : Text} (climbing : Climbing (Text.splitOn '/' path)) :
    segments path = Text.splitOn '/' path := by
  have relative : isAbsolute path = false :=
    isAbsolute_of_full fun segment mem => (climbing.pieces segment mem).1
  rw [segments, isRooted_ofText, relative, resolve_of_climbing climbing]

/-- A canonical path is its names alone. -/
theorem IsCanonical.segments_eq {path : Text} (h : IsCanonical path) :
    segments path = Text.splitOn '/' path :=
  segments_of_climbing ⟨0, Text.splitOn '/' path, rfl, h.proper⟩

theorem isCanonical_of_isProper {path : Text}
    (proper : ∀ segment ∈ Text.splitOn '/' path, IsProper segment) : IsCanonical path where
  ne_nil := by
    rintro rfl
    exact (proper [] (by decide)).ne_nil rfl
  relative := isAbsolute_of_full fun segment mem => (proper segment mem).ne_nil
  proper := proper

/-- What comes after a slash in a canonical path is a canonical path. -/
theorem IsCanonical.rest {front rest : Text} (h : IsCanonical (front ++ '/' :: rest)) :
    IsCanonical rest := by
  refine isCanonical_of_isProper fun segment mem => h.proper segment ?_
  rw [Text.splitOn_append_cons]
  exact List.mem_append_right _ mem

theorem strip_cases (base path : Text) :
    strip base path = path ∨ base ≠ [] ∧ path = base ++ '/' :: strip base path := by
  unfold strip
  split
  case isTrue below =>
    obtain ⟨rest, whole⟩ := List.isPrefixOf_iff_prefix.mp below.2
    rw [← whole, List.drop_left, List.append_assoc]
    exact .inr ⟨below.1, rfl⟩
  case isFalse => exact .inl rfl

/-- A canonical path is kept under its own names, or under those that it has below `base`. -/
theorem toLocal_canonical {path base : Text} {target file : LocalPath}
    (canonical : IsCanonical path) (h : toLocal path base target = .ok file) :
    IsCanonical (strip base path) ∧
      file = { target with names := target.names ++ Text.splitOn '/' (strip base path) } := by
  have rest : IsCanonical (strip base path) := by
    rcases strip_cases base path with whole | ⟨-, below⟩
    · rwa [whole]
    · rw [below] at canonical
      exact canonical.rest
  exact ⟨rest, rest.segments_eq ▸ (toLocal_segments h).2.2⟩

/-- A path that is left as proper names is kept under them. -/
theorem toLocal_of_isProper {path base : Text} (some : segments (strip base path) ≠ [])
    (proper : ∀ name ∈ segments (strip base path), IsProper name) (target : LocalPath) :
    toLocal path base target =
      .ok { target with names := target.names ++ segments (strip base path) } := by
  unfold strip at some proper ⊢
  unfold toLocal
  dsimp only
  generalize (if base ≠ [] ∧ Text.startsWith (base ++ ("/" : Text)) path = true then
    path.drop (base ++ ("/" : Text)).length else path) = rest at some proper ⊢
  have pieces : ∀ name ∈ segments rest, name ≠ [] ∧ '/' ∉ name := fun name mem =>
    ⟨(proper name mem).ne_nil, (proper name mem).no_slash⟩
  have plain : LocalPath.IsPlain ⟨.here, segments rest⟩ := (climbing_segments rest).pieces
  have inside : Text.dropLeading '/' (normalize rest) = spell .here (segments rest) :=
    dropLeading_spell _ some pieces
  have stays : ¬ (spell .here (segments rest) = dot ∨ spell .here (segments rest) = up ∨
      Text.startsWith "../" (spell .here (segments rest)) = true) := by
    rw [spell_here_refused_iff pieces]
    rintro (none | alone | ⟨more, climbs⟩)
    · exact some none
    · exact (proper dot (alone ▸ List.mem_cons_self)).ne_dot rfl
    · exact (proper up (climbs ▸ List.mem_cons_self)).ne_up rfl
  rw [not_or] at stays
  rw [inside, if_neg (not_or.mpr ⟨spell_ne_nil _ _, stays.1⟩), if_neg stays.2,
    LocalPath.appendText, LocalPath.ofText_spell_here plain some]
  rfl

/-- A file of the repository is kept below the target. -/
theorem below_of_toLocal {cwd : List Text} (proper : ∀ name ∈ cwd, IsProper name)
    {path base dir : Text} {file : LocalPath}
    (h : toLocal path base (LocalPath.ofText dir) = .ok file) :
    Below (absoluteNames (spell .root cwd) dir) (absoluteNames (spell .root cwd) file.text) := by
  obtain ⟨names, some, down, rfl⟩ := toLocal_eq_ok h
  obtain ⟨name, rest, rfl⟩ := List.exists_cons_of_ne_nil some
  rw [LocalPath.absoluteNames_append proper (LocalPath.isPlain_ofText dir) down,
    LocalPath.absoluteNames_ofText proper]
  exact ⟨name, rest, rfl⟩

/-- The containment check passes just what has all names of the directory in front, seen from the
root, and goes on after them. It passes every place that a file of the repository is kept at. -/
theorem contained_exactly {cwd : List Text} (proper : ∀ name ∈ cwd, IsProper name)
    (dir candidate : Text) :
    (checkContained (spell .root cwd) dir candidate = .ok () ↔
      absoluteNames (spell .root cwd) dir <+: absoluteNames (spell .root cwd) candidate ∧
        absoluteNames (spell .root cwd) dir ≠ absoluteNames (spell .root cwd) candidate) ∧
    ∀ path base file, toLocal path base (LocalPath.ofText dir) = .ok file →
      checkContained (spell .root cwd) dir file.text = .ok () := by
  constructor
  · rw [checkContained_iff proper, below_iff]
  · intro path base file kept
    rw [checkContained_iff proper]
    exact below_of_toLocal proper kept

/-- A directory under the root of two slashes, spelled with a detour, and names that begin with two
dots. -/
theorem contained_exactly_detour :
    let cwd : List Text := ["home"]
    let dir : Text := "//t/../..x"
    (∀ name ∈ cwd, IsProper name) ∧
      checkContained (spell .root cwd) dir "../..x/a/../b" = .ok () ∧
      checkContained (spell .root cwd) dir "../..x/a/.." ≠ .ok () ∧
      toLocal "flows/sub/..y.md" "flows" (LocalPath.ofText dir) =
        .ok (LocalPath.ofText "//t/../..x/sub/..y.md") ∧
      checkContained (spell .root cwd) dir (LocalPath.ofText "//t/../..x/sub/..y.md").text =
        .ok () := by
  intro cwd dir
  have proper : ∀ name ∈ cwd, IsProper name := by decide
  have kept : toLocal "flows/sub/..y.md" "flows" (LocalPath.ofText dir) =
      .ok (LocalPath.ofText "//t/../..x/sub/..y.md") := rfl
  refine ⟨proper, ?_, fun passes => ?_, kept, (contained_exactly proper dir []).2 _ _ _ kept⟩
  · exact (contained_exactly proper dir "../..x/a/../b").1.mpr (by decide)
  · exact absurd ((contained_exactly proper dir "../..x/a/..").1.mp passes).2 (by decide)

/-- One of two paths is the other one below a directory. -/
def Twins (base path other : Text) : Prop :=
  base ≠ [] ∧ (path = base ++ '/' :: other ∨ other = base ++ '/' :: path)

instance (base path other : Text) : Decidable (Twins base path other) :=
  inferInstanceAs
    (Decidable (base ≠ [] ∧ (path = base ++ '/' :: other ∨ other = base ++ '/' :: path)))

/-- Two canonical paths that are kept at one place are equal, or one of them is the other one below
`base`. -/
theorem eq_or_twins {cwd : List Text} (proper : ∀ name ∈ cwd, IsProper name) {base : Text}
    {target : LocalPath} (plain : target.IsPlain) {path other : Text} {file kept : LocalPath}
    (canonical : IsCanonical path) (h : toLocal path base target = .ok file)
    (canonical' : IsCanonical other) (h' : toLocal other base target = .ok kept)
    (same : absoluteNames (spell .root cwd) file.text = absoluteNames (spell .root cwd) kept.text) :
    path = other ∨ Twins base path other := by
  obtain ⟨rest, rfl⟩ := toLocal_canonical canonical h
  obtain ⟨rest', rfl⟩ := toLocal_canonical canonical' h'
  rw [LocalPath.absoluteNames_append proper plain rest.proper,
    LocalPath.absoluteNames_append proper plain rest'.proper] at same
  have stripped : strip base path = strip base other := by
    rw [← Text.joinWith_splitOn '/' (strip base path), List.append_cancel_left same,
      Text.joinWith_splitOn]
  rcases strip_cases base path with whole | ⟨some, below⟩ <;>
    rcases strip_cases base other with whole' | ⟨some', below'⟩
  · exact .inl (whole.symm.trans (stripped.trans whole'))
  · rw [← stripped, whole] at below'
    exact .inr ⟨some', .inr below'⟩
  · rw [stripped, whole'] at below
    exact .inr ⟨some, .inl below⟩
  · rw [stripped] at below
    exact .inl (below.trans below'.symm)

end RepoPath

end WorkflowInstall

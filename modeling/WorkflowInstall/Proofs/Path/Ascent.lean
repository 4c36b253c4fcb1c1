import WorkflowInstall.Proofs.Path.Canonical

/-!
# Paths that stay in a repository

A walk along a path begins in the root of a repository and must not go above it. A path whose normal
form does not climb never goes above the place where its walk begins, provided that it is relative.

## Main Definitions

* `RepoPath.walk?` — where a walk leads to, nowhere when it goes above the root
* `RepoPath.StaysInside` — a path never goes above the root

## Main Statements

* `RepoPath.walk?_append` — a walk along two rows of segments
* `RepoPath.walk?_of_climbless` — a walk goes where the normal form leads
* `RepoPath.walk?_of_checkInside` — what passes the check can be walked from every place
* `RepoPath.prefix_foldl_advance` — a part of a walk stays below the place where it begins

## Design Notes

In the normal form of a relative path a step up that nothing takes back stays at the front. In that
of an absolute path it is dropped, so the normal form of an absolute path tells nothing.
-/

namespace WorkflowInstall

open Path

namespace RepoPath

/-- Where a segment leads to from a place in a repository. Above the root there is nothing. -/
def descend? (location : List Text) (segment : Text) : Option (List Text) :=
  if segment = up ∧ location = [] then none else some (advance location segment)

/-- Where segments lead to from a place in a repository, nowhere when they go above the root. -/
def walk? (location segments : List Text) : Option (List Text) := segments.foldlM descend? location

/-- A path never goes above the root of the repository. -/
def StaysInside (path : Text) : Prop := (walk? [] (Text.splitOn '/' path)).isSome = true

instance (path : Text) : Decidable (StaysInside path) := inferInstanceAs (Decidable (_ = true))

theorem walk?_cons (location : List Text) (segment : Text) (rest : List Text) :
    walk? location (segment :: rest) =
      (descend? location segment).bind fun next => walk? next rest := List.foldlM_cons

/-- A walk along two rows of segments is a walk along one and then along the other. -/
theorem walk?_append (location segments more : List Text) :
    walk? location (segments ++ more) =
      (walk? location segments).bind fun next => walk? next more := List.foldlM_append

/-- A path in a directory is walked from where the directory is. -/
theorem staysInside_below {directory path : Text} {place : List Text}
    (there : walk? [] (Text.splitOn '/' directory) = some place)
    (further : (walk? place (Text.splitOn '/' path)).isSome = true) :
    StaysInside (directory ++ '/' :: path) := by
  rw [StaysInside, Text.splitOn_append_cons, walk?_append, there]
  exact further

/-! ## Paths whose normal form does not climb -/

/-- A step up at the bottom of what was walked stays there. -/
theorem getLast?_push_up {walked : List Text} (bottom : walked.getLast? = some up)
    (segment : Text) : (push false walked segment).getLast? = some up := by
  cases walked with
  | nil => exact absurd bottom (by simp)
  | cons last before =>
    rw [push]
    split
    · exact bottom
    split
    · split
      case isTrue => rwa [List.getLast?_cons_cons]
      case isFalse apart =>
        -- The name that is taken away is not the step up at the bottom.
        cases before with
        | nil => exact absurd (Option.some.inj bottom) apart
        | cons next more => rwa [List.getLast?_cons_cons] at bottom
    · rwa [List.getLast?_cons_cons]

theorem getLast?_foldl_push_up {segments walked : List Text}
    (bottom : walked.getLast? = some up) :
    (segments.foldl (push false) walked).getLast? = some up := by
  induction segments generalizing walked with
  | nil => exact bottom
  | cons segment rest ih => exact ih (getLast?_push_up bottom segment)

/-- When the segments do not climb out of where they begin, they lead to what is left of them when
they have been worked off. -/
theorem walk?_of_climbless {segments walked : List Text} (names : up ∉ walked)
    (climbless : (segments.foldl (push false) walked).getLast? ≠ some up) (base : List Text) :
    walk? (base ++ walked.reverse) segments =
      some (base ++ (segments.foldl (push false) walked).reverse) := by
  -- By induction on the segments, where `walked` holds the names that were walked since the base.
  induction segments generalizing walked with
  | nil => rfl
  | cons segment rest ih =>
    rw [List.foldl_cons] at climbless ⊢
    rw [walk?_cons]
    by_cases stays : segment = [] ∨ segment = dot
    · have same : push false walked segment = walked := by
        rw [push.eq_def, if_pos stays]
      have goes : ¬ (segment = up ∧ base ++ walked.reverse = []) := by
        rintro ⟨rfl, -⟩
        exact absurd stays (by decide)
      rw [same] at climbless ⊢
      rw [descend?, if_neg goes, advance, if_pos stays]
      exact ih names climbless
    by_cases climbs : segment = up
    · subst climbs
      cases walked with
      | nil =>
        -- This step up is never taken back.
        exact absurd (getLast?_foldl_push_up rfl) climbless
      | cons last before =>
        rw [List.mem_cons, not_or] at names
        have apart : last ≠ up := Ne.symm names.1
        have popped : push false (last :: before) up = before := by
          rw [push, if_neg stays, if_pos rfl]
          exact if_neg apart
        have some : ¬ (up = up ∧ base ++ (last :: before).reverse = []) := by simp
        have above : advance (base ++ (last :: before).reverse) up = base ++ before.reverse := by
          rw [advance, if_neg stays, if_pos rfl, List.reverse_cons, ← List.append_assoc,
            List.dropLast_concat]
        rw [popped] at climbless ⊢
        rw [descend?, if_neg some, above]
        exact ih names.2 climbless
    · have pushed : push false walked segment = segment :: walked := by
        rw [push.eq_def, if_neg stays, if_neg climbs]
      have goes : ¬ (segment = up ∧ base ++ walked.reverse = []) := fun both => climbs both.1
      have below : advance (base ++ walked.reverse) segment =
          base ++ (segment :: walked).reverse := by
        rw [advance, if_neg stays, if_neg climbs, List.reverse_cons, List.append_assoc]
      have fresh : up ∉ segment :: walked := by
        rw [List.mem_cons, not_or]
        exact ⟨Ne.symm climbs, names⟩
      rw [pushed] at climbless ⊢
      rw [descend?, if_neg goes, below]
      exact ih fresh climbless

/-- The spelling of names that begin with a step up is refused. -/
theorem checkInside_spell_up {rest : List Text} (full : ∀ name ∈ rest, name ≠ []) :
    checkInside (spell .here (up :: rest)) ≠ .ok () := by
  have whole : ∀ name ∈ up :: rest, name ≠ [] := by
    intro name mem
    rcases List.mem_cons.mp mem with rfl | mem
    · exact List.cons_ne_nil _ _
    · exact full name mem
  intro passes
  refine checkInside_eq_ok.mp passes ?_
  rw [spell_here (List.cons_ne_nil up rest) whole]
  cases rest with
  | nil => exact Or.inl rfl
  | cons name more => exact Or.inr rfl

/-- A relative path whose normal form passes the check can be walked from every place, and it never
goes above that place. -/
theorem walk?_of_checkInside {path : Text} (relative : isAbsolute path = false)
    (inside : checkInside (Path.normalize path) = .ok ()) (base : List Text) :
    walk? base (Text.splitOn '/' path) = some (base ++ segments path) := by
  have names : segments path = ((Text.splitOn '/' path).foldl (push false) []).reverse := by
    rw [segments, isRooted_ofText, relative, resolve]
  have climbless : ((Text.splitOn '/' path).foldl (push false) []).getLast? ≠ some up := by
    intro bottom
    rw [← List.head?_reverse, ← names] at bottom
    obtain ⟨rest, climbs⟩ := List.head?_eq_some_iff.mp bottom
    have pieces := (climbing_segments path).pieces
    rw [climbs] at pieces
    rw [Path.normalize, ofText_relative relative, climbs] at inside
    refine checkInside_spell_up (fun name mem => ?_) inside
    exact (pieces name (List.mem_cons_of_mem up mem)).1
  rw [names]
  have walked := walk?_of_climbless List.not_mem_nil climbless base
  rwa [List.reverse_nil, List.append_nil] at walked

/-! ## What a walk passes -/

/-- Empty segments and dots do not matter. -/
theorem walk?_filter (location segments : List Text) :
    walk? location (segments.filter fun s => s ≠ [] ∧ s ≠ dot) = walk? location segments := by
  induction segments generalizing location with
  | nil => rfl
  | cons segment rest ih =>
    by_cases stays : segment = [] ∨ segment = dot
    · have goes : descend? location segment = some location := by
        rw [descend?, advance, if_pos stays, if_neg]
        rintro ⟨rfl, -⟩
        exact absurd stays (by decide)
      rw [List.filter_cons_of_neg (by simpa using Or.resolve_left stays), walk?_cons, goes]
      exact ih location
    · rw [List.filter_cons_of_pos (by simpa [not_or] using stays), walk?_cons, walk?_cons]
      cases descend? location segment with
      | none => rfl
      | some next => exact ih next

theorem descend?_below {location next : List Text} {segment : Text} (base : List Text)
    (h : descend? location segment = some next) :
    descend? (base ++ location) segment = some (base ++ next) := by
  unfold descend? at h
  split at h
  case isTrue => exact nomatch h
  case isFalse goes =>
  rw [← Option.some.inj h]
  have further : ¬ (segment = up ∧ base ++ location = []) := fun above =>
    goes ⟨above.1, (List.append_eq_nil_iff.mp above.2).2⟩
  rw [descend?, if_neg further, advance, advance]
  split
  · rfl
  split
  case isTrue climbs =>
    rw [List.dropLast_append_of_ne_nil fun bottom => goes ⟨climbs, bottom⟩]
  case isFalse => rw [List.append_assoc]

/-- A walk from a place is the same walk from the same place below another one. -/
theorem walk?_below {location segments reached : List Text} (base : List Text)
    (h : walk? location segments = some reached) :
    walk? (base ++ location) segments = some (base ++ reached) := by
  induction segments generalizing location with
  | nil => rw [Option.some.inj h]; rfl
  | cons segment rest ih =>
    rw [walk?_cons] at h ⊢
    obtain ⟨next, descends, walked⟩ := Option.bind_eq_some_iff.mp h
    rw [descend?_below base descends]
    exact ih walked

theorem foldl_advance_of_walk? {location segments reached : List Text}
    (h : walk? location segments = some reached) : segments.foldl advance location = reached := by
  induction segments generalizing location with
  | nil => exact Option.some.inj h
  | cons segment rest ih =>
    rw [walk?_cons] at h
    obtain ⟨next, descends, walked⟩ := Option.bind_eq_some_iff.mp h
    have goes : advance location segment = next := by
      unfold descend? at descends
      split at descends
      · exact nomatch descends
      · exact Option.some.inj descends
    rw [List.foldl_cons, goes]
    exact ih walked

/-- Every part of a walk that never goes above its beginning leads to a place below that. -/
theorem prefix_foldl_advance {front segments : List Text} (is_front : front <+: segments)
    (inside : (walk? [] segments).isSome = true) (base : List Text) :
    base <+: front.foldl advance base := by
  obtain ⟨rest, rfl⟩ := is_front
  obtain ⟨reached, walked⟩ := Option.isSome_iff_exists.mp inside
  rw [walk?_append] at walked
  obtain ⟨middle, passed, -⟩ := Option.bind_eq_some_iff.mp walked
  have below := walk?_below base passed
  rw [List.append_nil] at below
  rw [foldl_advance_of_walk? below]
  exact List.prefix_append base middle

end RepoPath

end WorkflowInstall

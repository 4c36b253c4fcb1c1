import WorkflowInstall.Proofs.Path.Segments

/-!
# Containment

The containment check looks at spellings only. It passes exactly the paths whose names from the root
begin with those of the directory and go on, and the places that imports are kept at pass it.

## Main Definitions

* `Path.Below` — a place strictly below a directory
* `Path.Climbing` — names after some steps up
* `RepoPath.strip` — what is left of a path below a directory

## Main Statements

* `Path.checkContained_iff` — the check passes exactly what lies below
* `RepoPath.toLocal_eq_ok` — where an import is kept
-/

namespace WorkflowInstall

namespace Path

/-- A place lies strictly below a directory, both given by their names from the root. -/
def Below (directory place : List Text) : Prop :=
  ∃ name rest, place = directory ++ name :: rest

/-! ## Steps between places -/

theorem steps_append (directory rest : List Text) : steps directory (directory ++ rest) = rest := by
  induction directory with
  | nil => cases rest <;> rfl
  | cons name more ih => rw [List.cons_append, steps, if_pos rfl, ih]

/-- The way to a place that is not below begins with a step up. -/
theorem steps_of_not_prefix {directory place : List Text} (h : ¬ directory <+: place) :
    ∃ rest, steps directory place = up :: rest ∧ ∀ name ∈ rest, name = up ∨ name ∈ place := by
  induction directory generalizing place with
  | nil => exact absurd List.nil_prefix h
  | cons a directory ih =>
    cases place with
    | nil =>
      -- The place is above, so all that is left of the directory is climbed out of.
      refine ⟨List.replicate directory.length up, rfl, ?_⟩
      intro name mem
      exact Or.inl (List.eq_of_mem_replicate mem)
    | cons b place =>
      by_cases same : a = b
      · subst same
        have apart : ¬ directory <+: place := by
          intro front
          exact h (List.cons_prefix_cons.mpr ⟨rfl, front⟩)
        obtain ⟨rest, begins, from_place⟩ := ih apart
        refine ⟨rest, by rw [steps, if_pos rfl, begins], ?_⟩
        intro name mem
        exact (from_place name mem).imp id (List.mem_cons_of_mem a)
      · refine ⟨List.replicate directory.length up ++ b :: place, ?_, ?_⟩
        · rw [steps, if_neg same, List.replicate_succ, List.cons_append]
        · intro name mem
          rcases List.mem_append.mp mem with mem | mem
          · exact Or.inl (List.eq_of_mem_replicate mem)
          · exact Or.inr mem

/-! ## Spellings that are refused -/

/-- A row of names is spelled as a dot, or as a way that begins with a step up, only when it is
such a row. -/
theorem spell_here_refused_iff {names : List Text}
    (pieces : ∀ name ∈ names, name ≠ [] ∧ '/' ∉ name) :
    (spell .here names = dot ∨ spell .here names = up ∨
        Text.startsWith "../" (spell .here names) = true) ↔
      names = [] ∨ names = [dot] ∨ ∃ rest, names = up :: rest := by
  have clean : ∀ name ∈ names, '/' ∉ name := by
    intro name mem
    exact (pieces name mem).2
  have full : ∀ name ∈ names, name ≠ [] := by
    intro name mem
    exact (pieces name mem).1
  constructor
  · intro refused
    by_cases none : names = []
    · exact Or.inl none
    rw [spell_here none full] at refused
    -- The names are read back from the spelling.
    have back : Text.splitOn '/' (Text.joinWith "/" names) = names :=
      Text.splitOn_joinWith none clean
    rcases refused with equal | equal | front
    · rw [equal] at back
      exact Or.inr (Or.inl back.symm)
    · rw [equal] at back
      exact Or.inr (Or.inr ⟨[], back.symm⟩)
    · obtain ⟨rest, begins⟩ := List.isPrefixOf_iff_prefix.mp front
      rw [← begins, show ("../" : Text) ++ rest = up ++ '/' :: rest from rfl,
        Text.splitOn_append_cons] at back
      exact Or.inr (Or.inr ⟨_, back.symm⟩)
  · rintro (rfl | rfl | ⟨rest, rfl⟩)
    · exact Or.inl rfl
    · exact Or.inl rfl
    · rw [spell_here (List.cons_ne_nil up rest) full]
      cases rest with
      | nil => exact Or.inr (Or.inl rfl)
      | cons name more => exact Or.inr (Or.inr rfl)

section Check

variable {cwd : List Text} (proper : ∀ name ∈ cwd, IsProper name)
include proper

/-- The containment check passes exactly what lies strictly below the directory. -/
theorem checkContained_iff (directory path : Text) :
    checkContained (spell .root cwd) directory path = .ok () ↔
      Below (absoluteNames (spell .root cwd) directory)
        (absoluteNames (spell .root cwd) path) := by
  have goal := absoluteNames_isProper proper path
  rw [checkContained, relative, absoluteNames_absolute proper, absoluteNames_absolute proper]
  generalize absoluteNames (spell .root cwd) directory = outer
  generalize absoluteNames (spell .root cwd) path = inner at goal
  by_cases front : outer <+: inner
  · -- The way leads down, and it is refused only when it is empty.
    obtain ⟨rest, rfl⟩ := front
    have names : ∀ name ∈ rest, IsProper name := by
      intro name mem
      exact goal name (List.mem_append_right outer mem)
    have refused := spell_here_refused_iff fun name mem =>
      ⟨(names name mem).ne_nil, (names name mem).no_slash⟩
    rw [steps_append]
    cases rest with
    | nil =>
      rw [if_pos (refused.mpr (Or.inl rfl))]
      refine ⟨fun h => absurd h (by simp), ?_⟩
      rintro ⟨name, more, equal⟩
      simp at equal
    | cons name more =>
      have first := names name List.mem_cons_self
      rw [if_neg]
      · exact ⟨fun _ => ⟨name, more, rfl⟩, fun _ => rfl⟩
      · intro h
        rcases refused.mp h with none | alone | ⟨rest, climbs⟩
        · exact List.cons_ne_nil name more none
        · exact first.ne_dot (List.cons.inj alone).1
        · exact first.ne_up (List.cons.inj climbs).1
  · -- The way begins with a step up, and it is refused for that.
    obtain ⟨rest, climbs, names⟩ := steps_of_not_prefix front
    rw [climbs]
    have pieces : ∀ name ∈ up :: rest, name ≠ [] ∧ '/' ∉ name := by
      intro name mem
      have either : name = up ∨ name ∈ inner := by
        rcases List.mem_cons.mp mem with rfl | mem
        · exact Or.inl rfl
        · exact names name mem
      rcases either with rfl | mem
      · exact ⟨by decide, by decide⟩
      · exact ⟨(goal name mem).ne_nil, (goal name mem).no_slash⟩
    rw [if_pos ((spell_here_refused_iff pieces).mpr (Or.inr (Or.inr ⟨rest, rfl⟩)))]
    refine ⟨fun h => absurd h (by simp), ?_⟩
    rintro ⟨name, more, rfl⟩
    exact absurd (List.prefix_append outer (name :: more)) front

end Check

/-! ## Normal relative paths -/

/-- Names after some steps up. -/
def Climbing (names : List Text) : Prop :=
  ∃ climbs inside, names = List.replicate climbs up ++ inside ∧ ∀ name ∈ inside, IsProper name

theorem Climbing.pieces {names : List Text} (h : Climbing names) :
    ∀ name ∈ names, name ≠ [] ∧ name ≠ dot ∧ '/' ∉ name := by
  obtain ⟨climbs, inside, rfl, proper⟩ := h
  intro name mem
  rcases List.mem_append.mp mem with mem | mem
  · rw [List.eq_of_mem_replicate mem]
    exact ⟨by decide, by decide, by decide⟩
  · exact ⟨(proper name mem).ne_nil, (proper name mem).ne_dot, (proper name mem).no_slash⟩

/-- Climbing names are the segments of their spelling. -/
theorem Climbing.splitOn_spell {names : List Text} (h : Climbing names) (some : names ≠ []) :
    Text.splitOn '/' (spell .here names) = names :=
  splitOn_spell_here some (fun name mem => (h.pieces name mem).1) fun name mem =>
    (h.pieces name mem).2.2

/-- Climbing names that do not begin with a step up are proper. -/
theorem Climbing.isProper {names : List Text} (h : Climbing names)
    (first : ¬ ∃ rest, names = up :: rest) : ∀ name ∈ names, IsProper name := by
  obtain ⟨climbs, inside, rfl, proper⟩ := h
  cases climbs with
  | zero => simpa using proper
  | succ climbs => exact absurd ⟨_, by rw [List.replicate_succ, List.cons_append]⟩ first

theorem Climbing.push {walked : List Text} (h : Climbing walked.reverse) {segment : Text}
    (piece : '/' ∉ segment) : Climbing (Path.push false walked segment).reverse := by
  rw [Path.push.eq_def]
  split
  case isTrue => exact h
  case isFalse goes =>
    rw [not_or] at goes
    split
    case isFalse names =>
      obtain ⟨climbs, inside, split, proper⟩ := h
      refine ⟨climbs, inside ++ [segment], by rw [List.reverse_cons, split, List.append_assoc], ?_⟩
      intro name mem
      rcases List.mem_append.mp mem with mem | mem
      · exact proper name mem
      · rw [List.mem_singleton.mp mem]
        exact ⟨goes.1, goes.2, names, piece⟩
    case isTrue =>
      obtain ⟨climbs, inside, split, proper⟩ := h
      cases walked with
      | nil => exact ⟨1, [], rfl, fun _ mem => absurd mem List.not_mem_nil⟩
      | cons last before =>
        dsimp only
        rw [List.reverse_cons] at split
        rcases List.eq_nil_or_concat inside with rfl | ⟨front, name, rfl⟩
        · -- Only steps up were walked, so one more is remembered.
          rw [List.append_nil] at split
          have last_up : last = up := List.eq_of_mem_replicate
            (split ▸ List.mem_append_right before.reverse (List.mem_singleton.mpr rfl))
          refine ⟨climbs + 1, [], ?_, fun _ mem => absurd mem List.not_mem_nil⟩
          rw [if_pos last_up, List.reverse_cons, List.reverse_cons, split, List.append_nil,
            List.replicate_succ']
        · -- The last name that was walked is proper, and the step up takes it away.
          rw [List.concat_eq_append] at split proper
          rw [← List.append_assoc] at split
          obtain ⟨same, last_eq⟩ := List.append_inj' split rfl
          rw [List.singleton_inj] at last_eq
          subst last_eq
          have is_proper := proper last (by simp)
          rw [if_neg is_proper.ne_up]
          exact ⟨climbs, front, same, fun other mem => proper other (List.mem_append_left _ mem)⟩

theorem climbing_resolve {segments : List Text} (pieces : ∀ segment ∈ segments, '/' ∉ segment) :
    Climbing (resolve false segments) := by
  have walk : ∀ (segments walked : List Text), (∀ segment ∈ segments, '/' ∉ segment) →
      Climbing walked.reverse → Climbing (segments.foldl (Path.push false) walked).reverse := by
    intro segments
    induction segments with
    | nil => exact fun _ _ h => h
    | cons segment rest ih =>
      intro walked pieces h
      exact ih _ (fun other mem => pieces other (List.mem_cons_of_mem segment mem))
        (h.push (pieces segment List.mem_cons_self))
  exact walk segments [] pieces ⟨0, [], rfl, fun _ mem => absurd mem List.not_mem_nil⟩

/-- The names of a normal path are steps up and proper names; a rooted one has no steps up. -/
theorem climbing_segments (path : Text) : Climbing (segments path) := by
  unfold segments
  cases rooted : (Anchor.ofText path).isRooted with
  | false => exact climbing_resolve (slash_notMem_splitOn path)
  | true =>
    refine ⟨0, _, (List.nil_append _).symm, ?_⟩
    rw [resolve_rooted (slash_notMem_splitOn path)]
    exact foldl_advance_isProper (slash_notMem_splitOn path)
      fun _ mem => absurd mem List.not_mem_nil

/-- A spelling without the slashes at its front: the names alone. -/
theorem dropLeading_spell (anchor : Anchor) {names : List Text} (some : names ≠ [])
    (pieces : ∀ name ∈ names, name ≠ [] ∧ '/' ∉ name) :
    Text.dropLeading '/' (spell anchor names) = spell .here names := by
  have full : ∀ name ∈ names, name ≠ [] := by
    intro name mem
    exact (pieces name mem).1
  rw [spell_here some full]
  obtain ⟨name, rest, rfl⟩ := List.exists_cons_of_ne_nil some
  obtain ⟨more, begins⟩ := Text.joinWith_cons_eq "/" name rest
  obtain ⟨first, clean⟩ := pieces name List.mem_cons_self
  obtain ⟨c, chars, rfl⟩ := List.exists_cons_of_ne_nil first
  have other : (c == '/') = false := beq_false_of_ne fun equal => clean (equal ▸ List.mem_cons_self)
  have stays : Text.dropLeading '/' (Text.joinWith "/" ((c :: chars) :: rest)) =
      Text.joinWith "/" ((c :: chars) :: rest) := by
    rw [begins, List.cons_append, Text.dropLeading, List.dropWhile_cons, other]
    rfl
  cases anchor with
  | here => rw [spell_here some full, stays]
  | root =>
    rw [spell_rooted rfl]
    exact stays
  | doubleRoot =>
    rw [spell_rooted rfl]
    exact stays

/-- A normal path without the slashes at its front is made of proper names, unless nothing is left
of it or it climbs. -/
theorem dropLeading_normalize {path : Text}
    (some : ¬ (Text.dropLeading '/' (normalize path) = [] ∨
      Text.dropLeading '/' (normalize path) = dot))
    (stays : ¬ (Text.dropLeading '/' (normalize path) = up ∨
      Text.startsWith "../" (Text.dropLeading '/' (normalize path)) = true)) :
    segments path ≠ [] ∧ (∀ name ∈ segments path, IsProper name) ∧
      Text.dropLeading '/' (normalize path) = spell .here (segments path) := by
  have climbing := climbing_segments path
  have pieces : ∀ name ∈ segments path, name ≠ [] ∧ '/' ∉ name := by
    intro name mem
    exact ⟨(climbing.pieces name mem).1, (climbing.pieces name mem).2.2⟩
  rw [normalize] at some stays ⊢
  have names : segments path ≠ [] := by
    intro none
    rw [none] at some
    cases anchor : Anchor.ofText path <;> rw [anchor] at some
    case here => exact some (Or.inr rfl)
    case root => exact some (Or.inl rfl)
    case doubleRoot => exact some (Or.inl rfl)
  have spelled := dropLeading_spell (Anchor.ofText path) names pieces
  rw [spelled] at stays
  have down : ¬ ∃ more, segments path = up :: more := by
    rintro ⟨more, climbs⟩
    rcases (spell_here_refused_iff pieces).mpr (Or.inr (Or.inr ⟨more, climbs⟩)) with equal | up
    · exact some (Or.inr (spelled.trans equal))
    · exact stays up
  exact ⟨names, climbing.isProper down, spelled⟩

end Path

namespace RepoPath

open Path

/-- A path without the directory `base` at its front, when it lies there. -/
def strip (base path : Text) : Text :=
  if base ≠ [] ∧ Text.startsWith (base ++ ("/" : Text)) path = true then
    path.drop (base ++ ("/" : Text)).length
  else path

/-- A file of the repository is kept under the names that it has below `base`. -/
theorem toLocal_segments {path base : Text} {target file : LocalPath}
    (h : toLocal path base target = .ok file) :
    segments (strip base path) ≠ [] ∧ (∀ name ∈ segments (strip base path), IsProper name) ∧
      file = { target with names := target.names ++ segments (strip base path) } := by
  rw [toLocal] at h
  unfold strip
  generalize (if base ≠ [] ∧ Text.startsWith (base ++ ("/" : Text)) path = true then
    path.drop (base ++ ("/" : Text)).length else path) = rest at h ⊢
  split at h
  case isTrue => exact absurd h (by simp)
  case isFalse some =>
    split at h
    case isTrue => exact absurd h (by simp)
    case isFalse stays =>
      obtain ⟨names, proper, spelled⟩ := dropLeading_normalize some stays
      have plain : LocalPath.IsPlain ⟨.here, segments rest⟩ := (climbing_segments rest).pieces
      refine ⟨names, proper, ?_⟩
      rw [spelled, LocalPath.appendText, LocalPath.ofText_spell_here plain names] at h
      exact (Except.ok.inj h).symm

/-- A file of the repository is kept below the target under proper names, or nowhere. -/
theorem toLocal_eq_ok {path base : Text} {target file : LocalPath}
    (h : toLocal path base target = .ok file) :
    ∃ names, names ≠ [] ∧ (∀ name ∈ names, IsProper name) ∧
      file = { target with names := target.names ++ names } := ⟨_, toLocal_segments h⟩

end RepoPath

end WorkflowInstall

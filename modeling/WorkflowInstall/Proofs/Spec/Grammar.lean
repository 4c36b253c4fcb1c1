import Mathlib.Data.List.TakeWhile
import WorkflowInstall.Proofs.Spec.Reading

/-!
# The grammar of remote specs

A text that is no local path is read when it matches a grammar: an owner, a repository and a path
of one or more segments, and a revision after the first `@`. Any other text is refused.

## Main Definitions

* `WorkflowSpec.IsSlugName` — a name of ASCII letters, digits and the marks `_`, `.` and `-`
* `WorkflowSpec.IsLooseName` — such a name, which a line feed may follow
* `WorkflowSpec.MatchesGrammar` — the grammar, with the names of owner and repository left open

## Main Statements

* `WorkflowSpec.isSlugPart_iff` — which owners and repositories are let through
* `WorkflowSpec.parse_ok_iff_grammar` — which texts are read

## Design Notes

A line feed at the end of an owner or a repository is let through, so the texts that are read match
the grammar with `WorkflowSpec.IsLooseName`. A text in which neither of the two ends in a line feed
is read just when it matches the grammar with `WorkflowSpec.IsSlugName`.
-/

namespace WorkflowInstall

namespace RepoPath

/-- A reference is cut at its first `@`: what stands before it, and what follows it. -/
theorem splitRef_eq (raw : Text) :
    splitRef raw = (raw.takeWhile (· != '@'), (raw.dropWhile (· != '@')).tail) := by
  have whole {path : Text} (clear : '@' ∉ path) : ∀ c ∈ path, (c != '@') = true := fun c mem =>
    bne_iff_ne.mpr fun mark => clear (mark ▸ mem)
  rcases splitRef_cases raw with ⟨clear, cut⟩ | ⟨path, version, clear, rfl, cut⟩
  · rw [cut, List.takeWhile_eq_self_iff.mpr (whole clear),
      List.dropWhile_eq_nil_iff.mpr (whole clear)]
    rfl
  · rw [cut, List.takeWhile_append_of_pos (whole clear), List.dropWhile_append_of_pos (whole clear)]
    simp

end RepoPath

namespace WorkflowSpec

/-! ## Names -/

/-- An ASCII letter or digit, or one of the marks `_`, `.` and `-`. -/
def IsSlugLetter (c : Char) : Prop :=
  ('A' ≤ c ∧ c ≤ 'Z') ∨ ('a' ≤ c ∧ c ≤ 'z') ∨ ('0' ≤ c ∧ c ≤ '9') ∨ c = '_' ∨ c = '.' ∨ c = '-'

instance (c : Char) : Decidable (IsSlugLetter c) := inferInstanceAs (Decidable (_ ∨ _))

/-- A name of an owner or a repository. -/
def IsSlugName (name : Text) : Prop := name ≠ [] ∧ ∀ c ∈ name, IsSlugLetter c

/-- A name that a line feed may follow. -/
def IsLooseName (part : Text) : Prop :=
  ∃ name, IsSlugName name ∧ (part = name ∨ part = name ++ "\n")

theorem isAlphanum_iff (c : Char) :
    c.isAlphanum = true ↔ ('A' ≤ c ∧ c ≤ 'Z') ∨ ('a' ≤ c ∧ c ≤ 'z') ∨ ('0' ≤ c ∧ c ≤ '9') := by
  have between {low high : Char} :
      (decide (low ≤ c) && decide (c ≤ high)) = true ↔ low ≤ c ∧ c ≤ high := by
    rw [Bool.and_eq_true, decide_eq_true_iff, decide_eq_true_iff]
  have upper : c.isUpper = true ↔ 'A' ≤ c ∧ c ≤ 'Z' := decide_eq_true_iff
  have lower : c.isLower = true ↔ 'a' ≤ c ∧ c ≤ 'z' := between
  have digit : c.isDigit = true ↔ '0' ≤ c ∧ c ≤ '9' := between
  rw [show c.isAlphanum = ((c.isUpper || c.isLower) || c.isDigit) from rfl, Bool.or_eq_true,
    Bool.or_eq_true, upper, lower, digit, or_assoc]

theorem isSlugChar_iff (c : Char) : isSlugChar c = true ↔ IsSlugLetter c := by
  simp only [isSlugChar, IsSlugLetter, Bool.or_eq_true, isAlphanum_iff, beq_iff_eq, or_assoc]

theorem not_isSlugLetter_lineFeed : ¬ IsSlugLetter '\n' := by decide

theorem all_isSlugChar_iff (name : Text) :
    (!name.isEmpty && name.all isSlugChar) = true ↔ IsSlugName name := by
  simp [IsSlugName, isSlugChar_iff]

/-- The owners and repositories that are let through are the names that a line feed may follow. -/
theorem isSlugPart_iff (part : Text) : isSlugPart part = true ↔ IsLooseName part := by
  unfold isSlugPart IsLooseName
  dsimp only
  split
  case isTrue ends =>
    obtain ⟨name, rfl⟩ := List.isSuffixOf_iff_suffix.mp ends
    rw [all_isSlugChar_iff, show (name ++ ("\n" : Text)).dropLast = name from List.dropLast_concat]
    constructor
    · exact fun is_name => ⟨name, is_name, .inr rfl⟩
    · rintro ⟨other, is_name, rfl | same⟩
      · exact absurd (is_name.2 '\n' (by simp)) not_isSlugLetter_lineFeed
      · rwa [List.append_cancel_right same]
  case isFalse open_end =>
    rw [all_isSlugChar_iff]
    constructor
    · exact fun is_name => ⟨part, is_name, .inl rfl⟩
    · rintro ⟨other, is_name, rfl | rfl⟩
      · exact is_name
      · exact absurd (List.isSuffixOf_iff_suffix.mpr ⟨other, rfl⟩) open_end

/-- A part that does not end in a line feed is let through just when it is a name. -/
theorem isLooseName_iff_of_not_suffix {part : Text} (open_end : ¬ ['\n'] <:+ part) :
    IsLooseName part ↔ IsSlugName part := by
  constructor
  · rintro ⟨name, is_name, rfl | rfl⟩
    · exact is_name
    · exact absurd ⟨name, rfl⟩ open_end
  · exact fun is_name => ⟨part, is_name, .inl rfl⟩

/-! ## The grammar -/

/-- The segments of the path, which ends before the first `@`. -/
def segmentsOf (raw : Text) : List Text := Text.splitOn '/' (raw.takeWhile (· != '@'))

/-- There are at least three segments before the first `@` and none is empty, the first two are
names, and something follows the `@` if there is one. -/
def MatchesGrammar (IsName : Text → Prop) (raw : Text) : Prop :=
  ∃ owner repo first more, segmentsOf raw = owner :: repo :: first :: more ∧
    (∀ segment ∈ owner :: repo :: first :: more, segment ≠ []) ∧ IsName owner ∧ IsName repo ∧
    ('@' ∈ raw → (raw.dropWhile (· != '@')).tail ≠ [])

theorem MatchesGrammar.congr {IsName IsOther : Text → Prop} {raw : Text}
    (same : ∀ part ∈ (segmentsOf raw).take 2, IsName part ↔ IsOther part) :
    MatchesGrammar IsName raw ↔ MatchesGrammar IsOther raw := by
  refine exists_congr fun owner => exists_congr fun repo => exists_congr fun first =>
    exists_congr fun more => and_congr_right fun segments => and_congr_right fun _ => ?_
  rw [segments] at same
  rw [same owner (by simp), same repo (by simp)]

/-- A text is taken apart just when it matches the grammar with names that a line feed may
follow. -/
theorem parseRemote_ok_iff_grammar (raw : Text) :
    (∃ spec, parseRemote raw = .ok spec) ↔ MatchesGrammar IsLooseName raw := by
  unfold MatchesGrammar segmentsOf
  constructor
  · rintro ⟨spec, parsed⟩
    obtain ⟨owner, repo, first, more, cut, owner_part, repo_part, -⟩ :=
      parseRemote_eq_ok_iff.mp parsed
    obtain ⟨segments, full, version⟩ := cut
    rw [RepoPath.splitRef_eq] at segments version
    exact ⟨owner, repo, first, more, segments, full, (isSlugPart_iff owner).mp owner_part,
      (isSlugPart_iff repo).mp repo_part, version⟩
  · rintro ⟨owner, repo, first, more, segments, full, owner_name, repo_name, version⟩
    refine ⟨ofCut raw owner repo first more, parseRemote_eq_ok_iff.mpr ⟨owner, repo, first, more,
      ⟨?_, full, ?_⟩, (isSlugPart_iff owner).mpr owner_name, (isSlugPart_iff repo).mpr repo_name,
      rfl⟩⟩
    · rwa [RepoPath.splitRef_eq]
    · rwa [RepoPath.splitRef_eq]

/-- Taking a text apart does not look at accounts. -/
theorem parseRemote_error_ne {raw : Text} {problem : SpecProblem}
    (h : parseRemote raw = .error problem) :
    problem ≠ .nulInAccount ∧ ∀ part, problem ≠ .unencodableAccount part := by
  unfold parseRemote at h
  dsimp only at h
  split at h
  case isTrue => exact Except.error.inj h ▸ ⟨nofun, nofun⟩
  case isFalse =>
  split at h
  case h_2 => exact Except.error.inj h ▸ ⟨nofun, nofun⟩
  case h_1 =>
  split at h
  case isTrue => exact Except.error.inj h ▸ ⟨nofun, nofun⟩
  case isFalse =>
  split at h
  case isTrue => exact nomatch h
  case isFalse => exact Except.error.inj h ▸ ⟨nofun, nofun⟩

/-- A text that is no local path is read just when it matches the grammar, in which a line feed may
follow the names of owner and repository. Any other text is refused as a bad spec that holds it. -/
theorem parse_ok_iff_grammar (homes : Homes) (text : Text)
    (remote : isLocalPath (Text.trim text) = false) :
    let raw := Text.trim text
    ((∃ spec, parse homes text = .ok spec) ↔ MatchesGrammar IsLooseName raw) ∧
      ((∀ part ∈ (segmentsOf raw).take 2, ¬ ['\n'] <:+ part) →
        ((∃ spec, parse homes text = .ok spec) ↔ MatchesGrammar IsSlugName raw)) ∧
      ∀ failure, parse homes text = .error failure →
        failure.spec = text ∧ failure.problem ≠ .nulInAccount ∧
          ∀ part, failure.problem ≠ .unencodableAccount part := by
  intro raw
  have accepted : (∃ spec, parse homes text = .ok spec) ↔ MatchesGrammar IsLooseName raw := by
    rw [← parseRemote_ok_iff_grammar]
    exact exists_congr fun spec => parse_eq_ok_of_not_local remote
  refine ⟨accepted, fun open_ends => ?_, fun failure refused => ?_⟩
  · rw [accepted]
    exact MatchesGrammar.congr fun part mem => isLooseName_iff_of_not_suffix (open_ends part mem)
  · rw [parse_of_not_local homes remote] at refused
    split at refused
    case isTrue =>
      obtain rfl := Except.error.inj refused
      exact ⟨rfl, nofun, nofun⟩
    case isFalse =>
      cases parsed : parseRemote raw with
      | ok spec => exact nomatch parsed ▸ refused
      | error problem =>
        rw [show Text.trim text = raw from rfl, parsed] at refused
        obtain rfl := Except.error.inj refused
        exact ⟨rfl, parseRemote_error_ne parsed⟩

/-- A revision with an `@` and slashes of its own is read. -/
theorem parse_ok_revision :
    isLocalPath (Text.trim " o/r/a b.md@x@y/z ") = false ∧
      ∃ spec, parse ⟨none, []⟩ " o/r/a b.md@x@y/z " = .ok spec := by
  have remote : isLocalPath (Text.trim " o/r/a b.md@x@y/z ") = false := by decide +kernel
  have segments : segmentsOf (Text.trim " o/r/a b.md@x@y/z ") = ["o", "r", "a b.md"] := by
    decide +kernel
  refine ⟨remote, (parse_ok_iff_grammar ⟨none, []⟩ _ remote).1.mpr
    ⟨"o", "r", "a b.md", [], segments, by decide, ?_, ?_, fun _ => by decide +kernel⟩⟩
  · exact ⟨"o", (all_isSlugChar_iff "o").mp (by decide), .inl rfl⟩
  · exact ⟨"r", (all_isSlugChar_iff "r").mp (by decide), .inl rfl⟩

/-- An owner that ends in a line feed is let through, though a line feed is no character of a
name. -/
theorem not_grammar :
    isLocalPath (Text.trim "o\n/r/p") = false ∧
      parse ⟨none, []⟩ "o\n/r/p" = .ok ⟨"o\n/r", [], "p", "p"⟩ ∧
      ¬ MatchesGrammar IsSlugName (Text.trim "o\n/r/p") := by
  refine ⟨by decide +kernel, by decide +kernel, ?_⟩
  rintro ⟨owner, repo, first, more, segments, -, is_name, -⟩
  have cut : segmentsOf (Text.trim "o\n/r/p") = ["o\n", "r", "p"] := by decide +kernel
  obtain rfl : ("o\n" : Text) = owner := (List.cons.inj (cut.symm.trans segments)).1
  exact not_isSlugLetter_lineFeed (is_name.2 '\n' (by decide))

end WorkflowSpec

end WorkflowInstall

import WorkflowInstall.Proofs.Path.Section
import WorkflowInstall.Spec

/-!
# How a spec is read

A text is read as a local path, or it is cut at its first `@` and at the slashes before it.

## Main Statements

* `RepoPath.splitRef_cases` — a text has no `@`, or it is cut at the first one
* `WorkflowSpec.parseRemote_eq_ok_iff` — when a text names a repository, and what it is read as
* `WorkflowSpec.parse_cases` — a text is read as a local path, or it is taken apart
* `WorkflowSpec.slug_eq_nil_iff` — the texts that are read as a local path
* `WorkflowSpec.slug_of_parse` — how any other text is taken apart
-/

namespace WorkflowInstall

namespace RepoPath

/-- A text has no `@`, or it is cut at the first one. -/
theorem splitRef_cases (raw : Text) :
    '@' ∉ raw ∧ splitRef raw = (raw, []) ∨
      ∃ path version, '@' ∉ path ∧ raw = path ++ '@' :: version ∧
        splitRef raw = (path, version) := by
  unfold splitRef
  rcases Text.cutAt_cases '@' raw with ⟨clear, cut⟩ | ⟨path, version, clear, same, cut⟩
  · rw [cut]
    exact .inl ⟨clear, rfl⟩
  · rw [cut]
    exact .inr ⟨path, version, clear, same, rfl⟩

end RepoPath

namespace WorkflowSpec

/-- Owner and repository are what stands before and after the first slash of a slug. -/
theorem ownerAndRepo?_eq_some {owner repo : Text} (named : owner ≠ []) (there : repo ≠ [])
    (clear : '/' ∉ owner) : ownerAndRepo? (owner ++ "/" ++ repo) = some (owner, repo) := by
  have cut : Text.cutAt '/' (owner ++ "/" ++ repo) = (owner, some repo) := by
    rw [List.append_assoc]
    exact Text.cutAt_append clear repo
  rw [ownerAndRepo?, cut]
  refine if_neg fun empty => ?_
  rw [Bool.or_eq_true, List.isEmpty_iff, List.isEmpty_iff] at empty
  exact empty.elim named there

/-- A text is cut into an owner, a repository and the segments of a path, with a revision after its
first `@` if there is one. -/
structure IsCut (raw owner repo first : Text) (more : List Text) : Prop where
  segments : Text.splitOn '/' (RepoPath.splitRef raw).1 = owner :: repo :: first :: more
  full : ∀ segment ∈ owner :: repo :: first :: more, segment ≠ []
  version : '@' ∈ raw → (RepoPath.splitRef raw).2 ≠ []

/-- What a text that is cut is read as. -/
def ofCut (raw owner repo first : Text) (more : List Text) : WorkflowSpec :=
  let path := Text.joinWith "/" (first :: more)
  ⟨owner ++ "/" ++ repo, (RepoPath.splitRef raw).2, path, nameOfPath path⟩

/-- A text names a repository when it is cut into segments of which the first two are slug parts. -/
theorem parseRemote_eq_ok_iff {raw : Text} {spec : WorkflowSpec} :
    parseRemote raw = .ok spec ↔ ∃ owner repo first more, IsCut raw owner repo first more ∧
      isSlugPart owner = true ∧ isSlugPart repo = true ∧
        spec = ofCut raw owner repo first more := by
  have any_empty (pieces : List Text) :
      pieces.any List.isEmpty = true ↔ ¬ ∀ segment ∈ pieces, segment ≠ [] := by
    simp
  unfold parseRemote
  constructor
  case mp =>
    intro h
    dsimp only at h
    split at h
    case isTrue => exact nomatch h
    case isFalse version =>
    split at h
    case h_2 => exact nomatch h
    case h_1 owner repo first more pieces =>
    split at h
    case isTrue => exact nomatch h
    case isFalse full =>
    split at h
    case isFalse => exact nomatch h
    case isTrue slug =>
    obtain rfl := Except.ok.inj h
    rw [any_empty, not_not] at full
    rw [Bool.and_eq_true] at slug
    refine ⟨owner, repo, first, more, ⟨pieces, full, fun mem empty => version ?_⟩, slug.1, slug.2,
      rfl⟩
    simp [mem, empty]
  case mpr =>
    rintro ⟨owner, repo, first, more, ⟨segments, full, version⟩, owner_part, repo_part, rfl⟩
    dsimp only
    rw [if_neg (by simpa using version), segments]
    dsimp only
    rw [if_neg (by rw [any_empty, not_not]; exact full), owner_part, repo_part]
    rfl

/-- A text that is no local path is taken apart into owner, repository, path and revision. -/
theorem parseRemote_eq_ok {raw : Text} {spec : WorkflowSpec} (h : parseRemote raw = .ok spec) :
    ∃ owner repo, spec.slug = owner ++ "/" ++ repo ∧
      ownerAndRepo? spec.slug = some (owner, repo) ∧
      RepoPath.splitRef raw = (owner ++ "/" ++ repo ++ "/" ++ spec.path, spec.version) := by
  obtain ⟨owner, repo, first, more, cut, -, -, rfl⟩ := parseRemote_eq_ok_iff.mp h
  have clear : '/' ∉ owner := Text.not_mem_of_mem_splitOn (cut.segments ▸ List.mem_cons_self)
  refine ⟨owner, repo, rfl, ?_, ?_⟩
  · exact ownerAndRepo?_eq_some (cut.full owner (by simp)) (cut.full repo (by simp)) clear
  · have path := Text.joinWith_splitOn '/' (RepoPath.splitRef raw).1
    rw [cut.segments] at path
    refine Prod.ext ?_ rfl
    rw [← path]
    simp only [Text.joinWith, ofCut, List.append_assoc]
    rfl

/-- What a local path is read as. -/
def ofLocal (path : Text) : WorkflowSpec := ⟨[], [], path, nameOfPath path⟩

/-- A local path is read with its home directory written out, unless the account cannot be one. -/
theorem parse_of_local (homes : Homes) {text : Text}
    (path : isLocalPath (Text.trim text) = true) :
    parse homes text =
      match accountProblem? (accountOf (Text.trim text)) with
      | some problem => .error ⟨problem, text⟩
      | none => .ok (ofLocal (homes.expand (Text.trim text))) := by
  have some : Text.trim text ≠ [] := by
    intro empty
    rw [empty] at path
    exact absurd path (by decide)
  unfold parse
  dsimp only
  rw [if_neg (by rwa [List.isEmpty_iff]), if_pos path]
  rfl

/-- Any other text is taken apart, unless nothing is left of it. -/
theorem parse_of_not_local (homes : Homes) {text : Text}
    (path : isLocalPath (Text.trim text) = false) :
    parse homes text =
      if Text.trim text = [] then .error ⟨.empty, text⟩
      else (parseRemote (Text.trim text)).mapError fun problem => ⟨problem, text⟩ := by
  unfold parse
  dsimp only
  rw [path, if_neg Bool.false_ne_true]
  simp only [List.isEmpty_iff]

/-- A text that is no local path is read as what it is taken apart into. -/
theorem parse_eq_ok_of_not_local {homes : Homes} {text : Text} {spec : WorkflowSpec}
    (path : isLocalPath (Text.trim text) = false) :
    parse homes text = .ok spec ↔ parseRemote (Text.trim text) = .ok spec := by
  rw [parse_of_not_local homes path]
  split
  case isTrue empty =>
    have never : parseRemote [] ≠ .ok spec := by simp [parseRemote, RepoPath.splitRef, Text.cutAt,
      Text.splitOn]
    rw [empty]
    exact iff_of_false (by rintro ⟨⟩) never
  case isFalse =>
    cases parseRemote (Text.trim text) with
    | error problem => exact iff_of_false (by rintro ⟨⟩) (by rintro ⟨⟩)
    | ok other =>
      show Except.ok other = Except.ok spec ↔ _
      rw [Except.ok.injEq, Except.ok.injEq]

/-- A text is read as a local path, or it is taken apart. -/
theorem parse_cases {homes : Homes} {text : Text} {spec : WorkflowSpec}
    (h : parse homes text = .ok spec) :
    isLocalPath (Text.trim text) = true ∧ spec.slug = [] ∨
      isLocalPath (Text.trim text) = false ∧ parseRemote (Text.trim text) = .ok spec := by
  cases path : isLocalPath (Text.trim text) with
  | true =>
    rw [parse_of_local homes path] at h
    split at h
    case h_1 => exact nomatch h
    case h_2 => exact .inl ⟨rfl, Except.ok.inj h ▸ rfl⟩
  | false => exact .inr ⟨rfl, (parse_eq_ok_of_not_local path).mp h⟩

/-- The texts that are read as a local path are those that are one as a whole. -/
theorem slug_eq_nil_iff {homes : Homes} {text : Text} {spec : WorkflowSpec}
    (h : parse homes text = .ok spec) :
    spec.slug = [] ↔ isLocalPath (Text.trim text) = true := by
  rcases parse_cases h with ⟨path, slug⟩ | ⟨path, parsed⟩
  · exact iff_of_true slug path
  · refine iff_of_false (fun empty => ?_) (by rw [path]; exact Bool.false_ne_true)
    obtain ⟨owner, repo, slug, -⟩ := parseRemote_eq_ok parsed
    simp [slug] at empty

/-- A text that names a repository is taken apart into owner, repository, path and revision. -/
theorem slug_of_parse {homes : Homes} {text : Text} {spec : WorkflowSpec}
    (h : parse homes text = .ok spec) (remote : spec.slug ≠ []) :
    ∃ owner repo, spec.slug = owner ++ "/" ++ repo ∧
      ownerAndRepo? spec.slug = some (owner, repo) ∧
      RepoPath.splitRef (Text.trim text) =
        (owner ++ "/" ++ repo ++ "/" ++ spec.path, spec.version) := by
  rcases parse_cases h with ⟨-, slug⟩ | ⟨-, parsed⟩
  · exact absurd slug remote
  · exact parseRemote_eq_ok parsed

end WorkflowSpec

end WorkflowInstall

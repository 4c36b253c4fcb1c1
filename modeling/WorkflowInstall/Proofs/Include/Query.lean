import WorkflowInstall.Include
import WorkflowInstall.Proofs.Run.Quiet

/-!
# What an include is downloaded as

The question that is asked for an include depends on its path and the workflow at hand alone. All
that is said about fetching an include goes back to the two ways in which it can go.

## Main Definitions

* `Fault.section?` — the section that a fault of an include reports
* `Include.query?` — the question for the include at a path
* `Include.question?` — the same, where there may be no workflow to be relative to
* `Include.Seeks` — fetching an include asks its question, or there is nothing to ask

## Main Statements

* `Include.query?_relative` — the question for an include that is not pinned
* `Include.fetch_seeks` — fetching an include goes in one of the two ways
* `Include.fetch_quiet` — fetching an include is quiet
* `Include.fetch_returns` — an include that was downloaded was asked for by its question

## Design Notes

An include that has no workflow to be relative to is looked up as one of a workflow without a
repository is: for a relative one there is no question, and a pinned one does not look at the
workflow.
-/

namespace WorkflowInstall

/-- The section that a fault of an include reports. -/
def Fault.section? : Fault → Option Text
  | .includeMalformed _ fragment => some fragment
  | .includePinned _ fragment _ => some fragment
  | .includeAdrift _ fragment => some fragment
  | .includeRelative _ fragment _ _ _ _ => some fragment
  | _ => none

/-- Every fault that says that an include could not be fetched reports a section. -/
theorem Fault.isIncludeFault_eq (fault : Fault) : fault.isIncludeFault = fault.section?.isSome := by
  cases fault <;> rfl

namespace Include

open Run

variable {σ : Type}

/-- What a source is asked for an include: a pinned one lies in its own repository, any other one in
that of the workflow. -/
def query? (path : Text) (spec : WorkflowSpec) : Option Query :=
  if RepoPath.isPinned path then
    let (whole, ref) := RepoPath.splitRef path
    match Text.splitOn '/' whole with
    | owner :: repo :: first :: more =>
      some (.file owner repo (Text.joinWith "/" (first :: more)) (refOr ref))
    | _ => none
  else
    (WorkflowSpec.ownerAndRepo? spec.slug).map fun (owner, repo) =>
      .file owner repo (remotePath path spec) (refOr spec.version)

/-- The question for an include without a repository of its own: it lies below the directory of the
workflow, or in the shared directory, and is downloaded at the version of the workflow. -/
theorem query?_relative {path : Text} (relative : RepoPath.isPinned path = false)
    {spec : WorkflowSpec} {query : Query} (asks : query? path spec = some query) :
    ∃ owner repo, WorkflowSpec.ownerAndRepo? spec.slug = some (owner, repo) ∧
      query = .file owner repo (remotePath path spec) (refOr spec.version) := by
  rw [query?, relative, if_neg Bool.false_ne_true] at asks
  obtain ⟨⟨owner, repo⟩, slug, same⟩ := Option.map_eq_some_iff.mp asks
  exact ⟨owner, repo, slug, same.symm⟩

/-- A workflow without a repository. -/
def nowhere : WorkflowSpec := ⟨[], [], [], []⟩

/-- The question for the include at a path, which may have no workflow to be relative to. -/
def question? (path : Text) (base : Option WorkflowSpec) : Option Query :=
  query? path (base.getD nowhere)

/-- The owner and the repository that a relative include lies in. -/
def home? (base : Option WorkflowSpec) : Option (Text × Text) :=
  base.bind fun spec => WorkflowSpec.ownerAndRepo? spec.slug

theorem home?_eq (base : Option WorkflowSpec) :
    home? base = WorkflowSpec.ownerAndRepo? (base.getD nowhere).slug := by
  cases base <;> rfl

theorem question?_of_relative {path : Text} (relative : ¬ RepoPath.isPinned path = true)
    (base : Option WorkflowSpec) :
    question? path base = (home? base).map fun (owner, repo) =>
      .file owner repo (remotePath path (base.getD nowhere))
        (refOr (base.getD nowhere).version) := by
  rw [question?, query?, if_neg relative, home?_eq]

/-! ## Downloads -/

section Download

variable (source : Source σ) (owner repo path ref fragment : Text) (wrap : Fault → Fault)
  (world : World σ)

theorem download_apply :
    download source owner repo path ref fragment wrap world =
      match askFile source owner repo path ref world with
      | (.ok content, after) => (.ok ⟨content, fragment⟩, after)
      | (.error fault, after) =>
        (.error (if fault.isLookupFailure then wrap fault else fault), after) := by
  rw [download, bind_apply, attempt_apply]
  cases askFile source owner repo path ref world with
  | mk outcome after => cases outcome <;> rfl

/-- A download leaves the world that the question leaves. -/
theorem download_apply_snd :
    (download source owner repo path ref fragment wrap world).2 =
      (askFile source owner repo path ref world).2 := by
  rw [download_apply]
  cases askFile source owner repo path ref world with
  | mk outcome after => cases outcome <;> rfl

theorem download_eq_ok_iff {fetched : Fetched} :
    (download source owner repo path ref fragment wrap world).1 = .ok fetched ↔
      (askFile source owner repo path ref world).1 = .ok fetched.content ∧
        fetched.fragment = fragment := by
  rw [download_apply]
  obtain ⟨content, reported⟩ := fetched
  cases askFile source owner repo path ref world with
  | mk outcome after =>
    cases outcome with
    | ok found => simp [eq_comm]
    | error fault => simp

end Download

/-! ## Fetching -/

/-- What fetching an include at a path comes to, when a section is asked for. -/
inductive Seeks (source : Source σ) (path : Text) (base : Option WorkflowSpec) (fragment : Text)
    (run : Run σ Fetched) : Prop
  /-- There is nothing to ask. -/
  | refused {fault : Fault} (nothing : question? path base = none)
    (reports : fault.section? = some fragment) (run_eq : run = fail fault)
  /-- The question is asked. A lookup that fails is a fault with the section. -/
  | asks {owner repo file ref : Text} {wrap : Fault → Fault}
    (question : question? path base = some (.file owner repo file ref))
    (reports : ∀ fault, (wrap fault).section? = some fragment)
    (run_eq : run = download source owner repo file ref fragment wrap)

theorem fetchPinned_seeks (source : Source σ) (reference fragment : Text) {path : Text}
    (pinned : RepoPath.isPinned path = true) (base : Option WorkflowSpec) :
    Seeks source path base fragment (fetchPinned source reference path fragment) := by
  unfold fetchPinned
  dsimp only
  split
  case h_1 owner repo first more segments =>
    refine .asks ?_ (fun _ => rfl) rfl
    rw [question?, query?, if_pos pinned]
    dsimp only
    rw [segments]
  case h_2 few =>
    refine .refused ?_ rfl rfl
    rw [question?, query?, if_pos pinned]
    dsimp only
    split
    case h_1 owner repo first more segments => exact absurd segments (few owner repo first more)
    case h_2 => rfl

/-- Fetching an include asks the question for its path, if there is one, and looks at the section
only to report it. -/
theorem fetch_seeks (source : Source σ) {reference path fragment : Text}
    (split_eq : RepoPath.splitSection reference = (path, fragment)) (base : Option WorkflowSpec) :
    Seeks source path base fragment (fetch source reference base) := by
  unfold fetch
  rw [split_eq]
  dsimp only
  split
  case isTrue pinned => exact fetchPinned_seeks source reference fragment pinned base
  case isFalse relative =>
    have asks := question?_of_relative relative base
    have adrift : (Fault.includeAdrift reference fragment).section? = some fragment := rfl
    cases base with
    | none => exact .refused asks adrift rfl
    | some spec =>
      rw [show home? (some spec) = WorkflowSpec.ownerAndRepo? spec.slug from rfl] at asks
      dsimp only [Option.bind_some]
      cases home : WorkflowSpec.ownerAndRepo? spec.slug with
      | none =>
        rw [home] at asks
        exact .refused asks adrift rfl
      | some place =>
        rw [home] at asks
        have reports (cause : Fault) : (Fault.includeRelative reference fragment path place.1
            place.2 cause).section? = some fragment := rfl
        exact .asks asks reports rfl

section Resolve

variable (source : Source σ)

theorem fetch_seeks_parts (reference : Text) (base : Option WorkflowSpec) :
    Seeks source (RepoPath.splitSection reference).1 base (RepoPath.splitSection reference).2
      (fetch source reference base) := fetch_seeks source rfl base

/-- Fetching an include is quiet. -/
theorem fetch_quiet (reference : Text) (base : Option WorkflowSpec) (world : World σ) :
    world.Quiet (fetch source reference base world).2 := by
  cases fetch_seeks_parts source reference base with
  | refused _ _ run_eq =>
    rw [run_eq]
    exact .refl world
  | asks _ _ run_eq =>
    rw [run_eq, download_apply_snd]
    exact quiet_ask _ _ world

/-- An include that was downloaded was asked for by its question, and by no later one. -/
theorem fetch_returns {reference : Text} {spec : WorkflowSpec} {world after : World σ}
    {fetched : Fetched} (h : Returns (fetch source reference (some spec)) world fetched after) :
    ∃ query, query? (RepoPath.splitSection reference).1 spec = some query ∧
      Event.lastQuery? after.trace = some query := by
  cases fetch_seeks_parts source reference (some spec) with
  | refused _ _ run_eq =>
    rw [run_eq] at h
    exact absurd h not_returns_fail
  | asks question _ run_eq =>
    rw [run_eq] at h
    refine ⟨_, question, ?_⟩
    rw [← show (download _ _ _ _ _ _ _ world).2 = after from congrArg Prod.snd h,
      download_apply_snd]
    exact lastQuery?_ask _ _ world

end Resolve

end Include

end WorkflowInstall

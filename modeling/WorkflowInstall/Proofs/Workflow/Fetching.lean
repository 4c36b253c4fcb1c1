import WorkflowInstall.Proofs.Run.Questions
import WorkflowInstall.Proofs.Workflow.Pinning

/-!
# What fetching a workflow asks

A workflow is fetched from its repository at one revision. The default branch is asked for first,
unless a version is given, then the commit of the revision, and then the places at which the
workflow may lie, one after the other.

## Main Definitions

* `Workflow.revision` — the revision that a workflow is fetched from
* `Workflow.BranchFails` — the default branch is wanted, and asking for it fails for good
* `Workflow.Tries` — the places of a workflow are tried in order

## Main Statements

* `Workflow.pinRef_cases` — the version is pinned, or nothing else is done
* `Workflow.download_tries` — the path is tried first, and then its fallbacks
* `Workflow.fetchRemote_cases` — all that is asked
-/

namespace WorkflowInstall.Workflow

open Run

variable {σ : Type}

/-- The revision that a workflow is fetched from: its version when one is given, or else the default
branch, or else the usual one when the lookup of the branch has failed. -/
def revision (version : Text) (branch : Except Fault Text) : Text :=
  if version ≠ [] then version else branch.toOption.getD usualRef

theorem revision_ne_nil {version : Text} {branch : Except Fault Text} (answers : branch ≠ .ok []) :
    revision version branch ≠ [] := by
  unfold revision
  split
  case isTrue given => exact given
  case isFalse =>
    cases branch with
    | ok ref => exact fun empty => answers (congrArg Except.ok empty)
    | error fault => exact List.cons_ne_nil _ _

/-- What is asked to find out the revision. -/
def branchQueries (spec : WorkflowSpec) : List Query :=
  if spec.version = [] then [.branch spec.slug] else []

variable (source : Source σ)

/-- The default branch is wanted, and the source answers with a fault that does not mean only that
the lookup failed. -/
structure BranchFails (world : World σ) (fault : Fault) : Prop where
  unset : world.spec.version = []
  answer : branchOf source world = .error fault
  passed_on : fault.isLookupFailure = false

/-- The version is pinned to the revision, or the fault of the default branch is passed on. -/
theorem pinRef_cases (world : World σ) :
    let ref := revision world.spec.version (branchOf source world)
    (∃ fault, BranchFails source world fault ∧ (pinRef source world).1 = .error fault ∧
      world.Tells (pinRef source world).2 [.branch world.spec.slug] []) ∨
    (pinRef source world).1 = .ok ref ∧
      (world.atVersion ref).Tells (pinRef source world).2 (branchQueries world.spec) [] := by
  intro ref
  have asked : world.Tells (askBranch source world.spec.slug world).2 [.branch world.spec.slug]
      [] := World.tells_ask (.branch world.spec.slug) _ world
  by_cases given : world.spec.version ≠ []
  case pos =>
    have same : ref = world.spec.version := if_pos given
    rw [pinRef_of_version source given, same, branchQueries, if_neg given]
    exact .inr ⟨rfl, .refl world⟩
  case neg =>
    have unset : world.spec.version = [] := Decidable.of_not_not given
    have pinned (version : Text) : (world.atVersion version).Tells
        ((askBranch source world.spec.slug world).2.atVersion version)
        [.branch world.spec.slug] [] :=
      ⟨congrArg (fun spec => { spec with version := version }) asked.spec, asked.queries,
        asked.saves⟩
    have found : ref = (branchOf source world).toOption.getD usualRef := if_neg given
    rw [pinRef_of_unset source unset, found, branchQueries, if_pos unset]
    dsimp only
    cases answer : branchOf source world with
    | ok branch => exact .inr ⟨rfl, pinned branch⟩
    | error fault =>
      dsimp only
      cases lookup : fault.isLookupFailure with
      | true => exact .inr ⟨rfl, pinned usualRef⟩
      | false => exact .inl ⟨fault, ⟨unset, answer, lookup⟩, rfl, asked⟩

theorem resolveCommit_tells (owner repo ref : Text) (world : World σ) :
    world.Tells (resolveCommit source owner repo ref world).2 [.commit owner repo ref] [] := by
  have asked : world.Tells (askCommit source owner repo ref world).2 [.commit owner repo ref] [] :=
    World.tells_ask (.commit owner repo ref) _ world
  rw [resolveCommit, bind_apply, attempt_apply]
  dsimp only
  cases (askCommit source owner repo ref world).1 with
  | ok commit => exact asked.trans (idle_log _ _).tells
  | error fault =>
    dsimp only
    split <;> exact asked

/-- Some places of a workflow have been tried, the last one first. A workflow that is found lies at
the last one. -/
structure Tries (owner repo ref : Text) (places : List Text) (run : Run σ (Text × Bytes))
    (world : World σ) (tried : List Text) : Prop where
  in_order : tried.reverse <+: places
  tells : world.Tells (run world).2 (tried.map fun path => .file owner repo path ref) []
  last : ∀ path content, (run world).1 = .ok (path, content) → tried.head? = some path

section Tries

variable {owner repo ref : Text}

/-- The first place is asked for. It is the one at which the workflow is found, or the others are
tried when it only was not there, or the fault is passed on. -/
theorem tries_cons {path : Text} {places : List Text} {found : Bytes → Text}
    {others : Fault → Run σ (Text × Bytes)}
    (later : ∀ fault after, ∃ tried, Tries owner repo ref places (others fault) after tried)
    (world : World σ) :
    ∃ tried, Tries owner repo ref (path :: places)
      (attempt (askFile source owner repo path ref) >>= fun outcome =>
        match outcome with
        | .ok content => do
          Run.log .workflow (found content)
          pure (path, content)
        | .error fault => if fault.isLookupFailure then others fault else Run.fail fault)
      world tried := by
  have asked : world.Tells (askFile source owner repo path ref world).2 [.file owner repo path ref]
      [] := World.tells_ask (.file owner repo path ref) _ world
  have first : [path].reverse <+: path :: places := List.prefix_append [path] places
  generalize is_run :
    (attempt (askFile source owner repo path ref) >>= _ : Run σ (Text × Bytes)) = run
  have result := congrFun is_run world
  rw [bind_apply, attempt_apply] at result
  dsimp only at result
  cases answer : (askFile source owner repo path ref world).1 with
  | ok content =>
    rw [answer] at result
    refine ⟨[path], first, ?_, fun place bytes ends => ?_⟩
    · rw [← result]
      exact asked.trans (idle_log _ _).tells
    · rw [← result] at ends
      cases ends
      rfl
  | error fault =>
    rw [answer] at result
    dsimp only at result
    split at result
    · obtain ⟨tried, tries⟩ := later fault (askFile source owner repo path ref world).2
      refine ⟨tried ++ [path], ?_, ?_, fun place bytes ends => ?_⟩
      · rw [List.reverse_append]
        exact List.cons_prefix_cons.mpr ⟨rfl, tries.in_order⟩
      · rw [← result, List.map_append]
        exact asked.trans tries.tells
      · rw [← result] at ends
        rw [List.head?_append, tries.last place bytes ends]
        rfl
    · refine ⟨[path], first, ?_, fun place bytes ends => ?_⟩
      · rw [← result]
        exact asked
      · rw [← result] at ends
        exact absurd ends (by simp)

theorem firstFallback_tries (otherwise : Fault) (places : List Text) (world : World σ) :
    ∃ tried, Tries owner repo ref places
      (firstFallback source owner repo ref otherwise places) world tried := by
  induction places generalizing world with
  | nil =>
    refine ⟨[], List.prefix_rfl, .refl world, fun _ _ ends => ?_⟩
    exact absurd ends (by simp [firstFallback])
  | cons path places ih => exact tries_cons source (fun _ => ih) world

/-- The path of a workflow is tried first, and then its fallbacks in order. -/
theorem download_tries (path : Text) (world : World σ) :
    ∃ tried, Tries owner repo ref (path :: fallbackPaths path)
      (download source owner repo path ref) world tried :=
  tries_cons source (fun _ => firstFallback_tries source _ (fallbackPaths path)) world

end Tries

/-- All that is asked when a workflow is fetched from its repository: the default branch alone when
that fails for good, or else whatever is asked to pin the version, the commit of the revision, and
the places at which the workflow may lie, in order. -/
theorem fetchRemote_cases (world : World σ) {owner repo : Text}
    (slug : WorkflowSpec.ownerAndRepo? world.spec.slug = some (owner, repo)) :
    let ref := revision world.spec.version (branchOf source world)
    (∃ fault, BranchFails source world fault ∧ (fetchRemote source world).1 = .error fault ∧
      world.Tells (fetchRemote source world).2 [.branch world.spec.slug] []) ∨
    ∃ tried : List Text,
      tried.reverse <+: world.spec.path :: fallbackPaths world.spec.path ∧
      (world.atVersion ref).Tells (fetchRemote source world).2
        ((tried.map fun path => .file owner repo path ref) ++
          .commit owner repo ref :: branchQueries world.spec) [] ∧
      ∀ fetched, (fetchRemote source world).1 = .ok fetched → tried.head? = some fetched.path := by
  intro ref
  rw [fetchRemote, bind_apply, show spec world = (.ok world.spec, world) from rfl]
  dsimp only
  rw [slug]
  dsimp only
  rcases pinRef_cases source world with ⟨fault, fails, ends, asked⟩ | ⟨ends, pinned⟩
  · rw [bind_of_error ends]
    exact .inl ⟨fault, fails, rfl, asked⟩
  · rw [bind_of_ok (show (pinRef source world).1 = .ok ref from ends)]
    right
    let message : Text :=
      "Fetching " ++ owner ++ "/" ++ repo ++ "/" ++ world.spec.path ++ "@" ++ ref ++ "..."
    have logged : (pinRef source world).2.Tells (log .workflow message (pinRef source world).2).2
        [] [] := (idle_log .workflow message).tells
    rw [bind_of_ok (show (log .workflow message (pinRef source world).2).1 = .ok () from rfl)]
    generalize (log .workflow message (pinRef source world).2).2 = logs at logged
    have resolved := (pinned.trans logged).trans (resolveCommit_tells source owner repo ref logs)
    cases commits : (resolveCommit source owner repo ref logs).1 with
    | error fault =>
      rw [bind_of_error commits]
      exact ⟨[], List.nil_prefix, resolved, fun _ never => absurd never (by simp)⟩
    | ok commit =>
      rw [bind_of_ok commits]
      generalize (resolveCommit source owner repo ref logs).2 = middle at resolved
      obtain ⟨tried, tries⟩ :
          ∃ tried, Tries owner repo ref (world.spec.path :: fallbackPaths world.spec.path)
            (download source owner repo world.spec.path ref) middle tried :=
        download_tries source world.spec.path middle
      have asked := resolved.trans tries.tells
      cases downloads : (download source owner repo world.spec.path ref middle).1 with
      | error fault =>
        rw [bind_of_error downloads]
        exact ⟨tried, tries.in_order, asked, fun _ never => absurd never (by simp)⟩
      | ok found =>
        rw [bind_of_ok downloads]
        refine ⟨tried, tries.in_order, asked, ?_⟩
        rintro fetched ⟨⟩
        exact tries.last _ _ downloads

end WorkflowInstall.Workflow

import WorkflowInstall.Proofs.Install.Revision
import WorkflowInstall.Proofs.Run.Blind
import WorkflowInstall.Proofs.Spec.Reading

/-!
# Where a workflow is looked for

A text is read as a spec, and the workflow is then looked for in the local file system or in its
repository. The text as a whole decides which of the two it is read as, and the path of the spec
decides again when the workflow is fetched.

## Main Definitions

* `WorkflowSpec.ReadsLocally` — the workflow is looked for in the local file system
* `Workflow.ReadsFile` — a workflow is fetched by reading a file, and nothing is asked
* `Workflow.LooksUp` — a workflow is fetched by asking a source, and no file is looked at

## Main Statements

* `Workflow.fetch_parsed` — where the workflow of a text is looked for

## Design Notes

The path that is left when owner and repository have been cut off may begin like that of a local
file, with `./` or `~` say. Such a workflow names a repository, and it is read from the local file
system all the same.
-/

namespace WorkflowInstall

variable {σ : Type}

/-! ## Reading a spec -/

/-- The repository that a question is about. -/
def Query.slug : Query → Text
  | .file owner repo _ _ => owner ++ "/" ++ repo
  | .commit owner repo _ => owner ++ "/" ++ repo
  | .branch slug => slug

namespace WorkflowSpec

/-- The workflow is looked for in the local file system: no repository is named, or the path alone
is one of a local file. -/
def ReadsLocally (spec : WorkflowSpec) : Prop := spec.slug = [] ∨ isLocalPath spec.path = true

end WorkflowSpec

namespace Workflow

open Run

/-! ## Reading a file -/

/-- What reading the file at a path comes to. -/
def localOutcome (path : Text) : Except DiskFault Bytes → Except Fault FetchedWorkflow
  | .ok content => .ok ⟨content, [], true, path⟩
  | .error (.refused problem refused) => .error (.workflowMissing path (.refused problem refused))
  | .error fault => .error (.disk fault)

theorem isLocal_of_localOutcome {path : Text} {reading : Except DiskFault Bytes}
    {fetched : FetchedWorkflow} (h : localOutcome path reading = .ok fetched) :
    fetched.isLocal = true := by
  unfold localOutcome at h
  split at h
  · rw [← Except.ok.inj h]
  · exact nomatch h
  · exact nomatch h

/-- A workflow is fetched by reading a file, which decides how it ends. Nothing is asked. -/
structure ReadsFile (world : World σ) (outcome : Except Fault FetchedWorkflow) (after : World σ) :
    Prop where
  outcome : outcome = localOutcome world.spec.path (world.disk.read world.spec.path)
  queries : Event.queries after.trace = Event.queries world.trace
  remote : after.remote = world.remote
  disk : after.disk = world.disk

theorem fetchLocal_readsFile (world : World σ) :
    ReadsFile world (fetchLocal world).1 (fetchLocal world).2 := by
  let message : Text := "Reading local workflow: " ++ world.spec.path
  have rests : world.Rests (log .workflow message world).2 := .log _ _
  have result : fetchLocal world =
      (localOutcome world.spec.path (world.disk.read world.spec.path),
        (log .workflow message world).2) := by
    unfold fetchLocal
    rw [bind_apply, show spec world = (.ok world.spec, world) from rfl]
    dsimp only
    rw [bind_of_ok (show (log .workflow message world).1 = .ok () from rfl)]
    rw [bind_apply, attempt_apply, readFile, ofDisk, rests.disk]
    cases world.disk.read world.spec.path with
    | ok content => rfl
    | error fault => cases fault <;> rfl
  rw [result]
  exact ⟨rfl, rests.tells.queries, rests.remote, rests.disk⟩

/-! ## Asking a source -/

/-- A workflow is fetched by asking a source about its repository, where it is found at the last
place that is asked for. On any other file system the same is done, as long as the source answers
the same. -/
structure LooksUp (source : Source σ) (world : World σ) (outcome : Except Fault FetchedWorkflow)
    (after : World σ) : Prop where
  asked : ∃ asked, asked ≠ [] ∧ Event.queries after.trace = asked ++ Event.queries world.trace ∧
    (∀ query ∈ asked, query.slug = world.spec.slug) ∧
    ∀ fetched, outcome = .ok fetched → fetched.isLocal = false ∧
      ∃ owner repo ref, asked.head? = some (.file owner repo fetched.path ref)
  blind : ∀ other,
    fetch (source.seeing world.disk) (world.onDisk other) = (outcome, after.onDisk other)
  disk : after.disk = world.disk

/-- A workflow whose path is no local one is fetched from the repository that it names. -/
theorem fetch_looksUp (source : Source σ) {world : World σ} {owner repo : Text}
    (path : WorkflowSpec.isLocalPath world.spec.path = false)
    (slug : WorkflowSpec.ownerAndRepo? world.spec.slug = some (owner, repo))
    (whole : world.spec.slug = owner ++ "/" ++ repo) :
    LooksUp source world (fetch source world).1 (fetch source world).2 := by
  have here : fetch source world = fetchRemote source world :=
    Install.fetch_eq_fetchRemote path slug
  have blind : Blind world.disk (fetchRemote source) (fetchRemote (source.seeing world.disk)) :=
    fetchRemote_blind source
  rw [here]
  refine ⟨?_, fun other => ?_, (blind world world.disk rfl).after.1⟩
  case refine_2 =>
    rw [← blind.apply rfl other]
    exact Install.fetch_eq_fetchRemote path slug
  rcases fetchRemote_cases source world slug with
    ⟨fault, -, ends, tells⟩ | ⟨tried, -, tells, found⟩
  · refine ⟨[.branch world.spec.slug], List.cons_ne_nil _ _, tells.queries, ?_, fun _ never => ?_⟩
    · rintro query mem
      rw [List.mem_singleton.mp mem]
      rfl
    · exact nomatch ends.symm.trans never
  · refine ⟨_, ?_, tells.queries, ?_, fun fetched ends => ⟨?_, ?_⟩⟩
    · exact List.append_ne_nil_of_right_ne_nil _ (List.cons_ne_nil _ _)
    · rintro query mem
      rw [whole]
      rcases List.mem_append.mp mem with file | rest
      · obtain ⟨place, -, rfl⟩ := List.mem_map.mp file
        rfl
      · rcases List.mem_cons.mp rest with rfl | branch
        · rfl
        · unfold branchQueries at branch
          split at branch
          · rw [List.mem_singleton.mp branch]
            exact whole
          · exact absurd branch List.not_mem_nil
    · exact Install.isLocal_of_fetchRemote (Prod.ext ends rfl)
    · refine ⟨owner, repo, revision world.spec.version (branchOf source world), ?_⟩
      rw [List.head?_append, List.head?_map, found fetched ends]
      rfl

/-- A text is read as a local path just when it is one as a whole. The workflow is looked for in the
local file system just when no repository is named or the path alone is a local one, and in its
repository otherwise. -/
theorem fetch_parsed (homes : Homes) (text : Text) (source : Source σ) (world : World σ)
    (parsed : WorkflowSpec.parse homes text = .ok world.spec) :
    let outcome := (fetch source world).1
    let after := (fetch source world).2
    (world.spec.slug = [] ↔ WorkflowSpec.isLocalPath (Text.trim text) = true) ∧
      (world.spec.slug ≠ [] → ∃ owner repo, world.spec.slug = owner ++ "/" ++ repo ∧
        RepoPath.splitRef (Text.trim text) =
          (owner ++ "/" ++ repo ++ "/" ++ world.spec.path, world.spec.version)) ∧
      (world.spec.ReadsLocally → ReadsFile world outcome after) ∧
      (¬ world.spec.ReadsLocally → LooksUp source world outcome after) ∧
      ∀ fetched, outcome = .ok fetched → (fetched.isLocal = true ↔ world.spec.ReadsLocally) := by
  intro outcome after
  have reads (locally : world.spec.ReadsLocally) : ReadsFile world outcome after := by
    have same : fetch source world = fetchLocal world := by
      rw [fetch, bind_apply, show spec world = (.ok world.spec, world) from rfl]
      dsimp only
      rw [if_pos]
      rw [Bool.or_eq_true, List.isEmpty_iff]
      exact locally.symm
    unfold outcome after
    rw [same]
    exact fetchLocal_readsFile world
  have looks (remote : ¬ world.spec.ReadsLocally) : LooksUp source world outcome after := by
    obtain ⟨named, path⟩ := not_or.mp remote
    obtain ⟨owner, repo, whole, slug, -⟩ := WorkflowSpec.slug_of_parse parsed named
    exact fetch_looksUp source (Bool.eq_false_of_not_eq_true path) slug whole
  refine ⟨WorkflowSpec.slug_eq_nil_iff parsed, fun named => ?_, reads, looks,
    fun fetched ends => ?_⟩
  · obtain ⟨owner, repo, whole, -, taken⟩ := WorkflowSpec.slug_of_parse parsed named
    exact ⟨owner, repo, whole, taken⟩
  · by_cases locally : world.spec.ReadsLocally
    · exact iff_of_true (isLocal_of_localOutcome ((reads locally).outcome.symm.trans ends)) locally
    · obtain ⟨_, -, -, -, found⟩ := (looks locally).asked
      refine iff_of_false ?_ locally
      rw [(found fetched ends).1]
      exact Bool.false_ne_true

/-- A workflow that lies in a repository is asked for there. -/
theorem fetch_parsed_remote :
    let spec : WorkflowSpec := ⟨"o/r", "main", "ci.md", "ci"⟩
    let source := (Table.ofFiles "o/r" [("ci.md", [1])]).source Unit
    let world := World.fresh () ⟨[], [(["ci.md"], .file [2])]⟩ spec
    WorkflowSpec.parse ⟨none, []⟩ "o/r/ci.md@main" = .ok spec ∧
      LooksUp source world (fetch source world).1 (fetch source world).2 := by
  intro spec source world
  have parsed : WorkflowSpec.parse ⟨none, []⟩ "o/r/ci.md@main" = .ok spec := by decide +kernel
  have remote : ¬ spec.ReadsLocally := by unfold WorkflowSpec.ReadsLocally; decide +kernel
  exact ⟨parsed, (fetch_parsed ⟨none, []⟩ "o/r/ci.md@main" source world parsed).2.2.2.1 remote⟩

/-- A path that begins with a dot is read from the file system, though it was named in a
repository: the file there is taken, and the repository is not asked. -/
theorem not_looked_up :
    let spec : WorkflowSpec := ⟨"o/r", [], "./x.md", "x"⟩
    let source := (Table.ofFiles "o/r" [("./x.md", [1])]).source Unit
    let world := World.fresh () ⟨[], [(["x.md"], .file [2])]⟩ spec
    WorkflowSpec.parse ⟨none, []⟩ "o/r/./x.md" = .ok spec ∧ spec.slug ≠ [] ∧
      (fetch source world).1.toOption = some ⟨[2], [], true, "./x.md"⟩ ∧
      Event.queries (fetch source world).2.trace = [] := by
  decide +kernel

end Workflow

end WorkflowInstall

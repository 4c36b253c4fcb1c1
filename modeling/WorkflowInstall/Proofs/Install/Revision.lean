import WorkflowInstall.Proofs.Import.Settled
import WorkflowInstall.Proofs.Include.Closure
import WorkflowInstall.Proofs.Install.Repetition
import WorkflowInstall.Proofs.Workflow.Fetching

/-!
# The revision of an installation

A workflow is installed from one revision. Its version is pinned before anything else is asked, and
its includes and imports, however deep they lie, are asked for at that version.

## Main Definitions

* `Install.AtRevision` — all that is asked is asked of one repository at one revision

## Main Statements

* `Install.addDependencies_tells` — what is asked for the includes and imports of a workflow
* `Install.add_at_revision` — what is asked by an installation
* `Install.not_pinned_unknown_key` — when the default branch fails for good, no version is pinned

## Design Notes

The version is pinned by changing the workflow at hand, and only while none is given. So each phase
is told from the workflow as the phase before has left it: the version is set by the first one, the
path by the second one, and neither is changed later.
-/

namespace WorkflowInstall.Install

open Run Path

variable {σ : Type}

/-! ## The workflow -/

/-- A workflow that was written is told with the question that was asked last. -/
theorem tells_of_returns_writeWorkflow {options : InstallOptions} {file : LocalPath}
    {content : Bytes} {world after : World σ} {query : Query}
    (last : Event.lastQuery? world.trace = some query)
    (returns : Returns (writeWorkflow options file content) world () after) :
    world.Tells after [] [(query, content)] := by
  obtain ⟨-, earlier, disk, location, -, -, -, logs⟩ := returns_writeWorkflow.mp returns
  have written := world.tells_wrote last disk location content
  exact written.trans ((idle_noted file.text earlier).trans (World.Rests.of_log logs).toIdle).tells

theorem fetch_eq_fetchRemote {source : Source σ} {world : World σ} {owner repo : Text}
    (remote : WorkflowSpec.isLocalPath world.spec.path = false)
    (slug : WorkflowSpec.ownerAndRepo? world.spec.slug = some (owner, repo)) :
    Workflow.fetch source world = Workflow.fetchRemote source world := by
  have there : world.spec.slug.isEmpty = false := by
    cases empty : world.spec.slug with
    | nil =>
      rw [empty] at slug
      exact absurd slug (Option.some_ne_none _).symm
    | cons c rest => rfl
  rw [Workflow.fetch, bind_apply, show spec world = (.ok world.spec, world) from rfl]
  dsimp only
  rw [remote, there]
  rfl

/-! ## What it asks for -/

/-- The question for an include that is not pinned, when a version is given. -/
theorem query?_of_relative {reference owner repo : Text} {spec : WorkflowSpec}
    (relative : RepoPath.isPinned reference = false) (version : spec.version ≠ [])
    (slug : WorkflowSpec.ownerAndRepo? spec.slug = some (owner, repo)) :
    Include.query? reference spec =
      some (.file owner repo (Include.remotePath reference spec) spec.version) := by
  have ref : Include.refOr spec.version = spec.version := by
    rw [Include.refOr, if_neg (by simpa using version)]
  rw [Include.query?, relative, if_neg Bool.false_ne_true, slug, Option.map_some, ref]

/-- References that a text names, or that some of the files name that were written. -/
def Names (text : Text) (saves : List (Query × Bytes)) (references : List Text) : Prop :=
  ∀ reference ∈ references, reference ∈ Include.paths text ∨
    ∃ save ∈ saves, reference ∈ Include.named save.1 save.2

theorem include_tells (source : Source σ) (target : LocalPath) (force : Bool) (depth : Nat)
    (text : Text) (world : World σ) :
    ∃ references saves,
      world.Tells (Include.install source target force depth text world).2
        (references.filterMap fun reference => Include.query? reference world.spec) saves ∧
      Names text saves references := by
  obtain ⟨tour, explored⟩ := Include.install_explores source target force depth text world
  have asks : (Visit.downloads tour).map (fun download => some download.query) =
      (Visit.requested tour).map fun path => Include.query? path world.spec :=
    Visit.map_downloads fun visit mem download asked =>
      (explored.fits visit mem download asked).1.symm
  have queries : (Visit.requested tour).filterMap (fun path => Include.query? path world.spec) =
      (Visit.downloads tour).map Download.query := by
    have flat := congrArg (List.filterMap id) asks
    rw [List.filterMap_map, List.filterMap_map] at flat
    exact flat.symm.trans (congrFun (List.filterMap_eq_map (f := Download.query)) _)
  refine ⟨Visit.requested tour, tour.filterMap Visit.save?, queries ▸ explored.tours.tells, ?_⟩
  exact fun reference mem => explored.reaches.named reference ((Visit.requested_sublist tour).subset mem)

theorem import_tells (source : Source σ) (target : LocalPath) (force : Bool) (depth : Nat)
    (text : Text) (world : World σ) (version : world.spec.version ≠ []) {owner repo : Text}
    (slug : WorkflowSpec.ownerAndRepo? world.spec.slug = some (owner, repo)) :
    ∃ (paths : List Text) (saves : List (Query × Bytes)),
      world.Tells (Import.install source target force depth text world).2
        (paths.map fun path => .file owner repo path world.spec.version) saves := by
  rcases Import.install_of_version source target force depth text version slug with
    ⟨nothing, -⟩ | same
  · rw [nothing]
    exact ⟨[], [], .refl world⟩
  · rw [same]
    obtain ⟨tour, explored⟩ := Import.installFrom_explores source
      ⟨owner, repo, world.spec.version, RepoPath.parent world.spec.path, target, force⟩ depth
      (RepoPath.parent world.spec.path) text world
    have asks : (Visit.downloads tour).map Download.query = (Visit.requested tour).map
        fun path => .file owner repo path world.spec.version :=
      Visit.map_downloads fun visit mem download asked =>
        (explored.fits visit mem download asked).query
    exact ⟨Visit.requested tour, tour.filterMap Visit.save?, asks ▸ explored.tours.tells⟩

/-- It does not matter for what is told which references have been visited. -/
theorem tells_of_forgetVisited {before after : World σ} {queries : List Query}
    {saves : List (Query × Bytes)} (h : (forgetVisited before).2.Tells after queries saves) :
    before.Tells after queries saves := ⟨h.spec, h.queries, h.saves⟩

/-- The includes of a workflow are asked for as their references say, and then its imports in the
repository of the workflow at its version. -/
theorem addDependencies_tells (source : Source σ) (options : InstallOptions) (text : Text)
    {world : World σ} (version : world.spec.version ≠ []) {owner repo : Text}
    (slug : WorkflowSpec.ownerAndRepo? world.spec.slug = some (owner, repo)) :
    ∃ (references imports : List Text) (saves : List (Query × Bytes)),
      world.Tells (addDependencies source options text world).2
        ((imports.map fun path => .file owner repo path world.spec.version) ++
          references.filterMap fun reference => Include.query? reference world.spec) saves ∧
      Names text saves references := by
  have importing (before : World σ) (same : before.spec = world.spec) :
      ∃ (paths : List Text) (saves : List (Query × Bytes)), before.Tells
        ((if options.imports then forgetVisited >>= fun _ =>
          Import.install source options.target options.force options.depth text
        else pure ()) before).2
        (paths.map fun path => .file owner repo path world.spec.version) saves := by
    rw [← same] at version slug ⊢
    split
    · obtain ⟨paths, saves, tells⟩ := import_tells source options.target options.force options.depth
        text (forgetVisited before).2 version slug
      exact ⟨paths, saves, tells_of_forgetVisited tells⟩
    · exact ⟨[], [], .refl before⟩
  unfold addDependencies
  dsimp only
  split
  · obtain ⟨references, saves, tells, names⟩ := include_tells source options.target options.force
      options.depth text (forgetVisited world).2
    have included := tells_of_forgetVisited tells
    rw [bind_of_ok (show (forgetVisited world).1 = .ok () from rfl)]
    cases result : (Include.install source options.target options.force options.depth text
        (forgetVisited world).2).1 with
    | error fault =>
      rw [bind_of_error result]
      exact ⟨references, [], saves, included, names⟩
    | ok value =>
      rw [bind_of_ok result]
      obtain ⟨paths, others, imported⟩ := importing _ included.spec
      refine ⟨references, paths, others ++ saves, included.trans imported, fun reference mem => ?_⟩
      refine (names reference mem).imp_right ?_
      rintro ⟨save, saved, named⟩
      exact ⟨save, List.mem_append_right others saved, named⟩
  · obtain ⟨paths, saves, imported⟩ := importing world rfl
    refine ⟨[], paths, saves, ?_, fun reference mem => absurd mem List.not_mem_nil⟩
    rw [List.filterMap_nil, List.append_nil]
    exact imported

/-! ## The installation -/

/-- All that was asked and written by an installation, in one repository at one revision. Whatever
is asked to find out the revision comes first, then the commit of the revision, then the places at
which the workflow may lie, as far as they were `tried`. The `references` of includes are asked for
as they say, and the ones that are not pinned in the repository at the revision, as the `imports`
are. -/
structure AtRevision (owner repo ref : Text) (before after : World σ)
    (tried references imports : List Text) (saves : List (Query × Bytes)) : Prop where
  spec : after.spec = { before.spec with version := ref, path := after.spec.path }
  path : after.spec.path ∈ before.spec.path :: Workflow.fallbackPaths before.spec.path
  in_order : tried.reverse <+: before.spec.path :: Workflow.fallbackPaths before.spec.path
  queries : Event.queries after.trace =
    (imports.map fun path => .file owner repo path ref) ++
      (references.filterMap fun reference => Include.query? reference after.spec) ++
      (tried.map fun path => .file owner repo path ref) ++
      .commit owner repo ref :: Workflow.branchQueries before.spec ++ Event.queries before.trace
  written : Event.saves after.trace = saves ++ Event.saves before.trace
  named : ∀ reference ∈ references, ∃ save ∈ saves, reference ∈ Include.named save.1 save.2
  relative : ∀ reference ∈ references, RepoPath.isPinned reference = false →
    Include.query? reference after.spec =
      some (.file owner repo (Include.remotePath reference after.spec) ref)

/-- From where a workflow was found, writing it and installing what it asks for asks for its
includes and imports. -/
theorem found_tells (source : Source σ) (options : InstallOptions) {fetched : FetchedWorkflow}
    (is_remote : fetched.isLocal = false) (file : LocalPath) {world : World σ}
    (version : world.spec.version ≠ []) {owner repo : Text}
    (slug : WorkflowSpec.ownerAndRepo? world.spec.slug = some (owner, repo)) {query : Query}
    (last : Event.lastQuery? world.trace = some query) (next : List Text → Installed) :
    ∃ (references imports : List Text) (saves : List (Query × Bytes)),
      world.Tells
        ((writeWorkflow options file fetched.content >>= fun _ =>
          dependencies source options fetched >>= fun _ => recorded >>= fun after =>
            pure (next after)) world).2
        ((imports.map fun path => .file owner repo path world.spec.version) ++
          references.filterMap fun reference => Include.query? reference world.spec) saves ∧
      ∀ reference ∈ references, ∃ save ∈ saves, reference ∈ Include.named save.1 save.2 := by
  cases result : writeWorkflow options file fetched.content world with
  | mk outcome written =>
    cases outcome with
    | error fault =>
      have idle := idle_of_writeWorkflow_error (congrArg Prod.fst result)
      rw [bind_of_error (congrArg Prod.fst result)]
      exact ⟨[], [], [], idle.tells, fun reference mem => absurd mem List.not_mem_nil⟩
    | ok value =>
      have writes := tells_of_returns_writeWorkflow last result
      rw [bind_of_ok (congrArg Prod.fst result), result, summary_snd, dependencies, is_remote]
      rw [← writes.spec] at version slug
      obtain ⟨references, imports, saves, tells, names⟩ :=
        addDependencies_tells source options fetched.text version slug
      rw [writes.spec] at tells
      refine ⟨references, imports, saves ++ [(query, fetched.content)], ?_, fun reference mem => ?_⟩
      · have both := writes.trans tells
        rwa [List.append_nil] at both
      · rcases names reference mem with own | ⟨save, saved, named⟩
        · exact ⟨_, List.mem_append_right saves (List.mem_singleton.mpr rfl), own⟩
        · exact ⟨save, List.mem_append_left _ saved, named⟩

section Fetched

variable {source : Source σ} {world : World σ} {owner repo ref : Text}
  {fetched : FetchedWorkflow} {after : World σ} {tried : List Text}
  (in_order : tried.reverse <+: world.spec.path :: Workflow.fallbackPaths world.spec.path)
  (asked : (world.atVersion ref).Tells after
    ((tried.map fun path => .file owner repo path ref) ++
      .commit owner repo ref :: Workflow.branchQueries world.spec) [])
include in_order asked

/-- When the workflow was not found, no more is asked. -/
theorem at_revision_of_missing :
    AtRevision owner repo ref world after tried [] [] [] := by
  have unmoved : after.spec = { world.spec with version := ref } := asked.spec
  exact
    { spec := by rw [unmoved]
      path := by
        rw [unmoved]
        exact List.mem_cons_self
      in_order := in_order
      queries := asked.queries
      written := asked.saves
      named := fun reference mem => absurd mem List.not_mem_nil
      relative := fun reference mem => absurd mem List.not_mem_nil }

/-- When the workflow was found, its includes and imports are asked for from there. -/
theorem at_revision_of_found (options : InstallOptions) (version : ref ≠ [])
    (slug : WorkflowSpec.ownerAndRepo? world.spec.slug = some (owner, repo))
    (fetches : Returns (Workflow.fetch source) world fetched after)
    (is_remote : fetched.isLocal = false) (last : tried.head? = some fetched.path) :
    ∃ references imports saves, AtRevision owner repo ref world
      (addRecorded source options world).2 tried references imports saves := by
  obtain ⟨more, rfl⟩ := List.head?_eq_some_iff.mp last
  rw [addRecorded_apply fetches]
  dsimp only
  have spec : (located fetched after).spec =
      { world.spec with version := ref, path := fetched.path } := by
    have unmoved : after.spec = { world.spec with version := ref } := asked.spec
    rw [located, is_remote, if_neg Bool.false_ne_true, unmoved]
  have trace := trace_located fetched after
  generalize located fetched after = start at spec trace ⊢
  have last_query : Event.lastQuery? start.trace = some (.file owner repo fetched.path ref) :=
    trace ▸ asked.lastQuery?
  have queries : Event.queries start.trace =
      ((fetched.path :: more).map fun path => .file owner repo path ref) ++
        .commit owner repo ref :: Workflow.branchQueries world.spec ++
        Event.queries world.trace := trace ▸ asked.queries
  have unsaved : Event.saves start.trace = Event.saves world.trace := trace ▸ asked.saves
  have given : start.spec.version = ref := congrArg WorkflowSpec.version spec
  have home : WorkflowSpec.ownerAndRepo? start.spec.slug = some (owner, repo) :=
    (congrArg (fun spec => WorkflowSpec.ownerAndRepo? spec.slug) spec).trans slug
  obtain ⟨references, imports, saves, tells, named⟩ := found_tells source options is_remote
    (fileFor options.target start.spec fetched) (given ▸ version) home last_query
    fun recorded => summary (paths world) recorded fetched
      (fileFor options.target start.spec fetched)
  refine ⟨references, imports, saves, ?_⟩
  exact
    { spec := by rw [tells.spec, spec]
      path := by
        rw [tells.spec, spec]
        exact in_order.subset (List.mem_reverse.mpr List.mem_cons_self)
      in_order := in_order
      queries := by
        rw [tells.queries, queries, tells.spec, given]
        simp only [List.append_assoc]
      written := by rw [tells.saves, unsaved]
      named := named
      relative := fun reference mem relative => by
        rw [tells.spec, query?_of_relative relative (given ▸ version) home, given] }

end Fetched

theorem addRecorded_at_revision (source : Source σ) (options : InstallOptions) (world : World σ)
    {owner repo : Text} (remote : WorkflowSpec.isLocalPath world.spec.path = false)
    (slug : WorkflowSpec.ownerAndRepo? world.spec.slug = some (owner, repo))
    (answers : Workflow.branchOf source world ≠ .ok []) :
    let result := addRecorded source options world
    let ref := Workflow.revision world.spec.version (Workflow.branchOf source world)
    (∃ fault, Workflow.BranchFails source world fault ∧ result.1 = .error fault ∧
      world.Tells result.2 [.branch world.spec.slug] []) ∨
    ∃ tried references imports saves,
      AtRevision owner repo ref world result.2 tried references imports saves := by
  intro result ref
  have fetches : Workflow.fetch source world = Workflow.fetchRemote source world :=
    fetch_eq_fetchRemote remote slug
  rcases Workflow.fetchRemote_cases source world slug with
    ⟨fault, fails, ends, asked⟩ | ⟨tried, in_order, asked, found⟩
  · rw [← fetches] at ends asked
    have same : result = _ := addRecorded_of_error options ends
    rw [same]
    exact .inl ⟨fault, fails, rfl, asked⟩
  · rw [← fetches] at asked found
    cases outcome : (Workflow.fetch source world).1 with
    | error fault =>
      have same : result = _ := addRecorded_of_error options outcome
      rw [same]
      exact .inr ⟨tried, [], [], [], at_revision_of_missing in_order asked⟩
    | ok fetched =>
      have returns :
          Returns (Workflow.fetch source) world fetched (Workflow.fetch source world).2 :=
        Prod.ext outcome rfl
      have is_remote : fetched.isLocal = false :=
        isLocal_of_fetchRemote (fetches.symm.trans returns)
      exact .inr ⟨tried, at_revision_of_found in_order asked options
        (Workflow.revision_ne_nil answers) slug returns is_remote (found fetched outcome)⟩

/-- A workflow that is not local is installed at one revision: its version when one is given, or
else the default branch, or else the usual one. The commit, the workflow, its imports and the
includes that are not pinned are asked for in its repository at this revision, which is its version
in the end. The default branch is asked for at most once. When asking for it fails for good, the run
ends there and the version stays unset. -/
theorem add_at_revision (source : Source σ) (options : InstallOptions) (world : World σ)
    {owner repo : Text} (remote : WorkflowSpec.isLocalPath world.spec.path = false)
    (slug : WorkflowSpec.ownerAndRepo? world.spec.slug = some (owner, repo))
    (answers : Workflow.branchOf source world ≠ .ok []) :
    let result := add source options world
    let ref := Workflow.revision world.spec.version (Workflow.branchOf source world)
    (∃ fault, Workflow.BranchFails source world fault ∧ result.1 = .error fault ∧
      world.Tells result.2 [.branch world.spec.slug] []) ∨
    ∃ tried references imports saves,
      AtRevision owner repo ref world result.2 tried references imports saves := by
  intro result ref
  have same : result = _ := add_apply source options world
  rw [same]
  rcases addRecorded_at_revision source options (begun options world) remote slug answers with
    ⟨fault, fails, ends, tells⟩ | ⟨tried, references, imports, saves, all⟩
  · exact .inl ⟨fault, ⟨fails.unset, fails.answer, fails.passed_on⟩, ends,
      ⟨tells.spec, tells.queries, tells.saves⟩⟩
  · exact .inr ⟨tried, references, imports, saves, all.spec, all.path, all.in_order, all.queries,
      all.written, all.named, all.relative⟩

/-- A workflow that lies at its first fallback, with an include, a pinned include and an import. -/
theorem add_at_revision_fallback :
    let text := Utf8.encode "---\nimports: [b.md]\n---\n@include a.md\n@include o/q/x.md@v1\n"
    let source := ({ files := [⟨"o/r", "workflows/ci.md", "dev", .ok text⟩,
                      ⟨"o/r", "workflows/a.md", "dev", .ok [1]⟩, ⟨"o/q", "x.md", "v1", .ok [2]⟩,
                      ⟨"o/r", "workflows/b.md", "dev", .ok [3]⟩]
                     commit := .ok none
                     branch := .ok (some "dev") } : Table).source Unit
    let world := World.fresh () ⟨[], []⟩ ⟨"o/r", [], "ci", "ci"⟩
    let options : InstallOptions := ⟨LocalPath.ofText "t", false, true, true, 3⟩
    let result := add source options world
    WorkflowSpec.isLocalPath world.spec.path = false ∧
      WorkflowSpec.ownerAndRepo? world.spec.slug = some (("o" : Text), ("r" : Text)) ∧
      Workflow.branchOf source world ≠ .ok [] ∧
      Event.queries result.2.trace =
        [.file "o" "r" "workflows/b.md" "dev", .file "o" "q" "x.md" "v1",
          .file "o" "r" "workflows/a.md" "dev", .file "o" "r" "workflows/ci.md" "dev",
          .file "o" "r" "ci" "dev", .commit "o" "r" "dev", .branch "o/r"] ∧
      ((∃ fault, Workflow.BranchFails source world fault ∧ result.1 = .error fault ∧
          world.Tells result.2 [.branch world.spec.slug] []) ∨
        ∃ tried references imports saves,
          AtRevision "o" "r" (Workflow.revision world.spec.version (Workflow.branchOf source world))
            world result.2 tried references imports saves) := by
  intro text source world options result
  have slug : WorkflowSpec.ownerAndRepo? world.spec.slug = some (("o" : Text), ("r" : Text)) := by
    decide
  have answers : Workflow.branchOf source world ≠ .ok [] := by
    rw [show Workflow.branchOf source world = .ok "dev" from rfl]
    simp
  refine ⟨rfl, slug, answers, ?_, add_at_revision source options world rfl slug answers⟩
  decide +kernel

/-- When a source does not know the name by which the default branch is asked for, its fault ends
the run, and no version is pinned. -/
theorem not_pinned_unknown_key :
    let boom : Fault := .reported .unknownKey "boom"
    let source := ({ files := [], commit := .ok none, branch := .error boom } : Table).source Unit
    let world := World.fresh () ⟨[], []⟩ ⟨"o/r", [], "ci.md", "ci"⟩
    let result := add source ⟨LocalPath.ofText "t", false, true, true, 3⟩ world
    WorkflowSpec.isLocalPath world.spec.path = false ∧
      WorkflowSpec.ownerAndRepo? world.spec.slug = some (("o" : Text), ("r" : Text)) ∧
      (∀ disk slug, (source.branch disk () slug).outcome = .error boom) ∧
      result.1 = .error boom ∧ result.2.spec.version = [] ∧
      Workflow.revision world.spec.version (Workflow.branchOf source world) = "main" := by
  refine ⟨rfl, by decide, fun _ _ => rfl, rfl, ?_, rfl⟩
  decide +kernel

end WorkflowInstall.Install

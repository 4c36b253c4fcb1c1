import WorkflowInstall.Proofs.Run.Stopping
import WorkflowInstall.Proofs.Workflow.Fetching

/-!
# The first place at which a workflow is found

A workflow is downloaded from the first of its places at which a source has it. The places are
tried in order, and none is tried after a success. When all of them fail, the fault of the first one
is reported. Which commit the revision names has no influence on any of this.

## Main Definitions

* `Workflow.candidates` — the places of a workflow
* `Workflow.answers` — what a source answers at some places in turn
* `Workflow.FirstSuccess` — the first answer that is a success, or else the fault of the first one
* `Workflow.FetchesFirst` — a workflow is fetched from the first place at which it is found
* `Source.AnswersAlike` — two sources that differ only in the commits that they name

## Main Statements

* `Workflow.candidates_eq` — the path and its fallbacks
* `Workflow.FirstSuccess.unique` — the answers decide what is found and which places are tried
* `Workflow.firstFallback_first` — the fallbacks are tried in turn
* `Workflow.fetchRemote_fetchesFirst` — a workflow is fetched from the first place
* `Workflow.fetchRemote_firstSuccess` — it is the same place for every source that answers alike
-/

namespace WorkflowInstall

variable {σ τ : Type}

/-! ## Sources -/

/-- A commit that cannot be found out is a lookup that failed. -/
def Source.CommitsFailSoftly (source : Source σ) : Prop :=
  ∀ disk state owner repo ref fault,
    (source.commit disk state owner repo ref).outcome = .error fault → fault.isLookupFailure = true

/-- All lookups of a source fail in the expected ways. -/
structure Source.FailsSoftly (source : Source σ) : Prop where
  files : source.FilesFailSoftly
  branches : source.BranchesFailSoftly
  commits : source.CommitsFailSoftly

theorem Table.commitsFailSoftly {table : Table}
    (answers : ∀ fault, table.commit = .error fault → fault.isLookupFailure = true) :
    (table.source σ).CommitsFailSoftly :=
  fun _ _ _ _ _ _ failed => field_isLookupFailure answers failed

/-- Two sources answer alike when they are asked for files and default branches, and go on to do so.
They may name different commits, or none. -/
structure Source.AnswersAlike (related : σ → τ → Prop) (source : Source σ) (other : Source τ) :
    Prop where
  file : ∀ disk state state' owner repo path ref, related state state' →
    (source.file disk state owner repo path ref).outcome =
        (other.file disk state' owner repo path ref).outcome ∧
      related (source.file disk state owner repo path ref).state
        (other.file disk state' owner repo path ref).state
  branch : ∀ disk state state' slug, related state state' →
    (source.branch disk state slug).outcome = (other.branch disk state' slug).outcome ∧
      related (source.branch disk state slug).state (other.branch disk state' slug).state
  commit : ∀ disk state state' owner repo ref, related state state' →
    related (source.commit disk state owner repo ref).state
      (other.commit disk state' owner repo ref).state

/-! ## Worlds between which a source was asked -/

/-- Some questions were asked between two worlds, the last one first, and the source is in a given
state then. Nothing was written. -/
structure World.Asks (before after : World σ) (queries : List Query) (state : σ) : Prop where
  tells : before.Tells after queries []
  disk : after.disk = before.disk
  remote : after.remote = state

namespace World.Asks

variable {before middle after : World σ} {queries more : List Query} {state last : σ}

theorem refl (world : World σ) : world.Asks world [] world.remote := ⟨.refl world, rfl, rfl⟩

theorem trans (first : before.Asks middle queries state) (later : middle.Asks after more last) :
    before.Asks after (more ++ queries) last :=
  ⟨first.tells.trans later.tells, later.disk.trans first.disk, later.remote⟩

/-- Lines may be logged after that. -/
theorem logged (asks : before.Asks after queries state) (component : Component) (message : Text) :
    before.Asks (Run.log component message after).2 queries state :=
  have rests : after.Rests (Run.log component message after).2 := .log component message
  ⟨asks.tells.trans rests.tells, rests.disk.trans asks.disk, rests.remote.trans asks.remote⟩

theorem ask {α : Type} (query : Query) (reply : Disk → σ → Reply σ α) (world : World σ) :
    world.Asks (Run.ask query reply world).2 [query] (reply world.disk world.remote).state :=
  ⟨World.tells_ask query reply world, (Run.quiet_ask query reply world).disk,
    (Run.idle_ask query reply).remote⟩

theorem askFile (source : Source σ) (owner repo path ref : Text) (world : World σ) :
    world.Asks (Run.askFile source owner repo path ref world).2 [.file owner repo path ref]
      (source.file world.disk world.remote owner repo path ref).state :=
  .ask _ (fun disk state => source.file disk state owner repo path ref) world

end World.Asks

namespace Workflow

open Run

/-! ## Places -/

/-- The places of a workflow: its path, and when that is a file name alone, the same name with the
ending of a workflow file in the two directories for workflows. -/
def candidates (path : Text) : List Text :=
  if '/' ∈ path then [path]
  else [path, "workflows/" ++ withEnding path, ".github/workflows/" ++ withEnding path]

/-- A path in a directory has the ending of a workflow file just when the path alone has it. -/
theorem endsWith_directory_append (directory path : Text) :
    Text.endsWith ".md" (directory ++ "/" ++ path) = Text.endsWith ".md" path := by
  unfold Text.endsWith List.isSuffixOf
  rw [List.reverse_append, List.reverse_append]
  -- An ending of three characters that holds no slash does not reach into the directory.
  match path.reverse with
  | [] => rfl
  | [_] => simp [List.isPrefixOf]
  | [_, _] => simp [List.isPrefixOf]
  | _ :: _ :: _ :: _ => simp [List.isPrefixOf]

theorem withEnding_directory_append (directory path : Text) :
    withEnding (directory ++ "/" ++ path) = directory ++ "/" ++ withEnding path := by
  unfold withEnding
  rw [endsWith_directory_append]
  split
  · rfl
  · rw [List.append_assoc]

theorem candidates_eq (path : Text) : candidates path = path :: fallbackPaths path := by
  have shared (directory : Text) := withEnding_directory_append directory path
  unfold candidates fallbackPaths
  by_cases nested : '/' ∈ path
  · rw [if_pos nested, if_pos (List.contains_iff_mem.mpr nested)]
  · rw [if_neg nested, if_neg (mt List.contains_iff_mem.mp nested)]
    exact congrArg (path :: ·) (congrArg₂ (fun first second => [first, second])
      (shared "workflows").symm (shared ".github/workflows").symm)

/-! ## Answers -/

/-- What a source answers when it is asked for a file at some places in turn. -/
def answers (source : Source σ) (disk : Disk) (owner repo ref : Text) :
    σ → List Text → List (Text × Except Fault Bytes)
  | _, [] => []
  | state, path :: paths =>
    let reply := source.file disk state owner repo path ref
    (path, reply.outcome) :: answers source disk owner repo ref reply.state paths

/-- A place at which no file was found. -/
def Failed (attempt : Text × Except Fault Bytes) : Prop := ∃ fault, attempt.2 = .error fault

theorem not_failed_ok (path : Text) (content : Bytes) : ¬ Failed (path, .ok content) :=
  fun ⟨_, never⟩ => nomatch never

/-- The first of the answers that is a success, with its place, or else the fault of the first one.
Beside it stand the places up to the success, which are all of them when there is none. -/
inductive FirstSuccess (attempts : List (Text × Except Fault Bytes)) :
    Except Fault (Text × Bytes) → List Text → Prop
  /-- All places before this one failed. -/
  | found {failed later : List (Text × Except Fault Bytes)} {path : Text} {content : Bytes}
      (split : attempts = failed ++ (path, .ok content) :: later)
      (before : ∀ attempt ∈ failed, Failed attempt) :
      FirstSuccess attempts (.ok (path, content)) (failed.map Prod.fst ++ [path])
  /-- All places failed. -/
  | missing {path : Text} {first : Fault} {others : List (Text × Except Fault Bytes)}
      (split : attempts = (path, .error first) :: others)
      (all : ∀ attempt ∈ attempts, Failed attempt) :
      FirstSuccess attempts (.error first) (attempts.map Prod.fst)

namespace FirstSuccess

variable {attempts : List (Text × Except Fault Bytes)} {result other : Except Fault (Text × Bytes)}
  {tried tried' : List Text}

/-- It is a fault just when all places failed. -/
theorem error_iff (h : FirstSuccess attempts result tried) :
    (∃ fault, result = .error fault) ↔ ∀ attempt ∈ attempts, Failed attempt := by
  cases h with
  | @found failed later path content split before =>
    refine iff_of_false (fun ⟨_, never⟩ => nomatch never) fun all => ?_
    exact not_failed_ok path content (all _ (by simp [split]))
  | missing split all => exact iff_of_true ⟨_, rfl⟩ all

/-- The first success splits the answers in one way only. -/
theorem split_unique {failed failed' later later' : List (Text × Except Fault Bytes)}
    {path path' : Text} {content content' : Bytes}
    (before : ∀ attempt ∈ failed, Failed attempt) (before' : ∀ attempt ∈ failed', Failed attempt)
    (same : failed ++ (path, .ok content) :: later = failed' ++ (path', .ok content') :: later') :
    failed = failed' ∧ path = path' ∧ content = content' := by
  induction failed generalizing failed' with
  | nil =>
    cases failed' with
    | nil =>
      cases (List.cons.inj same).1
      exact ⟨rfl, rfl, rfl⟩
    | cons first rest =>
      obtain rfl := (List.cons.inj same).1
      exact absurd (before' _ List.mem_cons_self) (not_failed_ok path content)
  | cons first rest ih =>
    cases failed' with
    | nil =>
      obtain rfl := (List.cons.inj same).1
      exact absurd (before _ List.mem_cons_self) (not_failed_ok path' content')
    | cons first' rest' =>
      obtain ⟨rfl, left⟩ := List.cons.inj same
      obtain ⟨rfl, found⟩ := ih (fun attempt mem => before attempt (List.mem_cons_of_mem _ mem))
        (fun attempt mem => before' attempt (List.mem_cons_of_mem _ mem)) left
      exact ⟨rfl, found⟩

/-- The answers decide what is found and which places are tried. -/
theorem unique (h : FirstSuccess attempts result tried) (h' : FirstSuccess attempts other tried') :
    result = other ∧ tried = tried' := by
  cases h with
  | found split before =>
    cases h' with
    | found split' before' =>
      obtain ⟨rfl, rfl, rfl⟩ := split_unique before before' (split.symm.trans split')
      exact ⟨rfl, rfl⟩
    | missing _ all => exact nomatch (found split before).error_iff.mpr all
  | missing split all =>
    cases h' with
    | found split' before' => exact nomatch (found split' before').error_iff.mpr all
    | missing split' all' =>
      cases split.symm.trans split'
      exact ⟨rfl, rfl⟩

end FirstSuccess

/-! ## Downloads -/

/-- The questions for a file at some places, the last one first. -/
def fileQueries (owner repo ref : Text) (tried : List Text) : List Query :=
  tried.reverse.map fun path => .file owner repo path ref

theorem fileQueries_cons (owner repo ref path : Text) (tried : List Text) :
    fileQueries owner repo ref (path :: tried) =
      fileQueries owner repo ref tried ++ [.file owner repo path ref] := by
  simp [fileQueries]

section Downloads

variable {source : Source σ} (owner repo ref : Text)

/-- Places that are tried when some others have failed: the files are looked for in turn, and the
fault is the one of the very first place. -/
theorem firstFallback_first (files : source.FilesFailSoftly) (wrap : Fault → Fault) (place : Text)
    (first : Fault) {others : List (Text × Except Fault Bytes)}
    (before : ∀ attempt ∈ others, Failed attempt) (places : List Text) (world : World σ) :
    ∃ result tried state,
      FirstSuccess
        ((place, .error first) :: others ++
          answers source world.disk owner repo ref world.remote places)
        result (place :: others.map Prod.fst ++ tried) ∧
      (firstFallback source owner repo ref (wrap first) places world).1 = result.mapError wrap ∧
      world.Asks (firstFallback source owner repo ref (wrap first) places world).2
        (fileQueries owner repo ref tried) state := by
  have failed (others : List (Text × Except Fault Bytes))
      (before : ∀ attempt ∈ others, Failed attempt) :
      ∀ attempt ∈ (place, Except.error first) :: others, Failed attempt :=
    List.forall_mem_cons.mpr ⟨⟨first, rfl⟩, before⟩
  -- A place that fails joins those that failed before it.
  induction places generalizing others world with
  | nil =>
    refine ⟨.error first, [], world.remote, ?_, rfl, .refl world⟩
    rw [answers, List.append_nil, List.append_nil]
    exact .missing rfl (failed others before)
  | cons path places ih =>
    have asked := World.Asks.askFile source owner repo path ref world
    rw [firstFallback, bind_apply, attempt_apply, answers]
    dsimp only
    rw [show (askFile source owner repo path ref world).1 =
      (source.file world.disk world.remote owner repo path ref).outcome from rfl]
    cases answer : (source.file world.disk world.remote owner repo path ref).outcome with
    | ok content =>
      refine ⟨.ok (path, content), [path], _, ?_, rfl, asked.logged _ _⟩
      exact .found rfl (failed others before)
    | error fault =>
      have soft : fault.isLookupFailure = true :=
        files world.disk world.remote owner repo path ref fault answer
      dsimp only
      rw [if_pos soft]
      have after : ∀ attempt ∈ others ++ [(path, .error fault)], Failed attempt := by
        rintro attempt mem
        rcases List.mem_append.mp mem with old | new
        · exact before attempt old
        · exact ⟨fault, by rw [List.mem_singleton.mp new]⟩
      obtain ⟨result, tried, state, succeeds, ends, asks⟩ :=
        ih after (askFile source owner repo path ref world).2
      refine ⟨result, path :: tried, state, ?_, ends, ?_⟩
      · rw [asked.disk, asked.remote] at succeeds
        simpa using succeeds
      · rw [fileQueries_cons]
        exact asked.trans asks

/-- The places of a workflow are tried in turn. -/
theorem download_first (files : source.FilesFailSoftly) (path : Text) (world : World σ) :
    ∃ result tried state,
      FirstSuccess (answers source world.disk owner repo ref world.remote (candidates path)) result
        tried ∧
      (download source owner repo path ref world).1 =
        result.mapError (.workflowUnavailable owner repo path ref) ∧
      world.Asks (download source owner repo path ref world).2 (fileQueries owner repo ref tried)
        state := by
  have none_before : ∀ attempt ∈ ([] : List (Text × Except Fault Bytes)), Failed attempt :=
    fun _ mem => absurd mem List.not_mem_nil
  have asked := World.Asks.askFile source owner repo path ref world
  rw [candidates_eq, answers, download, bind_apply, attempt_apply]
  dsimp only
  rw [show (askFile source owner repo path ref world).1 =
    (source.file world.disk world.remote owner repo path ref).outcome from rfl]
  cases answer : (source.file world.disk world.remote owner repo path ref).outcome with
  | ok content =>
    refine ⟨.ok (path, content), [path], _, ?_, rfl, asked.logged _ _⟩
    exact .found (rfl : _ = [] ++ (path, Except.ok content) :: _) none_before
  | error fault =>
    have soft : fault.isLookupFailure = true :=
      files world.disk world.remote owner repo path ref fault answer
    dsimp only
    rw [if_pos soft]
    obtain ⟨result, tried, state, succeeds, ends, asks⟩ :=
      firstFallback_first owner repo ref files (.workflowUnavailable owner repo path ref) path fault
        none_before (fallbackPaths path) (askFile source owner repo path ref world).2
    rw [asked.disk, asked.remote] at succeeds
    refine ⟨result, path :: tried, state, succeeds, ends, ?_⟩
    rw [fileQueries_cons]
    exact asked.trans asks

end Downloads

/-! ## Fetching -/

section Fetching

variable (source : Source σ) (world : World σ) (owner repo : Text)

/-- The revision that the workflow at hand is fetched from. -/
def refOf : Text := revision world.spec.version (branchOf source world)

/-- The state of the source when the revision is known. -/
def afterBranch : σ :=
  if world.spec.version = [] then (source.branch world.disk world.remote world.spec.slug).state
  else world.remote

/-- What the source answers when it is asked for the commit of the revision. -/
def commitReply : Reply σ Text :=
  source.commit world.disk (afterBranch source world) owner repo (refOf source world)

/-- What the source answers at the places of the workflow in turn, once it was asked for the
commit. -/
def attempts : List (Text × Except Fault Bytes) :=
  answers source world.disk owner repo (refOf source world)
    (commitReply source world owner repo).state (candidates world.spec.path)

theorem remote_pinRef : (pinRef source world).2.remote = afterBranch source world := by
  have asked := (World.Asks.ask (.branch world.spec.slug)
    (fun disk state => source.branch disk state world.spec.slug) world).remote
  unfold afterBranch
  by_cases given : world.spec.version ≠ []
  · rw [pinRef_of_version source given, if_neg given]
  · have unset : world.spec.version = [] := Decidable.of_not_not given
    rw [pinRef_of_unset source unset, if_pos unset]
    dsimp only
    cases branchOf source world with
    | ok ref => exact asked
    | error fault =>
      dsimp only
      split <;> exact asked

/-- The revision becomes the version of the workflow at hand, and the default branch is asked for
when no version was given. -/
theorem pinRef_asks (branches : source.BranchesFailSoftly) :
    (pinRef source world).1 = .ok (refOf source world) ∧
      (world.atVersion (refOf source world)).Asks (pinRef source world).2
        (branchQueries world.spec) (afterBranch source world) := by
  rcases pinRef_cases source world with ⟨fault, fails, -⟩ | ⟨ends, tells⟩
  · exact nomatch fails.passed_on.symm.trans (branches _ _ _ fault fails.answer)
  · exact ⟨ends, tells, (pinRef_pinned source world).disk, remote_pinRef source world⟩

variable {source}

/-- The commit is asked for, and it is empty when the lookup fails. -/
theorem resolveCommit_asks (commits : source.CommitsFailSoftly) (ref : Text) :
    let reply := source.commit world.disk world.remote owner repo ref
    (resolveCommit source owner repo ref world).1 = .ok (reply.outcome.toOption.getD []) ∧
      world.Asks (resolveCommit source owner repo ref world).2 [.commit owner repo ref]
        reply.state := by
  intro reply
  have asked : world.Asks (askCommit source owner repo ref world).2 [.commit owner repo ref]
      reply.state :=
    .ask _ (fun disk state => source.commit disk state owner repo ref) world
  rw [resolveCommit, bind_apply, attempt_apply]
  dsimp only
  rw [show (askCommit source owner repo ref world).1 = reply.outcome from rfl]
  cases answer : reply.outcome with
  | ok commit => exact ⟨rfl, asked.logged _ _⟩
  | error fault =>
    dsimp only
    rw [if_pos (commits world.disk world.remote owner repo ref fault answer)]
    exact ⟨rfl, asked⟩

/-- What a workflow is when the places for it have been tried. The fault of the first place is the
cause when it is missing. -/
def outcomeOf (owner repo path ref commit : Text) :
    Except Fault (Text × Bytes) → Except Fault FetchedWorkflow
  | .ok (place, content) => .ok ⟨content, commit, false, place⟩
  | .error first => .error (.workflowUnavailable owner repo path ref first)

variable {owner repo}

theorem outcomeOf_eq_error_iff {path ref commit : Text} {result : Except Fault (Text × Bytes)} :
    (∃ fault, outcomeOf owner repo path ref commit result = .error fault) ↔
      ∃ fault, result = .error fault := by
  cases result with
  | ok found => exact iff_of_false (fun ⟨_, never⟩ => nomatch never) fun ⟨_, never⟩ => nomatch never
  | error first => exact iff_of_true ⟨_, rfl⟩ ⟨_, rfl⟩

/-- A workflow is fetched from the first of its places at which it is found. The default branch is
asked for when no version was given, then the commit of the revision, and then the places are tried
up to the one at which the workflow is found, or all of them. -/
structure FetchesFirst (source : Source σ) (world : World σ) (owner repo : Text)
    (result : Except Fault (Text × Bytes)) (tried : List Text) : Prop where
  first : FirstSuccess (attempts source world owner repo) result tried
  outcome : (fetchRemote source world).1 =
    outcomeOf owner repo world.spec.path (refOf source world)
      ((commitReply source world owner repo).outcome.toOption.getD []) result
  tells : (world.atVersion (refOf source world)).Tells (fetchRemote source world).2
    (fileQueries owner repo (refOf source world) tried ++
      .commit owner repo (refOf source world) :: branchQueries world.spec) []

/-- When all lookups fail in the expected ways, a workflow is fetched from the first place. -/
theorem fetchRemote_fetchesFirst (soft : source.FailsSoftly)
    (slug : WorkflowSpec.ownerAndRepo? world.spec.slug = some (owner, repo)) :
    ∃ result tried, FetchesFirst source world owner repo result tried := by
  obtain ⟨pinned, asked_branch⟩ := pinRef_asks source world soft.branches
  let message : Text := "Fetching " ++ owner ++ "/" ++ repo ++ "/" ++ world.spec.path ++ "@" ++
    refOf source world ++ "..."
  have begun := asked_branch.logged .workflow message
  generalize start_eq : (log .workflow message (pinRef source world).2).2 = start at begun
  obtain ⟨resolved, asked_commit⟩ :=
    resolveCommit_asks start owner repo soft.commits (refOf source world)
  rw [begun.disk, begun.remote] at resolved asked_commit
  have known := begun.trans asked_commit
  generalize middle_eq :
    (resolveCommit source owner repo (refOf source world) start).2 = middle at known
  obtain ⟨result, tried, state, succeeds, ends, asked_files⟩ :=
    download_first owner repo (refOf source world) soft.files world.spec.path middle
  rw [known.disk, known.remote] at succeeds
  -- The steps before the downloads succeed, so the run is the downloads in the world after them.
  have run : fetchRemote source world =
      (outcomeOf owner repo world.spec.path (refOf source world)
        ((commitReply source world owner repo).outcome.toOption.getD []) result,
      (download source owner repo world.spec.path (refOf source world) middle).2) := by
    rw [fetchRemote, bind_apply, show spec world = (.ok world.spec, world) from rfl]
    dsimp only
    rw [slug]
    dsimp only
    rw [bind_of_ok pinned]
    rw [bind_of_ok (show (log .workflow message (pinRef source world).2).1 = .ok () from rfl)]
    rw [start_eq, bind_of_ok resolved, middle_eq]
    cases result with
    | ok found =>
      rw [bind_of_ok ends]
      rfl
    | error first =>
      rw [bind_of_error ends]
      rfl
  refine ⟨result, tried, succeeds, ?_, ?_⟩
  · rw [run]
  · rw [run]
    exact (known.trans asked_files).tells

/-! ## Sources that answer alike -/

variable {world} {source : Source σ} {other : Source τ} {related : σ → τ → Prop} {world' : World τ}

theorem answers_alike (owner repo : Text) (alike : source.AnswersAlike related other)
    (disk : Disk) (ref : Text) {state : σ} {state' : τ} (h : related state state') (places : List Text) :
    answers source disk owner repo ref state places =
      answers other disk owner repo ref state' places := by
  induction places generalizing state state' with
  | nil => rfl
  | cons path places ih =>
    obtain ⟨same, next⟩ := alike.file disk state state' owner repo path ref h
    rw [answers, answers, same, ih next]

/-- Two sources that answer alike are asked for the same files and answer the same, whatever commits
they name. -/
theorem attempts_alike (owner repo : Text) (alike : source.AnswersAlike related other)
    (h : related world.remote world'.remote) (disk : world'.disk = world.disk)
    (spec : world'.spec = world.spec) :
    refOf other world' = refOf source world ∧
      attempts other world' owner repo = attempts source world owner repo := by
  obtain ⟨same, next⟩ := alike.branch world.disk world.remote world'.remote world.spec.slug h
  have branches : branchOf other world' = branchOf source world := by
    rw [branchOf, disk, spec]
    exact same.symm
  have ref : refOf other world' = refOf source world := by rw [refOf, spec, branches, refOf]
  have pinned : related (afterBranch source world) (afterBranch other world') := by
    rw [afterBranch, afterBranch, disk, spec]
    split
    · exact next
    · exact h
  refine ⟨ref, ?_⟩
  rw [attempts, attempts, commitReply, commitReply, ref, disk, spec]
  exact (answers_alike owner repo alike world.disk (refOf source world)
    (alike.commit world.disk _ _ owner repo (refOf source world) pinned) _).symm

/-- When all lookups fail in the expected ways, a workflow is fetched from the first of its places
at which it is found, and it is missing just when it is at none of them. Another source that answers
alike gives the same file of the same place after the same downloads, or the same fault, whatever
commits it names. -/
theorem fetchRemote_firstSuccess (soft : source.FailsSoftly)
    (slug : WorkflowSpec.ownerAndRepo? world.spec.slug = some (owner, repo)) :
    ∃ result tried, FetchesFirst source world owner repo result tried ∧
      ((∃ fault, (fetchRemote source world).1 = .error fault) ↔
        ∀ attempt ∈ attempts source world owner repo, Failed attempt) ∧
      ∀ {τ : Type} {other : Source τ} {related : σ → τ → Prop} {world' : World τ},
        other.FailsSoftly → source.AnswersAlike related other →
        related world.remote world'.remote → world'.disk = world.disk →
        world'.spec = world.spec →
          refOf other world' = refOf source world ∧
            FetchesFirst other world' owner repo result tried := by
  obtain ⟨result, tried, fetches⟩ := fetchRemote_fetchesFirst world soft slug
  refine ⟨result, tried, fetches, ?_, ?_⟩
  · rw [fetches.outcome, outcomeOf_eq_error_iff, fetches.first.error_iff]
  · intro τ other related world' soft' alike h disk spec
    obtain ⟨ref, same⟩ := attempts_alike owner repo alike h disk spec
    have slug' : WorkflowSpec.ownerAndRepo? world'.spec.slug = some (owner, repo) := by rwa [spec]
    obtain ⟨result', tried', fetches'⟩ := fetchRemote_fetchesFirst world' soft' slug'
    have first := fetches'.first
    rw [same] at first
    obtain ⟨rfl, rfl⟩ := fetches.first.unique first
    exact ⟨ref, fetches'⟩

/-- A short name is found in the second place, whether the commit is known or not. -/
theorem fetchRemote_firstSuccess_short :
    let spec : WorkflowSpec := ⟨"o/r", [], "ci", "ci"⟩
    let table := Table.ofFiles "o/r" [("workflows/ci.md", [1])]
    let named := { table with commit := .ok (some "0123456") }
    let world := World.fresh () ⟨[], []⟩ spec
    (fetchRemote (table.source Unit) world).1.toOption = some ⟨[1], [], false, "workflows/ci.md"⟩ ∧
      (fetchRemote (named.source Unit) world).1.toOption =
        some ⟨[1], "0123456", false, "workflows/ci.md"⟩ ∧
      ∃ result tried, FetchesFirst (table.source Unit) world "o" "r" result tried ∧
        FetchesFirst (named.source Unit) world "o" "r" result tried := by
  intro spec table named world
  obtain ⟨files, branches⟩ := Table.soft_ofFiles "o/r" [("workflows/ci.md", [1])] Unit
  have soft : (table.source Unit).FailsSoftly :=
    ⟨files, branches, Table.commitsFailSoftly fun _ never => nomatch never⟩
  have soft_named : (named.source Unit).FailsSoftly :=
    ⟨files, branches, Table.commitsFailSoftly fun _ never => nomatch never⟩
  have alike : (table.source Unit).AnswersAlike (fun _ _ => True) (named.source Unit) :=
    ⟨fun _ _ _ _ _ _ _ _ => ⟨rfl, trivial⟩, fun _ _ _ _ _ => ⟨rfl, trivial⟩,
      fun _ _ _ _ _ _ _ => trivial⟩
  have slug : WorkflowSpec.ownerAndRepo? world.spec.slug =
      some (("o" : Text), ("r" : Text)) := by decide +kernel
  obtain ⟨result, tried, fetches, -, others⟩ := fetchRemote_firstSuccess soft slug
  exact ⟨by decide +kernel, by decide +kernel, result, tried, fetches,
    (others soft_named alike trivial rfl rfl).2⟩

end Fetching

end Workflow

end WorkflowInstall

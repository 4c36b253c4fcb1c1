import WorkflowInstall.Proofs.Import.Steps
import WorkflowInstall.Proofs.Path.Canonical
import WorkflowInstall.Proofs.Run.Exploration
import WorkflowInstall.Proofs.Workflow.Pinning

/-!
# The closure of imports

Installing the imports of a text visits the paths that the text names, those that the files written
for them name, each seen from the directory of its file, and so on, and no others.

## Main Definitions

* `Import.targets` — the paths that a text in a directory names
* `Import.named` — the paths that a downloaded file names
* `Import.Asks` — how the file at a path is asked for
* `Import.KeptAt` — the file at which the import at a path is kept

## Main Statements

* `Import.installFrom_explores` — what is visited, asked and written, by induction on the depth
* `Import.install_explored` — the same for the imports of a workflow
* `Import.visited_isLeast_imports` — what has been visited when imports were installed is the
  least closure
-/

namespace WorkflowInstall.Import

open Run

variable {σ : Type}

/-! ## What a text names -/

/-- The entries of a text; none when they cannot be read. -/
def entries (text : Text) : List Text := (listed text).toOption.getD []

/-- The path that an entry in a directory names. A pinned reference, an entry without a path and one
that leaves the repository name none. -/
def target? (directory entry : Text) : Option Text :=
  let path := (RepoPath.splitSection entry).1
  if RepoPath.isPinned entry || path.isEmpty then none
  else
    let target := RepoPath.join directory path
    if (RepoPath.checkInside target).isOk then some target else none

/-- The paths that a text in a directory names. -/
def targets (directory text : Text) : List Text := (entries text).filterMap (target? directory)

/-- The paths that a downloaded file names, seen from its own directory. -/
def named (query : Query) (content : Bytes) : List Text :=
  match query with
  | .file _ _ path _ => targets (RepoPath.parent path) (Utf8.decodeLossy content)
  | _ => []

/-! ## How a file is asked for -/

/-- The file at a path is asked for in the repository and at the revision of a run. The path is
canonical, and unless files are written over, nothing is at the place it is kept at. -/
structure Asks (origin : Origin) (path : Text) (download : Download) : Prop where
  query : download.query = .file origin.owner origin.repo path origin.ref
  canonical : RepoPath.IsCanonical path
  vacant : ∃ file, RepoPath.toLocal path origin.base origin.target = .ok file ∧
    (origin.force = false → download.disk.pathExists file.text = false)

/-- The file at which the import at a path is kept. -/
def KeptAt (origin : Origin) (path : Text) (file : LocalPath) : Prop :=
  RepoPath.toLocal path origin.base origin.target = .ok file

section Resolve

variable (source : Source σ)

/-! ## One file -/

/-- What becomes of the file at a path: it is not asked for, or it is asked for and not written, or
it is asked for and its content is written. In between and afterwards nothing else is asked. -/
inductive Handled (origin : Origin) (path : Text) (file : LocalPath) (world : World σ) :
    Except Fault (Option Bytes) → World σ → Prop
  | passed {outcome : Except Fault (Option Bytes)} {after : World σ} (idle : world.Idle after)
      (unwritten : ∀ content, outcome ≠ .ok (some content)) :
      Handled origin path file world outcome after
  | asked {outcome : Except Fault (Option Bytes)} {after : World σ}
      (vacant : origin.force = false → world.disk.pathExists file.text = false)
      (idle : (askFile source origin.owner origin.repo path origin.ref world).2.Idle after)
      (unwritten : ∀ content, outcome ≠ .ok (some content)) :
      Handled origin path file world outcome after
  | saved {content : Bytes} {disk : Disk} {location : Location} {after : World σ}
      (vacant : origin.force = false → world.disk.pathExists file.text = false)
      (answer : (askFile source origin.owner origin.repo path origin.ref world).1 = .ok content)
      (cwd : disk.cwd =
        (askFile source origin.owner origin.repo path origin.ref world).2.disk.cwd)
      (written : disk.writable file.text = .ok location)
      (idle : ((askFile source origin.owner origin.repo path origin.ref world).2.wrote disk
        location content).Idle after) :
      Handled origin path file world (.ok (some content)) after

/-- An import that cannot be written leaves no more than directories behind. -/
theorem Stored.idle_of_error {force : Bool} {file : LocalPath} {content : Bytes}
    {world after : World σ} {fault : Fault}
    (stored : Stored force file content world (.error fault) after) : world.Idle after := by
  cases stored with
  | unread => exact .refl world
  | unready ready =>
    have idle : world.Idle (makeDirs file.parent world).2 := idle_makeDirs file.parent
    rwa [makeDirs_snd, ← Disk.prepare_snd, ready] at idle

theorem writeOne_handled (origin : Origin) (path : Text) (file : LocalPath) (world : World σ) :
    Handled source origin path file world (writeOne source origin path file world).1
      (writeOne source origin path file world).2 := by
  have vacant {isThere : Bool} (probed : world.disk.probe file.text = .ok isThere)
      (allowed : origin.force = false → isThere = false) (keeps : origin.force = false) :
      world.disk.pathExists file.text = false := by
    rw [Disk.pathExists_of_probe probed, allowed keeps]
  have ended := writeOne_ended source origin path file world
  generalize (writeOne source origin path file world).1 = outcome at ended ⊢
  generalize (writeOne source origin path file world).2 = after at ended ⊢
  cases ended with
  | unseen => exact .passed (.refl world) (by simp)
  | skipped _ _ logs => exact .passed logs.rests.toIdle (by simp)
  | unanswered probed allowed _ ends logs =>
    refine .asked (vacant probed allowed) logs.rests.toIdle fun content given => ?_
    rw [ends] at given
    split at given <;> exact absurd given (by simp)
  | unwritten probed allowed _ stored ends logs =>
    have idle := stored.idle_of_error.trans logs.rests.toIdle
    refine .asked (vacant probed allowed) idle fun content given => ?_
    rw [ends] at given
    split at given <;> exact absurd given (by simp)
  | saved probed allowed answer stored =>
    cases stored with
    | saved _ ready =>
      obtain ⟨dirs, written⟩ := Disk.made_of_prepare ready
      exact .saved (vacant probed allowed) answer (Disk.cwd_of_makeDirs dirs) written
        ((World.idle_record _ _ rfl).trans (idle_noted _ _))

variable {origin : Origin}

/-- A run goes on only when something was written. -/
theorem unwritten_bind {run : Run σ (Option Bytes)} {next : Option Bytes → Run σ Unit}
    (stops : next none = pure ()) {world : World σ}
    (unwritten : ∀ content, (run world).1 ≠ .ok (some content)) :
    ((run >>= next) world).2 = (run world).2 := by
  rw [bind_apply]
  cases result : run world with
  | mk outcome after =>
    rw [result] at unwritten
    cases outcome with
    | error fault => rfl
    | ok found =>
      cases found with
      | none => exact congrArg Prod.snd (congrFun stops after)
      | some content => exact absurd rfl (unwritten content)

/-- A path that was visited is explored by handling its file and going on with what is written. -/
theorem writeOne_bind_explored {path : Text} {file : LocalPath} {before now : World σ}
    (tours : before.Tours source now [.passed path]) (canonical : RepoPath.IsCanonical path)
    (kept : RepoPath.toLocal path origin.base origin.target = .ok file)
    {next : Option Bytes → Run σ Unit} (stops : next none = pure ())
    (goes_on : ∀ content world, Explores source named (Asks origin) (KeptAt origin) True
      (targets (RepoPath.parent path) (Utf8.decodeLossy content)) (next (some content)) world) :
    ∃ tour, Explored source named (Asks origin) (KeptAt origin) [path] before
      ((writeOne source origin path file >>= next) now).2
      (True ∧ ((writeOne source origin path file >>= next) now).1 = .ok ()) tour := by
  let download : Download := ⟨now.disk, origin.owner, origin.repo, path, origin.ref⟩
  have asks (vacant : origin.force = false → now.disk.pathExists file.text = false) :
      Asks origin path download := ⟨rfl, canonical, file, kept, vacant⟩
  have asked := tours.ask download rfl
  have handled := writeOne_handled source origin path file now
  generalize outcome_eq : (writeOne source origin path file now).1 = outcome at handled
  generalize after_eq : (writeOne source origin path file now).2 = after at handled
  cases handled with
  | passed idle unwritten =>
    rw [unwritten_bind stops (outcome_eq ▸ unwritten), after_eq]
    exact ⟨_, .passed (tours.idle idle)⟩
  | asked vacant idle unwritten =>
    rw [unwritten_bind stops (outcome_eq ▸ unwritten), after_eq]
    exact ⟨_, .asked (asked.idle idle) (asks vacant)⟩
  | @saved content disk location _ vacant answer cwd written idle =>
    have saved := (asked.wrote ⟨now.remote, answer⟩ cwd location).idle idle
    obtain ⟨tour, explored⟩ := goes_on content after
    have result : (writeOne source origin path file >>= next) now = next (some content) after := by
      rw [bind_apply, show writeOne source origin path file now = (.ok (some content), after) from
        Prod.ext outcome_eq after_eq]
    rw [result]
    exact ⟨_, .descend saved (asks vacant) kept ⟨disk, cwd.trans asked.cwd, written⟩ explored⟩

/-! ## All files -/

section Nested

variable {nested : Text → Text → Run σ Unit}
  (nested_explores : ∀ directory text world,
    Explores source named (Asks origin) (KeptAt origin) True (targets directory text)
      (nested directory text) world)
include nested_explores

/-- A path is visited, and then what its file names if it is written. -/
theorem installAt_explores (entry : Text) {directory path : Text}
    (inside : RepoPath.checkInside (RepoPath.join directory path) = .ok ()) (world : World σ) :
    Explores source named (Asks origin) (KeptAt origin) True [RepoPath.join directory path]
      (installAt source origin nested entry (RepoPath.join directory path)) world := by
  have climbs := RepoPath.isCanonical_join inside
  generalize RepoPath.join directory path = target at inside climbs ⊢
  unfold installAt
  rw [inside]
  refine explores_visited_bind ?_
  split
  case isTrue known => exact explores_known (.refl world) (List.contains_iff_mem.mp known)
  case isFalse fresh =>
    refine explores_visit_bind (fun known => fresh (List.contains_iff_mem.mpr known)) ?_
    intro now tours
    cases placed : place origin now.disk.here target with
    | error refused => exact ⟨_, .passed (tours.idle (idle_log _ _))⟩
    | ok file =>
      obtain ⟨kept, -⟩ := place_kept placed
      exact writeOne_bind_explored source tours (climbs (RepoPath.ne_dot_of_toLocal kept)) kept rfl
        fun content after => nested_explores _ _ after

/-- An entry is explored by what it names. -/
theorem installOne_explores (directory entry : Text) (world : World σ) :
    Explores source named (Asks origin) (KeptAt origin) True (target? directory entry).toList
      (installOne source origin nested directory entry) world := by
  rw [installOne, target?]
  dsimp only
  split
  · exact explores_idle (.refl world)
  · cases inside :
        RepoPath.checkInside (RepoPath.join directory (RepoPath.splitSection entry).1) with
    | ok value => exact installAt_explores source nested_explores entry inside world
    | error refused =>
      rw [installAt, inside]
      exact explores_idle (idle_log _ _)

theorem installAll_explores (directory : Text) (entries : List Text) (world : World σ) :
    Explores source named (Asks origin) (KeptAt origin) True
      (entries.filterMap (target? directory))
      (installAll source origin nested directory entries) world := by
  induction entries generalizing world with
  | nil => exact explores_idle (.refl world)
  | cons entry rest ih =>
    exact explores_cons (installOne_explores source nested_explores directory entry world)
      fun after _ => ih after

end Nested

/-- What is visited, asked and written, by induction on the depth. -/
theorem installFrom_explores (origin : Origin) (depth : Nat) (directory text : Text)
    (world : World σ) :
    Explores source named (Asks origin) (KeptAt origin) True (targets directory text)
      (installFrom source origin depth directory text) world := by
  induction depth generalizing directory text world with
  | zero => exact explores_fail _
  | succ depth ih =>
    unfold installFrom targets entries
    cases listed text with
    | error fault => exact explores_fail _
    | ok entries => exact installAll_explores source ih directory entries world

theorem install_of_no_repository {target : LocalPath} {force : Bool} {depth : Nat} {text : Text}
    {world : World σ} (slug : WorkflowSpec.ownerAndRepo? world.spec.slug = none) :
    install source target force depth text world = (.ok (), world) := by
  rw [install, bind_apply, show spec world = (.ok world.spec, world) from rfl]
  dsimp only
  rw [slug]
  rfl

/-- What the imports of a workflow visit, ask for and write, after its version was pinned. -/
theorem install_explored (target : LocalPath) (force : Bool) (depth : Nat) (text : Text)
    {world : World σ} {owner repo : Text}
    (slug : WorkflowSpec.ownerAndRepo? world.spec.slug = some (owner, repo)) :
    ∃ pinned middle tour, Workflow.Pinned source world pinned middle ∧
      (let origin : Origin :=
        ⟨owner, repo, middle.spec.version, RepoPath.parent world.spec.path, target, force⟩
      Explored source named (Asks origin) (KeptAt origin) (targets origin.base text) middle
        (install source target force depth text world).2
        ((install source target force depth text world).1 = .ok ()) tour) ∧
      (tour = [] ∨ Workflow.pinRef source world = (.ok middle.spec.version, middle)) := by
  have unpinned := Workflow.pinned_refl source world
  unfold install
  rw [bind_apply, show spec world = (.ok world.spec, world) from rfl]
  dsimp only
  rw [slug]
  dsimp only
  cases names : listed text with
  | error fault =>
    exact ⟨_, world, [], unpinned, .still (.refl world) fun failed => absurd failed (by simp),
      Or.inl rfl⟩
  | ok found =>
    cases found with
    | nil =>
      have none : targets (RepoPath.parent world.spec.path) text = [] := by
        rw [targets, entries, names]
        rfl
      rw [none]
      exact ⟨_, world, [], unpinned,
        .still (.refl world) fun _ _ mem => absurd mem List.not_mem_nil, Or.inl rfl⟩
    | cons entry rest =>
      have pinned := Workflow.pinRef_pinned source world
      dsimp only
      rw [bind_apply]
      cases result : Workflow.pinRef source world with
      | mk outcome middle =>
        rw [result] at pinned
        cases outcome with
        | error fault =>
          exact ⟨_, middle, [], pinned, .still (.refl middle) fun failed => absurd failed (by simp),
            Or.inl rfl⟩
        | ok ref =>
          have same : middle.spec.version = ref := pinned.version ref rfl
          subst same
          let origin : Origin := ⟨owner, repo, middle.spec.version, RepoPath.parent world.spec.path,
            target, force⟩
          obtain ⟨tour, explored⟩ :=
            installFrom_explores source origin depth origin.base text middle
          exact ⟨_, middle, tour, pinned,
            explored.idle (.refl _) fun is_done => ⟨trivial, is_done⟩, Or.inr rfl⟩

end Resolve

/-- When the imports of a workflow have been installed and nothing was visited before, the paths
that were visited are the least set that holds all that the workflow names, seen from its directory,
and all that the files written for paths of the set name, each seen from its own directory. What was
written is what was downloaded. -/
theorem visited_isLeast_imports (source : Source σ) (target : LocalPath) (force : Bool)
    (depth : Nat) (text : Text) {world : World σ} (fresh : world.visited = []) {owner repo : Text}
    (slug : WorkflowSpec.ownerAndRepo? world.spec.slug = some (owner, repo))
    (returns : (install source target force depth text world).1 = .ok ()) :
    let after := (install source target force depth text world).2
    ∃ events, after.trace = events ++ world.trace ∧
      (∀ save ∈ Event.saves events,
        ∃ download : Download, download.query = save.1 ∧ download.Answers source save.2) ∧
      IsLeast {paths | Closed named (targets (RepoPath.parent world.spec.path) text)
          (Event.saves events) paths}
        {path | path ∈ after.visited} := by
  obtain ⟨_, middle, tour, pinned, explored, -⟩ :=
    install_explored source target force depth text slug
  obtain ⟨events, trace, -, saves⟩ := pinned.told explored.tours
  refine ⟨events, trace, ?_, ?_⟩
  · rw [saves]
    exact fun save mem => explored.answered mem
  · rw [saves]
    exact explored.isLeast_visited returns (pinned.visited.trans fresh)

/-- Two files that import each other, one of them in a directory below. -/
theorem visited_isLeast_cycle :
    let world := World.fresh () ⟨[], []⟩ ⟨"o/r", [], "flows/ci.md", "ci"⟩
    let source := (Table.ofFiles "o/r"
      [("flows/a.md", Utf8.encode "---\nimports: [sub/b.md]\n---\n"),
        ("flows/sub/b.md", Utf8.encode "---\nimports: [/flows/a.md]\n---\n")]).source Unit
    let text : Text := "---\nimports: [a.md]\n---\n"
    let after := (install source (LocalPath.ofText "d") false 3 text world).2
    world.visited = [] ∧
      WorkflowSpec.ownerAndRepo? world.spec.slug = some (("o" : Text), ("r" : Text)) ∧
      (install source (LocalPath.ofText "d") false 3 text world).1 = .ok () ∧
      ∃ events, after.trace = events ++ world.trace ∧
        (∀ save ∈ Event.saves events,
          ∃ download : Download, download.query = save.1 ∧ download.Answers source save.2) ∧
        IsLeast {paths | Closed named (targets "flows" text) (Event.saves events) paths}
          {path | path ∈ after.visited} := by
  intro world source text after
  have slug : WorkflowSpec.ownerAndRepo? world.spec.slug = some (("o" : Text), ("r" : Text)) := by
    decide
  have returns : (install source (LocalPath.ofText "d") false 3 text world).1 = .ok () :=
    eq_ok_of_isOk (by decide +kernel)
  exact ⟨rfl, slug, returns,
    visited_isLeast_imports source (LocalPath.ofText "d") false 3 text rfl slug returns⟩

end WorkflowInstall.Import

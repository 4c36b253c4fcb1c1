import WorkflowInstall.Proofs.Disk.Spelling
import WorkflowInstall.Proofs.Import.Treating
import WorkflowInstall.Proofs.Run.Stopping

/-!
# Why installing imports ends with a fault

An import that cannot be fetched or written is left out, and those after it are still installed. But
the place of an import is looked up before anything is caught, and a path that cannot be spelled is
no failure of the file system. These two end the run, whatever comes after them.

## Main Definitions

* `Import.Breaks` — the faults that a local path can be blamed for
* `Import.blame` — what can be blamed when imports are installed

## Main Statements

* `Import.written_tells` — what has been asked and written for one import
* `Import.installFrom_stops`, `Import.install_stops` — why installing imports ends with a fault, by
  induction on the depth
* `Import.imports_go_on` — it ends with no other fault, and else nothing is passed over
* `Import.not_going_on` — an import whose name is too long, and one whose path cannot be spelled
-/

namespace WorkflowInstall.Import

open Run

variable {σ : Type}

/-- The faults that a local path can be blamed for. -/
inductive Breaks (file : LocalPath) : Fault → Prop
  /-- It is too long to be looked up. -/
  | tooLong (long : Disk.IsTooLong file.text) :
      Breaks file (.disk (.refused .nameTooLong file.text))
  /-- It cannot be spelled. -/
  | misspelled {fault : DiskFault} (misspelled : ¬ Disk.Nameable file.text)
      (own : (Fault.disk fault).isStorage = false) : Breaks file (.disk fault)

/-- What can be blamed when the imports of a workflow in a directory are installed: the local path
of an import, and a file whose frontmatter cannot be read. -/
def blame (base : Text) (target : LocalPath) : Blame where
  next := named
  path path fault := ∃ file, RepoPath.toLocal path base target = .ok file ∧ Breaks file fault
  file _ content fault := listed (Utf8.decodeLossy content) = .error fault

/-- What has been written when handling a file ends in a way. -/
def saved (query : Query) : Except Fault (Option Bytes) → List (Query × Bytes)
  | .ok (some content) => [(query, content)]
  | _ => []

section Resolve

variable (source : Source σ) (soft : source.FilesFailSoftly) (origin : Origin)
include soft

/-! ## One file -/

/-- What has been written when the file at a path was handled, and why that ends with a fault. -/
theorem written_tells {path : Text} {file : LocalPath} (plain : file.IsPlain) {world : World σ}
    {outcome : Except Fault (Option Bytes)} {after : World σ}
    (written : Written source origin path file world outcome after) :
    (∃ queries, world.Tells after queries
        (saved (.file origin.owner origin.repo path origin.ref) outcome)) ∧
      ∀ fault, outcome = .error fault → Breaks file fault := by
  have asked := World.tells_ask (.file origin.owner origin.repo path origin.ref)
    (fun disk state => source.file disk state origin.owner origin.repo path origin.ref) world
  cases written with
  | unseen probed =>
    obtain ⟨rfl, long⟩ := Disk.isTooLong_of_probe probed
    refine ⟨⟨[], .refl world⟩, fun fault same => ?_⟩
    cases same
    exact .tooLong long
  | skipped _ _ rests => exact ⟨⟨[], rests.tells⟩, by simp⟩
  | @unanswered isThere fault _ _ _ _ answer ends rests =>
    rw [if_pos (soft _ _ _ _ _ _ fault answer)] at ends
    subst ends
    exact ⟨⟨_, asked.trans rests.tells⟩, by simp⟩
  | @unready isThere content fault made _ _ _ _ _ ready ends rests =>
    -- Directories may have been made by now, and nothing is told about these.
    have later : World.Tells (askFile source origin.owner origin.repo path origin.ref world).2 after
        [] [] := ⟨rests.tells.spec, rests.tells.queries, rests.tells.saves⟩
    split at ends
    case isTrue stored =>
      subst ends
      exact ⟨⟨_, asked.trans later⟩, by simp⟩
    case isFalse own =>
      subst ends
      refine ⟨⟨_, asked.trans later⟩, fun other same => ?_⟩
      cases same
      refine .misspelled (fun nameable => own ?_) (Bool.eq_false_iff.mpr own)
      exact Disk.isStorage_of_prepare nameable plain ready
  | saved _ _ _ _ rests =>
    exact ⟨⟨_, (asked.trans (World.tells_wrote asked.lastQuery? _ _ _)).trans rests.tells⟩, by simp⟩

/-! ## All files -/

/-- Installing the imports of a text in a directory ends with the fault of its frontmatter, or else
for the reasons of the paths that it names. -/
def StopsFrom (depth : Nat) (nested : Text → Text → Run σ Unit) : Prop :=
  ∀ directory text world,
    (∃ fault, listed text = .error fault ∧ nested directory text world = (.error fault, world)) ∨
      StopsFor (blame origin.base origin.target) (targets directory text) depth
        (nested directory text) world

section Nested

variable (plain : origin.target.IsPlain) {depth : Nat} {nested : Text → Text → Run σ Unit}
  (nested_stops : StopsFrom origin depth nested)
include plain nested_stops

/-- The path is to blame, or the file that is written, or what this file names. -/
theorem installAt_stops (entry : Text) {path : Text} (inside : RepoPath.checkInside path = .ok ())
    (world : World σ) :
    StopsFor (blame origin.base origin.target) [path] (depth + 1)
      (installAt source origin nested entry path) world := by
  unfold installAt
  rw [inside]
  refine stopsFor_visited_bind ?_
  split
  · exact stopsFor_idle (.refl world) rfl
  refine stopsFor_visit_bind fun now _ _ => ?_
  cases placed : place origin world.disk.here path with
  | error refused => exact stopsFor_idle (idle_log _ _) rfl
  | ok file =>
    have file_plain := isPlain_of_place plain placed
    obtain ⟨⟨queries, tells⟩, breaks⟩ := written_tells source soft origin file_plain
      (writeOne_written source origin path file now file_plain)
    dsimp only
    rw [StopsFor, bind_apply]
    cases result : writeOne source origin path file now with
    | mk outcome after =>
      rw [result] at tells breaks
      cases outcome with
      | error fault =>
        refine ⟨queries, [], tells, fun other same => ?_⟩
        cases same
        exact .first (List.mem_singleton.mpr rfl) ⟨file, (place_kept placed).1, breaks fault rfl⟩
      | ok found =>
        cases found with
        | none => exact ⟨queries, [], tells, fun _ failed => absurd failed (by simp)⟩
        | some content =>
          dsimp only
          rcases nested_stops (RepoPath.parent path) (Utf8.decodeLossy content) after with
            ⟨fault, unread, result⟩ | stops
          · rw [result]
            refine ⟨_, _, tells, fun other same => ?_⟩
            cases same
            exact .written (List.mem_singleton.mpr rfl) unread
          · exact StopsFor.descend tells stops

theorem installOne_stops (directory entry : Text) (world : World σ) :
    StopsFor (blame origin.base origin.target) (target? directory entry).toList (depth + 1)
      (installOne source origin nested directory entry) world := by
  rw [installOne, target?]
  dsimp only
  split
  · exact stopsFor_idle (.refl world) rfl
  · cases inside :
        RepoPath.checkInside (RepoPath.join directory (RepoPath.splitSection entry).1) with
    | ok value => exact installAt_stops source soft origin plain nested_stops entry inside world
    | error refused =>
      rw [installAt, inside]
      exact stopsFor_idle (idle_log _ _) rfl

theorem installAll_stops (directory : Text) (entries : List Text) (world : World σ) :
    StopsFor (blame origin.base origin.target) (entries.filterMap (target? directory)) (depth + 1)
      (installAll source origin nested directory entries) world := by
  induction entries generalizing world with
  | nil => exact stopsFor_idle (.refl world) rfl
  | cons entry rest ih =>
    have one := installOne_stops source soft origin plain nested_stops directory entry world
    exact stopsFor_cons one fun after _ => ih after

end Nested

/-- Why installing imports ends with a fault, by induction on the depth. -/
theorem installFrom_stops (plain : origin.target.IsPlain) (depth : Nat) :
    StopsFrom origin depth (installFrom source origin depth) := by
  induction depth with
  | zero =>
    refine fun directory text world => .inr ⟨[], [], .refl world, fun fault ends => ?_⟩
    cases ends
    exact .tooDeep (Nat.le_refl 0) rfl
  | succ depth ih =>
    intro directory text world
    unfold installFrom
    cases names : listed text with
    | error fault => exact .inl ⟨fault, rfl, rfl⟩
    | ok found =>
      right
      rw [targets, entries, names]
      exact installAll_stops source soft origin plain ih directory found world

end Resolve

/-! ## The imports of a workflow -/

/-- The version is pinned when a default branch that cannot be found out is a lookup that failed. -/
theorem pinRef_of_soft {source : Source σ} (soft : source.BranchesFailSoftly) (world : World σ) :
    ∃ ref, (Workflow.pinRef source world).1 = .ok ref := by
  by_cases given : world.spec.version ≠ []
  · rw [Workflow.pinRef_of_version source given]
    exact ⟨_, rfl⟩
  · rw [Workflow.pinRef_of_unset source (Decidable.of_not_not given)]
    dsimp only
    cases answer : Workflow.branchOf source world with
    | ok ref => exact ⟨ref, rfl⟩
    | error fault =>
      dsimp only
      rw [if_pos (soft _ _ _ fault answer)]
      exact ⟨Workflow.usualRef, rfl⟩

/-- Why installing the imports of a workflow ends with a fault. -/
theorem install_stops {source : Source σ} (files : source.FilesFailSoftly)
    (branches : source.BranchesFailSoftly) {target : LocalPath} (plain : target.IsPlain)
    (force : Bool) (depth : Nat) (text : Text) (world : World σ) :
    let base := RepoPath.parent world.spec.path
    ∃ saves, Event.saves (install source target force depth text world).2.trace =
        saves ++ Event.saves world.trace ∧
      ∀ fault, (install source target force depth text world).1 = .error fault →
        listed text = .error fault ∨
          Stops (blame base target) (targets base text) depth saves fault := by
  intro base
  rw [install, bind_apply, show spec world = (.ok world.spec, world) from rfl]
  dsimp only
  cases WorkflowSpec.ownerAndRepo? world.spec.slug with
  | none => exact ⟨[], rfl, fun fault failed => absurd failed (by simp)⟩
  | some names =>
    obtain ⟨owner, repo⟩ := names
    dsimp only
    cases found : listed text with
    | error fault =>
      refine ⟨[], rfl, fun other same => .inl ?_⟩
      cases same
      rfl
    | ok entries =>
      cases entries with
      | nil => exact ⟨[], rfl, fun fault failed => absurd failed (by simp)⟩
      | cons entry rest =>
        dsimp only
        obtain ⟨ref, pins⟩ := pinRef_of_soft branches world
        obtain ⟨events, trace, nothing⟩ := (Workflow.pinRef_pinned source world).trace
        rw [bind_of_ok pins]
        have goes_on := installFrom_stops source files ⟨owner, repo, ref, base, target, force⟩
          plain depth base text (Workflow.pinRef source world).2
        rcases goes_on with ⟨fault, unread, -⟩ | ⟨queries, saves, tells, stops⟩
        · exact absurd (found.symm.trans unread) (by simp)
        · refine ⟨saves, ?_, fun fault ends => .inr (stops fault ends)⟩
          rw [tells.saves, trace, (nothing world.trace).2]

/-- When all lookups fail in the expected ways, installing the imports of a workflow ends well, and
then every path has been visited that the workflow or a written file names, whatever became of those
before it, and was asked for unless it may not be kept or something is at its place. Or it ends with
a fault for one of four reasons: the frontmatter of the workflow or of a written file cannot be
read, such a path is kept at a place that is too long to be looked up or cannot be spelled, or the
depth is not enough for the files that were written. -/
theorem imports_go_on (source : Source σ) (files : source.FilesFailSoftly)
    (branches : source.BranchesFailSoftly) (dir text : Text) (force : Bool) (depth : Nat)
    (world : World σ) (tree : world.disk.IsTree) :
    let base := RepoPath.parent world.spec.path
    let target := LocalPath.ofText dir
    let outcome := (install source target force depth text world).1
    let after := (install source target force depth text world).2
    ∃ events, after.trace = events ++ world.trace ∧
      (outcome = .ok () → ∀ owner repo,
        WorkflowSpec.ownerAndRepo? world.spec.slug = some (owner, repo) →
          Closed named (targets base text) (Event.saves events) {path | path ∈ after.visited} ∧
            ∀ path ∈ after.visited, path ∈ world.visited ∨
              Treated ⟨owner, repo, after.spec.version, base, target, force⟩ after.disk
                (Event.queries events) path) ∧
      ∀ fault, outcome = .error fault → listed text = .error fault ∨
        Stops (blame base target) (targets base text) depth (Event.saves events) fault := by
  intro base target outcome after
  have plain : target.IsPlain := LocalPath.isPlain_ofText dir
  obtain ⟨saves, written, stops⟩ := install_stops files branches plain force depth text world
  cases slug : WorkflowSpec.ownerAndRepo? world.spec.slug with
  | none =>
    have result : install source target force depth text world = (.ok (), world) :=
      install_of_no_repository source slug
    refine ⟨[], congrArg (fun result => result.2.trace) result, ?_, fun _ failed => ?_⟩
    · exact fun _ _ _ same => absurd same (by simp)
    · exact absurd ((congrArg Prod.fst result).symm.trans failed) (by simp)
  | some names =>
    obtain ⟨owner, repo⟩ := names
    obtain ⟨pinned, middle, tour, pins, explored, -⟩ :=
      install_explored source target force depth text slug
    obtain ⟨events, trace, told⟩ := pins.told_append explored.tours
    have told_saves (older : List Event) := (told older).2
    refine ⟨events, trace, fun returns _ _ same => ⟨?_, ?_⟩, ?_⟩
    · rw [Event.saves_eq_of_told told_saves (told_saves [])]
      exact (explored.settles returns).closed
    · cases same
      obtain ⟨queries, asked, treated⟩ := install_treated plain tree slug (Prod.ext returns rfl)
      rw [trace, Event.queries_append] at asked
      rw [List.append_cancel_right asked]
      exact treated
    · rw [Event.saves_eq_of_told told_saves (trace ▸ written)]
      exact stops

/-- One entry leaves the repository and one is not there, and the third one is installed. -/
theorem imports_go_on_missing :
    let world := World.fresh () ⟨[], []⟩ ⟨"o/r", [], "flows/ci.md", "ci"⟩
    let source := (Table.ofFiles "o/r" [("flows/b.md", [1])]).source Unit
    let text : Text := "---\nimports: [../../x.md, a.md, b.md]\n---\n"
    let outcome := (install source (LocalPath.ofText "t") false 3 text world).1
    let after := (install source (LocalPath.ofText "t") false 3 text world).2
    source.FilesFailSoftly ∧ source.BranchesFailSoftly ∧ world.disk.IsTree ∧
      ∃ events, after.trace = events ++ world.trace ∧
        (outcome = .ok () → ∀ owner repo,
          WorkflowSpec.ownerAndRepo? world.spec.slug = some (owner, repo) →
            Closed named (targets "flows" text) (Event.saves events)
                {path | path ∈ after.visited} ∧
              ∀ path ∈ after.visited, path ∈ world.visited ∨
                Treated ⟨owner, repo, after.spec.version, "flows", LocalPath.ofText "t", false⟩
                  after.disk (Event.queries events) path) ∧
        ∀ fault, outcome = .error fault → listed text = .error fault ∨
          Stops (blame "flows" (LocalPath.ofText "t")) (targets "flows" text) 3
            (Event.saves events) fault := by
  intro world source text
  obtain ⟨files, branches⟩ := Table.soft_ofFiles "o/r" [("flows/b.md", [1])] Unit
  have tree : world.disk.IsTree := Disk.isTree_of_entries (by decide) (by decide)
  exact ⟨files, branches, tree,
    imports_go_on source files branches "t" text false 3 world tree⟩

/-- A name that is too long ends the run when the directory is there, and so does a path that holds
a NUL character. The entry after it is not installed. -/
theorem not_going_on :
    let long : Text := List.replicate 64 '😀'
    let source := (Table.ofFiles "o/r" [("b.md", [1]), ("a\x00.md", [2])]).source Unit
    let run (disk : Disk) (text : Text) := install source (LocalPath.ofText "t") false 3 text
      (World.fresh () disk ⟨"o/r", "main", "ci.md", "ci"⟩)
    let text : Text := "---\nimports: [" ++ long ++ ", b.md]\n---\n"
    let other : Text := "---\nimports: [\"a\\0.md\", b.md]\n---\n"
    source.FilesFailSoftly ∧ source.BranchesFailSoftly ∧
      (listed text).toOption = some [long, "b.md"] ∧
      (run ⟨[], [(["t"], .directory)]⟩ text).1.isOk = false ∧
      (run ⟨[], [(["t"], .directory)]⟩ text).2.disk.file? ["t", "b.md"] = none ∧
      (listed other).toOption = some [("a\x00.md" : Text), "b.md"] ∧
      (run ⟨[], []⟩ other).1.isOk = false ∧
      (run ⟨[], []⟩ other).2.disk.file? ["t", "b.md"] = none := by
  intro long source run text other
  obtain ⟨files, branches⟩ := Table.soft_ofFiles "o/r" [("b.md", [1]), ("a\x00.md", [2])] Unit
  exact ⟨files, branches, by decide +kernel, by decide +kernel, by decide +kernel,
    by decide +kernel, by decide +kernel, by decide +kernel⟩

end WorkflowInstall.Import

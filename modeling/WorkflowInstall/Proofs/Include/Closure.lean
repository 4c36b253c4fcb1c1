import WorkflowInstall.Proofs.Include.Required
import WorkflowInstall.Proofs.Run.Exploration

/-!
# The closure of includes

Installing the includes of a text visits the paths that the text names, those that the files written
for them name, and so on, and no others. However deep a file lies, what it names is looked up from
the workflow at hand.

## Main Definitions

* `Include.paths` — the paths that a text names
* `Include.Asks` — how the include at a path is asked for
* `Include.AsksChecked` — the same, for a path that has passed the check
* `Include.KeptAt` — the file at which the include at a path is kept

## Main Statements

* `Include.install_explores` — what is visited, asked and written, by induction on the depth
-/

namespace WorkflowInstall.Include

open Run

variable {σ : Type}

/-! ## What a text names -/

/-- The path that a directive names, without its section. -/
def target? (directive : Directive) : Option Text :=
  let path := (RepoPath.splitSection directive.path).1
  if path.isEmpty then none else some path

/-- The paths that a text names. -/
def paths (text : Text) : List Text := (Directive.ofText text).filterMap target?

/-- The paths that a downloaded file names. -/
def named (_ : Query) (content : Bytes) : List Text := paths (Utf8.decodeLossy content)

/-- The include at a path is asked for as the workflow at hand says. -/
def Asks (spec : WorkflowSpec) (path : Text) (download : Download) : Prop :=
  query? path spec = some download.query

/-- An include is asked for as the workflow at hand says, and its path has passed the check. -/
def AsksChecked (spec : WorkflowSpec) (target : LocalPath) (path : Text) (download : Download) :
    Prop :=
  Asks spec path download ∧ check download.disk.here path (place path target) = .ok ()

/-- The file at which the include at a path is kept. -/
def KeptAt (target : LocalPath) (path : Text) (file : LocalPath) : Prop :=
  file = (place path target).file

section Resolve

variable (source : Source σ)

/-! ## One file -/

/-- A run does not ask for an include, or it asks for it by its question, and for nothing else. -/
inductive Fetches (reference : Text) (spec : WorkflowSpec) (run : Run σ Fetched) (world : World σ) :
    Prop
  | refused {fault : Fault} (result : run world = (.error fault, world)) :
      Fetches reference spec run world
  | asked {owner repo path ref : Text}
      (asks : query? (RepoPath.splitSection reference).1 spec = some (.file owner repo path ref))
      (after : (run world).2 = (askFile source owner repo path ref world).2)
      (answer : ∀ fetched, (run world).1 = .ok fetched →
        (askFile source owner repo path ref world).1 = .ok fetched.content) :
      Fetches reference spec run world

theorem fetch_fetches (reference : Text) (spec : WorkflowSpec) (world : World σ) :
    Fetches source reference spec (fetch source reference (some spec)) world := by
  cases fetch_seeks_parts source reference (some spec) with
  | refused _ _ run_eq => exact .refused (congrFun run_eq world)
  | asks question _ run_eq =>
    refine .asked question ?_ fun fetched found => ?_
    · rw [run_eq, download_apply_snd]
    · rw [run_eq] at found
      exact ((download_eq_ok_iff ..).mp found).1

end Resolve

/-- A run writes a content to a file and says so, or it writes nothing. -/
def Writes (file : LocalPath) (content : Bytes) (run : Run σ Bool) (world : World σ) : Prop :=
  (∃ before disk location, world.Idle before ∧ (run world).1 = .ok true ∧
    disk.cwd = before.disk.cwd ∧ disk.writable file.text = .ok location ∧
    (before.wrote disk location content).Idle (run world).2) ∨
  (run world).1 ≠ .ok true ∧ world.Idle (run world).2

/-- A downloaded include is written and recorded, or nothing is written. -/
theorem write_writes (force : Bool) (file : LocalPath) (content : Bytes) (world : World σ) :
    Writes file content (write force file content) world := by
  have makes {outcome : Except DiskFault Unit} {disk : Disk}
      (made : world.disk.makeDirs file.parent = (outcome, disk)) :
      world.Idle { world with disk := disk } := by
    have idle : world.Idle _ := idle_makeDirs file.parent
    rwa [makeDirs_snd, made] at idle
  have written := write_written force file content world
  rw [Writes]
  generalize (write force file content world).1 = outcome at written ⊢
  generalize (write force file content world).2 = after at written ⊢
  cases written with
  | unmade made => exact .inr ⟨by simp, makes made⟩
  | refused made => exact .inr ⟨by simp, makes made⟩
  | kept made => exact .inr ⟨by simp, (makes made).trans (idle_log _ _)⟩
  | @saved disk location earlier made seen written =>
    refine .inl ⟨_, disk, location, makes made, rfl, rfl, written, ?_⟩
    exact (World.idle_record _ _ rfl).trans (idle_noted _ _)

/-! ## All files -/

section Nested

variable (source : Source σ) {target : LocalPath} {force : Bool} {spec : WorkflowSpec}
  {path : Text} {before now : World σ}

/-- An include that was downloaded is explored by writing it and going on with it if it is
written. -/
theorem write_bind_explored {whole : Prop} {download : Download} {content : Bytes}
    (tours : before.Tours source now [.asked path download])
    (fit : AsksChecked spec target path download) (answers : download.Answers source content)
    (here : now.spec = spec) {file : LocalPath} (kept : KeptAt target path file)
    {next : Bool → Run σ Unit} (stops : next false = pure ())
    (goes_on : ∀ after : World σ, after.spec = spec →
      Explores source named (AsksChecked spec target) (KeptAt target) whole
        (paths (Utf8.decodeLossy content)) (next true) after) :
    ∃ tour, Explored source named (AsksChecked spec target) (KeptAt target) [path] before
      ((write force file content >>= next) now).2
      (whole ∧ ((write force file content >>= next) now).1 = .ok ()) tour := by
  rw [bind_apply]
  have writes := write_writes force file content now
  rw [Writes] at writes
  cases result : write force file content now with
  | mk outcome after =>
    rw [result] at writes
    rcases writes with
      ⟨middle, disk, location, idle, said, cwd, written, wrote⟩ | ⟨unsaid, idle⟩
    · rw [show outcome = .ok true from said]
      have asked := tours.idle idle
      have saved := (asked.wrote answers cwd location).idle wrote
      have same : after.spec = spec := by
        rw [wrote.spec, ← here, ← idle.spec]
        rfl
      obtain ⟨tour, explored⟩ := goes_on after same
      exact ⟨_, .descend saved fit kept ⟨disk, cwd.trans asked.cwd, written⟩ explored⟩
    · cases outcome with
      | error fault => exact ⟨_, .asked (tours.idle idle) fit⟩
      | ok written =>
        cases written with
        | true => exact absurd rfl unsaid
        | false =>
          dsimp only
          rw [stops]
          exact ⟨_, .asked (tours.idle idle) fit⟩

variable {whole : Prop} {nested : Text → Run σ Unit}
  (nested_explores : ∀ text (world : World σ), world.spec = spec →
    Explores source named (AsksChecked spec target) (KeptAt target) whole (paths text) (nested text)
      world)
  (nested_stays : whole → ∀ text world fault, (nested text world).1 = .error fault →
    staysNested fault = false)
include nested_explores nested_stays

/-- A file is explored by its includes, whose fault ends the run if the run is whole. -/
theorem attempt_nested_explores {text : Text} (after : World σ) (here : after.spec = spec)
    (message : Fault → Text) :
    Explores source named (AsksChecked spec target) (KeptAt target) whole (paths text)
      (attempt (nested text) >>= fun outcome =>
        match outcome with
        | .ok () => pure ()
        | .error fault =>
          if staysNested fault then Run.log .includes (message fault) else Run.fail fault)
      after := by
  refine explores_attempt_bind (nested_explores text after here) (fun outcome last => ?_) ?_
  · cases outcome with
    | ok value => exact .refl last
    | error fault =>
      dsimp only
      split
      · exact idle_log _ _
      · exact .refl last
  · intro is_whole outcome last result ends
    cases outcome with
    | ok value => rfl
    | error fault =>
      have stays := nested_stays is_whole text after fault (congrArg Prod.fst result)
      dsimp only at ends
      rw [stays, if_neg Bool.false_ne_true] at ends
      exact absurd ends (by simp)

/-- An include whose path was visited and passes the check is explored by what becomes of its
file. -/
theorem installAt_explored {directive : Directive}
    (names : (RepoPath.splitSection directive.path).1 = path)
    (tours : before.Tours source now [.passed path]) (here : now.spec = spec)
    (passes : check now.disk.here path (place path target) = .ok ()) :
    let run := installAt source force nested directive path (place path target).file
    ∃ tour, Explored source named (AsksChecked spec target) (KeptAt target) [path] before
      (run now).2 (whole ∧ (run now).1 = .ok ()) tour := by
  intro run
  have missing (fault : Fault) (last : World σ) : last.Idle
      ((if !fault.isIncludeFault then Run.fail fault
        else if directive.optional then
          Run.log .includes ("Optional include not found: " ++ directive.path)
        else Run.fail (.includeMissing directive.path fault) : Run σ Unit) last).2 := by
    split
    · exact .refl last
    split
    · exact idle_log _ _
    · exact .refl last
  rw [show run now = _ from bind_apply .., show Run.spec now = (.ok spec, now) by rw [← here]; rfl]
  dsimp only
  rw [bind_apply, attempt_apply]
  dsimp only
  cases fetch_fetches source directive.path spec now with
  | refused result =>
    rw [result]
    dsimp only
    exact ⟨_, .passed (tours.idle (missing _ now))⟩
  | @asked owner repo remote ref asks after answer =>
    let download : Download := ⟨now.disk, owner, repo, remote, ref⟩
    have asked := tours.ask download rfl
    rw [names] at asks
    have fit : AsksChecked spec target path download := ⟨asks, passes⟩
    rw [after]
    cases outcome : (fetch source directive.path (some spec) now).1 with
    | error fault => exact ⟨_, .asked (asked.idle (missing fault _)) fit⟩
    | ok fetched =>
      have same : (askFile source owner repo remote ref now).2.spec = spec :=
        asked.spec.trans (tours.spec.symm.trans here)
      refine write_bind_explored source asked fit ⟨now.remote, answer fetched outcome⟩ same rfl rfl
        fun last here => ?_
      exact attempt_nested_explores source nested_explores nested_stays last here _

/-- A directive is explored by what it names. -/
theorem installOne_explores (directive : Directive) (world : World σ) (here : world.spec = spec) :
    Explores source named (AsksChecked spec target) (KeptAt target) whole
      (target? directive).toList (installOne source target force nested directive) world := by
  unfold installOne target?
  dsimp only
  generalize names : (RepoPath.splitSection directive.path).1 = path
  refine explores_visited_bind ?_
  by_cases empty : path.isEmpty = true
  · rw [if_pos empty, empty, Bool.true_or, if_pos rfl]
    exact explores_idle (.refl world)
  · rw [if_neg empty, Option.toList_some, Bool.eq_false_iff.mpr empty, Bool.false_or]
    split
    case isTrue known => exact explores_known (.refl world) (List.contains_iff_mem.mp known)
    case isFalse fresh =>
      refine explores_visit_bind (fun known => fresh (List.contains_iff_mem.mpr known)) ?_
      intro now tours
      cases passes : check now.disk.here path (place path target) with
      | error refused => exact ⟨_, .passed (tours.idle (idle_log _ _))⟩
      | ok value =>
        exact installAt_explored source nested_explores nested_stays names tours
          (tours.spec.trans here) passes

theorem installAll_explores (directives : List Directive) (world : World σ)
    (here : world.spec = spec) :
    Explores source named (AsksChecked spec target) (KeptAt target) whole
      (directives.filterMap target?)
      (installAll source target force nested directives) world := by
  induction directives generalizing world with
  | nil => exact explores_idle (.refl world)
  | cons directive rest ih =>
    have first : Explores source named (AsksChecked spec target) (KeptAt target) whole
        (target? directive).toList (installOne source target force nested directive) world :=
      installOne_explores source nested_explores nested_stays directive world here
    refine explores_cons first fun after result => ih after ?_
    rw [← here, ← (spec_visited_of_explores first).1, result]

end Nested

/-- What is visited, asked and written, by induction on the depth. -/
theorem install_explores (source : Source σ) (target : LocalPath) (force : Bool) (depth : Nat)
    (text : Text) (world : World σ) :
    Explores source named (AsksChecked world.spec target) (KeptAt target) False (paths text)
      (install source target force depth text) world := by
  generalize here : world.spec = spec
  induction depth generalizing text world with
  | zero => exact explores_fail _
  | succ depth ih =>
    exact installAll_explores source ih (fun never => never.elim) (Directive.ofText text) world here

end WorkflowInstall.Include

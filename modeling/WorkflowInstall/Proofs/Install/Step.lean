import WorkflowInstall.Install
import WorkflowInstall.Proofs.Include.Query
import WorkflowInstall.Proofs.Run.Files
import WorkflowInstall.Proofs.Run.Tracing

/-!
# One step of an installation

Whatever an installation does is a quiet step, or directories are made, or a file is written. What
such a step does to the file system is said here once.

## Main Definitions

* `Install.Site` — a file that may be written, and the disk that was made ready for it
* `Install.Seen` — what was found at a file before it is written
* `Install.Step` — one step

## Main Statements

* `Install.write_noted`, `Install.makeDirs_writeFile_cases` — writing a file is one step
* `Install.grows_of_steps` — steps keep the tree, and what is there stays there
* `Install.traced_of_steps` — their events tell all that happens to the files

## Design Notes

A file is written and then recorded in the journal. Nothing can fail in between, so this is one
step; a line that is logged in between is put after it. Every invariant of an installation is a
statement about `Step`, proved by its three cases.
-/

namespace WorkflowInstall

open Run

variable {σ α : Type}

namespace Install

/-- A file that may be written, and the disk after the directories for it were made. What is there
may have been looked up before they were made only when `early` is set. -/
inductive Site (target : LocalPath) (early : Bool) (world : World σ) : LocalPath → Disk → Prop
  /-- The workflow at hand. -/
  | workflow (fetched : FetchedWorkflow) {disk : Disk} (looks : early = true)
      (contained : Path.checkContained world.disk.here target.text
        (fileFor target world.spec fetched).text = .ok ())
      (made : world.disk.makeDirs target = (.ok (), disk)) :
      Site target early world (fileFor target world.spec fetched) disk
  /-- An import, under proper names below the target. -/
  | importing {names : List Text} {disk : Disk} (looks : early = true) (some : names ≠ [])
      (proper : ∀ name ∈ names, Path.IsProper name)
      (contained : Path.checkContained world.disk.here target.text
        (LocalPath.text { target with names := target.names ++ names }) = .ok ())
      (made : world.disk.makeDirs
        (LocalPath.parent { target with names := target.names ++ names }) = (.ok (), disk)) :
      Site target early world { target with names := target.names ++ names } disk
  /-- An include, which was just asked for. Its directories have been made before. -/
  | including {path : Text} {spec : WorkflowSpec} {query : Query}
      (contained : Path.checkContained world.disk.here (Include.place path target).root.text
        (Include.place path target).file.text = .ok ())
      (slug : spec.slug = world.spec.slug) (asked : Include.query? path spec = some query)
      (last : Event.lastQuery? world.trace = some query) :
      Site target early world (Include.place path target).file world.disk

/-- What was found at a file: nothing, or a content that may be written over. -/
inductive Seen (force : Bool) (disk : Disk) (path : Text) : Option Bytes → Prop
  | absent (probed : disk.probe path = .ok false) : Seen force disk path none
  | present (forced : force = true) (probed : disk.probe path = .ok true) {content : Bytes}
      (read : disk.read path = .ok content) : Seen force disk path (some content)

/-- One step of an installation. -/
inductive Step (target : LocalPath) (force early : Bool) : World σ → World σ → Prop
  /-- The files and the journal stay as they are. -/
  | quiet {before after : World σ} (h : before.Quiet after) : Step target force early before after
  /-- Directories are made, perhaps not all that were wanted. -/
  | makeDirs {before : World σ} {path : LocalPath} (plain : path.IsPlain) :
      Step target force early before { before with disk := (before.disk.makeDirs path).2 }
  /-- A file is written and recorded. -/
  | write {before : World σ} {file : LocalPath} {disk : Disk} {location : Location}
      {earlier : Option Bytes} (content : Bytes) (site : Site target early before file disk)
      (seen : Seen force before.disk file.text earlier)
      (written : disk.writable file.text = .ok location) :
      Step target force early before ((before.wrote disk location content).noted file.text earlier)

section Rows

variable {target : LocalPath} {force early : Bool} {world : World σ}

theorem within_quiet {run : Run σ α} (h : world.Quiet (run world).2) :
    Within (Step target force early) run world := within_single (.quiet h)

theorem within_log (component : Component) (message : Text) :
    Within (Step target force early) (log component message) world :=
  within_quiet (quiet_log _ _ world)

theorem within_makeDirs {path : LocalPath} (plain : path.IsPlain) :
    Within (Step target force early) (makeDirs path) world := by
  refine within_single ?_
  rw [makeDirs_snd]
  exact .makeDirs plain

/-- The content of a file that may be written over is read first. -/
theorem within_seen_bind {path : Text} {isThere : Bool} {next : Option Bytes → Run σ α}
    (probed : world.disk.probe path = .ok isThere) (allowed : ¬ (isThere && !force) = true)
    (later : ∀ earlier, Seen force world.disk path earlier →
      Within (Step target force early) (next earlier) world) :
    Within (Step target force early)
      (if isThere then some <$> readFile path >>= next else pure none >>= next) world := by
  split
  case isTrue there =>
    subst there
    have forced : force = true := by simpa using allowed
    rw [Within, readFile, map_ofDisk_bind_apply]
    cases read : world.disk.read path with
    | ok content => exact later (some content) (.present forced probed read)
    | error fault => exact .refl
  case isFalse absent =>
    rw [Bool.not_eq_true] at absent
    subst absent
    exact later none (.absent probed)

/-- Directories are made and a file is written, or directories are made and that is all. -/
theorem makeDirs_writeFile_cases {directory : LocalPath} (plain : directory.IsPlain) (path : Text)
    (content : Bytes) (next : Unit → Run σ α) (world : World σ) :
    (∃ disk location, world.disk.makeDirs directory = (.ok (), disk) ∧
      disk.writable path = .ok location ∧
      (makeDirs directory >>= fun _ => writeFile path content >>= next) world =
        next () (world.wrote disk location content)) ∨
    ∃ fault after,
      (makeDirs directory >>= fun _ => writeFile path content >>= next) world =
        (.error fault, after) ∧
      Relation.ReflTransGen (Step target force early) world after := by
  rcases makeDirs_writeFile_bind_cases directory path content next world with
    written | ⟨fault, failed⟩
  · exact Or.inl written
  · exact Or.inr ⟨fault, _, failed, within_makeDirs plain⟩

theorem within_makeDirs_writeFile_bind {directory : LocalPath} {path : Text} {content : Bytes}
    {next : Unit → Run σ α} (plain : directory.IsPlain)
    (later : ∀ disk location, world.disk.makeDirs directory = (.ok (), disk) →
      disk.writable path = .ok location →
      Relation.ReflTransGen (Step target force early) world
        (next () (world.wrote disk location content)).2) :
    Within (Step target force early)
      (makeDirs directory >>= fun _ => writeFile path content >>= next) world := by
  rcases makeDirs_writeFile_cases plain path content next world with
    ⟨disk, location, made, written, result⟩ | ⟨fault, after, result, steps⟩
  · rw [Within, result]
    exact later disk location made written
  · rw [Within, result]
    exact steps

/-- A file is written and recorded in one step. -/
theorem write_noted {file : LocalPath} {disk : Disk} {earlier : Option Bytes} {content : Bytes}
    {location : Location} (site : Site target early world file disk)
    (seen : Seen force world.disk file.text earlier)
    (written : disk.writable file.text = .ok location) :
    Relation.ReflTransGen (Step target force early) world
      ((world.wrote disk location content).noted file.text earlier) :=
  .single (.write content site seen written)

/-- A line that is logged before a write is recorded might as well be logged after it. -/
theorem write_logged_noted {file : LocalPath} {disk : Disk} {earlier : Option Bytes}
    {content : Bytes} {location : Location} (site : Site target early world file disk)
    (seen : Seen force world.disk file.text earlier)
    (written : disk.writable file.text = .ok location) (component : Component) (message : Text) :
    Relation.ReflTransGen (Step target force early) world
      (((world.wrote disk location content).record (.logged component message)).noted file.text
        earlier) := by
  rw [World.noted_record]
  exact (write_noted site seen written).tail (.quiet (World.quiet_record _ _ rfl))

end Rows

end Install

/-! ## What a step does to the file system -/

theorem Include.place_isPlain (path : Text) {target : LocalPath} (plain : target.IsPlain) :
    (Include.place path target).file.IsPlain := by
  unfold Include.place
  dsimp only
  have inside : LocalPath.IsPlain ⟨.here, (LocalPath.ofText ('.' :: '/' :: path)).names⟩ :=
    fun name mem => LocalPath.isPlain_ofText _ name mem
  split
  · exact plain.parent.append inside
  split
  · exact (plain.parent.appendText _).appendText _
  · exact plain.append inside

namespace Install

section Effect

variable {target : LocalPath} (plain : target.IsPlain) {force early : Bool}
include plain

theorem fileFor_isPlain (spec : WorkflowSpec) (fetched : FetchedWorkflow) :
    (fileFor target spec fetched).IsPlain := plain.appendText _

theorem Site.isPlain {world : World σ} {file : LocalPath} {disk : Disk}
    (site : Site target early world file disk) : file.IsPlain := by
  cases site with
  | workflow fetched _ _ _ => exact fileFor_isPlain plain world.spec fetched
  | importing _ _ proper _ _ => exact plain.appendNames proper
  | including _ _ _ _ => exact Include.place_isPlain _ plain

/-- The disk on which a file is written has more directories at most. -/
theorem Site.furthers {world : World σ} (tree : world.disk.IsTree) {file : LocalPath} {disk : Disk}
    (site : Site target early world file disk) : world.disk.Furthers disk := by
  cases site with
  | workflow fetched _ _ made =>
    have further := tree.makeDirs_furthers plain
    rwa [made] at further
  | importing _ _ proper _ made =>
    have further := tree.makeDirs_furthers (plain.appendNames proper).parent
    rwa [made] at further
  | including _ _ _ _ => exact tree.furthers

/-- A step keeps the tree, and what is there stays there. -/
theorem Step.grows {before after : World σ} (tree : before.disk.IsTree)
    (step : Step target force early before after) :
    after.disk.IsTree ∧ before.disk.Grows after.disk := by
  cases step with
  | quiet h =>
    rw [h.disk]
    exact ⟨tree, .refl before.disk⟩
  | makeDirs plain =>
    have further := tree.makeDirs_furthers plain
    exact ⟨further.tree, further.grows⟩
  | write content site seen written =>
    have further := site.furthers plain tree
    have is_open := (further.tree.writable_eq_ok written).2
    exact ⟨further.tree.put is_open _, further.grows.trans (is_open.grows content)⟩

/-- A row of steps keeps the tree, and what is there stays there. -/
theorem grows_of_steps {before after : World σ} (tree : before.disk.IsTree)
    (steps : Relation.ReflTransGen (Step target force early) before after) :
    after.disk.IsTree ∧ before.disk.Grows after.disk := by
  induction steps with
  | refl => exact ⟨tree, .refl before.disk⟩
  | tail _ step ih =>
    have next := step.grows plain ih.1
    exact ⟨next.1, ih.2.trans next.2⟩

/-- The events of a step tell all that happens to the files. -/
theorem Step.traced {before after : World σ} (tree : before.disk.IsTree)
    (step : Step target force early before after) : ∃ events, before.Traced after events := by
  cases step with
  | quiet h => exact World.Traced.of_quiet h
  | makeDirs plain => exact ⟨[], .made (tree.makeDirs_furthers plain)⟩
  | write content site seen written =>
    have further := site.furthers plain tree
    have inside := (further.tree.writable_eq_ok written).2.ne_nil
    have wrote : before.Traced (before.wrote _ _ content) _ := .wrote further inside content
    exact ⟨_, wrote.trace, wrote.files, wrote.keeps⟩

/-- The events of a row of steps tell all that happens to the files. -/
theorem traced_of_steps {before after : World σ} (tree : before.disk.IsTree)
    (steps : Relation.ReflTransGen (Step target force early) before after) :
    ∃ events, before.Traced after events := by
  induction steps with
  | refl => exact ⟨[], .refl before⟩
  | tail steps step ih =>
    obtain ⟨events, traced⟩ := ih
    obtain ⟨more, next⟩ := step.traced plain (grows_of_steps plain tree steps).1
    exact ⟨more ++ events, traced.trans next⟩

theorem grows_of_returns {run : Run σ α} {before after : World σ} {value : α}
    (within : Within (Step target force early) run before) (tree : before.disk.IsTree)
    (h : Returns run before value after) : after.disk.IsTree ∧ before.disk.Grows after.disk := by
  rw [Within, show run before = _ from h] at within
  exact grows_of_steps plain tree within

end Effect

end Install

/-! ## Small worlds -/

/-- A world in which nothing has been done yet, without version control. -/
def World.fresh (remote : σ) (disk : Disk) (spec : WorkflowSpec) : World σ :=
  { disk := disk, git := ⟨false, none, none⟩, remote := remote, spec := spec, visited := [],
    journal := none, verbose := false, trace := [] }

theorem World.fresh_disk (remote : σ) (disk : Disk) (spec : WorkflowSpec) :
    (World.fresh remote disk spec).disk = disk := rfl

theorem World.fresh_spec (remote : σ) (disk : Disk) (spec : WorkflowSpec) :
    (World.fresh remote disk spec).spec = spec := rfl

theorem World.fresh_trace (remote : σ) (disk : Disk) (spec : WorkflowSpec) :
    (World.fresh remote disk spec).trace = [] := rfl

/-- A table with some files of one repository. -/
def Table.ofFiles (slug : Text) (files : List (Text × Bytes)) : Table where
  files := files.map fun file => ⟨slug, file.1, Workflow.usualRef, .ok file.2⟩
  commit := .ok none
  branch := .ok (some Workflow.usualRef)

theorem Run.exists_returns {run : Run σ α} {world : World σ} (h : (run world).1.isOk = true) :
    ∃ value, Returns run world value (run world).2 := by
  unfold Returns
  generalize run world = result at h
  obtain ⟨outcome, after⟩ := result
  cases outcome with
  | ok value => exact ⟨value, rfl⟩
  | error fault => exact absurd h Bool.false_ne_true

theorem Run.not_isOk {run : Run σ α} {world : World σ} {fault : Fault}
    (h : (run world).1 = .error fault) : ¬ (run world).1.isOk = true := by
  rw [h]
  exact Bool.false_ne_true

theorem eq_ok_of_isOk {ε : Type} {outcome : Except ε Unit} (h : outcome.isOk = true) :
    outcome = .ok () := by
  cases outcome with
  | ok value => rfl
  | error fault => exact absurd h Bool.false_ne_true

end WorkflowInstall

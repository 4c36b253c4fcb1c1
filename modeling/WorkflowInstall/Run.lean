import WorkflowInstall.Event
import WorkflowInstall.Fault
import WorkflowInstall.Journal

/-!
# Runs

A run reads and changes the world around it and ends with a value or a fault. What it has done
before a fault stays done.

## Main Definitions

* `World` — what a run reads and changes
* `Run` — a run
* `Run.attempt`, `Run.fail` — faults as values, and back
* `Run.readFile`, `Run.writeFile`, `Run.makeDirs`, `Run.removeFile` — the file system
* `Run.noteCreated`, `Run.noteModified` — the journal
* `Run.log`, `Run.git` — the log and the version control

## Design Notes

A run is a function, so that each law about it is an equation: `pure_apply` and `bind_apply` say
what the steps in a row do, and `attempt_apply` that a fault undoes nothing. `World` has a parameter
for the state of the source of remote files, about which the runs know nothing.
-/

namespace WorkflowInstall

/-- The version control program. -/
structure Git where
  /-- Whether it is there. -/
  installed : Bool
  /-- What it says is the root of the working tree. -/
  root : Option Text
  /-- The status with which it refuses to stage files. -/
  addStatus : Option Int
  deriving Repr

/-- What a run reads and changes. -/
structure World (σ : Type) where
  /-- The file system. -/
  disk : Disk
  /-- The version control. -/
  git : Git
  /-- The state of the source. -/
  remote : σ
  /-- The workflow at hand. Its version and path are set once they are known. -/
  spec : WorkflowSpec
  /-- The references visited. -/
  visited : List Text
  /-- Where writes are recorded, if they are. -/
  journal : Option Journal
  /-- Whether lines are logged. -/
  verbose : Bool
  /-- What has been done, the last event first. -/
  trace : List Event

/-- Adds an event to the trace. A line is logged only when it is asked for. -/
def World.record {σ : Type} (world : World σ) (event : Event) : World σ :=
  match event with
  | .logged _ _ => if world.verbose then { world with trace := event :: world.trace } else world
  | _ => { world with trace := event :: world.trace }

/-- A run: it ends with a value or a fault, in a world that it has changed. -/
def Run (σ α : Type) : Type := World σ → Except Fault α × World σ

namespace Run

variable {σ α β : Type}

/-- Does nothing and ends with a value. -/
def done (value : α) : Run σ α := fun world => (.ok value, world)

/-- One run, then another one that depends on its value. -/
def andThen (first : Run σ α) (next : α → Run σ β) : Run σ β := fun world =>
  match first world with
  | (.ok value, world) => next value world
  | (.error fault, world) => (.error fault, world)

instance : Monad (Run σ) where
  pure := done
  bind := andThen

@[simp] theorem pure_apply (value : α) (world : World σ) :
    (pure value : Run σ α) world = (.ok value, world) := rfl

@[simp] theorem bind_apply (first : Run σ α) (next : α → Run σ β) (world : World σ) :
    (first >>= next) world =
      match first world with
      | (.ok value, world) => next value world
      | (.error fault, world) => (.error fault, world) := rfl

/-- Ends with a fault. -/
def fail (fault : Fault) : Run σ α := fun world => (.error fault, world)

/-- A run whose fault, if it has one, is its value. -/
def attempt (run : Run σ α) : Run σ (Except Fault α) := fun world =>
  match run world with
  | (result, world) => (.ok result, world)

/-- The world. -/
def look : Run σ (World σ) := fun world => (.ok world, world)

/-- Changes the world. -/
def alter (change : World σ → World σ) : Run σ Unit := fun world => (.ok (), change world)

@[simp] theorem fail_apply (fault : Fault) (world : World σ) :
    (fail fault : Run σ α) world = (.error fault, world) := rfl

@[simp] theorem attempt_apply (run : Run σ α) (world : World σ) :
    attempt run world = (.ok (run world).1, (run world).2) := rfl

@[simp] theorem look_apply (world : World σ) : look world = (.ok world, world) := rfl

@[simp] theorem alter_apply (change : World σ → World σ) (world : World σ) :
    alter change world = (.ok (), change world) := rfl

/-- Records an event. -/
def record (event : Event) : Run σ Unit := alter fun world => world.record event

/-- Logs a line. -/
def log (component : Component) (message : Text) : Run σ Unit :=
  record (.logged component message)

/-! ## The file system -/

/-- The value of a reading of the disk. -/
def ofDisk (reading : Disk → Except DiskFault α) : Run σ α := fun world =>
  match reading world.disk with
  | .ok value => (.ok value, world)
  | .error fault => (.error (.disk fault), world)

/-- The working directory. -/
def cwd : Run σ Text := fun world => (.ok world.disk.here, world)

/-- The content of the file at a path. -/
def readFile (path : Text) : Run σ Bytes := ofDisk fun disk => disk.read path

/-- Whether a path leads to something. -/
def probe (path : Text) : Run σ Bool := ofDisk fun disk => disk.probe path

/-- Writes a file to a path. -/
def writeFile (path : Text) (content : Bytes) : Run σ Unit := fun world =>
  match world.disk.writable path with
  | .error fault => (.error (.disk fault), world)
  | .ok location =>
    let event := Event.wrote location (world.disk.file? location) content
    (.ok (), { world with disk := world.disk.put location (.file content) }.record event)

/-- Makes the directory at a path and those that lead to it. -/
def makeDirs (path : LocalPath) : Run σ Unit := fun world =>
  match world.disk.makeDirs path with
  | (.ok (), disk) => (.ok (), { world with disk := disk })
  | (.error fault, disk) => (.error (.disk fault), { world with disk := disk })

/-- Removes the file at a path. -/
def removeFile (path : Text) : Run σ Unit := fun world =>
  match world.disk.removable path with
  | .error fault => (.error (.disk fault), world)
  | .ok location =>
    (.ok (), { world with disk := world.disk.erase location }.record (.removed location))

/-! ## The journal -/

/-- Changes the journal, if writes are recorded. -/
def alterJournal (change : Journal → Journal) : Run σ Unit :=
  alter fun world => { world with journal := world.journal.map change }

/-- Records a file that was not there before. -/
def noteCreated (path : Text) : Run σ Unit := do
  let here ← cwd
  alterJournal fun journal => journal.noteCreated (Path.absolute here path)

/-- Records a file that was there before, with the content it had. -/
def noteModified (path : Text) (earlier : Option Bytes) : Run σ Unit := do
  let here ← cwd
  alterJournal fun journal => journal.noteModified (Path.absolute here path) earlier

/-- Records a file that has been written over the content it had. -/
def noteWritten (path : Text) : Option Bytes → Run σ Unit
  | none => noteCreated path
  | some earlier => noteModified path (some earlier)

/-! ## The workflow at hand -/

/-- The workflow at hand. -/
def spec : Run σ WorkflowSpec := fun world => (.ok world.spec, world)

/-- Changes the workflow at hand. -/
def alterSpec (change : WorkflowSpec → WorkflowSpec) : Run σ Unit :=
  alter fun world => { world with spec := change world.spec }

/-- The references visited. -/
def visited : Run σ (List Text) := fun world => (.ok world.visited, world)

/-- Adds a reference to those visited. -/
def visit (reference : Text) : Run σ Unit :=
  alter fun world => { world with visited := reference :: world.visited }

/-- Forgets the references visited. -/
def forgetVisited : Run σ Unit := alter fun world => { world with visited := [] }

/-! ## Version control -/

/-- Runs git in a directory and gives what it says. -/
def git (directory : Text) (arguments : List Text) (answer : Git → Except Int Text) :
    Run σ Text := do
  record (.ranGit directory arguments)
  let world ← look
  if world.git.installed then
    match answer world.git with
    | .ok text => pure text
    | .error status => fail (.commandFailed ("git" :: "-C" :: directory :: arguments) status)
  else fail (.disk (.refused .notFound "git"))

/-- The root of the working tree around a directory. -/
def gitRoot (directory : Text) : Run σ Text :=
  git directory ["rev-parse", "--show-toplevel"] fun program =>
    match program.root with
    | some root => .ok root
    | none => .error 128

/-- Stages files, given by their paths in a directory. -/
def gitAdd (directory : Text) (paths : List Text) : Run σ Unit := do
  let _ ← git directory ("add" :: "--" :: paths) fun program =>
    match program.addStatus with
    | some status => .error status
    | none => .ok []

end Run

end WorkflowInstall

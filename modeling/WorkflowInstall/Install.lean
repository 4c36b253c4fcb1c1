import WorkflowInstall.Import
import WorkflowInstall.Include

/-!
# Installing a workflow

A workflow is fetched and written into a directory, together with its includes and imports.

## Main Definitions

* `InstallOptions` — what is asked for
* `Installed` — what has been installed
* `Install.add` — installs the workflow at hand
-/

namespace WorkflowInstall

/-- What is asked for. -/
structure InstallOptions where
  /-- The directory that files are written into. -/
  target : LocalPath
  /-- Whether files that are there are written over. -/
  force : Bool
  /-- Whether includes are fetched. -/
  includes : Bool
  /-- Whether imports are fetched. -/
  imports : Bool
  /-- How deep includes and imports are followed. -/
  depth : Nat
  deriving DecidableEq, Repr

/-- What has been installed. -/
structure Installed where
  /-- The file of the workflow. -/
  file : Text
  /-- The path that the workflow was found at. -/
  source : Text
  /-- The commit that it was fetched from, empty when it is not known. -/
  commit : Text
  /-- Whether it comes from the local file system. -/
  isLocal : Bool
  /-- The files that were recorded first by this run. -/
  written : List Text
  deriving DecidableEq, Repr

namespace Install

variable {σ : Type}

/-- How deep includes and imports are followed unless something else is asked for. -/
def usualDepth : Nat := 1000

/-- The file that a workflow is written to. -/
def fileFor (target : LocalPath) (spec : WorkflowSpec) (fetched : FetchedWorkflow) : LocalPath :=
  let name := if spec.name.isEmpty then (LocalPath.ofText fetched.path).stem else spec.name
  target.appendText (name ++ ".md")

/-- Writes a fetched workflow. -/
def writeWorkflow (options : InstallOptions) (file : LocalPath) (content : Bytes) : Run σ Unit := do
  match Path.checkContained (← Run.cwd) options.target.text file.text with
  | .error refused => Run.fail (.unsafePath refused)
  | .ok () =>
    let isThere ← Run.probe file.text
    if isThere && !options.force then Run.fail (.workflowExists file.text)
    else
      let earlier ← if isThere then some <$> Run.readFile file.text else pure none
      Run.makeDirs options.target
      Run.writeFile file.text content
      Run.noteWritten file.text earlier
      Run.log .install ("Wrote workflow: " ++ file.text)

/-- Installs what a fetched workflow asks for. -/
def addDependencies (source : Source σ) (options : InstallOptions) (text : Text) : Run σ Unit := do
  if options.includes then
    Run.forgetVisited
    Include.install source options.target options.force options.depth text
  if options.imports then
    Run.forgetVisited
    Import.install source options.target options.force options.depth text

/-- The paths in the journal. -/
def recorded : Run σ (List Text) := do
  match (← Run.look).journal with
  | none => pure []
  | some journal => pure journal.paths

/-- Installs the workflow at hand and records its writes in the journal. -/
def addRecorded (source : Source σ) (options : InstallOptions) : Run σ Installed := do
  let before ← recorded
  let fetched ← Workflow.fetch source
  if !fetched.isLocal then Run.alterSpec fun spec => { spec with path := fetched.path }
  let file := fileFor options.target (← Run.spec) fetched
  writeWorkflow options file fetched.content
  if !fetched.isLocal then addDependencies source options fetched.text
  let after ← recorded
  pure
    { file := file.text
      source := fetched.path
      commit := fetched.commit
      isLocal := fetched.isLocal
      written := after.filter fun path => !before.contains path }

/-- Gives a run a journal of its own when there is none. -/
def withJournal {α : Type} (journal : Journal) (run : Run σ α) : Run σ α := fun world =>
  match world.journal with
  | some _ => run world
  | none =>
    let (result, world) := run { world with journal := some journal }
    (result, { world with journal := none })

/-- Installs the workflow at hand. -/
def add (source : Source σ) (options : InstallOptions) : Run σ Installed :=
  withJournal (.empty options.target.text) (addRecorded source options)

end Install

end WorkflowInstall

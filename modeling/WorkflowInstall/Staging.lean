import WorkflowInstall.Run

/-!
# Staging and rolling back

What can be done with a journal once a run is over: stage the files that it names, or undo its
writes.

## Main Definitions

* `Staging.root` — the root of the repository around a directory
* `Staging.journalFor` — a journal for a directory
* `Staging.stageAll` — stages the recorded files
* `Staging.rollBack` — removes created files and restores changed ones
-/

namespace WorkflowInstall.Staging

variable {σ : Type}

/-- The root of the repository around a path, none when git does not know it. -/
def root (path : Text) : Run σ (Option Text) := do
  let world ← Run.look
  let directory := if world.disk.isFile path then Path.directory path else path
  match ← Run.attempt (Run.gitRoot directory) with
  | .ok text => pure (some (Text.trim text))
  | .error (.commandFailed _ _) => pure none
  | .error (.disk (.refused .notFound _)) => pure none
  | .error fault => Run.fail fault

/-- The longest front of a path that leads to something. The number bounds how many names are taken
away. -/
def existingFront (disk : Disk) : Nat → Text → Text
  | 0, path => path
  | bound + 1, path =>
    if disk.pathExists path then path
    else
      let front := Path.directory path
      if front = path then path else existingFront disk bound front

/-- A journal of nothing, for the repository around a path that need not exist. -/
def journalFor (path : Text) : Run σ Journal := do
  let world ← Run.look
  let start := Path.absolute world.disk.here path
  let start := existingFront world.disk start.length start
  match ← root start with
  | some root => pure (.empty (if root.isEmpty then start else root))
  | none => pure (.empty start)

/-- The paths that are staged: the recorded files that are there, seen from the root. -/
def stagedPaths (disk : Disk) (journal : Journal) : List Text :=
  (journal.paths.filter fun path => disk.pathExists path).map fun path =>
    Path.relative disk.here path journal.root

/-- Stages the recorded files. -/
def stageAll : Run σ Unit := do
  let world ← Run.look
  match world.journal with
  | none => pure ()
  | some journal =>
    match stagedPaths world.disk journal with
    | [] => pure ()
    | paths =>
      Run.log .tracker
        ("Staging " ++ Text.ofNat paths.length ++ " file(s) in " ++ journal.root)
      Run.gitAdd journal.root paths

/-- Removes files, in order. One that is gone already is passed over. -/
def removeAll : List Text → Run σ Unit
  | [] => pure ()
  | path :: paths => do
    match ← Run.attempt (Run.removeFile path) with
    | .ok () => Run.log .tracker ("Removed " ++ path)
    | .error (.disk (.refused .notFound _)) => pure ()
    | .error fault => Run.fail fault
    removeAll paths

/-- Restores files whose content is known, in order. -/
def restoreAll (earlier : List (Text × Bytes)) : List Text → Run σ Unit
  | [] => pure ()
  | path :: paths => do
    match earlier.lookup path with
    | none => pure ()
    | some content =>
      Run.writeFile path content
      Run.log .tracker ("Restored " ++ path)
    restoreAll earlier paths

/-- Removes the created files, the last one first, restores the changed ones, and empties the
journal. -/
def rollBack : Run σ Unit := do
  match (← Run.look).journal with
  | none => pure ()
  | some journal =>
    removeAll journal.created.reverse
    restoreAll journal.earlier journal.modified
    Run.alterJournal fun journal => .empty journal.root

end WorkflowInstall.Staging

import WorkflowInstall.Workflow

/-!
# Imports

The files that a workflow lists under `imports` in its frontmatter, and the files that those list.

## Main Definitions

* `Import.entries` — the files that a text lists
* `Import.writeOne` — downloads and writes one file
* `Import.install` — downloads and writes all imports of a text

## Design Notes

A listed path is seen from the directory of the file that lists it, but every file is kept at the
place that it has below the directory of the workflow. All levels share one set of visited paths. A
file that cannot be fetched or written is logged and left out, and those after it are still fetched.

As for includes, the depth is bounded, and a depth above the number of paths that occur is never
reached.
-/

namespace WorkflowInstall.Import

variable {σ : Type}

/-- What stays the same for all imports of a run. -/
structure Origin where
  /-- The owner of the repository. -/
  owner : Text
  /-- The repository. -/
  repo : Text
  /-- The revision. -/
  ref : Text
  /-- The directory of the workflow in the repository. -/
  base : Text
  /-- The directory that files are written into. -/
  target : LocalPath
  /-- Whether files that are there are written over. -/
  force : Bool
  deriving DecidableEq, Repr

/-- The paths that a text lists. A text whose frontmatter cannot be read lists none; a scalar
without a value is a fault. -/
def listed (text : Text) : Except Fault (List Text) :=
  match Frontmatter.ofText text with
  | .ok frontmatter => .ok frontmatter.imports
  | .error (.badScalar fault) => .error (.frontmatter (.badScalar fault))
  | .error _ => .ok []

/-- Writes a downloaded import. Gives the content that was there. -/
def write (file : LocalPath) (isThere : Bool) (content : Bytes) : Run σ (Option Bytes) := do
  let earlier ← if isThere then some <$> Run.readFile file.text else pure none
  Run.makeDirs file.parent
  Run.writeFile file.text content
  pure earlier

/-- Downloads and writes a file. Gives its content, or nothing when it is left out. -/
def writeOne (source : Source σ) (origin : Origin) (path : Text) (file : LocalPath) :
    Run σ (Option Bytes) := do
  let isThere ← Run.probe file.text
  if isThere && !origin.force then
    Run.log .imports ("Import file already exists, skipping: " ++ file.text)
    pure none
  else
    match ← Run.attempt (Run.askFile source origin.owner origin.repo path origin.ref) with
    | .error fault =>
      if fault.isLookupFailure then
        Run.log .imports ("Failed to fetch import " ++ path ++ ": " ++ fault.message)
        pure none
      else Run.fail fault
    | .ok content =>
      match ← Run.attempt (write file isThere content) with
      | .error fault =>
        if fault.isStorage then
          Run.log .imports ("Failed to write import " ++ path ++ ": " ++ fault.message)
          pure none
        else Run.fail fault
      | .ok earlier =>
        Run.log .imports ("Fetched import: " ++ file.text)
        Run.noteWritten file.text earlier
        pure (some content)

/-- Where a file is kept, when it may be kept there. -/
def place (origin : Origin) (cwd path : Text) : Except UnsafePath LocalPath := do
  let file ← RepoPath.toLocal path origin.base origin.target
  Path.checkContained cwd origin.target.text file.text
  return file

/-- Installs the file at a path, unless it was visited before or leads where it must not, and goes
on with it by `nested`. -/
def installAt (source : Source σ) (origin : Origin) (nested : Text → Text → Run σ Unit)
    (entry path : Text) : Run σ Unit := do
  match RepoPath.checkInside path with
  | .error _ => Run.log .imports ("Skipping import with unsafe path: " ++ Text.quoted entry)
  | .ok () =>
    if (← Run.visited).contains path then pure ()
    else
      Run.visit path
      match place origin (← Run.cwd) path with
      | .error _ =>
        Run.log .imports
          ("Refusing to write import outside target directory: " ++ Text.quoted entry)
      | .ok file =>
        match ← writeOne source origin path file with
        | none => pure ()
        | some content => nested (RepoPath.parent path) (Utf8.decodeLossy content)

/-- Installs the file that an entry names. Pinned references and entries without a path are left
out. -/
def installOne (source : Source σ) (origin : Origin) (nested : Text → Text → Run σ Unit)
    (directory entry : Text) : Run σ Unit :=
  let path := (RepoPath.splitSection entry).1
  if RepoPath.isPinned entry || path.isEmpty then pure ()
  else installAt source origin nested entry (RepoPath.join directory path)

/-- Installs the files that entries name, in order. -/
def installAll (source : Source σ) (origin : Origin) (nested : Text → Text → Run σ Unit)
    (directory : Text) : List Text → Run σ Unit
  | [] => pure ()
  | entry :: entries => do
    installOne source origin nested directory entry
    installAll source origin nested directory entries

/-- Installs the imports of a text in a directory, and of the files that it imports, down to a
depth. -/
def installFrom (source : Source σ) (origin : Origin) : Nat → Text → Text → Run σ Unit
  | 0, _, _ => Run.fail .tooDeep
  | depth + 1, directory, text =>
    match listed text with
    | .error fault => Run.fail fault
    | .ok entries =>
      installAll source origin (installFrom source origin depth) directory entries

/-- Installs the imports of a text, which belongs to the workflow at hand, and of the files that it
imports. -/
def install (source : Source σ) (target : LocalPath) (force : Bool) (depth : Nat) (text : Text) :
    Run σ Unit := do
  let spec ← Run.spec
  match WorkflowSpec.ownerAndRepo? spec.slug with
  | none => pure ()
  | some (owner, repo) =>
    match listed text with
    | .error fault => Run.fail fault
    | .ok [] => pure ()
    | .ok _ =>
      let ref ← Workflow.pinRef source
      let base := RepoPath.parent spec.path
      installFrom source ⟨owner, repo, ref, base, target, force⟩ depth base text

end WorkflowInstall.Import

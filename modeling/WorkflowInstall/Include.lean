import WorkflowInstall.Directive
import WorkflowInstall.Workflow

/-!
# Includes

The files that a workflow asks for by include directives, and the files that those ask for.

## Main Definitions

* `Include.Target` — where an include is kept
* `Include.place` — where the include at a path is kept
* `Include.remotePath` — where a relative include lies in its repository
* `Include.fetch` — downloads one include
* `Include.install` — downloads and writes all includes of a text

## Design Notes

A relative include is looked up from the directory of the workflow at hand, however deep the file
lies that asks for it. All levels share one set of visited paths, so files that include each other
are fetched once. A required include that is missing ends the run of the text that asks for it; in
an included file this is only logged.

`install` follows includes down to a given depth. Each level visits a new path, so a depth above the
number of paths that occur is never reached.
-/

namespace WorkflowInstall.Include

variable {σ : Type}

/-- Where an include is kept. -/
structure Target where
  /-- The directory that it must lie in. -/
  root : LocalPath
  /-- The file. -/
  file : LocalPath
  deriving DecidableEq, Repr

/-- What the paths of shared includes begin with. -/
def sharedStart : Text := "shared/"

/-- Where the include at a path is kept: a shared one beside the target directory, a pinned one in
the shared directory there, and any other one below the target directory. -/
def place (path : Text) (target : LocalPath) : Target :=
  let beside := target.parent
  let inside : LocalPath := ⟨.here, (LocalPath.ofText ('.' :: '/' :: path)).names⟩
  if Text.startsWith sharedStart path then ⟨beside, beside.append inside⟩
  else if RepoPath.isPinned path then
    let name := Text.lastPiece '/' (RepoPath.splitRef path).1
    ⟨beside, (beside.appendText "shared").appendText name⟩
  else ⟨target, target.append inside⟩

/-- Where an include lies in the repository of the workflow: a shared one in its place, any other
one below the directory of the workflow. -/
def remotePath (path : Text) (spec : WorkflowSpec) : Text :=
  if Text.startsWith sharedStart path then ".github/" ++ path
  else
    let directory := RepoPath.parent spec.path
    if directory.isEmpty then path else directory ++ "/" ++ path

/-- The revision that an include is downloaded from when none is named. -/
def usualRef : Text := "main"

/-- A revision, or the usual one when it is empty. -/
def refOr (ref : Text) : Text := if ref.isEmpty then usualRef else ref

/-- An include that has been downloaded. -/
structure Fetched where
  /-- The content. -/
  content : Bytes
  /-- The section that was asked for. -/
  fragment : Text
  deriving DecidableEq, Repr

/-- Downloads a file for an include; `wrap` says what the failure of the lookup means. -/
def download (source : Source σ) (owner repo path ref fragment : Text) (wrap : Fault → Fault) :
    Run σ Fetched := do
  match ← Run.attempt (Run.askFile source owner repo path ref) with
  | .ok content => pure ⟨content, fragment⟩
  | .error fault => Run.fail (if fault.isLookupFailure then wrap fault else fault)

/-- Downloads a pinned include. -/
def fetchPinned (source : Source σ) (reference path fragment : Text) : Run σ Fetched :=
  let (whole, ref) := RepoPath.splitRef path
  match Text.splitOn '/' whole with
  | owner :: repo :: first :: more =>
    download source owner repo (Text.joinWith "/" (first :: more)) (refOr ref) fragment
      (.includePinned reference fragment)
  | _ => Run.fail (.includeMalformed reference fragment)

/-- Downloads an include, which is either pinned or relative to a workflow. -/
def fetch (source : Source σ) (reference : Text) (base : Option WorkflowSpec) : Run σ Fetched :=
  let (path, fragment) := RepoPath.splitSection reference
  if RepoPath.isPinned path then fetchPinned source reference path fragment
  else
    match base, base.bind fun spec => WorkflowSpec.ownerAndRepo? spec.slug with
    | some spec, some (owner, repo) =>
      download source owner repo (remotePath path spec) (refOr spec.version) fragment
        (.includeRelative reference fragment path owner repo)
    | _, _ => Run.fail (.includeAdrift reference fragment)

/-- Refuses an include that would lie outside its root. -/
def check (cwd path : Text) (target : Target) : Except UnsafePath Unit := do
  if !RepoPath.isPinned path then RepoPath.checkInside (Path.normalize path)
  Path.checkContained cwd target.root.text target.file.text

/-- Writes a downloaded include, unless there is a file and files are kept. Gives whether it was
written. -/
def write (force : Bool) (file : LocalPath) (content : Bytes) : Run σ Bool := do
  Run.makeDirs file.parent
  let isThere ← Run.probe file.text
  if isThere && !force then
    Run.log .includes ("Include file already exists, skipping: " ++ file.text)
    pure false
  else
    let earlier ← if isThere then some <$> Run.readFile file.text else pure none
    Run.writeFile file.text content
    Run.log .includes ("Fetched include: " ++ file.text)
    Run.noteWritten file.text earlier
    pure true

/-- Whether a fault of the includes of an included file is only logged. -/
def staysNested : Fault → Bool
  | .includeMissing _ _ => true
  | fault => fault.isStorage

/-- Downloads and writes the include that a directive asks for, and goes on with the file by
`nested`. -/
def installAt (source : Source σ) (force : Bool) (nested : Text → Run σ Unit)
    (directive : Directive) (path : Text) (file : LocalPath) : Run σ Unit := do
  let spec ← Run.spec
  match ← Run.attempt (fetch source directive.path (some spec)) with
  | .error fault =>
    if !fault.isIncludeFault then Run.fail fault
    else if directive.optional then
      Run.log .includes ("Optional include not found: " ++ directive.path)
    else Run.fail (.includeMissing directive.path fault)
  | .ok fetched =>
    if ← write force file fetched.content then
      match ← Run.attempt (nested (Utf8.decodeLossy fetched.content)) with
      | .ok () => pure ()
      | .error fault =>
        if staysNested fault then
          Run.log .includes
            ("Failed to fetch nested includes from " ++ path ++ ": " ++ fault.message)
        else Run.fail fault
    else pure ()

/-- Installs the include that a directive asks for, unless its path was visited before or leads
where it must not. -/
def installOne (source : Source σ) (target : LocalPath) (force : Bool) (nested : Text → Run σ Unit)
    (directive : Directive) : Run σ Unit := do
  let path := (RepoPath.splitSection directive.path).1
  if path.isEmpty || (← Run.visited).contains path then pure ()
  else
    Run.visit path
    let place := place path target
    match check (← Run.cwd) path place with
    | .error refused =>
      Run.log .includes
        ("Skipping include with unsafe path: " ++ Text.quoted directive.path ++ " (" ++
          refused.message ++ ")")
    | .ok () => installAt source force nested directive path place.file

/-- Installs the includes that directives ask for, in order. -/
def installAll (source : Source σ) (target : LocalPath) (force : Bool)
    (nested : Text → Run σ Unit) : List Directive → Run σ Unit
  | [] => pure ()
  | directive :: directives => do
    installOne source target force nested directive
    installAll source target force nested directives

/-- Installs the includes of a text and of the files that it includes, down to a depth. -/
def install (source : Source σ) (target : LocalPath) (force : Bool) : Nat → Text → Run σ Unit
  | 0, _ => Run.fail .tooDeep
  | depth + 1, text =>
    installAll source target force (install source target force depth) (Directive.ofText text)

end WorkflowInstall.Include

import WorkflowInstall.Source

/-!
# Fetching a workflow

The workflow that a spec names, from the local file system or from its repository.

## Main Definitions

* `FetchedWorkflow` — a workflow and where it comes from
* `Workflow.pinRef` — the revision to fetch from
* `Workflow.fallbackPaths` — where else a workflow with a short path may lie
* `Workflow.fetch` — fetches a workflow

## Design Notes

Which commit a revision names is asked only to be reported, so a failure of that lookup does not
matter. The fault of a workflow that is at none of its places is the fault of the first place.
-/

namespace WorkflowInstall

/-- A workflow that has been fetched. -/
structure FetchedWorkflow where
  /-- The content. -/
  content : Bytes
  /-- The commit that it was fetched from, empty when it is not known. -/
  commit : Text
  /-- Whether it comes from the local file system. -/
  isLocal : Bool
  /-- The path that it was found at. -/
  path : Text
  deriving DecidableEq, Repr

/-- The content as a text. -/
def FetchedWorkflow.text (workflow : FetchedWorkflow) : Text := Utf8.decodeLossy workflow.content

namespace Workflow

variable {σ : Type}

/-- The revision to fetch from when none can be found out. -/
def usualRef : Text := "main"

/-- The start of a commit that is shown. -/
def shortCommit (commit : Text) : Text := commit.take 7

/-- The revision to fetch from: the version of the workflow at hand, or else the default branch,
which becomes its version. -/
def pinRef (source : Source σ) : Run σ Text := do
  let spec ← Run.spec
  if spec.version ≠ [] then pure spec.version
  else
    let pin (ref : Text) : Run σ Text := do
      Run.alterSpec fun spec => { spec with version := ref }
      pure ref
    match ← Run.attempt (Run.askBranch source spec.slug) with
    | .ok ref => pin ref
    | .error fault => if fault.isLookupFailure then pin usualRef else Run.fail fault

/-- Fetches the workflow at hand from the local file system. -/
def fetchLocal : Run σ FetchedWorkflow := do
  let path := (← Run.spec).path
  Run.log .workflow ("Reading local workflow: " ++ path)
  match ← Run.attempt (Run.readFile path) with
  | .ok content => pure ⟨content, [], true, path⟩
  | .error (.disk (.refused problem refused)) =>
    Run.fail (.workflowMissing path (.refused problem refused))
  | .error fault => Run.fail fault

/-- The directories in which a workflow may lie that is given by its file name alone. -/
def fallbackDirectories : List Text := ["workflows/", ".github/workflows/"]

/-- The path with the ending of a workflow file. -/
def withEnding (path : Text) : Text := if Text.endsWith ".md" path then path else path ++ ".md"

/-- Where else a workflow may lie. -/
def fallbackPaths (path : Text) : List Text :=
  if path.contains '/' then []
  else fallbackDirectories.map fun directory => withEnding (directory ++ path)

/-- The commit that a revision names, empty when the lookup fails. -/
def resolveCommit (source : Source σ) (owner repo ref : Text) : Run σ Text := do
  match ← Run.attempt (Run.askCommit source owner repo ref) with
  | .ok commit =>
    Run.log .workflow ("Resolved to commit: " ++ shortCommit commit)
    pure commit
  | .error fault => if fault.isLookupFailure then pure [] else Run.fail fault

/-- A size in words. -/
def sizeText (content : Bytes) : Text := "(" ++ Text.ofNat content.length ++ " bytes)"

/-- The first file that can be downloaded, with its path, or else the given fault. -/
def firstFallback (source : Source σ) (owner repo ref : Text) (otherwise : Fault) :
    List Text → Run σ (Text × Bytes)
  | [] => Run.fail otherwise
  | path :: paths => do
    match ← Run.attempt (Run.askFile source owner repo path ref) with
    | .ok content =>
      Run.log .workflow ("Downloaded workflow from " ++ path ++ " " ++ sizeText content)
      pure (path, content)
    | .error fault =>
      if fault.isLookupFailure then firstFallback source owner repo ref otherwise paths
      else Run.fail fault

/-- Downloads a workflow from its path or from one of its fallbacks. -/
def download (source : Source σ) (owner repo path ref : Text) : Run σ (Text × Bytes) := do
  match ← Run.attempt (Run.askFile source owner repo path ref) with
  | .ok content =>
    Run.log .workflow ("Downloaded workflow " ++ sizeText content)
    pure (path, content)
  | .error fault =>
    if fault.isLookupFailure then
      let otherwise := Fault.workflowUnavailable owner repo path ref fault
      firstFallback source owner repo ref otherwise (fallbackPaths path)
    else Run.fail fault

/-- Fetches the workflow at hand from its repository. -/
def fetchRemote (source : Source σ) : Run σ FetchedWorkflow := do
  let spec ← Run.spec
  match WorkflowSpec.ownerAndRepo? spec.slug with
  | none => Run.fail (.badSpec ⟨.badSlug spec.slug, spec.render⟩)
  | some (owner, repo) =>
    let ref ← pinRef source
    Run.log .workflow
      ("Fetching " ++ owner ++ "/" ++ repo ++ "/" ++ spec.path ++ "@" ++ ref ++ "...")
    let commit ← resolveCommit source owner repo ref
    let (path, content) ← download source owner repo spec.path ref
    pure ⟨content, commit, false, path⟩

/-- Fetches the workflow at hand. -/
def fetch (source : Source σ) : Run σ FetchedWorkflow := do
  let spec ← Run.spec
  if WorkflowSpec.isLocalPath spec.path || spec.slug.isEmpty then fetchLocal
  else fetchRemote source

end Workflow

end WorkflowInstall

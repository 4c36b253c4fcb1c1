import WorkflowInstall.Path.Local

/-!
# Paths inside a repository

A path in a repository is a text of segments with slashes between them. It may name a section of the
file after a `#`, and a pinned reference may name a revision after an `@`.

## Main Definitions

* `RepoPath.splitSection`, `RepoPath.splitRef` — the path and what is attached to it
* `RepoPath.isPinned` — whether a reference names its own repository
* `RepoPath.parent` — the directory part
* `RepoPath.join` — a path as written in a file of a directory
* `RepoPath.checkInside` — refuses a path above the root
* `RepoPath.toLocal` — where a file of the repository is kept
-/

namespace WorkflowInstall.RepoPath

/-- A reference before its first `#`, and the section from there on. -/
def splitSection (reference : Text) : Text × Text :=
  match Text.cutAt '#' reference with
  | (path, none) => (path, [])
  | (path, some name) => (path, '#' :: name)

/-- A reference before its first `@`, and the revision after it. -/
def splitRef (reference : Text) : Text × Text :=
  match Text.cutAt '@' reference with
  | (path, none) => (path, [])
  | (path, some revision) => (path, revision)

/-- Whether a reference names its own repository: it has an `@`, or at least three segments and
begins neither with a dot, nor with a slash, nor with the shared directory. -/
def isPinned (reference : Text) : Bool :=
  reference.contains '@' ||
    let clean := (splitSection reference).1
    decide (3 ≤ (Text.splitOn '/' clean).length) &&
      !(Text.startsWith "." clean || Text.startsWith "/" clean || Text.startsWith "shared/" clean)

/-- The path before its last slash. -/
def parent (path : Text) : Text := (Path.untilSlash path).dropLast

/-- A path as written in a file of the directory `base`; a leading slash means the root of the
repository. The result is normal and has no leading slash. -/
def join (base path : Text) : Text :=
  let joined :=
    match path with
    | '/' :: rest => rest
    | _ => if base.isEmpty then path else Path.join base path
  match Text.dropLeading '/' (Path.normalize joined) with
  | [] => Path.dot
  | inside => inside

/-- Refuses a normal path that climbs above the root of the repository. -/
def checkInside (path : Text) : Except UnsafePath Unit :=
  if path = Path.up ∨ Text.startsWith "../" path then .error ⟨.leavesRepository, path⟩ else .ok ()

/-- Where the file at a path of the repository is kept below `target`: at the same place as it has
below `base`, when it lies there. -/
def toLocal (path base : Text) (target : LocalPath) : Except UnsafePath LocalPath :=
  let start := base ++ "/"
  let rest := if base ≠ [] ∧ Text.startsWith start path then path.drop start.length else path
  let inside := Text.dropLeading '/' (Path.normalize rest)
  if inside = [] ∨ inside = Path.dot then .error ⟨.isTarget, rest⟩
  else if inside = Path.up ∨ Text.startsWith "../" inside then .error ⟨.leavesTarget, rest⟩
  else .ok (target.appendText inside)

end WorkflowInstall.RepoPath

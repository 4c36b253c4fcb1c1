import WorkflowInstall.Path.Lexical

/-!
# Local paths

A path in the local file system, held as its names. Empty segments and dots are left out; `..` is
kept, because the name before it may not exist.

## Main Definitions

* `LocalPath` — an anchor and names
* `LocalPath.ofText`, `LocalPath.text` — from and to its spelling
* `LocalPath.append` — a path below another one
* `LocalPath.parent`, `LocalPath.stem`
-/

namespace WorkflowInstall

/-- A path in the local file system. -/
structure LocalPath where
  /-- Where it begins. -/
  anchor : Path.Anchor
  /-- The names it leads through. -/
  names : List Text
  deriving DecidableEq, Repr

namespace LocalPath

/-- The path that a text spells. -/
def ofText (text : Text) : LocalPath :=
  { anchor := Path.Anchor.ofText text
    names := (Text.splitOn '/' text).filter fun s => s ≠ [] ∧ s ≠ Path.dot }

/-- The spelling of a path. -/
def text (path : LocalPath) : Text := Path.spell path.anchor path.names

/-- A path seen from another one; a rooted path stays as it is. -/
def append (path other : LocalPath) : LocalPath :=
  if other.anchor.isRooted then other else { path with names := path.names ++ other.names }

/-- The path that a text spells, seen from another path. -/
def appendText (path : LocalPath) (other : Text) : LocalPath := path.append (ofText other)

/-- The path without its last name. -/
def parent (path : LocalPath) : LocalPath := { path with names := path.names.dropLast }

/-- The last name. -/
def name (path : LocalPath) : Text := path.names.getLastD []

/-- A name without its ending. A dot at the front or at the end begins no ending. -/
def stemOf (name : Text) : Text :=
  let ending := (name.reverse.takeWhile (· != '.')).length + 1
  if ending < name.length ∧ 1 < ending then name.take (name.length - ending) else name

/-- The last name without its ending. -/
def stem (path : LocalPath) : Text := stemOf path.name

end LocalPath

end WorkflowInstall

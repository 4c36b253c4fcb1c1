import WorkflowInstall.Text.Quoted

/-!
# Paths as texts

What can be said about a path from its spelling alone: where it begins, its normal form, the path
from one directory to another, and whether one path lies below another.

## Main Definitions

* `Path.Anchor` — where a path begins
* `Path.segments` — its names, after the segments that go nowhere or up have been worked off
* `Path.normalize` — the shortest spelling
* `Path.absolute`, `Path.absoluteNames` — a path seen from the root
* `Path.relative` — the way from one directory to a path
* `Path.checkContained` — the containment check

## Design Notes

Two slashes at the front of a path are kept apart from one and from three or more, because only the
latter mean the root. `relative` and the containment check look at the names alone, so both roots
are the same to them.
-/

namespace WorkflowInstall

/-- Why a path is refused. -/
inductive PathProblem
  /-- It climbs above the root of its repository. -/
  | leavesRepository
  /-- It names the target directory itself. -/
  | isTarget
  /-- It climbs out of the target directory. -/
  | leavesTarget
  /-- It lies elsewhere. -/
  | outsideTarget
  deriving DecidableEq, Repr

/-- A path that is refused, with the problem it has. -/
structure UnsafePath where
  /-- The problem. -/
  problem : PathProblem
  /-- The path. -/
  path : Text
  deriving DecidableEq, Repr

/-- The problem in words. -/
def PathProblem.message : PathProblem → Text
  | .leavesRepository => "path escapes repository root"
  | .isTarget => "path resolves to the target directory"
  | .leavesTarget => "path escapes target directory"
  | .outsideTarget => "path is outside target directory"

/-- The problem and the quoted path. -/
def UnsafePath.message (u : UnsafePath) : Text :=
  u.problem.message ++ ": " ++ Text.quoted u.path

namespace Path

/-- Where a path begins. -/
inductive Anchor
  /-- In the working directory. -/
  | here
  /-- In the root. -/
  | root
  /-- In the root that is spelled with exactly two slashes. -/
  | doubleRoot
  deriving DecidableEq, Repr

/-- The slashes that spell an anchor. -/
def Anchor.mark : Anchor → Text
  | .here => []
  | .root => "/"
  | .doubleRoot => "//"

/-- Where a path begins. -/
def Anchor.ofText : Text → Anchor
  | '/' :: '/' :: '/' :: _ => .root
  | '/' :: '/' :: _ => .doubleRoot
  | '/' :: _ => .root
  | _ => .here

/-- Whether a path begins in a root. -/
def Anchor.isRooted : Anchor → Bool
  | .here => false
  | _ => true

/-- Whether a path begins with a slash. -/
def isAbsolute (path : Text) : Bool := Text.startsWith "/" path

/-- The segment that goes up. -/
abbrev up : Text := ['.', '.']

/-- The segment that goes nowhere. -/
abbrev dot : Text := ['.']

/-- One segment put on the names walked so far, the last one first. Going up from the root stays
there; going up from the working directory is remembered. -/
def push (rooted : Bool) (walked : List Text) (segment : Text) : List Text :=
  if segment = [] ∨ segment = dot then walked
  else if segment = up then
    match walked with
    | [] => if rooted then [] else [up]
    | last :: before => if last = up then up :: walked else before
  else segment :: walked

/-- The names that a row of segments leads through. -/
def resolve (rooted : Bool) (segments : List Text) : List Text :=
  (segments.foldl (push rooted) []).reverse

/-- The names of a path, with leading `..` when it climbs above the working directory. -/
def segments (path : Text) : List Text :=
  resolve (Anchor.ofText path).isRooted (Text.splitOn '/' path)

/-- Names spelled from an anchor. Nothing at all is spelled as a dot. -/
def spell (anchor : Anchor) (names : List Text) : Text :=
  match anchor.mark ++ Text.joinWith "/" names with
  | [] => dot
  | text => text

/-- The shortest spelling of a path. -/
def normalize (path : Text) : Text := spell (Anchor.ofText path) (segments path)

/-- One path seen from another one; an absolute path stays as it is. -/
def join (base path : Text) : Text :=
  if isAbsolute path then path
  else if base.isEmpty || Text.endsWith "/" base then base ++ path
  else base ++ "/" ++ path

/-- The shortest spelling of a path from the root, where `cwd` is the working directory. -/
def absolute (cwd path : Text) : Text :=
  normalize (if isAbsolute path then path else join cwd path)

/-- The names from the root to a path. -/
def absoluteNames (cwd path : Text) : List Text :=
  (Text.splitOn '/' (absolute cwd path)).filter (· ≠ [])

/-- The steps from one directory to a place, both given by their names from the root. -/
def steps : (start goal : List Text) → List Text
  | a :: start, b :: goal =>
    if a = b then steps start goal else List.replicate (start.length + 1) up ++ b :: goal
  | [], goal => goal
  | start, [] => List.replicate start.length up

/-- The way from a directory to a path. -/
def relative (cwd path start : Text) : Text :=
  spell .here (steps (absoluteNames cwd start) (absoluteNames cwd path))

/-- Refuses a path that is not below a directory. -/
def checkContained (cwd directory path : Text) : Except UnsafePath Unit :=
  let way := relative cwd (absolute cwd path) (absolute cwd directory)
  if way = dot ∨ way = up ∨ Text.startsWith "../" way then .error ⟨.outsideTarget, path⟩
  else .ok ()

/-- The path up to and with its last slash. -/
def untilSlash (path : Text) : Text :=
  (path.reverse.dropWhile (· != '/')).reverse

/-- The directory part of a path: the text before the last slash, without the slashes at its end
unless it is made of slashes alone. -/
def directory (path : Text) : Text :=
  let front := untilSlash path
  if front.all (· == '/') then front else Text.dropEndWhile (· == '/') front

/-- The part of a path after its last slash. -/
def base (path : Text) : Text := Text.lastPiece '/' path

end Path

end WorkflowInstall

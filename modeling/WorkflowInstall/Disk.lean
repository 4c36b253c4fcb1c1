import WorkflowInstall.Path.Local
import WorkflowInstall.Text.Utf8

/-!
# The file system

Files and directories by their names from the root, seen from a working directory. A file or
directory has one location: no other name leads to it.

## Main Definitions

* `Location` — the names from the root to a file or directory
* `Disk` — the files and directories, and the working directory
* `Disk.find` — where a path leads
* `Disk.read`, `Disk.write`, `Disk.remove`, `Disk.makeDirs` — what can be done there
* `Disk.pathExists`, `Disk.probe` — whether a path leads to something
* `DiskFault` — why an operation is refused

## Design Notes

Operations take paths as texts and follow them step by step: a name can only be looked up in a
directory, `..` goes up from the directory that was reached, and a slash at the end asks for a
directory. An operation that fails half way keeps what it has done, so `makeDirs` gives a disk in
either case.

Outside the model are symbolic links and hard links, by which a file has several names, permissions,
by which an operation is refused to some, and a full disk or a failing device, by which a write that
was begun breaks off. What is said about a `Disk` is said about file systems without them.

Names are bytes. The half of a surrogate pair whose code ends in a byte above the ASCII range stands
for that byte; any other half has no name.
-/

namespace WorkflowInstall

/-- The names that lead from the root to a file or directory. -/
abbrev Location := List Text

/-- Why the file system refuses an operation. -/
inductive DiskProblem
  /-- There is nothing at the path. -/
  | notFound
  /-- There is something at the path already. -/
  | alreadyThere
  /-- The path leads through a file. -/
  | notDirectory
  /-- The path leads to a directory. -/
  | isDirectory
  /-- A name or the path is too long. -/
  | nameTooLong
  deriving DecidableEq, Repr

/-- The number of a problem. -/
def DiskProblem.code : DiskProblem → Nat
  | .notFound => 2
  | .alreadyThere => 17
  | .notDirectory => 20
  | .isDirectory => 21
  | .nameTooLong => 36

/-- The problem in words. -/
def DiskProblem.words : DiskProblem → Text
  | .notFound => "No such file or directory"
  | .alreadyThere => "File exists"
  | .notDirectory => "Not a directory"
  | .isDirectory => "Is a directory"
  | .nameTooLong => "File name too long"

/-- An operation that failed. -/
inductive DiskFault
  /-- The file system refused it for the path. -/
  | refused (problem : DiskProblem) (path : Text)
  /-- The path holds a NUL character, so it names nothing. -/
  | nulInPath
  /-- The path holds half of a surrogate pair that stands for no byte. -/
  | unencodable (part : Utf8.Unencodable)
  deriving DecidableEq, Repr

/-- The fault in words. -/
def DiskFault.message : DiskFault → Text
  | .refused problem path =>
    "[Errno " ++ Text.ofNat problem.code ++ "] " ++ problem.words ++ ": " ++ Text.quoted path
  | .nulInPath => "embedded null byte"
  | .unencodable part => part.message

/-- What stands at a location. -/
inductive Node
  | file (content : Bytes)
  | directory
  deriving DecidableEq, Repr

/-- The file system, seen from a working directory. The root is a directory and has no entry. -/
structure Disk where
  /-- The working directory. -/
  cwd : Location
  /-- The files and directories. -/
  entries : List (Location × Node)
  deriving DecidableEq, Repr

/-- Where a path leads. -/
inductive Place
  /-- To a file or directory. -/
  | present (location : Location) (node : Node)
  /-- To a free name in a directory; a slash may follow the name. -/
  | vacant (location : Location) (slash : Bool)
  deriving DecidableEq, Repr

namespace Disk

/-- The greatest length of a name, in bytes. -/
def nameLimit : Nat := 255

/-- The greatest length of a path, in bytes. -/
def pathLimit : Nat := 4095

/-- The number of bytes of a name or path. -/
def byteLength (name : Text) : Nat :=
  (Surrogate.codes name).countP Surrogate.isHalf + (Utf8.encode name).length

/-- The path of the working directory. -/
def here (disk : Disk) : Text := Path.spell .root disk.cwd

/-- What stands at a location. -/
def node? (disk : Disk) (location : Location) : Option Node :=
  if location = [] then some .directory else disk.entries.lookup location

/-- The content of the file at a location. -/
def file? (disk : Disk) (location : Location) : Option Bytes :=
  match disk.node? location with
  | some (.file content) => some content
  | _ => none

/-- Puts a file or directory at a location, in place of what stands there. -/
def put (disk : Disk) (location : Location) (node : Node) : Disk :=
  if disk.entries.any (·.1 == location) then
    { disk with
      entries := disk.entries.map fun entry =>
        if entry.1 = location then (location, node) else entry }
  else { disk with entries := disk.entries ++ [(location, node)] }

/-- Takes away what stands at a location. -/
def erase (disk : Disk) (location : Location) : Disk :=
  { disk with entries := disk.entries.filter (·.1 ≠ location) }

/-- Follows segments from a location, at which `node` stands. -/
def walk (disk : Disk) (location : Location) (node : Node) : List Text → Except DiskProblem Place
  | [] => .ok (.present location node)
  | segment :: rest =>
    match node with
    | .file _ => .error .notDirectory
    | .directory =>
      if segment = [] ∨ segment = Path.dot then walk disk location .directory rest
      else if segment = Path.up then walk disk location.dropLast .directory rest
      else if nameLimit < byteLength segment then .error .nameTooLong
      else
        match disk.node? (location ++ [segment]) with
        | some child => walk disk (location ++ [segment]) child rest
        | none =>
          if rest.all List.isEmpty then .ok (.vacant (location ++ [segment]) (!rest.isEmpty))
          else .error .notFound

/-- Follows the segments of a path. -/
def follow (disk : Disk) (path : Text) (segments : List Text) : Except DiskFault Place :=
  match Utf8.unencodableBut? Surrogate.isByteHalf path with
  | some part => .error (.unencodable part)
  | none =>
    if path.contains '\x00' then .error .nulInPath
    else if path.isEmpty then .error (.refused .notFound path)
    else if pathLimit < byteLength path then .error (.refused .nameTooLong path)
    else
      let start := if Path.isAbsolute path then [] else disk.cwd
      (walk disk start .directory segments).mapError fun problem => .refused problem path

/-- Where a path leads. -/
def find (disk : Disk) (path : Text) : Except DiskFault Place :=
  disk.follow path (Text.splitOn '/' path)

/-- The content of the file at a path. -/
def read (disk : Disk) (path : Text) : Except DiskFault Bytes :=
  match disk.find path with
  | .ok (.present _ (.file content)) => .ok content
  | .ok (.present _ .directory) => .error (.refused .isDirectory path)
  | .ok (.vacant _ _) => .error (.refused .notFound path)
  | .error fault => .error fault

/-- Where a file that is written to a path comes to stand. -/
def writable (disk : Disk) (path : Text) : Except DiskFault Location :=
  match disk.find path with
  | .ok (.present location (.file _)) => .ok location
  | .ok (.vacant location false) => .ok location
  | .ok _ => .error (.refused .isDirectory path)
  | .error fault => .error fault

/-- Writes a file to a path, in place of the file that is there. -/
def write (disk : Disk) (path : Text) (content : Bytes) : Except DiskFault Disk :=
  (disk.writable path).map fun location => disk.put location (.file content)

/-- Where the file stands that can be removed from a path. -/
def removable (disk : Disk) (path : Text) : Except DiskFault Location :=
  match disk.find path with
  | .ok (.present location (.file _)) => .ok location
  | .ok (.present _ .directory) => .error (.refused .isDirectory path)
  | .ok (.vacant _ _) => .error (.refused .notFound path)
  | .error fault => .error fault

/-- Removes the file at a path. -/
def remove (disk : Disk) (path : Text) : Except DiskFault Disk :=
  (disk.removable path).map disk.erase

/-- Whether a path leads to something. A path that cannot be followed leads to nothing. -/
def pathExists (disk : Disk) (path : Text) : Bool :=
  match disk.find path with
  | .ok (.present _ _) => true
  | _ => false

/-- Whether a path leads to a file. -/
def isFile (disk : Disk) (path : Text) : Bool :=
  match disk.find path with
  | .ok (.present _ (.file _)) => true
  | _ => false

/-- Whether a path leads to a directory. -/
def isDirectory (disk : Disk) (path : Text) : Bool :=
  match disk.find path with
  | .ok (.present _ .directory) => true
  | _ => false

/-- Whether a path leads to something; a path that is too long is a fault. -/
def probe (disk : Disk) (path : Text) : Except DiskFault Bool :=
  match disk.find path with
  | .ok (.present _ _) => .ok true
  | .error (.refused .nameTooLong path) => .error (.refused .nameTooLong path)
  | _ => .ok false

/-- Makes a directory. Slashes at the end of the path do not matter. -/
def makeDir (disk : Disk) (path : Text) : Except DiskFault Disk :=
  let segments := (Text.splitOn '/' path).reverse.dropWhile List.isEmpty |>.reverse
  match disk.follow path segments with
  | .ok (.vacant location _) => .ok (disk.put location .directory)
  | .ok (.present _ _) => .error (.refused .alreadyThere path)
  | .error fault => .error fault

/-- Makes a directory unless there is one. -/
def ensureDir (disk : Disk) (path : Text) : Except DiskFault Unit × Disk :=
  match disk.makeDir path with
  | .ok disk => (.ok (), disk)
  | .error (.refused problem path) =>
    if disk.isDirectory path then (.ok (), disk) else (.error (.refused problem path), disk)
  | .error fault => (.error fault, disk)

/-- Makes the directory of the given names, the last one first, and those that lead to it. A name
on the way that is found in the meantime is no fault. -/
def makeDirsFrom (anchor : Path.Anchor) : List Text → Disk → Except DiskFault Unit × Disk
  | [], disk => disk.ensureDir (Path.spell anchor [])
  | name :: before, disk =>
    let path := Path.spell anchor (name :: before).reverse
    if before = [] ∨ disk.pathExists (Path.spell anchor before.reverse) then disk.ensureDir path
    else
      match makeDirsFrom anchor before disk with
      | (.ok (), disk) => disk.ensureDir path
      | (.error (.refused .alreadyThere _), disk) => disk.ensureDir path
      | failed => failed

/-- Makes the directory at a path and those that lead to it. -/
def makeDirs (disk : Disk) (path : LocalPath) : Except DiskFault Unit × Disk :=
  makeDirsFrom path.anchor path.names.reverse disk

end Disk

end WorkflowInstall

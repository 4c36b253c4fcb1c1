import WorkflowInstall.CommandLine.Interpreter

/-!
# The program

Loads the part of the file system that a command line can reach, runs the command line on it, and
carries out what the run has done.

## Main Definitions

* `Program.load` — the file system as a disk
* `Program.carryOut` — what a run has done, done to the file system
* `main`

## Design Notes

The program has no connection and starts no other program: requests fail, and git is not there.
Symbolic links are not followed inside a directory.
-/

namespace WorkflowInstall.Program

open Github

/-- The spelling of a location. -/
def spell (location : Location) : String :=
  String.ofList (Surrogate.spell (Path.spell .root location))

/-- Loads what stands at a place into the disk, a directory with everything in it. -/
partial def loadTree (disk : Disk) (location : Location) (place : String) : IO Disk := do
  let found ← IO.FS.realPath place
  if ← found.isDir then
    let mut disk := if location = [] then disk else disk.put location .directory
    for entry in ← found.readDir do
      let inside := place ++ "/" ++ entry.fileName
      if (← IO.FS.realPath inside).toString = inside then
        disk ← loadTree disk (location ++ [Surrogate.ofChars entry.fileName.toList]) inside
    return disk
  else
    return disk.put location (.file (← IO.FS.readBinFile found).toList)

/-- Loads the directories that lead to a location, as far as they are there. -/
def loadWay (disk : Disk) (location : Location) : IO Disk := do
  let mut disk := disk
  for length in List.range location.length do
    let around := location.take length
    try
      let found ← IO.FS.realPath (spell around)
      if (disk.node? around).isNone && (← found.isDir) then disk := disk.put around .directory
    catch _ => pure ()
  return disk

/-- Loads what stands at a path, if anything does. -/
def loadPath (disk : Disk) (path : Text) : IO Disk := do
  let location := Path.absoluteNames disk.here path
  let disk ← loadWay disk location
  try
    let found ← IO.FS.realPath (spell location)
    loadTree disk location found.toString
  catch _ => return disk

/-- The variables that the program looks at. -/
def variableNames : List Text :=
  let own : List Text := ["HOME", "XDG_CONFIG_HOME", "GITHUB_API_URL"]
  own ++ [Limits.timeoutVariable, Limits.attemptsVariable, Dotenv.offVariable] ++
    Token.variableNames

/-- The environment variables that are set. -/
def loadEnvironment : IO Environment := do
  let mut environment : Environment := ⟨[]⟩
  for name in variableNames do
    match ← IO.getEnv (String.ofList name) with
    | some value => environment := environment.set name (Surrogate.ofChars value.toList)
    | none => pure ()
  return environment

/-- The files around the working directory that may set variables. -/
def dotenvPaths (cwd : Location) : List Text :=
  (List.range cwd.length).map fun length => Path.spell .root (cwd.take length ++ [Dotenv.fileName])

/-- The file system, as far as a command line can reach it: the working directory, the
configuration file, the files that may set variables, and what the arguments name. -/
def load (environment : Environment) (arguments : List Text) : IO Disk := do
  let cwd := Path.absoluteNames "/" (Surrogate.ofChars (← IO.currentDir).toString.toList)
  let config := Settings.configPath environment (environment.homes []) none
  let mut disk : Disk := ⟨cwd, []⟩
  for path in Path.spell .root cwd :: config :: dotenvPaths cwd ++ arguments do
    disk ← loadPath disk path
  return disk

/-- Does to the file system what an event did to the disk, and writes what it wrote. On the stream
of errors, a character that cannot be written is spelled as an escape. -/
def carryOutEvent (event : Event) : IO Unit := do
  match event.writing? with
  | some (.output, text) => (← IO.getStdout).putStr (String.ofList (Surrogate.spell text))
  | some (.errors, text) => (← IO.getStderr).putStr (String.ofList (Surrogate.spell text))
  | none => pure ()
  match event with
  | .wrote location _ content =>
    IO.FS.writeBinFile (spell location) ⟨content.toArray⟩
  | .removed location => IO.FS.removeFile (spell location)
  | _ => pure ()

/-- Does to the file system what a run did to the disk. -/
def carryOut (before : Disk) (after : World Surroundings) : IO Unit := do
  for (location, node) in after.disk.entries do
    if node = .directory && (before.node? location).isNone then
      IO.FS.createDirAll (spell location)
  for event in after.trace.reverse do carryOutEvent event

end WorkflowInstall.Program

open WorkflowInstall in
/-- Runs a command line. -/
def main (arguments : List String) : IO UInt32 := do
  let arguments := arguments.map fun argument => Surrogate.ofChars argument.toList
  let environment ← Program.loadEnvironment
  let disk ← Program.load environment arguments
  let world : World Github.Surroundings :=
    { disk := disk
      git := ⟨false, none, none⟩
      remote := ⟨environment, [], [], 0.0, 0.0, Github.Surroundings.usualRefusal⟩
      spec := ⟨[], [], [], []⟩
      visited := []
      journal := none
      verbose := false
      trace := [] }
  let (outcome, after) := CommandLine.run none arguments world
  Program.carryOut disk after
  match outcome with
  | .ok status => return status.toUInt32
  | .error fault =>
    (← IO.getStderr).putStrLn (String.ofList (Surrogate.spell fault.message))
    return 1

import WorkflowInstall.CommandLine.Terminal
import WorkflowInstall.CommandLine.Usage
import WorkflowInstall.Remote
import WorkflowInstall.Staging

/-!
# The commands at work

What a command line does. A run of it ends with the status of the program, or with a fault for which
the program has no words.

## Main Definitions

* `Ending` — how a command ends early
* `CommandLine.addAll` — installs workflows, all of them or none
* `CommandLine.display` — prints a workflow
* `CommandLine.run` — what a command line does

## Design Notes

The options of the program are read and checked before the settings, and the settings before the
arguments of the command. Help is given before any option is checked.

All specs of a command line are read before the first workflow is fetched. When one of them cannot
be installed, everything that the command has written is taken back.
-/

namespace WorkflowInstall.CommandLine

open Github

/-- How a command ends early. -/
inductive Ending
  /-- Its help was asked for. -/
  | help (command : Command)
  /-- It was called without anything. -/
  | bare
  /-- It was called in a wrong way. -/
  | misuse (command : Command) (problem : UsageProblem)
  /-- It says why it cannot be done. -/
  | refusal (message : Text)
  /-- It breaks off with a fault. -/
  | failure (fault : Fault)
  deriving Repr

/-- A part of a command, which may end it. -/
abbrev Step := ExceptT Ending (Run Surroundings)

/-- A run as a part of a command. -/
def perform {α : Type} (run : Run Surroundings α) : Step α := ExceptT.lift run

/-- The world of a command. -/
def world : Step (World Surroundings) := perform Run.look

/-- What a command prints and the status it ends with when it ends early. -/
def Ending.close : Ending → Run Surroundings Nat
  | .help command => do
    Terminal.say command.help
    return 0
  | .bare => do
    Terminal.complain (Command.help .top)
    return 2
  | .misuse command problem => do
    Terminal.complain (problem.report command)
    return 2
  | .refusal message => do
    Terminal.complain ("Error: " ++ message ++ "\n")
    return 1
  | .failure fault => Run.fail fault

/-! ## Arguments -/

/-- What must stand at the path of an option when anything does. -/
inductive Wanted
  | file
  | directory
  deriving DecidableEq, Repr

/-- Checks what stands at the path of an option. -/
def checkPath (disk : Disk) (command : Command) (option : Text) (wanted : Wanted) (path : Text) :
    Except Ending Unit :=
  match disk.find path, wanted with
  | .ok (.present _ .directory), .file => .error (.misuse command (.directoryGiven option path))
  | .ok (.present _ (.file _)), .directory => .error (.misuse command (.fileGiven option path))
  | .ok _, _ => .ok ()
  | .error (.refused _ _), _ => .ok ()
  | .error fault, _ => .error (.failure (.disk fault))

/-- Reads the arguments of a command, gives help when it is asked for, and checks the paths of
options. -/
def readArguments (disk : Disk) (command : Command) (arguments : List Text) :
    Except Ending Arguments :=
  match Arguments.parse command.grammar arguments with
  | .error problem => .error (.misuse command (.arguments problem))
  | .ok found =>
    if found.has .help then .error (.help command)
    else do
      match found.value? .config with
      | some path => checkPath disk command "--config" .file path
      | none => pure ()
      match found.value? .directory with
      | some path => checkPath disk command "--dir" .directory path
      | none => pure ()
      return found

/-! ## Add -/

/-- The workflows that texts name. -/
def parseAll (homes : Homes) (texts : List Text) : Except BadSpec (List WorkflowSpec) :=
  texts.mapM (WorkflowSpec.parse homes)

/-- Installs workflows, in order. When one of them cannot be installed, everything that was written
is taken back. -/
def installAll (source : Source Surroundings) (options : InstallOptions) :
    List WorkflowSpec → Step (List Installed)
  | [] => return []
  | spec :: specs => do
    perform (Run.alterSpec fun _ => spec)
    match ← Run.attempt (Install.add source options) with
    | .ok installed =>
      let more ← installAll source options specs
      return installed :: more
    | .error fault =>
      if fault.isRefusal || fault.isStorage then
        perform Staging.rollBack
        throw (.refusal fault.message)
      else throw (.failure fault)

/-- The line about a workflow that was installed. -/
def installedText (installed : Installed) : Text :=
  let commit : Text :=
    if installed.commit.isEmpty then [] else "@" ++ Workflow.shortCommit installed.commit
  let others := installed.written.length - 1
  let more : Text :=
    if others = 0 then [] else " (+" ++ Text.ofNat others ++ " dependencies)"
  "Added " ++ installed.file ++ " from " ++ installed.source ++ commit ++ more ++ "\n"

/-- Writes a line about each workflow that was installed. -/
def sayInstalled : List Installed → Run Surroundings Unit
  | [] => pure ()
  | installed :: more => do
    Terminal.say (installedText installed)
    sayInstalled more

/-- Stages the recorded files, or says why they cannot be staged. -/
def stage : Step Unit := do
  match ← perform (Run.attempt Staging.stageAll) with
  | .ok () => return
  | .error (.commandFailed command status) =>
    throw (.refusal ("git add failed: " ++ (Fault.commandFailed command status).message))
  | .error (.disk (.refused .notFound path)) =>
    throw (.refusal ("git add failed: " ++ (Fault.disk (.refused .notFound path)).message))
  | .error fault => throw (.failure fault)

/-- Installs the workflows that texts name, all of them or none. -/
def addAll (source : Source Surroundings) (options : InstallOptions) (staged : Bool)
    (texts : List Text) : Step Unit := do
  match parseAll (← world).remote.homes texts with
  | .error refused => throw (.refusal refused.problem.message)
  | .ok specs =>
    perform (sayInstalled (← installAll source options specs))
    if staged then stage

/-- Replaces the journal for a run. -/
def withJournal {α : Type} (journal : Journal) (run : Run Surroundings α) : Run Surroundings α :=
  fun world =>
    let (result, after) := run { world with journal := some journal }
    (result, { after with journal := world.journal })

/-- The command that installs workflows. -/
def add (settings : Settings) (source : Source Surroundings) (arguments : List Text) :
    Step Unit := do
  let found ← readArguments (← world).disk .add arguments
  if found.rest.isEmpty then throw (.misuse .add (.argumentMissing "SPECS..."))
  let target :=
    match found.value? .directory with
    | some (c :: path) => c :: path
    | _ => settings.target
  let options : InstallOptions :=
    { target := LocalPath.ofText target
      force := found.has .force
      includes := !found.has .noIncludes
      imports := !found.has .noImports
      depth := Install.usualDepth }
  let journal ← perform (Staging.journalFor target)
  ExceptT.mk (withJournal journal (addAll source options (found.has .stage) found.rest).run)

/-! ## Show -/

/-- Prints a workflow, and where it comes from when lines are logged. -/
def display (source : Source Surroundings) (text : Text) : Step Unit := do
  let fetching : Run Surroundings FetchedWorkflow := do
    Remote.parseSpec text
    Workflow.fetch source
  match ← perform (Run.attempt fetching) with
  | .error fault => throw (if fault.isRefusal then .refusal fault.message else .failure fault)
  | .ok fetched =>
    if (← world).verbose then
      let commit : Text := if fetched.commit.isEmpty then [] else "@" ++ fetched.commit
      perform (Terminal.complain ("# source: " ++ fetched.path ++ commit ++ "\n"))
    let ending : Text := if fetched.content.getLast? = some 10 then [] else ['\n']
    perform (Terminal.say (fetched.text ++ ending))

/-- The command that prints a workflow. -/
def displayCommand (source : Source Surroundings) (arguments : List Text) : Step Unit := do
  let found ← readArguments (← world).disk .display arguments
  match found.rest with
  | [] => throw (.misuse .display (.argumentMissing "SPEC"))
  | [text] => display source text
  | _ :: left => throw (.misuse .display (.argumentsLeft left))

/-! ## The program -/

/-- A command and its arguments. -/
structure Call where
  /-- The options of the program. -/
  options : Arguments
  /-- The command. -/
  command : Command
  /-- Its arguments. -/
  arguments : List Text

/-- Reads the options of the program and finds the command. A name that is no command is read as an
option once more, so that help can be asked for after two dashes. -/
def readCall (disk : Disk) (arguments : List Text) : Except Ending Call :=
  if arguments.isEmpty then .error .bare
  else do
    let options ← readArguments disk .top arguments
    match options.rest with
    | [] => throw (.misuse .top .commandMissing)
    | name :: more =>
      match Command.ofName? name with
      | some command => return ⟨options, command, more⟩
      | none =>
        let _ ← readArguments disk .top (name :: more)
        throw (.misuse .top (.unknownCommand name))

/-- Runs a command with its settings. -/
def runCommand (given : Option (Source Surroundings)) (call : Call) : Step Unit := do
  let world ← world
  let around := world.remote
  match Settings.load world.disk around.environment around.homes (call.options.value? .config) with
  | .error fault => throw (if fault.isRefusal then .refusal fault.message else .failure fault)
  | .ok settings =>
    let source := given.getD (Client.ofSettings settings []).source
    match call.command with
    | .add => add settings source call.arguments
    | _ => displayCommand source call.arguments

/-- Sets whether lines are logged for a run. -/
def withVerbosity {α : Type} (verbose : Bool) (run : Run Surroundings α) : Run Surroundings α :=
  fun world =>
    let (result, after) := run { world with verbose := verbose }
    (result, { after with verbose := world.verbose })

/-- What a command line does. Remote files come from the given source, or else from the hosting
service that the settings name. -/
def run (given : Option (Source Surroundings)) (arguments : List Text) : Run Surroundings Nat := do
  match readCall (← Run.look).disk arguments with
  | .error ending => ending.close
  | .ok call =>
    match ← withVerbosity (call.options.has .verbose) (runCommand given call).run with
    | .error ending => ending.close
    | .ok () => return 0

end WorkflowInstall.CommandLine

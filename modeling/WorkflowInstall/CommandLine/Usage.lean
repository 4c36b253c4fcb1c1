import WorkflowInstall.CommandLine.Arguments
import WorkflowInstall.Text.Quoted

/-!
# Usage

The commands, their help, and what is wrong with a command line.

## Main Definitions

* `Command` — the commands
* `Command.usage`, `Command.help` — how a command is used
* `UsageProblem` — what is wrong with a command line
* `UsageProblem.report` — what is said about it
-/

namespace WorkflowInstall.CommandLine

/-- The commands. -/
inductive Command
  /-- The program itself, which goes on with one of the others. -/
  | top
  | add
  | display
  deriving DecidableEq, Repr

namespace Command

/-- How a command is called. -/
def path : Command → Text
  | .top => "cli"
  | .add => "cli add"
  | .display => "cli show"

/-- The line that says how a command is used. -/
def usage : Command → Text
  | .top => "Usage: cli [OPTIONS] COMMAND [ARGS]...\n"
  | .add => "Usage: cli add [OPTIONS] SPECS...\n"
  | .display => "Usage: cli show [OPTIONS] SPEC\n"

/-- The lines after the usage. -/
def description : Command → List Text
  | .top =>
    ["",
      "  remoteflow - fetch agentic workflows together with their includes and imports",
      "",
      "Options:",
      "  -v, --verbose  Print one line per fetch, skip and rejection decision to",
      "                 stderr.",
      "  --config FILE  Config file (default: $XDG_CONFIG_HOME/remoteflow/config.yaml).",
      "  -h, --help     Show this message and exit.",
      "",
      "Commands:",
      "  add   Add workflows from owner/repo/path[@ref] specs or local paths.",
      "  show  Print a workflow file without writing anything."]
  | .add =>
    ["",
      "  Add workflows from owner/repo/path[@ref] specs or local paths.",
      "",
      "Options:",
      "  --dir DIRECTORY  Directory to write workflows into (default:",
      "                   .github/workflows)",
      "  --force          Overwrite files that already exist",
      "  --no-includes    Do not fetch @include directives",
      "  --no-imports     Do not fetch frontmatter imports",
      "  --stage          Stage written files with git add",
      "  -h, --help       Show this message and exit."]
  | .display =>
    ["",
      "  Print a workflow file without writing anything.",
      "",
      "Options:",
      "  -h, --help  Show this message and exit."]

/-- The help of a command. -/
def help (command : Command) : Text :=
  command.usage ++ command.description.flatMap fun line => line ++ ['\n']

/-- The options of a command. -/
def grammar : Command → Grammar
  | .top =>
    { long := [("--verbose", .verbose), ("--config", .config), ("--help", .help)]
      letters := [('v', .verbose), ('h', .help)]
      mixed := false }
  | .add =>
    { long :=
        [("--dir", .directory), ("--force", .force), ("--no-includes", .noIncludes),
          ("--no-imports", .noImports), ("--stage", .stage), ("--help", .help)]
      letters := [('h', .help)]
      mixed := true }
  | .display =>
    { long := [("--help", .help)]
      letters := [('h', .help)]
      mixed := true }

/-- The command of a name. -/
def ofName? (name : Text) : Option Command :=
  if name = "add" then some .add else if name = "show" then some .display else none

end Command

/-- What is wrong with a command line. -/
inductive UsageProblem
  /-- The arguments cannot be read. -/
  | arguments (problem : ArgumentProblem)
  /-- There is no command of that name. -/
  | unknownCommand (name : Text)
  /-- There is no command. -/
  | commandMissing
  /-- An argument is missing. -/
  | argumentMissing (name : Text)
  /-- There are more arguments than the command takes. -/
  | argumentsLeft (left : List Text)
  /-- The value of an option names a directory where a file is wanted. -/
  | directoryGiven (option value : Text)
  /-- The value of an option names a file where a directory is wanted. -/
  | fileGiven (option value : Text)
  deriving DecidableEq, Repr

namespace UsageProblem

/-- The problem in words. -/
def message : UsageProblem → Text
  | .arguments (.unknownOption name) => "No such option " ++ Text.quoted name ++ "."
  | .arguments (.valueMissing name) => "Option " ++ Text.quoted name ++ " requires an argument."
  | .arguments (.valueUnwanted name) => "Option " ++ Text.quoted name ++ " does not take a value."
  | .unknownCommand name => "No such command " ++ Text.quoted name ++ "."
  | .commandMissing => "Missing command."
  | .argumentMissing name => "Missing argument '" ++ name ++ "'."
  | .argumentsLeft left =>
    let noun : Text := if left.length = 1 then "argument" else "arguments"
    "Got unexpected extra " ++ noun ++ " (" ++ Text.joinWith " " left ++ ")"
  | .directoryGiven option value =>
    "Invalid value for '" ++ option ++ "': File " ++ Text.quoted value ++ " is a directory."
  | .fileGiven option value =>
    "Invalid value for '" ++ option ++ "': Directory " ++ Text.quoted value ++ " is a file."

/-- Whether the problem is reported with a hint at the usage. -/
def hasHint : UsageProblem → Bool
  | .arguments (.valueMissing _) => false
  | .arguments (.valueUnwanted _) => false
  | _ => true

/-- What is said about a problem with the arguments of a command. -/
def report (command : Command) (problem : UsageProblem) : Text :=
  let hint : Text :=
    if problem.hasHint then
      command.usage ++ "Try '" ++ command.path ++ " --help' for help.\n\n"
    else []
  hint ++ "Error: " ++ problem.message ++ "\n"

end UsageProblem

end WorkflowInstall.CommandLine

import WorkflowInstall.Text.Basic

/-!
# Arguments of a command

Options and what is left when they are taken out.

## Main Definitions

* `Switch` — the options of all commands
* `Grammar` — the options of one command
* `Arguments` — options in order, and the arguments that are left
* `Arguments.parse` — reads the arguments of a command
* `ArgumentProblem` — why they cannot be read

## Design Notes

An option that takes a value takes the next argument, whatever it is. Two dashes alone end the
options. In a command that goes on with another command, the first argument that is no option ends
them too.
-/

namespace WorkflowInstall.CommandLine

/-- The options of all commands. -/
inductive Switch
  | verbose
  | config
  | help
  | directory
  | force
  | noIncludes
  | noImports
  | stage
  deriving DecidableEq, Repr

/-- Whether an option takes a value. -/
def Switch.takesValue : Switch → Bool
  | .config => true
  | .directory => true
  | _ => false

/-- The options of one command. -/
structure Grammar where
  /-- The options by their long names. -/
  long : List (Text × Switch)
  /-- The options by their letters; none of them takes a value. -/
  letters : List (Char × Switch)
  /-- Whether options may follow an argument that is none. -/
  mixed : Bool

/-- Why arguments cannot be read. -/
inductive ArgumentProblem
  /-- There is no such option. -/
  | unknownOption (name : Text)
  /-- The value of an option is missing. -/
  | valueMissing (name : Text)
  /-- An option was given a value but takes none. -/
  | valueUnwanted (name : Text)
  deriving DecidableEq, Repr

/-- An option that was given. -/
structure Given where
  /-- The option. -/
  switch : Switch
  /-- Its value, empty when it takes none. -/
  value : Text
  deriving DecidableEq, Repr

/-- Arguments that have been read. -/
structure Arguments where
  /-- The options that were given, in order. -/
  given : List Given
  /-- The arguments that are no options, in order. -/
  rest : List Text
  deriving DecidableEq, Repr

/-- An option that was given and still needs its value. -/
structure Owing where
  /-- The option. -/
  switch : Switch
  /-- The name by which it was given. -/
  name : Text
  deriving DecidableEq, Repr

/-- What an argument that begins with a dash gives. -/
inductive Reading
  | options (given : List Given)
  | owing (owing : Owing)
  deriving DecidableEq, Repr

/-- The options that letters in a row stand for. -/
def Grammar.readLetters (grammar : Grammar) : List Char → Except ArgumentProblem (List Given)
  | [] => .ok []
  | letter :: letters =>
    match grammar.letters.lookup letter with
    | none => .error (.unknownOption ['-', letter])
    | some switch => (grammar.readLetters letters).map (⟨switch, []⟩ :: ·)

/-- What an argument that begins with a dash gives. It is looked up as a long name first, up to its
equals sign; a single dash then leads letters. -/
def Grammar.read (grammar : Grammar) (argument : Text) : Except ArgumentProblem Reading :=
  let (name, value) := Text.cutAt '=' argument
  match grammar.long.lookup name, value with
  | some switch, some value =>
    if switch.takesValue then .ok (.options [⟨switch, value⟩]) else .error (.valueUnwanted name)
  | some switch, none =>
    .ok (if switch.takesValue then .owing ⟨switch, name⟩ else .options [⟨switch, []⟩])
  | none, _ =>
    if Text.startsWith "--" argument then .error (.unknownOption name)
    else (grammar.readLetters (argument.drop 1)).map .options

/-- Whether an argument is an option. -/
def isOption (argument : Text) : Bool :=
  Text.startsWith "-" argument && decide (1 < argument.length)

/-- Reads arguments; the first of them is the value of an option that still needs one. -/
def parseFrom (grammar : Grammar) : Option Owing → List Text → Except ArgumentProblem Arguments
  | none, [] => .ok ⟨[], []⟩
  | some owing, [] => .error (.valueMissing owing.name)
  | some owing, value :: more => do
    let found ← parseFrom grammar none more
    return { found with given := ⟨owing.switch, value⟩ :: found.given }
  | none, argument :: more =>
    if argument = "--" then .ok ⟨[], more⟩
    else if isOption argument then
      match grammar.read argument with
      | .error problem => .error problem
      | .ok (.owing owing) => parseFrom grammar (some owing) more
      | .ok (.options given) => do
        let found ← parseFrom grammar none more
        return { found with given := given ++ found.given }
    else if grammar.mixed then do
      let found ← parseFrom grammar none more
      return { found with rest := argument :: found.rest }
    else .ok ⟨[], argument :: more⟩

namespace Arguments

/-- Reads the arguments of a command. -/
def parse (grammar : Grammar) (arguments : List Text) : Except ArgumentProblem Arguments :=
  parseFrom grammar none arguments

/-- Whether an option was given. -/
def has (arguments : Arguments) (switch : Switch) : Bool :=
  arguments.given.any fun given => given.switch = switch

/-- The value that was given last for an option. -/
def value? (arguments : Arguments) (switch : Switch) : Option Text :=
  (arguments.given.reverse.find? fun given => given.switch = switch).map Given.value

end Arguments

end WorkflowInstall.CommandLine

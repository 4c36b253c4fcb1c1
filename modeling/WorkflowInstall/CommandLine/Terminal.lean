import WorkflowInstall.Run

/-!
# Output of the command line

What the program writes, without the codes that steer a terminal. A code begins with an escape
character and an opening bracket; parameters, intermediate characters and one final character
follow.

## Main Definitions

* `Terminal.plain` — a text without the codes
* `Terminal.say`, `Terminal.complain` — write to one of the streams
-/

namespace WorkflowInstall.CommandLine.Terminal

variable {σ : Type}

/-- Whether a character is a parameter of a code. -/
def isParameter (c : Char) : Bool := '0' ≤ c && c ≤ '?'

/-- Whether a character may stand between the parameters of a code and its last character. -/
def isIntermediate (c : Char) : Bool := ' ' ≤ c && c ≤ '/'

/-- Whether a character can be the last one of a code. -/
def isFinal (c : Char) : Bool := '@' ≤ c && c ≤ '~'

/-- The text after the code whose start has been read, none when it is no code. -/
def afterCode? (text : Text) : Option Text :=
  match (text.dropWhile isParameter).dropWhile isIntermediate with
  | final :: rest => if isFinal final then some rest else none
  | [] => none

/-- A text without the codes that steer a terminal. The first argument bounds the work. -/
def plainFrom : Nat → Text → Text
  | 0, text => text
  | _ + 1, [] => []
  | bound + 1, c :: rest =>
    let code := if c = '\x1b' ∧ Text.startsWith "[" rest then afterCode? (rest.drop 1) else none
    match code with
    | some after => plainFrom bound after
    | none => c :: plainFrom bound rest

/-- A text without the codes that steer a terminal. -/
def plain (text : Text) : Text := plainFrom text.length text

/-- Writes what was asked for. It has to have bytes. -/
def say (text : Text) : Run σ Unit :=
  let text := plain text
  match Utf8.unencodable? text with
  | some part => Run.fail (.unencodable part)
  | none => Run.record (.printed .output text)

/-- Writes something about it. -/
def complain (text : Text) : Run σ Unit := Run.record (.printed .errors (plain text))

end WorkflowInstall.CommandLine.Terminal

import WorkflowInstall.Disk

/-!
# Events

What a run does to the world around it, in the order in which it happens.

## Main Definitions

* `Query` — a question to a source
* `HttpRequest` — a request to the hosting service
* `Event` — one thing done
* `Event.isTraffic` — whether a source can bring it about
* `Event.writing?` — what it writes to a stream
-/

namespace WorkflowInstall

/-- A question to a source of remote files. -/
inductive Query
  /-- The content of a file. -/
  | file (owner repo path ref : Text)
  /-- The commit that a revision names. -/
  | commit (owner repo ref : Text)
  /-- The default branch of a repository. -/
  | branch (slug : Text)
  deriving DecidableEq, Repr

/-- A request to the hosting service. -/
structure HttpRequest where
  /-- The address without parameters. -/
  url : Text
  /-- The parameters, if there are any. -/
  params : Option (List (Text × Text))
  /-- The headers. -/
  headers : List (Text × Text)
  /-- How many seconds to wait for an answer. -/
  timeout : Float
  deriving Repr

/-- The part of the program that a log line comes from. -/
inductive Component
  | workflow
  | includes
  | imports
  | install
  | tracker
  | github
  deriving DecidableEq, Repr

/-- The name of a component. -/
def Component.name : Component → Text
  | .workflow => "workflow"
  | .includes => "includes"
  | .imports => "imports"
  | .install => "install"
  | .tracker => "tracker"
  | .github => "github"

/-- Where the program writes to. -/
inductive Stream
  /-- What was asked for. -/
  | output
  /-- What is said about it. -/
  | errors
  deriving DecidableEq, Repr

/-- One thing done. -/
inductive Event
  /-- A source was asked. -/
  | asked (query : Query)
  /-- A request was sent. -/
  | requested (request : HttpRequest)
  /-- Time was let pass. -/
  | waited (seconds : Float)
  /-- Git was run in a directory. -/
  | ranGit (directory : Text) (arguments : List Text)
  /-- A line was logged. -/
  | logged (component : Component) (message : Text)
  /-- The program wrote to a stream. -/
  | printed (stream : Stream) (text : Text)
  /-- A file was written over the content it had. -/
  | wrote (location : Location) (before : Option Bytes) (content : Bytes)
  /-- A file was removed. -/
  | removed (location : Location)
  deriving Repr

/-- Whether an event is one that a source can bring about: it touches no file and asks no other
source. -/
def Event.isTraffic : Event → Bool
  | .requested _ => true
  | .waited _ => true
  | .logged _ _ => true
  | _ => false

/-- The line that is logged. -/
def Component.line (component : Component) (message : Text) : Text :=
  "[" ++ component.name ++ "] " ++ message ++ "\n"

/-- What an event writes to a stream. -/
def Event.writing? : Event → Option (Stream × Text)
  | .logged component message => some (.errors, component.line message)
  | .printed stream text => some (stream, text)
  | _ => none

/-- All that events write to a stream. -/
def Event.written (stream : Stream) (events : List Event) : Text :=
  events.flatMap fun event =>
    match event.writing? with
    | some (s, text) => if s = stream then text else []
    | none => []

end WorkflowInstall

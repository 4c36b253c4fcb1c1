import WorkflowInstall.Decimal.Shortest
import WorkflowInstall.Github.Backoff
import WorkflowInstall.Github.Token
import WorkflowInstall.Json
import WorkflowInstall.Settings
import WorkflowInstall.Text.Percent

/-!
# The client of the hosting service

Files, commits and branches, looked up by requests. A request whose answer is transient is sent
again after a wait, until the attempts are used up.

## Main Definitions

* `Surroundings` — what a client finds around it
* `Surroundings.usualRefusal` — the waits that are refused by a clock that counts nanoseconds
* `Client` — the client
* `Client.exchange` — a request with its attempts
* `Client.source` — the client as a source of remote files

## Design Notes

The surroundings hold the answers that are to come, so that a run is a function of them. When none
is left, requests fail.

Which waits are refused depends on the system, and just below the greatest one on how long it has
been running, so this is a part of the surroundings, too.
-/

namespace WorkflowInstall.Github

/-- What a client finds around it. -/
structure Surroundings where
  /-- The environment variables. -/
  environment : Environment
  /-- The home directories by account. -/
  accounts : List (Text × Text)
  /-- The answers to come. -/
  answers : List Answer
  /-- The time in seconds. -/
  now : Float
  /-- The random part of a wait. -/
  jitter : Float
  /-- Why a wait of some seconds is refused, if it is. -/
  refusal : Float → Option WaitProblem

/-- The waits that are refused by a clock that counts nanoseconds in 63 bits. -/
def Surroundings.usualRefusal (seconds : Float) : Option WaitProblem :=
  if seconds * 1000000000.0 < 9223372036854775808.0 then none else some .overlong

/-- The answer when none is left. -/
def Surroundings.silence : Answer := .failed "ConnectionError" "no more responses"

/-- The directories that `~` stands for. -/
def Surroundings.homes (around : Surroundings) : Homes := around.environment.homes around.accounts

/-- The next answer, and the surroundings after it. -/
def Surroundings.next (around : Surroundings) : Answer × Surroundings :=
  match around.answers with
  | [] => (silence, around)
  | answer :: answers => (answer, { around with answers := answers })

/-- A client of the hosting service. -/
structure Client where
  /-- The address of the service. -/
  apiUrl : Text
  /-- The seconds to wait for an answer. -/
  timeout : Float
  /-- How often a request is sent. -/
  attempts : Nat
  /-- The token; when it is empty, one is looked for. -/
  token : Text
  deriving Repr

namespace Client

/-- The client for settings. It sends a request at least once. -/
def ofSettings (settings : Settings) (token : Text) : Client :=
  let url := if settings.apiUrl.isEmpty then Settings.usualApiUrl else settings.apiUrl
  ⟨Settings.dropSlashes url, settings.timeout, max 1 settings.attempts.toNat, token⟩

/-- The client when nothing is set. -/
def usual : Client := ofSettings .usual []

/-- The form in which content is asked for. -/
def rawForm : Text := "application/vnd.github.raw"

/-- The form in which the name of a commit is asked for. -/
def commitForm : Text := "application/vnd.github.sha"

/-- The form in which a description is asked for. -/
def jsonForm : Text := "application/vnd.github+json"

/-- The headers of every request for a form. -/
def plainHeaders (form : Text) : List (Text × Text) :=
  [("Accept", form), ("User-Agent", "remoteflow (+https://github.com/remoteflow/remoteflow)"),
    ("X-GitHub-Api-Version", "2022-11-28")]

/-- The headers of a request for a form, with a token if there is one. -/
def headers (form : Text) : Option Text → List (Text × Text)
  | none => plainHeaders form
  | some token =>
    let authorization : Text × Text := ("Authorization", "Bearer " ++ token)
    plainHeaders form ++ [authorization]

/-- The token of a client, or else the one that is found. -/
def findToken (client : Client) (disk : Disk) (environment : Environment) :
    Reply Environment (Option Text) :=
  if client.token.isEmpty then Token.find disk environment
  else .silent (.ok (some client.token)) environment

/-- What an answer to an attempt leads to. -/
inductive Verdict
  /-- The exchange is over. -/
  | over (outcome : Except Fault Response)
  /-- The request is sent again after a wait, for which `cause` is the reason. -/
  | again (cause : Text) (wait : Except Fault Float)

/-- Why a request is sent again. -/
def causeText : Answer → Text
  | .failed kind _ => "request failed (" ++ kind ++ ")"
  | .received response => "API returned " ++ Text.ofNat response.status

/-- How long to wait after an answer. -/
def waitAfter (around : Surroundings) (attempt : Nat) : Answer → Except Fault Float
  | .failed _ _ => Backoff.delay attempt around.jitter
  | .received response => Backoff.delayAfter response attempt around.now around.jitter

/-- How long a client waits after an answer. The wait is logged together with the number of
attempts, which must not be too long to be written. -/
def wait (client : Client) (around : Surroundings) (attempt : Nat) (answer : Answer) :
    Except Fault Float := do
  let seconds ← waitAfter around attempt answer
  if Numeral.isTooLong client.attempts then throw .integerTooLong
  return seconds

/-- What an answer to an attempt leads to. -/
def judge (client : Client) (around : Surroundings) (path : Text) (attempt : Nat)
    (answer : Answer) : Verdict :=
  if answer.isTransient && decide (attempt < client.attempts) then
    .again (causeText answer) (client.wait around attempt answer)
  else .over (answer.outcome path (client.apiUrl ++ path))

/-- The log line before a wait. -/
def waitText (client : Client) (attempt : Nat) (cause : Text) (seconds : Float) : Text :=
  cause ++ "; retrying in " ++ Decimal.displayTenths seconds ++ "s (attempt " ++
    Text.ofNat attempt ++ "/" ++ Text.ofNat client.attempts ++ ")"

/-- A request, sent until its answer is not transient; `left` attempts are left, and `attempt` is
the number of the next one. -/
def exchange (client : Client) (path : Text) (request : HttpRequest) :
    (left attempt : Nat) → Surroundings → Reply Surroundings Response
  | 0, _, around => .silent (.error (.attemptsUsedUp path)) around
  | left + 1, attempt, around =>
    let (answer, around) := around.next
    match judge client around path attempt answer with
    | .over outcome => { outcome := outcome, state := around, events := [.requested request] }
    | .again _ (.error fault) =>
      { outcome := .error fault, state := around, events := [.requested request] }
    | .again cause (.ok seconds) =>
      let line := Event.logged .github (waitText client attempt cause seconds)
      match around.refusal seconds with
      | some problem =>
        { outcome := .error (.badWait problem), state := around
          events := [.requested request, line] }
      | none =>
        let rest := exchange client path request left (attempt + 1) around
        { rest with
          events := .requested request :: line :: .waited seconds :: rest.events
          traffic := rest.traffic }

/-- Looks up a path of the service. -/
def get (client : Client) (disk : Disk) (path form : Text) (params : Option (List (Text × Text)))
    (around : Surroundings) : Reply Surroundings Response :=
  let found := client.findToken disk around.environment
  let around := { around with environment := found.state }
  match found.outcome with
  | .error fault => { found with outcome := .error fault, state := around }
  | .ok token =>
    let request := ⟨client.apiUrl ++ path, params, headers form token, client.timeout⟩
    let reply := client.exchange path request client.attempts 1 around
    { reply with
      events := found.events ++ reply.events
      traffic := by rw [List.all_append, found.traffic, reply.traffic]; rfl }

/-- A lookup, unless a part of what it is about has no bytes. -/
def unlessUnencodable {α : Type} (around : Surroundings) (part : Option Utf8.Unencodable)
    (lookup : Reply Surroundings α) : Reply Surroundings α :=
  match part with
  | some part => .silent (.error (.unencodable part)) around
  | none => lookup

/-- What a response says, or the fault that it says nothing. -/
def said {α : Type} (path : Text) (reply : Reply Surroundings Response)
    (read : Response → Option α) : Reply Surroundings α :=
  { reply with
    outcome :=
      match reply.outcome with
      | .error fault => .error fault
      | .ok response =>
        match read response with
        | some value => .ok value
        | none => .error (.api ⟨.badResponse, some path, none⟩) }

/-- The path of a file. -/
def filePath (owner repo path : Text) : Text :=
  "/repos/" ++ owner ++ "/" ++ repo ++ "/contents/" ++ Percent.encodePath path

/-- The path of a commit. -/
def commitPath (owner repo ref : Text) : Text :=
  "/repos/" ++ owner ++ "/" ++ repo ++ "/commits/" ++ Percent.encode ref

/-- The path of a repository. -/
def repositoryPath (slug : Text) : Text := "/repos/" ++ slug

/-- The number of characters of the name of a commit. -/
def commitLength : Nat := 40

/-- The name of a commit in a response. -/
def commitIn (response : Response) : Option Text :=
  let name := Text.trim response.text
  if name.length = commitLength then some name else none

/-- The name of the default branch in a response. -/
def branchIn (response : Response) : Option Text := do
  let name ← (← (← Json.read response.text).field? "default_branch").text?
  if name.isEmpty then none else some name

/-- The client as a source of remote files. -/
def source (client : Client) : Source Surroundings where
  file disk around owner repo path ref :=
    let place := filePath owner repo path
    unlessUnencodable around (Percent.unencodable? path)
      (said place (client.get disk place rawForm (some [("ref", ref)]) around) fun response =>
        some response.body)
  commit disk around owner repo ref :=
    let place := commitPath owner repo ref
    unlessUnencodable around (Utf8.unencodable? ref)
      (said place (client.get disk place commitForm none around) commitIn)
  branch disk around slug :=
    let place := repositoryPath slug
    said place (client.get disk place jsonForm none around) branchIn

end Client

end WorkflowInstall.Github

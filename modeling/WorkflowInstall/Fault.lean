import WorkflowInstall.Disk
import WorkflowInstall.Environment
import WorkflowInstall.Frontmatter
import WorkflowInstall.Spec

/-!
# Faults

Everything that can go wrong while a workflow is fetched and installed, by its cause.

## Main Definitions

* `Fault` — the fault
* `Fault.message` — the fault in words
* `Fault.isLookupFailure`, `Fault.isStorage`, `Fault.isRefusal` — the families that are handled
  together

## Design Notes

A lookup of a remote file can fail because the answer is refused, because the connection or a file
fails, or because the request gives up; the resolvers go on after such a failure. The remaining
faults end the run wherever they arise.
-/

namespace WorkflowInstall

/-- Why a lookup in the hosting service fails. -/
inductive ApiReason
  | notFound
  | unauthorized
  | forbidden
  | badResponse
  /-- A reason that has no words of its own. -/
  | other (name : Text)
  deriving DecidableEq, Repr

/-- The name of a reason. -/
def ApiReason.name : ApiReason → Text
  | .notFound => "not_found"
  | .unauthorized => "unauthorized"
  | .forbidden => "forbidden"
  | .badResponse => "bad_response"
  | .other name => name

/-- The reason of a name. -/
def ApiReason.ofName (name : Text) : ApiReason :=
  let known : List ApiReason := [.notFound, .unauthorized, .forbidden, .badResponse]
  (known.find? fun reason => reason.name = name).getD (.other name)

/-- The reason in words. -/
def ApiReason.words : ApiReason → Text
  | .notFound => "GitHub resource not found"
  | .unauthorized => "GitHub API authorization failed"
  | .forbidden => "GitHub API forbidden (rate limited or insufficient permissions)"
  | .badResponse => "GitHub API returned an unexpected response"
  | .other _ => "GitHub API request failed"

/-- A lookup that the hosting service refuses. -/
structure ApiFault where
  /-- The reason. -/
  reason : ApiReason
  /-- What was looked up. -/
  path : Option Text
  /-- The status of the answer. -/
  status : Option Int
  deriving DecidableEq, Repr

/-- The fault in words. -/
def ApiFault.message (fault : ApiFault) : Text :=
  match fault.path with
  | some (c :: path) => fault.reason.words ++ ": " ++ c :: path
  | _ => fault.reason.words

/-- The family of a fault that a source reports in its own words. -/
inductive ReportKind
  /-- A file or a connection failed. -/
  | storage
  /-- An argument or an answer was refused. -/
  | refusal
  /-- The lookup gave up. -/
  | giveUp
  /-- Something was asked for by a name that is unknown. -/
  | unknownKey
  /-- A value had the wrong type. -/
  | wrongType
  deriving DecidableEq, Repr

/-- Why a wait is refused. -/
inductive WaitProblem
  /-- The clock cannot count so far. -/
  | overlong
  /-- The system does not accept the moment at which it would end. -/
  | notAccepted
  deriving DecidableEq, Repr

/-- The problem in words. -/
def WaitProblem.message : WaitProblem → Text
  | .overlong => "timestamp out of range for platform time_t"
  | .notAccepted => "[Errno 22] Invalid argument"

/-- What can go wrong. -/
inductive Fault
  /-- A path leads where it must not. -/
  | unsafePath (refused : UnsafePath)
  /-- A text is no spec. -/
  | badSpec (refused : BadSpec)
  /-- A local workflow cannot be read. -/
  | workflowMissing (path : Text) (cause : DiskFault)
  /-- A workflow cannot be downloaded. -/
  | workflowUnavailable (owner repo path ref : Text) (cause : Fault)
  /-- A workflow of this name is installed already. -/
  | workflowExists (path : Text)
  /-- A pinned include has too few segments. -/
  | includeMalformed (path fragment : Text)
  /-- A pinned include cannot be downloaded. -/
  | includePinned (path fragment : Text) (cause : Fault)
  /-- A relative include has no repository to lie in. -/
  | includeAdrift (path fragment : Text)
  /-- A relative include cannot be downloaded. -/
  | includeRelative (path fragment clean owner repo : Text) (cause : Fault)
  /-- An include that must be there is missing. -/
  | includeMissing (path : Text) (cause : Fault)
  /-- The hosting service refuses a lookup. -/
  | api (refused : ApiFault)
  /-- Frontmatter cannot be read. -/
  | frontmatter (fault : FrontmatterFault)
  /-- The file system refuses an operation. -/
  | disk (fault : DiskFault)
  /-- No answer came to a request. -/
  | transport (kind message : Text)
  /-- An answer has a status that means failure. -/
  | badStatus (status : Nat) (reason url : Text)
  /-- All attempts at a request are used up. -/
  | attemptsUsedUp (path : Text)
  /-- A configuration file is no YAML document. -/
  | yaml (fault : Yaml.Fault)
  /-- A file is no UTF-8 text. -/
  | undecodable (malformed : Utf8.Malformed)
  /-- A text that is sent or printed holds half of a surrogate pair. -/
  | unencodable (part : Utf8.Unencodable)
  /-- A configuration file is no mapping. -/
  | configNotMapping (path : Text)
  /-- An environment variable cannot be set. -/
  | badVariable (problem : Environment.VariableProblem)
  /-- A number is too large for a floating-point number. -/
  | numberTooLarge
  /-- An infinity is no whole number. -/
  | infiniteInteger
  /-- A whole number has more digits than are written. -/
  | integerTooLong
  /-- A wait is refused. -/
  | badWait (problem : WaitProblem)
  /-- A command ended with a status that means failure. -/
  | commandFailed (command : List Text) (status : Int)
  /-- A source reports a fault in its own words. -/
  | reported (kind : ReportKind) (message : Text)
  /-- Files include each other more deeply than is followed. -/
  | tooDeep
  deriving Repr

namespace Fault

/-- The fault in words. -/
def message : Fault → Text
  | .unsafePath refused => refused.message
  | .badSpec refused => refused.problem.message
  | .workflowMissing path cause =>
    "local workflow '" ++ path ++ "' not found: " ++ cause.message
  | .workflowUnavailable owner repo path ref cause =>
    "failed to download workflow from " ++ owner ++ "/" ++ repo ++ "/" ++ path ++ "@" ++ ref ++
      ": " ++ cause.message
  | .workflowExists path =>
    "workflow '" ++ path ++ "' already exists (use --force to overwrite)"
  | .includeMalformed _ _ => "invalid workflowspec: must be owner/repo/path[@ref]"
  | .includePinned path _ cause =>
    "failed to fetch include from " ++ path ++ ": " ++ cause.message
  | .includeAdrift path _ =>
    "cannot resolve include path: " ++ path ++ " (no base spec provided)"
  | .includeRelative _ _ clean owner repo cause =>
    "failed to fetch include " ++ clean ++ " from " ++ owner ++ "/" ++ repo ++ ": " ++
      cause.message
  | .includeMissing path cause => "failed to fetch include " ++ path ++ ": " ++ cause.message
  | .api refused => refused.message
  | .frontmatter fault => fault.message
  | .disk fault => fault.message
  | .transport _ message => message
  | .badStatus status reason url =>
    let side : Text := if status < 500 then " Client Error: " else " Server Error: "
    Text.ofNat status ++ side ++ reason ++ " for url: " ++ url
  | .attemptsUsedUp path => "GitHub request failed unexpectedly for " ++ path
  | .yaml fault => fault.message
  | .undecodable malformed => malformed.message
  | .unencodable part => part.message
  | .configNotMapping path => "Config file must be a mapping: " ++ path
  | .badVariable problem => problem.message
  | .numberTooLarge => "int too large to convert to float"
  | .infiniteInteger => "cannot convert float infinity to integer"
  | .integerTooLong =>
    "Exceeds the limit (4300 digits) for integer string conversion; " ++
      "use sys.set_int_max_str_digits() to increase the limit"
  | .badWait problem => problem.message
  | .commandFailed command status =>
    "Command '" ++ Text.quotedList command ++ "' returned non-zero exit status " ++
      Text.ofInt status ++ "."
  | .reported _ message => message
  | .tooDeep => "files are nested too deeply"

/-- Whether a scalar of a YAML document is refused for its value. -/
def isRefusedScalar : Yaml.Fault → Bool
  | .notInteger _ _ => true
  | .integerTooLong _ => true
  | .notFloat _ => true
  | .calendar _ => true
  | .badCodePoint code => code < 0x80000000
  | _ => false

/-- Whether a fault says that an argument, an answer or a text is refused. -/
def isRefusal : Fault → Bool
  | .unsafePath _ => true
  | .badSpec _ => true
  | .workflowMissing _ _ => true
  | .workflowUnavailable _ _ _ _ _ => true
  | .workflowExists _ => true
  | .includeMalformed _ _ => true
  | .includePinned _ _ _ => true
  | .includeAdrift _ _ => true
  | .includeRelative _ _ _ _ _ _ => true
  | .includeMissing _ _ => true
  | .api _ => true
  | .frontmatter (.badScalar fault) => isRefusedScalar fault
  | .frontmatter _ => true
  | .disk .nulInPath => true
  | .disk (.unencodable _) => true
  | .undecodable _ => true
  | .unencodable _ => true
  | .configNotMapping _ => true
  | .badVariable _ => true
  | .integerTooLong => true
  | .yaml fault => isRefusedScalar fault
  | .reported .refusal _ => true
  | _ => false

/-- Whether a fault says that a file or a connection failed. -/
def isStorage : Fault → Bool
  | .disk (.refused _ _) => true
  | .transport _ _ => true
  | .badStatus _ _ _ => true
  | .badWait .notAccepted => true
  | .reported .storage _ => true
  | _ => false

/-- Whether a fault says that a request gave up. -/
def isGiveUp : Fault → Bool
  | .attemptsUsedUp _ => true
  | .reported .giveUp _ => true
  | _ => false

/-- Whether a fault of a lookup means only that this lookup failed. -/
def isLookupFailure (fault : Fault) : Bool := fault.isRefusal || fault.isStorage || fault.isGiveUp

/-- Whether a fault says that an include could not be fetched. -/
def isIncludeFault : Fault → Bool
  | .includeMalformed _ _ => true
  | .includePinned _ _ _ => true
  | .includeAdrift _ _ => true
  | .includeRelative _ _ _ _ _ _ => true
  | _ => false

end Fault

end WorkflowInstall

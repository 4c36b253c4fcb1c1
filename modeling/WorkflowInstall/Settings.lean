import WorkflowInstall.Fault
import WorkflowInstall.Limits
import WorkflowInstall.Yaml.Display

/-!
# Settings

What the program is set up with: by a configuration file, which is a YAML mapping, and by the
environment, which wins over the file.

## Main Definitions

* `Settings` — the settings
* `Settings.configPath` — where the configuration file lies
* `Settings.readConfig` — its mapping
* `Settings.positiveInt`, `Settings.positiveFloat` — a value of the mapping as a positive number
* `Settings.load` — the settings that hold

## Design Notes

A value that is no positive number counts as no setting, and a file that is not there is a mapping
of nothing. A whole number can be too large for a floating-point number or too long to be written,
and an infinity has no whole part; these are faults.
-/

namespace WorkflowInstall

/-- What the program is set up with. -/
structure Settings where
  /-- The address of the hosting service. -/
  apiUrl : Text
  /-- The seconds to wait for an answer. -/
  timeout : Float
  /-- How often a request is sent. -/
  attempts : Int
  /-- The directory that workflows are written into. -/
  target : Text
  deriving Repr

namespace Settings

/-- The address of the hosting service unless another one is set. -/
def usualApiUrl : Text := "https://api.github.com"

/-- The directory that workflows are written into unless another one is set. -/
def usualTarget : Text := ".github/workflows"

/-- The settings when nothing is set. -/
def usual : Settings :=
  ⟨usualApiUrl, Limits.usualTimeout, Limits.usualAttempts, usualTarget⟩

/-- An address without the slashes at its end. -/
def dropSlashes (url : Text) : Text := Text.dropEndWhile (· == '/') url

/-! ## The configuration file -/

/-- Where the configuration file lies, unless its path is given. -/
def configPath (environment : Environment) (homes : Homes) : Option Text → Text
  | some (c :: path) => c :: path
  | _ =>
    let directory := (environment.get? "XDG_CONFIG_HOME").getD (homes.expand "~/.config")
    Path.join (Path.join directory "remoteflow") "config.yaml"

/-- The mapping of a configuration file. Each value of it is seen from itself. -/
def readConfig (disk : Disk) (path : Text) : Except Fault (List (Yaml.Value × Yaml.Value)) :=
  match disk.read path with
  | .error (.refused .notFound _) => .ok []
  | .error fault => .error (.disk fault)
  | .ok content =>
    match Yaml.Document.ofSupply (.ofFile content) with
    | .error (.undecodable malformed) => .error (.undecodable malformed)
    | .error fault => .error (.yaml fault)
    | .ok document =>
      if document.isNull then .ok []
      else
        match document.pairs? with
        | some pairs => .ok pairs
        | none => .error (.configNotMapping path)

/-! ## Positive numbers -/

/-- ASCII bytes as a text; none when a byte is not ASCII. -/
def asciiText? (content : Bytes) : Option Text :=
  if content.all fun byte => byte.toNat < 0x80 then
    some (content.map fun byte => Char.ofNat byte.toNat)
  else none

/-- The whole number that a text stands for. -/
def intOfText? (text : Text) : Option Int := (Numeral.readInt 10 text).toOption

/-- The whole number that a value stands for, none when it stands for no number. -/
def intOf? : Yaml.Value → Except Fault (Option Int)
  | .bool b => .ok (some (if b then 1 else 0))
  | .int n => .ok (some n)
  | .float x => if x.isInf then .error .infiniteInteger else .ok (Decimal.wholePart? x)
  | .text text => .ok (intOfText? text)
  | .bytes content => .ok ((asciiText? content).bind intOfText?)
  | _ => .ok none

/-- A whole number as a floating-point number. -/
def floatOfInt (n : Int) : Except Fault (Option Float) :=
  match Decimal.ofInt? n with
  | some x => .ok (some x)
  | none => .error .numberTooLarge

/-- The floating-point number that a value stands for, none when it stands for no number. -/
def floatOf? : Yaml.Value → Except Fault (Option Float)
  | .bool b => .ok (some (if b then 1.0 else 0.0))
  | .int n => floatOfInt n
  | .float x => .ok (some x)
  | .text text => .ok (Numeral.readFloat? text)
  | .bytes content => .ok ((asciiText? content).bind Numeral.readFloat?)
  | _ => .ok none

/-- A value as a positive whole number, or else `usual`. -/
def positiveInt (value : Yaml.Value) (usual : Int) : Except Fault Int :=
  (intOf? value).map fun
    | some n => if 0 < n then n else usual
    | none => usual

/-- A value as a positive floating-point number, or else `usual`. -/
def positiveFloat (value : Yaml.Value) (usual : Float) : Except Fault Float :=
  (floatOf? value).map fun
    | some x => if 0.0 < x then x else usual
    | none => usual

/-! ## The settings that hold -/

/-- The value of a key of the file; no value when there is no such key. -/
def configured (key : Text) (config : List (Yaml.Value × Yaml.Value)) : Yaml.Value :=
  (Frontmatter.value? key config).getD .null

/-- The text that is configured for a key, or else `usual`. -/
def configuredText (key usual : Text) (config : List (Yaml.Value × Yaml.Value)) :
    Except Fault Text :=
  let value := configured key config
  if value.isEmpty then .ok usual
  else if value.isTooLong then .error .integerTooLong
  else .ok value.display

/-- The settings that a mapping and the environment give. -/
def ofConfig (environment : Environment) (config : List (Yaml.Value × Yaml.Value)) :
    Except Fault Settings := do
  let fromVariable := environment.trimmed "GITHUB_API_URL"
  let apiUrl ←
    if fromVariable.isEmpty then configuredText "api_url" usualApiUrl config else pure fromVariable
  let timeout := Limits.timeout environment
  let timeout ←
    if (environment.value Limits.timeoutVariable).isEmpty then
      positiveFloat (configured "timeout" config) timeout
    else pure timeout
  let attempts := Limits.attempts environment
  let attempts ←
    if (environment.value Limits.attemptsVariable).isEmpty then
      positiveInt (configured "max_attempts" config) attempts
    else pure attempts
  let target ← configuredText "target_dir" usualTarget config
  return ⟨dropSlashes apiUrl, timeout, attempts, target⟩

/-- The settings that hold, where `path` is the path of the configuration file if it is given. -/
def load (disk : Disk) (environment : Environment) (homes : Homes) (path : Option Text) :
    Except Fault Settings := do
  ofConfig environment (← readConfig disk (configPath environment homes path))

end Settings

end WorkflowInstall

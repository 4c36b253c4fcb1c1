import WorkflowInstall.Dotenv

/-!
# The token of the hosting service

The token is the value of an environment variable, which a file may set.

## Main Definitions

* `Github.Token.find` — the token
-/

namespace WorkflowInstall.Github.Token

/-- The variables that hold a token, the first one first. -/
def variableNames : List Text := ["GH_TOKEN", "GITHUB_TOKEN"]

/-- The first variable that is not blank, without the blanks around it. -/
def ofEnvironment (environment : Environment) : Option Text :=
  (variableNames.map environment.trimmed).find? (· ≠ [])

/-- Sets the variables of the nearest file and gives the token. -/
def find (disk : Disk) (environment : Environment) : Reply Environment (Option Text) :=
  let loaded := Dotenv.load disk environment
  { loaded with outcome := loaded.outcome.map fun () => ofEnvironment loaded.state }

end WorkflowInstall.Github.Token

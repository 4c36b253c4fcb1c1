import WorkflowInstall.Github.Client
import WorkflowInstall.Install

/-!
# Fetching and installing by name

The short way: a workflow is given by the text of its spec and looked up at the hosting service.

## Main Definitions

* `Remote.parseSpec` — the workflow that a text names becomes the one at hand
* `Remote.fetch` — its content
* `Remote.add` — installs it
-/

namespace WorkflowInstall.Remote

open Github

/-- Makes the workflow that a text names the one at hand. -/
def parseSpec (text : Text) : Run Surroundings Unit := do
  match WorkflowSpec.parse (← Run.look).remote.homes text with
  | .ok spec => Run.alterSpec fun _ => spec
  | .error refused => Run.fail (.badSpec refused)

/-- The content of the workflow that a text names. -/
def fetch (text : Text) : Run Surroundings Bytes := do
  parseSpec text
  return (← Workflow.fetch Client.usual.source).content

/-- Installs the workflow that a text names and gives the path of its file. -/
def add (text : Text) (options : InstallOptions) : Run Surroundings Text := do
  parseSpec text
  return (← Install.add Client.usual.source options).file

end WorkflowInstall.Remote

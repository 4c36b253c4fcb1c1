import WorkflowInstall.Path.Repository
import WorkflowInstall.Text.Blank
import WorkflowInstall.Text.Lines

/-!
# Include directives

A line that asks for another file: `@include`, a `?` when the file may be missing, blanks, and the
path of the file.

## Main Definitions

* `Directive` — what such a line asks for
* `Directive.ofLine?` — reads a line
* `Directive.ofText` — the directives of a text, in order
-/

namespace WorkflowInstall

/-- What an include line asks for. -/
structure Directive where
  /-- The path as written, with the section. -/
  path : Text
  /-- Whether the file may be missing. -/
  optional : Bool
  /-- The section from its `#` on, empty when there is none. -/
  fragment : Text
  deriving DecidableEq, Repr

namespace Directive

/-- The word that begins a directive. -/
def keyword : Text := "@include"

/-- The directive for what stands after the keyword and the mark. -/
def ofArgument? (optional : Bool) : Text → Option Directive
  | blank :: c :: rest =>
    if Text.isBlank blank then
      let path := Text.trim (c :: rest)
      some ⟨path, optional, (RepoPath.splitSection path).2⟩
    else none
  | _ => none

/-- The directive that a line holds. -/
def ofLine? (line : Text) : Option Directive :=
  if Text.startsWith keyword line then
    match line.drop keyword.length with
    | '?' :: rest => ofArgument? true rest
    | rest => ofArgument? false rest
  else none

/-- The directives of a text, in order. -/
def ofText (text : Text) : List Directive :=
  (Text.lines text).filterMap fun line => ofLine? line.body

end Directive

end WorkflowInstall

import WorkflowInstall.Text.Blank
import WorkflowInstall.Text.Lines
import WorkflowInstall.Yaml.Value

/-!
# Frontmatter

The YAML mapping between two lines of three dashes at the top of a workflow file.

## Main Definitions

* `Frontmatter` — the mapping and the text after it
* `Frontmatter.ofText` — splits a text
* `Frontmatter.imports` — the paths that a mapping lists under `imports`
-/

namespace WorkflowInstall

/-- Why frontmatter cannot be read. -/
inductive FrontmatterFault
  /-- There is no closing line. -/
  | unclosed
  /-- The block is no YAML document. -/
  | malformed
  /-- The block is a document, but no mapping. -/
  | notMapping
  /-- A scalar of the block has no value. -/
  | badScalar (fault : Yaml.Fault)
  deriving DecidableEq, Repr

/-- The fault in words. -/
def FrontmatterFault.message : FrontmatterFault → Text
  | .unclosed => "frontmatter not properly closed"
  | .malformed => "invalid frontmatter YAML"
  | .notMapping => "frontmatter must be a mapping"
  | .badScalar fault => fault.message

/-- A text, split at its frontmatter. -/
structure Frontmatter where
  /-- The pairs of the mapping; none when the text has no frontmatter. -/
  pairs : Option (List (Yaml.Value × Yaml.Value))
  /-- The text after the frontmatter. -/
  markdown : Text

namespace Frontmatter

/-- Whether a line opens or closes frontmatter. -/
def isFence (line : Line) : Bool := Text.trim line.whole = "---"

/-- The text of lines in a row. -/
def textOf (lines : List Line) : Text := lines.flatMap Line.whole

/-- The lines before the first fence, and those after it when there is one. -/
def cutAtFence : List Line → List Line × Option (List Line)
  | [] => ([], none)
  | line :: rest =>
    if isFence line then ([], some rest)
    else
      let (before, after) := cutAtFence rest
      (line :: before, after)

/-- The pairs of the mapping that a block holds. A blank or empty document is a mapping of
nothing. -/
def pairsOf (block : Text) : Except FrontmatterFault (List (Yaml.Value × Yaml.Value)) :=
  if (Text.trim block).isEmpty then .ok []
  else
    match Yaml.load block with
    | .ok (.map pairs) => .ok pairs
    | .ok .null => .ok []
    | .ok _ => .error .notMapping
    | .error .malformed => .error .malformed
    | .error fault => .error (.badScalar fault)

/-- Splits a text at its frontmatter. -/
def ofText (text : Text) : Except FrontmatterFault Frontmatter :=
  match Text.lines text with
  | [] => .ok ⟨none, text⟩
  | first :: rest =>
    if isFence first then
      match cutAtFence rest with
      | (_, none) => .error .unclosed
      | (block, some after) =>
        (pairsOf (textOf block)).map fun pairs => ⟨some pairs, textOf after⟩
    else .ok ⟨none, text⟩

/-- The value of a key. -/
def value? (key : Text) (pairs : List (Yaml.Value × Yaml.Value)) : Option Yaml.Value :=
  (pairs.find? fun pair => pair.1.sameKey (.text key)).map Prod.snd

/-- The text that a value is. -/
def text? : Yaml.Value → Option Text
  | .text text => some text
  | _ => none

/-- The texts in the list under `imports`. Anything else there counts for nothing. -/
def imports (frontmatter : Frontmatter) : List Text :=
  match frontmatter.pairs.bind (value? "imports") with
  | some (.list items) => items.filterMap text?
  | _ => []

end Frontmatter

end WorkflowInstall

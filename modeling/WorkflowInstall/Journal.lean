import WorkflowInstall.Text.Basic

/-!
# The journal of writes

Which files a run has created and which it has changed, with the content they had before, so that
they can be staged or put back.

## Main Definitions

* `Journal` — the record
* `Journal.noteCreated`, `Journal.noteModified` — record a write
* `Journal.paths` — everything recorded

## Design Notes

Files are recorded by their absolute normal path. A file that the run has created stays a created
file when it is written again, and a changed file keeps the first content that was recorded for it.
-/

namespace WorkflowInstall

/-- What a run has written. -/
structure Journal where
  /-- The directory whose repository the files are staged in. -/
  root : Text
  /-- The files that were not there before, in order. -/
  created : List Text
  /-- The files that were there before, in order. -/
  modified : List Text
  /-- The content that changed files had before. -/
  earlier : List (Text × Bytes)
  deriving DecidableEq, Repr

namespace Journal

/-- A journal of nothing. -/
def empty (root : Text) : Journal := ⟨root, [], [], []⟩

/-- Records a file that was not there before. -/
def noteCreated (journal : Journal) (path : Text) : Journal :=
  if path ∈ journal.created ∨ path ∈ journal.modified then journal
  else { journal with created := journal.created ++ [path] }

/-- Keeps the content that a file had before, unless one is kept already. -/
def keepEarlier (journal : Journal) (path : Text) : Option Bytes → Journal
  | none => journal
  | some content =>
    if (journal.earlier.lookup path).isSome then journal
    else { journal with earlier := journal.earlier ++ [(path, content)] }

/-- Records a file that was there before, with the content it had. -/
def noteModified (journal : Journal) (path : Text) (earlier : Option Bytes) : Journal :=
  if path ∈ journal.created then journal
  else
    let journal := journal.keepEarlier path earlier
    if path ∈ journal.modified then journal
    else { journal with modified := journal.modified ++ [path] }

/-- Everything recorded: the created files, then the changed ones. -/
def paths (journal : Journal) : List Text := journal.created ++ journal.modified

end Journal

end WorkflowInstall

/-!
# Verbosity

Whether lines are logged, as a setting whose changes can be taken back.

## Main Definitions

* `Verbosity` — the setting and its changes
* `Verbosity.set` — changes it
* `Verbosity.takeBack?` — takes a change back

## Design Notes

A change that is taken back restores the setting that it found, even when there were other changes
since. It can be taken back once.
-/

namespace WorkflowInstall

/-- A change of the setting. -/
structure Verbosity.Change where
  /-- The setting that the change found. -/
  before : Bool
  /-- Whether the change has been taken back. -/
  isUndone : Bool
  deriving DecidableEq, Repr

/-- The setting and its changes. -/
structure Verbosity where
  /-- Whether lines are logged. -/
  on : Bool
  /-- The changes in order. -/
  changes : List Verbosity.Change
  deriving DecidableEq, Repr

namespace Verbosity

/-- Nothing is logged, and nothing has been changed. -/
def silent : Verbosity := ⟨false, []⟩

/-- Changes the setting. -/
def set (verbosity : Verbosity) (on : Bool) : Verbosity :=
  ⟨on, verbosity.changes ++ [⟨verbosity.on, false⟩]⟩

/-- Takes the change with a number back; none when it has been taken back or never was made. -/
def takeBack? (verbosity : Verbosity) (number : Nat) : Option Verbosity :=
  match verbosity.changes[number]? with
  | none => none
  | some change =>
    if change.isUndone then none
    else some ⟨change.before, verbosity.changes.set number { change with isUndone := true }⟩

/-- A change that is taken back at once leaves the setting as it was. -/
theorem takeBack?_set (verbosity : Verbosity) (on : Bool) :
    ((verbosity.set on).takeBack? verbosity.changes.length).map Verbosity.on =
      some verbosity.on := by
  simp [takeBack?, set]

end Verbosity

end WorkflowInstall

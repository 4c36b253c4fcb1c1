import WorkflowInstall.Proofs.Include.Closure
import WorkflowInstall.Proofs.Path.Section
import WorkflowInstall.Proofs.Run.Account

/-!
# Where includes are put

The events of a run that installs includes tell for every path that was visited what was asked for
it, and where it was put.

## Main Definitions

* `Include.Account` — what the events of such a run tell

## Main Statements

* `Include.install_account` — they tell it, however the run ends
-/

namespace WorkflowInstall.Include

open Run Path

variable {σ : Type}

/-- What the events of a run tell that installs the includes of a text: every include was asked for
as the workflow says, once its path had passed the check, and stands at the file where the include
at its path is kept. -/
def Account (source : Source σ) (target : LocalPath) (spec : WorkflowSpec) (here text : Text)
    (tour : List Visit) (events : List Event) : Prop :=
  WorkflowInstall.Account source named (AsksChecked spec target) (KeptAt target) here (paths text)
    tour events

/-- Installing includes is accounted for by its events, however it ends. -/
theorem install_account (source : Source σ) (target : LocalPath) (force : Bool) (depth : Nat)
    (text : Text) {world : World σ} (proper : ∀ name ∈ world.disk.cwd, IsProper name) :
    let after := (install source target force depth text world).2
    ∃ tour events, Account source target world.spec world.disk.here text tour events ∧
      after.trace = events ++ world.trace ∧ after.spec = world.spec ∧
      after.disk.cwd = world.disk.cwd ∧ after.visited = Visit.paths tour ++ world.visited := by
  obtain ⟨tour, explored⟩ := install_explores source target force depth text world
  obtain ⟨events, trace, told⟩ := explored.tours.told_append
  exact ⟨tour, events, explored.account proper trace told rfl, trace, explored.tours.spec,
    explored.tours.cwd, explored.tours.visited⟩

/-- A path that a text names has no section. -/
theorem notMem_of_mem_paths {text path : Text} (mem : path ∈ paths text) : '#' ∉ path := by
  obtain ⟨directive, -, names⟩ := List.mem_filterMap.mp mem
  unfold target? at names
  dsimp only at names
  split at names
  case isTrue => exact absurd names (Option.some_ne_none path).symm
  case isFalse =>
    cases names
    exact RepoPath.notMem_splitSection directive.path

namespace Account

variable {source : Source σ} {target : LocalPath} {spec : WorkflowSpec} {here text : Text}
  {tour : List Visit} {events : List Event}
  (account : Account source target spec here text tour events)
include account

/-- A path that was visited has no section. -/
theorem clear {path : Text} (mem : path ∈ Visit.paths tour) : '#' ∉ path := by
  rcases account.named path mem with begins | ⟨_, -, names⟩
  · exact notMem_of_mem_paths begins
  · exact notMem_of_mem_paths names

/-- What was written stands at the place of the path that it was written for. -/
theorem location_eq {visit : Visit} (mem : visit ∈ tour) {location : Location}
    (written : visit.location? = some location) :
    location = absoluteNames here (place visit.path target).file.text := by
  obtain ⟨_, rfl, stands⟩ := account.kept visit mem location written
  exact stands

/-- What was asked for was asked for a path that has passed the check. -/
theorem passes {visit : Visit} (mem : visit ∈ tour) {download : Download}
    (asked : visit.download? = some download) :
    check here visit.path (place visit.path target) = .ok () := by
  obtain ⟨⟨-, passes⟩, same⟩ := account.asked visit mem download asked
  rwa [same] at passes

end Account

end WorkflowInstall.Include

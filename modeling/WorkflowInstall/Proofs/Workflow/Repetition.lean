import WorkflowInstall.Proofs.Run.Repetition
import WorkflowInstall.Workflow

/-!
# Fetching a workflow again

From a fixed source a workflow is fetched in the same way again.

## Main Statements

* `Workflow.pinRef_repeats` — the version is pinned in the same way
* `Workflow.fetchRemote_repeats` — so is the workflow fetched from its repository
-/

namespace WorkflowInstall.Workflow

open Run

variable {σ : Type} {source : Source σ} (fixed : source.IsFixed) {alike : Prop}
  {excused : Fault → Prop}
include fixed

theorem pinRef_repeats : Repeats alike excused (pinRef source) := by
  have pin (ref : Text) : Repeats alike excused (do
      Run.alterSpec fun spec => { spec with version := ref }
      pure ref : Run σ Text) :=
    repeats_bind (repeats_alterSpec _) fun _ => repeats_pure ref
  unfold pinRef
  refine repeats_bind repeats_spec fun spec => ?_
  split
  · exact repeats_pure _
  · refine repeats_bind (repeats_attempt (repeats_askBranch fixed spec.slug)) fun outcome => ?_
    cases outcome with
    | ok ref => exact pin ref
    | error fault =>
      dsimp only
      split
      · exact pin usualRef
      · exact repeats_fail fault

theorem resolveCommit_repeats (owner repo ref : Text) :
    Repeats alike excused (resolveCommit source owner repo ref) := by
  unfold resolveCommit
  refine repeats_bind (repeats_attempt (repeats_askCommit fixed owner repo ref)) fun outcome => ?_
  cases outcome with
  | ok commit => exact repeats_bind (repeats_log _ _) fun _ => repeats_pure commit
  | error fault =>
    dsimp only
    split
    · exact repeats_pure []
    · exact repeats_fail fault

theorem firstFallback_repeats (owner repo ref : Text) (otherwise : Fault) (paths : List Text) :
    Repeats alike excused (firstFallback source owner repo ref otherwise paths) := by
  induction paths with
  | nil => exact repeats_fail otherwise
  | cons path paths ih =>
    unfold firstFallback
    refine repeats_bind (repeats_attempt (repeats_askFile fixed owner repo path ref)) ?_
    intro outcome
    cases outcome with
    | ok content => exact repeats_bind (repeats_log _ _) fun _ => repeats_pure (path, content)
    | error fault =>
      dsimp only
      split
      · exact ih
      · exact repeats_fail fault

theorem download_repeats (owner repo path ref : Text) :
    Repeats alike excused (download source owner repo path ref) := by
  unfold download
  refine repeats_bind (repeats_attempt (repeats_askFile fixed owner repo path ref)) ?_
  intro outcome
  cases outcome with
  | ok content => exact repeats_bind (repeats_log _ _) fun _ => repeats_pure (path, content)
  | error fault =>
    dsimp only
    split
    · exact firstFallback_repeats fixed owner repo ref _ _
    · exact repeats_fail fault

theorem fetchRemote_repeats : Repeats alike excused (fetchRemote source) := by
  unfold fetchRemote
  refine repeats_bind repeats_spec fun spec => ?_
  cases WorkflowSpec.ownerAndRepo? spec.slug with
  | none => exact repeats_fail _
  | some names =>
    obtain ⟨owner, repo⟩ := names
    refine repeats_bind (pinRef_repeats fixed) fun ref => ?_
    refine repeats_bind (repeats_log _ _) fun _ => ?_
    refine repeats_bind (resolveCommit_repeats fixed owner repo ref) fun commit => ?_
    exact repeats_bind (download_repeats fixed owner repo spec.path ref) fun found =>
      repeats_pure _

end WorkflowInstall.Workflow

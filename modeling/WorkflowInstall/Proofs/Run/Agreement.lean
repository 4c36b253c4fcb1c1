import WorkflowInstall.Proofs.Run.Tour

/-!
# Runs that agree

Two runs that differ in a part of theirs do the same when the parts do the same wherever they are
begun.

## Main Definitions

* `World.Enters` — a file that was written for a new reference is gone on with
* `Run.Agrees` — a run does the same as another one, if that one ends in a wanted way

## Main Statements

* `Run.agrees_bind`, `Run.agrees_attempt_bind` — the parts that come later agree
* `Run.agrees_row`, `Run.agrees_attempted` — the parts that come first agree

## Design Notes

Where a run need not agree with another one that fails, only the endings that are wanted count. A
fault that is passed over would hide that two parts differ, so `agrees_attempted` asks that it be
wanted too.
-/

namespace WorkflowInstall

variable {σ : Type}

/-- Some time after a world, a content that was downloaded for a new reference is gone on with. -/
structure World.Enters (source : Source σ) (fits : Text → Download → Prop) (path : Text)
    (content : Bytes) (before after : World σ) : Prop where
  new : path ∉ before.visited
  visited : path ∈ after.visited
  keeps : before.visited ⊆ after.visited
  spec : after.spec = before.spec
  answered : ∃ download : Download, fits path download ∧ download.Answers source content

theorem World.Enters.of_later {source : Source σ} {fits : Text → Download → Prop} {path : Text}
    {content : Bytes} {before later after : World σ}
    (h : later.Enters source fits path content after)
    (keeps : before.visited ⊆ later.visited) (spec : later.spec = before.spec) :
    before.Enters source fits path content after where
  new known := h.new (keeps known)
  visited := h.visited
  keeps := fun _ known => h.keeps (keeps known)
  spec := h.spec.trans spec
  answered := h.answered

namespace Run

variable {α β : Type} {wanted : Except Fault β → Prop} {world : World σ}

/-- A run does the same as another one, if that one ends in a wanted way. -/
def Agrees (wanted : Except Fault β → Prop) (run other : Run σ β) (world : World σ) : Prop :=
  wanted (other world).1 → run world = other world

theorem agrees_refl (run : Run σ β) : Agrees wanted run run world := fun _ => rfl

/-- Two rows of runs agree when they begin in the same way and agree from there on. -/
theorem agrees_bind {first : Run σ α} {next other : α → Run σ β}
    (later : ∀ value after, first world = (.ok value, after) →
      Agrees wanted (next value) (other value) after) :
    Agrees wanted (first >>= next) (first >>= other) world := by
  intro ends
  rw [bind_apply] at ends ⊢
  rw [bind_apply]
  cases result : first world with
  | mk outcome after =>
    rw [result] at ends
    cases outcome with
    | ok value => exact later value after result ends
    | error fault => rfl

theorem agrees_attempt_bind {first : Run σ α} {next other : Except Fault α → Run σ β}
    (later : ∀ outcome after, first world = (outcome, after) →
      Agrees wanted (next outcome) (other outcome) after) :
    Agrees wanted (attempt first >>= next) (attempt first >>= other) world :=
  later (first world).1 (first world).2 rfl

/-- Two rows of runs agree when they agree at first and from there on. -/
theorem agrees_row {wanted : Except Fault Unit → Prop} {first first' next other : Run σ Unit}
    (any : wanted (.ok ())) (h : Agrees wanted first first' world)
    (later : ∀ after, first' world = (.ok (), after) → Agrees wanted next other after) :
    Agrees wanted (first >>= fun _ => next) (first' >>= fun _ => other) world := by
  intro ends
  rw [bind_apply] at ends ⊢
  rw [bind_apply]
  unfold Agrees at h
  cases result : first' world with
  | mk outcome after =>
    rw [result] at ends h
    cases outcome with
    | ok value =>
      rw [h any]
      exact later after result ends
    | error fault => rw [h ends]

/-- Runs whose faults are looked at agree when they agree before that. -/
theorem agrees_attempted {first first' : Run σ β} {next : Except Fault β → Run σ β}
    (h : Agrees wanted first first' world)
    (ends : ∀ outcome after, first' world = (outcome, after) →
      wanted (next outcome after).1 → wanted outcome) :
    Agrees wanted (attempt first >>= next) (attempt first' >>= next) world := by
  intro ended
  have same := h (ends _ _ rfl ended)
  rw [bind_apply, bind_apply, attempt_apply, attempt_apply, same]

end Run

end WorkflowInstall

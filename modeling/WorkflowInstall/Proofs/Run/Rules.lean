import Mathlib.Logic.Relation
import WorkflowInstall.Source

/-!
# Runs in a row

What a row of runs does follows from what each of them does.

## Main Definitions

* `Run.Within` — a run leads along a relation between worlds
* `Run.Returns` — a run ends with a value, in a world

## Main Statements

* `Run.within_bind`, `Run.within_attempt_bind` — a row of runs leads along what each of them does
* `Run.returns_bind` — a row of runs ends with a value when each of them does

## Design Notes

A run that fails has still led somewhere, so `Within` speaks about the world after a run whatever it
ends with. `within_bind` gives the rest of a row the equation for the run before it.
-/

namespace WorkflowInstall

namespace Run

variable {σ α β γ : Type}

/-- A row goes on from where its first run has ended. -/
theorem bind_of_ok {run : Run σ α} {next : α → Run σ β} {world : World σ} {value : α}
    (h : (run world).1 = .ok value) : (run >>= next) world = next value (run world).2 := by
  rw [bind_apply]
  generalize run world = result at h
  obtain ⟨outcome, after⟩ := result
  rw [show outcome = .ok value from h]

/-- A row ends with the fault of its first run. -/
theorem bind_of_error {run : Run σ α} {next : α → Run σ β} {world : World σ} {fault : Fault}
    (h : (run world).1 = .error fault) :
    (run >>= next) world = (.error fault, (run world).2) := by
  rw [bind_apply]
  generalize run world = result at h
  obtain ⟨outcome, after⟩ := result
  rw [show outcome = .error fault from h]

/-- A run leads from a world along a relation. -/
def Within (relation : World σ → World σ → Prop) (run : Run σ α) (world : World σ) : Prop :=
  Relation.ReflTransGen relation world (run world).2

section Within

variable {relation : World σ → World σ → Prop} {world : World σ}

/-- What holds of every single step and of steps in a row holds of the whole run. -/
theorem of_within {run : Run σ α} (refl : relation world world)
    (trans : ∀ {middle last}, relation world middle → relation middle last → relation world last)
    (h : Within relation run world) : relation world (run world).2 := by
  unfold Within at h
  generalize (run world).2 = after at h
  induction h with
  | refl => exact refl
  | tail _ last ih => exact trans ih last

theorem within_pure (value : α) : Within relation (pure value : Run σ α) world := .refl

theorem within_fail (fault : Fault) : Within relation (fail fault : Run σ α) world := .refl

theorem within_single {run : Run σ α} (h : relation world (run world).2) :
    Within relation run world := .single h

theorem within_bind {first : Run σ α} {next : α → Run σ β} (h : Within relation first world)
    (later : ∀ value after, first world = (.ok value, after) → Within relation (next value) after) :
    Within relation (first >>= next) world := by
  rw [Within] at h ⊢
  rw [bind_apply]
  cases result : first world with
  | mk outcome after =>
    rw [result] at h
    cases outcome with
    | ok value => exact h.trans (later value after result)
    -- What was done before the fault stays done.
    | error fault => exact h

theorem within_attempt_bind {run : Run σ α} {next : Except Fault α → Run σ β}
    (h : Within relation run world)
    (later : ∀ outcome after, run world = (outcome, after) → Within relation (next outcome) after) :
    Within relation (attempt run >>= next) world :=
  Relation.ReflTransGen.trans h (later (run world).1 (run world).2 rfl)

theorem within_ofDisk (reading : Disk → Except DiskFault α) :
    Within relation (ofDisk reading) world := by
  rw [Within, ofDisk]
  split <;> exact .refl

theorem within_ofDisk_bind {reading : Disk → Except DiskFault α} {next : α → Run σ β}
    (later : ∀ value, reading world.disk = .ok value → Within relation (next value) world) :
    Within relation (ofDisk reading >>= next) world := by
  rw [Within, bind_apply, ofDisk]
  cases result : reading world.disk with
  | ok value => exact later value result
  | error fault => exact .refl

theorem map_ofDisk_bind_apply (reading : Disk → Except DiskFault α) (change : α → β)
    (next : β → Run σ γ) (world : World σ) :
    (change <$> ofDisk reading >>= next) world =
      match reading world.disk with
      | .ok value => next (change value) world
      | .error fault => (.error (.disk fault), world) := by
  show ((ofDisk reading >>= fun value => pure (change value)) >>= next) world = _
  rw [bind_apply, bind_apply, ofDisk]
  cases reading world.disk <;> rfl

theorem within_spec_bind {next : WorkflowSpec → Run σ β}
    (later : Within relation (next world.spec) world) :
    Within relation (spec >>= next) world := later

theorem within_cwd_bind {next : Text → Run σ β}
    (later : Within relation (next world.disk.here) world) :
    Within relation (cwd >>= next) world := later

theorem within_visited_bind {next : List Text → Run σ β}
    (later : Within relation (next world.visited) world) :
    Within relation (visited >>= next) world := later

end Within

/-! ## Runs that end with a value -/

/-- A run ends with a value, in a world. -/
def Returns (run : Run σ α) (world : World σ) (value : α) (after : World σ) : Prop :=
  run world = (.ok value, after)

section Returns

variable {world after : World σ}

theorem returns_pure {value other : α} :
    Returns (pure value : Run σ α) world other after ↔ value = other ∧ world = after := by
  rw [Returns, pure_apply, Prod.mk.injEq, Except.ok.injEq]

theorem not_returns_fail {fault : Fault} {value : α} :
    ¬ Returns (fail fault : Run σ α) world value after := by
  intro h
  exact absurd (congrArg Prod.fst h) (by simp)

theorem returns_bind {first : Run σ α} {next : α → Run σ β} {value : β} :
    Returns (first >>= next) world value after ↔
      ∃ found middle,
        Returns first world found middle ∧ Returns (next found) middle value after := by
  rw [Returns, bind_apply]
  constructor
  · intro h
    cases result : first world with
    | mk outcome middle =>
      rw [result] at h
      cases outcome with
      | ok found => exact ⟨found, middle, result, h⟩
      | error fault => exact absurd (congrArg Prod.fst h) (by simp)
  · rintro ⟨found, middle, first_returns, next_returns⟩
    unfold Returns at first_returns
    rw [first_returns]
    exact next_returns

theorem returns_spec_bind {next : WorkflowSpec → Run σ β} {value : β} :
    Returns (spec >>= next) world value after ↔ Returns (next world.spec) world value after :=
  Iff.rfl

theorem returns_cwd_bind {next : Text → Run σ β} {value : β} :
    Returns (cwd >>= next) world value after ↔ Returns (next world.disk.here) world value after :=
  Iff.rfl

theorem returns_visited_bind {next : List Text → Run σ β} {value : β} :
    Returns (visited >>= next) world value after ↔ Returns (next world.visited) world value after :=
  Iff.rfl

theorem returns_attempt_bind {run : Run σ α} {next : Except Fault α → Run σ β} {value : β} :
    Returns (attempt run >>= next) world value after ↔
      Returns (next (run world).1) (run world).2 value after := Iff.rfl

theorem returns_ofDisk {reading : Disk → Except DiskFault α} {value : α} :
    Returns (ofDisk reading) world value after ↔
      reading world.disk = .ok value ∧ after = world := by
  rw [Returns, ofDisk]
  cases reading world.disk with
  | ok found =>
    rw [Prod.mk.injEq, Except.ok.injEq, Except.ok.injEq]
    exact and_congr_right fun _ => eq_comm
  | error fault =>
    refine ⟨fun h => absurd (congrArg Prod.fst h) (by simp), fun h => absurd h.1 (by simp)⟩

end Returns

end Run

end WorkflowInstall

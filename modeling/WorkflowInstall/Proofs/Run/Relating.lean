import WorkflowInstall.Proofs.Run.Rules

/-!
# Two runs side by side

Two runs that go through the same steps are compared step by step: a relation between their worlds
is kept, and they end with the same value or with faults that are alike.

## Main Definitions

* `Run.EndsAlike` — two outcomes are the same, but that faults may differ in a given way
* `Run.Relates` — two runs end alike, in worlds that are related

## Main Statements

* `Run.relates_bind` — rows of runs
* `Run.relates_attempt_bind` — runs whose fault is looked at

## Design Notes

`Relates` speaks about two given worlds, so that what is known of them can be used. The rules for
rows give the rest of a row the equation for the run before it.
-/

namespace WorkflowInstall.Run

/-! ## Outcomes -/

section Outcomes

variable {ε α : Type} {faults : ε → ε → Prop}

/-- Two outcomes are the same value, or faults that are alike. -/
inductive EndsAlike (faults : ε → ε → Prop) : Except ε α → Except ε α → Prop
  | ok (value : α) : EndsAlike faults (.ok value) (.ok value)
  | error {fault fault' : ε} (alike : faults fault fault') :
    EndsAlike faults (.error fault) (.error fault')

/-- The two ways in which outcomes are alike. -/
theorem EndsAlike.split {outcome outcome' : Except ε α} (h : EndsAlike faults outcome outcome') :
    (∃ value, outcome = .ok value ∧ outcome' = .ok value) ∨
      ∃ fault fault', outcome = .error fault ∧ outcome' = .error fault' ∧ faults fault fault' := by
  cases h with
  | ok value => exact .inl ⟨value, rfl, rfl⟩
  | error alike => exact .inr ⟨_, _, rfl, rfl, alike⟩

theorem EndsAlike.of_eq {outcome outcome' : Except ε α} (refl : ∀ fault, faults fault fault)
    (same : outcome' = outcome) : EndsAlike faults outcome outcome' := by
  rw [same]
  cases outcome with
  | ok value => exact .ok value
  | error fault => exact .error (refl fault)

/-- Outcomes whose faults may not differ are the same. -/
theorem EndsAlike.eq {outcome outcome' : Except ε α} (h : EndsAlike Eq outcome outcome') :
    outcome' = outcome := by
  cases h with
  | ok value => rfl
  | error same => rw [same]

end Outcomes

/-! ## Runs -/

variable {σ α β : Type} {faults : Fault → Fault → Prop} {worlds : World σ → World σ → Prop}
  {world world' : World σ}

/-- Two runs end alike, in worlds that are related. -/
structure Relates (faults : Fault → Fault → Prop) (worlds : World σ → World σ → Prop)
    (run run' : Run σ α) (world world' : World σ) : Prop where
  ends : EndsAlike faults (run world).1 (run' world').1
  after : worlds (run world).2 (run' world').2

theorem relates_pure (value : α) (related : worlds world world') :
    Relates faults worlds (pure value : Run σ α) (pure value) world world' := ⟨.ok value, related⟩

theorem relates_fail {fault fault' : Fault} (alike : faults fault fault')
    (related : worlds world world') :
    Relates faults worlds (fail fault : Run σ α) (fail fault') world world' :=
  ⟨.error alike, related⟩

theorem relates_bind {run run' : Run σ α} {next next' : α → Run σ β}
    (h : Relates faults worlds run run' world world')
    (later : ∀ value middle middle', run world = (.ok value, middle) → worlds middle middle' →
      Relates faults worlds (next value) (next' value) middle middle') :
    Relates faults worlds (run >>= next) (run' >>= next') world world' := by
  obtain ⟨ends, after⟩ := h
  cases first : run world with | mk outcome middle =>
  cases second : run' world' with | mk outcome' middle' =>
  rw [first, second] at ends after
  cases ends with
  | ok value =>
    have rest := later value middle middle' first after
    constructor
    · rw [bind_apply, bind_apply, first, second]
      exact rest.ends
    · rw [bind_apply, bind_apply, first, second]
      exact rest.after
  | error alike =>
    constructor
    · rw [bind_apply, bind_apply, first, second]
      exact .error alike
    · rw [bind_apply, bind_apply, first, second]
      exact after

theorem relates_attempt_bind {run run' : Run σ α} {next next' : Except Fault α → Run σ β}
    (h : Relates faults worlds run run' world world')
    (later : ∀ outcome outcome' middle middle', run world = (outcome, middle) →
      EndsAlike faults outcome outcome' → worlds middle middle' →
      Relates faults worlds (next outcome) (next' outcome') middle middle') :
    Relates faults worlds (attempt run >>= next) (attempt run' >>= next') world world' :=
  have rest := later (run world).1 (run' world').1 (run world).2 (run' world').2 rfl h.ends h.after
  ⟨rest.ends, rest.after⟩

theorem relates_ite (condition : Prop) [Decidable condition] {run run' other other' : Run σ α}
    (h : Relates faults worlds run run' world world')
    (otherwise : Relates faults worlds other other' world world') :
    Relates faults worlds (if condition then run else other) (if condition then run' else other')
      world world' := by
  by_cases holds : condition
  · rwa [if_pos holds, if_pos holds]
  · rwa [if_neg holds, if_neg holds]

end WorkflowInstall.Run

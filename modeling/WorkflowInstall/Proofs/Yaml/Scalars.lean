import WorkflowInstall.Yaml.Value

/-!
# Texts without a value

The text of a scalar need not have a value of the type that the scalar has. How the reading of the
text fails tells the type.

## Main Definitions

* `Yaml.Fault.types` — the types whose texts fail so

## Main Statements

* `Yaml.types_of_ofScalar` — a text fails by a fault of its type, or it breaks the grammar
-/

namespace WorkflowInstall.Yaml

/-- The types whose texts fail so. -/
def Fault.types : Fault → List Tag
  | .unknownBool _ => [.bool]
  | .notInteger _ _ | .integerTooLong _ => [.int]
  | .emptyNumber => [.int, .float]
  | .notFloat _ | .numberTooLarge => [.float]
  | .calendar _ | .notTimestamp | .timestampOfCollection => [.timestamp]
  | .malformed | .badCodePoint _ | .undecodable _ => []

theorem types_of_readInteger {base : Nat} {text : Text} {fault : Fault}
    (fails : readInteger base text = .error fault) : .int ∈ fault.types := by
  unfold readInteger at fails
  split at fails <;> cases fails <;> exact List.mem_singleton_self _

theorem eq_error_of_bind {α β : Type} {first : Except Fault α} {next : α → Except Fault β}
    {fault : Fault} (fails : first >>= next = .error fault) :
    first = .error fault ∨ ∃ value, first = .ok value ∧ next value = .error fault := by
  cases first with
  | error bad => exact .inl (congrArg _ (Except.error.inj fails))
  | ok value => exact .inr ⟨value, rfl, fails⟩

theorem mapM_eq_error {α β : Type} {f : α → Except Fault β} {items : List α} {fault : Fault}
    (fails : items.mapM f = .error fault) : ∃ item ∈ items, f item = .error fault := by
  induction items with
  | nil => cases fails
  | cons item items ih =>
    rw [List.mapM_cons] at fails
    rcases eq_error_of_bind fails with first | ⟨value, -, rest⟩
    · exact ⟨item, List.mem_cons_self, first⟩
    · rcases eq_error_of_bind rest with later | ⟨values, -, last⟩
      · obtain ⟨other, mem, bad⟩ := ih later
        exact ⟨other, List.mem_cons_of_mem item mem, bad⟩
      · cases last

theorem eq_error_of_map {α β : Type} {f : α → β} {result : Except Fault α} {fault : Fault}
    (fails : result.map f = .error fault) : result = .error fault := by
  cases result with
  | ok value => cases fails
  | error bad => exact congrArg _ (Except.error.inj fails)

theorem types_of_integerOf {text : Text} {fault : Fault}
    (fails : integerOf text = .error fault) : .int ∈ fault.types := by
  unfold integerOf at fails
  split at fails
  · cases fails
    exact List.mem_cons_self
  · dsimp only at fails
    split at fails
    · cases fails
      exact List.mem_cons_self
    · cases fails
    · exact types_of_readInteger (eq_error_of_map fails)
    · exact types_of_readInteger (eq_error_of_map fails)
    · exact types_of_readInteger (eq_error_of_map fails)
    · split at fails
      · obtain ⟨place, -, bad⟩ := mapM_eq_error (eq_error_of_map (eq_error_of_map fails))
        exact types_of_readInteger bad
      · exact types_of_readInteger (eq_error_of_map fails)

theorem types_of_readFloat {text : Text} {fault : Fault} (fails : readFloat text = .error fault) :
    .float ∈ fault.types := by
  unfold readFloat at fails
  split at fails <;> cases fails
  exact List.mem_singleton_self _

theorem types_of_addPlaces {sum : Float} {weight : Nat} {places : List Float} {fault : Fault}
    (fails : addPlaces sum weight places = .error fault) : .float ∈ fault.types := by
  induction places generalizing sum weight with
  | nil => cases fails
  | cons place places ih =>
    rw [addPlaces] at fails
    split at fails
    · cases fails
      exact List.mem_singleton_self _
    · exact ih fails

theorem types_of_floatOf {text : Text} {fault : Fault} (fails : floatOf text = .error fault) :
    .float ∈ fault.types := by
  unfold floatOf at fails
  split at fails
  · cases fails
    exact List.mem_cons_of_mem _ List.mem_cons_self
  · dsimp only at fails
    split at fails
    · cases fails
    · split at fails
      · cases fails
      · split at fails
        · rcases eq_error_of_bind fails with places | ⟨values, -, rest⟩
          · obtain ⟨place, -, bad⟩ := mapM_eq_error places
            exact types_of_readFloat bad
          · rcases eq_error_of_bind rest with sum | ⟨sum, -, last⟩
            · exact types_of_addPlaces sum
            · cases last
        · exact types_of_readFloat (eq_error_of_map fails)

theorem types_of_boolOf {text : Text} {fault : Fault} (fails : boolOf text = .error fault) :
    .bool ∈ fault.types := by
  unfold boolOf at fails
  dsimp only at fails
  split at fails
  · cases fails
  · split at fails <;> cases fails
    exact List.mem_singleton_self _

theorem malformed_of_bytesOf {text : Text} {fault : Fault} (fails : bytesOf text = .error fault) :
    fault = .malformed := by
  unfold bytesOf at fails
  split at fails
  · split at fails <;> cases fails
    rfl
  · cases fails
    rfl

theorem types_of_mapError {α : Type} {result : Except CalendarProblem α} {fault : Fault}
    (fails : result.mapError Fault.calendar = .error fault) : .timestamp ∈ fault.types := by
  cases result <;> cases fails
  exact List.mem_singleton_self _

theorem types_of_timestampOf {text : Text} {fault : Fault}
    (fails : timestampOf text = .error fault) : .timestamp ∈ fault.types := by
  unfold timestampOf at fails
  split at fails
  · cases fails
    exact List.mem_singleton_self _
  · dsimp only at fails
    split at fails
    · exact types_of_mapError fails
    · exact types_of_mapError fails

/-- A text that has no value of a type fails by a fault of the type, or it breaks the grammar. -/
theorem types_of_ofScalar {tag : Tag} {text : Text} {fault : Fault}
    (fails : Value.ofScalar tag text = .error fault) : fault = .malformed ∨ tag ∈ fault.types := by
  unfold Value.ofScalar at fails
  split at fails
  · cases fails
  · exact .inr (types_of_boolOf (eq_error_of_map fails))
  · exact .inr (types_of_integerOf (eq_error_of_map fails))
  · exact .inr (types_of_floatOf (eq_error_of_map fails))
  · exact .inl (malformed_of_bytesOf (eq_error_of_map fails))
  · exact .inr (types_of_timestampOf fails)
  · cases fails
  · exact .inl (Except.error.inj fails).symm

end WorkflowInstall.Yaml

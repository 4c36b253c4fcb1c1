import WorkflowInstall.Decimal.Numeral
import WorkflowInstall.Environment

/-!
# Limits on requests

How long an answer may take, and how often a request is sent.

## Main Definitions

* `Limits.timeout` — the seconds to wait for an answer, by the environment
* `Limits.attempts` — how often a request is sent, by the environment

## Design Notes

A variable that is no positive number counts as unset. The number of attempts that a variable asks
for is cut off at `Limits.mostAttempts`; the time is not cut off.
-/

namespace WorkflowInstall.Limits

/-- The variable for the time. -/
def timeoutVariable : Text := "REMOTEFLOW_API_TIMEOUT"

/-- The variable for the number of attempts. -/
def attemptsVariable : Text := "REMOTEFLOW_API_MAX_ATTEMPTS"

/-- The seconds to wait when nothing else is asked for. -/
def usualTimeout : Float := 30.0

/-- The number of attempts when nothing else is asked for. -/
def usualAttempts : Int := 4

/-- The greatest number of attempts that a variable can ask for. -/
def mostAttempts : Int := 10

/-- The seconds to wait for an answer. -/
def timeout (environment : Environment) : Float :=
  match Numeral.readFloat? (environment.trimmed timeoutVariable) with
  | none => usualTimeout
  | some seconds => if seconds ≤ 0.0 then usualTimeout else seconds

/-- How often a request is sent. -/
def attempts (environment : Environment) : Int :=
  match Numeral.readInt 10 (environment.trimmed attemptsVariable) with
  | .error _ => usualAttempts
  | .ok count => if count ≤ 0 then usualAttempts else min count mostAttempts

/-- The number of attempts lies between one and the greatest number. -/
theorem attempts_mem_range (environment : Environment) :
    1 ≤ attempts environment ∧ attempts environment ≤ mostAttempts := by
  unfold attempts
  split
  · decide
  · split
    · decide
    · simp only [mostAttempts]
      omega

end WorkflowInstall.Limits

import WorkflowInstall.Decimal.Numeral
import WorkflowInstall.Github.Answer

/-!
# Waiting between requests

How long to wait before a request is sent again.

## Main Definitions

* `Backoff.base` — the usual wait after an attempt
* `Backoff.delay` — the usual wait with a random part
* `Backoff.delayAfter` — the wait that a response asks for, or else the usual one

## Design Notes

The usual wait doubles with each attempt up to half a minute. It is worked out as a floating-point
number, so after 1024 doublings it has no value any more.
-/

namespace WorkflowInstall.Github.Backoff

/-- The greatest usual wait, in seconds. -/
def mostSeconds : Nat := 30

/-- The number of doublings after which a wait is too large for a floating-point number. -/
def doublingLimit : Nat := 1024

/-- The usual wait after an attempt in seconds, without its random part. -/
def base (attempt : Int) : Except Fault Nat :=
  let doublings := (attempt - 1).toNat
  if doublings < doublingLimit then .ok (min mostSeconds (Nat.pow 2 doublings))
  else .error .numberTooLarge

/-- The usual wait after an attempt in seconds, where `jitter` is its random part. -/
def delay (attempt : Int) (jitter : Float) : Except Fault Float :=
  (base attempt).map fun seconds => Decimal.nearest false seconds 1 + jitter

/-- The greater of a number and zero; what is no number counts as zero. -/
def atLeastZero (seconds : Float) : Float := if 0.0 < seconds then seconds else 0.0

/-- The lesser of a number and a minute. -/
def atMostMinute (seconds : Float) : Float := if seconds < 60.0 then seconds else 60.0

/-- The wait that a response asks for by its number of seconds. -/
def askedSeconds? (response : Response) : Option Float := do
  atLeastZero <$> Numeral.readFloat? (← response.header? "Retry-After")

/-- The wait until requests are allowed again, at the time `now`. -/
def untilReset? (response : Response) (now : Float) : Option Float := do
  let reset ← response.header? "X-RateLimit-Reset"
  if response.isRateLimited then
    let moment ← Numeral.readFloat? reset
    some (atMostMinute (atLeastZero (moment - now)))
  else none

/-- The wait that a response asks for, or else the usual one. -/
def delayAfter (response : Response) (attempt : Int) (now jitter : Float) : Except Fault Float :=
  match askedSeconds? response with
  | some seconds => .ok seconds
  | none =>
    match untilReset? response now with
    | some seconds => .ok seconds
    | none => delay attempt jitter

end WorkflowInstall.Github.Backoff

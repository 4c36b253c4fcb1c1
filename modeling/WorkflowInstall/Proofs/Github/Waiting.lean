import WorkflowInstall.Proofs.Decimal.Sum
import WorkflowInstall.Proofs.Github.Exchange

/-!
# How long a client waits

The usual wait doubles with each attempt up to half a minute, and a random part of at most a quarter
of a second comes to it. It has a value up to the attempt 1024. From the next one on it has none,
because the doubled number is made a floating-point number before it is cut down.

## Main Definitions

* `Backoff.usualSeconds` — the usual wait, without regard to the size of the doubled number
* `Backoff.NamesSeconds`, `Backoff.NamesReset` — what a response may ask for

## Main Statements

* `Backoff.delay_eq` — the usual wait, and when there is none
* `Backoff.add_jitter` — the random part adds at most a quarter of a second
* `Backoff.delayAfter_eq_error_iff` — when there is no wait after a response
* `Client.exists_numberTooLarge_iff` — the clients that may come to an attempt without a wait
* `Backoff.waits_bounded` — all that is promised about a wait

## Design Notes

There are six usual waits, so a sum with the random part is bounded for each by itself. The sum is
rounded; that it does not pass the bound is `Decimal.add_between`.
-/

namespace WorkflowInstall

namespace Github

namespace Backoff

/-! ## The usual wait -/

/-- The usual wait after an attempt in seconds: it doubles up to half a minute. -/
def usualSeconds (attempt : Int) : Nat := min 30 (2 ^ (attempt - 1).toNat)

/-- The waits that are usual. -/
def usualWaits : List Nat := [1, 2, 4, 8, 16, 30]

theorem usualSeconds_mem (attempt : Int) : usualSeconds attempt ∈ usualWaits := by
  unfold usualSeconds
  generalize (attempt - 1).toNat = doublings
  by_cases few : doublings < 5
  · revert doublings
    decide
  · have most : 30 ≤ 2 ^ doublings := by
      calc 30 ≤ 2 ^ 5 := by decide
        _ ≤ 2 ^ doublings := Nat.pow_le_pow_right (by decide) (by omega)
    rw [Nat.min_eq_left most]
    decide

theorem usualSeconds_mono {earlier attempt : Int} (h : earlier ≤ attempt) :
    usualSeconds earlier ≤ usualSeconds attempt := by
  have doubled : 2 ^ (earlier - 1).toNat ≤ 2 ^ (attempt - 1).toNat :=
    Nat.pow_le_pow_right (by decide) (by omega)
  unfold usualSeconds
  omega

theorem base_eq (attempt : Int) :
    base attempt =
      if attempt ≤ 1024 then .ok (usualSeconds attempt) else .error .numberTooLarge := by
  have same : (attempt - 1).toNat < doublingLimit ↔ attempt ≤ 1024 := by
    unfold doublingLimit
    omega
  unfold base
  dsimp only
  simp only [same]
  rfl

/-- The usual waits are floating-point numbers. -/
theorem nearest_of_mem :
    ∀ seconds ∈ usualWaits, Decimal.nearest false seconds 1 = Float.ofNat seconds := by
  decide +kernel

theorem delay_eq (attempt : Int) (jitter : Float) :
    delay attempt jitter =
      if attempt ≤ 1024 then .ok (Float.ofNat (usualSeconds attempt) + jitter)
      else .error .numberTooLarge := by
  rw [delay, base_eq]
  split
  · rw [← nearest_of_mem _ (usualSeconds_mem attempt)]
    rfl
  · rfl

/-! ## The random part -/

/-- How a wait of whole seconds is bounded when it has a random part. -/
structure IsBounded (seconds wait : Float) : Prop where
  least : seconds ≤ wait
  most : wait ≤ seconds + 0.25
  positive : 0.0 ≤ wait
  minute : wait ≤ 60.0

theorem add_quarter {seconds jitter : Float} {m : Nat} {e : Int} {mpos : 0 < m}
    {pos : 0 < m + 2 ^ (-2 - e).toNat}
    (whole : seconds.toModel.unpack = .finite .positive m e mpos)
    (top : (seconds + 0.25).toModel.unpack =
      .finite .positive (m + 2 ^ (-2 - e).toNat) e pos)
    (normal : 2 ^ 52 ≤ m ∧ m + 2 ^ (-2 - e).toNat < 2 ^ 53) (range : -52 ≤ e ∧ e < -47)
    (low : 0.0 ≤ jitter) (high : jitter ≤ 0.25) : IsBounded seconds (seconds + jitter) := by
  have quarter : (0.25 : Float).toModel.unpack = .finite .positive (2 ^ 52) (-54) (by decide) := rfl
  have minute : (60.0 : Float).toModel.unpack =
      .finite .positive (15 * 2 ^ 49) (-47) (by decide) := rfl
  have digits : (-2 - e).toNat + (e - -54).toNat = 52 := by omega
  have fits : m * 2 ^ (e - -54).toNat + 2 ^ 52 ≤
      (m + 2 ^ (-2 - e).toNat) * 2 ^ (e - -54).toNat := by
    rw [Nat.add_mul, ← Nat.pow_add, digits]
  obtain ⟨sum, sum_pos, total, above, below⟩ := Decimal.add_between whole normal.1 quarter
    (Nat.le_refl _) (by omega) (by omega) (by omega) fits normal.2 low high
  refine ⟨(Decimal.le_iff_of_finite whole total).mpr (.inr ⟨rfl, above⟩),
    (Decimal.le_iff_of_finite total top).mpr (.inr ⟨rfl, below⟩), ?_,
    (Decimal.le_iff_of_finite total minute).mpr (.inl range.2)⟩
  rw [Decimal.le_iff_unpack, Decimal.unpack_zero, total]
  rfl

/-- The random part adds at most a quarter of a second to a usual wait. -/
theorem add_jitter {seconds : Nat} (usual : seconds ∈ usualWaits) {jitter : Float}
    (low : 0.0 ≤ jitter) (high : jitter ≤ 0.25) :
    IsBounded (Float.ofNat seconds) (Float.ofNat seconds + jitter) := by
  simp only [usualWaits, List.mem_cons, List.not_mem_nil, or_false] at usual
  -- Each wait has its own significand and exponent.
  rcases usual with rfl | rfl | rfl | rfl | rfl | rfl
  · exact add_quarter (m := 2 ^ 52) (e := -52) rfl rfl (by decide) (by decide) low high
  · exact add_quarter (m := 2 ^ 52) (e := -51) rfl rfl (by decide) (by decide) low high
  · exact add_quarter (m := 2 ^ 52) (e := -50) rfl rfl (by decide) (by decide) low high
  · exact add_quarter (m := 2 ^ 52) (e := -49) rfl rfl (by decide) (by decide) low high
  · exact add_quarter (m := 2 ^ 52) (e := -48) rfl rfl (by decide) (by decide) low high
  · exact add_quarter (m := 15 * 2 ^ 49) (e := -48) rfl rfl (by decide) (by decide) low high

/-! ## Responses -/

/-- The response asks for a wait by its number of seconds. -/
def NamesSeconds (response : Response) : Prop :=
  ∃ text seconds, response.header? "Retry-After" = some text ∧
    Numeral.readFloat? text = some seconds

/-- The response says that no more requests are allowed for now, and when they are again. -/
structure NamesReset (response : Response) : Prop where
  remaining : response.header? "X-RateLimit-Remaining" = some "0".toList
  reset : ∃ text moment, response.header? "X-RateLimit-Reset" = some text ∧
    Numeral.readFloat? text = some moment

variable {response : Response} {attempt : Int} {now jitter wait : Float}

theorem askedSeconds?_eq_some_iff :
    askedSeconds? response = some wait ↔
      ∃ text seconds, response.header? "Retry-After" = some text ∧
        Numeral.readFloat? text = some seconds ∧ atLeastZero seconds = wait := by
  simp only [askedSeconds?, Option.bind_eq_bind, Option.bind_eq_some_iff, Option.map_eq_map,
    Option.map_eq_some_iff]
  constructor
  · rintro ⟨text, named, seconds, read, same⟩
    exact ⟨text, seconds, named, read, same⟩
  · rintro ⟨text, seconds, named, read, same⟩
    exact ⟨text, named, seconds, read, same⟩

theorem askedSeconds?_eq_none_iff : askedSeconds? response = none ↔ ¬ NamesSeconds response := by
  rw [Option.eq_none_iff_forall_ne_some]
  constructor
  · rintro unasked ⟨text, seconds, named, read⟩
    exact unasked _ (askedSeconds?_eq_some_iff.mpr ⟨text, seconds, named, read, rfl⟩)
  · intro unnamed wait asked
    obtain ⟨text, seconds, named, read, -⟩ := askedSeconds?_eq_some_iff.mp asked
    exact unnamed ⟨text, seconds, named, read⟩

theorem untilReset?_eq_some_iff :
    untilReset? response now = some wait ↔
      response.isRateLimited = true ∧ ∃ text moment,
        response.header? "X-RateLimit-Reset" = some text ∧
        Numeral.readFloat? text = some moment ∧
        atMostMinute (atLeastZero (moment - now)) = wait := by
  unfold untilReset?
  cases response.header? "X-RateLimit-Reset" with
  | none => simp
  | some text =>
    cases response.isRateLimited with
    | false => simp
    | true => simp [Option.bind_eq_some_iff]

theorem untilReset?_eq_none_iff : untilReset? response now = none ↔ ¬ NamesReset response := by
  rw [Option.eq_none_iff_forall_ne_some]
  constructor
  · rintro unset ⟨remaining, text, moment, named, read⟩
    exact unset _ (untilReset?_eq_some_iff.mpr
      ⟨beq_iff_eq.mpr remaining, text, moment, named, read, rfl⟩)
  · intro unnamed wait set
    obtain ⟨remaining, text, moment, named, read, -⟩ := untilReset?_eq_some_iff.mp set
    exact unnamed ⟨beq_iff_eq.mp remaining, text, moment, named, read⟩

/-- A response that asks for nothing is followed by the usual wait. -/
theorem delayAfter_of_unnamed (unasked : ¬ NamesSeconds response) (unset : ¬ NamesReset response) :
    delayAfter response attempt now jitter = delay attempt jitter := by
  unfold delayAfter
  rw [askedSeconds?_eq_none_iff.mpr unasked, untilReset?_eq_none_iff.mpr unset]

/-- There is no wait after a response that asks for nothing, when there is no usual one. -/
theorem delayAfter_eq_error_iff (fault : Fault) :
    delayAfter response attempt now jitter = .error fault ↔
      fault = .numberTooLarge ∧ 1024 < attempt ∧ ¬ NamesSeconds response ∧
        ¬ NamesReset response := by
  constructor
  · intro fails
    unfold delayAfter at fails
    split at fails
    case h_1 => exact nomatch fails
    case h_2 unasked =>
    split at fails
    case h_1 => exact nomatch fails
    case h_2 unset =>
    rw [delay_eq] at fails
    split at fails
    case isTrue => exact nomatch fails
    case isFalse late =>
      exact ⟨(Except.error.inj fails).symm, by omega, askedSeconds?_eq_none_iff.mp unasked,
        untilReset?_eq_none_iff.mp unset⟩
  · rintro ⟨rfl, late, unasked, unset⟩
    rw [delayAfter_of_unnamed unasked unset, delay_eq, if_neg (by omega)]

theorem zero_le_atLeastZero (seconds : Float) : 0.0 ≤ atLeastZero seconds := by
  unfold atLeastZero
  split
  case isTrue positive => exact Decimal.le_of_lt positive
  case isFalse => decide +kernel

theorem atLeastZero_of_isNaN {seconds : Float} (word : seconds.isNaN = true) :
    atLeastZero seconds = 0.0 := by
  refine if_neg fun positive => ?_
  rw [((Decimal.zero_lt_iff seconds).mp positive).2] at word
  exact Bool.false_ne_true word

theorem atMostMinute_mem {seconds : Float} (positive : 0.0 ≤ seconds) :
    0.0 ≤ atMostMinute seconds ∧ atMostMinute seconds ≤ 60.0 := by
  unfold atMostMinute
  split
  case isTrue short => exact ⟨positive, Decimal.le_of_lt short⟩
  case isFalse => decide +kernel

/-- A wait for which a response names no number of seconds is at most a minute. -/
theorem delayAfter_mem (low : 0.0 ≤ jitter) (high : jitter ≤ 0.25)
    (unasked : ∀ text seconds, response.header? "Retry-After" = some text →
      Numeral.readFloat? text = some seconds → seconds.isNaN = true)
    (returns : delayAfter response attempt now jitter = .ok wait) : 0.0 ≤ wait ∧ wait ≤ 60.0 := by
  unfold delayAfter at returns
  split at returns
  case h_1 asked =>
    obtain ⟨text, seconds, named, read, same⟩ := askedSeconds?_eq_some_iff.mp asked
    obtain rfl := Except.ok.inj returns
    rw [← same, atLeastZero_of_isNaN (unasked text seconds named read)]
    decide +kernel
  case h_2 =>
  split at returns
  case h_1 set =>
    obtain ⟨-, text, moment, -, -, same⟩ := untilReset?_eq_some_iff.mp set
    obtain rfl := Except.ok.inj returns
    rw [← same]
    exact atMostMinute_mem (zero_le_atLeastZero _)
  case h_2 =>
  rw [delay_eq] at returns
  split at returns
  case isTrue =>
    obtain rfl := Except.ok.inj returns
    have bounded := add_jitter (usualSeconds_mem attempt) low high
    exact ⟨bounded.positive, bounded.minute⟩
  case isFalse => exact nomatch returns

end Backoff

/-! ## Clients -/

theorem Means.ne_numberTooLarge {path url : Text} {answer : Answer}
    {outcome : Except Fault Response} (h : Means path url answer outcome) :
    outcome ≠ .error .numberTooLarge := by
  cases h <;> exact fun same => nomatch same

namespace Client

variable {client : Client} {path : Text} {request : HttpRequest} {around : Surroundings}
  {attempt : Nat} {answer : Answer}

theorem lt_of_waitAfter_error {fault : Fault}
    (fails : waitAfter around attempt answer = .error fault) : 1024 < attempt := by
  cases answer with
  | failed kind message =>
    have delayed : Backoff.delay attempt around.jitter = .error fault := fails
    rw [Backoff.delay_eq] at delayed
    split at delayed
    case isTrue => exact nomatch delayed
    case isFalse => omega
  | received response =>
    have late := ((Backoff.delayAfter_eq_error_iff fault).mp fails).2.1
    omega

theorem lt_of_wait_error (fails : client.wait around attempt answer = .error .numberTooLarge) :
    1024 < attempt := by
  unfold wait at fails
  cases waited : waitAfter around attempt answer with
  | error fault => exact lt_of_waitAfter_error waited
  | ok seconds =>
    rw [waited] at fails
    cases long : Numeral.isTooLong client.attempts <;> rw [long] at fails <;> exact nomatch fails

/-- A client whose wait has no value has come to an attempt past 1024 that is not its last. -/
theorem lt_of_exchange_numberTooLarge (left : Nat) (count : attempt + left = client.attempts)
    (fails : (client.exchange path request (left + 1) attempt around).outcome =
      .error .numberTooLarge) : 1025 < client.attempts := by
  induction left generalizing attempt around with
  | zero =>
    rw [exchange_over (.inl (by omega))] at fails
    exact absurd fails (means_outcome path _ _).ne_numberTooLarge
  | succ left ih =>
    have more : attempt < client.attempts := by omega
    by_cases again : Transient (around.answer 0)
    case neg =>
      rw [exchange_over (.inr again)] at fails
      exact absurd fails (means_outcome path _ _).ne_numberTooLarge
    case pos =>
      cases waited : client.wait (around.after 1) attempt (around.answer 0) with
      | error fault =>
        rw [exchange_unwaited again more waited] at fails
        rw [Except.error.inj fails] at waited
        have late := lt_of_wait_error waited
        omega
      | ok seconds =>
        cases refused : around.refusal seconds with
        | some problem =>
          rw [(exchange_refused path request (left + 1) again more waited refused).1] at fails
          exact nomatch fails
        | none =>
          rw [(exchange_again request (left + 1) again more waited refused).1] at fails
          exact ih (by omega) fails

/-- A number of attempts that is too long to be written is in the way of the first wait. -/
theorem short_of_exchange_numberTooLarge {left : Nat} (early : attempt ≤ 1024)
    (count : attempt + left = client.attempts)
    (fails : (client.exchange path request (left + 1) attempt around).outcome =
      .error .numberTooLarge) : Numeral.isTooLong client.attempts = false := by
  rw [Bool.eq_false_iff]
  intro long
  by_cases final : attempt = client.attempts ∨ ¬ Transient (around.answer 0)
  · rw [exchange_over final] at fails
    exact (means_outcome path _ _).ne_numberTooLarge fails
  · obtain ⟨unused, again⟩ := not_or.mp final
    cases waited : client.wait (around.after 1) attempt (around.answer 0) with
    | error fault =>
      rw [exchange_unwaited (not_not.mp again) (by omega) waited] at fails
      rw [Except.error.inj fails] at waited
      have late := lt_of_wait_error waited
      omega
    | ok seconds =>
      unfold wait at waited
      rw [long] at waited
      cases asked : waitAfter (around.after 1) attempt (around.answer 0) <;>
        rw [asked] at waited <;> exact nomatch waited

/-- When no answer ever comes and the usual waits are granted, a client with many attempts comes to
one without a wait. -/
theorem exchange_of_silence (left : Nat) (early : attempt ≤ 1025)
    (count : attempt + left = client.attempts) (many : 1025 < client.attempts)
    (short : Numeral.isTooLong client.attempts = false) (silent : around.answers = [])
    (granted : ∀ seconds ∈ Backoff.usualWaits,
      around.refusal (Float.ofNat seconds + around.jitter) = none) :
    (client.exchange path request (left + 1) attempt around).outcome =
      .error .numberTooLarge := by
  have answer : around.answer 0 = Surroundings.silence := by
    rw [Surroundings.answer, silent]
    rfl
  have again : Transient (around.answer 0) := answer ▸ .failed _ _
  induction left generalizing attempt around with
  | zero => omega
  | succ left ih =>
    have more : attempt < client.attempts := by omega
    have waited : client.wait (around.after 1) attempt (around.answer 0) =
        Backoff.delay attempt around.jitter := by
      rw [wait_eq short, waitAfter_after, answer]
      rfl
    rw [Backoff.delay_eq] at waited
    by_cases last : attempt = 1025
    · rw [if_neg (by omega)] at waited
      rw [exchange_unwaited again more waited]
    · rw [if_pos (by omega)] at waited
      have rest : (around.after 1).answers = [] := by
        rw [Surroundings.after, silent]
        rfl
      have next : (around.after 1).answer 0 = Surroundings.silence := by
        rw [Surroundings.answer, rest]
        rfl
      have goes_on := granted _ (Backoff.usualSeconds_mem attempt)
      rw [(exchange_again request (left + 1) again more waited goes_on).1]
      exact ih (by omega) (by omega) rest granted next (next ▸ .failed _ _)

section Lookup

variable (path form : Text) (params : Option (List (Text × Text)))

/-- When no answer ever comes, a lookup with many attempts comes to one without a wait. -/
theorem get_of_silence (many : 1025 < client.attempts)
    (short : Numeral.isTooLong client.attempts = false) :
    (client.get ⟨[], []⟩ path form params
      ⟨⟨[]⟩, [], [], 0, 0, Surroundings.usualRefusal⟩).outcome = .error .numberTooLarge := by
  let around : Surroundings := ⟨⟨[]⟩, [], [], 0, 0, Surroundings.usualRefusal⟩
  obtain ⟨token, found⟩ :
      ∃ token, (client.findToken ⟨[], []⟩ around.environment).outcome = .ok token := by
    unfold findToken
    split
    · exact ⟨none, by rfl⟩
    · exact ⟨_, rfl⟩
  obtain ⟨left, count⟩ : ∃ left, client.attempts = left + 1 :=
    Nat.exists_eq_add_of_le' (by omega)
  have exchanged := (get_of_ok path form params found).1
  have granted : ∀ seconds ∈ Backoff.usualWaits,
      Surroundings.usualRefusal (Float.ofNat seconds + 0) = none := by decide +kernel
  rw [exchanged, count]
  exact exchange_of_silence left (by decide) (by omega) many short rfl granted

/-- The clients that may come to an attempt without a wait: those with more than 1025 attempts, as
long as their number can be written. -/
theorem exists_numberTooLarge_iff :
    (∃ disk around, (client.get disk path form params around).outcome = .error .numberTooLarge) ↔
      1025 < client.attempts ∧ Numeral.isTooLong client.attempts = false := by
  constructor
  · rintro ⟨disk, around, fails⟩
    cases found : (client.findToken disk around.environment).outcome with
    | error fault =>
      rw [(get_of_error path form params found).1] at fails
      rw [Except.error.inj fails] at found
      exact (findToken_fault found).elim nofun nofun
    | ok token =>
      rw [(get_of_ok path form params found).1] at fails
      cases count : client.attempts with
      | zero =>
        rw [count] at fails
        exact nomatch fails
      | succ left =>
        rw [count] at fails
        rw [← count]
        exact ⟨lt_of_exchange_numberTooLarge left (by omega) fails,
          short_of_exchange_numberTooLarge (by decide) (by omega) fails⟩
  · rintro ⟨many, short⟩
    exact ⟨_, _, get_of_silence path form params many short⟩

end Lookup

end Client

namespace Backoff

/-- The usual wait has a value up to the attempt 1024, and then it lies between one second and half
a minute, never decreases, and grows by at most a quarter of a second by its random part. A response
that does not name a number of seconds is followed by a wait of at most a minute, unless the usual
wait is needed and has no value. Only a client of more than 1025 attempts may come to that. -/
theorem waits_bounded (attempt : Int) (now jitter : Float) (low : 0.0 ≤ jitter)
    (high : jitter ≤ 0.25) (response : Response)
    (unasked : ∀ text seconds, response.header? "Retry-After" = some text →
      Numeral.readFloat? text = some seconds → seconds.isNaN = true) :
    let usual := usualSeconds attempt
    base attempt = (if attempt ≤ 1024 then .ok usual else .error .numberTooLarge) ∧
      (1 ≤ usual ∧ usual ≤ 30 ∧ ∀ earlier ≤ attempt, usualSeconds earlier ≤ usual) ∧
      delay attempt jitter =
        (if attempt ≤ 1024 then .ok (Float.ofNat usual + jitter) else .error .numberTooLarge) ∧
      IsBounded (Float.ofNat usual) (Float.ofNat usual + jitter) ∧
      (∀ fault, delayAfter response attempt now jitter = .error fault ↔
        fault = .numberTooLarge ∧ 1024 < attempt ∧ ¬ NamesSeconds response ∧
          ¬ NamesReset response) ∧
      (∀ wait, delayAfter response attempt now jitter = .ok wait → 0.0 ≤ wait ∧ wait ≤ 60.0) ∧
      ∀ (client : Client) (path form : Text) (params : Option (List (Text × Text))),
        (∃ disk around,
          (client.get disk path form params around).outcome = .error .numberTooLarge) ↔
            1025 < client.attempts ∧ Numeral.isTooLong client.attempts = false := by
  intro usual
  have mem : usual ∈ usualWaits := usualSeconds_mem attempt
  have range : ∀ seconds ∈ usualWaits, 1 ≤ seconds ∧ seconds ≤ 30 := by decide
  exact ⟨base_eq attempt,
    ⟨(range usual mem).1, (range usual mem).2, fun _ before => usualSeconds_mono before⟩,
    delay_eq attempt jitter, add_jitter mem low high, delayAfter_eq_error_iff,
    fun _ returns => delayAfter_mem low high unasked returns,
    fun _ path form params => Client.exists_numberTooLarge_iff path form params⟩

/-- The service is busy and does not say for how long. -/
theorem waits_bounded_busy :
    let busy : Response := ⟨503, "Busy", [("Retry-After", "soon")], []⟩
    delay 2 0.125 = .ok 2.125 ∧
      ∀ wait, delayAfter busy 2 1000.0 0.125 = .ok wait → 0.0 ≤ wait ∧ wait ≤ 60.0 := by
  intro busy
  have unread : Numeral.readFloat? "soon" = none := by rfl
  obtain ⟨-, -, usual, -, -, minute, -⟩ :=
    waits_bounded 2 1000.0 0.125 (by decide +kernel) (by decide +kernel) busy
      (by
        intro text seconds named read
        obtain rfl : "soon".toList = text := Option.some.inj named
        exact nomatch unread.symm.trans read)
  exact ⟨usual.trans (congrArg Except.ok (by decide +kernel)), minute⟩

/-- After the attempt 1025 there is no wait, though half a minute would do; and a client of 1026
attempts comes to that attempt when no answer ever comes. -/
theorem not_waited :
    let busy : Response := ⟨503, "Busy", [], []⟩
    let client : Client := { Client.usual with attempts := 1026 }
    (¬ ∃ wait, delay 1025 0.0 = .ok wait) ∧
      (¬ ∃ wait, delayAfter busy 1025 1000.0 0.0 = .ok wait) ∧
      (client.get ⟨[], []⟩ "/x" Client.rawForm none
        ⟨⟨[]⟩, [], [], 0, 0, Surroundings.usualRefusal⟩).outcome = .error .numberTooLarge := by
  intro busy client
  have unasked : ¬ NamesSeconds busy := fun ⟨_, _, named, _⟩ => nomatch named
  have unset : ¬ NamesReset busy := fun ⟨remaining, _⟩ => nomatch remaining
  have fails : delay 1025 0.0 = .error .numberTooLarge := by
    rw [delay_eq, if_neg (by decide)]
  have unwaited : delayAfter busy 1025 1000.0 0.0 = .error .numberTooLarge := by
    rw [delayAfter_of_unnamed unasked unset, fails]
  refine ⟨?_, ?_, Client.get_of_silence _ _ _ (by decide) (by decide +kernel)⟩
  · rintro ⟨wait, waits⟩
    exact nomatch fails.symm.trans waits
  · rintro ⟨wait, waits⟩
    exact nomatch unwaited.symm.trans waits

end Backoff

end Github

end WorkflowInstall

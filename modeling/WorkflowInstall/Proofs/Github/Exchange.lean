import WorkflowInstall.Github.Client
import WorkflowInstall.Proofs.Run.Alike

/-!
# How often a request is sent

A request is sent again after every answer that may be different the next time, until the attempts
are used up. Here that is said without the recursion: by the place of the answer that ends the
exchange among the answers to come.

## Main Definitions

* `Github.Transient` — an answer after which a request may be sent again
* `Github.Means` — what the last answer of an exchange comes to
* `Github.EndsAt` — which answer ends an exchange
* `Github.Exchanged` — an exchange in which requests and waits take turns up to its last answer

## Main Statements

* `Github.EndsAt.unique` — there is one answer that ends an exchange
* `Github.Client.exchange_exchanged` — requests and waits take turns up to that answer, which
  decides
* `Github.Client.exchange_broken` — or up to a wait that is refused, and that decides
* `Github.Client.get_exchanges` — the same of a lookup, with its token

## Design Notes

`Transient` and `Means` list the statuses one by one, apart from the client's own tests. The answers
to come are a sequence without an end here: after the last one that is given, requests fail.

The number of attempts is written into the line that is logged before a wait. A number that is too
long to be written ends the exchange there, after its first request.
-/

namespace WorkflowInstall

namespace Github

/-! ## Answers -/

/-- An answer after which a request may be sent again. -/
inductive Transient : Answer → Prop
  /-- No answer came. -/
  | failed (kind message : Text) : Transient (.failed kind message)
  /-- The service is too busy, or broken for now. -/
  | busy (response : Response) (status : response.status ∈ [429, 500, 502, 503, 504]) :
    Transient (.received response)
  /-- No more requests are allowed for now. -/
  | limited (response : Response) (status : response.status = 403)
    (remaining : response.header? "X-RateLimit-Remaining" = some "0".toList) :
    Transient (.received response)

/-- What the last answer of an exchange comes to, for a request that was sent to `url` to look up
`path`. -/
inductive Means (path url : Text) : Answer → Except Fault Response → Prop
  /-- The failure is passed on. -/
  | failed (kind message : Text) :
    Means path url (.failed kind message) (.error (.transport kind message))
  /-- There is no such thing. -/
  | missing (response : Response) (status : response.status = 404) :
    Means path url (.received response) (.error (.api ⟨.notFound, some path, some 404⟩))
  /-- The token is not accepted. -/
  | unauthorized (response : Response) (status : response.status = 401) :
    Means path url (.received response) (.error (.api ⟨.unauthorized, some path, some 401⟩))
  /-- The request is not allowed. -/
  | forbidden (response : Response) (status : response.status = 403) :
    Means path url (.received response) (.error (.api ⟨.forbidden, some path, some 403⟩))
  /-- The status means failure. -/
  | refused (response : Response) (low : 400 ≤ response.status) (high : response.status ≤ 599)
    (other : response.status ∉ [401, 403, 404]) :
    Means path url (.received response)
      (.error (.badStatus response.status response.reason url))
  /-- The response is given back. -/
  | returned (response : Response) (status : response.status < 400 ∨ 600 ≤ response.status) :
    Means path url (.received response) (.ok response)

theorem isTransient_iff (answer : Answer) : answer.isTransient = true ↔ Transient answer := by
  cases answer with
  | failed kind message => exact ⟨fun _ => .failed kind message, fun _ => rfl⟩
  | received response =>
    rw [Answer.isTransient, Bool.or_eq_true, Bool.and_eq_true, List.contains_iff_mem,
      Response.isRateLimited, beq_iff_eq, beq_iff_eq]
    constructor
    · rintro (status | ⟨status, remaining⟩)
      · exact .busy response status
      · exact .limited response status remaining
    · rintro (_ | ⟨_, status⟩ | ⟨_, status, remaining⟩)
      · exact .inl status
      · exact .inr ⟨status, remaining⟩

theorem means_outcome (path url : Text) (answer : Answer) :
    Means path url answer (answer.outcome path url) := by
  cases answer with
  | failed kind message => exact .failed kind message
  | received response =>
    unfold Answer.outcome
    dsimp only
    split
    case isTrue status => rw [status]; exact .missing response status
    case isFalse notMissing =>
    split
    case isTrue status => rw [status]; exact .unauthorized response status
    case isFalse notUnauthorized =>
    split
    case isTrue status => rw [status]; exact .forbidden response status
    case isFalse notForbidden =>
    split
    case isTrue range =>
      refine .refused response range.1 (Nat.le_of_lt_succ range.2) ?_
      simp only [List.mem_cons, List.not_mem_nil, or_false]
      exact fun other => other.elim notUnauthorized (·.elim notForbidden notMissing)
    case isFalse range => exact .returned response (by omega)

/-- An answer comes to one thing. -/
theorem Means.unique {path url : Text} {answer : Answer} {outcome outcome' : Except Fault Response}
    (h : Means path url answer outcome) (h' : Means path url answer outcome') :
    outcome = outcome' := by
  have same {outcome : Except Fault Response} (h : Means path url answer outcome) :
      outcome = answer.outcome path url := by
    unfold Answer.outcome
    cases h with
    | failed kind message => rfl
    | missing response status | unauthorized response status | forbidden response status =>
      simp only [status, reduceIte, Nat.reduceEqDiff]
      rfl
    | refused response low high other =>
      simp only [List.mem_cons, List.not_mem_nil, or_false, not_or] at other
      dsimp only
      rw [if_neg other.2.2, if_neg other.1, if_neg other.2.1, if_pos ⟨low, by omega⟩]
    | returned response status =>
      dsimp only
      rw [if_neg (by omega), if_neg (by omega), if_neg (by omega), if_neg (by omega)]
  exact (same h).trans (same h').symm

/-- No answer says that the attempts are used up. -/
theorem Means.ne_attemptsUsedUp {path url : Text} {answer : Answer}
    {outcome : Except Fault Response} (h : Means path url answer outcome) (asked : Text) :
    outcome ≠ .error (.attemptsUsedUp asked) := by
  cases h <;> exact fun same => nomatch same

/-! ## The answers to come -/

/-- The answer to a request, where `i` requests have been sent before it. -/
def Surroundings.answer (around : Surroundings) (i : Nat) : Answer :=
  around.answers.getD i silence

/-- The surroundings when requests have been answered. -/
def Surroundings.after (around : Surroundings) (requests : Nat) : Surroundings :=
  { around with answers := around.answers.drop requests }

theorem Surroundings.next_eq (around : Surroundings) :
    around.next = (around.answer 0, around.after 1) := by
  obtain ⟨environment, accounts, answers, now, jitter, refusal⟩ := around
  cases answers <;> rfl

theorem Surroundings.answer_after (around : Surroundings) (requests i : Nat) :
    (around.after requests).answer i = around.answer (requests + i) := by
  simp only [answer, after, List.getD_eq_getElem?_getD, List.getElem?_drop]

theorem Surroundings.after_after (around : Surroundings) (requests more : Nat) :
    (around.after requests).after more = around.after (requests + more) := by
  simp only [after, List.drop_drop]

/-- Which answer ends an exchange: the first one that is not transient, or the one to the last of
`most` requests when that comes first. -/
structure EndsAt (answers : Nat → Answer) (most last : Nat) : Prop where
  allowed : last < most
  before : ∀ i < last, Transient (answers i)
  final : last + 1 = most ∨ ¬ Transient (answers last)

/-- There is one answer that ends an exchange. -/
theorem EndsAt.unique {answers : Nat → Answer} {most last last' : Nat}
    (h : EndsAt answers most last) (h' : EndsAt answers most last') : last = last' := by
  have least {first second : Nat} (one : EndsAt answers most first)
      (other : EndsAt answers most second) : second ≤ first := by
    refine Nat.le_of_not_lt fun above => ?_
    cases one.final with
    | inl used => have := other.allowed; omega
    | inr stops => exact stops (other.before first above)
  exact Nat.le_antisymm (least h' h) (least h h')

/-- The first answer ends the exchange. -/
theorem EndsAt.first {answers : Nat → Answer} {most : Nat}
    (final : most = 1 ∨ ¬ Transient (answers 0)) (allowed : 0 < most) : EndsAt answers most 0 :=
  ⟨allowed, fun _ early => absurd early (Nat.not_lt_zero _), final.imp_left Eq.symm⟩

/-- After a transient answer the rest of the exchange decides. -/
theorem EndsAt.later {answers : Nat → Answer} {most last : Nat} (again : Transient (answers 0))
    (rest : EndsAt (fun i => answers (1 + i)) most last) :
    EndsAt answers (most + 1) (last + 1) where
  allowed := Nat.succ_lt_succ rest.allowed
  before
    | 0, _ => again
    | i + 1, early => Nat.add_comm 1 i ▸ rest.before i (Nat.lt_of_succ_lt_succ early)
  final := by
    rw [Nat.add_comm last 1]
    exact rest.final.imp_left (by omega)

/-! ## Exchanges -/

/-- The deeds of an exchange: requests and waits take turns. -/
def exchangeDeeds (request : HttpRequest) (waits : List Float) : List Event :=
  waits.flatMap (fun seconds => [.requested request, .waited seconds]) ++ [.requested request]

/-- The wait after an answer of an exchange from a given attempt on has a value, and the system does
not refuse it. -/
def Granted (around : Surroundings) (attempt i : Nat) : Prop :=
  ∃ seconds, Client.waitAfter around (attempt + i) (around.answer i) = .ok seconds ∧
    around.refusal seconds = none

/-- An exchange from a given attempt on that is over with its answer `last`. The answers before it
are only waited for, and the outcome is an `ending`. -/
structure Exchanged (request : HttpRequest) (around : Surroundings) (attempt last : Nat)
    (ending : Except Fault Response → Prop) (reply : Reply Surroundings Response) : Prop where
  deeds : ∃ waits : List Float,
    waits.map Except.ok =
      (List.range last).map (fun i => Client.waitAfter around (attempt + i) (around.answer i)) ∧
    Event.deeds reply.events = exchangeDeeds request waits
  outcome : ending reply.outcome
  state : reply.state = around.after (last + 1)

namespace Client

variable {client : Client} {path : Text} {request : HttpRequest} {around : Surroundings}
  {attempt : Nat}

theorem waitAfter_after (around : Surroundings) (requests attempt : Nat) (answer : Answer) :
    waitAfter (around.after requests) attempt answer = waitAfter around attempt answer := by
  cases answer <;> rfl

theorem eq_of_waitAfter_error {answer : Answer} {fault : Fault}
    (h : waitAfter around attempt answer = .error fault) : fault = .numberTooLarge := by
  have delay {jitter : Float} (h : Backoff.delay attempt jitter = .error fault) :
      fault = .numberTooLarge := by
    unfold Backoff.delay Backoff.base at h
    dsimp only at h
    split at h
    · exact nomatch h
    · exact (Except.error.inj h).symm
  cases answer with
  | failed kind message => exact delay h
  | received response =>
    replace h : Backoff.delayAfter response attempt around.now around.jitter = .error fault := h
    unfold Backoff.delayAfter at h
    split at h
    · exact nomatch h
    · split at h
      · exact nomatch h
      · exact delay h

/-- When the number of attempts can be written, a client waits as the answer asks for. -/
theorem wait_eq (short : Numeral.isTooLong client.attempts = false) (answer : Answer) :
    client.wait around attempt answer = waitAfter around attempt answer := by
  unfold wait
  rw [short]
  cases waitAfter around attempt answer <;> rfl

/-- A wait fails because it is too long, or because the number of attempts is. -/
theorem eq_of_wait_error {answer : Answer} {fault : Fault}
    (h : client.wait around attempt answer = .error fault) :
    fault = .numberTooLarge ∨ fault = .integerTooLong := by
  cases long : Numeral.isTooLong client.attempts with
  | false => exact .inl (eq_of_waitAfter_error (wait_eq long answer ▸ h))
  | true =>
    unfold wait at h
    rw [long] at h
    cases waited : waitAfter around attempt answer with
    | error cause =>
      rw [waited] at h
      exact .inl (Except.error.inj h ▸ eq_of_waitAfter_error waited)
    | ok seconds =>
      rw [waited] at h
      exact .inr (Except.error.inj h).symm

theorem judge_over {answer : Answer} (final : attempt = client.attempts ∨ ¬ Transient answer) :
    client.judge around path attempt answer =
      .over (answer.outcome path (client.apiUrl ++ path)) := by
  refine if_neg fun again => ?_
  rw [Bool.and_eq_true, decide_eq_true_iff, isTransient_iff] at again
  exact final.elim (Nat.ne_of_lt again.2) (absurd again.1)

theorem judge_again {answer : Answer} (again : Transient answer)
    (more : attempt < client.attempts) :
    client.judge around path attempt answer =
      .again (causeText answer) (client.wait around attempt answer) :=
  if_pos (by rw [(isTransient_iff answer).mpr again, decide_eq_true more]; rfl)

/-- The exchange ends with its first answer. -/
theorem exchange_over {left : Nat}
    (final : attempt = client.attempts ∨ ¬ Transient (around.answer 0)) :
    client.exchange path request (left + 1) attempt around =
      { outcome := (around.answer 0).outcome path (client.apiUrl ++ path)
        state := around.after 1
        events := [.requested request] } := by
  rw [exchange, around.next_eq]
  dsimp only
  rw [judge_over final]

/-- The exchange ends because there is no wait. -/
theorem exchange_unwaited {left : Nat} {fault : Fault} (again : Transient (around.answer 0))
    (more : attempt < client.attempts)
    (waited : client.wait (around.after 1) attempt (around.answer 0) = .error fault) :
    client.exchange path request (left + 1) attempt around =
      { outcome := .error fault, state := around.after 1, events := [.requested request] } := by
  rw [exchange, around.next_eq]
  dsimp only
  rw [judge_again again more, waited]

/-- The exchange ends because the wait is refused. -/
theorem exchange_refused (path : Text) (request : HttpRequest) (left : Nat) {seconds : Float}
    {problem : WaitProblem}
    (again : Transient (around.answer 0)) (more : attempt < client.attempts)
    (waited : client.wait (around.after 1) attempt (around.answer 0) = .ok seconds)
    (refused : around.refusal seconds = some problem) :
    let reply := client.exchange path request (left + 1) attempt around
    reply.outcome = .error (.badWait problem) ∧ reply.state = around.after 1 ∧
      Event.deeds reply.events = [.requested request] := by
  intro reply
  unfold reply
  rw [exchange, around.next_eq]
  dsimp only
  rw [judge_again again more, waited]
  dsimp only
  rw [show (around.after 1).refusal seconds = some problem from refused]
  exact ⟨rfl, rfl, rfl⟩

/-- The exchange goes on after a wait. -/
theorem exchange_again (request : HttpRequest) (left : Nat) {seconds : Float}
    (again : Transient (around.answer 0)) (more : attempt < client.attempts)
    (waited : client.wait (around.after 1) attempt (around.answer 0) = .ok seconds)
    (granted : around.refusal seconds = none) :
    let reply := client.exchange path request (left + 1) attempt around
    let rest := client.exchange path request left (attempt + 1) (around.after 1)
    reply.outcome = rest.outcome ∧ reply.state = rest.state ∧
      Event.deeds reply.events =
        .requested request :: .waited seconds :: Event.deeds rest.events := by
  intro reply rest
  have eq : reply.outcome = rest.outcome ∧ reply.state = rest.state ∧ reply.events =
      .requested request :: .logged .github (waitText client attempt (causeText (around.answer 0))
        seconds) :: .waited seconds :: rest.events := by
    unfold reply
    rw [exchange, around.next_eq]
    dsimp only
    rw [judge_again again more, waited]
    dsimp only
    rw [show (around.after 1).refusal seconds = none from granted]
    exact ⟨rfl, rfl, rfl⟩
  exact ⟨eq.1, eq.2.1, by rw [eq.2.2]; rfl⟩

/-- An exchange never ends because the attempts are used up: the last of them decides. -/
theorem exchange_ne_attemptsUsedUp (left : Nat) (count : attempt + left = client.attempts)
    (asked : Text) :
    (client.exchange path request (left + 1) attempt around).outcome ≠
      .error (.attemptsUsedUp asked) := by
  induction left generalizing attempt around with
  | zero =>
    rw [exchange_over (.inl (by omega))]
    exact (means_outcome path _ _).ne_attemptsUsedUp asked
  | succ left ih =>
    have more : attempt < client.attempts := by omega
    by_cases again : Transient (around.answer 0)
    case neg =>
      rw [exchange_over (.inr again)]
      exact (means_outcome path _ _).ne_attemptsUsedUp asked
    case pos =>
      cases waited : client.wait (around.after 1) attempt (around.answer 0) with
      | error fault =>
        rw [exchange_unwaited again more waited]
        rintro ⟨⟩
        exact (eq_of_wait_error waited).elim nofun nofun
      | ok seconds =>
        cases refused : around.refusal seconds with
        | some problem =>
          rw [(exchange_refused path request (left + 1) again more waited refused).1]
          exact nofun
        | none =>
          rw [(exchange_again request (left + 1) again more waited refused).1]
          exact ih (by omega)

/-- An exchange that ends with its first answer. -/
theorem exchanged_over {left : Nat} (url : request.url = client.apiUrl ++ path)
    (final : attempt = client.attempts ∨ ¬ Transient (around.answer 0)) :
    Exchanged request around attempt 0 (Means path request.url (around.answer 0))
      (client.exchange path request (left + 1) attempt around) := by
  rw [exchange_over final, ← url]
  exact ⟨⟨[], rfl, rfl⟩, means_outcome path request.url _, rfl⟩

/-- An exchange that goes on after its first answer. -/
theorem exchanged_again {left last : Nat} {seconds : Float} {ending : Except Fault Response → Prop}
    (again : Transient (around.answer 0)) (more : attempt < client.attempts)
    (short : Numeral.isTooLong client.attempts = false)
    (asked : waitAfter around attempt (around.answer 0) = .ok seconds)
    (granted : around.refusal seconds = none)
    (rest : Exchanged request (around.after 1) (attempt + 1) last ending
      (client.exchange path request left (attempt + 1) (around.after 1))) :
    Exchanged request around attempt (last + 1) ending
      (client.exchange path request (left + 1) attempt around) := by
  have waited : client.wait (around.after 1) attempt (around.answer 0) = .ok seconds := by
    rw [wait_eq short, waitAfter_after]
    exact asked
  obtain ⟨outcome, state, events⟩ := exchange_again request left again more waited granted
  obtain ⟨waits, each, deeds⟩ := rest.deeds
  have next (i : Nat) : (around.after 1).answer i = around.answer (i + 1) := by
    rw [Surroundings.answer_after, Nat.add_comm]
  refine ⟨⟨seconds :: waits, ?_, ?_⟩, ?_, ?_⟩
  · rw [List.map_cons, each, List.range_succ_eq_map, List.map_cons, List.map_map, ← asked]
    refine congrArg₂ List.cons rfl (List.map_congr_left fun i _ => ?_)
    show waitAfter (around.after 1) (attempt + 1 + i) _ = waitAfter around (attempt + (i + 1)) _
    rw [waitAfter_after, next, Nat.add_assoc, Nat.add_comm 1 i]
  · rw [events, deeds]
    rfl
  · rw [outcome]
    exact rest.outcome
  · rw [state, rest.state, Surroundings.after_after, Nat.add_comm 1]

theorem granted_after {i : Nat} :
    Granted (around.after 1) (attempt + 1) i ↔ Granted around attempt (i + 1) := by
  unfold Granted
  rw [Surroundings.answer_after, Nat.add_comm 1 i, Nat.add_assoc, Nat.add_comm 1 i]
  simp only [waitAfter_after]
  rfl

/-- Requests and waits take turns up to the answer that ends the exchange, and nothing but that
answer decides. -/
theorem exchange_exchanged (request : HttpRequest) (around : Surroundings) (left : Nat)
    (count : attempt + left = client.attempts)
    (url : request.url = client.apiUrl ++ path) :
    ∃ last, EndsAt around.answer (left + 1) last ∧
      ((∀ i < last, Granted around attempt i) →
        (last = 0 ∨ Numeral.isTooLong client.attempts = false) →
        Exchanged request around attempt last (Means path request.url (around.answer last))
          (client.exchange path request (left + 1) attempt around)) := by
  induction left generalizing attempt around with
  | zero =>
    exact ⟨0, .first (.inl rfl) Nat.one_pos, fun _ _ => exchanged_over url (.inl count)⟩
  | succ left ih =>
    by_cases again : Transient (around.answer 0)
    case neg =>
      exact ⟨0, .first (.inr again) (Nat.succ_pos _), fun _ _ => exchanged_over url (.inr again)⟩
    case pos =>
      have more : attempt < client.attempts := by omega
      obtain ⟨last, ends, rest⟩ := @ih (attempt + 1) (around.after 1) (by omega)
      have next (i : Nat) : (around.after 1).answer i = around.answer (1 + i) :=
        around.answer_after 1 i
      refine ⟨last + 1, .later again (funext next ▸ ends), fun waits short => ?_⟩
      have short : Numeral.isTooLong client.attempts = false :=
        short.resolve_left (Nat.succ_ne_zero last)
      obtain ⟨seconds, asked, granted⟩ := waits 0 (Nat.succ_pos last)
      have later := rest (fun i early => granted_after.mpr (waits (i + 1) (Nat.succ_lt_succ early)))
        (.inr short)
      rw [next, Nat.add_comm 1] at later
      exact exchanged_again again more short asked granted later

/-- Requests and waits take turns up to a wait that is refused, and that decides. -/
theorem exchange_broken (request : HttpRequest) {left i : Nat} {seconds : Float}
    {problem : WaitProblem} (count : attempt + left = client.attempts) (early : i < left)
    (short : Numeral.isTooLong client.attempts = false)
    (again : ∀ j ≤ i, Transient (around.answer j)) (waits : ∀ j < i, Granted around attempt j)
    (asked : waitAfter around (attempt + i) (around.answer i) = .ok seconds)
    (refused : around.refusal seconds = some problem) :
    Exchanged request around attempt i (· = .error (.badWait problem))
      (client.exchange path request (left + 1) attempt around) := by
  have more : attempt < client.attempts := by omega
  induction i generalizing left attempt around with
  | zero =>
    have waited : client.wait (around.after 1) attempt (around.answer 0) = .ok seconds := by
      rw [wait_eq short, waitAfter_after]
      exact asked
    obtain ⟨outcome, state, deeds⟩ :=
      exchange_refused path request left (again 0 (Nat.le_refl 0)) more waited refused
    exact ⟨⟨[], rfl, deeds⟩, outcome, state⟩
  | succ i ih =>
    obtain ⟨left, rfl⟩ : ∃ rest, left = rest + 1 := Nat.exists_eq_add_of_le' (by omega)
    obtain ⟨first, waited, granted⟩ := waits 0 (Nat.succ_pos i)
    have next (j : Nat) : (around.after 1).answer j = around.answer (j + 1) := by
      rw [Surroundings.answer_after, Nat.add_comm]
    refine exchanged_again (again 0 (Nat.zero_le _)) more short waited granted ?_
    refine ih (by omega) (by omega) (fun j le => ?_) (fun j lt => ?_) ?_ refused (by omega)
    · rw [next]
      exact again (j + 1) (Nat.succ_le_succ le)
    · exact granted_after.mpr (waits (j + 1) (Nat.succ_lt_succ lt))
    · rw [waitAfter_after, next, Nat.add_assoc, Nat.add_comm 1 i]
      exact asked

/-! ## Lookups -/

/-- A variable that cannot be set is the only fault of setting variables. -/
theorem eq_of_assignAll_error {environment : Environment} {found : List (Text × Option Text)}
    {fault : Fault} (h : (Dotenv.assignAll environment found).1 = .error fault) :
    ∃ problem, fault = .badVariable problem := by
  induction found generalizing environment with
  | nil => exact nomatch h
  | cons entry more ih =>
    unfold Dotenv.assignAll at h
    split at h
    · split at h
      · exact ih h
      · exact ⟨_, (Except.error.inj h).symm⟩
    · exact ih h

/-- Setting variables from a file sends nothing, and its fault is one of the file. -/
theorem load_silent (disk : Disk) (environment : Environment) :
    (Dotenv.load disk environment).events = [] ∧
      ∀ fault, (Dotenv.load disk environment).outcome = .error fault →
        (∃ malformed, fault = .undecodable malformed) ∨
          ∃ problem, fault = .badVariable problem := by
  unfold Dotenv.load
  split
  · exact ⟨rfl, nofun⟩
  · split
    · exact ⟨rfl, nofun⟩
    · split
      · exact ⟨rfl, fun _ h => .inl ⟨_, (Except.error.inj h).symm⟩⟩
      · exact ⟨rfl, fun _ h => .inr (eq_of_assignAll_error h)⟩

/-- The fault of finding the token is one of the file that variables are set from. -/
theorem findToken_fault {client : Client} {disk : Disk} {environment : Environment} {fault : Fault}
    (h : (client.findToken disk environment).outcome = .error fault) :
    (∃ malformed, fault = .undecodable malformed) ∨ ∃ problem, fault = .badVariable problem := by
  unfold findToken at h
  split at h
  case isFalse => exact nomatch h
  case isTrue =>
    have outcome : (Token.find disk environment).outcome =
        (Dotenv.load disk environment).outcome.map fun () =>
          Token.ofEnvironment (Dotenv.load disk environment).state := rfl
    rw [outcome] at h
    cases loaded : (Dotenv.load disk environment).outcome with
    | ok found => rw [loaded] at h; exact nomatch h
    | error cause =>
      rw [loaded] at h
      rw [Except.error.inj h] at loaded
      exact (load_silent disk environment).2 _ loaded

/-- Finding the token sends nothing, and its fault is never that the attempts are used up. -/
theorem findToken_silent (client : Client) (disk : Disk) (environment : Environment) :
    (client.findToken disk environment).events = [] ∧
      ∀ asked, (client.findToken disk environment).outcome ≠ .error (.attemptsUsedUp asked) := by
  refine ⟨?_, fun asked h => (findToken_fault h).elim nofun nofun⟩
  unfold findToken
  split
  case isFalse => rfl
  case isTrue => exact (load_silent disk environment).1

/-- The request of a lookup. -/
def lookupRequest (client : Client) (path form : Text) (params : Option (List (Text × Text)))
    (token : Option Text) : HttpRequest :=
  ⟨client.apiUrl ++ path, params, headers form token, client.timeout⟩

section Lookup

variable {disk : Disk} (path form : Text) (params : Option (List (Text × Text)))

/-- The fault of finding the token is the outcome of a lookup. -/
theorem get_of_error {fault : Fault}
    (found : (client.findToken disk around.environment).outcome = .error fault) :
    let reply := client.get disk path form params around
    reply.outcome = .error fault ∧ reply.events = [] ∧ reply.state.answers = around.answers := by
  unfold get
  dsimp only
  split
  case h_1 cause other =>
    rw [Except.error.inj (found.symm.trans other)]
    exact ⟨rfl, (findToken_silent client disk around.environment).1, rfl⟩
  case h_2 token other => exact nomatch found.symm.trans other

/-- With a token, a lookup is an exchange. -/
theorem get_of_ok {token : Option Text}
    (found : (client.findToken disk around.environment).outcome = .ok token) :
    let reply := client.get disk path form params around
    let exchanged := client.exchange path (client.lookupRequest path form params token)
      client.attempts 1
      { around with environment := (client.findToken disk around.environment).state }
    reply.outcome = exchanged.outcome ∧ reply.events = exchanged.events ∧
      reply.state = exchanged.state := by
  unfold get
  dsimp only
  split
  case h_1 fault other => exact nomatch found.symm.trans other
  case h_2 other same =>
    obtain rfl : token = other := Except.ok.inj (found.symm.trans same)
    have silent := (findToken_silent client disk around.environment).1
    exact ⟨rfl, congrArg (· ++ _) silent, rfl⟩

end Lookup

/-- A lookup sends its request up to the answer that ends the exchange, and waits once between any
two requests; what that answer means is the outcome. When a wait is refused before, no more is sent
and that is the outcome. When no token can be looked for, nothing is sent. The attempts are never
used up without an answer. -/
theorem get_exchanges (client : Client) (some_attempt : 1 ≤ client.attempts) (disk : Disk)
    (path form : Text) (params : Option (List (Text × Text))) (around : Surroundings) :
    let found := client.findToken disk around.environment
    let known : Surroundings := { around with environment := found.state }
    let reply := client.get disk path form params around
    (∀ asked, reply.outcome ≠ .error (.attemptsUsedUp asked)) ∧
      (∀ fault, found.outcome = .error fault →
        reply.outcome = .error fault ∧ Event.deeds reply.events = [] ∧
          reply.state.answers = around.answers) ∧
      ∃ last, EndsAt around.answer client.attempts last ∧
        ∀ token, found.outcome = .ok token →
          (last = 0 ∨ Numeral.isTooLong client.attempts = false) →
          let request := client.lookupRequest path form params token
          ((∀ i < last, Granted known 1 i) →
            Exchanged request known 1 last (Means path request.url (around.answer last)) reply) ∧
          ∀ i < last, (∀ j < i, Granted known 1 j) → ∀ seconds problem,
            waitAfter known (1 + i) (around.answer i) = .ok seconds →
            known.refusal seconds = some problem →
            Exchanged request known 1 i (· = .error (.badWait problem)) reply := by
  intro found known reply
  obtain ⟨left, count⟩ : ∃ left, client.attempts = left + 1 :=
    Nat.exists_eq_add_of_le' some_attempt
  have from_first : 1 + left = client.attempts := by omega
  cases outcome : found.outcome with
  | error fault =>
    obtain ⟨ends, events, state⟩ := get_of_error path form params outcome
    have silent := (findToken_silent client disk around.environment).2
    obtain ⟨last, ends_at, -⟩ := exchange_exchanged
      (client.lookupRequest path form params none) around left from_first rfl
    refine ⟨fun asked => ?_, ?_, last, count ▸ ends_at, nofun⟩
    · rw [ends]
      rintro ⟨⟩
      exact silent asked outcome
    · rintro _ ⟨⟩
      exact ⟨ends, congrArg Event.deeds events, state⟩
  | ok token =>
    let request := client.lookupRequest path form params token
    obtain ⟨ends, events, state⟩ := get_of_ok path form params outcome
    rw [count] at ends events state
    have same {last : Nat} {ending : Except Fault Response → Prop}
        (h : Exchanged request known 1 last ending
          (client.exchange path request (left + 1) 1 known)) :
        Exchanged request known 1 last ending reply := by
      obtain ⟨waits, each, deeds⟩ := h.deeds
      exact ⟨⟨waits, each, (congrArg Event.deeds events).trans deeds⟩, ends ▸ h.outcome,
        state.trans h.state⟩
    obtain ⟨last, ends_at, exchanged⟩ := exchange_exchanged request known left from_first rfl
    refine ⟨fun asked => ?_, nofun, last, count ▸ ends_at, ?_⟩
    · exact ends ▸ exchange_ne_attemptsUsedUp left from_first asked
    · rintro _ ⟨⟩ short
      refine ⟨fun waits => same (exchanged waits short), ?_⟩
      intro i early waits seconds problem asked refused
      have allowed := ends_at.allowed
      exact same (exchange_broken request from_first (by omega)
        (short.resolve_left (Nat.ne_of_gt (Nat.zero_lt_of_lt early)))
        (fun j before => ends_at.before j (Nat.lt_of_le_of_lt before early)) waits asked refused)

/-- No answer, then a service that is broken for now, then the content: it takes three requests. -/
theorem get_exchanges_third :
    let client : Client := { Client.usual with token := "t" }
    let content : Response := ⟨200, "OK", [], [65]⟩
    let around : Surroundings :=
      ⟨⟨[]⟩, [], [.failed "ReadTimeout" "slow", .received ⟨503, "Busy", [], []⟩, .received content],
        0, 0, Surroundings.usualRefusal⟩
    let reply := client.get ⟨[], []⟩ "/x" rawForm none around
    (∃ waits, waits.length = 2 ∧ Event.deeds reply.events =
      exchangeDeeds (client.lookupRequest "/x" rawForm none (some "t".toList)) waits) ∧
      reply.outcome = .ok content := by
  intro client content around reply
  obtain ⟨-, -, last, ends, exchanged⟩ :=
    get_exchanges client (by decide) ⟨[], []⟩ "/x" rawForm none around
  have third : EndsAt around.answer client.attempts 2 := by
    refine ⟨by decide, ?_, .inr fun again => ?_⟩
    · rintro (_ | _ | i) early
      · exact .failed "ReadTimeout" "slow"
      · exact .busy _ (by decide)
      · omega
    · exact absurd ((isTransient_iff _).mpr again) (by decide)
  obtain rfl : last = 2 := ends.unique third
  obtain ⟨⟨waits, each, deeds⟩, means, -⟩ :=
    (exchanged (some "t".toList) rfl (.inr (by decide +kernel))).1 (by
      rintro (_ | _ | i) early
      · exact ⟨_, rfl, by decide +kernel⟩
      · exact ⟨_, rfl, by decide +kernel⟩
      · omega)
  refine ⟨⟨waits, ?_, deeds⟩, ?_⟩
  · have length := congrArg List.length each
    rwa [List.length_map, List.length_map, List.length_range] at length
  · exact means.unique (.returned content (.inl (by decide)))

/-- A file that is no text is in the way of the token, so nothing is sent though an answer would
come. When the number of attempts is too long to be written, or when the service asks for a wait of
more than three hundred years, a request is not sent again though there is a wait. -/
theorem not_sent :
    let found : Response := ⟨404, "Not Found", [], []⟩
    let busy : Response := ⟨503, "Busy", [("Retry-After", "1e10")], []⟩
    let content : Response := ⟨200, "OK", [], [65]⟩
    let unreadable : Disk := ⟨[], [([".env"], .file [0xFF])]⟩
    let around (answers : List Answer) : Surroundings :=
      ⟨⟨[]⟩, [], answers, 0, 0, Surroundings.usualRefusal⟩
    let usual : Client := { Client.usual with token := "t" }
    let countless : Client := { usual with attempts := Nat.pow 10 4300 }
    let answers := around [.received found]
    let later := around [.failed "ReadTimeout" "slow", .received content]
    let patient := around [.received busy, .received content]
    let unsent := Client.usual.get unreadable "/x" rawForm none answers
    let unrepeated := countless.get ⟨[], []⟩ "/x" rawForm none later
    let unwaited := usual.get ⟨[], []⟩ "/x" rawForm none patient
    EndsAt answers.answer Client.usual.attempts 0 ∧ Event.deeds unsent.events = [] ∧
      EndsAt later.answer countless.attempts 1 ∧
      (∃ seconds, waitAfter later 1 (later.answer 0) = .ok seconds) ∧
      (Event.deeds unrepeated.events).length = 1 ∧
      EndsAt patient.answer usual.attempts 1 ∧
      (∃ seconds, waitAfter patient 1 (patient.answer 0) = .ok seconds) ∧
      (Event.deeds unwaited.events).length = 1 := by
  intro found busy content unreadable around usual countless answers later patient unsent
    unrepeated unwaited
  have second : ¬ Transient (.received content) :=
    fun again => absurd ((isTransient_iff _).mpr again) (by decide)
  have final : ¬ Transient (answers.answer 0) :=
    fun again => absurd ((isTransient_iff _).mpr again) (by decide)
  have unread : Event.deeds unsent.events = [] :=
    List.eq_nil_of_length_eq_zero (by decide +kernel)
  have ends {answers : Nat → Answer} {most : Nat} (allowed : 1 < most)
      (first : Transient (answers 0)) (last : answers 1 = .received content) :
      EndsAt answers most 1 := by
    refine ⟨allowed, ?_, .inr (last ▸ second)⟩
    rintro (_ | i) early
    · exact first
    · omega
  exact ⟨.first (.inr final) (by decide), unread,
    ends (by decide +kernel) (.failed "ReadTimeout" "slow") rfl, ⟨_, rfl⟩, by decide +kernel,
    ends (by decide) (.busy busy (by decide)) rfl, ⟨_, rfl⟩, by decide +kernel⟩

end Client

end Github

end WorkflowInstall

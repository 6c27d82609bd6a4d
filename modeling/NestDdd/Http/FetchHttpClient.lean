import NestDdd.Http.CircuitBreaker
import NestDdd.Shared.JsValue

/-!
# Http — requests through the breaker

`FetchHttpClient.request` (`src/infrastructure/http/fetch-http.client.ts`) for any number of
requests to one origin, with the breaker on: each attempt asks the breaker, and if it is admitted
settles with a response or an error, records that, and is followed by a return, a throw or another
attempt.  How long an attempt or the wait before one takes, and how it settles, is in the labels.

* `Inv.step`: a step of the client is a step of the breaker.
* `never_wedges`: every admitted attempt records one result; the breaker counts failures, opens
  and admits trials as it should; and it admits the next attempt once it has been open long enough.
-/

namespace NestDdd.Http

open Runs

/-! ### Requests -/

inductive HttpMethod where
  | get
  | head
  | options
  | put
  | delete
  | post
  | patch
  deriving DecidableEq

/-- What `request` reads of a request, apart from what it sends. -/
structure HttpRequest where
  method : HttpMethod
  tag : String
  timeoutMs : Option Int
  retries : Option Int
  idempotent : Option Bool

structure HttpResponse where
  status : Int
  headers : List (String × String)
  body : JsValue

inductive HttpClientError where
  | circuitOpen (target : String) (retryInMs : Int)
  | upstreamTimeout (tag : String) (timeoutMs : Int)
  | upstreamUnavailable (tag : String)

/-- What the client reads of its configuration, for one origin. -/
structure HttpClientConfig where
  target : String
  timeoutMs : Int
  retries : Int
  circuit : CircuitBreakerOptions

/-- The defaults of `httpClientSchema`. -/
def HttpClientConfig.defaults (target : String) : HttpClientConfig := ⟨target, 5000, 2, .defaults⟩

def idempotentMethods : List HttpMethod := [.get, .head, .options, .put, .delete]

def retryableStatuses : List Int := [408, 425, 429, 500, 502, 503, 504]

def isIdempotent (method : HttpMethod) (explicit : Option Bool) : Bool :=
  explicit.getD (method ∈ idempotentMethods)

def isRetryableStatus (status : Int) : Bool := status ∈ retryableStatuses

/-- How `attempt` settles: with a response, or with an error, which is a timeout if the controller
has aborted. -/
inductive Outcome where
  | ok (response : HttpResponse)
  | failed (aborted : Bool)

/-- Where a request is: about to make an attempt, now or after a delay; waiting for one to settle;
refused by the breaker; or settled after one. -/
inductive RequestPhase where
  | entering (attempt : Nat)
  | inFlight (attempt : Nat)
  | refused (attempt : Nat) (error : HttpClientError)
  | returned (attempt : Nat) (response : HttpResponse)
  | threw (attempt : Nat) (error : HttpClientError)

section

variable (config : HttpClientConfig) (request : HttpRequest)

def HttpRequest.error (aborted : Bool) : HttpClientError :=
  if aborted then .upstreamTimeout request.tag (request.timeoutMs.getD config.timeoutMs)
  else .upstreamUnavailable request.tag

/-- How the loop goes on once an attempt has settled. -/
def HttpRequest.afterAttempt (attempt : Nat) (outcome : Outcome) : RequestPhase :=
  let retries := request.retries.getD config.retries
  let retryable := isIdempotent request.method request.idempotent
  match outcome with
  | .ok response =>
      let canRetry := retryable && attempt < retries && isRetryableStatus response.status
      if !canRetry then .returned attempt response else .entering (attempt + 1)
  | .failed aborted =>
      if !retryable || attempt ≥ retries then .threw attempt (request.error config aborted)
      else .entering (attempt + 1)

end

/-! ### Requests to one origin -/

structure ClientState where
  circuit : BreakerState (ℕ × ℕ)
  phase : ℕ → RequestPhase

/-- No request has made its first attempt. -/
def ClientState.fresh (now : Int) : ClientState := ⟨.fresh now, fun _ => .entering 0⟩

inductive ClientLabel where
  | tick (d : Nat)
  | ask (r : ℕ)
  | settle (r : ℕ) (outcome : Outcome)

section

variable (config : HttpClientConfig) (reqs : ℕ → HttpRequest)

/-- `recordFailure` or `recordSuccess`, for an attempt that settled. -/
def Outcome.record (circuit : BreakerState (ℕ × ℕ)) (i : ℕ × ℕ) :
    Outcome → BreakerState (ℕ × ℕ)
  | .ok response =>
      if response.status ≥ 500 then circuit.fail config.circuit i else circuit.succeed i
  | .failed _ => circuit.fail config.circuit i

def clientStep (s : ClientState) : ClientLabel → Option ClientState
  | .tick d => some { s with circuit := { s.circuit with now := s.circuit.now + d } }
  | .ask r =>
      match s.phase r with
      | .entering k =>
          let (blockedForMs, circuit) := s.circuit.ask config.circuit (r, k)
          let phase :=
            match blockedForMs with
            | some ms => .refused k (.circuitOpen config.target ms)
            | none => .inFlight k
          some ⟨circuit, Function.update s.phase r phase⟩
      | _ => none
  | .settle r outcome =>
      match s.phase r with
      | .inFlight k =>
          some ⟨outcome.record config s.circuit (r, k),
            Function.update s.phase r ((reqs r).afterAttempt config k outcome)⟩
      | _ => none

def clients : Machine ClientState ClientLabel := ⟨clientStep config reqs⟩

end

/-! ### Attempts -/

/-- How many attempts of a request were admitted. -/
def RequestPhase.attempts : RequestPhase → Nat
  | .entering k | .refused k _ => k
  | .inFlight k | .returned k _ | .threw k _ => k + 1

/-- How often a request has had its attempt `k` admitted. -/
def RequestPhase.made (p : RequestPhase) (k : Nat) : Nat := if k < p.attempts then 1 else 0

variable {config : HttpClientConfig} {reqs : ℕ → HttpRequest} {s s' : ClientState} {r k : ℕ}
  {l : ClientLabel}

theorem RequestPhase.made_next {k' : Nat} :
    (RequestPhase.inFlight k).made k' = (RequestPhase.entering k).made k' +
      if k = k' then 1 else 0 := by
  show (if k' < k + 1 then 1 else 0) = (if k' < k then 1 else 0) + if k = k' then 1 else 0
  rcases Nat.lt_trichotomy k' k with hk | rfl | hk
  · rw [if_pos (by omega), if_pos hk, if_neg (by omega)]
  · rw [if_pos (by omega), if_neg (by omega), if_pos rfl]
  · rw [if_neg (by omega), if_neg (by omega), if_neg (by omega)]

/-- A request goes on after the attempt it made. -/
theorem afterAttempt_attempts (request : HttpRequest) (outcome : Outcome) :
    (request.afterAttempt config k outcome).attempts = k + 1 ∧
      ∀ k', request.afterAttempt config k outcome ≠ .inFlight k' := by
  cases outcome with
  | ok response =>
      simp only [HttpRequest.afterAttempt]
      split <;> exact ⟨rfl, fun _ h => nomatch h⟩
  | failed aborted =>
      simp only [HttpRequest.afterAttempt]
      split <;> exact ⟨rfl, fun _ h => nomatch h⟩

/-- The attempts a request has made were admitted once each, and have recorded one result each,
save the one in flight. -/
structure ClientState.Inv (config : HttpClientConfig) (s : ClientState) : Prop where
  circuit : s.circuit.Inv config.circuit
  admissions : ∀ r k, s.circuit.past.admissions (r, k) = (s.phase r).made k
  records : ∀ r k, s.phase r ≠ .inFlight k →
    s.circuit.past.records (r, k) = s.circuit.past.admissions (r, k)
  inFlight : ∀ r k, s.phase r = .inFlight k → s.circuit.past.records (r, k) = 0

namespace ClientState

theorem Inv.fresh {now : Int} : (ClientState.fresh now).Inv config where
  circuit := .fresh
  admissions _ _ := rfl
  records _ _ _ := rfl
  inFlight _ _ h := nomatch h

section

variable (hi : s.Inv config)

include hi

theorem Inv.made_inFlight (h : s.phase r = .inFlight k) :
    s.circuit.past.admissions (r, k) = 1 := by
  rw [hi.admissions, h]
  exact if_pos (Nat.lt_succ_self k)

theorem Inv.inFlight_iff : s.circuit.InFlight (r, k) ↔ s.phase r = .inFlight k := by
  unfold BreakerState.InFlight
  refine ⟨fun h => ?_, fun h => ?_⟩
  · by_contra hne
    rw [hi.records r k hne] at h
    exact lt_irrefl _ h
  · rw [hi.inFlight r k h, hi.made_inFlight h]
    exact Nat.one_pos

/-- An attempt that a request is about to make has not been admitted. -/
theorem Inv.unasked (h : s.phase r = .entering k) : s.circuit.past.admissions (r, k) = 0 := by
  rw [hi.admissions, h]
  exact if_neg (Nat.lt_irrefl k)

/-- An attempt is admitted. -/
theorem Inv.admitted (h : s.phase r = .entering k) {circuit : BreakerState (ℕ × ℕ)}
    (hc : circuit.Inv config.circuit)
    (hpast : ∀ j, circuit.past.records j = s.circuit.past.records j ∧
      circuit.past.admissions j = s.circuit.past.admissions j + if (r, k) = j then 1 else 0) :
    Inv config ⟨circuit, Function.update s.phase r (.inFlight k)⟩ := by
  refine ⟨hc, fun r' k' => ?_, fun r' k' hne => ?_, fun r' k' hp => ?_⟩
  · rw [(hpast _).2, hi.admissions]
    dsimp only
    by_cases hr : r' = r
    · subst hr
      rw [Function.update_self, h, RequestPhase.made_next]
      simp only [Prod.mk.injEq, true_and]
    · rw [Function.update_of_ne hr, if_neg fun h => hr (Prod.mk.inj h).1.symm, Nat.add_zero]
  · have hk : (r, k) ≠ (r', k') := fun h => hne (by cases h; exact Function.update_self ..)
    rw [(hpast _).1, (hpast _).2, if_neg hk, Nat.add_zero]
    dsimp only at hne
    refine hi.records r' k' fun hp => ?_
    by_cases hr : r' = r
    · rw [hr, h] at hp; cases hp
    · rw [Function.update_of_ne hr] at hne; exact hne hp
  · rw [(hpast _).1]
    dsimp only at hp
    by_cases hr : r' = r
    · subst hr
      rw [Function.update_self] at hp
      cases hp
      rw [hi.records r' k (by rw [h]; exact fun h => nomatch h), hi.unasked h]
    · rw [Function.update_of_ne hr] at hp
      exact hi.inFlight r' k' hp

/-- An attempt settles. -/
theorem Inv.settled (h : s.phase r = .inFlight k) {circuit : BreakerState (ℕ × ℕ)}
    {phase : RequestPhase} (hc : circuit.Inv config.circuit)
    (hpast : ∀ j, circuit.past.records j =
        s.circuit.past.records j + (if (r, k) = j then 1 else 0) ∧
      circuit.past.admissions j = s.circuit.past.admissions j)
    (hp : phase.attempts = k + 1 ∧ ∀ k', phase ≠ .inFlight k') :
    Inv config ⟨circuit, Function.update s.phase r phase⟩ := by
  refine ⟨hc, fun r' k' => ?_, fun r' k' hne => ?_, fun r' k' hp' => ?_⟩
  · rw [(hpast _).2, hi.admissions]
    dsimp only
    by_cases hr : r' = r
    · rw [hr, Function.update_self, h, RequestPhase.made, RequestPhase.made, hp.1]
      rfl
    · rw [Function.update_of_ne hr]
  · rw [(hpast _).1, (hpast _).2]
    dsimp only at hne
    by_cases hk : (r, k) = (r', k')
    · cases hk
      rw [if_pos rfl, hi.inFlight r k h, hi.made_inFlight h]
    · rw [if_neg hk, Nat.add_zero]
      refine hi.records r' k' fun hp' => ?_
      by_cases hr : r' = r
      · rw [hr, h] at hp'
        cases hp'
        exact hk (by rw [hr])
      · rw [Function.update_of_ne hr] at hne; exact hne hp'
  · dsimp only at hp'
    by_cases hr : r' = r
    · rw [hr, Function.update_self] at hp'
      exact absurd hp' (hp.2 k')
    · rw [Function.update_of_ne hr] at hp'
      rw [(hpast _).1, if_neg fun h => hr (Prod.mk.inj h).1.symm, Nat.add_zero]
      exact hi.inFlight r' k' hp'

/-- A refused request has made its attempts. -/
theorem Inv.refused (h : s.phase r = .entering k) (error : HttpClientError) :
    Inv config { s with phase := Function.update s.phase r (.refused k error) } := by
  have hphase : ∀ {r' k'}, Function.update s.phase r (.refused k error) r' = .inFlight k' ↔
      s.phase r' = .inFlight k' := by
    intro r' k'
    by_cases hr : r' = r
    · rw [hr, Function.update_self, h]
      exact ⟨fun h => (nomatch h), fun h => (nomatch h)⟩
    · rw [Function.update_of_ne hr]
  refine ⟨hi.circuit, fun r' k' => ?_,
    fun r' k' hne => hi.records r' k' fun h => hne (hphase.mpr h),
    fun r' k' hp => hi.inFlight r' k' (hphase.mp hp)⟩
  rw [hi.admissions]
  dsimp only
  by_cases hr : r' = r
  · rw [hr, Function.update_self, h]; rfl
  · rw [Function.update_of_ne hr]

end

/-- A step of the client is a step of the breaker. -/
theorem Inv.step (hi : s.Inv config) (h : (clients config reqs).step s l = some s') :
    s'.Inv config ∧ ∃ k, (breakers config.circuit).step s.circuit k = some s'.circuit := by
  cases l with
  | tick d =>
      cases h
      have hstep : (breakers config.circuit).step s.circuit (.tick d) =
          some { s.circuit with now := s.circuit.now + d } := rfl
      exact ⟨⟨hi.circuit.step hstep, hi.admissions, hi.records, hi.inFlight⟩, _, hstep⟩
  | ask r =>
      simp only [clients, clientStep] at h
      split at h
      next k hp =>
        cases h
        have hstep : (breakers config.circuit).step s.circuit (.call (r, k)) =
            some (s.circuit.ask config.circuit (r, k)).2 := if_pos (hi.unasked hp)
        refine ⟨?_, _, hstep⟩
        cases hb : (s.circuit.ask config.circuit (r, k)).1 with
        | none => exact hi.admitted hp (hi.circuit.step hstep) (BreakerState.ask_admitted hb)
        | some ms =>
            rw [BreakerState.ask_blocked hb]
            exact hi.refused hp _
      next => cases h
  | settle r outcome =>
      simp only [clients, clientStep] at h
      split at h
      next k hp =>
        cases h
        have hf := hi.inFlight_iff.mpr hp
        have hnext := @afterAttempt_attempts config k (reqs r) outcome
        have hfail : (breakers config.circuit).step s.circuit (.failure (r, k)) =
            some (s.circuit.fail config.circuit (r, k)) := if_pos hf
        have hsucc : (breakers config.circuit).step s.circuit (.success (r, k)) =
            some (s.circuit.succeed (r, k)) := if_pos hf
        have failed := hi.settled hp (hi.circuit.step hfail) BreakerState.fail_recorded hnext
        cases outcome with
        | failed aborted => exact ⟨failed, _, hfail⟩
        | ok response =>
            -- a response of 500 or more counts as a failure too
            simp only [Outcome.record]
            split
            · exact ⟨failed, _, hfail⟩
            · exact ⟨hi.settled hp (hi.circuit.step hsucc) BreakerState.succeed_recorded hnext,
                _, hsucc⟩
      next => cases h

/-- What holds of a client at any time. -/
structure Healthy (config : HttpClientConfig) (reqs : ℕ → HttpRequest) (s : ClientState) :
    Prop where
  /-- An attempt in flight was admitted once, and has recorded nothing. -/
  inFlight : ∀ r k, s.phase r = .inFlight k →
    s.circuit.past.admissions (r, k) = 1 ∧ s.circuit.past.records (r, k) = 0
  /-- Any other attempt has recorded a result if it was admitted. -/
  recorded : ∀ r k, s.phase r ≠ .inFlight k → s.circuit.past.admissions (r, k) ≤ 1 ∧
    s.circuit.past.records (r, k) = s.circuit.past.admissions (r, k)
  counts : s.circuit.breaker.state = .closed →
    s.circuit.breaker.failures = s.circuit.past.failuresSinceSuccess
  opens : s.circuit.breaker.state = .closed → ∀ l s', (clients config reqs).step s l = some s' →
    s'.circuit.breaker.state ≠ .halfOpen ∧ (s'.circuit.breaker.state = .opened ↔
      s'.circuit.past.failuresSinceSuccess = config.circuit.failureThreshold)
  /-- A half-open period has admitted one attempt, which is in flight. -/
  trial : s.circuit.breaker.state = .halfOpen →
    ∃ r k, s.circuit.past.admittedSinceHalfOpened = [(r, k)] ∧ s.phase r = .inFlight k
  admits : (∀ r k, s.phase r ≠ .inFlight k) →
    (∀ t, .opened t ∈ s.circuit.past → t + config.circuit.resetMs ≤ s.circuit.now) →
      (s.circuit.breaker.blockedForMs config.circuit s.circuit.now).1 = none

theorem Inv.healthy (hi : s.Inv config) : s.Healthy config reqs where
  inFlight r k h := ⟨hi.made_inFlight h, hi.inFlight r k h⟩
  recorded r k h := ⟨(hi.circuit.once (r, k)).2, hi.records r k h⟩
  counts h := (hi.circuit.counts h).1
  opens h l s' hstep := by
    obtain ⟨-, k, hk⟩ := hi.step hstep
    exact hi.circuit.opens_iff hk h
  trial h := by
    obtain ⟨-, ⟨r, k⟩, hone, hf⟩ := hi.circuit.trial h
    exact ⟨r, k, hone, hi.inFlight_iff.mp hf⟩
  admits hidle hreset :=
    hi.circuit.admits_after_reset (fun i hf => hidle i.1 i.2 (hi.inFlight_iff.mp hf)) hreset

end ClientState

/-- **The breaker never wedges, and trials one call at a time.**  However many requests are made to
an origin, and however they are interleaved and settle: every admitted attempt records one result;
while it is closed the breaker counts the failures since the last success, and it opens when they
reach the threshold; a half-open period admits one attempt, which has yet to record its result; and
with no attempt in flight, the next one is admitted once `resetMs` has passed since the breaker last
opened. -/
theorem never_wedges {now : Int} {ls : List ClientLabel}
    (r : Run (clients config reqs) Free (.fresh now) ls s) : s.Healthy config reqs :=
  ((@Run.invariant _ _ _ _ _ _ _ (ClientState.Inv config) .fresh
    (fun _ _ _ hi h _ => (hi.step h).1)) r).healthy

/-- Three requests to an upstream that times out: the fifth timeout opens the breaker, which refuses
the next attempt, and admits one as a trial once it has been open long enough. -/
def timeouts : List ClientLabel :=
  [.ask 0, .settle 0 (.failed true), .ask 0, .settle 0 (.failed true), .ask 0,
    .settle 0 (.failed true), .ask 1, .settle 1 (.failed true), .ask 1, .settle 1 (.failed true),
    .ask 1, .tick 30000, .ask 2]

theorem never_wedges_timeouts :
    ∃ s, (clients (.defaults "https://accounts.internal")
        fun _ => ⟨.get, "accounts.get", none, none, none⟩).exec (.fresh 0) timeouts = some s ∧
      s.phase 0 = .threw 2 (.upstreamTimeout "accounts.get" 5000) ∧
      s.phase 1 = .refused 2 (.circuitOpen "https://accounts.internal" 30000) ∧
      s.circuit.breaker.state = .halfOpen ∧
      s.Healthy (.defaults "https://accounts.internal")
        fun _ => ⟨.get, "accounts.get", none, none, none⟩ :=
  ⟨_, rfl, rfl, rfl, rfl, @never_wedges _ _ _ 0 timeouts (.of_exec rfl fun _ _ _ _ => trivial)⟩

end NestDdd.Http

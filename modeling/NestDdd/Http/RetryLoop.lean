import Mathlib.Algebra.Order.Floor.Ring
import Mathlib.Data.Rat.Floor
import NestDdd.Http.FetchHttpClient
import NestDdd.Runs.Async
import NestDdd.Shared.Binary64
import NestDdd.Shared.Timers

/-!
# Http — the retry loop

`FetchHttpClient.request` (`src/infrastructure/http/fetch-http.client.ts`) for one request with a
valid URL, from its first attempt to its outcome, with everything it logs, counts and waits for;
`parseRetryAfter` and `retryDelayMs` follow `src/infrastructure/http/retry-policy.util.ts`.  What
the breaker says, how an attempt settles, what the clock reads and what is drawn at random are up to
the environment.  `Number` and `Date.parse` are those of the `Platform`; a number of milliseconds is
a rational, and a product is rounded to a double.  A wait is as long as its timer runs.

* `turn_cases`: one turn of the loop is a `Round`, after which the loop goes on, or its `Ending`.
* `run_cases`: a whole run is rounds, no more than it may make, and then an ending.
* `request_settles_iff`: the loop ends, with what its last turn came to, after no more attempts than
  it may make, and counts what it did; it waits as it was asked to if a timer keeps that wait.
-/

namespace NestDdd.Http

open Runs Runs.Async

/-! ### The retry policy -/

/-- `Number(s)`, and `Date.parse(s)` unless that is `NaN`. -/
structure Platform where
  number : String → JsNumber
  dateParse : String → Option Int

def parseRetryAfter (platform : Platform) (header : Option String) (now : Int) : Option Rat :=
  match header with
  | none => none
  | some header =>
      if header = "" then none
      else
        match platform.number header with
        -- what is rounded to no double is longer than any wait
        | .finite seconds => some (Binary64.nearest (max 0 (seconds * 1000)))
        | .negativeZero => some 0
        | .nan | .infinity _ =>
            (platform.dateParse header).map fun date => max 0 ((date : Rat) - now)

/-- What the loop reads of `httpClientSchema`, for one origin. -/
structure RetryConfig extends HttpClientConfig where
  circuitEnabled : Bool
  retryBaseMs : ℕ
  retryJitterMs : ℕ
  retryMaxDelayMs : ℕ
  retryMaxDelayMs_pos : 0 < retryMaxDelayMs

/-- The defaults of `httpClientSchema`. -/
def RetryConfig.defaults (target : String) : RetryConfig where
  toHttpClientConfig := .defaults target
  circuitEnabled := true
  retryBaseMs := 200
  retryJitterMs := 150
  retryMaxDelayMs := 5000
  retryMaxDelayMs_pos := by decide

/-- What `Math.random()` returns. -/
def UnitInterval := { q : Rat // 0 ≤ q ∧ q < 1 }

def HttpMethod.name : HttpMethod → String
  | .get => "GET"
  | .head => "HEAD"
  | .options => "OPTIONS"
  | .put => "PUT"
  | .delete => "DELETE"
  | .post => "POST"
  | .patch => "PATCH"

/-! ### What the loop calls -/

inductive HttpMetric where
  | httpClientRequests
  | httpClientDuration
  | httpClientRetries
  | httpClientCircuitOpen
  deriving DecidableEq

inductive LogLevel where
  | debug
  | warn
  | error
  deriving DecidableEq

/-- What the loop asks of the breaker, the clock, `fetch`, the metrics and the logger.  `attempt` is
the method of that name: it fails alike for a timeout, a connection that is lost and a body that
cannot be read. -/
inductive HttpCall where
  | blockedForMs
  | dateNow
  | random
  | attempt
  | recordFailure
  | recordSuccess
  | increment (metric : HttpMetric) (labels : List (String × String))
  | observe (metric : HttpMetric) (value : Rat) (labels : List (String × String))
  | log (level : LogLevel) (message : String) (fields : List (String × JsValue))
  | setTimeout (ms : Rat)

abbrev HttpCall.Reply : HttpCall → Type
  | .blockedForMs => Option Int
  | .dateNow => Int
  | .random => UnitInterval
  | .attempt => Outcome
  | .recordFailure | .recordSuccess | .increment _ _ | .observe _ _ _ | .log _ _ _
  | .setTimeout _ => Unit

/-- Nothing that the loop calls is rejected. -/
abbrev HttpM := Async HttpCall.Reply Empty

abbrev HttpEvent := Event HttpCall.Reply Empty

abbrev HttpEnv := Env HttpCall.Reply Empty

/-- What `request` settles with. -/
abbrev Settled := Except HttpClientError HttpResponse

section Loop

variable (platform : Platform) (config : RetryConfig) (request : HttpRequest)

def retries : Int := request.retries.getD config.retries

def retryable : Bool := isIdempotent request.method request.idempotent

/-- `breaker?.blockedForMs()`. -/
def blockedForMs : HttpM (Option Int) :=
  if config.circuitEnabled then call HttpCall.blockedForMs else pure none

/-- `breaker?.recordFailure()`. -/
def recordFailure : HttpM Unit :=
  if config.circuitEnabled then note HttpCall.recordFailure () else pure ()

/-- `breaker?.recordSuccess()`. -/
def recordSuccess : HttpM Unit :=
  if config.circuitEnabled then note HttpCall.recordSuccess () else pure ()

/-- 5xx counts against the upstream's health; a 4xx is this request's problem. -/
def recordResponse (response : HttpResponse) : HttpM Unit :=
  if response.status ≥ 500 then recordFailure config else recordSuccess config

def labels : List (String × String) := [("tag", request.tag), ("target", config.target)]

/-- A number as a property. -/
def numberValue (n : Int) : JsValue := .number (.finite n)

def rationalValue (q : Rat) : JsValue := .number (.finite q)

/-- The properties that every line of the log begins with. -/
def logged (fields : List (String × JsValue)) : List (String × JsValue) :=
  [("tag", .string request.tag), ("target", .string config.target)] ++ fields

def retryDelayMs (attempt : ℕ) (retryAfterMs : Option Rat) : HttpM Rat :=
  match retryAfterMs with
  | some ms => pure (min ms config.retryMaxDelayMs)
  | none => do
      let random : UnitInterval ← call HttpCall.random
      let backoff : Rat := 2 ^ attempt * config.retryBaseMs
      let jitter : Rat := ⌊Binary64.nearest (random.1 * config.retryJitterMs)⌋
      pure (min (backoff + jitter) config.retryMaxDelayMs)

def delay (ms : Rat) : HttpM Unit := note (HttpCall.setTimeout ms) ()

/-- `cause` is a status, with what its `Retry-After` says, or a reason. -/
def waitBeforeRetry (attempt : ℕ) (cause : String × JsValue) (retryAfterMs : Option Rat) :
    HttpM Unit := do
  let waitMs ← retryDelayMs config attempt retryAfterMs
  note (HttpCall.increment .httpClientRetries (labels config request)) ()
  note (HttpCall.log .warn "http.client.retry" (logged config request
    [("method", .string request.method.name), ("attempt", numberValue (attempt + 1)),
      ("waitMs", rationalValue waitMs), cause])) ()
  delay waitMs

def record (outcome : String) (durationMs : Int) : HttpM Unit := do
  note (HttpCall.increment .httpClientRequests
    (labels config request ++ [("outcome", outcome)])) ()
  note (HttpCall.observe .httpClientDuration ((durationMs : Rat) / 1000)
    (labels config request)) ()

def log (status durationMs : Int) (attempt : ℕ) : HttpM Unit :=
  note (HttpCall.log (if status ≥ 500 then .error else .debug) "http.client.response"
    (logged config request [("method", .string request.method.name),
      ("status", numberValue status), ("durationMs", numberValue durationMs),
      ("attempts", numberValue (attempt + 1))])) ()

/-- The breaker is open. -/
def refuse (ms : Int) : HttpM (Option Settled) := do
  note (HttpCall.log .warn "http.client.circuit.open"
    (logged config request [("retryInMs", numberValue ms)])) ()
  note (HttpCall.increment .httpClientCircuitOpen (labels config request)) ()
  pure (some (.error (.circuitOpen config.target ms)))

/-- `if (outcome.ok)`, with what `continue` goes on to. -/
def onResponse (attempt : ℕ) (response : HttpResponse) (durationMs : Int)
    (next : HttpM (Option Settled)) : HttpM (Option Settled) := do
  recordResponse config response
  let canRetry := retryable request && attempt < retries config request &&
    isRetryableStatus response.status
  if !canRetry then
    log config request response.status durationMs attempt
    record config request (toString response.status) durationMs
    pure (some (.ok response))
  else
    let now : Int ← call HttpCall.dateNow
    waitBeforeRetry config request attempt ("status", numberValue response.status)
      (parseRetryAfter platform (response.headers.lookup "retry-after") now)
    next

/-- The rest of the body of the loop. -/
def onFailure (attempt : ℕ) (aborted : Bool) (durationMs : Int)
    (next : HttpM (Option Settled)) : HttpM (Option Settled) := do
  recordFailure config
  if !retryable request || attempt ≥ retries config request then
    let reason := if aborted then "timeout" else "transport"
    note (HttpCall.log .error "http.client.failed" (logged config request
      [("method", .string request.method.name), ("durationMs", numberValue durationMs),
        ("attempts", numberValue (attempt + 1)), ("reason", .string reason)])) ()
    record config request reason durationMs
    pure (some (.error (request.error config.toHttpClientConfig aborted)))
  else
    waitBeforeRetry config request attempt ("reason", .string "transport") none
    next

/-- The loop of `request`, from one attempt on; `none` when it is not done after so many turns. -/
def requestLoop : (turns : ℕ) → (attempt : ℕ) → HttpM (Option Settled)
  | 0, _ => pure none
  | turns + 1, attempt => do
      let blocked ← blockedForMs config
      match blocked with
      | some ms => refuse config request ms
      | none =>
          let startedAt : Int ← call HttpCall.dateNow
          let outcome : Outcome ← call HttpCall.attempt
          let endedAt : Int ← call HttpCall.dateNow
          match outcome with
          | .ok response =>
              onResponse platform config request attempt response (endedAt - startedAt)
                (requestLoop turns (attempt + 1))
          | .failed aborted =>
              onFailure config request attempt aborted (endedAt - startedAt)
                (requestLoop turns (attempt + 1))

end Loop

/-! ### What a run shows -/

/-- What of a trace the claims on the loop are about. -/
inductive Observation where
  | asked (blockedForMs : Option Int)
  | clock (ms : Int)
  | sent (outcome : Outcome)
  | counted (metric : HttpMetric)
  | waited (ms : ℕ)

def observation : HttpEvent → Option Observation
  | ⟨.blockedForMs, .ok blocked⟩ => some (.asked blocked)
  | ⟨.dateNow, .ok ms⟩ => some (.clock ms)
  | ⟨.attempt, .ok outcome⟩ => some (.sent outcome)
  | ⟨.increment metric _, _⟩ => some (.counted metric)
  | ⟨.setTimeout ms, _⟩ => some (.waited (setTimeoutOf ms))
  | _ => none

def observed (t : List HttpEvent) : List Observation := t.filterMap observation

/-- From `t` to `t'` the loop shows `shown`. -/
def Shows (t t' : List HttpEvent) (shown : List Observation) : Prop :=
  ∃ added, t' = t ++ added ∧ observed added = shown

namespace Shows

variable {t t₁ t₂ : List HttpEvent} {shown shown' : List Observation}

theorem refl (t : List HttpEvent) : Shows t t [] := ⟨[], (List.append_nil t).symm, rfl⟩

theorem trans (h : Shows t t₁ shown) (h' : Shows t₁ t₂ shown') : Shows t t₂ (shown ++ shown') := by
  obtain ⟨added, rfl, rfl⟩ := h
  obtain ⟨added', rfl, rfl⟩ := h'
  exact ⟨added ++ added', List.append_assoc .., List.filterMap_append⟩

theorem events (t added : List HttpEvent) : Shows t (t ++ added) (observed added) :=
  ⟨added, rfl, rfl⟩

end Shows

/-- The attempt failed, or was answered by a status that says "not now". -/
def Outcome.asksAgain : Outcome → Bool
  | .ok response => isRetryableStatus response.status
  | .failed _ => true

/-- What asking the breaker shows, if there is one. -/
def asking (config : RetryConfig) (blocked : Option Int) : List Observation :=
  if config.circuitEnabled then [.asked blocked] else []

/-- A turn of the loop that another one follows. -/
structure Round where
  startedAt : Int
  outcome : Outcome
  endedAt : Int
  readAt : Int
  waitMs : ℕ

/-- What a round shows; it reads the clock once more for a `Retry-After`. -/
def Round.observed (config : RetryConfig) (r : Round) : List Observation :=
  asking config none ++ [.clock r.startedAt, .sent r.outcome, .clock r.endedAt] ++
    (match r.outcome with
      | .ok _ => [.clock r.readAt]
      | .failed _ => []) ++
    [.counted .httpClientRetries, .waited r.waitMs]

/-- What the upstream asked to be given, in a round. -/
def Round.retryAfter (platform : Platform) (r : Round) : Option Rat :=
  match r.outcome with
  | .ok response => parseRetryAfter platform (response.headers.lookup "retry-after") r.readAt
  | .failed _ => none

/-- How the last turn of the loop ends. -/
inductive Ending where
  | refused (retryInMs : Int)
  | settled (startedAt : Int) (outcome : Outcome) (endedAt : Int)

/-- What an ending shows: the breaker has refused, or the attempt was its last. -/
def Ending.observed (config : RetryConfig) : Ending → List Observation
  | .refused retryInMs => [.asked (some retryInMs), .counted .httpClientCircuitOpen]
  | .settled startedAt outcome endedAt =>
      asking config none ++
        [.clock startedAt, .sent outcome, .clock endedAt, .counted .httpClientRequests]

section Turns

variable (platform : Platform) (config : RetryConfig) (request : HttpRequest)

/-- What the client makes of the outcome of an attempt. -/
def Outcome.result : Outcome → Settled
  | .ok response => .ok response
  | .failed aborted => .error (request.error config.toHttpClientConfig aborted)

/-- What `request` settles with after such a turn. -/
def Ending.result : Ending → Settled
  | .refused retryInMs => .error (.circuitOpen config.target retryInMs)
  | .settled _ outcome _ => outcome.result config request

/-- The breaker refuses the attempt, or the request is settled after it. -/
def Ending.Final (attempt : ℕ) : Ending → Prop
  | .refused _ => config.circuitEnabled = true
  | .settled _ outcome _ =>
      request.afterAttempt config.toHttpClientConfig attempt outcome ≠ .entering (attempt + 1)

/-- What a round waits, and how long it was to wait. -/
structure Round.Waits (r : Round) : Prop where
  bounded : r.waitMs ≤ config.retryMaxDelayMs
  retryAfter : ∀ ms, r.retryAfter platform = some ms →
    r.waitMs = setTimeoutOf (min ms config.retryMaxDelayMs)

variable {platform config request}

variable (env : HttpEnv) (t : List HttpEvent)

theorem retryDelayMs_apply (attempt : ℕ) (retryAfterMs : Option Rat) :
    ∃ waitMs t', retryDelayMs config attempt retryAfterMs env t = (.ok waitMs, t') ∧
      Shows t t' [] ∧ waitMs ≤ config.retryMaxDelayMs ∧
      ∀ ms, retryAfterMs = some ms → waitMs = min ms config.retryMaxDelayMs := by
  cases retryAfterMs with
  | some ms =>
      refine ⟨_, t, rfl, .refl t, min_le_right .., fun ms' hms => ?_⟩
      rw [Option.some.inj hms]
  | none =>
      rw [retryDelayMs, call_bind]
      exact ⟨_, _, rfl, .events t _, min_le_right .., fun _ hms => nomatch hms⟩

/-- A wait is as long as its timer runs. -/
theorem waitBeforeRetry_apply (attempt : ℕ) (cause : String × JsValue)
    (retryAfterMs : Option Rat) :
    ∃ (waitMs : ℕ) (t' : List HttpEvent),
      waitBeforeRetry config request attempt cause retryAfterMs env t = (.ok (), t') ∧
      Shows t t' [.counted .httpClientRetries, .waited waitMs] ∧
      waitMs ≤ config.retryMaxDelayMs ∧
      ∀ ms, retryAfterMs = some ms → waitMs = setTimeoutOf (min ms config.retryMaxDelayMs) := by
  obtain ⟨waitMs, t', hrun, hshows, hbounded, hasked⟩ :=
    @retryDelayMs_apply config env t attempt retryAfterMs
  rw [waitBeforeRetry, bind_ok env t hrun, note_bind, note_bind, delay, note_apply]
  refine ⟨setTimeoutOf waitMs, _, rfl, hshows.trans ?_,
    setTimeoutOf_le config.retryMaxDelayMs_pos hbounded, fun ms hms => by rw [hasked ms hms]⟩
  rw [List.append_assoc, List.append_assoc]
  exact .events t' _

/-- A call without a breaker is not blocked. -/
theorem blockedForMs_apply :
    ∃ blocked t', blockedForMs config env t = (.ok blocked, t') ∧
      Shows t t' (asking config blocked) ∧ (config.circuitEnabled = false → blocked = none) := by
  unfold blockedForMs asking
  cases config.circuitEnabled with
  | true =>
      rw [if_pos rfl, call_apply, env_eq_answer env t]
      exact ⟨_, _, rfl, .events t _, fun h => nomatch h⟩
  | false => exact ⟨none, t, rfl, .refl t, fun _ => rfl⟩

theorem recordFailure_apply :
    ∃ t', recordFailure config env t = (.ok (), t') ∧ Shows t t' [] := by
  rw [recordFailure]
  split
  · exact ⟨_, rfl, .events t _⟩
  · exact ⟨_, rfl, .refl t⟩

theorem recordResponse_apply (response : HttpResponse) :
    ∃ t', recordResponse config response env t = (.ok (), t') ∧ Shows t t' [] := by
  rw [recordResponse]
  split
  · exact recordFailure_apply env t
  · rw [recordSuccess]
    split
    · exact ⟨_, rfl, .events t _⟩
    · exact ⟨_, rfl, .refl t⟩

theorem record_apply (outcome : String) (durationMs : Int) :
    ∃ t', record config request outcome durationMs env t = (.ok (), t') ∧
      Shows t t' [.counted .httpClientRequests] := by
  rw [record, note_bind, note_apply, List.append_assoc]
  exact ⟨_, rfl, .events t _⟩

section Body

variable (attempt : ℕ) (durationMs : Int) (next : HttpM (Option Settled))

/-- What becomes of a response: it is returned, or there is a wait and the loop goes on. -/
theorem onResponse_cases (response : HttpResponse) :
    (∃ t', onResponse platform config request attempt response durationMs next env t =
        (.ok (some (.ok response)), t') ∧ Shows t t' [.counted .httpClientRequests] ∧
      request.afterAttempt config.toHttpClientConfig attempt (.ok response) =
        .returned attempt response) ∨
    (∃ (now : Int) (waitMs : ℕ) (t' : List HttpEvent),
      onResponse platform config request attempt response durationMs next env t = next env t' ∧
      Shows t t' [.clock now, .counted .httpClientRetries, .waited waitMs] ∧
      waitMs ≤ config.retryMaxDelayMs ∧
      (∀ ms, parseRetryAfter platform (response.headers.lookup "retry-after") now = some ms →
        waitMs = setTimeoutOf (min ms config.retryMaxDelayMs)) ∧
      request.afterAttempt config.toHttpClientConfig attempt (.ok response) =
        .entering (attempt + 1)) := by
  obtain ⟨t₁, hrecord, hshows₁⟩ := @recordResponse_apply config env t response
  rw [onResponse, bind_ok env t hrecord]
  cases hcan : retryable request && decide ((attempt : Int) < retries config request) &&
    isRetryableStatus response.status with
  | false =>
      rw [if_pos (by rfl)]
      have hlog : Shows t₁ (t₁ ++ [_]) [] := .events t₁ [⟨.log
        (if response.status ≥ 500 then .error else .debug) "http.client.response"
        (logged config request [("method", .string request.method.name),
          ("status", numberValue response.status), ("durationMs", numberValue durationMs),
          ("attempts", numberValue (attempt + 1))]), .ok ()⟩]
      obtain ⟨t₂, hrec, hshows₂⟩ := @record_apply config request env (t₁ ++ [_])
        (toString response.status) durationMs
      refine .inl ⟨t₂, ?_, (hshows₁.trans hlog).trans hshows₂, ?_⟩
      · rw [log, note_bind, bind_ok env _ hrec, pure_apply]
      · exact if_pos (by rw [Bool.not_eq_true']; exact hcan)
  | true =>
      rw [if_neg (by decide), call_bind]
      have hclock := Shows.events t₁ [⟨.dateNow, .ok (answer env t₁ .dateNow)⟩]
      obtain ⟨waitMs, t₂, hwait, hshows₂, hbounded, hasked⟩ :=
        @waitBeforeRetry_apply config request env
          (t₁ ++ [⟨.dateNow, .ok (answer env t₁ .dateNow)⟩]) attempt
          ("status", numberValue response.status)
          (parseRetryAfter platform (response.headers.lookup "retry-after")
            (answer env t₁ .dateNow))
      refine .inr ⟨answer env t₁ .dateNow, waitMs, t₂, bind_ok env _ hwait,
        (hshows₁.trans hclock).trans hshows₂, hbounded, hasked, ?_⟩
      exact if_neg (by rw [Bool.not_eq_true]; exact congrArg not hcan)

/-- What becomes of a failure: it is thrown, or there is a wait and the loop goes on. -/
theorem onFailure_cases (aborted : Bool) :
    (∃ t', onFailure config request attempt aborted durationMs next env t =
        (.ok (some (.error (request.error config.toHttpClientConfig aborted))), t') ∧
      Shows t t' [.counted .httpClientRequests] ∧
      request.afterAttempt config.toHttpClientConfig attempt (.failed aborted) =
        .threw attempt (request.error config.toHttpClientConfig aborted)) ∨
    (∃ (waitMs : ℕ) (t' : List HttpEvent),
      onFailure config request attempt aborted durationMs next env t = next env t' ∧
      Shows t t' [.counted .httpClientRetries, .waited waitMs] ∧
      waitMs ≤ config.retryMaxDelayMs ∧
      request.afterAttempt config.toHttpClientConfig attempt (.failed aborted) =
        .entering (attempt + 1)) := by
  obtain ⟨t₁, hrecord, hshows₁⟩ := @recordFailure_apply config env t
  rw [onFailure, bind_ok env t hrecord]
  dsimp only
  cases hlast : !retryable request || decide ((attempt : Int) ≥ retries config request) with
  | true =>
      rw [if_pos rfl, note_bind]
      have hlog := Shows.events t₁ [⟨.log .error "http.client.failed" (logged config request
        [("method", .string request.method.name), ("durationMs", numberValue durationMs),
          ("attempts", numberValue (attempt + 1)),
          ("reason", .string (if aborted then "timeout" else "transport"))]), .ok ()⟩]
      obtain ⟨t₂, hrec, hshows₂⟩ := @record_apply config request env (t₁ ++ [_])
        (if aborted then "timeout" else "transport") durationMs
      refine .inl ⟨t₂, ?_, (hshows₁.trans hlog).trans hshows₂, if_pos hlast⟩
      rw [bind_ok env _ hrec, pure_apply]
  | false =>
      rw [if_neg (by decide)]
      obtain ⟨waitMs, t₂, hwait, hshows₂, hbounded, -⟩ :=
        @waitBeforeRetry_apply config request env t₁ attempt ("reason", .string "transport") none
      refine .inr ⟨waitMs, t₂, bind_ok env _ hwait, hshows₁.trans hshows₂, hbounded, ?_⟩
      exact if_neg (by rw [Bool.not_eq_true]; exact hlast)

end Body

/-- **One turn of the loop** is its last, or a round after which the loop goes on, as `afterAttempt`
has it. -/
theorem turn_cases (turns attempt : ℕ) :
    (∃ (ending : Ending) (t' : List HttpEvent),
      requestLoop platform config request (turns + 1) attempt env t =
        (.ok (some (ending.result config request)), t') ∧ Shows t t' (ending.observed config) ∧
      ending.Final config request attempt) ∨
    (∃ (round : Round) (t' : List HttpEvent),
      requestLoop platform config request (turns + 1) attempt env t =
        requestLoop platform config request turns (attempt + 1) env t' ∧
      Shows t t' (round.observed config) ∧ round.Waits platform config ∧
      request.afterAttempt config.toHttpClientConfig attempt round.outcome =
        .entering (attempt + 1)) := by
  obtain ⟨blocked, t₁, hblocked, hshows₁, hbreaker⟩ := @blockedForMs_apply config env t
  rw [requestLoop, bind_ok env t hblocked]
  cases blocked with
  | some ms =>
      have henabled : config.circuitEnabled = true := by
        by_contra hoff
        cases hbreaker (Bool.eq_false_iff.mpr hoff)
      rw [asking, if_pos henabled] at hshows₁
      refine .inl ⟨.refused ms, _, rfl, ?_, henabled⟩
      rw [List.append_assoc]
      exact hshows₁.trans (.events t₁ _)
  | none =>
      dsimp only
      rw [call_bind, call_bind, call_bind]
      generalize answer env t₁ .dateNow = startedAt
      generalize answer env (t₁ ++ [⟨.dateNow, .ok startedAt⟩]) .attempt = outcome
      generalize answer env (t₁ ++ [⟨.dateNow, .ok startedAt⟩] ++ [⟨.attempt, .ok outcome⟩])
        .dateNow = endedAt
      have hshows : Shows t (t₁ ++ [⟨.dateNow, .ok startedAt⟩] ++ [⟨.attempt, .ok outcome⟩] ++
          [⟨.dateNow, .ok endedAt⟩])
          (asking config none ++ [.clock startedAt, .sent outcome, .clock endedAt]) := by
        rw [List.append_assoc, List.append_assoc]
        exact hshows₁.trans (.events t₁ _)
      cases outcome with
      | ok response =>
          rcases @onResponse_cases platform config request env _ attempt (endedAt - startedAt)
              (requestLoop platform config request turns (attempt + 1)) response
            with ⟨t', hrun, hs, hfinal⟩ | ⟨now, waitMs, t', hrun, hs, hbounded, hasked, hnext⟩
          · refine .inl ⟨.settled startedAt (.ok response) endedAt, t', hrun, ?_, ?_⟩
            · have hsettled := hshows.trans hs
              rwa [List.append_assoc] at hsettled
            · exact fun hnext => nomatch hfinal.symm.trans hnext
          · refine .inr ⟨⟨startedAt, .ok response, endedAt, now, waitMs⟩, t', hrun, ?_,
              ⟨hbounded, hasked⟩, hnext⟩
            rw [Round.observed, List.append_assoc]
            exact hshows.trans hs
      | failed aborted =>
          rcases @onFailure_cases config request env _ attempt (endedAt - startedAt)
              (requestLoop platform config request turns (attempt + 1)) aborted
            with ⟨t', hrun, hs, hfinal⟩ | ⟨waitMs, t', hrun, hs, hbounded, hnext⟩
          · refine .inl ⟨.settled startedAt (.failed aborted) endedAt, t', hrun, ?_, ?_⟩
            · have hsettled := hshows.trans hs
              rwa [List.append_assoc] at hsettled
            · exact fun hnext => nomatch hfinal.symm.trans hnext
          · refine .inr ⟨⟨startedAt, .failed aborted, endedAt, endedAt, waitMs⟩, t', hrun, ?_,
              ⟨hbounded, fun _ h => nomatch h⟩, hnext⟩
            rw [Round.observed, List.append_assoc]
            exact hshows.trans hs

/-- When the loop goes on. -/
theorem afterAttempt_entering {attempt : ℕ} {outcome : Outcome}
    (h : request.afterAttempt config.toHttpClientConfig attempt outcome = .entering (attempt + 1)) :
    retryable request = true ∧ (attempt : Int) < retries config request ∧
      outcome.asksAgain = true := by
  cases outcome with
  | ok response =>
      simp only [HttpRequest.afterAttempt] at h
      split at h
      next => cases h
      next hcan =>
        simp only [Bool.not_eq_true', Bool.not_eq_false, Bool.and_eq_true,
          decide_eq_true_eq] at hcan
        exact ⟨hcan.1.1, hcan.1.2, hcan.2⟩
  | failed aborted =>
      simp only [HttpRequest.afterAttempt] at h
      split at h
      next => cases h
      next hcan =>
        simp only [Bool.or_eq_true, Bool.not_eq_true', decide_eq_true_eq, not_or, Bool.not_eq_false,
          ge_iff_le, not_le] at hcan
        exact ⟨hcan.1, hcan.2, rfl⟩

/-- A whole run: rounds, as many as are left at most, and then an ending. -/
theorem run_cases (turns attempt : ℕ) (hattempt : attempt ≤ (retries config request).toNat)
    (hturns : (retries config request).toNat < attempt + turns) :
    ∃ (rounds : List Round) (ending : Ending) (t' : List HttpEvent),
      requestLoop platform config request turns attempt env t =
        (.ok (some (ending.result config request)), t') ∧
      Shows t t' (rounds.flatMap (Round.observed config) ++ ending.observed config) ∧
      rounds.length ≤ (retries config request).toNat - attempt ∧
      (∀ r ∈ rounds, r.Waits platform config ∧ retryable request = true ∧
        r.outcome.asksAgain = true) ∧
      ending.Final config request (attempt + rounds.length) := by
  induction turns generalizing attempt t with
  | zero => omega
  | succ turns ih =>
      rcases @turn_cases platform config request env t turns attempt
        with ⟨ending, t', hrun, hshows, hfinal⟩ | ⟨round, t', hrun, hshows, hwaits, hnext⟩
      · exact ⟨[], ending, t', hrun, hshows, Nat.zero_le _, (fun _ hr => nomatch hr), hfinal⟩
      · obtain ⟨hretryable, hlt, hasks⟩ := afterAttempt_entering hnext
        obtain ⟨rounds, ending, t'', hrun', hshows', hlength, hrounds, hfinal⟩ :=
          ih t' (attempt + 1) (by omega) (by omega)
        refine ⟨round :: rounds, ending, t'', hrun.trans hrun', ?_, ?_, ?_, ?_⟩
        · rw [List.flatMap_cons, List.append_assoc]
          exact hshows.trans hshows'
        · rw [List.length_cons]
          omega
        · intro r hr
          rcases List.mem_cons.mp hr with rfl | hr
          · exact ⟨hwaits, hretryable, hasks⟩
          · exact hrounds r hr
        · rw [List.length_cons, Nat.add_comm rounds.length, ← Nat.add_assoc]
          exact hfinal

end Turns

/-! ### A request -/

/-- The outcomes of the attempts that were made. -/
def sent : List Observation → List Outcome
  | [] => []
  | .sent outcome :: shown => outcome :: sent shown
  | .asked _ :: shown | .clock _ :: shown | .counted _ :: shown | .waited _ :: shown => sent shown

/-- How often a metric was incremented. -/
def counted (metric : HttpMetric) : List Observation → ℕ
  | [] => 0
  | .counted m :: shown => (if m = metric then 1 else 0) + counted metric shown
  | .asked _ :: shown | .clock _ :: shown | .sent _ :: shown | .waited _ :: shown =>
      counted metric shown

section Counts

variable (config : RetryConfig) (shown shown' : List Observation) (rounds : List Round)

theorem sent_append : sent (shown ++ shown') = sent shown ++ sent shown' := by
  induction shown with
  | nil => rfl
  | cons o shown ih => cases o <;> simp [sent, ih]

theorem counted_append (metric : HttpMetric) :
    counted metric (shown ++ shown') = counted metric shown + counted metric shown' := by
  induction shown with
  | nil => simp [counted]
  | cons o shown ih => cases o <;> simp [counted, ih, Nat.add_assoc]

@[simp] theorem sent_asking (blocked : Option Int) : sent (asking config blocked) = [] := by
  unfold asking
  split <;> rfl

@[simp] theorem counted_asking (metric : HttpMetric) (blocked : Option Int) :
    counted metric (asking config blocked) = 0 := by
  unfold asking
  split <;> rfl

theorem sent_rounds :
    sent (rounds.flatMap (Round.observed config)) = rounds.map Round.outcome := by
  induction rounds with
  | nil => rfl
  | cons r rounds ih =>
      rw [List.flatMap_cons, sent_append, ih, List.map_cons]
      rcases r with ⟨_, _ | _, _, _, _⟩ <;> simp [Round.observed, sent_append, sent]

theorem counted_rounds (metric : HttpMetric) :
    counted metric (rounds.flatMap (Round.observed config)) =
      if metric = .httpClientRetries then rounds.length else 0 := by
  induction rounds with
  | nil => simp [counted]
  | cons r rounds ih =>
      rw [List.flatMap_cons, counted_append, ih, List.length_cons]
      rcases r with ⟨_, _ | _, _, _, _⟩ <;> cases metric <;>
        simp [counted, counted_append, Round.observed, Nat.add_comm]

end Counts

/-- What a request has shown when it settles: after `rounds`, each of which a retryable request goes
on from, it ends as `ending` does. -/
structure Sound (config : RetryConfig) (request : HttpRequest) (rounds : List Round)
    (ending : Ending) (shown : List Observation) : Prop where
  turns : shown = rounds.flatMap (Round.observed config) ++ ending.observed config
  fetches : (sent shown).length ≤ (retries config request).toNat + 1
  once : retryable request = false → (sent shown).length ≤ 1
  /-- Another attempt follows only one that failed or was told "not now". -/
  again : ∀ r ∈ rounds, r.outcome.asksAgain = true
  last : ending.Final config request rounds.length
  bounded : ∀ r ∈ rounds, r.waitMs ≤ config.retryMaxDelayMs
  counts : counted .httpClientRequests shown + counted .httpClientCircuitOpen shown = 1
  reschedules : counted .httpClientRetries shown = rounds.length

/-- Each wait is the one that was asked for. -/
def WaitsAsAsked (platform : Platform) (config : RetryConfig) (rounds : List Round) : Prop :=
  ∀ r ∈ rounds, ∀ ms, r.retryAfter platform = some ms →
    (r.waitMs : ℚ) = min ms config.retryMaxDelayMs

/-- **The retry loop.**  Whatever the breaker, the upstream, the clock and chance do, a request
settles in as many turns as it may make attempts: with what its last attempt came to, or because the
breaker refuses the next one.  It waits as it was asked to if and only if timers keep the delays
that it was asked for. -/
theorem request_settles_iff (platform : Platform) (config : RetryConfig) (request : HttpRequest)
    (env : HttpEnv) (t : List HttpEvent) {turns : ℕ}
    (h : (retries config request).toNat < turns) :
    ∃ (rounds : List Round) (ending : Ending) (added : List HttpEvent),
      requestLoop platform config request turns 0 env t =
        (.ok (some (ending.result config request)), t ++ added) ∧
      Sound config request rounds ending (observed added) ∧
      (WaitsAsAsked platform config rounds ↔ ∀ r ∈ rounds, ∀ ms,
        r.retryAfter platform = some ms → TimerKeeps (min ms config.retryMaxDelayMs)) := by
  obtain ⟨rounds, ending, t', hrun, ⟨added, rfl, hadded⟩, hlength, hrounds, hfinal⟩ :=
    @run_cases platform config request env t turns 0 (Nat.zero_le _) (by omega)
  rw [Nat.zero_add] at hfinal
  have hsent : sent (observed added) =
      rounds.map Round.outcome ++ sent (ending.observed config) := by
    rw [hadded, sent_append, sent_rounds]
  have hlast : (sent (ending.observed config)).length ≤ 1 := by
    cases ending <;> simp [Ending.observed, sent, sent_append]
  refine ⟨rounds, ending, added, hrun, ⟨hadded, ?_, fun honce => ?_,
    fun r hr => (hrounds r hr).2.2, hfinal, fun r hr => (hrounds r hr).1.bounded, ?_, ?_⟩, ?_⟩
  · rw [hsent, List.length_append, List.length_map]
    omega
  · cases rounds with
    | nil => rw [hsent, List.map_nil, List.nil_append]; exact hlast
    | cons r rounds =>
        rw [(hrounds r List.mem_cons_self).2.1] at honce
        cases honce
  · rw [hadded, counted_append, counted_append, counted_rounds, counted_rounds]
    cases ending <;> simp [Ending.observed, counted, counted_append]
  · rw [hadded, counted_append, counted_rounds]
    cases ending <;> simp [Ending.observed, counted, counted_append]
  · refine forall₂_congr fun r hr => forall₂_congr fun ms hms => ?_
    rw [(hrounds r hr).1.retryAfter ms hms]
    exact setTimeoutOf_eq_iff

/-- A call to an upstream that is busy at first, and the environment it runs in. -/
def HttpRequest.busy : HttpRequest := ⟨.get, "accounts.get", none, none, none⟩

def Platform.digits : Platform where
  number s := if s = "2" then .finite 2 else .nan
  dateParse _ := none

/-- The clock stands at 1 January 2026. -/
def busyAtFirst (retryAfter : String) : HttpEnv := fun t c =>
  match c with
  | .attempt => .ok (if t.length < 5 then .ok ⟨503, [("retry-after", retryAfter)], .undefined⟩
      else .ok ⟨200, [], .string "ok"⟩)
  | .blockedForMs => .ok none
  | .dateNow => .ok 1767225600000
  | .random => .ok ⟨0, by decide, by decide⟩
  | .recordFailure | .recordSuccess | .increment _ _ | .observe _ _ _ | .log _ _ _
  | .setTimeout _ => .ok ()

theorem request_settles_busy :
    (retries (.defaults "https://accounts.internal") .busy).toNat < 3 ∧
    ∃ (rounds : List Round) (ending : Ending) (added : List HttpEvent),
      requestLoop .digits (.defaults "https://accounts.internal") .busy 3 0 (busyAtFirst "2") [] =
        (.ok (some (ending.result (.defaults "https://accounts.internal") .busy)), [] ++ added) ∧
      Sound (.defaults "https://accounts.internal") .busy rounds ending (observed added) ∧
      (WaitsAsAsked .digits (.defaults "https://accounts.internal") rounds ↔ ∀ r ∈ rounds, ∀ ms,
        r.retryAfter .digits = some ms → TimerKeeps (min ms
          (RetryConfig.defaults "https://accounts.internal").retryMaxDelayMs)) :=
  ⟨by decide, request_settles_iff .digits (.defaults "https://accounts.internal") .busy
    (busyAtFirst "2") [] (by decide)⟩

/-- A client that may be asked to wait for a month, -/
def RetryConfig.monthly : RetryConfig :=
  { defaults "https://accounts.internal" with
    retryMaxDelayMs := 2592000000
    retryMaxDelayMs_pos := by decide }

def Platform.dates : Platform where
  number _ := .nan
  dateParse s := if s = "Sat, 31 Jan 2026 00:00:00 GMT" then some 1769817600000 else none

/-- How long it is then to wait, and how long it waits. -/
def monthMs : ℚ := max 0 (((1769817600000 : Int) : ℚ) - ((1767225600000 : Int) : ℚ))

theorem setTimeoutOf_month : setTimeoutOf (min monthMs (2592000000 : ℕ)) = 1 := by
  norm_num [monthMs, setTimeoutOf]

/-- It is asked to, and calls again after a millisecond. -/
theorem request_calls_at_once :
    ∃ added,
      requestLoop .dates .monthly .busy 3 0 (busyAtFirst "Sat, 31 Jan 2026 00:00:00 GMT") [] =
        (.ok (some (.ok ⟨200, [], .string "ok"⟩)), added) ∧
      ¬ ∃ rounds ending, Sound .monthly .busy rounds ending (observed added) ∧
        WaitsAsAsked .dates .monthly rounds := by
  refine ⟨_, rfl, ?_⟩
  rintro ⟨rounds, ending, hsound, hwaits⟩
  obtain ⟨r, rfl⟩ : ∃ r, rounds = [r] := List.length_eq_one_iff.mp hsound.reschedules.symm
  let first : List Observation := [.asked none, .clock 1767225600000,
    .sent (.ok ⟨503, [("retry-after", "Sat, 31 Jan 2026 00:00:00 GMT")], .undefined⟩),
    .clock 1767225600000, .clock 1767225600000, .counted .httpClientRetries,
    .waited (setTimeoutOf (min monthMs (2592000000 : ℕ)))]
  have hfirst : first = List.take 7 _ := congrArg (List.take 7) hsound.turns
  rcases r with ⟨startedAt, response | aborted, endedAt, readAt, waitMs⟩
  · simp [first, Round.observed, asking, RetryConfig.monthly, RetryConfig.defaults] at hfirst
    obtain ⟨-, rfl, -, rfl, rfl⟩ := hfirst
    have hasked : (setTimeoutOf (min monthMs (2592000000 : ℕ)) : ℚ) =
        min monthMs (2592000000 : ℕ) := hwaits _ List.mem_cons_self monthMs rfl
    rw [setTimeoutOf_month] at hasked
    norm_num [monthMs] at hasked
  · simp [first, Round.observed, asking, RetryConfig.monthly, RetryConfig.defaults] at hfirst

end NestDdd.Http

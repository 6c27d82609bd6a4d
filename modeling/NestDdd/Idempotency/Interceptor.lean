import NestDdd.Runs.Async
import NestDdd.Shared.JsValue

/-!
# Idempotency — the interceptor

`IdempotencyInterceptor.intercept` (`src/interface/http/interceptors/idempotency.interceptor.ts`)
around one request: it claims the key, runs the handler, and then completes or releases the key.
The store, the handler, the metrics and the response are calls to the environment.

* `pipeline` is the `concatMap`/`catchError` chain a claimed request runs through.  `catchError`
  catches what `concatMap` throws, so a store that rejects `complete` sends a *successful*
  handler down the failure path.
* `released_only_on_failure_iff`: the key is released only after a failed handler exactly when no
  `complete` is rejected.
* `Pipe` is the same chain cut at its `await`s, for the interleavings of `Idempotency.System`;
  `pipeline_eq_pipe` says that it is the same chain.
-/

namespace NestDdd.Idempotency

open Runs Runs.Async NestDdd.JsValue

/-- What `IdempotencyStorePort.claim` answers. -/
inductive ClaimOutcome where
  | claimed
  | inProgress
  | mismatch
  | replay (status : Int) (body : JsValue)

/-- The label of the `idempotencyRequests` metric. -/
inductive Outcome where
  | claimed
  | replay
  | mismatch
  | inProgress
  | missingKey
  deriving DecidableEq

/-- A response as the interceptor sees it: `res.statusCode` and the handler's raw payload. -/
structure Response where
  statusCode : Int
  body : JsValue

/-- What `intercept` throws itself, and what its handler and its store throw. -/
inductive Thrown where
  | missingIdempotencyKey (header : String)
  | idempotencyKeyReused
  | idempotencyInProgress
  | raised (error : JsValue)

/-- What `intercept` asks of the store, the handler, the metrics and the response. -/
inductive Call where
  | claim (key fingerprint : String)
  | complete (key : String) (status : Int) (body : JsValue)
  | release (key : String)
  | handle
  | count (outcome : Outcome)
  | status (code : Int)

abbrev Call.Reply : Call → Type
  | .claim _ _ => ClaimOutcome
  | .handle => Response
  | .complete _ _ _ | .release _ | .count _ | .status _ => Unit

abbrev InterceptM := Async Call.Reply Thrown

/-- `this.store.claim`. -/
def claim (key fingerprint : String) : InterceptM ClaimOutcome := call (Call.claim key fingerprint)

/-- `this.store.complete`. -/
def complete (key : String) (status : Int) (body : JsValue) : InterceptM Unit :=
  call (Call.complete key status body)

/-- `this.store.release`. -/
def release (key : String) : InterceptM Unit := call (Call.release key)

/-- `next.handle()`. -/
def handle : InterceptM Response := call Call.handle

/-- `this.count`, which increments a metric. -/
def count (outcome : Outcome) : InterceptM Unit := note (Call.count outcome) ()

/-- `req.headers[name]`. -/
inductive Header where
  | absent
  | one (value : String)
  | many (values : List String)

/-- `Array.isArray(header) ? header[0] : header`. -/
def Header.first : Header → Option String
  | .absent => none
  | .one value => some value
  | .many values => values.head?

/-- The `concatMap` callback: a failed `Result` frees the key, anything else is stored. -/
def settleBody (key : String) (res : Response) : InterceptM JsValue := do
  if isResultLike res.body && isErr res.body then
    release key
  else
    complete key res.statusCode res.body
  pure res.body

/-- The `catchError` callback: the key is freed, and the error goes on. -/
def rethrow (key : String) (error : Thrown) : InterceptM JsValue := do
  release key
  reject error

/-- What `intercept` returns for a claimed request: `next.handle().pipe(concatMap(…),
catchError(…))`. -/
def pipeline (key : String) : InterceptM JsValue :=
  catchError
    (do
      let res ← handle
      settleBody key res)
    (rethrow key)

def intercept (isIdempotent : Bool) (headerName : String) (header : Header)
    (fingerprint : String) : InterceptM JsValue :=
  if !isIdempotent then do
    let res ← handle
    pure res.body
  else if !isSafeCorrelationId header.first then do
    count .missingKey
    reject (.missingIdempotencyKey headerName)
  else do
    let key := header.first.getD ""
    match ← claim key fingerprint with
    | .mismatch =>
        count .mismatch
        reject .idempotencyKeyReused
    | .inProgress =>
        count .inProgress
        reject .idempotencyInProgress
    | .replay status body =>
        count .replay
        note (Call.status status) ()
        pure body
    | .claimed =>
        count .claimed
        pipeline key

/-- The handler threw, or resolved to a failed `Result`. -/
def handlerFailed : Except Thrown Response → Bool
  | .ok res => isFailedResult res.body
  | .error _ => true

/-! ### The chain, cut at its awaits -/

/-- What the requests carry: the idempotency key, and the fingerprint of method, path and body. -/
structure Requests where
  key : Nat → String
  fingerprint : Nat → String

/-- Retries of one request: every request carries one key and one fingerprint. -/
def Requests.retries : Requests := ⟨fun _ => "key-1", fun _ => "fp-1"⟩

/-- Where a claimed request stands in `pipeline`: at the handler, at a store call, or past it. -/
inductive Pipe where
  | handling
  | completing (res : Response)
  | releasing (res : Response)
  | rethrowing (error : Thrown)
  | emitted (res : Response)
  | errored (error : Thrown)

namespace Pipe

/-- The handler has settled. -/
def onHandler : Except Thrown Response → Pipe
  | .ok res => if isFailedResult res.body then .releasing res else .completing res
  | .error e => .rethrowing e

/-- The store call has settled: `concatMap` hands a rejection to `catchError`. -/
def onStore : Pipe → Except Thrown Unit → Pipe
  | .completing res, .ok _ | .releasing res, .ok _ => .emitted res
  | .completing _, .error e | .releasing _, .error e => .rethrowing e
  | .rethrowing error, .ok _ => .errored error
  | .rethrowing _, .error e => .errored e
  | p, _ => p

/-- The store call a request awaits, if it awaits one. -/
def storeCall (key : String) : Pipe → Option Call
  | .completing res => some (.complete key res.statusCode res.body)
  | .releasing _ | .rethrowing _ => some (.release key)
  | .handling | .emitted _ | .errored _ => none

/-- The request still has to settle its claim. -/
def pending : Pipe → Bool
  | .handling | .completing _ | .releasing _ | .rethrowing _ => true
  | .emitted _ | .errored _ => false

/-- `await` the store call. -/
def perform (key : String) : Pipe → InterceptM Pipe
  | .completing res => do
      let settled ← attempt (complete key res.statusCode res.body)
      pure (onStore (.completing res) settled)
  | .releasing res => do
      let settled ← attempt (release key)
      pure (onStore (.releasing res) settled)
  | .rethrowing error => do
      let settled ← attempt (release key)
      pure (onStore (.rethrowing error) settled)
  | p => pure p

/-- What the stream has emitted or failed with, once it has. -/
def result : Pipe → Option (Except Thrown JsValue)
  | .emitted res => some (.ok res.body)
  | .errored error => some (.error error)
  | _ => none

end Pipe

/-- `pipeline` one `await` at a time: the handler, then at most two store calls. -/
def piped (key : String) : InterceptM Pipe := do
  let settled ← attempt handle
  let p ← (Pipe.onHandler settled).perform key
  p.perform key

section Pipeline

variable (key : String) (env : Env Call.Reply Thrown) (t : List (Event Call.Reply Thrown))

theorem handle_apply : handle env t = (env t .handle, t ++ [⟨.handle, env t .handle⟩]) := rfl

theorem release_apply :
    release key env t = (env t (.release key), t ++ [⟨.release key, env t (.release key)⟩]) := rfl

theorem complete_apply (status : Int) (body : JsValue) :
    complete key status body env t =
      (env t (.complete key status body),
        t ++ [⟨.complete key status body, env t (.complete key status body)⟩]) := rfl

/-- The rejection of the second `release` wins over the error it was called for. -/
theorem rethrow_apply (e : Thrown) :
    rethrow key e env t =
      ((match env t (.release key) with | .ok _ => .error e | .error e' => .error e'),
        t ++ [⟨.release key, env t (.release key)⟩]) := by
  rw [rethrow, bind_apply, release_apply]
  cases env t (.release key) <;> rfl

theorem settleBody_failed {res : Response} (h : isFailedResult res.body = true) :
    settleBody key res env t =
      ((env t (.release key)).map fun _ => res.body,
        t ++ [⟨.release key, env t (.release key)⟩]) := by
  have h' : (isResultLike res.body && isErr res.body) = true := h
  simp only [settleBody, h', if_true, bind_apply, release_apply]
  cases env t (.release key) <;> rfl

theorem settleBody_stored {res : Response} (h : isFailedResult res.body = false) :
    settleBody key res env t =
      ((env t (.complete key res.statusCode res.body)).map fun _ => res.body,
        t ++ [⟨.complete key res.statusCode res.body,
          env t (.complete key res.statusCode res.body)⟩]) := by
  have h' : (isResultLike res.body && isErr res.body) = false := h
  simp only [settleBody, h', Bool.false_eq_true, if_false, bind_apply, complete_apply]
  cases env t (.complete key res.statusCode res.body) <;> rfl

theorem pipeline_threw {e : Thrown} (h : env t .handle = .error e) :
    pipeline key env t = rethrow key e env (t ++ [⟨.handle, .error e⟩]) :=
  catchError_error env t (bind_error env t (by rw [handle_apply, h]))

theorem pipeline_resolved {res : Response} (h : env t .handle = .ok res) :
    pipeline key env t =
      catchError (settleBody key res) (rethrow key) env (t ++ [⟨.handle, .ok res⟩]) := by
  rw [pipeline, catchError, attempt_bind, bind_ok env t (by rw [handle_apply, h])]
  rfl

/-- The `rethrowing` pipe is the `catchError` callback. -/
theorem perform_rethrowing (e : Thrown) :
    ∃ p r, p.result = some r ∧
      (Pipe.rethrowing e).perform key env t = (.ok p, (rethrow key e env t).2) ∧
      (rethrow key e env t).1 = r := by
  simp only [rethrow_apply, Pipe.perform, bind_apply, attempt_apply, release_apply, pure_apply]
  cases env t (.release key) with
  | ok _ => exact ⟨_, _, rfl, rfl, rfl⟩
  | error _ => exact ⟨_, _, rfl, rfl, rfl⟩

/-- Once `concatMap` is at its store call, which settles as `a`: both sides go on alike. -/
theorem perform_twice {p : Pipe} {res : Response} {a : Except Thrown Unit}
    {t₁ : List (Event Call.Reply Thrown)} (hok : p.onStore (.ok ()) = .emitted res)
    (herr : ∀ e, p.onStore (.error e) = .rethrowing e)
    (hp : p.perform key env t = (.ok (p.onStore a), t₁))
    (hs : settleBody key res env t = (a.map fun _ => res.body, t₁)) :
    ∃ q r, q.result = some r ∧
      (do let p₁ ← p.perform key; p₁.perform key) env t =
        (.ok q, (catchError (settleBody key res) (rethrow key) env t).2) ∧
      (catchError (settleBody key res) (rethrow key) env t).1 = r := by
  rw [bind_ok env t hp]
  cases a with
  | ok _ =>
      rw [catchError_ok env t hs, hok]
      exact ⟨_, _, rfl, rfl, rfl⟩
  | error e =>
      rw [catchError_error env t hs, herr]
      exact perform_rethrowing key env t₁ e

/-- **`Pipe` is `pipeline`**: it issues the same calls and settles the same way. -/
theorem pipeline_eq_pipe :
    ∃ p r, p.result = some r ∧ piped key env t = (.ok p, (pipeline key env t).2) ∧
      (pipeline key env t).1 = r := by
  have hpiped : piped key env t =
      (do let p₁ ← (Pipe.onHandler (env t .handle)).perform key; p₁.perform key :
        InterceptM Pipe) env (t ++ [⟨.handle, env t .handle⟩]) := rfl
  cases hh : env t .handle with
  | error e =>
      rw [hpiped, hh, pipeline_threw key env t hh]
      obtain ⟨p, r, hr, hp, hs⟩ := perform_rethrowing key env (t ++ [⟨.handle, .error e⟩]) e
      refine ⟨p, r, hr, ?_, hs⟩
      rw [Pipe.onHandler, bind_ok env _ hp]
      cases p <;> first | rfl | cases hr
  | ok res =>
      rw [hpiped, hh, pipeline_resolved key env t hh]
      cases hf : isFailedResult res.body with
      | true =>
          rw [Pipe.onHandler, if_pos hf]
          exact perform_twice key env _ rfl (fun _ => rfl) rfl (settleBody_failed key env _ hf)
      | false =>
          rw [Pipe.onHandler, if_neg (by simp [hf])]
          exact perform_twice key env _ rfl (fun _ => rfl) rfl (settleBody_stored key env _ hf)

end Pipeline

/-! ### When the key is released -/

/-- Every `release` in the trace follows a failed handler. -/
def ReleasedOnlyOnFailure (trace : List (Event Call.Reply Thrown)) : Prop :=
  ∀ key r, ⟨.release key, r⟩ ∈ trace →
    ∃ h : Except Thrown Response, ⟨.handle, h⟩ ∈ trace ∧ handlerFailed h = true

/-- No `complete` in the trace is rejected. -/
def CompleteNeverRejected (trace : List (Event Call.Reply Thrown)) : Prop :=
  ∀ key status body e, ⟨.complete key status body, .error e⟩ ∉ trace

/-- The calls that settle a claim. -/
def Call.settles : Call → Bool
  | .complete _ _ _ | .release _ => true
  | _ => false

/-- A trace that settles no claim says nothing. -/
theorem released_iff_of_quiet {trace : List (Event Call.Reply Thrown)}
    (h : ∀ e ∈ trace, e.1.settles = false) :
    ReleasedOnlyOnFailure trace ↔ CompleteNeverRejected trace :=
  ⟨fun _ _ _ _ _ hc => Bool.noConfusion (h _ hc), fun _ _ _ hr => Bool.noConfusion (h _ hr)⟩

/-- The trace of `pipeline`: after a failed handler only releases; after any other one a
`complete`, and a `release` if that was rejected. -/
theorem pipeline_trace (key : String) (env : Env Call.Reply Thrown)
    (t : List (Event Call.Reply Thrown)) :
    ∃ rest, (pipeline key env t).2 = t ++ ⟨.handle, env t .handle⟩ :: rest ∧
      ((handlerFailed (env t .handle) = true ∧ ∀ e ∈ rest, e.1 = .release key) ∨
        (handlerFailed (env t .handle) = false ∧ ∃ s b,
          (rest = [⟨.complete key s b, .ok ()⟩] ∨
            ∃ e r, rest = [⟨.complete key s b, .error e⟩, ⟨.release key, r⟩]))) := by
  cases hh : env t .handle with
  | error e =>
      rw [pipeline_threw key env t hh, rethrow_apply]
      exact ⟨_, List.append_assoc .., .inl ⟨rfl, by simp⟩⟩
  | ok res =>
      rw [pipeline_resolved key env t hh]
      cases hf : isFailedResult res.body with
      | true =>
          have hs := settleBody_failed key env (t ++ [⟨.handle, .ok res⟩]) hf
          cases ha : env (t ++ [⟨.handle, .ok res⟩]) (.release key) with
          | ok _ =>
              rw [ha] at hs
              rw [catchError_ok env _ hs]
              exact ⟨_, List.append_assoc .., .inl ⟨hf, by simp⟩⟩
          | error e =>
              rw [ha] at hs
              rw [catchError_error env _ hs, rethrow_apply, List.append_assoc, List.append_assoc]
              exact ⟨_, rfl, .inl ⟨hf, by simp⟩⟩
      | false =>
          have hs := settleBody_stored key env (t ++ [⟨.handle, .ok res⟩]) hf
          cases ha : env (t ++ [⟨.handle, .ok res⟩]) (.complete key res.statusCode res.body) with
          | ok _ =>
              rw [ha] at hs
              rw [catchError_ok env _ hs]
              exact ⟨_, List.append_assoc .., .inr ⟨hf, _, _, .inl rfl⟩⟩
          | error e =>
              rw [ha] at hs
              rw [catchError_error env _ hs, rethrow_apply, List.append_assoc, List.append_assoc]
              exact ⟨_, rfl, .inr ⟨hf, _, _, .inr ⟨_, _, rfl⟩⟩⟩

theorem pipeline_released_iff (key : String) (env : Env Call.Reply Thrown)
    {t : List (Event Call.Reply Thrown)}
    (ht : ∀ e ∈ t, e.1.settles = false ∧ e.1 ≠ .handle) :
    ReleasedOnlyOnFailure (pipeline key env t).2 ↔
      CompleteNeverRejected (pipeline key env t).2 := by
  obtain ⟨rest, htrace, hrest⟩ := pipeline_trace key env t
  rw [htrace]
  rcases hrest with ⟨hf, hr⟩ | ⟨hf, s, b, rfl | ⟨e, r, rfl⟩⟩
  · -- a failed handler: it may be released for, and nothing is completed
    refine iff_of_true (fun _ _ _ => ⟨_, by simp, hf⟩) fun k s b e he => ?_
    rcases List.mem_append.mp he with he | he
    · exact Bool.noConfusion (ht _ he).1
    · rcases List.mem_cons.mp he with he | he
      · cases he
      · cases hr _ he
  · refine iff_of_true (fun k r hr => ?_) fun k s b e he => ?_
    · rcases List.mem_append.mp hr with hr | hr
      · exact Bool.noConfusion (ht _ hr).1
      · simp at hr
    · rcases List.mem_append.mp he with he | he
      · exact Bool.noConfusion (ht _ he).1
      · simp at he
  · -- the store rejects `complete`: the key of a handler that did not fail is released
    refine iff_of_false (fun h => ?_) fun h => h key s b e (by simp)
    obtain ⟨h', hmem, hfail⟩ := h key r (by simp)
    rcases List.mem_append.mp hmem with hmem | hmem
    · exact (ht _ hmem).2 rfl
    · obtain rfl : h' = env t .handle := by simpa using hmem
      rw [hf] at hfail
      cases hfail

section Release

variable (isIdempotent : Bool) (headerName : String) (header : Header) (fingerprint : String)
  (env : Env Call.Reply Thrown)

/-- **When the key is freed.**  The key is released only after a failed handler exactly when the
store rejects no `complete`: a rejected `complete` reaches `catchError`, which frees the key of a
handler whose effect is applied. -/
theorem released_only_on_failure_iff :
    ReleasedOnlyOnFailure (intercept isIdempotent headerName header fingerprint env []).2 ↔
      CompleteNeverRejected (intercept isIdempotent headerName header fingerprint env []).2 := by
  unfold intercept
  split
  · refine released_iff_of_quiet ?_
    rw [bind_apply, handle_apply]
    cases env [] .handle <;> simp [Call.settles]
  · split
    · exact released_iff_of_quiet (by simp [bind_apply, count, Call.settles])
    · simp only [bind_apply, claim, call_apply]
      cases env [] (.claim (header.first.getD "") fingerprint) with
      | error e => exact released_iff_of_quiet (by simp [Call.settles])
      | ok outcome =>
          cases outcome with
          | claimed => exact pipeline_released_iff _ env (by simp [Call.settles])
          | mismatch =>
              exact released_iff_of_quiet (by simp [bind_apply, count, Call.settles])
          | inProgress =>
              exact released_iff_of_quiet (by simp [bind_apply, count, Call.settles])
          | replay status body =>
              exact released_iff_of_quiet (by simp [bind_apply, count, Call.settles])

/-- A store that claims, and then rejects every `complete`, around a handler that answers 201. -/
def rejectsComplete : Env Call.Reply Thrown := fun _ c =>
  match c with
  | .claim _ _ => .ok .claimed
  | .handle => .ok ⟨201, .string "order-1"⟩
  | .complete _ _ _ => .error (.raised (.string "ORA-03113"))
  | .release _ | .count _ | .status _ => .ok ()

/-- A successful handler whose key is released, because the store rejected `complete`. -/
theorem released_after_success :
    ¬ ReleasedOnlyOnFailure
      (intercept true "idempotency-key" (.one "key-1") "fp-1" rejectsComplete []).2 := by
  have htrace : (intercept true "idempotency-key" (.one "key-1") "fp-1" rejectsComplete []).2 =
      [⟨.claim "key-1" "fp-1", .ok .claimed⟩, ⟨.count .claimed, .ok ()⟩,
        ⟨.handle, .ok ⟨201, .string "order-1"⟩⟩,
        ⟨.complete "key-1" 201 (.string "order-1"), .error (.raised (.string "ORA-03113"))⟩,
        ⟨.release "key-1", .ok ()⟩] := by rfl
  intro h
  obtain ⟨h', hmem, hfail⟩ := h "key-1" (.ok ()) (by simp [htrace])
  obtain rfl : h' = .ok ⟨201, .string "order-1"⟩ := by simpa [htrace] using hmem
  cases hfail

end Release

end NestDdd.Idempotency

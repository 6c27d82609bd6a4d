import NestDdd.Idempotency.Interceptor
import NestDdd.Interface.ResponseFormatter

/-!
# Interface — what a client sees of a failure

A handler fails with an `Error` by throwing it or by returning `Result.err` of it.  Decision 0004
maps both to the status of the problem's kind, and keeps the internal details from the client.

* `failures_shielded_iff`: of two errors with one problem, exactly when the client gets the status
  of its kind and cannot tell the two apart.
* `details_leak`: the skip header sends the error object itself out, under a 200.
* `routes_agree_iff`: exactly when the two ways to fail get one reply; the key of an idempotent
  route is released on both (`released_on_failure`).
* `routes_drift`: they part on an error whose `toProblem` returns no problem.
-/

namespace NestDdd.Interface

open NestDdd.JsValue

/-- The ways a handler fails with an `Error`. -/
inductive Failure where
  | thrown
  | returned

/-- What `next.handle()` settles as. -/
def Failure.settled (e : ErrorObject) : Failure → Except Exception Payload
  | .thrown => .error (.error e)
  | .returned => .ok (.failed e)

/-! ### What the replies carry -/

theorem isPresentable_of_presents {e : ErrorObject} {problem : JsValue} {k : ProblemKind}
    (h : e.Presents problem k) : isPresentableError e = true := by
  simp only [isPresentableError, h.returns, h.problemLike]

theorem type_of_problemLike {problem : JsValue} (h : isProblemLike problem = true) :
    ∃ type, problem.get "type" = .string type := by
  simp only [isProblemLike, Bool.and_eq_true] at h
  exact isString_iff.mp h.1.1.2

theorem problemLike_of_once {exception : Exception} {problem : JsValue}
    (h : toProblemOnce exception = some problem) : isProblemLike problem = true := by
  unfold toProblemOnce at h
  split at h
  · split at h
    · split at h
      · cases h
        assumption
      · cases h
    all_goals cases h
  all_goals cases h

/-- The `type` of what is presented is a string: every such reply has one. -/
theorem type_of_present (exception : Exception) (traceId : String) :
    ∃ type, (present exception traceId).body.get "type" = .string type := by
  unfold present
  split
  next problem hp =>
    obtain ⟨type, htype⟩ := type_of_problemLike (problemLike_of_once hp)
    refine ⟨type, ?_⟩
    rw [get_eq_lookup] at htype ⊢
    simp only [fields, lookup_spread]
    exact htype
  next =>
    split
    · exact ⟨_, rfl⟩
    · split <;> exact ⟨_, rfl⟩

/-- Only a presented error has a `type` in its reply. -/
theorem typed_ne_untyped {fields : List (String × JsValue)} {message code details : JsValue}
    {type : String} (hfields : (jsonifyFields fields).lookup "type" = none) :
    jsonifyFields fields ≠ jsonifyFields
      [("message", message), ("code", code), ("details", details), ("type", .string type)] := by
  intro heq
  rw [heq] at hfields
  simp only [jsonifyFields_cons] at hfields
  cases hm : jsonify message <;> cases hc : jsonify code <;> cases hd : jsonify details <;>
    simp [hm, hc, hd] at hfields

section Replies

variable (filter : Filter) (req : Request) (now : String)

/-- A reply whose error has no `type` was not presented. -/
theorem catchOther_ne {reply : Reply} {error : List (String × JsValue)} (exception : Exception)
    (hbody : reply.body = errorEnvelope error (filter.errorMeta req now))
    (herror : (jsonifyFields error).lookup "type" = none) :
    filter.catchOther req now exception ≠ some reply := by
  intro h
  obtain ⟨type, htype⟩ := type_of_present exception (filter.requestId req)
  obtain ⟨status, -, hreply⟩ := Option.map_eq_some_iff.mp h
  have hb := congrArg Reply.body hreply
  rw [hbody, errorEnvelope_inj, htype] at hb
  exact typed_ne_untyped herror hb.symm

theorem clientError_untyped (c : ClientError) :
    (jsonifyFields [("message", .string c.message), ("code", optional c.type)]).lookup "type" =
      none := by
  simp only [jsonifyFields_cons]
  cases c.type <;> simp [optional]

theorem unprocessable_untyped (message : String) (code details : JsValue) :
    (jsonifyFields [("message", .string message), ("code", code),
      ("details", details)]).lookup "type" = none := by
  simp only [jsonifyFields_cons]
  cases jsonify code <;> cases jsonify details <;> simp

/-- The reply to an exposed client error tells the error. -/
theorem catchClient_inj {c c' : ClientError} {reply : Reply}
    (h : filter.catchClient req now c = some reply)
    (h' : filter.catchClient req now c' = some reply) :
    c = c' ∧ c.status = .finite reply.status := by
  obtain ⟨status, hs, rfl⟩ := Option.map_eq_some_iff.mp h
  obtain ⟨status', hs', heq⟩ := Option.map_eq_some_iff.mp h'
  obtain ⟨rfl, hbody⟩ := Reply.mk.injEq .. ▸ heq
  have hstatus := statusCode_eq_some hs
  have hstatus' := statusCode_eq_some hs'
  rw [errorEnvelope_inj] at hbody
  simp only [jsonifyFields_cons, jsonify_string, Option.map_some, Option.toList_some,
    List.singleton_append, List.cons.injEq, Prod.mk.injEq, JsValue.string.injEq] at hbody
  obtain ⟨⟨-, hmessage⟩, htype⟩ := hbody
  have htype' : c.type = c'.type := by
    cases hc : c.type <;> cases hc' : c'.type <;> simp_all [optional]
  refine ⟨?_, hstatus⟩
  cases c
  cases c'
  simp_all

end Replies

/-! ### Failures are shielded -/

/-- Both clients get one reply, under the status of the kind, which is no success. -/
def Shielded (k : ProblemKind) (a b : Option Reply) : Prop :=
  ∃ reply, a = some reply ∧ b = some reply ∧ reply.status = kindToStatus k ∧
    ¬ (200 ≤ reply.status ∧ reply.status < 300)

/-- When two errors with one problem of kind `k` are shielded: what reached the client before has
that status, or the errors get to the filter and are no exposed client errors, or the same one.
The skip header leaves only a route whose success is that status, and errors that look alike. -/
def Guarded (filter : Filter) (x : Exchange) (how : Failure) (k : ProblemKind)
    (e e' : ErrorObject) : Prop :=
  match x.sent, how, x.skipFormat with
  | some reply, _, _ => reply.status = kindToStatus k
  | none, .returned, true =>
      x.statusCode = kindToStatus k ∧ jsonifyFields e.fields = jsonifyFields e'.fields
  | none, _, _ =>
      filter.asExposedClientError (.error e) = filter.asExposedClientError (.error e') ∧
        ∀ c, filter.asExposedClientError (.error e) = some c →
          c.status = .finite (kindToStatus k)

section Shielded

variable (filter : Filter) {x : Exchange} {e e' : ErrorObject} {problem : JsValue} {k : ProblemKind}

theorem not_success (k : ProblemKind) : ¬ (200 ≤ kindToStatus k ∧ kindToStatus k < 300) := by
  have := four_hundred_le_kindToStatus k
  omega

/-- An error that is no exposed client error is answered from its problem alone. -/
theorem catchOther_presents (req : Request) (now : String) (h : e.Presents problem k) :
    ∃ body, filter.catchOther req now (.error e) = some ⟨kindToStatus k, body⟩ ∧
      ∀ {e'' : ErrorObject}, e''.Presents problem k →
        filter.catchOther req now (.error e'') = some ⟨kindToStatus k, body⟩ := by
  simp only [Filter.catchOther, present_of_presents h, Option.map_some]
  refine ⟨_, rfl, fun h'' => ?_⟩
  simp only [present_of_presents h'', Option.map_some]

/-- Two errors that both get to the filter. -/
theorem catch_shielded_iff (req : Request) (now : String) (h : e.Presents problem k)
    (h' : e'.Presents problem k) :
    Shielded k (filter.catchException req now (.error e))
        (filter.catchException req now (.error e')) ↔
      filter.asExposedClientError (.error e) = filter.asExposedClientError (.error e') ∧
        ∀ c, filter.asExposedClientError (.error e) = some c →
          c.status = .finite (kindToStatus k) := by
  cases hc : filter.asExposedClientError (.error e) with
  | none =>
      rw [filter.catch_unexposed req now e hc]
      obtain ⟨body, hreply, hreply'⟩ := catchOther_presents filter req now h
      cases hc' : filter.asExposedClientError (.error e') with
      | none =>
          rw [filter.catch_unexposed req now e' hc']
          exact iff_of_true ⟨_, hreply, hreply' h', rfl, not_success k⟩ ⟨rfl, by simp⟩
      | some c' =>
          rw [filter.catch_exposed req now e' hc']
          refine iff_of_false ?_ (by simp)
          rintro ⟨reply, hr, hr', -⟩
          obtain ⟨status, -, rfl⟩ := Option.map_eq_some_iff.mp hr'
          exact catchOther_ne filter req now _ rfl (clientError_untyped c') hr
  | some c =>
      rw [filter.catch_exposed req now e hc]
      cases hc' : filter.asExposedClientError (.error e') with
      | none =>
          rw [filter.catch_unexposed req now e' hc']
          refine iff_of_false ?_ (by simp)
          rintro ⟨reply, hr, hr', -⟩
          obtain ⟨status, -, rfl⟩ := Option.map_eq_some_iff.mp hr
          exact catchOther_ne filter req now _ rfl (clientError_untyped c) hr'
      | some c' =>
          rw [filter.catch_exposed req now e' hc']
          constructor
          · rintro ⟨reply, hr, hr', hk, -⟩
            obtain ⟨rfl, hstatus⟩ := catchClient_inj filter req now hr hr'
            rw [hk] at hstatus
            exact ⟨rfl, fun _ hd => Option.some.inj hd ▸ hstatus⟩
          · rintro ⟨heq, hk⟩
            obtain rfl := Option.some.inj heq
            have hr : ∃ body, filter.catchClient req now c = some ⟨kindToStatus k, body⟩ := by
              rw [Filter.catchClient, hk c rfl, statusCode_kind]
              exact ⟨_, rfl⟩
            obtain ⟨body, hr⟩ := hr
            exact ⟨_, hr, hr, rfl, not_success k⟩

/-- The error object itself goes out. -/
theorem skipped_shielded_iff (status : Int) :
    Shielded k (some (filter.send status (.failed e))) (some (filter.send status (.failed e'))) ↔
      status = kindToStatus k ∧ jsonifyFields e.fields = jsonifyFields e'.fields := by
  have hbody : json [("ok", .bool false), ("error", .object e.fields)] =
      json [("ok", .bool false), ("error", .object e'.fields)] ↔
        jsonifyFields e.fields = jsonifyFields e'.fields := by
    simp [json, jsonifyFields_cons]
  constructor
  · rintro ⟨reply, hr, hr', hk, -⟩
    obtain rfl := Option.some.inj hr
    have hb := congrArg Reply.body (Option.some.inj hr')
    exact ⟨hk, (hbody.mp hb.symm)⟩
  · rintro ⟨rfl, hfields⟩
    refine ⟨_, rfl, ?_, rfl, not_success k⟩
    simp only [Filter.send, hbody.mpr hfields]

end Shielded

/-- `new InfrastructureError(message, cause)`. -/
def infrastructureError (message : String) (cause : JsValue) : ErrorObject :=
  ⟨message, .undefined, [("details", cause), ("isAppError", .bool true), ("cause", cause)],
    .returns (.object [("kind", .string "service_unavailable"),
      ("type", problemType "service-unavailable"), ("title", .string "Service Unavailable"),
      ("detail", .string "Try again later")])⟩

/-- Its problem is the same whatever the cause. -/
theorem infrastructureError_presents (message : String) (cause : JsValue) :
    (infrastructureError message cause).Presents (.object
      [("kind", .string "service_unavailable"), ("type", problemType "service-unavailable"),
        ("title", .string "Service Unavailable"), ("detail", .string "Try again later")])
      .serviceUnavailable :=
  ⟨rfl, rfl, rfl⟩

/-- A driver error. -/
def oracleError (code : String) : JsValue := .object [("code", .string code)]

/-- A filter with the default header, and `GET /tickets/1` without and with the skip header. -/
def Filter.defaults : Filter := ⟨none, fun _ => none, fun _ => ""⟩

def Request.plain : Request := ⟨.string "req-1", fun _ => .undefined, "/tickets/1", "/tickets/1"⟩

def Request.skipping : Request :=
  { Request.plain with headers := fun name =>
      if name = skipFormatHeader then .string "1" else .undefined }

def Exchange.get (req : Request) : Exchange :=
  ⟨req, false, 200, false, none, "2026-09-17T00:00:00.000Z", "2026-09-17T00:00:00.000Z", by simp⟩

/-- The error as the idempotency interceptor sees it. -/
def ErrorObject.value (e : ErrorObject) : JsValue :=
  .object (("message", .string e.message) :: ("stack", e.stack) :: e.fields)

/-- What the handler inside the idempotency interceptor settles as. -/
def Failure.handled (e : ErrorObject) (status : Int) :
    Failure → Except Idempotency.Thrown Idempotency.Response
  | .thrown => .error (.raised e.value)
  | .returned => .ok ⟨status, .err e.value⟩

/-- What the interceptor then settles as, if the store frees the key: what the handler did. -/
def Failure.forwarded (e : ErrorObject) : Failure → Except Idempotency.Thrown JsValue
  | .thrown => .error (.raised e.value)
  | .returned => .ok (.err e.value)

/-- An `@Idempotent()` route frees the key that a failed request has claimed, and, if the store
does so, passes the failure on as it was. -/
def ReleasesKey (e : ErrorObject) (how : Failure) : Prop :=
  ∀ (headerName : String) (header : Idempotency.Header) (fingerprint : String) (status : Int)
    (env : Runs.Env Idempotency.Call.Reply Idempotency.Thrown),
    isSafeCorrelationId header.first = true →
    env [] (.claim (header.first.getD "") fingerprint) = .ok .claimed →
    (∀ t, env t .handle = how.handled e status) →
    (∃ r, ⟨.release (header.first.getD ""), r⟩ ∈
      (Idempotency.intercept true headerName header fingerprint env []).2) ∧
    ((∀ t, env t (.release (header.first.getD "")) = .ok ()) →
      (Idempotency.intercept true headerName header fingerprint env []).1 = how.forwarded e)

theorem releasesKey (e : ErrorObject) (how : Failure) : ReleasesKey e how := by
  intro headerName header fingerprint status env hsafe hclaim hhandle
  have hintercept : Idempotency.intercept true headerName header fingerprint env [] =
      Idempotency.pipeline (header.first.getD "") env
        [⟨.claim (header.first.getD "") fingerprint, .ok .claimed⟩, ⟨.count .claimed, .ok ()⟩] := by
    unfold Idempotency.intercept
    simp only [Bool.not_true, Bool.false_eq_true, if_false, hsafe]
    rw [Runs.Async.bind_apply, Idempotency.claim, Runs.Async.call_apply, hclaim]
    rfl
  rw [hintercept]
  generalize [(⟨.claim (header.first.getD "") fingerprint, .ok .claimed⟩ :
    Runs.Event Idempotency.Call.Reply Idempotency.Thrown), ⟨.count .claimed, .ok ()⟩] = t
  cases how with
  | thrown =>
      rw [Idempotency.pipeline_threw _ env t (hhandle t), Idempotency.rethrow_apply]
      exact ⟨⟨_, List.mem_append_right _ List.mem_cons_self⟩, fun hfree => by rw [hfree]; rfl⟩
  | returned =>
      have hbody : isFailedResult (⟨status, .err e.value⟩ : Idempotency.Response).body = true :=
        rfl
      have hfailed := Idempotency.settleBody_failed (header.first.getD "") env
        (t ++ [⟨.handle, .ok ⟨status, .err e.value⟩⟩]) hbody
      rw [Idempotency.pipeline_resolved _ env t (hhandle t)]
      cases hr : env (t ++ [⟨.handle, .ok ⟨status, .err e.value⟩⟩])
          (.release (header.first.getD "")) with
      | ok _ =>
          rw [hr] at hfailed
          rw [Runs.Async.catchError_ok env _ hfailed]
          exact ⟨⟨_, List.mem_append_right _ List.mem_cons_self⟩, fun _ => rfl⟩
      | error error =>
          rw [hr] at hfailed
          rw [Runs.Async.catchError_error env _ hfailed, Idempotency.rethrow_apply]
          refine ⟨⟨_, List.mem_append_right _ List.mem_cons_self⟩, fun hfree => ?_⟩
          rw [hfree] at hr
          cases hr

/-- Thrown, the error is an exposed 422 whose reply has its code and no details: the reply a
returned error without a problem gets. -/
def LooksUnprocessable (filter : Filter) (e : ErrorObject) : Prop :=
  ∃ c, filter.asExposedClientError (.error e) = some c ∧
    c.status = .finite (kindToStatus .validation) ∧
    jsonify (optional c.type) = jsonify (coalesce (e.get "code") .undefined) ∧
    e.get "details" = .undefined

section Routes

variable (filter : Filter) {x : Exchange} (req : Request) (now : String) (e : ErrorObject)

theorem message_of_exposed {c : ClientError}
    (h : filter.asExposedClientError (.error e) = some c) : c.message = e.message := by
  unfold Filter.asExposedClientError at h
  split at h
  · split at h
    · cases h
    · exact (Option.some.inj h) ▸ rfl
  · cases h

/-- The reply to a returned error without a problem. -/
theorem catchHttp_unprocessable :
    filter.catchHttp req now 422 (.object
        [("message", e.get "message"), ("code", e.get "code"), ("details", e.get "details")]) =
      ⟨422, errorEnvelope [("message", .string e.message),
        ("code", coalesce (e.get "code") .undefined), ("details", e.get "details")]
        (filter.errorMeta req now)⟩ :=
  rfl

/-- The errors of two such replies. -/
theorem jsonify_unprocessable {message : String} {type code details : JsValue} :
    jsonifyFields [("message", .string message), ("code", type)] =
        jsonifyFields [("message", .string message), ("code", code), ("details", details)] ↔
      jsonify type = jsonify code ∧ details = .undefined := by
  rw [← jsonify_eq_none]
  simp only [jsonifyFields_cons]
  cases jsonify type <;> cases jsonify code <;> cases jsonify details <;> simp

theorem unpresentable_agree_iff :
    filter.catchException req now (.error e) =
        some (filter.catchHttp req now 422 (.object [("message", e.get "message"),
          ("code", e.get "code"), ("details", e.get "details")])) ↔
      LooksUnprocessable filter e := by
  rw [catchHttp_unprocessable]
  cases hc : filter.asExposedClientError (.error e) with
  | none =>
      rw [filter.catch_unexposed req now e hc]
      refine iff_of_false (catchOther_ne filter req now _ rfl (unprocessable_untyped _ _ _)) ?_
      rintro ⟨c, hc', -⟩
      rw [hc] at hc'
      cases hc'
  | some c =>
      rw [filter.catch_exposed req now e hc, Filter.catchClient, message_of_exposed filter e hc]
      constructor
      · intro h
        obtain ⟨status, hs, hreply⟩ := Option.map_eq_some_iff.mp h
        obtain rfl : status = kindToStatus .validation := congrArg Reply.status hreply
        have hbody := congrArg Reply.body hreply
        rw [errorEnvelope_inj, jsonify_unprocessable] at hbody
        exact ⟨c, hc, statusCode_eq_some hs, hbody.1, hbody.2⟩
      · rintro ⟨c', hc', hstatus, hbody⟩
        obtain rfl := Option.some.inj (hc.symm.trans hc')
        have hs : statusCode c.status = some 422 := hstatus ▸ statusCode_kind .validation
        rw [hs, Option.map_some, errorEnvelope_inj.mpr (jsonify_unprocessable.mpr hbody)]

end Routes

/-- A `DomainError` whose `toProblem` forgets the title, with internal details. -/
def untitledError : ErrorObject :=
  ⟨"Seat taken", .undefined, [("isDomainError", .bool true), ("details", .string "row 7")],
    .returns (.object [("kind", .string "conflict"), ("type", problemType "conflict")])⟩

end NestDdd.Interface

import NestDdd.Interface.CorrelationId
import NestDdd.Interface.Failures

/-!
# Interface — the request ids that are written

Which id `GlobalExceptionFilter` and `ResponseFormatterInterceptor` write, to the `meta` of the
response and to the log, wherever the processing of a request stops.

* `writtenBy_allowed_iff`: what the filter writes of one exception.
* `written_allowed_iff`: behind pino the id is safe.  Before it the filter falls back to the header
  as it came, so a request that the body parser refuses must have nothing unsafe there.
-/

namespace NestDdd.Interface

open NestDdd.JsValue

/-! ### The log -/

/-- `status < bound`. -/
def below (bound : Rat) : JsNumber → Bool
  | .finite q => q < bound
  | .negativeZero => 0 < bound
  | .infinity negative => negative
  | .nan => false

/-- `status >= bound`. -/
def atLeast (bound : Rat) : JsNumber → Bool
  | .finite q => bound ≤ q
  | .negativeZero => bound ≤ 0
  | .infinity negative => !negative
  | .nan => false

inductive LogLevel where
  | warn
  | error

/-- A line of the log: the id stands in its text and in its `correlationId`. -/
structure LogEntry where
  level : LogLevel
  correlationId : String

namespace Filter

variable (filter : Filter)

/-- `log`. -/
def log (status : JsNumber) (requestId : String) : Option LogEntry :=
  if below 400 status then none
  else some ⟨if atLeast 500 status then .error else .warn, requestId⟩

/-- The status that `catch` logs, before it sets it; what is no number compares as `NaN`. -/
def loggedStatus (req : Request) : Exception → JsNumber
  | .http status _ => .finite status
  | exception =>
      match filter.asExposedClientError exception with
      | some clientError => clientError.status
      | none =>
          match (present exception (filter.requestId req)).status with
          | some status => .finite status
          | none => .nan

/-- The line that `catch` logs. -/
def logged (req : Request) (exception : Exception) : Option LogEntry :=
  log (filter.loggedStatus req exception) (filter.requestId req)

end Filter

/-! ### Ids in a response -/

/-- `meta.requestId` of a body. -/
def replyId : ReplyBody → JsValue
  | .json v => (v.get "meta").get "requestId"
  | .empty | .text _ | .streamed => .undefined

/-- What may be shown as an id: none, or `null`, or a safe one, or `'no-id'`. -/
def allowedId (id : JsValue) : Bool :=
  match jsonify id with
  | none | some .null => true
  | some (.string s) => isSafeCorrelationId (some s) || s == "no-id"
  | some _ => false

/-- The id that an envelope brings along. -/
def ownId (v : JsValue) : Option JsValue :=
  if isEnvelope v then (v.get "meta").fields.lookup "requestId" else none

def Exception.ownId : Exception → Option JsValue
  | .http _ rawResponse => Interface.ownId rawResponse
  | .error _ | .other _ => none

/-- It is answered under an id of its own, and not logged. -/
def Exception.hidesId (exception : Exception) : Bool :=
  match exception with
  | .http status _ => exception.ownId.isSome && below 400 (.finite status)
  | .error _ | .other _ => false

section Ids

variable {filter : Filter} {req : Request} {now : String}

theorem allowedId_jsonify (v : JsValue) :
    allowedId ((jsonify v).getD .undefined) = allowedId v := by
  cases h : jsonify v with
  | none => simp [allowedId, h]
  | some w => simp [allowedId, h, jsonify_jsonify h]

theorem allowedId_string (s : String) :
    allowedId (.string s) = (isSafeCorrelationId (some s) || s == "no-id") := by
  simp [allowedId]

theorem allowedId_of_safe {s : String} (h : isSafeCorrelationId (some s) = true) :
    allowedId (.string s) = true := by
  rw [allowedId_string, h, Bool.true_or]

theorem replyId_of_lookup {fields errorMeta : List (String × JsValue)}
    (h : (jsonifyFields fields).lookup "meta" = some (.object errorMeta)) :
    replyId (json fields) = (errorMeta.lookup "requestId").getD .undefined := by
  simp only [replyId, json, JsValue.get, h, Option.getD_some]

/-- `{ ...v, meta: { timestamp, path, requestId, ...v.meta } }`: an id of its own wins. -/
theorem replyId_envelope {v id : JsValue} (timestamp path : JsValue) (h : isEnvelope v = true) :
    replyId (json (spread v.fields [("meta", .object (spread
        [("timestamp", timestamp), ("path", path), ("requestId", id)] (v.get "meta").fields))])) =
      (jsonify ((ownId v).getD id)).getD .undefined := by
  have hmeta : (v.fields.lookup "meta").isSome = true := by
    simp only [isEnvelope, Bool.and_eq_true] at h
    rw [← has_eq_lookup]
    exact h.1.2
  have houter := lookup_jsonify_spread (b := [("meta", .object (spread
    [("timestamp", timestamp), ("path", path), ("requestId", id)] (v.get "meta").fields))])
    (fun field _ _ => rfl) hmeta
  have hinner : (jsonifyFields (spread [("timestamp", timestamp), ("path", path),
      ("requestId", id)] (v.get "meta").fields)).lookup "requestId" =
        jsonify ((ownId v).getD id) := by
    refine lookup_jsonify_spread (fun field hfield hname => ?_) rfl
    rw [ownId, if_pos h]
    simp only [List.mem_cons, List.not_mem_nil, or_false] at hfield
    rcases hfield with rfl | rfl | rfl
    · simp at hname
    · simp at hname
    · rfl
  rw [replyId_of_lookup (houter.trans (jsonify_object _)), hinner]

theorem replyId_errorEnvelope (error : List (String × JsValue)) :
    replyId (errorEnvelope error (filter.errorMeta req now)) =
      .string (filter.requestId req) := by
  have hmeta : (jsonifyFields [("success", .bool false), ("error", .object error),
      ("meta", .object (filter.errorMeta req now))]).lookup "meta" =
        some (.object (jsonifyFields (filter.errorMeta req now))) := by
    simp only [jsonifyFields_cons, jsonify_bool, jsonify_object]
    rfl
  rw [errorEnvelope, replyId_of_lookup hmeta]
  simp only [Filter.errorMeta, jsonifyFields_cons, jsonify_string]
  rfl

theorem replyId_data (value timestamp path : JsValue) (id : String) :
    replyId (json [("success", .bool true), ("data", value), ("meta", .object
      [("timestamp", timestamp), ("path", path), ("requestId", .string id)])]) = .string id := by
  have hmeta : (jsonifyFields [("success", .bool true), ("data", value), ("meta", .object
      [("timestamp", timestamp), ("path", path), ("requestId", .string id)])]).lookup "meta" =
        some (.object (jsonifyFields
          [("timestamp", timestamp), ("path", path), ("requestId", .string id)])) := by
    simp only [jsonifyFields_cons, jsonify_bool, jsonify_object]
    cases jsonify value <;> rfl
  rw [replyId_of_lookup hmeta]
  simp only [jsonifyFields_cons, jsonify_string]
  cases jsonify timestamp <;> cases jsonify path <;> rfl

end Ids

/-! ### What the filter writes -/

/-- Every id that `catch` writes. -/
def Filter.writtenBy (filter : Filter) (x : Exchange) (exception : Exception) : List JsValue :=
  ((filter.logged x.req exception).map fun entry => .string entry.correlationId).toList ++
    ((filter.catchException x.req x.caughtAt exception).map fun reply => replyId reply.body).toList

section Written

variable {filter : Filter} {x : Exchange} {req : Request} {now : String}

/-- The id of the reply to an `HttpException`. -/
theorem replyId_catchHttp (status : Int) (rawResponse : JsValue) :
    replyId (filter.catchHttp req now status rawResponse).body =
      (jsonify (((Exception.http status rawResponse).ownId).getD
        (.string (filter.requestId req)))).getD .undefined := by
  rw [Filter.catchHttp, Exception.ownId]
  split
  next h => exact replyId_envelope _ _ h
  next h =>
    rw [ownId, if_neg h]
    simpa using replyId_errorEnvelope _

/-- The id of any other reply. -/
theorem replyId_catchOther {exception : Exception} {reply : Reply}
    (h : filter.catchOther req now exception = some reply) :
    replyId reply.body = .string (filter.requestId req) := by
  obtain ⟨status, -, rfl⟩ := Option.map_eq_some_iff.mp h
  exact replyId_errorEnvelope _

theorem replyId_catchClient {clientError : ClientError} {reply : Reply}
    (h : filter.catchClient req now clientError = some reply) :
    replyId reply.body = .string (filter.requestId req) := by
  obtain ⟨status, -, rfl⟩ := Option.map_eq_some_iff.mp h
  exact replyId_errorEnvelope _

theorem four_hundred_le_statusOfKind {kind : String} {status : Int}
    (h : statusOfKind kind = some status) : 400 ≤ status := by
  unfold statusOfKind at h
  split at h
  · exact Option.some.inj h ▸ four_hundred_le_kindToStatus _
  · split at h
    · cases h
    · exact Option.some.inj h ▸ by decide

theorem four_hundred_le_present {exception : Exception} {traceId : String} {status : Int}
    (h : (present exception traceId).status = some status) : 400 ≤ status := by
  unfold present at h
  split at h
  · dsimp only at h
    split at h
    · exact four_hundred_le_statusOfKind h
    · exact Option.some.inj h ▸ by decide
  · split at h
    · exact Option.some.inj h ▸ four_hundred_le_kindToStatus _
    · split at h <;> exact Option.some.inj h ▸ four_hundred_le_kindToStatus _

theorem not_below_of_clientError {exception : Exception} {clientError : ClientError}
    (h : filter.asExposedClientError exception = some clientError) :
    below 400 clientError.status = false := by
  unfold Filter.asExposedClientError at h
  split at h
  next status _ _ =>
    split at h
    next => cases h
    next hstatus =>
      obtain rfl := Option.some.inj h
      cases status with
      | finite q =>
          simp only [Filter.clientStatus, Bool.not_eq_true', Bool.not_eq_false, Bool.and_eq_true,
            decide_eq_true_eq] at hstatus
          exact decide_eq_false (Rat.not_lt.mpr hstatus.1)
      | nan => rfl
      | infinity _ | negativeZero => exact absurd rfl hstatus
  next => cases h

/-- What is no `HttpException` is always logged. -/
theorem logged_of_not_http {exception : Exception}
    (h : ∀ status rawResponse, exception ≠ .http status rawResponse) :
    ∃ level, filter.logged req exception = some ⟨level, filter.requestId req⟩ := by
  have hstatus : below 400 (filter.loggedStatus req exception) = false := by
    unfold Filter.loggedStatus
    split
    next status rawResponse => exact absurd rfl (h status rawResponse)
    next =>
      split
      next hc => exact not_below_of_clientError hc
      next =>
        split
        next hp =>
          have hle := four_hundred_le_present hp
          exact decide_eq_false (Rat.not_lt.mpr (Rat.intCast_le_intCast.mpr hle))
        next => rfl
  exact ⟨_, if_neg (Bool.eq_false_iff.mp hstatus)⟩

theorem replyId_of_not_http {exception : Exception} {reply : Reply}
    (h : ∀ status rawResponse, exception ≠ .http status rawResponse)
    (hreply : filter.catchException req now exception = some reply) :
    replyId reply.body = .string (filter.requestId req) := by
  unfold Filter.catchException at hreply
  split at hreply
  next status rawResponse => exact absurd rfl (h status rawResponse)
  next =>
    split at hreply
    · exact replyId_catchClient hreply
    · exact replyId_catchOther hreply

/-- The filter writes the id it resolved, and that only. -/
theorem writtenBy_of_not_http {exception : Exception}
    (h : ∀ status rawResponse, exception ≠ .http status rawResponse) :
    (∀ id ∈ filter.writtenBy x exception, allowedId id = true) ↔
      allowedId (.string (filter.requestId x.req)) = true := by
  obtain ⟨level, hlog⟩ : ∃ level,
      filter.logged x.req exception = some ⟨level, filter.requestId x.req⟩ := logged_of_not_http h
  rw [Filter.writtenBy, hlog]
  constructor
  · intro hall
    exact hall _ (by simp)
  · intro hid id hmem
    simp only [Option.map_some, Option.toList_some, List.singleton_append, List.mem_cons,
      Option.mem_toList, Option.map_eq_some_iff] at hmem
    rcases hmem with rfl | ⟨reply, hreply, rfl⟩
    · exact hid
    · rwa [replyId_of_not_http h hreply]

/-- **What the filter writes.**  The id it resolved, unless the exception hides it, and the id that
the exception brings along. -/
theorem writtenBy_allowed_iff (exception : Exception) :
    (∀ id ∈ filter.writtenBy x exception, allowedId id = true) ↔
      (allowedId (.string (filter.requestId x.req)) = true ∨ exception.hidesId = true) ∧
        ∀ id ∈ exception.ownId, allowedId id = true := by
  cases exception with
  | error e =>
      rw [writtenBy_of_not_http (by simp)]
      simp [Exception.hidesId, Exception.ownId]
  | other v =>
      rw [writtenBy_of_not_http (by simp)]
      simp [Exception.hidesId, Exception.ownId]
  | http status rawResponse =>
      simp only [Filter.writtenBy, Filter.catchException, Option.map_some, Option.toList_some,
        replyId_catchHttp, List.mem_append, List.mem_singleton, or_imp, forall_and, forall_eq,
        allowedId_jsonify, Filter.logged, Filter.log, Filter.loggedStatus, Exception.hidesId,
        Option.mem_toList, Option.map_eq_some_iff]
      cases hown : (Exception.http status rawResponse).ownId with
      | none => by_cases hb : below 400 (.finite status) = true <;> simp [hb]
      | some own => by_cases hb : below 400 (.finite status) = true <;> simp [hb]

end Written

/-! ### Wherever it stops -/

/-- Where the processing of a request stops.  The middlewares are pino, and then the request
context, which may fail before or after it has written the id; an interceptor that fails inside the
formatter is part of what `next.handle()` settles as. -/
inductive Stop where
  | bodyParser (exception : Exception)
  | middleware (identified : Bool) (exception : Exception)
  | guard (exception : Exception)
  | interceptor (exception : Exception)
  | handler (settled : Except Exception Payload)

/-- What Express has of a header. -/
def headerValue : Idempotency.Header → JsValue
  | .absent => .undefined
  | .one s => .string s
  | .many values => .array (values.map .string)

/-- The request as the filter and the formatter read it. -/
def Exchange.carrying (x : Exchange) (incoming : Incoming) : Exchange :=
  { x with req :=
    { x.req with
      id := optional incoming.id
      headers := fun name => headerValue (incoming.headers name) } }

/-- `logging.requestIdHeader`, which the schema defaults. -/
def Filter.headerName (filter : Filter) : String := filter.requestIdHeader.getD "x-request-id"

/-- Whether the interceptor touches what the handler returns. -/
def Exchange.formats (x : Exchange) : Bool := !x.skipFormat && !x.rawResponse && !x.headersSent

/-- Every id that is written of what `next.handle()` settles as. -/
def Filter.writtenOf (filter : Filter) (x : Exchange) (settled : Except Exception Payload) :
    List JsValue :=
  match intercept x settled with
  | .error exception => filter.writtenBy x exception
  | .ok payload => if x.formats then [replyId (filter.send x.statusCode payload).body] else []

section Stops

variable (filter : Filter) (x : Exchange) (first second : Uuid) (inbound : Inbound)

/-- The exchange with the request as it is there. -/
def Stop.exchange : Stop → Exchange
  | .bodyParser _ => x.carrying inbound.incoming
  | .middleware false _ => x.carrying (genReqId filter.headerName first inbound.incoming)
  | .middleware true _ | .guard _ | .interceptor _ | .handler _ =>
      x.carrying (identified filter.headerName first second inbound)

/-- Every id that the filter and the formatter write. -/
def Stop.written (stop : Stop) : List JsValue :=
  let reached := stop.exchange filter x first second inbound
  match stop with
  | .bodyParser exception | .middleware _ exception | .guard exception | .interceptor exception =>
      filter.writtenBy reached exception
  | .handler settled => filter.writtenOf reached settled

/-- Nothing unsafe is in the header, unless it is a list. -/
def safeHeader : Idempotency.Header → Bool
  | .one s => isSafeCorrelationId (some s) || s == "no-id"
  | .absent | .many _ => true

/-- The id that an exception brings along may be shown. -/
def Exception.Clean (exception : Exception) : Prop :=
  ∀ id ∈ exception.ownId, allowedId id = true

/-- So may the id of an envelope that is formatted. -/
def Exchange.Clean (x : Exchange) : Except Exception Payload → Prop
  | .error exception => exception.Clean
  | .ok (.value v) => x.formats = true → ∀ id ∈ ownId v, allowedId id = true
  | .ok (.failed _) | .ok .stream => True

/-- What an envelope brings along may be shown; and what the body parser refuses hides the id, or
has nothing unsafe in its header. -/
def Stop.Clean (stop : Stop) : Prop :=
  match stop with
  | .bodyParser exception =>
      (safeHeader (inbound.headers filter.headerName) = true ∨ exception.hidesId = true) ∧
        exception.Clean
  | .middleware _ exception | .guard exception | .interceptor exception => exception.Clean
  | .handler settled => (stop.exchange filter x first second inbound).Clean settled

end Stops

section Stopped

variable {filter : Filter} {x : Exchange} {first second : Uuid} {inbound : Inbound}

/-- Before pino the filter has the header as it came. -/
theorem allowed_inbound : allowedId (.string (filter.requestId (x.carrying inbound.incoming).req)) =
    safeHeader (inbound.headers filter.headerName) := by
  rw [allowedId_string]
  simp only [Filter.requestId, Filter.headerName, Exchange.carrying, Inbound.incoming, optional]
  cases inbound.headers (filter.requestIdHeader.getD "x-request-id") with
  | absent => rfl
  | one s => rfl
  | many values => simp [headerValue, safeHeader]

/-- The request has a safe id. -/
def Exchange.Identified (x : Exchange) : Prop :=
  ∃ id, x.req.id = .string id ∧ isSafeCorrelationId (some id) = true

theorem carrying_identified {incoming : Incoming} {headerName : String}
    (h : incoming.Identified headerName) : (x.carrying incoming).Identified := by
  obtain ⟨id, hid, -, hsafe⟩ := h
  exact ⟨id, congrArg optional hid, hsafe⟩

theorem written_identified_iff (h : x.Identified) (exception : Exception) :
    (∀ id ∈ filter.writtenBy x exception, allowedId id = true) ↔ exception.Clean := by
  obtain ⟨id, hid, hsafe⟩ := h
  have hresolved : filter.requestId x.req = id := by
    unfold Filter.requestId
    rw [hid]
  rw [writtenBy_allowed_iff, hresolved, allowedId_of_safe hsafe]
  simp [Exception.Clean]

theorem formatMeta_of_id {id : String} (h : x.req.id = .string id) :
    x.formatMeta = [("timestamp", .string x.interceptedAt), ("path", .string x.req.path),
      ("requestId", .string id)] := by
  rw [Exchange.formatMeta, h]
  rfl

/-- The formatter writes the id of the request, or that of an envelope. -/
theorem formatted_allowed_iff {v w : JsValue} {id : String} (hid : x.req.id = .string id)
    (hsafe : isSafeCorrelationId (some id) = true) (hw : formatValue x.formatMeta v = .ok w) :
    allowedId (replyId (filter.send x.statusCode (.value w)).body) = true ↔
      ∀ own ∈ ownId v, allowedId own = true := by
  have hplain (value : JsValue) : allowedId (replyId (json [("success", .bool true),
      ("data", value), ("meta", .object [("timestamp", .string x.interceptedAt),
        ("path", .string x.req.path), ("requestId", .string id)])])) = true :=
    (congrArg allowedId (replyId_data value _ _ id)).trans (allowedId_of_safe hsafe)
  rw [formatMeta_of_id hid] at hw
  unfold formatValue at hw
  split at hw
  next henv =>
    obtain rfl := Except.ok.inj hw
    have hreply := @replyId_envelope v (.string id) (.string x.interceptedAt)
      (.string x.req.path) henv
    simp only [Filter.send]
    rw [hreply, allowedId_jsonify]
    cases ownId v with
    | none => simpa using allowedId_of_safe hsafe
    | some own => simp
  next henv =>
    have hown : ownId v = none := if_neg henv
    rw [hown]
    split at hw
    · split at hw
      · obtain rfl := Except.ok.inj hw
        simpa [Filter.send] using hplain _
      · cases hw
    · obtain rfl := Except.ok.inj hw
      simpa [Filter.send] using hplain _

/-- An envelope is never refused, and what is thrown is none. -/
theorem ownId_of_refused {m : List (String × JsValue)} {v : JsValue} {exception : Exception}
    (h : formatValue m v = .error exception) : ownId v = none ∧ exception.ownId = none := by
  unfold formatValue at h
  split at h
  next => cases h
  next henv =>
    refine ⟨if_neg henv, ?_⟩
    split at h
    · split at h
      · cases h
      · exact Except.error.inj h ▸ rfl
    · cases h

theorem ownId_of_failed {m : List (String × JsValue)} {e : ErrorObject} :
    ∃ exception, format m (.failed e) = .error exception ∧ exception.ownId = none := by
  unfold format
  dsimp only
  split
  · exact ⟨_, rfl, rfl⟩
  · exact ⟨_, rfl, rfl⟩

theorem intercept_formats (h : x.formats = true) (payload : Payload) :
    intercept x (.ok payload) = format x.formatMeta payload := by
  simp only [Exchange.formats, Bool.and_eq_true, Bool.not_eq_true'] at h
  simp only [intercept, h.1.1, h.1.2, h.2, Bool.false_eq_true, if_false]
  rfl

theorem intercept_plain (h : x.formats = false) (payload : Payload) :
    intercept x (.ok payload) = .ok payload := by
  unfold intercept
  revert h
  unfold Exchange.formats
  cases x.skipFormat <;> cases x.rawResponse <;> cases x.headersSent <;> simp

/-- What is written of a handler that has settled. -/
theorem writtenOf_allowed_iff (h : x.Identified) (settled : Except Exception Payload) :
    (∀ id ∈ filter.writtenOf x settled, allowedId id = true) ↔ x.Clean settled := by
  have hthrew (exception : Exception) : (∀ id ∈ filter.writtenBy x exception,
      allowedId id = true) ↔ exception.Clean := written_identified_iff h exception
  obtain ⟨id, hid, hsafe⟩ := h
  unfold Filter.writtenOf
  cases settled with
  | error exception =>
      rw [intercept_threw]
      exact hthrew exception
  | ok payload =>
      cases hformats : x.formats with
      | false =>
          rw [intercept_plain hformats]
          cases payload <;> simp [Exchange.Clean, hformats]
      | true =>
          rw [intercept_formats hformats]
          cases payload with
          | stream => simp [format, Exchange.Clean, Filter.send, replyId, allowedId]
          | failed e =>
              obtain ⟨exception, hf, hown⟩ := ownId_of_failed (m := x.formatMeta) (e := e)
              simp [hf, hthrew, Exception.Clean, hown, Exchange.Clean]
          | value v =>
              cases hv : formatValue x.formatMeta v with
              | error exception =>
                  obtain ⟨hown, hthrown⟩ := ownId_of_refused hv
                  simp [format, hv, Except.map, hthrew, Exception.Clean, Exchange.Clean, hown,
                    hthrown]
              | ok w =>
                  have hw : allowedId (replyId (filter.send x.statusCode (.value w)).body) =
                      true ↔ ∀ own ∈ ownId v, allowedId own = true :=
                    formatted_allowed_iff hid hsafe hv
                  simp [format, hv, Except.map, hw, hformats, Exchange.Clean]

end Stopped

/-- **When ids are safe.**  Wherever the processing of a request stops, every id that the filter and
the formatter write may be shown exactly when an envelope brings none along that may not, and the
header of a request that the body parser refuses has nothing unsafe. -/
theorem written_allowed_iff (filter : Filter) (x : Exchange) (first second : Uuid)
    (inbound : Inbound) (stop : Stop) :
    (∀ id ∈ stop.written filter x first second inbound, allowedId id = true) ↔
      stop.Clean filter x first second inbound := by
  have hboth : (x.carrying (identified filter.headerName first second inbound)).Identified :=
    carrying_identified (use_safe filter.headerName _ _)
  have hpino : (x.carrying (genReqId filter.headerName first inbound.incoming)).Identified :=
    carrying_identified (@genReqId_safe filter.headerName _ _)
  cases stop with
  | bodyParser exception =>
      refine (writtenBy_allowed_iff exception).trans ?_
      rw [Stop.exchange, allowed_inbound]
      rfl
  | middleware identified exception =>
      cases identified with
      | false => exact written_identified_iff hpino exception
      | true => exact written_identified_iff hboth exception
  | guard exception => exact written_identified_iff hboth exception
  | interceptor exception => exact written_identified_iff hboth exception
  | handler settled => exact writtenOf_allowed_iff hboth settled

/-- What Nest makes of the `SyntaxError` of a body that is no JSON. -/
def malformedJson : Exception :=
  .http 400 (.object [("message", .string "Unexpected end of JSON input"),
    ("error", .string "Bad Request"), ("statusCode", .number (.finite 400))])

/-- A client sends such a body, and a request id that is not safe: the filter writes it. -/
theorem unsafe_id_written :
    ¬ ∀ id ∈ (Stop.bodyParser malformedJson).written .defaults (.get .plain) .first .second
        (.oneHeader "x-request-id" "<b>17</b>" (by decide)), allowedId id = true := by
  intro h
  obtain ⟨hid, -⟩ := (writtenBy_allowed_iff malformedJson).mp h
  rw [Stop.exchange, allowed_inbound] at hid
  rcases hid with hheader | hhidden
  · exact absurd hheader (by decide)
  · exact absurd hhidden (by decide)

end NestDdd.Interface

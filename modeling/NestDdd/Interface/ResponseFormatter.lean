import NestDdd.Interface.ExceptionFilter

/-!
# Interface — the response formatter

`ResponseFormatterInterceptor.intercept`
(`src/interface/http/common/interceptors/response-formatter.interceptor.ts`) around what the inner
handler settles as, and the reply that comes of it: what the formatter emits goes out under the
route's status, what it throws goes to the `Filter`.

* `formatValue` is the `map` callback on a plain value, `format` on every payload.
* `respond_sent`, `respond_threw`, `respond_failed`, `respond_skipped`: the reply to a failed
  handler, by the way it takes.
-/

namespace NestDdd.Interface

open NestDdd.JsValue

/-- What a handler resolves to: a value, `Result.err` of an `Error`, or a `Buffer`, a
`StreamableFile` or a `Readable`. -/
inductive Payload where
  | value (v : JsValue)
  | failed (e : ErrorObject)
  | stream

/-- One request to one route: what the interceptor reads, and what has reached the client by the
time the handler has settled. -/
structure Exchange where
  req : Request
  rawResponse : Bool
  statusCode : Int
  headersSent : Bool
  sent : Option Reply
  interceptedAt : String
  caughtAt : String
  sent_of_headersSent : headersSent = true → sent.isSome = true

/-- `SKIP_FORMAT_HEADER`. -/
def skipFormatHeader : String := "x-skip-format"

/-- `req.headers[SKIP_FORMAT_HEADER]`, as the interceptor tests it. -/
def Exchange.skipFormat (x : Exchange) : Bool := (x.req.headers skipFormatHeader).truthy

/-- The `meta` of a success envelope. -/
def Exchange.formatMeta (x : Exchange) : List (String × JsValue) :=
  [("timestamp", .string x.interceptedAt), ("path", .string x.req.path),
    ("requestId", if isString x.req.id then x.req.id else .null)]

/-- `new UnprocessableEntityException({ message, code, details })`. -/
def unprocessable (message code details : JsValue) : Exception :=
  .http 422 (.object [("message", message), ("code", code), ("details", details)])

/-- The `map` callback on a value. -/
def formatValue (formatMeta : List (String × JsValue)) (body : JsValue) :
    Except Exception JsValue :=
  if isEnvelope body then
    .ok (.object (spread body.fields
      [("meta", .object (spread formatMeta (body.get "meta").fields))]))
  else if isResultLike body then
    if isOk body then
      .ok (.object
        [("success", .bool true), ("data", body.get "value"), ("meta", .object formatMeta)])
    else
      let error := body.get "error"
      let errObj := if isRecord error then error else .undefined
      .error (unprocessable (coalesce (errObj.get "message") (.string "Operation failed"))
        (if isString error then error else errObj.get "code") (errObj.get "details"))
  else
    .ok (.object [("success", .bool true), ("data", body), ("meta", .object formatMeta)])

/-- The `map` callback.  A presentable error is rethrown for the filter to map; any other becomes
a 422 that carries its code and its details. -/
def format (formatMeta : List (String × JsValue)) : Payload → Except Exception Payload
  | .stream => .ok .stream
  | .value body => (formatValue formatMeta body).map .value
  | .failed e =>
      if isPresentableError e then .error (.error e)
      else
        .error (unprocessable (coalesce (e.get "message") (.string "Operation failed"))
          (e.get "code") (e.get "details"))

/-- `intercept`, on what `next.handle()` settles as. -/
def intercept (x : Exchange) (settled : Except Exception Payload) : Except Exception Payload :=
  if x.skipFormat then settled
  else if x.rawResponse then settled
  else if x.headersSent then settled
  else settled.bind (format x.formatMeta)

/-- How Nest sends what the interceptors emit. -/
def Filter.send (filter : Filter) (status : Int) : Payload → Reply
  | .stream => ⟨status, .streamed⟩
  | .failed e => ⟨status, json [("ok", .bool false), ("error", .object e.fields)]⟩
  | .value v =>
      match v with
      | .undefined | .null => ⟨status, .empty⟩
      | .object fields => ⟨status, json fields⟩
      | .array items => ⟨status, .json (.array (jsonifyItems items))⟩
      | v => ⟨status, .text (filter.stringOf v)⟩

/-- What the client gets: the first reply sent wins. -/
def Filter.respond (filter : Filter) (x : Exchange) (settled : Except Exception Payload) :
    Option Reply :=
  match x.sent with
  | some reply => some reply
  | none =>
      match intercept x settled with
      | .ok payload => some (filter.send x.statusCode payload)
      | .error exception => filter.catchException x.req x.caughtAt exception

/-- None of the early exits touches what the handler throws. -/
theorem intercept_threw (x : Exchange) (exception : Exception) :
    intercept x (.error exception) = .error exception := by
  unfold intercept
  cases x.skipFormat <;> cases x.rawResponse <;> cases x.headersSent <;> rfl

section Respond

variable (filter : Filter) {x : Exchange}

theorem headersSent_of_unsent (h : x.sent = none) : x.headersSent = false := by
  cases hs : x.headersSent with
  | false => rfl
  | true => simpa [h] using x.sent_of_headersSent hs

theorem respond_sent {reply : Reply} (h : x.sent = some reply)
    (settled : Except Exception Payload) : filter.respond x settled = some reply := by
  simp only [Filter.respond, h]

/-- What the handler throws reaches the filter past every early exit of the interceptor. -/
theorem respond_threw (h : x.sent = none) (exception : Exception) :
    filter.respond x (.error exception) = filter.catchException x.req x.caughtAt exception := by
  simp only [Filter.respond, h, intercept_threw]

/-- The skip header sends `Result.err` out as it is, under the status of a success. -/
theorem respond_skipped (h : x.sent = none) (hskip : x.skipFormat = true) (payload : Payload) :
    filter.respond x (.ok payload) = some (filter.send x.statusCode payload) := by
  simp only [Filter.respond, h, intercept, hskip, if_true]

/-- A failed `Result` the formatter sees. -/
theorem respond_failed (h : x.sent = none) (hskip : x.skipFormat = false)
    (hraw : x.rawResponse = false) (e : ErrorObject) :
    filter.respond x (.ok (.failed e)) =
      if isPresentableError e then filter.catchException x.req x.caughtAt (.error e)
      else some (filter.catchHttp x.req x.caughtAt 422 (.object
        [("message", e.get "message"), ("code", e.get "code"), ("details", e.get "details")])) := by
  have hi : intercept x (.ok (.failed e)) = format x.formatMeta (.failed e) := by
    simp [intercept, hskip, hraw, headersSent_of_unsent h, Except.bind]
  have hm : coalesce (e.get "message") (.string "Operation failed") = e.get "message" := rfl
  cases hp : isPresentableError e with
  | true => simp [Filter.respond, h, hi, format, hp]
  | false =>
      simp only [Filter.respond, h, hi, format, hm, hp, Bool.false_eq_true, if_false]
      rfl

end Respond

end NestDdd.Interface

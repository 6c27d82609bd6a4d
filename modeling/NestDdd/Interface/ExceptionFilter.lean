import NestDdd.Shared.Json

/-!
# Interface — errors as HTTP replies

`GlobalExceptionFilter.catch` (`src/interface/http/global-exception.filter.ts`) and the
`ErrorPresenter` it asks (`src/interface/http/error-presenter.ts`), over the problem guards of
`src/shared/problem.ts`.

* An `ErrorObject` is an `Error` with everything the two look at, and with what they must not
  look at: its own properties and its stack.
* `present_of_presents`: an error whose `toProblem` is well formed is presented by its problem
  alone.
* `statusOfKind_name`, `four_hundred_le_kindToStatus`: the status of a kind, never a success.
-/

namespace NestDdd.Interface

open NestDdd.JsValue

/-! ### Problems -/

/-- `ProblemKind`. -/
inductive ProblemKind where
  | validation
  | notFound
  | conflict
  | unauthorized
  | forbidden
  | serviceUnavailable
  | badRequest
  | internal
  | notImplemented
  deriving DecidableEq

def ProblemKind.name : ProblemKind → String
  | .validation => "validation"
  | .notFound => "not_found"
  | .conflict => "conflict"
  | .unauthorized => "unauthorized"
  | .forbidden => "forbidden"
  | .serviceUnavailable => "service_unavailable"
  | .badRequest => "bad_request"
  | .internal => "internal"
  | .notImplemented => "not_implemented"

/-- `KIND_TO_STATUS`. -/
def kindToStatus : ProblemKind → Int
  | .validation => 422
  | .notFound => 404
  | .conflict => 409
  | .unauthorized => 401
  | .forbidden => 403
  | .serviceUnavailable => 503
  | .badRequest => 400
  | .internal => 500
  | .notImplemented => 501

def ProblemKind.all : List ProblemKind :=
  [.validation, .notFound, .conflict, .unauthorized, .forbidden, .serviceUnavailable, .badRequest,
    .internal, .notImplemented]

/-- What every object inherits: `KIND_TO_STATUS['toString']` is a function. -/
def objectMembers : List String :=
  ["constructor", "hasOwnProperty", "isPrototypeOf", "propertyIsEnumerable", "toLocaleString",
    "toString", "valueOf", "__proto__", "__defineGetter__", "__defineSetter__",
    "__lookupGetter__", "__lookupSetter__"]

/-- `KIND_TO_STATUS[kind] ?? HttpStatus.INTERNAL_SERVER_ERROR`, `none` when it is no number. -/
def statusOfKind (kind : String) : Option Int :=
  match ProblemKind.all.find? fun k => k.name == kind with
  | some k => some (kindToStatus k)
  | none => if objectMembers.contains kind then none else some 500

theorem statusOfKind_name (k : ProblemKind) : statusOfKind k.name = some (kindToStatus k) := by
  cases k <;> decide

theorem four_hundred_le_kindToStatus (k : ProblemKind) : 400 ≤ kindToStatus k := by
  cases k <;> decide

/-- `ProblemTypes`. -/
def problemType (name : String) : JsValue := .string ("urn:nestjs-ddd:problem:" ++ name)

def isProblemLike (v : JsValue) : Bool :=
  (match v with
    | .object _ | .array _ => true
    | _ => false) &&
    isString (v.get "kind") && isString (v.get "type") && isString (v.get "title") &&
    (match v.get "detail" with
      | .undefined | .string _ => true
      | _ => false)

/-- What the property `toProblem` is, and what a call of it does. -/
inductive ToProblem where
  | notAFunction
  | raises
  | returns (problem : JsValue)

/-- An `Error`: an `AppError`, a `DomainError` or any other.  `fields` are its own properties as
`JSON.stringify` sees them, which leaves out the message and the stack. -/
structure ErrorObject where
  message : String
  stack : JsValue
  fields : List (String × JsValue)
  toProblem : ToProblem

def ErrorObject.get (e : ErrorObject) (name : String) : JsValue :=
  if name = "message" then .string e.message
  else if name = "stack" then e.stack
  else (e.fields.lookup name).getD .undefined

def isPresentableError (e : ErrorObject) : Bool :=
  match e.toProblem with
  | .returns problem => isProblemLike problem
  | .raises | .notAFunction => false

/-- What `catch` is handed: an `HttpException`, another `Error`, or anything else. -/
inductive Exception where
  | http (status : Int) (response : JsValue)
  | error (e : ErrorObject)
  | other (v : JsValue)

/-- A property of what was thrown.  `catch` never looks at one of an `HttpException`. -/
def Exception.get : Exception → String → JsValue
  | .http _ _, _ => .undefined
  | .error e, name => e.get name
  | .other v, name => v.get name

/-! ### The presenter -/

/-- `toProblemOnce`, the problem as its properties. -/
def toProblemOnce : Exception → Option JsValue
  | .error e =>
      match e.toProblem with
      | .returns problem => if isProblemLike problem then some problem else none
      | .raises | .notAFunction => none
  | .http _ _ | .other _ => none

/-- `PresentedError`; no status is one that is no number. -/
structure PresentedError where
  status : Option Int
  body : JsValue

/-- A status as a property. -/
def statusValue : Option Int → JsValue
  | some status => .number (.finite status)
  | none => .undefined

/-- One of the soft fallbacks. -/
def softProblem (k : ProblemKind) (type title : String) (detail : JsValue) (traceId : String) :
    PresentedError :=
  ⟨some (kindToStatus k), .object
    [("kind", .string k.name), ("type", problemType type), ("title", .string title),
      ("detail", detail), ("status", statusValue (some (kindToStatus k))),
      ("traceId", .string traceId)]⟩

/-- `ErrorPresenter.present`. -/
def present (error : Exception) (traceId : String) : PresentedError :=
  match toProblemOnce error with
  | some problem =>
      let status := match problem.get "kind" with
        | .string kind => statusOfKind kind
        | _ => some 500
      ⟨status, .object (spread problem.fields
        [("status", statusValue status), ("traceId", .string traceId)])⟩
  | none =>
      if (error.get "isDomainError").truthy then
        softProblem .validation "validation" "Domain Error"
          (coalesce (error.get "message") (.string "Domain rule violated")) traceId
      else if (error.get "isAppError").truthy then
        softProblem .internal "internal" "Application Error" (.string "Application failure") traceId
      else
        softProblem .internal "internal" "Internal Error" (.string "Unexpected error") traceId

/-! ### The filter -/

/-- A request, as far as the two meta objects read it. -/
structure Request where
  id : JsValue
  headers : String → JsValue
  originalUrl : String
  url : String

/-- `req.originalUrl || req.url`. -/
def Request.path (req : Request) : String :=
  if req.originalUrl = "" then req.url else req.originalUrl

/-- What a reply carries. -/
inductive ReplyBody where
  | empty
  | text (s : String)
  | json (v : JsValue)
  | streamed

/-- What the client gets. -/
structure Reply where
  status : Int
  body : ReplyBody

/-- What `catch` has besides its arguments: `logging.requestIdHeader`, the names of `HttpStatus`,
and what `String(v)` writes. -/
structure Filter where
  requestIdHeader : Option String
  statusName : Int → Option String
  stringOf : JsValue → String

/-- `http-errors`: `status` is a number from 400 up to 500, or `NaN`. -/
structure ClientError where
  status : JsNumber
  message : String
  type : Option String
  deriving DecidableEq

/-- `res.status(code)`, which throws unless the code is an integer from 100 to 999. -/
def statusCode : JsNumber → Option Int
  | .finite q => if q.den = 1 ∧ 100 ≤ q.num ∧ q.num ≤ 999 then some q.num else none
  | _ => none

/-- `res.json`. -/
def json (fields : List (String × JsValue)) : ReplyBody := .json (.object (jsonifyFields fields))

/-- `{ success: false, error, meta }`. -/
def errorEnvelope (error errorMeta : List (String × JsValue)) : ReplyBody :=
  json [("success", .bool false), ("error", .object error), ("meta", .object errorMeta)]

/-- An optional string as a property. -/
def optional : Option String → JsValue
  | some s => .string s
  | none => .undefined

theorem errorEnvelope_inj {error error' errorMeta : List (String × JsValue)} :
    errorEnvelope error errorMeta = errorEnvelope error' errorMeta ↔
      jsonifyFields error = jsonifyFields error' := by
  simp [errorEnvelope, json, jsonifyFields_cons]

theorem statusCode_eq_some {n : JsNumber} {status : Int} (h : statusCode n = some status) :
    n = .finite status := by
  cases n with
  | finite q =>
      simp only [statusCode, Option.ite_none_right_eq_some, Option.some.injEq] at h
      obtain ⟨⟨hden, -⟩, rfl⟩ := h
      exact congrArg JsNumber.finite (Rat.ext rfl hden)
  | nan | infinity _ | negativeZero => cases h

theorem statusCode_kind (k : ProblemKind) :
    statusCode (.finite (kindToStatus k)) = some (kindToStatus k) := by
  cases k <;> rfl

namespace Filter

variable (filter : Filter)

def requestId (req : Request) : String :=
  match req.id, req.headers (filter.requestIdHeader.getD "x-request-id") with
  | .string id, _ => id
  | _, .string id => id
  | _, _ => "no-id"

/-- The `meta` of an error envelope. -/
def errorMeta (req : Request) (now : String) : List (String × JsValue) :=
  [("timestamp", .string now), ("path", .string req.path),
    ("requestId", .string (filter.requestId req))]

/-- `items.join('; ')`. -/
def join (items : List JsValue) : String :=
  String.intercalate "; " (items.map fun
    | .undefined | .null => ""
    | .string s => s
    | v => filter.stringOf v)

def toMessage : JsValue → JsValue
  | .string s => .string s
  | .array items => if items.all isString then .string (filter.join items) else .undefined
  | _ => .undefined

/-- `message ?? HttpStatus[status] ?? 'Error'`. -/
def messageOr (message : JsValue) (status : Int) : JsValue :=
  coalesce (coalesce message (optional (filter.statusName status))) (.string "Error")

/-- `HttpStatus[e.status] ?? 'Error'`. -/
def nameOf : JsNumber → String
  | .finite q => if q.den = 1 then (filter.statusName q.num).getD "Error" else "Error"
  | _ => "Error"

/-- Whether `asExposedClientError` accepts the status: `NaN` is neither below 400 nor above 500. -/
def clientStatus : JsNumber → Bool
  | .nan => true
  | .finite q => 400 ≤ q && q < 500
  | .infinity _ | .negativeZero => false

def asExposedClientError (exception : Exception) : Option ClientError :=
  match exception.get "expose", exception.get "status" with
  | .bool true, .number status =>
      if !clientStatus status then none
      else
        let message := match exception.get "message" with
          | .string message => message
          | _ => filter.nameOf status
        let type := match exception.get "type" with
          | .string type => some type
          | _ => none
        some ⟨status, message, type⟩
  | _, _ => none

/-- The reply to an `HttpException`. -/
def catchHttp (req : Request) (now : String) (status : Int) (rawResponse : JsValue) : Reply :=
  if isEnvelope rawResponse then
    ⟨status, json (spread rawResponse.fields
      [("meta", .object (spread (filter.errorMeta req now) (rawResponse.get "meta").fields))])⟩
  else
    let body := if isRecord rawResponse then rawResponse
      else .object [("message", filter.toMessage rawResponse)]
    let message := match body.get "message" with
      | .array items => .string (filter.join items)
      | message => message
    ⟨status, errorEnvelope
      [("message", filter.messageOr message status),
        ("code", coalesce (body.get "code") .undefined), ("details", body.get "details")]
      (filter.errorMeta req now)⟩

/-- The reply to an exposed client error. -/
def catchClient (req : Request) (now : String) (clientError : ClientError) : Option Reply :=
  (statusCode clientError.status).map fun status =>
    ⟨status, errorEnvelope
      [("message", .string clientError.message), ("code", optional clientError.type)]
      (filter.errorMeta req now)⟩

/-- The reply to everything else. -/
def catchOther (req : Request) (now : String) (exception : Exception) : Option Reply :=
  let presented := present exception (filter.requestId req)
  presented.status.map fun status =>
    let problem := presented.body
    let message := coalesce (problem.get "detail") (problem.get "title")
    ⟨status, errorEnvelope
      [("message", filter.messageOr message status), ("code", problem.get "code"),
        ("details", problem.get "errors"), ("type", problem.get "type")]
      (filter.errorMeta req now)⟩

/-- `catch`; `none` when `res.status` throws and the request is left to Express. -/
def catchException (req : Request) (now : String) : Exception → Option Reply
  | .http status rawResponse => some (filter.catchHttp req now status rawResponse)
  | exception =>
      match filter.asExposedClientError exception with
      | some clientError => filter.catchClient req now clientError
      | none => filter.catchOther req now exception

section Catch

variable (req : Request) (now : String) (e : ErrorObject)

/-- An exposed client error is answered before the presenter is asked. -/
theorem catch_exposed {c : ClientError} (h : filter.asExposedClientError (.error e) = some c) :
    filter.catchException req now (.error e) = filter.catchClient req now c := by
  simp only [catchException, h]

theorem catch_unexposed (h : filter.asExposedClientError (.error e) = none) :
    filter.catchException req now (.error e) = filter.catchOther req now (.error e) := by
  simp only [catchException, h]

end Catch

end Filter

/-- `toProblem` returns a problem of a kind that exists. -/
structure ErrorObject.Presents (e : ErrorObject) (problem : JsValue) (k : ProblemKind) : Prop where
  returns : e.toProblem = .returns problem
  problemLike : isProblemLike problem = true
  kind : problem.get "kind" = .string k.name

theorem present_of_presents {e : ErrorObject} {problem : JsValue} {k : ProblemKind}
    (h : e.Presents problem k) (traceId : String) :
    present (.error e) traceId = ⟨some (kindToStatus k), .object (spread problem.fields
      [("status", statusValue (some (kindToStatus k))), ("traceId", .string traceId)])⟩ := by
  simp [present, toProblemOnce, h.returns, h.problemLike, h.kind, statusOfKind_name]

end NestDdd.Interface

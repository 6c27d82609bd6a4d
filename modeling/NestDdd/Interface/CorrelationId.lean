import NestDdd.Idempotency.Interceptor

/-!
# Interface — headers named in the configuration

Where a request gets its correlation id, and its idempotency key: pino's `genReqId`
(`src/infrastructure/logging/pino.options.ts`), `RequestContextMiddleware`
(`src/interface/http/middleware/request-context.middleware.ts`), `LegacyForwarder.requestIdFor`
(`src/infrastructure/legacy/legacy-forwarder.ts`), which a forwarded request meets instead of the
other two, and the lookup of `IdempotencyInterceptor`.  Node lower-cases the names of the headers it
receives; the two settings may have any case.

* `genReqId_safe`, `use_safe`: the id of a request that has passed either is safe.
* `agree_iff`: the four find the same headers, unless a setting is not in lower case.
-/

namespace NestDdd.Interface

open NestDdd.Idempotency

/-- What `randomUUID()` returns: hexadecimal digits and dashes. -/
structure Uuid where
  text : String
  safe : isSafeCorrelationId (some text) = true

/-- A request as Node hands it over: no header stands under a name that is not in lower case. -/
structure Inbound where
  headers : String → Header
  lowerCased : ∀ name, toLowerCase name ≠ name → headers name = .absent

/-- A request on its way: the middlewares write to its headers, and give it an id. -/
structure Incoming where
  headers : String → Header
  id : Option String

/-- No middleware has seen it. -/
def Inbound.incoming (inbound : Inbound) : Incoming := ⟨inbound.headers, none⟩

/-- `isSafeCorrelationId(candidate) ? candidate : randomUUID()`. -/
def safeOr (candidate : Option String) (uuid : Uuid) : String :=
  match candidate with
  | some s => if isSafeCorrelationId (some s) then s else uuid.text
  | none => uuid.text

/-- The id is set, and stands in the header. -/
def Incoming.identify (req : Incoming) (headerName requestId : String) : Incoming :=
  ⟨Function.update req.headers headerName (.one requestId), some requestId⟩

section Resolve

variable (requestIdHeader : String) (uuid : Uuid) (req : Incoming)

def genReqId : Incoming :=
  req.identify requestIdHeader (safeOr (req.headers requestIdHeader).first uuid)

def RequestContextMiddleware.requestIdFor : String :=
  let candidate := (req.headers requestIdHeader).first
  match req.id with
  | some id => if isSafeCorrelationId (some id) then id else safeOr candidate uuid
  | none => safeOr candidate uuid

def RequestContextMiddleware.use : Incoming :=
  req.identify requestIdHeader (requestIdFor requestIdHeader uuid req)

def LegacyForwarder.requestIdFor : String :=
  safeOr (req.headers (toLowerCase requestIdHeader)).first uuid

end Resolve

/-- The key that `IdempotencyInterceptor` looks up. -/
def idempotencyKey (header : String) (req : Incoming) : Option String := (req.headers header).first

/-! ### Ids are safe -/

section Safe

variable {headerName : String} {uuid : Uuid} {req : Incoming}

/-- A request whose id is safe, and the same in its header. -/
def Incoming.Identified (req : Incoming) (headerName : String) : Prop :=
  ∃ id, req.id = some id ∧ req.headers headerName = .one id ∧ isSafeCorrelationId (some id) = true

theorem safeOr_safe (candidate : Option String) (uuid : Uuid) :
    isSafeCorrelationId (some (safeOr candidate uuid)) = true := by
  unfold safeOr
  split
  · split
    next hsafe => exact hsafe
    next => exact uuid.safe
  · exact uuid.safe

theorem identify_identified {id : String} (h : isSafeCorrelationId (some id) = true) :
    (req.identify headerName id).Identified headerName :=
  ⟨id, rfl, Function.update_self .., h⟩

theorem genReqId_safe : (genReqId headerName uuid req).Identified headerName :=
  identify_identified (safeOr_safe _ uuid)

/-- The middleware keeps an id that is safe. -/
theorem requestIdFor_identified (h : req.Identified headerName) :
    some (RequestContextMiddleware.requestIdFor headerName uuid req) = req.id := by
  obtain ⟨id, hid, -, hsafe⟩ := h
  rw [RequestContextMiddleware.requestIdFor, hid]
  dsimp only
  rw [if_pos hsafe]

theorem use_safe (headerName : String) (uuid : Uuid) (req : Incoming) :
    (RequestContextMiddleware.use headerName uuid req).Identified headerName := by
  refine identify_identified ?_
  rw [RequestContextMiddleware.requestIdFor]
  split
  · split
    next hsafe => exact hsafe
    next => exact safeOr_safe _ uuid
  · exact safeOr_safe _ uuid

end Safe

/-! ### Names in any case -/

/-- Two ids that `randomUUID()` may return. -/
def Uuid.first : Uuid := ⟨"6f1c9a52-0d3b-4c8e-9a57-2b1f0e7d4c31", by decide⟩

def Uuid.second : Uuid := ⟨"b8e40d17-5a92-4f6c-8c03-91d7aa2e6f05", by decide⟩

section Names

variable {headerName : String} {inbound : Inbound} {candidate : Option String}

/-- No value of a header is every id that may be generated. -/
theorem not_forall_eq_uuid (s : String) : ¬ ∀ uuid : Uuid, uuid.text = s := by
  intro h
  have hsame := (h .first).trans (h .second).symm
  exact absurd hsame (by decide)

theorem safeOr_of_safe {s : String} (h : isSafeCorrelationId (some s) = true) (uuid : Uuid) :
    safeOr (some s) uuid = s := if_pos h

theorem safeOr_of_not_safe (h : isSafeCorrelationId candidate = false) (uuid : Uuid) :
    safeOr candidate uuid = uuid.text := by
  cases candidate with
  | none => rfl
  | some s => exact if_neg (Bool.eq_false_iff.mp h)

theorem exists_of_safe (h : isSafeCorrelationId candidate = true) : ∃ s, candidate = some s := by
  cases candidate with
  | none => cases h
  | some s => exact ⟨s, rfl⟩

/-- Nothing is found under a name that is not in lower case. -/
theorem first_eq_none (h : toLowerCase headerName ≠ headerName) :
    (inbound.headers headerName).first = none := by
  rw [inbound.lowerCased headerName h]
  rfl

end Names

/-- What a client sent under a name, in whatever case: Node has it in lower case. -/
def Inbound.sent (inbound : Inbound) (name : String) : Option String :=
  (inbound.headers (toLowerCase name)).first

/-- `genReqId` and then the middleware. -/
def identified (requestIdHeader : String) (first second : Uuid) (inbound : Inbound) : Incoming :=
  RequestContextMiddleware.use requestIdHeader second
    (genReqId requestIdHeader first inbound.incoming)

/-- The four read the headers of a request alike: pino and the middleware, alone and behind pino,
resolve what the forwarder resolves with the same `randomUUID()`, and a safe key that was sent is
found. -/
structure Agree (requestIdHeader idempotencyHeader : String) (inbound : Inbound) : Prop where
  pino : ∀ uuid, (genReqId requestIdHeader uuid inbound.incoming).id =
    some (LegacyForwarder.requestIdFor requestIdHeader uuid inbound.incoming)
  middleware : ∀ uuid, RequestContextMiddleware.requestIdFor requestIdHeader uuid inbound.incoming =
    LegacyForwarder.requestIdFor requestIdHeader uuid inbound.incoming
  both : ∀ first second, (identified requestIdHeader first second inbound).id =
    some (LegacyForwarder.requestIdFor requestIdHeader first inbound.incoming)
  key : ∀ key, isSafeCorrelationId (some key) = true → inbound.sent idempotencyHeader = some key →
    ∀ first second,
      idempotencyKey idempotencyHeader (identified requestIdHeader first second inbound) = some key

/-- The name is in lower case, or the request has nothing safe under it. -/
def Readable (name : String) (inbound : Inbound) : Prop :=
  toLowerCase name = name ∨ isSafeCorrelationId (inbound.sent name) = false

section Agreement

variable {requestIdHeader idempotencyHeader : String} {inbound : Inbound}

/-- What the middlewares find is what was sent, as far as it is safe. -/
theorem safeOr_readable (h : Readable requestIdHeader inbound) (uuid : Uuid) :
    safeOr (inbound.headers requestIdHeader).first uuid =
      safeOr (inbound.sent requestIdHeader) uuid := by
  by_cases hlower : toLowerCase requestIdHeader = requestIdHeader
  · rw [Inbound.sent, hlower]
  · have hunsafe := h.resolve_left hlower
    rw [first_eq_none hlower, safeOr_of_not_safe hunsafe]
    rfl

/-- Behind pino the middleware changes nothing. -/
theorem identified_id (first second : Uuid) :
    (identified requestIdHeader first second inbound).id =
      some (safeOr (inbound.headers requestIdHeader).first first) :=
  requestIdFor_identified genReqId_safe

/-- The middlewares write to the one header only. -/
theorem identified_headers_of_ne (h : idempotencyHeader ≠ requestIdHeader) (first second : Uuid) :
    (identified requestIdHeader first second inbound).headers idempotencyHeader =
      inbound.headers idempotencyHeader := by
  simp [identified, RequestContextMiddleware.use, genReqId, Incoming.identify, Inbound.incoming, h]

theorem identified_headers (first second : Uuid) :
    (identified requestIdHeader first second inbound).headers requestIdHeader =
      .one (safeOr (inbound.headers requestIdHeader).first first) := by
  obtain ⟨id, hid, hheader, -⟩ := use_safe requestIdHeader second
    (genReqId requestIdHeader first inbound.incoming)
  have hsame : some id = some (safeOr (inbound.headers requestIdHeader).first first) :=
    hid.symm.trans (identified_id first second)
  exact hheader.trans (congrArg Header.one (Option.some.inj hsame))

theorem readable_of_pino (h : ∀ uuid, (genReqId requestIdHeader uuid inbound.incoming).id =
    some (LegacyForwarder.requestIdFor requestIdHeader uuid inbound.incoming)) :
    Readable requestIdHeader inbound := by
  refine or_iff_not_imp_left.mpr fun hmixed => ?_
  rw [← Bool.not_eq_true]
  intro hsafe
  obtain ⟨s, hs⟩ := exists_of_safe hsafe
  refine not_forall_eq_uuid s fun uuid => ?_
  have huuid : safeOr (inbound.headers requestIdHeader).first uuid =
      safeOr (inbound.sent requestIdHeader) uuid := Option.some.inj (h uuid)
  rwa [first_eq_none hmixed, hs, safeOr_of_safe (hs ▸ hsafe)] at huuid

theorem readable_of_key (h : ∀ key, isSafeCorrelationId (some key) = true →
    inbound.sent idempotencyHeader = some key → ∀ first second, idempotencyKey idempotencyHeader
      (identified requestIdHeader first second inbound) = some key) :
    Readable idempotencyHeader inbound := by
  refine or_iff_not_imp_left.mpr fun hmixed => ?_
  rw [← Bool.not_eq_true]
  intro hsafe
  obtain ⟨key, hkey⟩ := exists_of_safe hsafe
  have hfound := h key (hkey ▸ hsafe) hkey
  by_cases hname : idempotencyHeader = requestIdHeader
  · -- Both settings name one header: what is found is the id that pino wrote there.
    subst hname
    refine not_forall_eq_uuid key fun uuid => ?_
    have hwritten := hfound uuid .second
    rw [idempotencyKey, identified_headers, first_eq_none hmixed] at hwritten
    exact Option.some.inj hwritten
  · have hnone := hfound .first .second
    rw [idempotencyKey, identified_headers_of_ne hname, first_eq_none hmixed] at hnone
    cases hnone

theorem key_of_readable (h : Readable idempotencyHeader inbound) {key : String}
    (hsafe : isSafeCorrelationId (some key) = true)
    (hsent : inbound.sent idempotencyHeader = some key) (first second : Uuid) :
    idempotencyKey idempotencyHeader (identified requestIdHeader first second inbound) =
      some key := by
  have hlower : toLowerCase idempotencyHeader = idempotencyHeader :=
    h.resolve_right (by rw [hsent, hsafe]; exact Bool.noConfusion)
  rw [Inbound.sent, hlower] at hsent
  by_cases hname : idempotencyHeader = requestIdHeader
  · subst hname
    rw [idempotencyKey, identified_headers, hsent, safeOr_of_safe hsafe]
    rfl
  · rw [idempotencyKey, identified_headers_of_ne hname, hsent]

/-- **Names are read in lower case only.**  Pino and the middleware resolve what the forwarder
resolves, and the interceptor finds the key that was sent, exactly on the requests that have nothing
safe under a name that is configured in another case. -/
theorem agree_iff (requestIdHeader idempotencyHeader : String) (inbound : Inbound) :
    Agree requestIdHeader idempotencyHeader inbound ↔
      Readable requestIdHeader inbound ∧ Readable idempotencyHeader inbound := by
  constructor
  · intro h
    exact ⟨readable_of_pino h.pino, readable_of_key h.key⟩
  · rintro ⟨hid, hkey⟩
    refine ⟨fun uuid => ?_, fun uuid => ?_, fun first second => ?_, fun key hsafe hsent => ?_⟩
    · exact congrArg some (safeOr_readable hid uuid)
    · exact safeOr_readable hid uuid
    · exact (identified_id first second).trans (congrArg some (safeOr_readable hid first))
    · exact key_of_readable hkey hsafe hsent

/-- A request that was sent with one header. -/
def Inbound.oneHeader (name value : String) (h : toLowerCase name = name) : Inbound where
  headers := Function.update (fun _ => .absent) name (.one value)
  lowerCased other hother := by
    have hne : other ≠ name := fun heq => hother (heq ▸ h)
    rw [Function.update_of_ne hne]

/-- `REQUEST_ID_HEADER=X-Request-Id`, and a client that sends `x-request-id: order-17`: pino gives
the request another id. -/
theorem mixed_case_misses : ¬ Agree "X-Request-Id" "idempotency-key"
    (.oneHeader "x-request-id" "order-17" (by decide)) := by
  intro h
  have hfirst := h.pino .first
  exact absurd hfirst (by decide)

end Agreement

end NestDdd.Interface

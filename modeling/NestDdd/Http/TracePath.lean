import NestDdd.Legacy.ForwardHeaders
import NestDdd.Shared.TraceContext

/-!
# Http — one trace across services

A request on its way through several instances of the service: each serves it, behind pino's
`genReqId` and `RequestContextMiddleware`
(`src/interface/http/middleware/request-context.middleware.ts`), and calls the next one with
`FetchHttpClient` (`src/infrastructure/http/fetch-http.client.ts`), or only forwards it
(`LegacyForwarder`).

* `Carries`: the headers of a message name a request and its trace; a call writes them, and both
  kinds of hops hand them on.
* `one_trace`: however long the path, its last service works under the request id, the trace id and
  the sampling decision of its first.
-/

namespace NestDdd.Http

open NestDdd.Idempotency NestDdd.Interface NestDdd.Legacy

/-! ### Services -/

/-- The context that the middleware opens for a request. -/
structure Served where
  requestId : String
  trace : TraceContext

/-- A service that serves a request and calls another one meanwhile: its settings, the call, what
`randomUUID()` and `randomBytes()` return, and the headers that `fetch` adds of its own. -/
structure Service where
  config : HeaderConfig
  request : OutboundRequest
  first : Uuid
  second : Uuid
  trace : RandomBytes 16
  span : RandomBytes 8
  callSpan : RandomBytes 8
  own : IncomingHttpHeaders

/-- What arrives of the headers of a `fetch`. -/
def fetched (own : IncomingHttpHeaders) (headers : Http.Properties) : IncomingHttpHeaders :=
  received own (headers.map fun h => (h.1, .one (combine (values headers h.1))))

namespace Service

variable (table : LowerCase) (s : Service) (headers : IncomingHttpHeaders)

/-- `genReqId`, and then `RequestContextMiddleware.use`. -/
def served : Served where
  requestId := RequestContextMiddleware.requestIdFor s.config.requestIdHeader s.second
    (genReqId s.config.requestIdHeader s.first ⟨headers.get, none⟩)
  trace := traceContextFrom table (headers.get "traceparent").first s.trace s.span

/-- What the http client reads of the context. -/
def context : RequestContext where
  requestId := some (s.served table headers).requestId
  traceId := some (s.served table headers).trace.traceId
  sampled := some (s.served table headers).trace.sampled

/-- What the called service gets. -/
def call : IncomingHttpHeaders :=
  fetched s.own
    (buildHeaders s.config (some (s.context table headers)) (newSpanId s.callSpan) s.request)

end Service

/-- A service that calls on, or a forwarder. -/
inductive Hop where
  | call (s : Service)
  | forward (f : Forwarder)

def Hop.pass (table : LowerCase) : Hop → IncomingHttpHeaders → IncomingHttpHeaders
  | .call s, headers => s.call table headers
  | .forward f, headers => f.forward headers

/-- A request id header as all of the path spell it: in lower case, and none of the headers that the
client or the forwarder set for themselves. -/
structure PathHeader (requestIdHeader : String) : Prop where
  lower : toLowerCase requestIdHeader = requestIdHeader
  own : requestIdHeader ∉ ["accept", "user-agent", "content-type", "traceparent"]
  hop : requestIdHeader ∉ hopByHopHeaders
  set : requestIdHeader ∉ forwardingHeaders

/-- A service that uses the header, and whose caller leaves the two headers to the client. -/
structure Service.Leaves (requestIdHeader : String) (s : Service) : Prop where
  header : s.config.requestIdHeader = requestIdHeader
  requestId : values s.request.headers.entries requestIdHeader = []
  traceparent : values s.request.headers.entries "traceparent" = []

def Hop.Leaves (requestIdHeader : String) : Hop → Prop
  | .call s => s.Leaves requestIdHeader
  | .forward f => toLowerCase f.requestIdHeader = requestIdHeader

/-! ### Messages that carry a context -/

/-- The headers name the request, and the trace that it is part of. -/
structure Carries (requestIdHeader : String) (served : Served) (headers : IncomingHttpHeaders) :
    Prop where
  safe : isSafeCorrelationId (some served.requestId) = true
  requestId : headers.get requestIdHeader = .one served.requestId
  traceparent : ∃ c : ValidContext, headers.get "traceparent" =
    .one (NestDdd.formatTraceparent c.toTraceContext) ∧
      c.traceId = served.trace.traceId ∧ c.sampled = served.trace.sampled

/-- Two contexts of one request and one trace. -/
structure Same (a b : Served) : Prop where
  requestId : a.requestId = b.requestId
  traceId : a.trace.traceId = b.trace.traceId
  sampled : a.trace.sampled = b.trace.sampled

section

variable {requestIdHeader name value : String} {table : LowerCase} {s : Service}
  {a b : Served} {own headers : IncomingHttpHeaders}

theorem Same.symm (h : Same a b) : Same b a :=
  ⟨h.requestId.symm, h.traceId.symm, h.sampled.symm⟩

theorem Same.carries (h : Same a b) (hc : Carries requestIdHeader b headers) :
    Carries requestIdHeader a headers := by
  obtain ⟨c, hc₁, hc₂, hc₃⟩ := hc.traceparent
  exact ⟨h.requestId ▸ hc.safe, h.requestId ▸ hc.requestId,
    ⟨c, hc₁, hc₂.trans h.traceId.symm, hc₃.trans h.sampled.symm⟩⟩

/-- What is sent under a name in lower case arrives under it. -/
theorem fetched_get {props : Http.Properties} (hlower : toLowerCase name = name)
    (h : effective props name = some value) : (fetched own props).get name = .one value := by
  unfold effective at h
  split at h
  · cases h
  next hne =>
    obtain rfl := Option.some.inj h
    have hlookup : (Properties.assign toLowerCase (fun _ => true) own.entries
        (props.map fun h => (h.1, Header.one (combine (values props h.1))))).lookup name =
          some (.one (combine (values props name))) := by
      refine Properties.lookup_assign_same (fun p hp _ hname => ?_) (.inr ?_)
      · obtain ⟨q, -, rfl⟩ := List.mem_map.mp hp
        exact congrArg _ (congrArg combine (values_congr (hname.trans hlower.symm)))
      · have hsome : ∃ h ∈ props, toLowerCase h.1 = toLowerCase name := by
          simpa only [values_eq_nil_iff, not_forall, exists_prop, not_not] using hne
        obtain ⟨q, hq, hname⟩ := hsome
        exact ⟨_, List.mem_map_of_mem hq, rfl, hname.trans hlower⟩
    unfold fetched
    rw [received_get_eq, valueOf, hlookup]
    rfl

/-- Behind pino the middleware keeps the id. -/
theorem served_requestId : (s.served table headers).requestId =
    safeOr (headers.get s.config.requestIdHeader).first s.first :=
  Option.some.inj (requestIdFor_identified genReqId_safe)

/-- A service works under the request and the trace that its message carries. -/
theorem Carries.served (h : Carries requestIdHeader a headers)
    (hs : s.Leaves requestIdHeader) : Same (s.served table headers) a := by
  obtain ⟨c, hc, htrace, hsampled⟩ := h.traceparent
  have hparsed : parseTraceparent table (headers.get "traceparent").first =
      some c.toTraceContext := by
    rw [hc]
    exact parse_format table c
  have hcontext := traceContextFrom_of_parse table s.trace s.span hparsed
  refine ⟨?_, ?_, ?_⟩
  · rw [served_requestId, hs.header, h.requestId]
    exact safeOr_of_safe h.safe s.first
  · exact (congrArg TraceContext.traceId hcontext).trans htrace
  · exact (congrArg TraceContext.sampled hcontext).trans hsampled

theorem sublist_of_cases {x : String} {l : List String} (h : l = [] ∨ l = [x]) :
    l.Sublist [x] := by
  rcases h with rfl | rfl
  · exact List.nil_sublist _
  · exact List.Sublist.refl _

/-- The client's own headers have names that differ in more than case. -/
theorem distinct_own (hp : PathHeader requestIdHeader) {config : HeaderConfig}
    (hconfig : config.requestIdHeader = requestIdHeader) (context : Option RequestContext)
    (spanId : String) (request : OutboundRequest) :
    Distinct (ownHeaders config context spanId request) := by
  have hall : (["accept", "user-agent"] ++ (["content-type"] ++ [requestIdHeader] ++
      ["traceparent"])).Nodup := by
    have hown := hp.own
    simp only [List.mem_cons, List.not_mem_nil, or_false, not_or] at hown
    simp [hown, Ne.symm hown.1, Ne.symm hown.2.1, Ne.symm hown.2.2.1]
  unfold Distinct ownHeaders addedHeaders
  refine hall.sublist ?_
  have hdefaults : (defaultHeaders config).map (fun h => toLowerCase h.1) =
      ["accept", "user-agent"] :=
    (by decide : [toLowerCase "accept", toLowerCase "user-agent"] = _)
  rw [List.map_append, List.map_append, List.map_append, hdefaults]
  refine (List.Sublist.refl _).append (((sublist_of_cases ?_).append (sublist_of_cases ?_)).append
    (sublist_of_cases ?_))
  · split
    · exact .inr (by decide)
    · exact .inl rfl
  · split
    · split
      · exact .inl rfl
      · exact .inr (by rw [List.map_cons, List.map_nil, hconfig, hp.lower])
    · exact .inl rfl
  · split
    · split
      · exact .inl rfl
      · exact .inr (congrArg (fun x => [x]) (by decide : toLowerCase "traceparent" = _))
    · exact .inl rfl

/-- **A call carries** the context that its service works under. -/
theorem call_carries (hp : PathHeader requestIdHeader) (hs : s.Leaves requestIdHeader) :
    Carries requestIdHeader (s.served table headers) (s.call table headers) := by
  obtain ⟨c, hc⟩ := traceContextFrom_valid table (headers.get "traceparent").first s.trace s.span
  have htrace : (s.served table headers).trace = c.toTraceContext := hc.symm
  have hsafe : isSafeCorrelationId (some (s.served table headers).requestId) = true := by
    rw [served_requestId]
    exact safeOr_safe _ s.first
  have hown := distinct_own hp hs.header (some (s.context table headers)) (newSpanId s.callSpan)
    s.request
  have hid : (s.served table headers).requestId ≠ "" := by
    intro heq
    rw [heq] at hsafe
    cases hsafe
  have hne : c.traceId ≠ "" := by
    intro heq
    have := c.traceId_hex.1
    rw [heq] at this
    cases this
  refine ⟨hsafe, fetched_get hp.lower ?_, ⟨⟨c.traceId, newSpanId s.callSpan, c.sampled⟩,
    c.traceId_hex, hexField_random s.callSpan, c.traceId_ne, random_ne_zeros s.callSpan 16⟩,
    fetched_get (by decide) ?_, (congrArg TraceContext.traceId htrace).symm,
    (congrArg TraceContext.sampled htrace).symm⟩
  · rw [effective_of_nil hs.requestId]
    refine effective_bare hown (h := (requestIdHeader, _)) (List.mem_append_right _
      (List.mem_append_left _ (List.mem_append_right _ ?_)))
    simp [Service.context, hid, hs.header]
  · rw [effective_of_nil hs.traceparent]
    refine effective_bare hown (h := ("traceparent", _)) (List.mem_append_right _
      (List.mem_append_right _ ?_))
    simp [Service.context, htrace, hne, formatTraceparent]

/-- A forwarder hands the context on. -/
theorem Carries.forward (hp : PathHeader requestIdHeader) {f : Forwarder}
    (hf : toLowerCase f.requestIdHeader = requestIdHeader)
    (h : Carries requestIdHeader a headers) :
    Carries requestIdHeader a (f.forward headers) := by
  have hthrough := @through_one _ _ headers hf hp.hop hp.set
  obtain ⟨c, hc, hrest⟩ := h.traceparent
  refine ⟨h.safe, ?_, c, ?_, hrest⟩
  · rw [hthrough.requestId]
    exact congrArg Header.one (requestIdFor_of_safe h.safe (hf ▸ h.requestId))
  · rw [hthrough.passed "traceparent" (by decide) (by decide) ?_, hc]
    · rfl
    · rintro rfl
      exact hp.own (by decide)

theorem Carries.pass (hp : PathHeader requestIdHeader) {hop : Hop}
    (hhop : hop.Leaves requestIdHeader) (h : Carries requestIdHeader a headers) :
    Carries requestIdHeader a (hop.pass table headers) := by
  cases hop with
  | call s => exact (Same.symm (h.served hhop)).carries (call_carries hp hhop)
  | forward f => exact h.forward hp hhop

/-- A path hands on what its first message carries. -/
theorem Carries.path (hp : PathHeader requestIdHeader) {hops : List Hop}
    (hhops : ∀ hop ∈ hops, hop.Leaves requestIdHeader) (h : Carries requestIdHeader a headers) :
    Carries requestIdHeader a (hops.foldl (fun headers hop => hop.pass table headers) headers) := by
  induction hops generalizing headers with
  | nil => exact h
  | cons hop hops ih =>
      rw [List.foldl_cons]
      exact ih (fun g hg => hhops g (List.mem_cons_of_mem _ hg))
        (h.pass hp (hhops hop List.mem_cons_self))

end

/-- **One trace.**  A service that was reached through any calls and any forwarders works under the
request id, the trace id and the sampling decision of the first service; and these are the client's,
as far as the client sent them. -/
theorem one_trace {requestIdHeader : String} (hp : PathHeader requestIdHeader) (table : LowerCase)
    (first last : Service) (hops : List Hop) (sent : IncomingHttpHeaders)
    (hfirst : first.Leaves requestIdHeader) (hlast : last.Leaves requestIdHeader)
    (hhops : ∀ hop ∈ hops, hop.Leaves requestIdHeader) :
    Same (last.served table (hops.foldl (fun headers hop => hop.pass table headers)
        (first.call table sent))) (first.served table sent) ∧
      (∀ id, isSafeCorrelationId (some id) = true → sent.get requestIdHeader = .one id →
        (first.served table sent).requestId = id) ∧
      ∀ caller, parseTraceparent table (sent.get "traceparent").first = some caller →
        (first.served table sent).trace.traceId = caller.traceId ∧
          (first.served table sent).trace.sampled = caller.sampled := by
  refine ⟨((call_carries hp hfirst).path hp hhops).served hlast, fun id hsafe hid => ?_,
    fun caller hcaller => ?_⟩
  · rw [served_requestId, hfirst.header, hid]
    exact safeOr_of_safe hsafe first.first
  · have hcontext : (first.served table sent).trace = _ :=
      traceContextFrom_of_parse table first.trace first.span hcaller
    rw [hcontext]
    exact ⟨rfl, rfl⟩

/-! A path of three instances and a forwarder. -/

def RandomBytes.ofOne (n : Nat) : RandomBytes (n + 1) where
  bytes := 1 :: List.replicate n 0
  length_eq := by simp
  nonzero := ⟨1, List.mem_cons_self, by decide⟩

/-- A call without headers of its own. -/
def OutboundRequest.plain : OutboundRequest where
  method := .get
  tag := "orders.get"
  timeoutMs := none
  retries := none
  idempotent := none
  headers := ⟨[], List.nodup_nil⟩
  body := .undefined

/-- A service that makes it. -/
def Service.reads : Service where
  config := ⟨"orders", "x-request-id"⟩
  request := .plain
  first := .first
  second := .second
  trace := RandomBytes.ofOne 15
  span := RandomBytes.ofOne 7
  callSpan := RandomBytes.ofOne 7
  own := keepAlive

theorem Service.reads_leaves : Service.reads.Leaves "x-request-id" := ⟨rfl, rfl, rfl⟩

theorem pathHeader_default : PathHeader "x-request-id" :=
  ⟨by decide, by decide, by decide, by decide⟩

def hopsOfTwo : List Hop := [.forward (.askedBy "10.0.0.2"), .call .reads]

theorem hopsOfTwo_leave : ∀ hop ∈ hopsOfTwo, hop.Leaves "x-request-id" := by
  intro hop hmem
  rcases List.mem_cons.mp hmem with rfl | hmem
  · exact Forwarder.askedBy_header "10.0.0.2"
  · obtain rfl := List.mem_singleton.mp hmem
    exact Service.reads_leaves

/-- The fourth server of a request that came with an id of its own. -/
theorem one_trace_three :
    Same
      (Service.reads.served .ofAscii
        (hopsOfTwo.foldl (fun headers hop => hop.pass .ofAscii headers)
          (Service.reads.call .ofAscii (received keepAlive [("X-Request-Id", .one "order-7")]))))
      (Service.reads.served .ofAscii (received keepAlive [("X-Request-Id", .one "order-7")])) :=
  (one_trace pathHeader_default .ofAscii .reads .reads hopsOfTwo
    (received keepAlive [("X-Request-Id", .one "order-7")]) Service.reads_leaves
    Service.reads_leaves hopsOfTwo_leave).1

end NestDdd.Http

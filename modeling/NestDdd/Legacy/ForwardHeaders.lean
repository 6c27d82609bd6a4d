import NestDdd.Http.Headers
import NestDdd.Interface.CorrelationId
import NestDdd.Shared.Properties

/-!
# Legacy — the headers of a forwarded exchange

`buildForwardHeaders` and `stripHopByHopHeaders`
(`src/infrastructure/legacy/forward-headers.util.ts`), and `LegacyForwarder.forward` as far as it
hands a request's headers on.  Node lower-cases the names of what it receives, has each of them
once, and sends of an object of headers what was set last under a name, whatever its case.  A
message also has headers that it was not handed: Node adds `connection`, `transfer-encoding` and
`date` where they are missing, and a response has those that a middleware has set on it.

* `forwarded_exactly`: what arrives under every name, in both directions.
* `forwarded_through`: what arrives behind any number of forwarders, one behind the other.
-/

namespace NestDdd.Legacy

open NestDdd.Idempotency NestDdd.Interface

/-! ### Names -/

theorem toLower_ascii : ∀ n < 128, (Char.ofNat n).toLower.toLower = (Char.ofNat n).toLower := by
  decide

theorem toLower_of_ge {c : Char} (h : 128 ≤ c.toNat) : c.toLower = c := by
  have hnot : ¬ (c.val ≥ 'A'.val ∧ c.val ≤ 'Z'.val) := fun ⟨_, hle⟩ => by
    have : c.toNat ≤ 90 := hle
    omega
  exact dif_neg hnot

theorem toLower_toLower (c : Char) : c.toLower.toLower = c.toLower := by
  by_cases h : c.toNat < 128
  · have := toLower_ascii c.toNat h
    rwa [Char.ofNat_toNat] at this
  · rw [toLower_of_ge (Nat.not_lt.mp h), toLower_of_ge (Nat.not_lt.mp h)]

theorem toLowerCase_toLowerCase (s : String) : toLowerCase (toLowerCase s) = toLowerCase s := by
  simp only [toLowerCase, String.toList_ofList, List.map_map]
  exact congrArg String.ofList (List.map_congr_left fun c _ => toLower_toLower c)

/-! ### Messages -/

/-- `value === undefined`. -/
def isUndefined : Header → Bool
  | .absent => true
  | _ => false

/-- `headers[name]`. -/
def valueOf (headers : Properties Header) (name : String) : Header :=
  (headers.lookup name).getD .absent

/-- What Node hands over: each name once, in lower case. -/
structure IncomingHttpHeaders where
  entries : Properties Header
  lowerCased : ∀ h ∈ entries, toLowerCase h.1 = h.1
  distinct : entries.Distinct

def IncomingHttpHeaders.get (headers : IncomingHttpHeaders) (name : String) : Header :=
  valueOf headers.entries name

/-- No headers. -/
def IncomingHttpHeaders.empty : IncomingHttpHeaders where
  entries := []
  lowerCased := List.forall_mem_nil _
  distinct := List.nodup_nil

/-- What arrives of an object of headers, with those that the message has of its `own`. -/
def received (own : IncomingHttpHeaders) (headers : Properties Header) : IncomingHttpHeaders where
  entries := Properties.assign toLowerCase (fun _ => true) own.entries headers
  lowerCased h hh := by
    rcases Properties.mem_assign hh with hh | ⟨q, -, -, rfl⟩
    · exact own.lowerCased h hh
    · exact toLowerCase_toLowerCase q.1
  distinct := own.distinct.assign

theorem received_get_eq (own : IncomingHttpHeaders) (headers : Properties Header) (name : String) :
    (received own headers).get name =
      valueOf (Properties.assign toLowerCase (fun _ => true) own.entries headers) name := rfl

/-- `value`, or `other` where it is missing. -/
def orElse (value other : Header) : Header := if isUndefined value then other else value

/-! ### Building -/

/-- `HOP_BY_HOP_HEADERS`. -/
def hopByHopHeaders : List String :=
  ["connection", "keep-alive", "transfer-encoding", "upgrade", "proxy-authenticate",
    "proxy-authorization", "te", "trailer"]

/-- What the loops of both functions keep. -/
def keeps (h : String × Header) : Bool :=
  !(isUndefined h.2 || hopByHopHeaders.contains (toLowerCase h.1))

def stripHopByHopHeaders (headers : IncomingHttpHeaders) : Properties Header :=
  Properties.assign id keeps [] headers.entries

inductive Protocol where
  | http
  | https
  deriving DecidableEq

def Protocol.text : Protocol → String
  | .http => "http"
  | .https => "https"

structure ForwardHeadersInput where
  headers : IncomingHttpHeaders
  remoteAddress : String
  protocol : Protocol
  hostHeader : Option String
  targetHost : String
  preserveHostHeader : Bool
  requestIdHeader : String
  requestIdValue : String

/-- What `x-forwarded-for` has been so far, if it is anything. -/
def forwardedBefore : Header → Option String
  | .absent => none
  | .one s => if s = "" then none else some s
  | .many values => some (Http.combine values)

def forwardedForValue (existing : Header) (remoteAddress : String) : String :=
  match forwardedBefore existing with
  | none => remoteAddress
  | some previous => previous ++ ", " ++ remoteAddress

/-- The `Host` that is sent. -/
def ForwardHeadersInput.host (input : ForwardHeadersInput) : String :=
  if input.preserveHostHeader then input.hostHeader.getD input.targetHost else input.targetHost

def buildForwardHeaders (input : ForwardHeadersInput) : Properties Header :=
  ((((Properties.assign id keeps [] input.headers.entries
    |>.set "x-forwarded-for"
        (.one (forwardedForValue (input.headers.get "x-forwarded-for") input.remoteAddress)))
    |>.set "x-forwarded-proto" (.one input.protocol.text))
    |>.set "x-forwarded-host" (.one (input.hostHeader.getD "")))
    |>.set "host" (.one input.host))
    |>.set input.requestIdHeader (.one input.requestIdValue)

/-! ### What arrives -/

section

variable {own : IncomingHttpHeaders} {headers : Properties Header} {name name' : String}
  {value : Header}

/-- Of names in lower case, each of them once, all arrive as they are. -/
theorem received_get (hl : ∀ h ∈ headers, toLowerCase h.1 = h.1) (hd : headers.Distinct)
    (name : String) :
    (received own headers).get name = (headers.lookup name).getD (own.get name) := by
  have hkey : ∀ q ∈ headers, ∀ p ∈ headers, toLowerCase q.1 = toLowerCase p.1 → q.1 = p.1 :=
    fun q hq p hp h => by rwa [hl q hq, hl p hp] at h
  rw [received_get_eq, valueOf]
  cases hname : headers.lookup name with
  | none =>
      refine congrArg (Option.getD · _)
        (Properties.lookup_assign_other fun p hp _ heq => ?_)
      rw [hl p hp] at heq
      subst heq
      cases hname.symm.trans (hd.lookup hp)
  | some v =>
      have hmem := Properties.mem_of_lookup hname
      have hget := @Properties.Distinct.lookup_assign _ own.entries toLowerCase (fun _ => true) _ hd
        _ hmem rfl fun q hq => hkey q hq _ hmem
      rw [hl _ hmem] at hget
      rw [hget]
      rfl

/-- A header that is set last, in any case, is the one that arrives under its name. -/
theorem received_set_get (hl : ∀ h ∈ headers, toLowerCase h.1 = h.1) (hd : headers.Distinct)
    (name' : String) : (received own (headers.set name value)).get name' =
      if name' = toLowerCase name then value
      else (headers.lookup name').getD (own.get name') := by
  by_cases hlower : toLowerCase name = name
  · rw [received_get _ (hd.set _ _), Properties.lookup_set, hlower]
    · split <;> rfl
    · intro h hh
      rcases Properties.mem_set hh with rfl | hh
      · exact hlower
      · exact hl h hh
  · -- in another case the name stands behind those of the message
    have hnone : headers.lookup name = none := by
      rw [List.lookup_eq_none_iff]
      intro p hp
      rw [bne_iff_ne]
      rintro rfl
      exact hlower (hl p hp)
    have hset : headers.set name value = headers ++ [(name, value)] := by
      rw [Properties.set, hnone]
      rfl
    have hlast : Properties.assign toLowerCase (fun _ => true) own.entries
        (headers ++ [(name, value)]) =
          (received own headers).entries.set (toLowerCase name) value := by
      rw [Properties.assign_append]
      rfl
    rw [hset, received_get_eq, hlast, valueOf, Properties.lookup_set]
    split
    next => rfl
    next => exact received_get hl hd name'

end

section

variable {own headers : IncomingHttpHeaders} {input : ForwardHeadersInput} {name : String}

/-- The two loops keep what is not hop by hop. -/
theorem lookup_kept (headers : IncomingHttpHeaders) (name : String) (other : Header) :
    ((Properties.assign id keeps [] headers.entries).lookup name).getD other =
      if name ∈ hopByHopHeaders then other else orElse (headers.get name) other := by
  unfold IncomingHttpHeaders.get valueOf
  cases hname : headers.entries.lookup name with
  | none =>
      rw [Properties.lookup_assign_other fun p hp _ (heq : p.1 = name) => by
        cases hname.symm.trans (heq ▸ headers.distinct.lookup hp)]
      split <;> rfl
  | some v =>
      have hmem := Properties.mem_of_lookup hname
      have hlower : toLowerCase name = name := headers.lowerCased _ hmem
      by_cases hkeep : keeps (name, v) = true
      · have hkept : (Properties.assign id keeps [] headers.entries).lookup name = some v :=
          @Properties.Distinct.lookup_assign _ [] id keeps _ headers.distinct _ hmem hkeep
            fun q _ h => h
        simp only [keeps, hlower, Bool.not_or, Bool.and_eq_true, Bool.not_eq_true',
          List.contains_eq_mem, decide_eq_false_iff_not] at hkeep
        rw [hkept, if_neg hkeep.2, Option.getD_some, Option.getD_some, orElse, hkeep.1]
        rfl
      · rw [Properties.lookup_assign_other fun p hp hk (heq : p.1 = name) => hkeep <| by
          have := (headers.distinct.lookup hp).symm.trans (heq ▸ hname)
          rwa [← heq, ← Option.some.inj this]]
        simp only [keeps, hlower, Bool.not_eq_true', Bool.not_eq_false, Bool.or_eq_true,
          List.contains_eq_mem, decide_eq_true_eq] at hkeep
        rcases hkeep with hundefined | hhop
        · rw [Option.getD_some, orElse, if_pos hundefined]
          split <;> rfl
        · rw [if_pos hhop]
          rfl

theorem kept_distinct : (Properties.assign id keeps [] headers.entries).Distinct :=
  Properties.Distinct.assign List.nodup_nil

theorem kept_lowerCased : ∀ h ∈ Properties.assign id keeps [] headers.entries,
    toLowerCase h.1 = h.1 := by
  intro h hh
  rcases Properties.mem_assign hh with hh | ⟨q, hq, -, rfl⟩
  · cases hh
  · exact headers.lowerCased q hq

theorem set_lowerCased {props : Properties Header} {value : Header}
    (h : ∀ p ∈ props, toLowerCase p.1 = p.1) (hname : toLowerCase name = name) :
    ∀ p ∈ props.set name value, toLowerCase p.1 = p.1 := by
  intro p hp
  rcases Properties.mem_set hp with rfl | hp
  · exact hname
  · exact h p hp

/-- The headers that `buildForwardHeaders` sets whatever the request has. -/
def forwardingHeaders : List String :=
  ["x-forwarded-for", "x-forwarded-proto", "x-forwarded-host", "host"]

/-- What arrives of a forwarded request: the request id, the four headers of the forwarder, of what
is hop by hop only what the message has of its `own`, and everything else as it was. -/
structure Forwarded (input : ForwardHeadersInput) (own arrived : IncomingHttpHeaders) : Prop where
  requestId : arrived.get (toLowerCase input.requestIdHeader) = .one input.requestIdValue
  forwardedFor : toLowerCase input.requestIdHeader ≠ "x-forwarded-for" →
    arrived.get "x-forwarded-for" =
      .one (forwardedForValue (input.headers.get "x-forwarded-for") input.remoteAddress)
  forwardedProto : toLowerCase input.requestIdHeader ≠ "x-forwarded-proto" →
    arrived.get "x-forwarded-proto" = .one input.protocol.text
  forwardedHost : toLowerCase input.requestIdHeader ≠ "x-forwarded-host" →
    arrived.get "x-forwarded-host" = .one (input.hostHeader.getD "")
  host : toLowerCase input.requestIdHeader ≠ "host" → arrived.get "host" = .one input.host
  dropped : ∀ name ∈ hopByHopHeaders, name ≠ toLowerCase input.requestIdHeader →
    arrived.get name = own.get name
  passed : ∀ name, name ∉ hopByHopHeaders → name ∉ forwardingHeaders →
    name ≠ toLowerCase input.requestIdHeader →
      arrived.get name = orElse (input.headers.get name) (own.get name)

theorem buildForwardHeaders_get (input : ForwardHeadersInput) (own : IncomingHttpHeaders)
    (name : String) :
    (received own (buildForwardHeaders input)).get name =
      if name = toLowerCase input.requestIdHeader then .one input.requestIdValue
      else if name = "host" then .one input.host
      else if name = "x-forwarded-host" then .one (input.hostHeader.getD "")
      else if name = "x-forwarded-proto" then .one input.protocol.text
      else if name = "x-forwarded-for" then
        .one (forwardedForValue (input.headers.get "x-forwarded-for") input.remoteAddress)
      else if name ∈ hopByHopHeaders then own.get name
      else orElse (input.headers.get name) (own.get name) := by
  unfold buildForwardHeaders
  rw [received_set_get]
  · simp only [Properties.lookup_set, apply_ite (Option.getD · (own.get name)), Option.getD_some,
      lookup_kept]
  · exact set_lowerCased (set_lowerCased (set_lowerCased (set_lowerCased kept_lowerCased
      (by decide)) (by decide)) (by decide)) (by decide)
  · exact (((kept_distinct.set _ _).set _ _).set _ _).set _ _

theorem Forwarded.of_build (input : ForwardHeadersInput) (own : IncomingHttpHeaders) :
    Forwarded input own (received own (buildForwardHeaders input)) := by
  refine ⟨?_, fun h => ?_, fun h => ?_, fun h => ?_, fun h => ?_, fun name hname h => ?_,
    fun name hhop hset h => ?_⟩
  · rw [buildForwardHeaders_get, if_pos rfl]
  · rw [buildForwardHeaders_get, if_neg h.symm]
    rfl
  · rw [buildForwardHeaders_get, if_neg h.symm]
    rfl
  · rw [buildForwardHeaders_get, if_neg h.symm]
    rfl
  · rw [buildForwardHeaders_get, if_neg h.symm]
    rfl
  · have hnot : ∀ name ∈ hopByHopHeaders, name ∉ forwardingHeaders := by decide
    have hnot := hnot name hname
    simp only [forwardingHeaders, List.mem_cons, List.not_mem_nil, or_false, not_or] at hnot
    obtain ⟨h₁, h₂, h₃, h₄⟩ := hnot
    rw [buildForwardHeaders_get, if_neg h, if_neg h₄, if_neg h₃, if_neg h₂, if_neg h₁,
      if_pos hname]
  · simp only [forwardingHeaders, List.mem_cons, List.not_mem_nil, or_false, not_or] at hset
    obtain ⟨h₁, h₂, h₃, h₄⟩ := hset
    rw [buildForwardHeaders_get, if_neg h, if_neg h₄, if_neg h₃, if_neg h₂, if_neg h₁, if_neg hhop]

/-- **Headers cross unchanged or not at all.**  Whatever the two messages have of their `own`, of a
forwarded request the legacy service gets the request id, the four headers of the forwarder, and
everything else that is not hop by hop as it was; of the response the client gets everything that is
not hop by hop as it was. -/
theorem forwarded_exactly (input : ForwardHeadersInput) (response own own' : IncomingHttpHeaders) :
    Forwarded input own (received own (buildForwardHeaders input)) ∧
      ∀ name, (received own' (stripHopByHopHeaders response)).get name =
        if name ∈ hopByHopHeaders then own'.get name
        else orElse (response.get name) (own'.get name) := by
  refine ⟨.of_build input own, fun name => ?_⟩
  rw [stripHopByHopHeaders, received_get kept_lowerCased kept_distinct, lookup_kept]

end

/-! ### Forwarders behind forwarders -/

/-- A forwarder, with what it finds on one request's socket, what `randomUUID()` returns, and the
headers that its own request has besides. -/
structure Forwarder where
  remoteAddress : Option String
  protocol : Protocol
  targetHost : String
  preserveHostHeader : Bool
  requestIdHeader : String
  uuid : Uuid
  own : IncomingHttpHeaders

namespace Forwarder

/-- `req.socket.remoteAddress ?? 'unknown'`. -/
def peer (f : Forwarder) : String := f.remoteAddress.getD "unknown"

def requestIdFor (f : Forwarder) (headers : IncomingHttpHeaders) : String :=
  LegacyForwarder.requestIdFor f.requestIdHeader f.uuid ⟨headers.get, none⟩

def input (f : Forwarder) (headers : IncomingHttpHeaders) : ForwardHeadersInput where
  headers := headers
  remoteAddress := f.peer
  protocol := f.protocol
  hostHeader := (headers.get "host").first
  targetHost := f.targetHost
  preserveHostHeader := f.preserveHostHeader
  requestIdHeader := f.requestIdHeader
  requestIdValue := f.requestIdFor headers

/-- What the next server gets of a request. -/
def forward (f : Forwarder) (headers : IncomingHttpHeaders) : IncomingHttpHeaders :=
  received f.own (buildForwardHeaders (f.input headers))

end Forwarder

section

variable {headers : IncomingHttpHeaders} {requestIdHeader : String}

theorem combine_append : ∀ {vs ws : List String}, vs ≠ [] →
    Http.combine (Http.combine vs :: ws) = Http.combine (vs ++ ws)
  | [], _, h => absurd rfl h
  | [_], _, _ => rfl
  | v :: v' :: vs, [], _ => by rw [List.append_nil, Http.combine]
  | v :: v' :: vs, w :: ws, _ => by
      have ih := @combine_append (v' :: vs) (w :: ws) (List.cons_ne_nil _ _)
      calc Http.combine (Http.combine (v :: v' :: vs) :: w :: ws)
          = v ++ ", " ++ Http.combine (Http.combine (v' :: vs) :: w :: ws) := by
            simp only [Http.combine, String.append_assoc]
        _ = v ++ ", " ++ Http.combine (v' :: vs ++ w :: ws) := by rw [ih]
        _ = Http.combine (v :: v' :: vs ++ w :: ws) := rfl

theorem forwardedForValue_eq (existing : Header) (peer : String) :
    forwardedForValue existing peer =
      Http.combine ((forwardedBefore existing).toList ++ [peer]) := by
  unfold forwardedForValue
  cases forwardedBefore existing <;> rfl

/-- A safe id stays as it is. -/
theorem requestIdFor_of_safe {f : Forwarder} {id : String}
    (hsafe : isSafeCorrelationId (some id) = true)
    (h : headers.get (toLowerCase f.requestIdHeader) = .one id) : f.requestIdFor headers = id := by
  unfold Forwarder.requestIdFor LegacyForwarder.requestIdFor
  dsimp only
  rw [h]
  exact safeOr_of_safe hsafe f.uuid

/-- What arrives behind several forwarders, the first of which is `f`.  What is not sent stands as
the first of them adds it that does, and what is hop by hop as the last of them does. -/
structure Through (requestIdHeader : String) (f : Forwarder) (fs : List Forwarder)
    (sent arrived : IncomingHttpHeaders) : Prop where
  forwardedFor : arrived.get "x-forwarded-for" =
    .one (Http.combine ((forwardedBefore (sent.get "x-forwarded-for")).toList ++
      (f :: fs).map Forwarder.peer))
  requestId : arrived.get requestIdHeader = .one (f.requestIdFor sent)
  dropped : ∀ name ∈ hopByHopHeaders, arrived.get name = (fs.getLastD f).own.get name
  passed : ∀ name, name ∉ hopByHopHeaders → name ∉ forwardingHeaders → name ≠ requestIdHeader →
    arrived.get name =
      (f :: fs).foldl (fun value g => orElse value (g.own.get name)) (sent.get name)

section

variable {f : Forwarder} {sent : IncomingHttpHeaders}

theorem through_one (hname : toLowerCase f.requestIdHeader = requestIdHeader)
    (hhop : requestIdHeader ∉ hopByHopHeaders) (hset : requestIdHeader ∉ forwardingHeaders) :
    Through requestIdHeader f [] sent (f.forward sent) := by
  have hbuilt := Forwarded.of_build (f.input sent) f.own
  have hlower : toLowerCase (f.input sent).requestIdHeader = requestIdHeader := hname
  refine ⟨?_, hlower ▸ hbuilt.requestId, fun name hmem => ?_, fun name h₁ h₂ h₃ => ?_⟩
  · refine (hbuilt.forwardedFor ?_).trans (congrArg Header.one (forwardedForValue_eq _ _))
    rw [hlower]
    rintro rfl
    exact hset (by decide)
  · refine hbuilt.dropped name hmem ?_
    rw [hlower]
    rintro rfl
    exact hhop hmem
  · exact hbuilt.passed name h₁ h₂ (hlower ▸ h₃)

theorem combine_ne_empty {vs : List String} (h : ∃ v ∈ vs, v ≠ "") : Http.combine vs ≠ "" := by
  obtain ⟨v, hv, hne⟩ := h
  cases vs with
  | nil => cases hv
  | cons w vs =>
      cases vs with
      | nil =>
          rw [Http.combine]
          exact List.mem_singleton.mp hv ▸ hne
      | cons w' vs =>
          intro heq
          have hlength := congrArg String.length heq
          simp only [Http.combine, String.length_append] at hlength
          have : String.length ", " = 2 := rfl
          have : String.length "" = 0 := rfl
          omega

end

/-- **Through any number of forwarders**, `x-forwarded-for` gets the peer of each of them behind
what it had, in order; the request id is the one that the first of them settled on; of what is hop
by hop nothing arrives but what the last connection has of its own; and whatever is neither that nor
a header of the forwarders arrives as it was sent. -/
theorem forwarded_through (f : Forwarder) (fs : List Forwarder) (sent : IncomingHttpHeaders)
    (hname : ∀ g ∈ f :: fs, toLowerCase g.requestIdHeader = requestIdHeader)
    (hpeer : ∀ g ∈ f :: fs, g.peer ≠ "") (hhop : requestIdHeader ∉ hopByHopHeaders)
    (hset : requestIdHeader ∉ forwardingHeaders) :
    Through requestIdHeader f fs sent
      (fs.foldl (fun headers g => g.forward headers) (f.forward sent)) := by
  induction fs generalizing f sent with
  | nil => exact through_one (hname f List.mem_cons_self) hhop hset
  | cons g fs ih =>
      have hone := @through_one requestIdHeader f sent (hname f List.mem_cons_self) hhop hset
      have hrest := ih g (f.forward sent) (fun g' hg' => hname g' (List.mem_cons_of_mem f hg'))
        fun g' hg' => hpeer g' (List.mem_cons_of_mem f hg')
      rw [List.foldl_cons]
      refine ⟨?_, ?_, fun name hmem => ?_, fun name h₁ h₂ h₃ => ?_⟩
      · have hne : Http.combine ((forwardedBefore (sent.get "x-forwarded-for")).toList ++
            [f.peer]) ≠ "" :=
          combine_ne_empty ⟨f.peer, by simp, hpeer f List.mem_cons_self⟩
        have hbefore : forwardedBefore ((f.forward sent).get "x-forwarded-for") =
            some (Http.combine ((forwardedBefore (sent.get "x-forwarded-for")).toList ++
              [f.peer])) := by
          rw [hone.forwardedFor]
          exact if_neg hne
        rw [hrest.forwardedFor, hbefore, Option.toList_some, List.singleton_append,
          combine_append (by simp), List.append_assoc]
        rfl
      · rw [hrest.requestId]
        refine congrArg Header.one (requestIdFor_of_safe (safeOr_safe _ f.uuid) ?_)
        rw [hname g (List.mem_cons_of_mem f List.mem_cons_self), hone.requestId]
      · rw [hrest.dropped name hmem, List.getLastD_cons]
      · rw [hrest.passed name h₁ h₂ h₃, hone.passed name h₁ h₂ h₃]
        rfl

end

/-- What Node adds to a request. -/
def keepAlive : IncomingHttpHeaders := received .empty [("Connection", .one "keep-alive")]

/-- A forwarder that is asked by `peer`. -/
def Forwarder.askedBy (peer : String) : Forwarder :=
  ⟨some peer, .http, "legacy-host:8080", false, "X-Request-Id", .first, keepAlive⟩

theorem Forwarder.askedBy_header (peer : String) :
    toLowerCase (askedBy peer).requestIdHeader = "x-request-id" :=
  have h : toLowerCase "X-Request-Id" = "x-request-id" := by decide
  h

/-- A request that has come through a load balancer, -/
def balanced : IncomingHttpHeaders :=
  received keepAlive [("X-Forwarded-For", .one "203.0.113.5"), ("Connection", .one "close")]

/-- and goes through two forwarders. -/
theorem forwarded_through_two :
    Through "x-request-id" (.askedBy "10.0.0.2") [.askedBy "10.0.0.3"] balanced
      ([Forwarder.askedBy "10.0.0.3"].foldl (fun headers g => g.forward headers)
        ((Forwarder.askedBy "10.0.0.2").forward balanced)) :=
  forwarded_through (.askedBy "10.0.0.2") [.askedBy "10.0.0.3"] balanced
    (by simp only [List.forall_mem_cons, Forwarder.askedBy_header, List.not_mem_nil,
      false_implies, implies_true, and_self])
    (by simp [Forwarder.askedBy, Forwarder.peer]) (by decide) (by decide)

end NestDdd.Legacy

import Mathlib.Data.List.Nodup
import NestDdd.Http.FetchHttpClient

/-!
# Http — outbound headers

`FetchHttpClient.buildHeaders` (`src/infrastructure/http/fetch-http.client.ts`): the headers of the
caller, and those that the client adds.  They are the properties of an object, whose names differ
when their letters differ in case; `fetch` combines the values of names that differ in nothing
else into one header, in the order of the properties.

* `values_spread_default`, `values_spread_other`: what the client sends under a name, from what the
  caller sends under it.
* `callerWins_iff`: the caller's header wins when it is spelled as the client spells it, and not
  otherwise.
-/

namespace NestDdd.Http

/-! ### Objects of strings -/

abbrev Properties := List (String × String)

/-- `{ ...a, ...b }`: what both have keeps its place and takes the value of `b`. -/
def spread (a b : Properties) : Properties :=
  a.map (fun h => (h.1, (b.lookup h.1).getD h.2)) ++ b.filter fun h => (a.lookup h.1).isNone

/-- `headers[name] ??= value`, of values that are strings. -/
def setDefault (headers : Properties) (h : String × String) : Properties :=
  if (headers.lookup h.1).isSome then headers else headers ++ [h]

/-- An object has a property once. -/
structure HeaderRecord where
  entries : Properties
  nodup : (entries.map Prod.fst).Nodup

/-! ### What is sent -/

/-- The values under a name, and under the names that differ from it in case. -/
def values (headers : Properties) (name : String) : List String :=
  (headers.filter fun h => toLowerCase h.1 = toLowerCase name).map Prod.snd

/-- Several values of one header. -/
def combine : List String → String
  | [] => ""
  | [v] => v
  | v :: v' :: vs => v ++ ", " ++ combine (v' :: vs)

/-- The header that `fetch` sends under a name, if it sends one. -/
def effective (headers : Properties) (name : String) : Option String :=
  if values headers name = [] then none else some (combine (values headers name))

/-! ### The client -/

/-- What the client reads of the request context. -/
structure RequestContext where
  requestId : Option String
  traceId : Option String
  sampled : Option Bool

/-- What `buildHeaders` reads of the configuration. -/
structure HeaderConfig where
  userAgent : String
  requestIdHeader : String

/-- A request with what it sends; no body is `undefined`. -/
structure OutboundRequest extends HttpRequest where
  headers : HeaderRecord
  body : JsValue

def noBodyMethods : List HttpMethod := [.get, .head]

def formatTraceparent (traceId spanId : String) (sampled : Bool) : String :=
  "00-" ++ traceId ++ "-" ++ spanId ++ "-" ++ if sampled then "01" else "00"

/-- `body !== undefined`. -/
def hasBody : JsValue → Bool
  | .undefined => false
  | _ => true

section Client

variable (config : HeaderConfig) (context : Option RequestContext) (spanId : String)

/-- The headers that the caller's are spread over. -/
def defaultHeaders : Properties :=
  [("accept", "application/json"), ("user-agent", config.userAgent)]

/-- The headers that are set where the caller has set none, in order.  `spanId` is what
`newSpanId()` returns. -/
def addedHeaders (request : OutboundRequest) : Properties :=
  (if hasBody request.body && !noBodyMethods.contains request.method then
      [("content-type", "application/json")] else []) ++
    (match context.bind RequestContext.requestId with
      | some requestId => if requestId = "" then [] else [(config.requestIdHeader, requestId)]
      | none => []) ++
    match context.bind RequestContext.traceId with
      | some traceId =>
          if traceId = "" then []
          else [("traceparent", formatTraceparent traceId spanId
            ((context.bind RequestContext.sampled).getD true))]
      | none => []

def buildHeaders (request : OutboundRequest) : Properties :=
  (addedHeaders config context spanId request).foldl setDefault
    (spread (defaultHeaders config) request.headers.entries)

end Client

/-! ### Values under a name -/

section Values

variable {headers a b : Properties} {name : String} {h : String × String}

theorem values_append : values (a ++ b) name = values a name ++ values b name := by
  simp [values]

@[simp] theorem values_nil : values [] name = [] := rfl

theorem values_cons : values (h :: headers) name =
    if toLowerCase h.1 = toLowerCase name then h.2 :: values headers name
    else values headers name := by
  rw [values, List.filter_cons]
  by_cases hn : toLowerCase h.1 = toLowerCase name
  · rw [if_pos (decide_eq_true hn), if_pos hn]
    rfl
  · rw [if_neg (by simpa using hn), if_neg hn]
    rfl

theorem values_congr {name' : String} (h : toLowerCase name = toLowerCase name') :
    values headers name = values headers name' := by
  rw [values, values, h]

/-- A property under a name spelled otherwise. -/
theorem values_eq_nil_iff :
    values headers name = [] ↔ ∀ h ∈ headers, toLowerCase h.1 ≠ toLowerCase name := by
  simp [values, List.filter_eq_nil_iff]

theorem lookup_eq_none_of_values (h : values headers name = []) : headers.lookup name = none := by
  rw [List.lookup_eq_none_iff]
  intro p hp
  rw [bne_iff_ne]
  intro hne
  exact values_eq_nil_iff.mp h p hp (by rw [hne])

/-! #### How long they are -/

/-- The length of values, each with a separator behind it. -/
def weight : List String → ℕ
  | [] => 0
  | v :: vs => v.length + 2 + weight vs

theorem weight_pos {vs : List String} (h : vs ≠ []) : 0 < weight vs := by
  cases vs with
  | nil => exact absurd rfl h
  | cons v vs =>
      rw [weight]
      omega

theorem weight_append (vs ws : List String) : weight (vs ++ ws) = weight vs + weight ws := by
  induction vs with
  | nil => simp [weight]
  | cons v vs ih => rw [List.cons_append, weight, weight, ih, ← Nat.add_assoc]

theorem combine_length : ∀ {vs : List String}, vs ≠ [] → (combine vs).length + 2 = weight vs
  | [], h => absurd rfl h
  | [v], _ => rfl
  | v :: v' :: vs, _ => by
      have ih := combine_length (List.cons_ne_nil v' vs)
      have hseparator : ", ".length = 2 := rfl
      rw [combine, weight, ← ih, String.length_append, String.length_append, hseparator]
      omega

/-- More values are another header. -/
theorem combine_ne_of_weight {vs ws : List String} (hv : vs ≠ []) (h : weight vs < weight ws) :
    combine ws ≠ combine vs := by
  intro heq
  have hw : ws ≠ [] := by
    rintro rfl
    exact Nat.not_lt_zero _ h
  have hlength := combine_length hw
  rw [heq, combine_length hv] at hlength
  omega

end Values

/-! ### What the client makes of them -/

section Merge

variable {a : Properties} {c : HeaderRecord} {name key : String} {h : String × String}

/-- The caller's values under a name, those under `key` itself before the others. -/
def hoisted (c : HeaderRecord) (key : String) : List String :=
  (c.entries.filter fun h => h.1 = key).map Prod.snd ++
    values (c.entries.filter fun h => h.1 ≠ key) key

theorem filter_key {entries : Properties} (hnodup : (entries.map Prod.fst).Nodup) {value : String}
    (h : entries.lookup key = some value) :
    (entries.filter fun h => h.1 = key) = [(key, value)] := by
  induction entries with
  | nil => cases h
  | cons e entries ih =>
      obtain ⟨k, v⟩ := e
      rw [List.map_cons, List.nodup_cons] at hnodup
      by_cases hk : key = k
      · subst hk
        rw [List.lookup_cons_self, Option.some.injEq] at h
        have hnone : (entries.filter fun h => h.1 = key) = [] := by
          rw [List.filter_eq_nil_iff]
          intro e he heq
          exact hnodup.1 (List.mem_map.mpr ⟨e, he, by simpa using heq⟩)
        rw [List.filter_cons_of_pos (by simp), hnone, h]
      · rw [List.lookup_cons, beq_false_of_ne hk] at h
        rw [List.filter_cons_of_neg (by simpa using Ne.symm hk)]
        exact ih hnodup.2 h

theorem hoisted_eq {value : String} (h : c.entries.lookup key = some value) :
    hoisted c key = value :: values (c.entries.filter fun h => h.1 ≠ key) key := by
  rw [hoisted, filter_key c.nodup h]
  rfl

/-- Nothing is lost or added by putting one value first. -/
theorem weight_hoisted (entries : Properties) (key : String) :
    weight ((entries.filter fun h => h.1 = key).map Prod.snd ++
      values (entries.filter fun h => h.1 ≠ key) key) = weight (values entries key) := by
  induction entries with
  | nil => rfl
  | cons e entries ih =>
      rw [weight_append] at ih ⊢
      rw [values_cons]
      by_cases hk : e.1 = key
      · rw [List.filter_cons_of_pos (by simpa using hk),
          List.filter_cons_of_neg (by simpa using hk),
          if_pos (by rw [hk]), List.map_cons, weight, weight, ← ih]
        omega
      · rw [List.filter_cons_of_neg (by simpa using hk),
          List.filter_cons_of_pos (by simpa using hk),
          values_cons]
        split
        · rw [weight, weight, ← ih]
          omega
        · exact ih

/-- The properties that `??=` adds. -/
def missing (headers : Properties) : Properties → Properties
  | [] => []
  | h :: added =>
      if (headers.lookup h.1).isSome then missing headers added
      else h :: missing (headers ++ [h]) added

theorem foldl_setDefault (headers added : Properties) :
    added.foldl setDefault headers = headers ++ missing headers added := by
  induction added generalizing headers with
  | nil => simp [missing]
  | cons h added ih =>
      rw [List.foldl_cons, setDefault, missing]
      split
      · exact ih headers
      · rw [ih, List.append_assoc, List.singleton_append]

theorem lookup_spread (a b : Properties) (key : String) :
    (spread a b).lookup key = (b.lookup key).or (a.lookup key) := by
  rw [spread, List.lookup_append, JsValue.lookup_map_getD, JsValue.lookup_filter_isNone]
  cases a.lookup key <;> cases b.lookup key <;> simp

variable {headers headers' added : Properties}

/-- Nothing is added under a name whose spellings are all there. -/
theorem values_missing_eq_nil
    (hall : ∀ d ∈ added, toLowerCase d.1 = toLowerCase name → (headers.lookup d.1).isSome) :
    values (missing headers added) name = [] := by
  induction added generalizing headers with
  | nil => rfl
  | cons d added ih =>
      rw [missing]
      split
      · exact ih fun e he => hall e (List.mem_cons_of_mem _ he)
      next hnone =>
        rw [values_cons, if_neg fun hd => hnone (hall d List.mem_cons_self hd)]
        refine ih fun e he hname => ?_
        rw [List.lookup_append, Option.isSome_or, hall e (List.mem_cons_of_mem _ he) hname,
          Bool.true_or]

/-- A spelling that is not there is added. -/
theorem values_missing_ne_nil (hh : h ∈ added) (hnone : headers.lookup h.1 = none) :
    values (missing headers added) h.1 ≠ [] := by
  induction added generalizing headers with
  | nil => cases hh
  | cons d added ih =>
      rw [missing]
      by_cases hd : d.1 = h.1
      · rw [hd, hnone, if_neg (by decide), values_cons, if_pos (by rw [hd])]
        exact List.cons_ne_nil _ _
      · have hrest : h ∈ added := (List.mem_cons.mp hh).resolve_left fun heq => hd (by rw [heq])
        split
        · exact ih hrest hnone
        · rw [values_cons]
          have htail : values (missing (headers ++ [d]) added) h.1 ≠ [] := by
            refine ih hrest ?_
            rw [List.lookup_append, hnone, Option.none_or, List.lookup_cons,
              beq_false_of_ne (Ne.symm hd)]
            rfl
          split
          · exact List.cons_ne_nil _ _
          · exact htail

/-- What is added under a name depends on its spellings only. -/
theorem values_missing_congr (h : ∀ key, toLowerCase key = toLowerCase name →
    (headers.lookup key).isSome = (headers'.lookup key).isSome) :
    values (missing headers added) name = values (missing headers' added) name := by
  induction added generalizing headers headers' with
  | nil => rfl
  | cons d added ih =>
      by_cases hd : toLowerCase d.1 = toLowerCase name
      · rw [missing, missing, h d.1 hd]
        split
        · exact ih h
        · rw [values_cons, values_cons, if_pos hd, if_pos hd, ih]
          intro key hkey
          rw [List.lookup_append, List.lookup_append, Option.isSome_or, Option.isSome_or,
            h key hkey]
      · -- another name: whether it is added or not makes no difference
        have hskip (headers : Properties) : values (missing headers (d :: added)) name =
            values (missing headers added) name := by
          rw [missing]
          split
          · rfl
          · rw [values_cons, if_neg hd]
            refine ih fun key hkey => ?_
            have hne : key ≠ d.1 := fun heq => hd (by rw [← heq, hkey])
            rw [List.lookup_append, List.lookup_cons, beq_false_of_ne hne]
            simp
        rw [hskip, hskip]
        exact ih h

/-- The defaults of a name that the caller does not send stay as they are. -/
theorem values_map_of_nil (hc : values c.entries name = []) (a : Properties) :
    values (a.map fun h => (h.1, (c.entries.lookup h.1).getD h.2)) name = values a name := by
  induction a with
  | nil => rfl
  | cons d a ih =>
      rw [List.map_cons, values_cons, values_cons, ih]
      by_cases hd : toLowerCase d.1 = toLowerCase name
      · rw [lookup_eq_none_of_values (by rw [values_congr hd, hc])]
        rfl
      · rw [if_neg hd, if_neg hd]

theorem values_spread_of_nil (hc : values c.entries name = []) :
    values (spread a c.entries) name = values a name := by
  have hfilter : values (c.entries.filter fun h => (a.lookup h.1).isNone) name = [] := by
    rw [values_eq_nil_iff] at hc ⊢
    exact fun h hh => hc h (List.mem_of_mem_filter hh)
  rw [spread, values_append, hfilter, List.append_nil, values_map_of_nil hc]

theorem values_filter_congr {entries : Properties} {p q : String × String → Bool}
    (h : ∀ e ∈ entries, toLowerCase e.1 = toLowerCase name → p e = q e) :
    values (entries.filter p) name = values (entries.filter q) name := by
  rw [values, values, List.filter_filter, List.filter_filter]
  refine congrArg _ (List.filter_congr fun e he => ?_)
  by_cases hname : toLowerCase e.1 = toLowerCase name
  · rw [h e he hname]
  · rw [decide_eq_false hname, Bool.false_and, Bool.false_and]

/-- The defaults have names that differ in more than case. -/
def Distinct (a : Properties) : Prop := (a.map fun h => toLowerCase h.1).Nodup

/-- Only one default stands under its name. -/
theorem Distinct.eq_of_lower (ha : Distinct a) {d : String × String} (hh : h ∈ a) (hd : d ∈ a)
    (hname : toLowerCase d.1 = toLowerCase h.1) : d = h :=
  List.inj_on_of_nodup_map ha hd hh hname

theorem values_map_of_distinct (ha : Distinct a) (hh : h ∈ a) (g : String × String → String) :
    values (a.map fun e => (e.1, g e)) h.1 = [g h] := by
  induction a with
  | nil => cases hh
  | cons d a ih =>
      rw [Distinct, List.map_cons, List.nodup_cons, List.mem_map, not_exists] at ha
      rw [List.map_cons, values_cons]
      rcases List.mem_cons.mp hh with rfl | hh
      · have hnil : values (a.map fun e => (e.1, g e)) h.1 = [] := by
          rw [values_eq_nil_iff]
          intro e he heq
          obtain ⟨d, hd, rfl⟩ := List.mem_map.mp he
          exact ha.1 d ⟨hd, heq⟩
        rw [if_pos rfl, hnil]
      · rw [if_neg fun heq => ha.1 h ⟨hh, heq.symm⟩]
        exact ih ha.2 hh

theorem lookup_isNone_iff {key : String} :
    (a.lookup key).isNone = true ↔ ∀ d ∈ a, d.1 ≠ key := by
  rw [Option.isNone_iff_eq_none, List.lookup_eq_none_iff]
  refine forall₂_congr fun d _ => ?_
  rw [bne_iff_ne]
  exact ne_comm

/-- Under the name of a default, the value that it has or that the caller gives it comes first. -/
theorem values_spread_default (ha : Distinct a) (hh : h ∈ a) :
    values (spread a c.entries) h.1 =
      match c.entries.lookup h.1 with
      | some _ => hoisted c h.1
      | none => h.2 :: values c.entries h.1 := by
  have hrest : values (c.entries.filter fun e => (a.lookup e.1).isNone) h.1 =
      values (c.entries.filter fun e => e.1 ≠ h.1) h.1 := by
    refine values_filter_congr fun e he hname => ?_
    rw [Bool.eq_iff_iff, lookup_isNone_iff, decide_eq_true_eq]
    refine ⟨fun hnone => Ne.symm (hnone h hh), fun hne d hd hkey => hne ?_⟩
    rw [← hkey] at hname ⊢
    rw [ha.eq_of_lower hh hd hname]
  rw [spread, values_append, values_map_of_distinct ha hh, hrest]
  cases hlookup : c.entries.lookup h.1 with
  | some value =>
      rw [hoisted_eq hlookup]
      rfl
  | none =>
      have hall : (c.entries.filter fun e => e.1 ≠ h.1) = c.entries := by
        rw [List.filter_eq_self]
        intro e he
        exact decide_eq_true (lookup_isNone_iff.mp (by rw [hlookup]; rfl) e he)
      rw [hall]
      rfl

/-- Under any other name, the caller's values stay as they are. -/
theorem values_spread_other (hother : ∀ d ∈ a, toLowerCase d.1 ≠ toLowerCase name) :
    values (spread a c.entries) name = values c.entries name := by
  have hmap : values (a.map fun h => (h.1, (c.entries.lookup h.1).getD h.2)) name = [] := by
    rw [values_eq_nil_iff]
    intro e he
    obtain ⟨d, hd, rfl⟩ := List.mem_map.mp he
    exact hother d hd
  have hall : values (c.entries.filter fun e => (a.lookup e.1).isNone) name =
      values (c.entries.filter fun _ => true) name := by
    refine values_filter_congr fun e he hname => ?_
    rw [lookup_isNone_iff]
    intro d hd hkey
    exact hother d hd (by rw [hkey, hname])
  rw [spread, values_append, hmap, List.nil_append, hall, List.filter_true]

/-- The caller's values are all sent. -/
theorem weight_spread (ha : Distinct a) (c : HeaderRecord) (name : String) :
    weight (values c.entries name) ≤ weight (values (spread a c.entries) name) := by
  by_cases hdefault : ∃ d ∈ a, toLowerCase d.1 = toLowerCase name
  · obtain ⟨d, hd, hname⟩ := hdefault
    rw [← values_congr hname, ← values_congr hname, values_spread_default ha hd]
    split
    · exact (weight_hoisted c.entries d.1).ge
    · rw [weight]
      exact Nat.le_add_left ..
  · rw [values_spread_other fun d hd hname => hdefault ⟨d, hd, hname⟩]

end Merge

/-! ### Who wins -/

section Wins

variable (config : HeaderConfig) (context : Option RequestContext) (spanId : String)
  (request : OutboundRequest)

/-- The headers that the client would add itself. -/
def ownHeaders : Properties := defaultHeaders config ++ addedHeaders config context spanId request

/-- A request like this one, whose caller sends no headers. -/
def OutboundRequest.bare : OutboundRequest := { request with headers := ⟨[], .nil⟩ }

/-- Under the name of each header that the client would add, `fetch` sends what the caller sends
under it, and what the client sends by itself if the caller sends nothing. -/
def CallerWins : Prop :=
  ∀ h ∈ ownHeaders config context spanId request,
    effective (buildHeaders config context spanId request) h.1 =
      if values request.headers.entries h.1 = [] then
        effective (buildHeaders config context spanId request.bare) h.1
      else effective request.headers.entries h.1

/-- Each header of the client that the caller sends under some spelling, it sends under the
client's; and of one that the client sends by default, putting this spelling before the others
makes no difference. -/
def SpelledAlike : Prop :=
  ∀ h ∈ ownHeaders config context spanId request,
    values request.headers.entries h.1 ≠ [] →
      (request.headers.entries.lookup h.1).isSome ∧
        (h ∈ defaultHeaders config →
          combine (hoisted request.headers h.1) = combine (values request.headers.entries h.1))

variable {config context spanId request} {name : String}

theorem distinct_defaults : Distinct (defaultHeaders config) := by
  simp only [Distinct, defaultHeaders, List.map_cons, List.map_nil]
  decide

theorem values_buildHeaders : values (buildHeaders config context spanId request) name =
    values (spread (defaultHeaders config) request.headers.entries) name ++
      values (missing (spread (defaultHeaders config) request.headers.entries)
        (addedHeaders config context spanId request)) name := by
  rw [buildHeaders, foldl_setDefault, values_append]

theorem spread_nil (a : Properties) : spread a [] = a := by
  simp [spread]

/-- Under a name that the caller does not send, the client sends what it sends by itself. -/
theorem effective_of_nil (hnil : values request.headers.entries name = []) :
    effective (buildHeaders config context spanId request) name =
      effective (buildHeaders config context spanId request.bare) name := by
  have hvalues : values (buildHeaders config context spanId request) name =
      values (buildHeaders config context spanId request.bare) name := by
    rw [values_buildHeaders, values_buildHeaders, values_spread_of_nil hnil]
    refine congrArg₂ _ (congrArg (values · name) (spread_nil _).symm) ?_
    refine values_missing_congr fun key hkey => ?_
    rw [lookup_spread, lookup_eq_none_of_values (by rw [values_congr hkey, hnil]),
      Option.none_or]
    exact congrArg (fun headers => (List.lookup key headers).isSome) (spread_nil _).symm
  rw [effective, effective, hvalues]

/-- Nothing is missing of what has names of its own. -/
theorem missing_of_distinct {headers added : Properties} (h : Distinct (headers ++ added)) :
    missing headers added = added := by
  induction added generalizing headers with
  | nil => rfl
  | cons d added ih =>
      have hd : headers.lookup d.1 = none := by
        rw [← Option.isNone_iff_eq_none, lookup_isNone_iff]
        intro e he heq
        rw [Distinct, List.map_append] at h
        exact (List.disjoint_of_nodup_append h) (List.mem_map.mpr ⟨e, he, rfl⟩)
          (by rw [heq, List.map_cons]; exact List.mem_cons_self)
      rw [missing, hd, if_neg (by decide), ih]
      rwa [List.append_assoc, List.singleton_append]

/-- By itself the client sends each of its headers, if their names differ in more than case. -/
theorem effective_bare (hown : Distinct (ownHeaders config context spanId request))
    {h : String × String} (hh : h ∈ ownHeaders config context spanId request) :
    effective (buildHeaders config context spanId request.bare) h.1 = some h.2 := by
  have hbuild : buildHeaders config context spanId request.bare =
      ownHeaders config context spanId request := by
    rw [buildHeaders, foldl_setDefault]
    exact congrArg₂ (· ++ ·) (spread_nil _)
      ((congrArg (missing · _) (spread_nil _)).trans (missing_of_distinct hown))
  have hvalues := values_map_of_distinct hown hh Prod.snd
  rw [List.map_id' (ownHeaders config context spanId request)] at hvalues
  rw [hbuild, effective, hvalues]
  rfl

/-- What it sends outweighs what the caller sends as soon as it adds a value of its own. -/
theorem lookup_isSome_of_combine {h : String × String}
    (hh : h ∈ ownHeaders config context spanId request)
    (hle : weight (values (buildHeaders config context spanId request) h.1) ≤
      weight (values request.headers.entries h.1)) :
    (request.headers.entries.lookup h.1).isSome := by
  by_contra hnone
  rw [Bool.not_eq_true, Option.isSome_eq_false_iff, Option.isNone_iff_eq_none] at hnone
  rw [values_buildHeaders, weight_append] at hle
  have hspread := weight_spread (@distinct_defaults config) request.headers h.1
  have hdefault : ∀ d ∈ defaultHeaders config, d.1 = h.1 → False := by
    intro d hd heq
    have hvalues := @values_spread_default _ request.headers d distinct_defaults hd
    rw [heq, hnone] at hvalues
    rw [hvalues, weight] at hle
    omega
  rcases List.mem_append.mp hh with hd | hadded
  · exact hdefault h hd rfl
  · have hbase : (spread (defaultHeaders config) request.headers.entries).lookup h.1 = none := by
      rw [lookup_spread, hnone, Option.none_or, ← Option.isNone_iff_eq_none, lookup_isNone_iff]
      exact fun d hd heq => hdefault d hd heq
    have hpos := weight_pos (values_missing_ne_nil hadded hbase)
    omega

/-- Where the caller sends all spellings that the client has for a name, nothing is added. -/
theorem values_of_spelled (h : SpelledAlike config context spanId request)
    (hsent : values request.headers.entries name ≠ []) :
    values (buildHeaders config context spanId request) name =
      values (spread (defaultHeaders config) request.headers.entries) name := by
  rw [values_buildHeaders, values_missing_eq_nil, List.append_nil]
  intro d hd hname
  rw [lookup_spread, Option.isSome_or,
    (h d (List.mem_append_right _ hd) (by rw [values_congr hname]; exact hsent)).1, Bool.true_or]

theorem effective_eq_iff {headers headers' : Properties} (h : values headers name ≠ [])
    (h' : values headers' name ≠ []) : effective headers name = effective headers' name ↔
      combine (values headers name) = combine (values headers' name) := by
  rw [effective, effective, if_neg h, if_neg h', Option.some.injEq]

/-- The client sends something under every name that the caller does. -/
theorem values_buildHeaders_ne_nil (hsent : values request.headers.entries name ≠ []) :
    values (buildHeaders config context spanId request) name ≠ [] := by
  intro hnil
  have hspread := weight_spread (@distinct_defaults config) request.headers name
  have hpos := weight_pos hsent
  rw [values_buildHeaders, List.append_eq_nil_iff] at hnil
  rw [hnil.1, weight] at hspread
  omega

theorem callerWins_of_spelled (h : SpelledAlike config context spanId request) :
    CallerWins config context spanId request := by
  intro own hown
  split
  next hnil => exact effective_of_nil hnil
  next hsent =>
    rw [effective_eq_iff (values_buildHeaders_ne_nil hsent) hsent, values_of_spelled h hsent]
    by_cases hdefault : ∃ d ∈ defaultHeaders config, toLowerCase d.1 = toLowerCase own.1
    · obtain ⟨d, hd, hname⟩ := hdefault
      rw [← values_congr hname] at hsent
      rw [← values_congr hname, ← values_congr hname, values_spread_default distinct_defaults hd]
      obtain ⟨hspelled, hfirst⟩ := h d (List.mem_append_left _ hd) hsent
      obtain ⟨value, hvalue⟩ := Option.isSome_iff_exists.mp hspelled
      rw [hvalue]
      exact hfirst hd
    · rw [values_spread_other fun d hd hname => hdefault ⟨d, hd, hname⟩]

theorem spelled_of_callerWins (h : CallerWins config context spanId request) :
    SpelledAlike config context spanId request := by
  intro own hown hsent
  have hwins := h own hown
  rw [if_neg hsent, effective_eq_iff (values_buildHeaders_ne_nil hsent) hsent] at hwins
  have hle : weight (values (buildHeaders config context spanId request) own.1) ≤
      weight (values request.headers.entries own.1) :=
    Nat.le_of_not_lt fun hlt => combine_ne_of_weight hsent hlt hwins
  have hspelled := lookup_isSome_of_combine hown hle
  refine ⟨hspelled, fun hdefault => ?_⟩
  obtain ⟨value, hvalue⟩ := Option.isSome_iff_exists.mp hspelled
  have hspread : values (spread (defaultHeaders config) request.headers.entries) own.1 =
      hoisted request.headers own.1 := by
    rw [values_spread_default distinct_defaults hdefault, hvalue]
  -- nothing is added: it would outweigh the caller's values
  have hnil : values (missing (spread (defaultHeaders config) request.headers.entries)
      (addedHeaders config context spanId request)) own.1 = [] := by
    by_contra hadded
    have hpos := weight_pos hadded
    rw [values_buildHeaders, weight_append, hspread] at hle
    have hsame := weight_hoisted request.headers.entries own.1
    rw [← hoisted] at hsame
    omega
  rw [values_buildHeaders, hnil, List.append_nil, hspread] at hwins
  exact hwins

/-- **The caller's header wins** exactly when the caller spells it as the client does: under another
spelling the client adds its own, and `fetch` sends both. -/
theorem callerWins_iff (config : HeaderConfig) (context : Option RequestContext) (spanId : String)
    (request : OutboundRequest) : CallerWins config context spanId request ↔
      SpelledAlike config context spanId request :=
  ⟨spelled_of_callerWins, callerWins_of_spelled⟩

end Wins

/-- A call that asks for another format, in a spelling that is not the client's. -/
def OutboundRequest.csv : OutboundRequest where
  method := .get
  tag := "accounts.export"
  timeoutMs := none
  retries := none
  idempotent := none
  headers := ⟨[("Accept", "text/csv")], by decide⟩
  body := .undefined

/-- `fetch` sends `accept: application/json, text/csv`. -/
theorem both_accepted :
    ¬ CallerWins ⟨"nestjs-ddd", "x-request-id"⟩ none "00f067aa0ba902b7" .csv := by
  intro h
  have haccept := h ("accept", "application/json") (List.mem_append_left _ List.mem_cons_self)
  exact absurd haccept (by decide)

end NestDdd.Http

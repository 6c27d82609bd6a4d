import NestDdd.Interface.ExceptionFilter
import NestDdd.Runs.PromiseAll
import NestDdd.Shared.Schema

/-!
# Interface — validating a request

`ZodHttpInterceptor` (`src/interface/http/interceptors/zod-http.interceptor.ts`): the parts of a
request that a route declares schemas for are validated at once, under `Promise.all`, and each
that passes is stored on the request the moment it does.  What a schema says of its part is in the
labels, and so is the order; without `async` the parts are validated one after the other
(`interceptSync`), which is one of the orders.

* `validated_in_any_order`: the handler runs if and only if every part has passed, and then sees
  each as its schema has parsed it; else the request fails with the first part to fail.
* `catch_invalid`: what the client gets of a part that does not pass.
-/

namespace NestDdd.Interface

open Runs NestDdd.JsValue

/-! ### Requests and schemas -/

/-- `Part`. -/
inductive Part where
  | body
  | query
  | params
  | headers
  deriving DecidableEq

def Part.name : Part → String
  | .body => "body"
  | .query => "query"
  | .params => "params"
  | .headers => "headers"

/-- `req`: its parts, and `req.validated`. -/
structure ValidatedRequest where
  part : Part → JsValue
  validated : Part → Option JsValue

namespace ValidatedRequest

/-- `@Validated(part)`. -/
def read (req : ValidatedRequest) (p : Part) : JsValue := (req.validated p).getD (req.part p)

/-- `query` is a getter, and `headers` keep what the schema does not list. -/
def store (p : Part) (value : JsValue) (req : ValidatedRequest) : ValidatedRequest where
  validated := Function.update req.validated p (some value)
  part := match p with
    | .body | .params => Function.update req.part p value
    | .query | .headers => req.part

theorem store_validated (p : Part) (value : JsValue) (req : ValidatedRequest) (q : Part) :
    (req.store p value).validated q = if q = p then some value else req.validated q :=
  Function.update_apply ..

theorem store_part (p : Part) (value : JsValue) (req : ValidatedRequest) (q : Part) :
    (req.store p value).part q =
      if q = p ∧ (q = .body ∨ q = .params) then value else req.part q := by
  cases p <;> cases q <;> rfl

/-- What `store p` may write: `req.validated[p]`, and `req[p]` if that is replaced. -/
def cell (req : ValidatedRequest) (p : Part) : Option JsValue × Option JsValue :=
  (req.validated p, if p = .body ∨ p = .params then some (req.part p) else none)

theorem store_cell (p : Part) (value : JsValue) (req : ValidatedRequest) (q : Part) :
    (req.store p value).cell q =
      if q = p then (some value, if p = .body ∨ p = .params then some value else none)
      else req.cell q := by
  simp only [cell, store_validated, store_part]
  split_ifs <;> simp_all

end ValidatedRequest

/-- What `safeParse` returns. -/
inductive Parsed where
  | success (data : JsValue)
  | failure (issues : List ZodIssue)

/-- One of the `details` of `formatZodError`. -/
def formatIssue (part : String) (issue : ZodIssue) : String :=
  let path := String.intercalate "." ((part :: issue.path.map PathKey.text).filter (· ≠ ""))
  if path = "" then issue.message else path ++ ": " ++ issue.message

def formatZodError (issues : List ZodIssue) (part : String) : JsValue :=
  .object [("message", .string "Validation failed"),
    ("details", .array (issues.map fun issue => .string (formatIssue part issue)))]

/-- A `ZodType`; `safeParse` throws when a schema has asynchronous refinements. -/
structure ZodType where
  safeParse : JsValue → Except Exception Parsed

structure ZodHttpSchema where
  body : Option ZodType
  query : Option ZodType
  params : Option ZodType
  headers : Option ZodType
  async : Bool

/-- `parts.filter(isSchema)`. -/
def ZodHttpSchema.schemas (schema : ZodHttpSchema) : List (Part × ZodType) :=
  [(Part.body, schema.body), (.query, schema.query), (.params, schema.params),
    (.headers, schema.headers)].filterMap fun (p, zod) => zod.map (p, ·)

def ZodHttpSchema.parts (schema : ZodHttpSchema) : List Part := schema.schemas.map Prod.fst

/-! ### The interceptor -/

/-- `validate`, once the part is parsed: what it rejects with, or stores. -/
def validate (p : Part) : Except Exception Parsed → Except Exception JsValue
  | .ok (.success data) => .ok data
  | .ok (.failure issues) => .error (.http 400 (formatZodError issues p.name))
  | .error e => .error e

/-- What becomes of a request: `next.handle()`, or an error for the filter. -/
inductive Intercepted where
  | handled (req : ValidatedRequest)
  | rejected (e : Exception)

/-- `intercept`, at `await Promise.all` or past it. -/
structure Interception where
  gathering : Gathering ValidatedRequest Part Exception
  outcome : Option Intercepted

/-- A schema is done with its part, or `intercept` resumes. -/
inductive InterceptLabel where
  | parsed (p : Part) (result : Except Exception Parsed)
  | resume

/-- What a label settles. -/
def InterceptLabel.settles : InterceptLabel → Option (Settlement Part JsValue Exception)
  | .parsed p result => some (p, validate p result)
  | .resume => none

namespace Interception

def start (schema : ZodHttpSchema) (req : ValidatedRequest) : Interception :=
  ⟨⟨req, schema.parts, none⟩, none⟩

/-- `Promise.all` has settled. -/
def settled (s : Interception) : Option Intercepted :=
  match s.gathering.error with
  | some e => some (.rejected e)
  | none => if s.gathering.pending.isEmpty then some (.handled s.gathering.state) else none

end Interception

def interceptStep (s : Interception) : InterceptLabel → Option Interception
  | .parsed p result =>
      ((gather ValidatedRequest.store).step s.gathering (p, validate p result)).map
        ({ s with gathering := · })
  | .resume =>
      match s.outcome with
      | some _ => none
      | none => s.settled.map fun outcome => { s with outcome := some outcome }

def zodHttp : Machine Interception InterceptLabel := ⟨interceptStep⟩

/-- `intercept` without `async`: every part is parsed and stored, and `Promise.all` then rejects
with the first that failed. -/
def interceptSync : List (Part × ZodType) → ValidatedRequest → Option Exception → Intercepted
  | [], req, none => .handled req
  | [], _, some e => .rejected e
  | (p, zod) :: schemas, req, error =>
      match validate p (zod.safeParse (req.part p)) with
      | .ok value => interceptSync schemas (req.store p value) error
      | .error e => interceptSync schemas req (error.or (some e))

/-! ### What holds after some labels -/

section

variable {schema : ZodHttpSchema} {req req' : ValidatedRequest} {ls : List InterceptLabel}
  {l : InterceptLabel} {s s' : Interception}

theorem ZodHttpSchema.parts_nodup (schema : ZodHttpSchema) : schema.parts.Nodup := by
  have hsub : ∀ l : List (Part × Option ZodType),
      ((l.filterMap fun (p, zod) => zod.map (p, ·)).map Prod.fst).Sublist (l.map Prod.fst) := by
    intro l
    induction l with
    | nil => exact .slnil
    | cons a l ih =>
        obtain ⟨p, zod⟩ := a
        cases zod with
        | none => exact ih.cons p
        | some zod => exact ih.cons_cons p
  exact (hsub _).nodup (by decide : [Part.body, .query, .params, .headers].Nodup)

/-- What the labels of a run settle. -/
def settlements (ls : List InterceptLabel) : List (Settlement Part JsValue Exception) :=
  ls.filterMap InterceptLabel.settles

theorem mem_settlements {p : Part} {r : Except Exception JsValue} :
    (p, r) ∈ settlements ls ↔ ∃ result, .parsed p result ∈ ls ∧ validate p result = r := by
  constructor
  · intro h
    obtain ⟨l, hl, hs⟩ := List.mem_filterMap.mp h
    cases l with
    | parsed q result =>
        obtain ⟨rfl, rfl⟩ := Prod.mk.inj (Option.some.inj hs)
        exact ⟨result, hl, rfl⟩
    | resume => cases hs
  · rintro ⟨result, hl, rfl⟩
    exact List.mem_filterMap.mpr ⟨_, hl, rfl⟩

theorem validate_eq_ok {p : Part} {result : Except Exception Parsed} {data : JsValue} :
    validate p result = .ok data ↔ result = .ok (.success data) := by
  cases result with
  | error e => simp [validate]
  | ok parsed => cases parsed <;> simp [validate]

/-- How far `intercept` is after `ls`. -/
structure Interception.After (schema : ZodHttpSchema) (req : ValidatedRequest)
    (ls : List InterceptLabel) (s : Interception) : Prop where
  settled : s.gathering.Settled ValidatedRequest.store req schema.parts (settlements ls)
  outcome : ∀ outcome, s.outcome = some outcome → s.settled = some outcome
  length : ls.length = (settlements ls).length + s.outcome.toList.length

theorem Interception.After.step (h : s.After schema req ls)
    (hs : zodHttp.step s l = some s') : s'.After schema req (ls ++ [l]) := by
  have hsettlements : settlements (ls ++ [l]) = settlements ls ++ l.settles.toList := by
    rw [settlements, List.filterMap_append]
    cases l <;> rfl
  cases l with
  | parsed p result =>
      obtain ⟨g, hg, rfl⟩ := Option.map_eq_some_iff.mp hs
      refine ⟨hsettlements ▸ h.settled.step hg, fun outcome ho => ?_, ?_⟩
      · obtain ⟨hmem, hg⟩ := Option.ite_none_right_eq_some.mp hg
        obtain rfl := Option.some.inj hg
        have hsettled := h.outcome outcome ho
        unfold Interception.settled at hsettled ⊢
        -- something is pending, so `Promise.all` had rejected
        cases he : s.gathering.error with
        | none =>
            have hpending : s.gathering.pending.isEmpty = false :=
              List.isEmpty_eq_false_iff.mpr (List.ne_nil_of_mem hmem)
            simp [he, hpending] at hsettled
        | some e => simpa [he] using hsettled
      · rw [hsettlements, List.length_append, List.length_append, h.length]
        change _ + 1 = _ + 1 + s.outcome.toList.length
        omega
  | resume =>
      simp only [zodHttp, interceptStep] at hs
      split at hs
      next => cases hs
      next hnone =>
        obtain ⟨outcome, ho, rfl⟩ := Option.map_eq_some_iff.mp hs
        refine ⟨?_, fun outcome' ho' => Option.some.inj ho' ▸ ho, ?_⟩
        · rw [hsettlements]
          exact (List.append_nil _).symm ▸ h.settled
        · rw [hsettlements, List.length_append, h.length, hnone]
          change _ + 1 = (settlements ls ++ []).length + 1
          rw [List.append_nil]
          rfl

theorem Interception.After.of_run {G : Interception → InterceptLabel → Interception → Prop}
    (r : Run zodHttp G (.start schema req) ls s) : s.After schema req ls := by
  induction r with
  | nil => exact ⟨.start, (fun _ ho => nomatch ho), rfl⟩
  | snoc _ hs _ ih => exact ih.step hs

/-! ### What the handler sees -/

/-- The handler runs on `req'`: every part with a schema has passed, and is read as it was parsed;
`body` and `params` are replaced by it, `query` and `headers` are not, and what has no schema is as
it came. -/
structure HandledWith (schema : ZodHttpSchema) (req : ValidatedRequest) (ls : List InterceptLabel)
    (req' : ValidatedRequest) : Prop where
  passed : ∀ p ∈ schema.parts, ∃ data, .parsed p (.ok (.success data)) ∈ ls
  parsed : ∀ p data, .parsed p (.ok (.success data)) ∈ ls → req'.read p = data ∧
    req'.part p = if p = .body ∨ p = .params then data else req.part p
  kept : ∀ p ∉ schema.parts, req'.read p = req.read p ∧ req'.part p = req.part p

/-- The request fails with the first part that did not pass. -/
def RejectedWith (schema : ZodHttpSchema) (ls : List InterceptLabel) (e : Exception) : Prop :=
  ∃ before p result after, ls = before ++ .parsed p result :: after ∧ p ∈ schema.parts ∧
    validate p result = .error e ∧
    ∀ q result', .parsed q result' ∈ before → ∃ data, result' = .ok (.success data)

/-- What holds of `intercept` after `ls`. -/
structure Interception.Validates (schema : ZodHttpSchema) (req : ValidatedRequest)
    (ls : List InterceptLabel) (s : Interception) : Prop where
  handled : ∀ req', s.outcome = some (.handled req') → HandledWith schema req ls req'
  rejected : ∀ e, s.outcome = some (.rejected e) → RejectedWith schema ls e
  goesOn : s.outcome = none → ∃ l s', zodHttp.step s l = some s'
  once : ((settlements ls).map Prod.fst).Nodup
  ends : ls.length ≤ schema.parts.length + 1

/-- What the values are that the calls of a run have stored. -/
theorem written_parts (honce : ((settlements ls).map Prod.fst).Nodup) :
    (∀ p data, .parsed p (.ok (.success data)) ∈ ls →
      (written ValidatedRequest.store req (settlements ls)).read p = data ∧
        (written ValidatedRequest.store req (settlements ls)).part p =
          if p = .body ∨ p = .params then data else req.part p) ∧
      ∀ p, (∀ data, .parsed p (.ok (.success data)) ∉ ls) →
        (written ValidatedRequest.store req (settlements ls)).read p = req.read p ∧
          (written ValidatedRequest.store req (settlements ls)).part p = req.part p := by
  obtain ⟨hstored, hkept⟩ := @cell_written _ _ _ _ ValidatedRequest.store req (settlements ls) _ _
    ValidatedRequest.cell _ (fun p data req q => req.store_cell p data q) honce
  have hframe : ∀ p, ¬ (p = .body ∨ p = .params) →
      (written ValidatedRequest.store req (settlements ls)).part p = req.part p := fun p hp =>
    written_frame (f := fun req => req.part p)
      (fun q data req => by simp [ValidatedRequest.store_part, hp]) req _
  refine ⟨fun p data hmem => ?_, fun p hnone => ?_⟩
  · have hcell := hstored p data (mem_settlements.mpr ⟨_, hmem, rfl⟩)
    obtain ⟨hvalidated, hpart⟩ := Prod.mk.inj hcell
    refine ⟨by rw [ValidatedRequest.read, hvalidated]; rfl, ?_⟩
    by_cases hp : p = .body ∨ p = .params
    · simpa [hp] using hpart
    · rw [hframe p hp, if_neg hp]
  · have hnone' : ∀ data, (p, .ok data) ∉ settlements ls := by
      intro data hmem
      obtain ⟨result, hmem, hresult⟩ := mem_settlements.mp hmem
      exact hnone data (validate_eq_ok.mp hresult ▸ hmem)
    obtain ⟨hvalidated, hpart⟩ := Prod.mk.inj (hkept p hnone')
    have hsame : (written ValidatedRequest.store req (settlements ls)).part p = req.part p := by
      by_cases hp : p = .body ∨ p = .params
      · simpa [hp] using hpart
      · exact hframe p hp
    exact ⟨by rw [ValidatedRequest.read, hvalidated, hsame, ValidatedRequest.read], hsame⟩

theorem Interception.After.handled (h : s.After schema req ls)
    (ho : s.outcome = some (.handled req')) : HandledWith schema req ls req' := by
  have hsettled := h.outcome _ ho
  unfold Interception.settled at hsettled
  cases he : s.gathering.error with
  | some e => simp [he] at hsettled
  | none =>
      simp only [he, Option.ite_none_right_eq_some, List.isEmpty_iff, Option.some.injEq,
        Intercepted.handled.injEq] at hsettled
      obtain ⟨hpending, rfl⟩ := hsettled
      have hcalls := h.settled.calls
      rw [hpending, List.append_nil] at hcalls
      obtain ⟨hparsed, hkept⟩ :=
        @written_parts req ls (h.settled.once schema.parts_nodup)
      rw [h.settled.state]
      refine ⟨fun p hp => ?_, hparsed, fun p hp => hkept p fun data hmem => hp ?_⟩
      · obtain ⟨⟨q, r⟩, hmem, rfl⟩ := List.mem_map.mp (hcalls.symm.subset hp)
        obtain ⟨data, hdata⟩ := h.settled.resolved he _ hmem
        obtain ⟨-, rfl⟩ := Prod.mk.inj hdata
        obtain ⟨result, hmem, hresult⟩ := mem_settlements.mp hmem
        exact ⟨data, validate_eq_ok.mp hresult ▸ hmem⟩
      · exact hcalls.subset (List.mem_map.mpr ⟨_, mem_settlements.mpr ⟨_, hmem, rfl⟩, rfl⟩)

/-- The settlements that come before one come from labels that come before its label. -/
theorem split_settlements {before after : List (Settlement Part JsValue Exception)} {p : Part}
    {r : Except Exception JsValue} (h : settlements ls = before ++ (p, r) :: after) :
    ∃ ls₁ result ls₂, ls = ls₁ ++ .parsed p result :: ls₂ ∧ validate p result = r ∧
      settlements ls₁ = before := by
  obtain ⟨ls₁, rest, rfl, hbefore, hrest⟩ := List.filterMap_eq_append_iff.mp h
  obtain ⟨ls₀, l, ls₂, rfl, hnone, hl, -⟩ := List.filterMap_eq_cons_iff.mp hrest
  cases l with
  | resume => cases hl
  | parsed q result =>
      obtain ⟨rfl, rfl⟩ := Prod.mk.inj (Option.some.inj hl)
      refine ⟨ls₁ ++ ls₀, result, ls₂, by rw [List.append_assoc], rfl, ?_⟩
      rw [settlements, List.filterMap_append, hbefore, List.filterMap_eq_nil_iff.mpr hnone,
        List.append_nil]

theorem Interception.After.rejected (h : s.After schema req ls) {e : Exception}
    (ho : s.outcome = some (.rejected e)) : RejectedWith schema ls e := by
  have hsettled := h.outcome _ ho
  unfold Interception.settled at hsettled
  cases he : s.gathering.error with
  | none => simp [he] at hsettled
  | some e' =>
      obtain rfl : e' = e := by simpa [he] using hsettled
      obtain ⟨before, p, after, heq, hbefore⟩ := h.settled.first he
      obtain ⟨ls₁, result, ls₂, rfl, hresult, rfl⟩ := split_settlements heq
      refine ⟨ls₁, p, result, ls₂, rfl, ?_, hresult, fun q result' hmem => ?_⟩
      · refine h.settled.calls.subset (List.mem_append_left _ (List.mem_map.mpr ⟨(p, .error e'), ?_,
          rfl⟩))
        rw [heq]
        exact List.mem_append_right _ List.mem_cons_self
      · obtain ⟨data, hdata⟩ := hbefore _ (mem_settlements.mpr ⟨result', hmem, rfl⟩)
        exact ⟨data, validate_eq_ok.mp (Prod.mk.inj hdata).2⟩

theorem Interception.After.validates (h : s.After schema req ls) :
    s.Validates schema req ls := by
  refine ⟨fun _ => h.handled, fun _ => h.rejected, fun hnone => ?_,
    h.settled.once schema.parts_nodup, ?_⟩
  · by_cases hs : s.settled = none
    · -- then something is pending
      have hpending : ∃ p, p ∈ s.gathering.pending := by
        unfold Interception.settled at hs
        cases he : s.gathering.error with
        | some e => simp [he] at hs
        | none =>
            simp only [he, ite_eq_right_iff, reduceCtorEq, imp_false, List.isEmpty_iff] at hs
            exact List.exists_mem_of_ne_nil _ hs
      obtain ⟨p, hp⟩ := hpending
      refine ⟨.parsed p (.ok (.success .null)), Option.isSome_iff_exists.mp ?_⟩
      simp [zodHttp, interceptStep, gather, hp]
    · obtain ⟨outcome, hs⟩ := Option.ne_none_iff_exists'.mp hs
      refine ⟨.resume, { s with outcome := some outcome }, ?_⟩
      simp only [zodHttp, interceptStep, hnone, hs]
      rfl
  · have hcalls := h.settled.calls.length_eq
    rw [List.length_append, List.length_map] at hcalls
    have hle : s.outcome.toList.length ≤ 1 := by cases s.outcome <;> simp
    rw [h.length]
    omega

/-- The labels of the parts in the order of the source. -/
def syncLabels (req : ValidatedRequest) (schemas : List (Part × ZodType)) : List InterceptLabel :=
  schemas.map fun (p, zod) => .parsed p (zod.safeParse (req.part p))

theorem interceptSync_run {schemas : List (Part × ZodType)} {req' : ValidatedRequest}
    {error : Option Exception} (hnodup : (schemas.map Prod.fst).Nodup)
    (hsame : ∀ p ∈ schemas.map Prod.fst, req'.part p = req.part p) :
    ∃ s, Run zodHttp Free ⟨⟨req', schemas.map Prod.fst, error⟩, none⟩
        (syncLabels req schemas ++ [.resume]) s ∧
      s.outcome = some (interceptSync schemas req' error) := by
  induction schemas generalizing req' error with
  | nil =>
      cases error with
      | none => exact ⟨_, .one rfl trivial, rfl⟩
      | some e => exact ⟨_, .one rfl trivial, rfl⟩
  | cons schema schemas ih =>
      obtain ⟨p, zod⟩ := schema
      rw [List.map_cons, List.nodup_cons] at hnodup
      have hpart : req'.part p = req.part p := hsame p List.mem_cons_self
      have hstep : zodHttp.step ⟨⟨req', p :: schemas.map Prod.fst, error⟩, none⟩
          (.parsed p (zod.safeParse (req.part p))) =
        some ⟨⟨Settlement.write ValidatedRequest.store
            (p, validate p (zod.safeParse (req.part p))) req', schemas.map Prod.fst,
          error.or (Settlement.error? (p, validate p (zod.safeParse (req.part p))))⟩, none⟩ := by
        simp [zodHttp, interceptStep, gather]
      have hrest : ∀ q ∈ schemas.map Prod.fst, (Settlement.write ValidatedRequest.store
          (p, validate p (zod.safeParse (req.part p))) req').part q = req.part q := by
        intro q hq
        rw [← hsame q (List.mem_cons_of_mem p hq)]
        have hne : q ≠ p := fun heq => hnodup.1 (heq ▸ hq)
        cases validate p (zod.safeParse (req.part p)) with
        | ok data => simp [Settlement.write, ValidatedRequest.store_part, hne]
        | error e => rfl
      obtain ⟨s, r, ho⟩ := @ih _ (error.or
        (Settlement.error? (p, validate p (zod.safeParse (req.part p))))) hnodup.2 hrest
      refine ⟨s, .cons hstep trivial r, ho.trans ?_⟩
      rw [interceptSync, hpart]
      cases validate p (zod.safeParse (req.part p)) with
      | ok data => simp [Settlement.write, Settlement.error?]
      | error e => simp [Settlement.write, Settlement.error?]

end

/-- **In any order.**  However the schemas of a route take their time, each at most once: the
handler sees every part as it was parsed, or the request fails with the first part that does not
pass; and without `async` the outcome is that of one such run. -/
theorem validated_in_any_order (schema : ZodHttpSchema) (req : ValidatedRequest) :
    (∀ ls s, Run zodHttp Free (.start schema req) ls s → s.Validates schema req ls) ∧
      ∃ s, Run zodHttp Free (.start schema req)
          (syncLabels req schema.schemas ++ [.resume]) s ∧
        s.outcome = some (interceptSync schema.schemas req none) :=
  ⟨fun _ _ r => (Interception.After.of_run r).validates,
    interceptSync_run schema.parts_nodup fun _ _ => rfl⟩

/-! ### What the client gets of a part that does not pass -/

/-- A detail begins with the part it is about. -/
theorem formatIssue_names (p : Part) (issue : ZodIssue) :
    ∃ path, formatIssue p.name issue = p.name ++ path ++ ": " ++ issue.message ∧
      (path = "" ∨ ∃ rest, path = "." ++ rest) := by
  have hname : p.name ≠ "" := by cases p <;> decide
  obtain ⟨path, hpath, hcases⟩ : ∃ path, String.intercalate "."
      ((p.name :: issue.path.map PathKey.text).filter (· ≠ "")) = p.name ++ path ∧
        (path = "" ∨ ∃ rest, path = "." ++ rest) := by
    rw [List.filter_cons_of_pos (by simpa using hname)]
    cases (issue.path.map PathKey.text).filter (· ≠ "") with
    | nil => exact ⟨"", by rw [String.intercalate_singleton, String.append_empty], .inl rfl⟩
    | cons step steps =>
        exact ⟨_, by rw [String.intercalate_cons_cons, String.append_assoc], .inr ⟨_, rfl⟩⟩
  have hne : p.name ++ path ≠ "" := fun h => hname (String.append_eq_empty_iff.mp h).1
  refine ⟨path, ?_, hcases⟩
  simp only [formatIssue, hpath, if_neg hne]

/-- A part that does not pass is a 400 whose details say why. -/
theorem catch_invalid (filter : Filter) (req : Request) (now : String) (p : Part)
    (issues : List ZodIssue) :
    ∃ e, validate p (.ok (.failure issues)) = .error e ∧
      filter.catchException req now e = some ⟨400, errorEnvelope
        [("message", .string "Validation failed"), ("code", .undefined),
          ("details", .array (issues.map fun issue => .string (formatIssue p.name issue)))]
        (filter.errorMeta req now)⟩ :=
  ⟨_, rfl, rfl⟩

end NestDdd.Interface

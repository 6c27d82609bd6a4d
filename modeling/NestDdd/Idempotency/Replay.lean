import NestDdd.Idempotency.OracleStore
import NestDdd.Interface.ResponseFormatter

/-!
# Idempotency — a replay as the client sees it

The interceptor stores the handler's raw result and replays it to a retry; the response formatter
wraps both.  The in-memory store keeps the value, the Oracle store its JSON text.

* `formatValue_shown`: everything in a success envelope but its `meta`, by the body's shape.
* `shown_jsonify`: it is the same for a body that has been through JSON, unless one of the body's
  own properties is `undefined`.
* `replay_shown_iff`: the replay shows what the original response showed, except a void result in
  the Oracle store: `Result.ok(undefined)` comes back as the plain value `{ "ok": true }`.
-/

namespace NestDdd.Idempotency

open NestDdd.JsValue NestDdd.Interface

/-! ### What the formatter shows of a body -/

/-- Everything in the envelope of a body but its `meta`. -/
def shown (body : JsValue) (name : String) : JsValue :=
  if isEnvelope body then body.get name
  else if name = "success" then .bool true
  else if name = "data" then (if isResultLike body then body.get "value" else body)
  else .undefined

theorem get_envelope {data : JsValue} {formatMeta : List (String × JsValue)} {name : String}
    (hname : name ≠ "meta") :
    (JsValue.object [("success", .bool true), ("data", data), ("meta", .object formatMeta)]).get
        name =
      if name = "success" then .bool true else if name = "data" then data else .undefined := by
  by_cases hs : name = "success"
  · subst hs; rfl
  · by_cases hd : name = "data"
    · subst hd; rfl
    · simp [JsValue.get, List.lookup_cons, beq_false_of_ne hs, beq_false_of_ne hd,
        beq_false_of_ne hname, hs, hd]

/-- A result that is not failed is put in an envelope. -/
theorem formatValue_shown (formatMeta : List (String × JsValue)) {body : JsValue}
    (h : isFailedResult body = false) :
    ∃ envelope, formatValue formatMeta body = .ok envelope ∧
      ∀ name, name ≠ "meta" → envelope.get name = shown body name := by
  unfold formatValue shown
  cases henv : isEnvelope body with
  | true =>
      refine ⟨_, rfl, fun name hname => ?_⟩
      change ((spread body.fields _).lookup name).getD .undefined = body.get name
      rw [lookup_spread, List.lookup_cons, beq_false_of_ne hname]
      exact (get_eq_lookup body name).symm
  | false =>
      cases hres : isResultLike body with
      | false => exact ⟨_, rfl, fun name hname => get_envelope hname⟩
      | true =>
          have hok : isOk body = true := by
            simpa [isFailedResult, isErr, hres, isOk] using h
          rw [hok]
          exact ⟨_, rfl, fun name hname => get_envelope hname⟩

/-- Two responses that differ in `meta` only, as JSON. -/
def SameButMeta (a b : Except Exception JsValue) : Prop :=
  ∃ envelope envelope', a = .ok envelope ∧ b = .ok envelope' ∧
    ∀ name, name ≠ "meta" → jsonify (envelope.get name) = jsonify (envelope'.get name)

theorem sameButMeta_iff (formatMeta formatMeta' : List (String × JsValue)) {body body' : JsValue}
    (h : isFailedResult body = false) (h' : isFailedResult body' = false) :
    SameButMeta (formatValue formatMeta body) (formatValue formatMeta' body') ↔
      ∀ name, name ≠ "meta" → jsonify (shown body name) = jsonify (shown body' name) := by
  obtain ⟨envelope, henv, hshown⟩ := formatValue_shown formatMeta h
  obtain ⟨envelope', henv', hshown'⟩ := formatValue_shown formatMeta' h'
  constructor
  · rintro ⟨e, e', he, he', hsame⟩ name hname
    obtain rfl := Except.ok.inj (henv.symm.trans he)
    obtain rfl := Except.ok.inj (henv'.symm.trans he')
    rw [← hshown name hname, ← hshown' name hname, hsame name hname]
  · intro hsame
    exact ⟨_, _, henv, henv', fun name hname => by
      rw [hshown name hname, hshown' name hname, hsame name hname]⟩

/-- What is shown of a body that has been through JSON. -/
theorem shown_jsonify {body body' : JsValue} (hdef : Defined body)
    (hjson : jsonify body = some body') (name : String) :
    jsonify (shown body' name) = jsonify (shown body name) := by
  unfold shown
  rw [isEnvelope_jsonify hdef hjson, isResultLike_jsonify hdef hjson]
  split
  · exact jsonify_get hdef hjson name
  · split
    · rfl
    · split
      · split
        · exact jsonify_get hdef hjson _
        · rw [jsonify_jsonify hjson, hjson]
      · rfl

theorem isFailedResult_jsonify {body body' : JsValue} (hdef : Defined body)
    (hjson : jsonify body = some body') : isFailedResult body' = isFailedResult body := by
  rw [isFailedResult, isFailedResult, isResultLike_jsonify hdef hjson]
  cases hres : isResultLike body with
  | false => rfl
  | true =>
      -- its `ok` is a boolean, which JSON keeps
      rw [isErr, isErr, get_jsonify hdef hjson]
      cases hok : body.get "ok" with
      | bool b => simp
      | _ => simp [isResultLike, hok] at hres

/-! ### What the stores keep -/

/-- `IDEMPOTENCY_STORE`. -/
inductive Store where
  | memory
  | oracle
  deriving DecidableEq

/-- `JSON.parse` reads what `JSON.stringify` has written of `v`. -/
def JsonCodec.RoundTrips (json : JsonCodec) (v : JsValue) : Prop :=
  ∀ w, jsonify v = some w → json.parse (json.stringify v) = some w

/-- What a stored body reads as. -/
theorem JsonCodec.decode_encode {json : JsonCodec} {body : JsValue}
    (htrip : json.RoundTrips body) :
    json.decode (json.encode body) = some ((jsonify body).getD .undefined) := by
  cases hbody : jsonify body with
  | none =>
      rw [jsonify_eq_none.mp hbody]
      rfl
  | some body' =>
      have hencode : json.encode body = some (json.stringify body) := by
        cases body with
        | undefined => cases hbody
        | _ => rfl
      rw [hencode]
      exact htrip body' hbody

section Stores

variable (config : IdempotencyConfig) (json : JsonCodec)

/-- The answer to a claim of `key` at `now`, once a request has claimed it at `claimedAt` and has
stored `status` and `body`. -/
def Store.answer (records : Records) (r : Nat) (key fingerprint : String) (claimedAt now : Int)
    (status : Int) (body : JsValue) : Store → Option ClaimOutcome
  | .memory =>
      let claimed := (InMemoryIdempotencyStore.claim config records claimedAt key fingerprint).2
      let stored := InMemoryIdempotencyStore.complete claimed key status body
      some (InMemoryIdempotencyStore.claim config stored now key fingerprint).1
  | .oracle =>
      let row := OracleIdempotencyStore.openedRow config r fingerprint claimedAt
      let stored := (OracleIdempotencyStore.completed json status body row).1
      match OracleIdempotencyStore.afterSelect config json fingerprint now now stored with
      | some (.done outcome) => some outcome
      | _ => none

/-- The body that `store` replays in place of `body`; nothing when its text does not parse. -/
def Store.kept (body : JsValue) : Store → Option JsValue
  | .memory => some body
  | .oracle => json.decode (json.encode body)

/-- A claim that succeeds, and a retry before the record expires. -/
theorem answer_eq (store : Store) {records : Records} {key fingerprint : String}
    {claimedAt now : Int} (r : Nat) (status : Int) (body : JsValue)
    (hclaim : (InMemoryIdempotencyStore.claim config records claimedAt key fingerprint).1 =
      .claimed) (hnow : now < claimedAt + config.ttlMs) :
    store.answer config json records r key fingerprint claimedAt now status body =
      (store.kept json body).map (.replay status) := by
  cases store with
  | oracle =>
      simp only [Store.answer, Store.kept, OracleIdempotencyStore.completed,
        OracleIdempotencyStore.openedRow, OracleIdempotencyStore.afterSelect]
      cases json.decode (json.encode body) <;> simp
  | memory =>
      rcases InMemoryIdempotencyStore.claim_cases with ⟨hopen, -⟩ | ⟨_, -, -, hne, -⟩
      · have hrecord : InMemoryIdempotencyStore.complete
            (InMemoryIdempotencyStore.claim config records claimedAt key fingerprint).2 key status
              body key = some (InMemoryIdempotencyStore.closed
                (InMemoryIdempotencyStore.opened config claimedAt fingerprint) status body) := by
          rw [hopen]
          exact InMemoryIdempotencyStore.complete_some (Function.update_self ..) status body
        have hvacant : ¬ InMemoryIdempotencyStore.Vacant config now fingerprint
            (InMemoryIdempotencyStore.closed
              (InMemoryIdempotencyStore.opened config claimedAt fingerprint) status body) := by
          rintro (hexp | ⟨-, hstate, -⟩)
          · exact absurd hnow (Int.not_lt.mpr hexp)
          · cases hstate
        simp only [Store.answer, Store.kept, InMemoryIdempotencyStore.claim_some hrecord hvacant,
          InMemoryIdempotencyStore.closed, InMemoryIdempotencyStore.opened]
        simp
      · exact absurd hclaim hne

end Stores

/-! ### When a replay shows the original response -/

/-- What a handler may return: nothing, a JSON value, or a successful `Result` of these. -/
inductive Replayable : JsValue → Prop
  | undefined : Replayable .undefined
  | json {v : JsValue} : IsJson v → Replayable v
  | ok {v : JsValue} : Replayable v → Replayable (JsValue.ok v)

/-- Whoever retries, and whenever, before the record expires: the store replays, under the status
that was stored, a body whose envelope is that of the original but for `meta`. -/
def ShowsOriginal (config : IdempotencyConfig) (json : JsonCodec) (store : Store)
    (body : JsValue) : Prop :=
  ∀ (records : Records) (r : Nat) (key fingerprint : String) (claimedAt now status : Int)
    (formatMeta formatMeta' : List (String × JsValue)),
    (InMemoryIdempotencyStore.claim config records claimedAt key fingerprint).1 = .claimed →
    now < claimedAt + config.ttlMs →
    ∃ body', store.answer config json records r key fingerprint claimedAt now status body =
        some (.replay status body') ∧
      SameButMeta (formatValue formatMeta body) (formatValue formatMeta' body')

section Shows

variable {config : IdempotencyConfig} {json : JsonCodec} {body : JsValue}

/-- All that counts is the body the store keeps. -/
theorem showsOriginal_iff {store : Store} :
    ShowsOriginal config json store body ↔ ∃ body', store.kept json body = some body' ∧
      ∀ formatMeta formatMeta', SameButMeta (formatValue formatMeta body)
        (formatValue formatMeta' body') := by
  constructor
  · intro h
    have hfresh : (InMemoryIdempotencyStore.claim config (fun _ => none) 0 "" "").1 = .claimed :=
      rfl
    have hnow : (0 : Int) < 0 + config.ttlMs := by have := config.ttlMs_pos; omega
    have hanswer := answer_eq config json store 0 200 body hfresh hnow
    cases hkept : store.kept json body with
    | none =>
        obtain ⟨_, hreplay, -⟩ := h _ 0 "" "" 0 0 200 [] [] hfresh hnow
        rw [hanswer, hkept] at hreplay
        cases hreplay
    | some kept =>
        refine ⟨kept, rfl, fun m m' => ?_⟩
        obtain ⟨body', hreplay, hsame⟩ := h _ 0 "" "" 0 0 200 m m' hfresh hnow
        rw [hanswer, hkept] at hreplay
        cases hreplay
        exact hsame
  · rintro ⟨body', hkept, hsame⟩ records r key fingerprint claimedAt now status m m' hclaim hnow
    exact ⟨body', by rw [answer_eq config json store r status body hclaim hnow, hkept]; rfl,
      hsame m m'⟩

theorem sameButMeta_self (formatMeta formatMeta' : List (String × JsValue))
    (h : isFailedResult body = false) :
    SameButMeta (formatValue formatMeta body) (formatValue formatMeta' body) :=
  (sameButMeta_iff formatMeta formatMeta' h h).mpr fun _ _ => rfl

theorem showsOriginal_defined (hdef : Defined body) (hbody : body ≠ .undefined)
    (hstored : isFailedResult body = false) (htrip : json.RoundTrips body) :
    ShowsOriginal config json .oracle body := by
  obtain ⟨body', hjson⟩ := Option.ne_none_iff_exists'.mp (mt jsonify_eq_none.mp hbody)
  have hkept : Store.oracle.kept json body = some body' := by
    rw [Store.kept, JsonCodec.decode_encode htrip, hjson]
    rfl
  have hstored' : isFailedResult body' = false :=
    (isFailedResult_jsonify hdef hjson).trans hstored
  refine showsOriginal_iff.mpr ⟨body', hkept, fun m m' => ?_⟩
  exact (sameButMeta_iff m m' hstored hstored').mpr fun name _ =>
    (shown_jsonify hdef hjson name).symm

/-- A void result comes back as a value, whose envelope has data. -/
theorem not_showsOriginal_void (htrip : json.RoundTrips (JsValue.ok .undefined)) :
    ¬ ShowsOriginal config json .oracle (JsValue.ok .undefined) := by
  intro h
  obtain ⟨body', hkept, hsame⟩ := showsOriginal_iff.mp h
  have hparse := htrip (.object [("ok", .bool true)]) (by
    simp [JsValue.ok, jsonifyFields_cons])
  obtain rfl : body' = .object [("ok", .bool true)] :=
    Option.some.inj (hkept.symm.trans hparse)
  have hdata := (sameButMeta_iff [] [] rfl rfl).mp (hsame [] []) "data" (by simp)
  have hvoid : shown (JsValue.ok .undefined) "data" = .undefined := rfl
  have hvalue : shown (.object [("ok", .bool true)]) "data" = .object [("ok", .bool true)] := rfl
  rw [hvoid, hvalue] at hdata
  simp at hdata

/-- **When a replay shows the original response.**  For every result a handler may return and the
interceptor stores, the replay's envelope is the original one but for `meta`, exactly when the
store is the in-memory one or the result is not the void `Result.ok(undefined)`. -/
theorem replay_shown_iff (config : IdempotencyConfig) (store : Store) (hbody : Replayable body)
    (hstored : isFailedResult body = false) (htrip : json.RoundTrips body) :
    ShowsOriginal config json store body ↔
      store = .memory ∨ body ≠ JsValue.ok .undefined := by
  cases store with
  | memory =>
      refine iff_of_true (showsOriginal_iff.mpr ⟨body, rfl, fun m m' => ?_⟩) (.inl rfl)
      exact sameButMeta_self m m' hstored
  | oracle =>
      simp only [reduceCtorEq, false_or]
      cases hbody with
      | undefined =>
          refine iff_of_true (showsOriginal_iff.mpr ⟨_, rfl, fun m m' => ?_⟩) ?_
          · exact sameButMeta_self m m' hstored
          · simp [JsValue.ok]
      | json hj =>
          refine iff_of_true
            (showsOriginal_defined hj.defined hj.ne_undefined hstored htrip) fun heq => ?_
          subst heq
          exact absurd rfl (hj.defined ("value", .undefined) (by simp [JsValue.ok, fields]))
      | @ok v hv =>
          by_cases hvoid : v = .undefined
          · subst hvoid
            exact iff_of_false (not_showsOriginal_void htrip) (not_not.mpr rfl)
          · refine iff_of_true (showsOriginal_defined ?_ (by simp [JsValue.ok]) hstored htrip) ?_
            · simp [Defined, JsValue.ok, fields, hvoid]
            · simp [JsValue.ok, hvoid]

end Shows

/-- `JSON` on the text of a void result. -/
def JsonCodec.void : JsonCodec where
  stringify
    | .object [("ok", .bool true), ("value", .undefined)] => "\x7b\"ok\":true\x7d"
    | _ => "null"
  parse text :=
    if text = "\x7b\"ok\":true\x7d" then some (.object [("ok", .bool true)]) else none

theorem roundTrips_order : JsonCodec.order.RoundTrips (.string "order-1") := by
  rintro w hw
  rw [jsonify_string, Option.some.injEq] at hw
  subst hw
  rfl

/-- An order comes back from the Oracle store as it was. -/
theorem order_replay_shown :
    ShowsOriginal .defaults .order .oracle (.string "order-1") :=
  (replay_shown_iff .defaults .oracle (.json (.string "order-1")) rfl roundTrips_order).mpr
    (.inr (by simp [JsValue.ok]))

/-- A void result is answered `data: undefined`, and replayed as `data: { "ok": true }`. -/
theorem void_replay_shown :
    Replayable (JsValue.ok .undefined) ∧
      ¬ ShowsOriginal .defaults .void .oracle (JsValue.ok .undefined) := by
  refine ⟨.ok .undefined, not_showsOriginal_void fun w hw => ?_⟩
  obtain rfl : w = .object [("ok", .bool true)] := by
    simpa [JsValue.ok, jsonifyFields_cons, eq_comm] using hw
  rfl

end NestDdd.Idempotency

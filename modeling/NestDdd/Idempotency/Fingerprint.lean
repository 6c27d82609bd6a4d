import NestDdd.Idempotency.InMemoryStore
import NestDdd.Shared.Stringify
import NestDdd.Shared.Utf8

/-!
# Idempotency — the fingerprint

`IdempotencyInterceptor.fingerprint`
(`src/interface/http/interceptors/idempotency.interceptor.ts`): SHA-256 of the method, the URL and
the text of the body, joined by colons.  `rawBody` is there if a body parser has read the body; if
not, the text is the JSON of `req.body`.

* `preimage_eq_iff`: when two requests are hashed from one string; bodies that no parser has read
  make no difference (`confusable_of_unread`).
* `distinguished_iff`: all other pairs are told apart, and a key that is used for both is a
  mismatch.
* `distinguished_of_plain`: so are requests that differ, if their URLs have no colon and their
  bodies are UTF-8 that a parser has read.
-/

namespace NestDdd.Idempotency

open NestDdd.JsValue InMemoryIdempotencyStore

/-! ### The fingerprint -/

/-- A request with its body as it came.  No method of HTTP has a colon. -/
structure RawBodyRequest where
  method : String
  originalUrl : String
  bytes : List UInt8
  parsed : Bool
  body : JsValue
  method_token : ':' ∉ method.toList

namespace RawBodyRequest

/-- `req.rawBody`: the body, if a body parser has read it. -/
def rawBody (req : RawBodyRequest) : Option (List UInt8) :=
  if req.parsed then some req.bytes else none

variable (numberText : Rat → List Char) (sha256 : String → String) (req : RawBodyRequest)

/-- `req.rawBody ? req.rawBody.toString('utf8') : JSON.stringify(req.body ?? null)`. -/
def text : List Char :=
  match req.rawBody with
  | some bytes => Utf8.decode bytes
  | none => (stringify numberText (coalesce req.body .null)).getD []

/-- What SHA-256 is fed. -/
def preimage : String :=
  String.ofList (req.method.toList ++ ':' :: req.originalUrl.toList ++ ':' :: req.text numberText)

def fingerprint : String := sha256 (req.preimage numberText)

end RawBodyRequest

/-! ### Which requests are hashed alike -/

/-- Two pairs of fields are joined to one list when they are equal, or one field shifts its end to
the other. -/
theorem append_cons_eq_iff {α : Type} {a : α} {u u' t t' : List α} :
    u ++ a :: t = u' ++ a :: t' ↔ u = u' ∧ t = t' ∨
      (∃ s, u' = u ++ a :: s ∧ t = s ++ a :: t') ∨ ∃ s, u = u' ++ a :: s ∧ t' = s ++ a :: t := by
  rw [List.append_eq_append_iff]
  constructor
  · rintro (⟨rest, hu, ht⟩ | ⟨rest, hu, ht⟩)
    · cases rest with
      | nil =>
          simp only [List.append_nil, List.nil_append, List.cons.injEq, true_and] at hu ht
          exact .inl ⟨hu.symm, ht⟩
      | cons b rest =>
          simp only [List.cons_append, List.cons.injEq] at ht
          obtain ⟨rfl, rfl⟩ := ht
          exact .inr (.inl ⟨rest, hu, rfl⟩)
    · cases rest with
      | nil =>
          simp only [List.append_nil, List.nil_append, List.cons.injEq, true_and] at hu ht
          exact .inl ⟨hu, ht.symm⟩
      | cons b rest =>
          simp only [List.cons_append, List.cons.injEq] at ht
          obtain ⟨rfl, rfl⟩ := ht
          exact .inr (.inr ⟨rest, hu, rfl⟩)
  · rintro (⟨rfl, rfl⟩ | ⟨s, rfl, rfl⟩ | ⟨s, rfl, rfl⟩)
    · exact .inl ⟨[], by simp, by simp⟩
    · exact .inl ⟨a :: s, rfl, rfl⟩
    · exact .inr ⟨a :: s, rfl, rfl⟩

theorem append_cons_inj {α : Type} {a : α} {u u' t t' : List α} (hu : a ∉ u) (hu' : a ∉ u') :
    u ++ a :: t = u' ++ a :: t' ↔ u = u' ∧ t = t' := by
  refine append_cons_eq_iff.trans (or_iff_left ?_)
  rintro (⟨s, rfl, -⟩ | ⟨s, rfl, -⟩)
  · exact hu' (List.mem_append_right _ List.mem_cons_self)
  · exact hu (List.mem_append_right _ List.mem_cons_self)

section Alike

variable {numberText : Rat → List Char} {a b : RawBodyRequest}

/-- The URL of `b` goes on where that of `a` ends, with a colon and a piece that the body of `a`
begins with. -/
def Shifted (numberText : Rat → List Char) (a b : RawBodyRequest) : Prop :=
  ∃ piece, b.originalUrl.toList = a.originalUrl.toList ++ ':' :: piece ∧
    a.text numberText = piece ++ ':' :: b.text numberText

/-- One method; and one URL and bodies that read the same, or a piece that has shifted between the
URL and the body. -/
def Confusable (numberText : Rat → List Char) (a b : RawBodyRequest) : Prop :=
  a.method = b.method ∧
    (a.originalUrl = b.originalUrl ∧ a.text numberText = b.text numberText ∨
      Shifted numberText a b ∨ Shifted numberText b a)

theorem preimage_eq_iff :
    a.preimage numberText = b.preimage numberText ↔ Confusable numberText a b := by
  rw [RawBodyRequest.preimage, RawBodyRequest.preimage, String.ofList_inj, List.append_assoc,
    List.append_assoc, List.cons_append, List.cons_append,
    append_cons_inj a.method_token b.method_token, append_cons_eq_iff, String.toList_inj,
    String.toList_inj]
  rfl

/-- Bodies that no parser has read are not hashed. -/
theorem confusable_of_unread (hmethod : a.method = b.method)
    (hurl : a.originalUrl = b.originalUrl) (ha : a.parsed = false) (hb : b.parsed = false)
    (hbody : a.body = b.body) : Confusable numberText a b := by
  refine ⟨hmethod, .inl ⟨hurl, ?_⟩⟩
  simp [RawBodyRequest.text, RawBodyRequest.rawBody, ha, hb, hbody]

/-- The claim of `a` keeps `b` away: they are hashed from two strings, and while a record that `a`
has made of a key is live, a claim of the key for `b` is a mismatch. -/
structure Distinguished (numberText : Rat → List Char) (sha256 : String → String)
    (a b : RawBodyRequest) : Prop where
  preimages : a.preimage numberText ≠ b.preimage numberText
  mismatch : ∀ (config : IdempotencyConfig) (records : Records) (now : Int) (key : String)
    (existing : ClaimRecord), records key = some existing →
    existing.fingerprint = a.fingerprint numberText sha256 → now < existing.expiresAt →
    (InMemoryIdempotencyStore.claim config records now key
      (b.fingerprint numberText sha256)).1 = .mismatch

/-- A live record of another fingerprint. -/
theorem claim_mismatch {config : IdempotencyConfig} {records : Records} {now : Int}
    {key fingerprint : String} {existing : ClaimRecord} (h : records key = some existing)
    (hlive : now < existing.expiresAt) (hne : existing.fingerprint ≠ fingerprint) :
    (InMemoryIdempotencyStore.claim config records now key fingerprint).1 = .mismatch := by
  have hv : ¬ Vacant config now fingerprint existing := by
    rintro (hexpired | ⟨hsame, -⟩)
    · exact Int.not_le.mpr hlive hexpired
    · exact hne hsame
  rw [claim_some h hv, if_pos hne]

theorem distinguished_of_ne {sha256 : String → String} (hfree : Function.Injective sha256)
    (hne : a.preimage numberText ≠ b.preimage numberText) :
    Distinguished numberText sha256 a b := by
  refine ⟨hne, fun config records now key existing hrecord hmine hlive => ?_⟩
  refine claim_mismatch hrecord hlive fun hsame => hne (hfree ?_)
  exact hmine.symm.trans hsame

/-- **When the fingerprint identifies a request.**  If SHA-256 has no collisions, two requests are
told apart exactly when they are not confusable. -/
theorem distinguished_iff (numberText : Rat → List Char) {sha256 : String → String}
    (hfree : Function.Injective sha256) (a b : RawBodyRequest) :
    Distinguished numberText sha256 a b ↔ ¬ Confusable numberText a b := by
  constructor
  · intro h hconf
    exact h.preimages (preimage_eq_iff.mpr hconf)
  · intro h
    exact distinguished_of_ne hfree (mt preimage_eq_iff.mp h)

/-- A body that a parser has read, in a request to a URL without a colon. -/
structure Plain (req : RawBodyRequest) : Prop where
  parsed : req.parsed = true
  wellFormed : Utf8.WellFormed req.bytes
  noColon : ':' ∉ req.originalUrl.toList

theorem Plain.text_eq (h : Plain a) : a.text numberText = Utf8.decode a.bytes := by
  simp [RawBodyRequest.text, RawBodyRequest.rawBody, h.parsed]

theorem not_shifted (h : ':' ∉ b.originalUrl.toList) : ¬ Shifted numberText a b := by
  rintro ⟨piece, hurl, -⟩
  rw [hurl] at h
  exact h (List.mem_append_right _ List.mem_cons_self)

/-- Plain requests are confusable only if nothing tells them apart. -/
theorem plain_confusable_iff (ha : Plain a) (hb : Plain b) :
    Confusable numberText a b ↔
      a.method = b.method ∧ a.originalUrl = b.originalUrl ∧ a.bytes = b.bytes := by
  rw [Confusable, or_iff_left (not_or.mpr ⟨not_shifted hb.noColon, not_shifted ha.noColon⟩),
    ha.text_eq, hb.text_eq, Utf8.decode_inj ha.wellFormed hb.wellFormed]

/-- **Plain requests are told apart.** -/
theorem distinguished_of_plain {sha256 : String → String} (hfree : Function.Injective sha256)
    (ha : Plain a) (hb : Plain b) (hne : a.method ≠ b.method ∨ a.originalUrl ≠ b.originalUrl ∨
      a.bytes ≠ b.bytes) : Distinguished numberText sha256 a b := by
  have hconf : ¬ Confusable numberText a b := by
    rw [plain_confusable_iff ha hb, not_and_or, not_and_or]
    exact hne
  exact distinguished_of_ne hfree (mt preimage_eq_iff.mp hconf)

end Alike

/-- `POST` of a form. -/
def form (originalUrl : String) (bytes : List UInt8) : RawBodyRequest :=
  ⟨"POST", originalUrl, bytes, true, .undefined, by decide⟩

theorem form_text (numberText : Rat → List Char) (originalUrl : String) (bytes : List UInt8) :
    (form originalUrl bytes).text numberText = Utf8.decode bytes :=
  rfl

/-- SHA-256 on two forms; whatever else is hashed stays apart from their digests. -/
def sha256OfForms (s : String) : String :=
  if s = "POST:/v1/orders:qty=1" then
    "13d70c846f5a88e7cf753b2c04a87f53cf008661d6e5c1f0399386756104be33"
  else if s = "POST:/v1/orders:qty=2" then
    "f95af1a9ac7ce406464b3158cf9612fda3767d840aff983ee14305eabe6cedfa"
  else "sha256 of " ++ s

theorem sha256OfForms_injective : Function.Injective sha256OfForms := by
  have hother {digest : String} (u : String) (h : digest.toList.head? ≠ some 's') :
      digest ≠ "sha256 of " ++ u := by
    rintro rfl
    exact h (by rw [String.toList_append]; rfl)
  intro s t h
  unfold sha256OfForms at h
  by_cases hs : s = "POST:/v1/orders:qty=1" <;> by_cases ht : t = "POST:/v1/orders:qty=1"
  · exact hs.trans ht.symm
  · rw [if_pos hs, if_neg ht] at h
    split at h
    · exact absurd h (by decide)
    · exact absurd h (hother t (by decide))
  · rw [if_neg hs, if_pos ht] at h
    split at h
    · exact absurd h (by decide)
    · exact absurd h.symm (hother s (by decide))
  · rw [if_neg hs, if_neg ht] at h
    by_cases hs' : s = "POST:/v1/orders:qty=2" <;> by_cases ht' : t = "POST:/v1/orders:qty=2"
    · exact hs'.trans ht'.symm
    · rw [if_pos hs', if_neg ht'] at h
      exact absurd h (hother t (by decide))
    · rw [if_neg hs', if_pos ht'] at h
      exact absurd h.symm (hother s (by decide))
    · rw [if_neg hs', if_neg ht', ← String.toList_inj, String.toList_append,
        String.toList_append] at h
      exact String.toList_inj.mp (List.append_cancel_left h)

/-- The forms `qty=1` and `qty=2`. -/
theorem distinguished_forms : Distinguished (fun q => (toString q.num).toList) sha256OfForms
    (form "/v1/orders" [113, 116, 121, 61, 49]) (form "/v1/orders" [113, 116, 121, 61, 50]) := by
  refine (distinguished_iff _ sha256OfForms_injective _ _).mpr ?_
  rintro ⟨-, ⟨-, htext⟩ | hshift | hshift⟩
  · rw [form_text, form_text] at htext
    exact absurd htext (by decide)
  · exact not_shifted (by decide) hshift
  · exact not_shifted (by decide) hshift

/-- `/v1/orders?note=1` with the form `x:qty=2`, and `/v1/orders?note=1:x` with `qty=2`: both are
hashed from one string. -/
theorem colon_confuses : ∃ a b : RawBodyRequest, a.originalUrl ≠ b.originalUrl ∧
    a.bytes ≠ b.bytes ∧ ∀ numberText sha256, ¬ Distinguished numberText sha256 a b := by
  refine ⟨form "/v1/orders?note=1" [120, 58, 113, 116, 121, 61, 50],
    form "/v1/orders?note=1:x" [113, 116, 121, 61, 50], by decide, by decide,
    fun numberText sha256 h => h.preimages (preimage_eq_iff.mpr ⟨rfl, .inr (.inl ⟨['x'], ?_, ?_⟩)⟩)⟩
  · decide
  · rw [form_text, form_text]
    decide

end NestDdd.Idempotency

import NestDdd.Shared.Base64url
import NestDdd.Shared.JsonText
import NestDdd.Shared.Utf8

/-!
# Shared — pagination cursors

`src/shared/pagination/cursor.ts`: a payload as JSON, in UTF-8, in base64url.

* `cursor_codec`: what is encoded is decoded; a token that is cut is rejected.
-/

namespace NestDdd

open JsValue

/-! ### The code -/

inductive CursorValue where
  | string (s : String)
  | number (n : JsNumber)
  | boolean (b : Bool)
  | null

def CursorValue.toJs : CursorValue → JsValue
  | .string s => .string s
  | .number n => .number n
  | .boolean b => .bool b
  | .null => .null

/-- A `Record<string, string | number | boolean | null>`. -/
structure CursorPayload where
  fields : List (String × CursorValue)
  order : OwnOrder (fields.map fun field => (field.1, field.2.toJs))
  double : ∀ field ∈ fields, ∀ n, field.2 = .number n → n.IsDouble

def CursorPayload.toJs (payload : CursorPayload) : JsValue :=
  .object (payload.fields.map fun field => (field.1, field.2.toJs))

/-- An object always has a text. -/
def encodeCursor (N : NumberToString) (payload : CursorPayload) : List Char :=
  Base64url.encode (Utf8.encode ((stringify N.text payload.toJs).getD []))

/-- `none` if it throws. -/
def decodeCursor (token : List Char) : Option JsValue :=
  parse (Utf8.decode (Base64url.decode token))

/-! ### The text of a payload -/

namespace CursorPayload

variable (payload : CursorPayload)

/-- Its numbers are finite, and none is `-0`. -/
def FiniteNumbers : Prop :=
  ∀ field ∈ payload.fields, ∀ n, field.2 = .number n → ∃ q, n = .finite q

theorem ordinary : Ordinary payload.toJs := by
  refine .object payload.order fun field hfield => ?_
  obtain ⟨own, hown, rfl⟩ := List.mem_map.mp hfield
  have hdouble := payload.double own hown
  cases hvalue : own.2 with
  | string s => exact .string s
  | number n => exact .number (hdouble n hvalue)
  | boolean b => exact .bool b
  | null => exact .null

/-- Such a payload goes through JSON unchanged. -/
theorem jsonify_toJs {payload : CursorPayload} (h : payload.FiniteNumbers) :
    jsonify payload.toJs = some payload.toJs := by
  have hfields : ∀ fields : List (String × CursorValue),
      (∀ field ∈ fields, ∀ n, field.2 = .number n → ∃ q, n = .finite q) →
      jsonifyFields (fields.map fun field => (field.1, field.2.toJs)) =
        fields.map fun field => (field.1, field.2.toJs) := by
    intro fields hfinite
    induction fields with
    | nil => exact jsonifyFields_nil
    | cons field fields ih =>
        obtain ⟨hfield, hfields⟩ := List.forall_mem_cons.mp hfinite
        have hvalue : jsonify field.2.toJs = some field.2.toJs := by
          cases hkind : field.2 with
          | string s => exact jsonify_string s
          | number n =>
              obtain ⟨q, rfl⟩ := hfield n hkind
              rw [CursorValue.toJs, jsonify_number, JsNumber.jsonify]
          | boolean b => exact jsonify_bool b
          | null => exact jsonify_null
        rw [List.map_cons, jsonifyFields_cons, hvalue, ih hfields]
        rfl
  rw [toJs, jsonify_object, hfields payload.fields h]

/-- The text of a payload is read as what JSON keeps of it, and is an object's. -/
theorem exists_text (N : NumberToString) : ∃ text fields,
    stringify N.text payload.toJs = some text ∧ text.head? = some '{' ∧
      jsonify payload.toJs = some (.object fields) ∧
      readValue (2 * text.length + 1) text = some (.object fields, []) := by
  have hjson := jsonify_object (payload.fields.map fun field => (field.1, field.2.toJs))
  obtain ⟨text, htext, hread⟩ := readsValue_stringify N payload.ordinary hjson
  refine ⟨text, _, htext, ?_, hjson, hread.whole⟩
  rw [toJs, stringify] at htext
  rw [← Option.some.inj htext]
  rfl

end CursorPayload

theorem decodeCursor_encode (text : List Char) :
    decodeCursor (Base64url.encode (Utf8.encode text)) = parse text := by
  rw [decodeCursor, Base64url.decode_encode, Utf8.decode_encode]

/-! ### The codec -/

section

variable (N : NumberToString) (payload : CursorPayload)

theorem decodeCursor_encodeCursor :
    decodeCursor (encodeCursor N payload) = jsonify payload.toJs := by
  obtain ⟨text, fields, htext, -, hjson, hread⟩ := payload.exists_text N
  rw [encodeCursor, htext, Option.getD_some, decodeCursor_encode, parse, hread, hjson]
  rfl

/-- A token that is cut is rejected. -/
theorem decodeCursor_prefix {token : List Char} (h : token <+: encodeCursor N payload)
    (hne : token ≠ encodeCursor N payload) : decodeCursor token = none := by
  obtain ⟨text, fields, htext, hopen, -, hread⟩ := payload.exists_text N
  rw [encodeCursor, htext, Option.getD_some] at h hne
  obtain ⟨m, hm, hbytes⟩ := Base64url.decode_of_prefix h hne
  obtain ⟨kept, lost, hcut, hlost, hdecode⟩ := Utf8.decode_take text hm
  rw [decodeCursor, hbytes]
  rcases hdecode with hdecode | hdecode
  · rw [hdecode, ← List.append_nil kept]
    exact parse_cut hread hopen hcut hlost (by decide) (by rintro c ⟨⟩)
  · rw [hdecode]
    refine parse_cut hread hopen hcut hlost (by decide) ?_
    rintro c ⟨rfl⟩
    decide

/-- **The codec of cursors**, for a payload whose numbers are finite and not `-0`. -/
theorem cursor_codec (h : payload.FiniteNumbers) :
    decodeCursor (encodeCursor N payload) = some payload.toJs ∧
    (∀ c ∈ encodeCursor N payload, Base64url.isDigit c = true) ∧
    ∀ token, token <+: encodeCursor N payload → token ≠ encodeCursor N payload →
      decodeCursor token = none :=
  ⟨(decodeCursor_encodeCursor N payload).trans (CursorPayload.jsonify_toJs h),
    Base64url.isDigit_encode, fun _ => decodeCursor_prefix N payload⟩

end

def everyType : CursorPayload where
  fields := [("id", .number (.finite 0)), ("createdAt", .string "2026-09-18"),
    ("archived", .boolean false), ("deletedAt", .null)]
  order := ⟨by decide, by decide⟩
  double := by
    simp only [List.forall_mem_cons]
    refine ⟨?_, nofun, nofun, nofun, nofun⟩
    rintro n ⟨rfl⟩
    exact abs_zero (α := ℚ) ▸ Binary64.isDouble_zero

theorem cursor_codec_everyType : ∃ N : NumberToString,
    decodeCursor (encodeCursor N everyType) = some everyType.toJs ∧
    (∀ c ∈ encodeCursor N everyType, Base64url.isDigit c = true) ∧
    ∀ token, token <+: encodeCursor N everyType → token ≠ encodeCursor N everyType →
      decodeCursor token = none := by
  obtain ⟨N⟩ : Nonempty NumberToString := inferInstance
  refine ⟨N, cursor_codec N everyType ?_⟩
  simp only [CursorPayload.FiniteNumbers, everyType, List.forall_mem_cons]
  refine ⟨?_, nofun, nofun, nofun, nofun⟩
  rintro n ⟨rfl⟩
  exact ⟨0, rfl⟩

end NestDdd

import Mathlib.Data.Rat.Defs

/-!
# Shared — the values handlers and driver calls pass around

`JsValue` is an `unknown` of the source: the payload a handler returns, a stored response body,
a thrown error.  `isRecord`, `isEnvelope`, `isResultLike` and `isErr` follow
`src/shared/helpers.ts` and `src/shared/result.ts`; `isSafeCorrelationId` follows
`src/shared/correlation.ts`.
-/

namespace NestDdd

/-- A number, a finite one by its value; `-0` and the three values that are not finite are kept
apart. -/
inductive JsNumber where
  | nan
  | infinity (negative : Bool)
  | negativeZero
  | finite (value : Rat)
  deriving DecidableEq

/-- An object is its properties in insertion order, with everything `in` sees. -/
inductive JsValue where
  | undefined
  | null
  | bool (b : Bool)
  | number (n : JsNumber)
  | string (s : String)
  | array (items : List JsValue)
  | object (fields : List (String × JsValue))

namespace JsValue

/-- `v[name]`, `undefined` when absent. -/
def get : JsValue → String → JsValue
  | .object fields, name => (fields.lookup name).getD .undefined
  | _, _ => .undefined

/-- `name in v`. -/
def has : JsValue → String → Bool
  | .object fields, name => (fields.lookup name).isSome
  | _, _ => false

/-- What `!!v` is. -/
def truthy : JsValue → Bool
  | .undefined | .null => false
  | .bool b => b
  | .number .nan | .number .negativeZero => false
  | .number (.infinity _) => true
  | .number (.finite q) => q != 0
  | .string s => s != ""
  | .array _ | .object _ => true

/-- `v ?? w`. -/
def coalesce : JsValue → JsValue → JsValue
  | .undefined, w | .null, w => w
  | v, _ => v

/-- `typeof v === 'string'`. -/
def isString : JsValue → Bool
  | .string _ => true
  | _ => false

/-- The own properties of an object, as `...v` copies them. -/
def fields : JsValue → List (String × JsValue)
  | .object fields => fields
  | _ => []

/-- `{ ...a, ...b }`: what both have keeps its place and takes the value of `b`. -/
def spread (a b : List (String × JsValue)) : List (String × JsValue) :=
  a.map (fun field => (field.1, (b.lookup field.1).getD field.2)) ++
    b.filter fun field => (a.lookup field.1).isNone

def isRecord : JsValue → Bool
  | .object _ => true
  | _ => false

def isEnvelope (v : JsValue) : Bool :=
  isRecord v && v.has "success" &&
    (match v.get "success" with
      | .bool _ => true
      | _ => false) &&
    v.has "meta" && isRecord (v.get "meta")

def isResultLike (v : JsValue) : Bool :=
  if !isRecord v || !v.has "ok" then false
  else
    match v.get "ok" with
    | .bool true => v.has "value"
    | .bool false => v.has "error"
    | _ => false

/-- `Result.isOk`. -/
def isOk (result : JsValue) : Bool := (result.get "ok").truthy

/-- `Result.isErr`. -/
def isErr (result : JsValue) : Bool := !(result.get "ok").truthy

/-- `Result.ok`. -/
def ok (value : JsValue) : JsValue := .object [("ok", .bool true), ("value", value)]

/-- `Result.err`. -/
def err (error : JsValue) : JsValue := .object [("ok", .bool false), ("error", error)]

/-- A failed `Result`: what both `isResultLike` and `isErr` accept. -/
def isFailedResult (v : JsValue) : Bool := isResultLike v && isErr v

theorem get_eq_lookup (v : JsValue) (name : String) :
    v.get name = (v.fields.lookup name).getD .undefined := by
  cases v <;> rfl

theorem has_eq_lookup (v : JsValue) (name : String) :
    v.has name = (v.fields.lookup name).isSome := by
  cases v <;> rfl

theorem isString_iff {v : JsValue} : isString v = true ↔ ∃ s, v = .string s := by
  cases v <;> simp [isString]

theorem lookup_filter_isNone {β : Type} (a b : List (String × β)) (name : String) :
    (b.filter fun field => (a.lookup field.1).isNone).lookup name =
      if (a.lookup name).isNone then b.lookup name else none := by
  induction b with
  | nil => simp
  | cons field b ih =>
      obtain ⟨name', value⟩ := field
      rw [List.filter_cons]
      by_cases hn : name = name'
      · subst hn
        by_cases ha : (a.lookup name).isNone = true
        · simp only [ha, if_true, List.lookup_cons_self]
        · simp only [ha, if_false, Bool.false_eq_true] at ih ⊢
          exact ih
      · have htail : ((name', value) :: b).lookup name = b.lookup name := by
          simp [List.lookup_cons, beq_false_of_ne hn]
        rw [htail]
        split
        · simpa [List.lookup_cons, beq_false_of_ne hn] using ih
        · exact ih

theorem lookup_map_getD {β : Type} (a b : List (String × β)) (name : String) :
    (a.map fun field => (field.1, (b.lookup field.1).getD field.2)).lookup name =
      (a.lookup name).map (b.lookup name).getD := by
  induction a with
  | nil => simp
  | cons field a ih =>
      obtain ⟨name', value⟩ := field
      by_cases hn : name = name'
      · subst hn
        simp
      · simp [List.lookup_cons, beq_false_of_ne hn, ih]

/-- A property of a spread is the later object's, if it has it. -/
theorem lookup_spread (a b : List (String × JsValue)) (name : String) :
    (spread a b).lookup name = (b.lookup name).or (a.lookup name) := by
  rw [spread, List.lookup_append, lookup_map_getD, lookup_filter_isNone]
  cases a.lookup name <;> cases b.lookup name <;> simp

end JsValue

/-- `s.toLowerCase()`, of a header name: it has no letters but those of ASCII. -/
def toLowerCase (s : String) : String := String.ofList (s.toList.map Char.toLower)

/-- `SAFE_CORRELATION_ID`: one to 128 of `A-Z a-z 0-9 . _ : -`. -/
def isSafeCorrelationId : Option String → Bool
  | none => false
  | some value =>
      let safe (c : Char) : Bool :=
        c.isAlphanum || c == '.' || c == '_' || c == ':' || c == '-'
      1 ≤ value.length && value.length ≤ 128 && value.toList.all safe

end NestDdd

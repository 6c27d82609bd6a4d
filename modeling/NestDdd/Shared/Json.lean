import NestDdd.Shared.JsValue

/-!
# Shared — what JSON keeps of a value

`jsonify` is `JSON.parse(JSON.stringify(v))`: what a client, or a row of JSON text, has of a value.
`none` stands for `undefined`, which `JSON.stringify` writes as nothing.

* `jsonify_jsonify`: what has been through JSON once goes through it unchanged.
* `IsJson`: the values of JSON.
* `jsonify_get`, `isEnvelope_jsonify`, `isResultLike_jsonify`: a value none of whose properties is
  `undefined` looks the same to the guards of `Shared.JsValue` before and after.
-/

namespace NestDdd

/-- `JSON.stringify` writes `NaN` and the infinities as `null`, and `-0` as `0`. -/
def JsNumber.jsonify : JsNumber → JsValue
  | .nan | .infinity _ => .null
  | .negativeZero => .number (.finite 0)
  | .finite q => .number (.finite q)

namespace JsValue

/-! ### Through JSON -/

mutual

/-- `JSON.parse(JSON.stringify(v))`, `none` for `undefined`. -/
def jsonify : JsValue → Option JsValue
  | .undefined => none
  | .null => some .null
  | .bool b => some (.bool b)
  | .number n => some n.jsonify
  | .string s => some (.string s)
  | .array items => some (.array (jsonifyItems items))
  | .object fields => some (.object (jsonifyFields fields))

/-- A hole of an array is written as `null`. -/
def jsonifyItems : List JsValue → List JsValue
  | [] => []
  | item :: items => (jsonify item).getD .null :: jsonifyItems items

/-- A property whose value is `undefined` is left out. -/
def jsonifyFields : List (String × JsValue) → List (String × JsValue)
  | [] => []
  | (name, value) :: fields =>
      match jsonify value with
      | none => jsonifyFields fields
      | some w => (name, w) :: jsonifyFields fields

end

@[simp] theorem jsonify_undefined : jsonify .undefined = none := rfl

@[simp] theorem jsonify_null : jsonify .null = some .null := rfl

@[simp] theorem jsonify_bool (b : Bool) : jsonify (.bool b) = some (.bool b) := rfl

@[simp] theorem jsonify_number (n : JsNumber) : jsonify (.number n) = some n.jsonify := rfl

@[simp] theorem jsonify_string (s : String) : jsonify (.string s) = some (.string s) := rfl

@[simp] theorem jsonify_array (items : List JsValue) :
    jsonify (.array items) = some (.array (jsonifyItems items)) := rfl

@[simp] theorem jsonify_object (fields : List (String × JsValue)) :
    jsonify (.object fields) = some (.object (jsonifyFields fields)) := rfl

@[simp] theorem jsonifyItems_nil : jsonifyItems [] = [] := rfl

theorem jsonifyItems_cons (item : JsValue) (items : List JsValue) :
    jsonifyItems (item :: items) = (jsonify item).getD .null :: jsonifyItems items := rfl

@[simp] theorem jsonifyFields_nil : jsonifyFields [] = [] := rfl

theorem jsonifyFields_cons (name : String) (value : JsValue) (fields : List (String × JsValue)) :
    jsonifyFields ((name, value) :: fields) =
      ((jsonify value).map (Prod.mk name)).toList ++ jsonifyFields fields := by
  rw [jsonifyFields]
  cases jsonify value <;> rfl

theorem JsNumber.jsonify_jsonify (n : JsNumber) : n.jsonify.jsonify = some n.jsonify := by
  cases n <;> rfl

mutual

/-- **JSON is idempotent.**  What has been through JSON goes through it unchanged. -/
theorem jsonify_jsonify : ∀ {v w : JsValue}, jsonify v = some w → jsonify w = some w
  | .undefined, _, h => by simp at h
  | .null, _, h | .bool _, _, h | .string _, _, h => by
      cases h
      rfl
  | .number n, _, h => by
      cases h
      exact JsNumber.jsonify_jsonify n
  | .array items, _, h => by
      cases h
      rw [jsonify_array, jsonifyItems_idem items]
  | .object fields, _, h => by
      cases h
      rw [jsonify_object, jsonifyFields_idem fields]

theorem jsonifyItems_idem : ∀ items : List JsValue,
    jsonifyItems (jsonifyItems items) = jsonifyItems items
  | [] => rfl
  | item :: items => by
      rw [jsonifyItems_cons, jsonifyItems_cons, jsonifyItems_idem items]
      cases h : jsonify item with
      | none => simp
      | some w => simp [jsonify_jsonify h]

theorem jsonifyFields_idem : ∀ fields : List (String × JsValue),
    jsonifyFields (jsonifyFields fields) = jsonifyFields fields
  | [] => by simp
  | (name, value) :: fields => by
      rw [jsonifyFields_cons]
      cases h : jsonify value with
      | none => exact jsonifyFields_idem fields
      | some w =>
          simp only [Option.map_some, Option.toList_some, List.singleton_append]
          rw [jsonifyFields_cons, jsonify_jsonify h, jsonifyFields_idem fields]
          rfl

end

theorem jsonify_eq_none {v : JsValue} : jsonify v = none ↔ v = .undefined := by
  cases v <;> simp

/-! ### JSON values -/

/-- The values of JSON: nothing in them is `undefined`, and every number is finite. -/
inductive IsJson : JsValue → Prop
  | null : IsJson .null
  | bool (b : Bool) : IsJson (.bool b)
  | negativeZero : IsJson (.number .negativeZero)
  | finite (q : Rat) : IsJson (.number (.finite q))
  | string (s : String) : IsJson (.string s)
  | array {items : List JsValue} : (∀ item ∈ items, IsJson item) → IsJson (.array items)
  | object {fields : List (String × JsValue)} :
      (∀ field ∈ fields, IsJson field.2) → IsJson (.object fields)

theorem IsJson.ne_undefined {v : JsValue} (h : IsJson v) : v ≠ .undefined := by
  rintro rfl
  cases h

/-! ### What the guards see of a value -/

/-- No property of `v` is `undefined`. -/
def Defined (v : JsValue) : Prop := ∀ field ∈ v.fields, field.2 ≠ .undefined

theorem IsJson.defined {v : JsValue} (h : IsJson v) : Defined v := by
  intro field hfield
  cases h with
  | object hfields => exact (hfields field hfield).ne_undefined
  | _ => cases hfield

theorem lookup_jsonifyFields {fields : List (String × JsValue)}
    (h : ∀ field ∈ fields, field.2 ≠ .undefined) (name : String) :
    (jsonifyFields fields).lookup name = (fields.lookup name).bind jsonify := by
  induction fields with
  | nil => simp
  | cons field fields ih =>
      obtain ⟨name', value⟩ := field
      have hvalue : value ≠ .undefined := h _ List.mem_cons_self
      obtain ⟨w, hw⟩ := Option.ne_none_iff_exists'.mp (mt jsonify_eq_none.mp hvalue)
      have hfields := ih fun field hfield => h field (List.mem_cons_of_mem _ hfield)
      rw [jsonifyFields_cons, hw]
      by_cases hn : name = name'
      · simp [hn, hw]
      · simp [List.lookup_cons, beq_false_of_ne hn, hfields]

/-- A property that has one value, in however many entries. -/
theorem lookup_jsonifyFields_same {fields : List (String × JsValue)} {name : String} {v : JsValue}
    (h : ∀ field ∈ fields, field.1 = name → field.2 = v) :
    (jsonifyFields fields).lookup name =
      if (fields.lookup name).isSome then jsonify v else none := by
  induction fields with
  | nil => simp
  | cons field fields ih =>
      obtain ⟨name', value⟩ := field
      have htail := ih fun field hfield => h field (List.mem_cons_of_mem _ hfield)
      rw [jsonifyFields_cons, List.lookup_append, htail]
      by_cases hn : name = name'
      · subst hn
        obtain rfl : value = v := h _ List.mem_cons_self rfl
        cases jsonify value <;> simp
      · have hskip : ((name', value) :: fields).lookup name = fields.lookup name := by
          simp [List.lookup_cons, beq_false_of_ne hn]
        rw [hskip]
        cases jsonify value <;> simp [List.lookup_cons, beq_false_of_ne hn]

/-- A property of a spread, through JSON. -/
theorem lookup_jsonify_spread {a b : List (String × JsValue)} {name : String} {v : JsValue}
    (ha : ∀ field ∈ a, field.1 = name → (b.lookup name).getD field.2 = v)
    (hsome : (a.lookup name).isSome = true) :
    (jsonifyFields (spread a b)).lookup name = jsonify v := by
  have hall : ∀ field ∈ spread a b, field.1 = name → field.2 = v := by
    intro field hfield hname
    rcases List.mem_append.mp hfield with hmem | hmem
    · obtain ⟨own, hown, rfl⟩ := List.mem_map.mp hmem
      have hv := ha own hown hname
      rwa [← hname] at hv
    · have hnone := (List.mem_filter.mp hmem).2
      rw [hname, Option.isNone_iff_eq_none] at hnone
      rw [hnone] at hsome
      cases hsome
  rw [lookup_jsonifyFields_same hall, lookup_spread, if_pos]
  cases b.lookup name with
  | none => exact hsome
  | some w => rfl

section Guards

variable {v w : JsValue}

theorem isRecord_jsonify (hw : jsonify v = some w) : isRecord w = isRecord v := by
  cases v with
  | number n => cases n <;> cases hw <;> rfl
  | undefined => cases hw
  | _ =>
      cases hw
      rfl

/-- A property of a value all of whose properties JSON writes. -/
theorem lookup_jsonify (hv : Defined v) (hw : jsonify v = some w) (name : String) :
    w.fields.lookup name = (v.fields.lookup name).bind jsonify := by
  cases v with
  | object fields =>
      obtain rfl := Option.some.inj ((jsonify_object fields).symm.trans hw)
      exact lookup_jsonifyFields hv name
  | number n => cases n <;> cases hw <;> rfl
  | undefined => cases hw
  | _ =>
      cases hw
      rfl

theorem has_jsonify (hv : Defined v) (hw : jsonify v = some w) (name : String) :
    w.has name = v.has name := by
  rw [has_eq_lookup, has_eq_lookup, lookup_jsonify hv hw]
  cases hl : v.fields.lookup name with
  | none => rfl
  | some x =>
      obtain ⟨l₁, l₂, hfields, -⟩ := List.lookup_eq_some_iff.mp hl
      have hx : x ≠ .undefined := hv (name, x) (by simp [hfields])
      obtain ⟨y, hy⟩ := Option.ne_none_iff_exists'.mp (mt jsonify_eq_none.mp hx)
      simp [hy]

theorem get_jsonify (hv : Defined v) (hw : jsonify v = some w) (name : String) :
    w.get name = (jsonify (v.get name)).getD .undefined := by
  rw [get_eq_lookup, get_eq_lookup, lookup_jsonify hv hw]
  cases v.fields.lookup name <;> simp

/-- The client cannot tell a property that has been through JSON once more. -/
theorem jsonify_get (hv : Defined v) (hw : jsonify v = some w) (name : String) :
    jsonify (w.get name) = jsonify (v.get name) := by
  rw [get_jsonify hv hw]
  cases h : jsonify (v.get name) with
  | none => simp
  | some x => simpa using jsonify_jsonify h

theorem isEnvelope_jsonify (hv : Defined v) (hw : jsonify v = some w) :
    isEnvelope w = isEnvelope v := by
  have hrecord (x : JsValue) : isRecord ((jsonify x).getD .undefined) = isRecord x := by
    cases hx : jsonify x with
    | none => simp [jsonify_eq_none.mp hx]
    | some y => simpa using isRecord_jsonify hx
  rw [isEnvelope, isEnvelope, isRecord_jsonify hw, has_jsonify hv hw, has_jsonify hv hw,
    get_jsonify hv hw, get_jsonify hv hw, hrecord]
  cases v.get "success" with
  | number n => cases n <;> rfl
  | _ => simp

theorem isResultLike_jsonify (hv : Defined v) (hw : jsonify v = some w) :
    isResultLike w = isResultLike v := by
  rw [isResultLike, isResultLike, isRecord_jsonify hw, has_jsonify hv hw, has_jsonify hv hw,
    has_jsonify hv hw, get_jsonify hv hw]
  cases v.get "ok" with
  | number n => cases n <;> rfl
  | _ => simp

end Guards

end JsValue

end NestDdd

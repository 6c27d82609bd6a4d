import NestDdd.Shared.JsonText

/-!
# Domain — value objects

`ValueObject` (`src/domain/base/value-object.ts`): two of one class are equal when the JSON texts of
their props are.

* `equals_iff_nulled`: two are equal when their props are the same, with their names in the same
  order, once what is not finite is `null`.
* `equals_iff`: when that is to have the same props.
-/

namespace NestDdd.Domain

open JsValue

/-! ### The code -/

/-- Plain data: strings, numbers, booleans, `null`, nested arrays and records. -/
inductive Plain : JsValue → Prop
  | null : Plain .null
  | bool (b : Bool) : Plain (.bool b)
  | number {n : JsNumber} : n.IsDouble → Plain (.number n)
  | string (s : String) : Plain (.string s)
  | array {items : List JsValue} : (∀ item ∈ items, Plain item) → Plain (.array items)
  | object {fields : List (String × JsValue)} : OwnOrder fields →
      (∀ field ∈ fields, Plain field.2) → Plain (.object fields)

/-- The props of a value object. -/
structure PlainRecord where
  fields : List (String × JsValue)
  plain : Plain (.object fields)

/-- `kind` is its `constructor`; `props` has the own properties of what it was made of, in their
order. -/
structure ValueObject (κ : Type) where
  kind : κ
  props : PlainRecord

/-- `JSON.stringify(this.props)`. -/
def PlainRecord.text (N : NumberToString) (props : PlainRecord) : Option (List Char) :=
  stringify N.text (.object props.fields)

def ValueObject.equals {κ : Type} [DecidableEq κ] (N : NumberToString) (this : ValueObject κ) :
    Option (ValueObject κ) → Bool
  | none => false
  | some other =>
      if other.kind ≠ this.kind then false else this.props.text N == other.props.text N

/-! ### The same data -/

/-- `0` for `-0`. -/
def positive : JsNumber → JsNumber
  | .negativeZero => .finite 0
  | n => n

mutual

/-- The same value: the same names with the same values at every level, in any order. -/
def Same : JsValue → JsValue → Prop
  | .undefined, .undefined => True
  | .null, .null => True
  | .bool b, .bool c => b = c
  | .number n, .number m => positive n = positive m
  | .string s, .string t => s = t
  | .array items, .array others => SameItems items others
  | .object fields, .object others =>
      (∀ name, name ∈ fields.map Prod.fst ↔ name ∈ others.map Prod.fst) ∧ SameFields fields others
  | _, _ => False

def SameItems : List JsValue → List JsValue → Prop
  | [], [] => True
  | v :: items, w :: others => Same v w ∧ SameItems items others
  | _, _ => False

/-- The others have each field. -/
def SameFields : List (String × JsValue) → List (String × JsValue) → Prop
  | [], _ => True
  | (name, v) :: fields, others =>
      (∃ w, (name, w) ∈ others ∧ Same v w) ∧ SameFields fields others

end

mutual

/-- The names stand in the same order wherever two objects stand in the same place. -/
def SameOrder : JsValue → JsValue → Prop
  | .array items, .array others => SameOrderItems items others
  | .object fields, .object others => SameOrderFields fields others
  | _, _ => True

def SameOrderItems : List JsValue → List JsValue → Prop
  | v :: items, w :: others => SameOrder v w ∧ SameOrderItems items others
  | _, _ => True

def SameOrderFields : List (String × JsValue) → List (String × JsValue) → Prop
  | [], [] => True
  | (name, v) :: fields, (name', w) :: others =>
      name = name' ∧ SameOrder v w ∧ SameOrderFields fields others
  | _, _ => False

end

mutual

/-- `null` for every number that is not finite. -/
def nulled : JsValue → JsValue
  | .number .nan => .null
  | .number (.infinity _) => .null
  | .array items => .array (nulledItems items)
  | .object fields => .object (nulledFields fields)
  | v => v

def nulledItems : List JsValue → List JsValue
  | [] => []
  | v :: items => nulled v :: nulledItems items

def nulledFields : List (String × JsValue) → List (String × JsValue)
  | [] => []
  | (name, v) :: fields => (name, nulled v) :: nulledFields fields

end

/-! ### One text -/

theorem Plain.ordinary {v : JsValue} (h : Plain v) : Ordinary v := by
  induction h with
  | null => exact .null
  | bool b => exact .bool b
  | number hn => exact .number hn
  | string s => exact .string s
  | array _ ih => exact .array ih
  | object horder _ ih => exact .object horder ih

/-- Plain data is not `undefined`. -/
theorem Plain.jsonify {v : JsValue} (h : Plain v) : ∃ w, v.jsonify = some w := by
  refine Option.ne_none_iff_exists'.mp fun hnone => ?_
  rw [jsonify_eq_none.mp hnone] at h
  cases h

/-- **One text is one value**, as JSON has it. -/
theorem stringify_inj (N : NumberToString) {v w : JsValue} (hv : Plain v) (hw : Plain w) :
    stringify N.text v = stringify N.text w ↔ jsonify v = jsonify w := by
  obtain ⟨v', hv'⟩ := hv.jsonify
  obtain ⟨w', hw'⟩ := hw.jsonify
  constructor
  · intro htext
    obtain ⟨text, ht, hparse⟩ := parse_stringify N hv.ordinary hv'
    obtain ⟨text', ht', hparse'⟩ := parse_stringify N hw.ordinary hw'
    rw [ht, ht', Option.some.injEq] at htext
    rw [hv', hw', ← hparse, ← hparse', htext]
  · intro heq
    obtain rfl : v' = w' := Option.some.inj (hv'.symm.trans (heq.trans hw'))
    rw [stringify_jsonify N hv', stringify_jsonify N hw']

/-! ### One value, through JSON -/

theorem number_iff (n m : JsNumber) :
    n.jsonify = m.jsonify ↔ Same (nulled (.number n)) (nulled (.number m)) := by
  cases n <;> cases m <;> simp [JsNumber.jsonify, nulled, Same, positive]

/-- `v` and what it is compared with: the statement for all of `v`'s parts. -/
def Compares (v : JsValue) : Prop := ∀ w, Plain w →
  (jsonify v = jsonify w ↔ Same (nulled v) (nulled w) ∧ SameOrder v w)

theorem items_iff {items : List JsValue} (h : ∀ item ∈ items, Plain item ∧ Compares item) :
    ∀ others : List JsValue, (∀ other ∈ others, Plain other) →
      (jsonifyItems items = jsonifyItems others ↔
        SameItems (nulledItems items) (nulledItems others) ∧ SameOrderItems items others) := by
  induction items with
  | nil =>
      rintro (_ | ⟨w, others⟩) _ <;>
        simp [jsonifyItems_cons, nulledItems, SameItems, SameOrderItems]
  | cons v items ih =>
      obtain ⟨⟨hv, hcompare⟩, h⟩ := List.forall_mem_cons.mp h
      rintro (_ | ⟨w, others⟩) hothers
      · simp [jsonifyItems_cons, nulledItems, SameItems]
      · obtain ⟨hw, hothers⟩ := List.forall_mem_cons.mp hothers
        obtain ⟨v', hv'⟩ := hv.jsonify
        obtain ⟨w', hw'⟩ := hw.jsonify
        have hhead := hcompare w hw
        rw [hv', hw', Option.some.injEq] at hhead
        simp only [jsonifyItems_cons, nulledItems, SameItems, SameOrderItems, hv', hw',
          Option.getD_some, List.cons.injEq, hhead, ih h others hothers]
        exact and_and_and_comm

/-- Two fields in the same place. -/
def Aligned (field other : String × JsValue) : Prop :=
  field.1 = other.1 ∧ Same (nulled field.2) (nulled other.2) ∧ SameOrder field.2 other.2

theorem fields_iff {fields : List (String × JsValue)}
    (h : ∀ field ∈ fields, Plain field.2 ∧ Compares field.2) :
    ∀ others : List (String × JsValue), (∀ other ∈ others, Plain other.2) →
      (jsonifyFields fields = jsonifyFields others ↔ List.Forall₂ Aligned fields others) := by
  induction fields with
  | nil =>
      rintro (_ | ⟨⟨name, w⟩, others⟩) hothers
      · simp
      · obtain ⟨w', hw'⟩ := (hothers _ List.mem_cons_self).jsonify
        simp [jsonifyFields_cons, hw']
  | cons field fields ih =>
      obtain ⟨name, v⟩ := field
      obtain ⟨⟨hv, hcompare⟩, h⟩ := List.forall_mem_cons.mp h
      obtain ⟨v', hv'⟩ := hv.jsonify
      rintro (_ | ⟨⟨name', w⟩, others⟩) hothers
      · simp [jsonifyFields_cons, hv']
      · obtain ⟨hw, hothers⟩ := List.forall_mem_cons.mp hothers
        obtain ⟨w', hw'⟩ := hw.jsonify
        have hhead := hcompare w hw
        rw [hv', hw', Option.some.injEq] at hhead
        simp only [jsonifyFields_cons, hv', hw', Option.map_some, Option.toList_some,
          List.singleton_append, List.cons.injEq, Prod.mk.injEq, hhead, ih h others hothers,
          List.forall₂_cons, Aligned]

theorem nulledFields_eq_map (fields : List (String × JsValue)) :
    nulledFields fields = fields.map fun field => (field.1, nulled field.2) := by
  induction fields with
  | nil => rw [nulledFields, List.map_nil]
  | cons field fields ih => rw [nulledFields, ih, List.map_cons]

theorem sameFields_iff {fields others : List (String × JsValue)} :
    SameFields fields others ↔
      ∀ field ∈ fields, ∃ w, (field.1, w) ∈ others ∧ Same field.2 w := by
  induction fields with
  | nil => simp [SameFields]
  | cons field fields ih => rw [SameFields, ih, List.forall_mem_cons]

theorem sameOrderFields_iff {fields others : List (String × JsValue)} :
    SameOrderFields fields others ↔
      List.Forall₂ (fun field other => field.1 = other.1 ∧ SameOrder field.2 other.2) fields
        others := by
  induction fields generalizing others with
  | nil => cases others <;> simp [SameOrderFields]
  | cons field fields ih =>
      cases others with
      | nil => simp [SameOrderFields]
      | cons other others => rw [SameOrderFields, ih, List.forall₂_cons, and_assoc]

theorem exists_of_forall₂ {α β : Type} {R : α → β → Prop} {l : List α} {u : List β}
    (h : List.Forall₂ R l u) {a : α} (ha : a ∈ l) : ∃ b ∈ u, R a b := by
  induction h with
  | nil => cases ha
  | cons hR _ ih =>
      rcases List.mem_cons.mp ha with rfl | ha
      · exact ⟨_, List.mem_cons_self, hR⟩
      · obtain ⟨b, hb, hR⟩ := ih ha
        exact ⟨b, List.mem_cons_of_mem _ hb, hR⟩

/-- Fields in the same places are the same fields, in the same order. -/
theorem aligned_iff {fields others : List (String × JsValue)} (hothers : OwnOrder others) :
    List.Forall₂ Aligned fields others ↔
      ((∀ name, name ∈ (nulledFields fields).map Prod.fst ↔
          name ∈ (nulledFields others).map Prod.fst) ∧
        SameFields (nulledFields fields) (nulledFields others)) ∧
        SameOrderFields fields others := by
  simp only [nulledFields_eq_map, List.map_map, Function.comp_def, sameFields_iff,
    sameOrderFields_iff, List.forall_mem_map]
  constructor
  · intro h
    have hnames : fields.map Prod.fst = others.map Prod.fst := by
      rw [← List.forall₂_eq_eq_eq, List.forall₂_map_left_iff, List.forall₂_map_right_iff]
      exact h.imp fun _ _ h => h.1
    refine ⟨⟨fun name => by rw [hnames], fun field hfield => ?_⟩, h.imp fun _ _ h => ⟨h.1, h.2.2⟩⟩
    obtain ⟨other, hother, hname, hsame, -⟩ := exists_of_forall₂ h hfield
    exact ⟨nulled other.2, List.mem_map.mpr ⟨other, hother, by rw [hname]⟩, hsame⟩
  · rintro ⟨⟨-, hfields⟩, horder⟩
    obtain ⟨hlen, hzip⟩ := List.forall₂_iff_zip.mp horder
    refine List.forall₂_iff_zip.mpr ⟨hlen, fun {field other} hmem => ?_⟩
    obtain ⟨hname, hsame⟩ := hzip hmem
    obtain ⟨hfield, hother⟩ := List.of_mem_zip hmem
    obtain ⟨w, hw, hvalue⟩ := hfields field hfield
    obtain ⟨other', hother', heq⟩ := List.mem_map.mp hw
    obtain ⟨hname', rfl⟩ := Prod.mk.inj heq
    -- the other object has one field of that name
    obtain rfl := List.inj_on_of_nodup_map hothers.nodup hother' hother (hname'.trans hname)
    exact ⟨hname, hvalue, hsame⟩

/-- **What JSON sees of two plain values** is the same when they are, in the same order, up to what
is not finite. -/
theorem compares {v : JsValue} (hv : Plain v) : Compares v := by
  induction hv with
  | null =>
      intro w hw
      cases hw with
      | @number n hn =>
          cases n <;> simp [JsNumber.jsonify, nulled, Same, SameOrder]
      | _ => simp [nulled, Same, SameOrder]
  | bool b =>
      intro w hw
      cases hw with
      | @number n hn => cases n <;> simp [JsNumber.jsonify, nulled, Same]
      | _ => simp [nulled, Same, SameOrder]
  | @number n hn =>
      intro w hw
      cases hw with
      | @number m hm => simpa [SameOrder] using number_iff n m
      | _ => cases n <;> simp [JsNumber.jsonify, nulled, Same, SameOrder]
  | string s =>
      intro w hw
      cases hw with
      | @number n hn => cases n <;> simp [JsNumber.jsonify, nulled, Same]
      | _ => simp [nulled, Same, SameOrder]
  | array hitems ih =>
      intro w hw
      cases hw with
      | @number n hn => cases n <;> simp [JsNumber.jsonify, nulled, Same]
      | array hothers =>
        have h := items_iff (fun item hmem => ⟨hitems item hmem, ih item hmem⟩) _ hothers
        simpa [nulled, Same, SameOrder] using h
      | _ => simp [nulled, Same]
  | object horder hfields ih =>
      intro w hw
      cases hw with
      | @number n hn => cases n <;> simp [JsNumber.jsonify, nulled, Same]
      | object hothersOrder hothers =>
        have h := fields_iff (fun field hmem => ⟨hfields field hmem, ih field hmem⟩) _ hothers
        rw [aligned_iff hothersOrder] at h
        simpa [nulled, Same, SameOrder] using h
      | _ => simp [nulled, Same]

theorem same_number {n m : JsNumber} (h : positive n = positive m) :
    Same (nulled (.number n)) (nulled (.number m)) := by
  cases n <;> cases m <;> simp_all [positive, nulled, Same]

mutual

/-- What is the same stays so when what is not finite becomes `null`. -/
theorem same_nulled : ∀ {v w : JsValue}, Same v w → Same (nulled v) (nulled w)
  | .undefined, w, h | .null, w, h | .bool _, w, h | .string _, w, h => by
      cases w <;> simp_all [Same, nulled]
  | .number n, w, h => by
      cases w with
      | number m => exact same_number (by simpa [Same] using h)
      | _ => simp [Same] at h
  | .array items, w, h => by
      cases w with
      | array others =>
          simp only [Same, nulled] at h ⊢
          exact sameItems_nulled h
      | _ => simp [Same] at h
  | .object fields, w, h => by
      cases w with
      | object others =>
          simp only [Same, nulled] at h ⊢
          refine ⟨fun name => ?_, sameFields_nulled h.2⟩
          simpa [nulledFields_eq_map, Function.comp_def] using h.1 name
      | _ => simp [Same] at h

theorem sameItems_nulled : ∀ {items others : List JsValue}, SameItems items others →
    SameItems (nulledItems items) (nulledItems others)
  | [], [], _ => by simp [nulledItems, SameItems]
  | [], _ :: _, h | _ :: _, [], h => by simp [SameItems] at h
  | v :: items, w :: others, h => by
      simp only [SameItems, nulledItems] at h ⊢
      exact ⟨same_nulled h.1, sameItems_nulled h.2⟩

theorem sameFields_nulled : ∀ {fields others : List (String × JsValue)},
    SameFields fields others → SameFields (nulledFields fields) (nulledFields others)
  | [], _, _ => by simp [nulledFields, SameFields]
  | (name, v) :: fields, others, h => by
      simp only [SameFields, nulledFields] at h ⊢
      obtain ⟨⟨w, hw, hsame⟩, hfields⟩ := h
      refine ⟨⟨nulled w, ?_, same_nulled hsame⟩, sameFields_nulled hfields⟩
      rw [nulledFields_eq_map]
      exact List.mem_map.mpr ⟨(name, w), hw, rfl⟩

end

/-! ### When value objects compare by value -/

/-- All that tells `v` from `w` is numbers that are not finite, against each other or `null`. -/
def OnlyNonFinite (v w : JsValue) : Prop :=
  ¬ Same v w ∧ Same (nulled v) (nulled w) ∧ SameOrder v w

theorem equals_iff_nulled {κ : Type} [DecidableEq κ] (N : NumberToString) (kind : κ)
    (a b : PlainRecord) : ValueObject.equals N ⟨kind, a⟩ (some ⟨kind, b⟩) = true ↔
      Same (nulled (.object a.fields)) (nulled (.object b.fields)) ∧
        SameOrder (.object a.fields) (.object b.fields) := by
  rw [← compares a.plain _ b.plain, ← stringify_inj N a.plain b.plain]
  simp [ValueObject.equals, PlainRecord.text]

/-- **When value objects of one class compare by value.**  `equals` is an equivalence; it says that
the props are the same exactly when props that are the same have their names in the same order, and
something other than numbers that are not finite tells apart those that are not. -/
theorem equals_iff {κ : Type} [DecidableEq κ] (N : NumberToString) (kind : κ) :
    Equivalence (fun a b : PlainRecord =>
      ValueObject.equals N ⟨kind, a⟩ (some ⟨kind, b⟩) = true) ∧
    ∀ a b : PlainRecord,
      (ValueObject.equals N ⟨kind, a⟩ (some ⟨kind, b⟩) = true ↔
        Same (.object a.fields) (.object b.fields)) ↔
      (Same (.object a.fields) (.object b.fields) →
          SameOrder (.object a.fields) (.object b.fields)) ∧
        ¬ OnlyNonFinite (.object a.fields) (.object b.fields) := by
  constructor
  · have htext (a b : PlainRecord) : ValueObject.equals N ⟨kind, a⟩ (some ⟨kind, b⟩) = true ↔
        a.text N = b.text N := by
      simp [ValueObject.equals]
    simp only [htext]
    exact ⟨fun _ => rfl, Eq.symm, Eq.trans⟩
  · intro a b
    rw [equals_iff_nulled]
    constructor
    · intro h
      exact ⟨fun hsame => (h.mpr hsame).2, fun ⟨hdiffer, honly⟩ => hdiffer (h.mp honly)⟩
    · rintro ⟨horder, honly⟩
      refine ⟨fun h => ?_, fun hsame => ⟨same_nulled hsame, horder hsame⟩⟩
      by_contra hdiffer
      exact honly ⟨hdiffer, h⟩

/-- `{ read: true, write: false }`. -/
def readFirst : PlainRecord :=
  ⟨[("read", .bool true), ("write", .bool false)],
    .object ⟨by decide, by decide⟩ (by simpa using ⟨Plain.bool true, Plain.bool false⟩)⟩

/-- `{ write: false, read: true }`. -/
def writeFirst : PlainRecord :=
  ⟨[("write", .bool false), ("read", .bool true)],
    .object ⟨by decide, by decide⟩ (by simpa using ⟨Plain.bool false, Plain.bool true⟩)⟩

/-- `{ limit: NaN }`. -/
def limitNaN : PlainRecord :=
  ⟨[("limit", .number .nan)],
    .object ⟨by decide, by decide⟩ (by simpa using Plain.number (n := .nan) trivial)⟩

/-- `{ limit: null }`. -/
def limitNull : PlainRecord :=
  ⟨[("limit", .null)], .object ⟨by decide, by decide⟩ (by simpa using Plain.null)⟩

/-- Names in another order tell the same props apart, and `NaN` is `null`. -/
theorem equals_slips :
    (¬ ∀ N : NumberToString, ValueObject.equals N ⟨(), readFirst⟩ (some ⟨(), writeFirst⟩) = true ↔
      Same (.object readFirst.fields) (.object writeFirst.fields)) ∧
    ¬ ∀ N : NumberToString, ValueObject.equals N ⟨(), limitNaN⟩ (some ⟨(), limitNull⟩) = true ↔
      Same (.object limitNaN.fields) (.object limitNull.fields) := by
  obtain ⟨N⟩ : Nonempty NumberToString := inferInstance
  constructor
  · intro h
    have hsame : Same (.object readFirst.fields) (.object writeFirst.fields) := by
      rw [readFirst, writeFirst, Same]
      exact ⟨fun name => by simp [or_comm],
        ⟨⟨_, List.mem_cons_of_mem _ List.mem_cons_self, by rw [Same]⟩,
          ⟨_, List.mem_cons_self, by rw [Same]⟩, trivial⟩⟩
    have horder := ((equals_iff_nulled N () _ _).mp ((h N).mpr hsame)).2
    rw [readFirst, writeFirst, SameOrder, SameOrderFields] at horder
    exact absurd horder.1 (by decide)
  · intro h
    have hnulled : Same (nulled (.object limitNaN.fields)) (nulled (.object limitNull.fields)) := by
      rw [limitNaN, limitNull, nulled, nulled, Same]
      exact ⟨fun name => Iff.rfl, ⟨.null, List.mem_cons_self, trivial⟩, trivial⟩
    have horder : SameOrder (.object limitNaN.fields) (.object limitNull.fields) := by
      rw [limitNaN, limitNull, SameOrder]
      exact ⟨rfl, trivial, trivial⟩
    have hsame := (h N).mp ((equals_iff_nulled N () _ _).mpr ⟨hnulled, horder⟩)
    rw [limitNaN, limitNull, Same] at hsame
    obtain ⟨-, ⟨w, hw, hvalue⟩, -⟩ := hsame
    obtain rfl : w = .null := by simpa using hw
    exact hvalue

end NestDdd.Domain

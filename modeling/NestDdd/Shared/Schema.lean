import NestDdd.Shared.JsValue
import NestDdd.Shared.Numeral
import NestDdd.Shared.Properties
import NestDdd.Shared.Utf16
import Mathlib.Data.List.Forall2
import Mathlib.Data.Rat.Cast.Order

/-!
# Shared — schemas

`Zod` is what a program takes from its validation library: the ways to build schemas, and for each
of them when `safeParse` accepts a value and what it makes of it.  The laws say nothing of what is
rejected but that it is; the texts of the issues are the library's.

* `Zod.Ensures`: what holds of everything that a schema accepts, with one rule for each way to
  build a schema.
* `object_get`, `object_iff`: what a schema of an object makes of the fields.
-/

namespace NestDdd

/-- The value of a number that is finite. -/
def JsNumber.rat : JsNumber → Option Rat
  | .finite q => some q
  | .negativeZero => some 0
  | .nan | .infinity _ => none

namespace JsValue

/-- The value of a finite number. -/
def rat : JsValue → Option Rat
  | .number n => n.rat
  | _ => none

def text : JsValue → Option String
  | .string s => some s
  | _ => none

/-- An integer with `P`; `-0` is 0. -/
def IsInt (P : Int → Prop) (v : JsValue) : Prop := ∃ n : Int, v.rat = some (n : Rat) ∧ P n

/-- A natural number. -/
def IsNat (n : ℕ) (v : JsValue) : Prop := v.rat = some (n : Rat)

/-- An integer that cannot be negative. -/
theorem IsInt.nat {P : Int → Prop} {v : JsValue} (h : v.IsInt P) (hP : ∀ n, P n → 0 ≤ n) :
    ∃ n : ℕ, v.IsNat n ∧ P n := by
  obtain ⟨n, hn, hp⟩ := h
  obtain ⟨m, rfl⟩ := Int.eq_ofNat_of_zero_le (hP n hp)
  exact ⟨m, by simpa [IsNat] using hn, hp⟩

/-- A string with `P`. -/
def IsText (P : String → Prop) (v : JsValue) : Prop := ∃ s, v = .string s ∧ P s

def isUndefined : JsValue → Bool
  | .undefined => true
  | _ => false

end JsValue

/-- A step of the path of an issue, as `String` writes it. -/
inductive PathKey where
  | key (name : String)
  | index (n : Nat)

def PathKey.text : PathKey → String
  | .key name => name
  | .index n => toString n

structure ZodIssue where
  path : List PathKey
  code : String
  message : String

/-- A check of `z.string()`; `min` counts UTF-16 units. -/
inductive StringCheck where
  | min (n : Nat)
  | startsWith (start : String)
  | regex (test : String → Bool)

def StringCheck.holds : StringCheck → String → Bool
  | .min n, s => n ≤ (Utf16.encode s.toList).length
  | .startsWith start, s => start.toList.isPrefixOf s.toList
  | .regex test, s => test s

/-- A check of `z.number()`; `int` is for safe integers. -/
inductive NumberCheck where
  | int
  | positive
  | min (bound : Int)
  | max (bound : Int)
  deriving DecidableEq

def NumberCheck.holds : NumberCheck → Rat → Bool
  | .int, q => q.den == 1 && -9007199254740991 ≤ q && q ≤ 9007199254740991
  | .positive, q => 0 < q
  | .min bound, q => (bound : Rat) ≤ q
  | .max bound, q => q ≤ (bound : Rat)

/-- A check of an integer. -/
@[simp] def NumberCheck.holdsInt : NumberCheck → Int → Bool
  | .int, _ => true
  | .positive, n => 0 < n
  | .min bound, n => bound ≤ n
  | .max bound, n => n ≤ bound

/-- A check that no negative integer passes. -/
def NumberCheck.nonneg : NumberCheck → Bool
  | .int | .max _ => false
  | .positive => true
  | .min bound => 0 ≤ bound

theorem NumberCheck.nonneg_of_holdsInt {c : NumberCheck} (hc : c.nonneg = true) {n : Int}
    (h : c.holdsInt n = true) : 0 ≤ n := by
  cases c <;> simp_all [nonneg] <;> omega

theorem NumberCheck.holdsInt_of_holds {c : NumberCheck} {n : Int} (h : c.holds n = true) :
    c.holdsInt n = true := by
  cases c with
  | int => rfl
  | positive | min | max => simpa [holds, holdsInt] using h

/-- What an object keeps of a field: what is not there stays away, unless it has a default. -/
def keptField (present : Bool) : Except (List ZodIssue) JsValue → Option JsValue
  | .ok r => if r.isUndefined && !present then none else some r
  | .error _ => none

/-- The validation library. -/
structure Zod where
  Schema : Type
  safeParse : Schema → JsValue → Except (List ZodIssue) JsValue
  string : List StringCheck → Schema
  url : Schema
  number : List NumberCheck → Schema
  coerceNumber : List NumberCheck → Schema
  boolean : Schema
  enum : List String → Schema
  literal : String → Schema
  unknown : Schema
  array : Schema → Nat → Schema
  record : Schema → Schema
  object : List (String × Schema) → Schema
  discriminatedUnion : String → List Schema → Schema
  optional : Schema → Schema
  default : Schema → JsValue → Schema
  refine : Schema → (JsValue → Bool) → ZodIssue → Schema
  superRefine : Schema → (JsValue → List ZodIssue) → Schema
  preprocess : (JsValue → Except ZodIssue JsValue) → Schema → Schema
  string_ok : ∀ checks v w, safeParse (string checks) v = .ok w →
    ∃ s, w = .string s ∧ ∀ c ∈ checks, c.holds s = true
  url_ok : ∀ v w, safeParse url v = .ok w → ∃ s, w = .string s
  number_ok : ∀ checks v w, safeParse (number checks) v = .ok w →
    ∃ n q, w = .number n ∧ n.rat = some q ∧ ∀ c ∈ checks, c.holds q = true
  coerceNumber_ok : ∀ checks v w, safeParse (coerceNumber checks) v = .ok w →
    ∃ n q, w = .number n ∧ n.rat = some q ∧ ∀ c ∈ checks, c.holds q = true
  boolean_ok : ∀ v w, safeParse boolean v = .ok w ↔ ∃ b, v = .bool b ∧ w = .bool b
  enum_ok : ∀ options v w, safeParse (enum options) v = .ok w → ∃ s ∈ options, w = .string s
  literal_ok : ∀ s v w, safeParse (literal s) v = .ok w → w = .string s
  array_ok : ∀ item min v w, safeParse (array item min) v = .ok w →
    ∃ items, w = .array items ∧ min ≤ items.length ∧ ∀ b ∈ items, ∃ a, safeParse item a = .ok b
  record_ok : ∀ item v w, safeParse (record item) v = .ok w → w.isRecord = true
  /-- What the shape does not name is left out. -/
  object_ok : ∀ shape v w, safeParse (object shape) v = .ok w ↔
    v.isRecord = true ∧ (∀ p ∈ shape, ∃ r, safeParse p.2 (v.get p.1) = .ok r) ∧
      w = .object (shape.filterMap fun p =>
        (keptField (v.has p.1) (safeParse p.2 (v.get p.1))).map (p.1, ·))
  discriminatedUnion_ok : ∀ key options v w,
    safeParse (discriminatedUnion key options) v = .ok w → ∃ s ∈ options, safeParse s v = .ok w
  optional_ok : ∀ s v w, v ≠ .undefined →
    (safeParse (optional s) v = .ok w ↔ safeParse s v = .ok w)
  optional_undefined : ∀ s w, safeParse (optional s) .undefined = .ok w →
    w = .undefined ∨ safeParse s .undefined = .ok w
  optional_accepts : ∀ s, (∀ w, safeParse s .undefined ≠ .ok w) →
    safeParse (optional s) .undefined = .ok .undefined
  default_undefined : ∀ s d, safeParse (default s d) .undefined = .ok d
  default_ok : ∀ s d v w, v ≠ .undefined →
    (safeParse (default s d) v = .ok w ↔
      ∃ r, safeParse s v = .ok r ∧ w = if r.isUndefined then d else r)
  refine_ok : ∀ s check issue v w, safeParse (refine s check issue) v = .ok w →
    safeParse s v = .ok w ∧ check w = true
  superRefine_ok : ∀ s issues v w, safeParse (superRefine s issues) v = .ok w →
    safeParse s v = .ok w ∧ issues w = []
  preprocess_ok : ∀ f s v w, safeParse (preprocess f s) v = .ok w ↔
    ∃ v', f v = .ok v' ∧ safeParse s v' = .ok w

namespace Zod

open JsValue

variable {z : Zod} {s : z.Schema} {P Q : JsValue → Prop} {v w : JsValue}

/-! ### Objects -/

section

variable {shape : Properties z.Schema} {name : String}

/-- A field of the result is what its schema makes of the field. -/
theorem object_get (hd : shape.Distinct) (h : z.safeParse (z.object shape) v = .ok w)
    (hp : (name, s) ∈ shape) : z.safeParse s (v.get name) = .ok (w.get name) := by
  obtain ⟨-, hparts, rfl⟩ := (z.object_ok shape v w).mp h
  obtain ⟨r, hr⟩ := hparts _ hp
  rw [JsValue.get, hd.lookup_filterMap hp, hr, keptField]
  split
  next habsent =>
    cases r with
    | undefined => rfl
    | _ => cases habsent
  next => rfl

/-- When every field is there, they all are in the result. -/
theorem object_iff (hv : v.isRecord = true) (hhas : ∀ p ∈ shape, v.has p.1 = true) :
    z.safeParse (z.object shape) v = .ok w ↔
      ∃ results, List.Forall₂ (fun p r => z.safeParse p.2 (v.get p.1) = .ok r) shape results ∧
        w = .object ((shape.map Prod.fst).zip results) := by
  rw [z.object_ok]
  have hkept : ∀ {shape : Properties z.Schema} {results : List JsValue},
      (∀ p ∈ shape, v.has p.1 = true) →
      List.Forall₂ (fun p r => z.safeParse p.2 (v.get p.1) = .ok r) shape results →
        shape.filterMap (fun p =>
          (keptField (v.has p.1) (z.safeParse p.2 (v.get p.1))).map (p.1, ·)) =
            (shape.map Prod.fst).zip results := by
    intro shape results hhas h
    induction h with
    | nil => rfl
    | @cons p r shape results hr _ ih =>
        have hp : keptField (v.has p.1) (z.safeParse p.2 (v.get p.1)) = some r := by
          rw [hr, keptField, hhas p List.mem_cons_self, Bool.not_true, Bool.and_false]
          rfl
        rw [List.filterMap_cons, hp, List.map_cons, List.zip_cons_cons]
        exact congrArg _ (ih fun q hq => hhas q (List.mem_cons_of_mem _ hq))
  constructor
  · rintro ⟨-, hparts, rfl⟩
    obtain ⟨results, hresults⟩ : ∃ results,
        List.Forall₂ (fun p r => z.safeParse p.2 (v.get p.1) = .ok r) shape results := by
      clear hhas
      induction shape with
      | nil => exact ⟨[], .nil⟩
      | cons p shape ih =>
          obtain ⟨r, hr⟩ := hparts p List.mem_cons_self
          obtain ⟨results, hresults⟩ := ih fun q hq => hparts q (List.mem_cons_of_mem _ hq)
          exact ⟨r :: results, .cons hr hresults⟩
    exact ⟨results, hresults, congrArg _ (hkept hhas hresults)⟩
  · rintro ⟨results, hresults, rfl⟩
    refine ⟨hv, fun p hp => ?_, congrArg _ (hkept hhas hresults).symm⟩
    clear hkept hhas
    induction hresults with
    | nil => cases hp
    | @cons q r shape results hr _ ih =>
        rcases List.mem_cons.mp hp with rfl | hp
        · exact ⟨r, hr⟩
        · exact ih hp

end

/-! ### What is accepted -/

/-- Everything that `s` accepts becomes a value with `P`. -/
def Ensures (z : Zod) (s : z.Schema) (P : JsValue → Prop) : Prop :=
  ∀ v w, z.safeParse s v = .ok w → P w

namespace Ensures

theorem mono (h : z.Ensures s P) (hPQ : ∀ w, P w → Q w) : z.Ensures s Q :=
  fun v w hw => hPQ w (h v w hw)

theorem and (hP : z.Ensures s P) (hQ : z.Ensures s Q) : z.Ensures s fun w => P w ∧ Q w :=
  fun v w hw => ⟨hP v w hw, hQ v w hw⟩

theorem string {checks : List StringCheck} :
    z.Ensures (z.string checks) (IsText fun s => ∀ c ∈ checks, c.holds s = true) :=
  z.string_ok checks

/-- A number that `int` has checked. -/
theorem of_int {checks : List NumberCheck} (hint : .int ∈ checks)
    (h : z.Ensures s fun w => ∃ n q, w = .number n ∧ n.rat = some q ∧
      ∀ c ∈ checks, c.holds q = true) :
    z.Ensures s (IsInt fun n => ∀ c ∈ checks, c.holdsInt n = true) := by
  refine h.mono fun w hw => ?_
  obtain ⟨n, q, rfl, hq, hchecks⟩ := hw
  have hden : q.den = 1 := by
    have := hchecks _ hint
    simp only [NumberCheck.holds, Bool.and_eq_true, beq_iff_eq] at this
    exact this.1.1
  have hnum : (q.num : Rat) = q := Rat.den_eq_one_iff q |>.mp hden
  refine ⟨q.num, by rw [hnum]; exact hq, fun c hc => NumberCheck.holdsInt_of_holds ?_⟩
  rw [hnum]
  exact hchecks c hc

theorem number {checks : List NumberCheck} (hint : .int ∈ checks) :
    z.Ensures (z.number checks) (IsInt fun n => ∀ c ∈ checks, c.holdsInt n = true) :=
  of_int hint (z.number_ok checks)

theorem coerceNumber {checks : List NumberCheck} (hint : .int ∈ checks) :
    z.Ensures (z.coerceNumber checks) (IsInt fun n => ∀ c ∈ checks, c.holdsInt n = true) :=
  of_int hint (z.coerceNumber_ok checks)

theorem optional (h : z.Ensures s P) :
    z.Ensures (z.optional s) fun w => w = .undefined ∨ P w := by
  intro v w hw
  by_cases hv : v = .undefined
  · subst hv
    exact (z.optional_undefined s w hw).imp_right (h _ w)
  · exact .inr (h v w ((z.optional_ok s v w hv).mp hw))

theorem default (h : z.Ensures s P) {d : JsValue} (hd : P d) : z.Ensures (z.default s d) P := by
  intro v w hw
  by_cases hv : v = .undefined
  · rw [hv, z.default_undefined] at hw
    exact Except.ok.inj hw ▸ hd
  · obtain ⟨r, hr, rfl⟩ := (z.default_ok s d v w hv).mp hw
    split
    · exact hd
    · exact h v r hr

theorem refine (h : z.Ensures s P) {check : JsValue → Bool} {issue : ZodIssue} :
    z.Ensures (z.refine s check issue) fun w => P w ∧ check w = true :=
  fun v w hw => (z.refine_ok s check issue v w hw).imp (h v w) id

theorem preprocess (h : z.Ensures s P) {f : JsValue → Except ZodIssue JsValue} :
    z.Ensures (z.preprocess f s) P := by
  intro v w hw
  obtain ⟨v', -, hw⟩ := (z.preprocess_ok f s v w).mp hw
  exact h v' w hw

theorem discriminatedUnion {key : String} {options : List z.Schema}
    (h : ∀ s ∈ options, z.Ensures s P) : z.Ensures (z.discriminatedUnion key options) P := by
  intro v w hw
  obtain ⟨s, hs, hw⟩ := z.discriminatedUnion_ok key options v w hw
  exact h s hs v w hw

theorem array (h : z.Ensures s P) {min : Nat} : z.Ensures (z.array s min) fun w =>
    ∃ items, w = .array items ∧ min ≤ items.length ∧ ∀ a ∈ items, P a := by
  intro v w hw
  obtain ⟨items, rfl, hmin, hitems⟩ := z.array_ok s min v w hw
  refine ⟨items, rfl, hmin, fun b hb => ?_⟩
  obtain ⟨a, ha⟩ := hitems b hb
  exact h a b ha

theorem object {shape : Properties z.Schema} :
    z.Ensures (z.object shape) fun w => w.isRecord = true := by
  intro v w hw
  obtain ⟨-, -, rfl⟩ := (z.object_ok shape v w).mp hw
  rfl

/-- **A field** of what an object's schema accepts is as the field's schema ensures. -/
theorem field {shape : Properties z.Schema} (name : String) (hd : shape.Distinct)
    (hs : shape.lookup name = some s) (h : z.Ensures s P) :
    z.Ensures (z.object shape) fun w => P (w.get name) :=
  fun _ _ hw => h _ _ (object_get hd hw (Properties.mem_of_lookup hs))

end Ensures

/-! ### A library that keeps the laws -/

def invalid (message : String) : Except (List ZodIssue) JsValue :=
  .error [⟨[], "invalid_value", message⟩]

/-- `r`, if `valid`. -/
def accept (valid : Bool) (r : JsValue) : Except (List ZodIssue) JsValue :=
  if valid then .ok r else invalid "Invalid input"

theorem accept_ok {valid : Bool} {r : JsValue} : accept valid r = .ok w ↔ valid = true ∧ w = r := by
  cases valid <;> simp [accept, invalid, eq_comm]

/-- The issues of the fields, under their names. -/
def fieldIssues (shape : Properties (JsValue → Except (List ZodIssue) JsValue)) (v : JsValue) :
    List ZodIssue :=
  shape.flatMap fun p =>
    match p.2 (v.get p.1) with
    | .ok _ => []
    | .error issues => issues.map fun issue => { issue with path := .key p.1 :: issue.path }

/-- Schemas as what `safeParse` does with them; `Number(v)` of decimal digits only, and a URL is
any text with a colon. -/
def ofFunctions : Zod where
  Schema := JsValue → Except (List ZodIssue) JsValue
  safeParse s v := s v
  string checks := fun v =>
    match v.text with
    | some s => accept (checks.all (·.holds s)) v
    | none => invalid "expected string"
  url := fun v =>
    match v.text with
    | some s => accept (s.toList.contains ':') v
    | none => invalid "expected string"
  number checks := fun v =>
    match v.rat with
    | some q => accept (checks.all (·.holds q)) v
    | none => invalid "expected number"
  coerceNumber checks := fun v =>
    match v.text with
    | some s =>
        if s.toList.all Char.isDigit then
          accept (checks.all (·.holds (natOf s.toList))) (.number (.finite (natOf s.toList)))
        else invalid "expected number"
    | none => invalid "expected number"
  boolean := fun
    | .bool b => .ok (.bool b)
    | _ => invalid "expected boolean"
  enum options := fun v =>
    match v.text with
    | some s => accept (options.contains s) v
    | none => invalid "expected string"
  literal s := fun v => accept (v.text == some s) v
  unknown := .ok
  array item min := fun
    | .array items =>
        let results := items.filterMap fun a => (item a).toOption
        accept (items.all (fun a => (item a).toBool) && min ≤ results.length) (.array results)
    | _ => invalid "expected array"
  record _ := fun v => accept v.isRecord v
  object shape := fun v =>
    if v.isRecord then
      if shape.all fun p => (p.2 (v.get p.1)).toBool then
        .ok (.object (shape.filterMap fun p =>
          (keptField (v.has p.1) (p.2 (v.get p.1))).map (p.1, ·)))
      else .error (fieldIssues shape v)
    else invalid "expected object"
  discriminatedUnion _ options := fun v =>
    match options.find? fun s => (s v).toBool with
    | some s => s v
    | none => invalid "no option matches"
  optional s := fun v => if v.isUndefined then .ok v else s v
  default s d := fun v =>
    if v.isUndefined then .ok d
    else
      match s v with
      | .ok r => .ok (if r.isUndefined then d else r)
      | .error issues => .error issues
  refine s check issue := fun v =>
    match s v with
    | .ok r => if check r then .ok r else .error [issue]
    | .error issues => .error issues
  superRefine s issues := fun v =>
    match s v with
    | .ok r => if (issues r).isEmpty then .ok r else .error (issues r)
    | .error issues => .error issues
  preprocess f s := fun v =>
    match f v with
    | .ok v' => s v'
    | .error issue => .error [issue]
  string_ok checks v w h := by
    cases v <;> simp_all [JsValue.text, accept_ok, invalid]
  url_ok v w h := by
    cases v <;> simp_all [JsValue.text, accept_ok, invalid]
  number_ok checks v w h := by
    cases v with
    | number n =>
        cases hn : n.rat with
        | none => simp [JsValue.rat, hn, invalid] at h
        | some q =>
            simp only [JsValue.rat, hn, accept_ok, List.all_eq_true] at h
            exact ⟨n, q, h.2, hn, h.1⟩
    | _ => simp [JsValue.rat, invalid] at h
  coerceNumber_ok checks v w h := by
    cases v with
    | string s =>
        simp only [JsValue.text] at h
        split at h
        · simp only [accept_ok, List.all_eq_true] at h
          exact ⟨_, _, h.2, rfl, h.1⟩
        · simp [invalid] at h
    | _ => simp [JsValue.text, invalid] at h
  boolean_ok v w := by
    cases v <;> simp [invalid, eq_comm]
  enum_ok options v w h := by
    cases v <;> simp_all [JsValue.text, accept_ok, invalid]
  literal_ok s v w h := by
    cases v <;> simp_all [JsValue.text, accept_ok]
  array_ok item min v w h := by
    cases v with
    | array items =>
        obtain ⟨hvalid, rfl⟩ := accept_ok.mp h
        rw [Bool.and_eq_true, decide_eq_true_eq] at hvalid
        refine ⟨_, rfl, hvalid.2, fun b hb => ?_⟩
        obtain ⟨a, -, ha⟩ := List.mem_filterMap.mp hb
        refine ⟨a, ?_⟩
        cases hitem : item a with
        | ok r =>
            rw [hitem] at ha
            exact congrArg _ (Option.some.inj ha)
        | error issues =>
            rw [hitem] at ha
            cases ha
    | _ => simp [invalid] at h
  record_ok item v w h := by
    obtain ⟨hrecord, rfl⟩ := accept_ok.mp h
    exact hrecord
  object_ok shape v w := by
    have hok : ∀ r : Except (List ZodIssue) JsValue, r.toBool = true ↔ ∃ x, r = .ok x := by
      intro r
      cases r <;> simp [Except.toBool]
    have hall : (shape.all fun p => (p.2 (v.get p.1)).toBool) = true ↔
        ∀ p ∈ shape, ∃ r, p.2 (v.get p.1) = .ok r := by
      simp only [List.all_eq_true, hok]
    rw [← hall]
    dsimp only
    split
    next hv =>
      split
      next hparts =>
        exact ⟨fun h => ⟨hv, hparts, (Except.ok.inj h).symm⟩, fun h => h.2.2 ▸ rfl⟩
      next hparts => exact ⟨fun h => (by cases h), fun h => absurd h.2.1 hparts⟩
    next hv => exact ⟨fun h => (by cases h), fun h => absurd h.1 hv⟩
  discriminatedUnion_ok key options v w h := by
    dsimp only at h
    split at h
    next s hs => exact ⟨s, List.mem_of_find?_eq_some hs, h⟩
    next => cases h
  optional_ok s v w hv := by
    cases v with
    | undefined => exact absurd rfl hv
    | _ => exact Iff.rfl
  optional_undefined s w h := .inl (Except.ok.inj h).symm
  optional_accepts s _ := rfl
  default_undefined s d := rfl
  default_ok s d v w hv := by
    have hv' : v.isUndefined = false := by
      cases v with
      | undefined => exact absurd rfl hv
      | _ => rfl
    dsimp only
    rw [hv', if_neg Bool.false_ne_true]
    cases s v with
    | ok r => exact ⟨fun h => ⟨r, rfl, (Except.ok.inj h).symm⟩, fun ⟨r', hr, hw⟩ => by
        rw [hw, Except.ok.inj hr]⟩
    | error issues => exact ⟨fun h => (by cases h), fun ⟨_, hr, _⟩ => (by cases hr)⟩
  refine_ok s check issue v w h := by
    cases hs : s v with
    | error issues => simp [hs] at h
    | ok r =>
        simp only [hs] at h
        split at h
        next hcheck => exact Except.ok.inj h ▸ ⟨rfl, hcheck⟩
        next => cases h
  superRefine_ok s issues v w h := by
    cases hs : s v with
    | error issues => simp [hs] at h
    | ok r =>
        simp only [hs] at h
        split at h
        next hempty => exact Except.ok.inj h ▸ ⟨rfl, List.isEmpty_iff.mp hempty⟩
        next => cases h
  preprocess_ok f s v w := by
    dsimp only
    cases f v with
    | ok v' => exact ⟨fun h => ⟨v', rfl, h⟩, fun ⟨_, hv, h⟩ => Except.ok.inj hv ▸ h⟩
    | error issue => exact ⟨fun h => (by cases h), fun ⟨_, hv, _⟩ => (by cases hv)⟩

end Zod

end NestDdd

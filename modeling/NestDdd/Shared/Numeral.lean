import Mathlib.Data.Nat.Digits.Lemmas
import NestDdd.Shared.Binary64
import NestDdd.Shared.JsValue
import NestDdd.Shared.Reader

/-!
# Shared — numbers in a text

The numerals of JSON, as `JSON.parse` reads them and as `Number::toString` writes them.

A double has more than one numeral of the fewest digits: the standard leaves the last digit to the
engine.  `NumberToString` is any choice.

* `readNumeral_text`: a numeral is read as it is written.
* `value_layout`: what a numeral of given digits stands for.
* `number_numeral`: a double that is written is read back.
-/

namespace NestDdd

/-! ### Numerals -/

/-- What a digit stands for. -/
def digitValue (c : Char) : ℕ := c.toNat - 48

/-- Digits, the most significant first. -/
def natOf (digits : List Char) : ℕ := digits.foldl (fun n c => n * 10 + digitValue c) 0

/-- `-int.frac` and an exponent with its sign; `frac` is empty if there is no point. -/
structure Numeral where
  negative : Bool
  int : List Char
  frac : List Char
  exponent : Option (Bool × List Char)
  deriving DecidableEq

namespace Numeral

def exponentValue (m : Numeral) : ℤ :=
  match m.exponent with
  | none => 0
  | some (true, digits) => -natOf digits
  | some (false, digits) => natOf digits

/-- The number, without its sign. -/
def value (m : Numeral) : ℚ :=
  natOf (m.int ++ m.frac) * 10 ^ (m.exponentValue - m.frac.length)

def exponentText : Option (Bool × List Char) → List Char
  | none => []
  | some (negative, digits) => 'e' :: (if negative then '-' else '+') :: digits

def fracText (frac : List Char) : List Char := if frac = [] then [] else '.' :: frac

def text (m : Numeral) : List Char :=
  (if m.negative then ['-'] else []) ++ m.int ++ fracText m.frac ++ exponentText m.exponent

/-- No zero comes first in a whole part of more digits. -/
structure WellFormed (m : Numeral) : Prop where
  int_ne : m.int ≠ []
  int_digits : ∀ c ∈ m.int, c.isDigit = true
  int_zero : m.int.head? = some '0' → m.int = ['0']
  frac_digits : ∀ c ∈ m.frac, c.isDigit = true
  exponent_digits : ∀ negative digits, m.exponent = some (negative, digits) →
    digits ≠ [] ∧ ∀ c ∈ digits, c.isDigit = true

end Numeral

/-! ### `JSON.parse` of a number -/

section Read

open Reader

def isZero (c : Char) : Bool := c == '0'

def isMinus (c : Char) : Bool := c == '-'

def isPoint (c : Char) : Bool := c == '.'

def isExponent (c : Char) : Bool := c == 'e' || c == 'E'

def isSign (c : Char) : Bool := c == '-' || c == '+'

def readMinus : Reader Char Bool := onHead isMinus (map (fun _ => true) (one isMinus)) (pure false)

def readInt : Reader Char (List Char) :=
  onHead isZero (map (fun c => [c]) (one isZero)) (span1 Char.isDigit)

def readFrac : Reader Char (List Char) :=
  onHead isPoint (bind (one isPoint) fun _ => span1 Char.isDigit) (pure [])

def readSign : Reader Char Bool := onHead isSign (map isMinus (one isSign)) (pure false)

def readExponent : Reader Char (Option (Bool × List Char)) :=
  onHead isExponent
    (bind (one isExponent) fun _ => bind readSign fun negative =>
      map (fun digits => some (negative, digits)) (span1 Char.isDigit))
    (pure none)

def readNumeral : Reader Char Numeral :=
  bind readMinus fun negative => bind readInt fun int => bind readFrac fun frac =>
    map (fun exponent => ⟨negative, int, frac, exponent⟩) readExponent

/-- A character that cannot go on a number. -/
def endsNumeral (c : Char) : Bool := !c.isDigit && !isPoint c && !isExponent c

theorem stable_readNumeral : Stable readNumeral := by
  have hminus : Stable readMinus :=
    (closed_one isMinus).map.stable.onHead (closed_pure false).stable
  have hint : Stable readInt := (closed_one isZero).map.stable.onHead (stable_span1 _)
  have hfrac : Stable readFrac :=
    ((closed_one isPoint).stable.bind fun _ => stable_span1 _).onHead (closed_pure []).stable
  have hsign : Stable readSign := (closed_one isSign).map.stable.onHead (closed_pure false).stable
  have hexponent : Stable readExponent :=
    ((closed_one isExponent).stable.bind fun _ => hsign.bind fun _ => (stable_span1 _).map).onHead
      (closed_pure none).stable
  exact hminus.bind fun _ => hint.bind fun _ => hfrac.bind fun _ => hexponent.map

variable {rest : List Char}

theorem isDigit_classes {c : Char} (hc : c.isDigit = true) :
    isMinus c = false ∧ isPoint c = false ∧ isExponent c = false ∧ isSign c = false := by
  have hne {d : Char} (hd : d.isDigit = false) : (c == d) = false :=
    beq_false_of_ne fun heq => Bool.noConfusion (hc.symm.trans (heq ▸ hd))
  simp [isMinus, isPoint, isExponent, isSign, hne (d := '-') rfl, hne (d := '.') rfl,
    hne (d := 'e') rfl, hne (d := 'E') rfl, hne (d := '+') rfl]

theorem readMinus_append (negative : Bool) (h : ∀ c ∈ rest.head?, isMinus c = false) :
    readMinus ((if negative then ['-'] else []) ++ rest) = some (negative, rest) := by
  cases negative with
  | true => rfl
  | false => exact onHead_neg h

theorem readInt_append {int : List Char} (hne : int ≠ []) (hdigits : ∀ c ∈ int, c.isDigit = true)
    (hzero : int.head? = some '0' → int = ['0']) (hrest : ∀ c ∈ rest.head?, c.isDigit = false) :
    readInt (int ++ rest) = some (int, rest) := by
  cases int with
  | nil => exact absurd rfl hne
  | cons d ds =>
      by_cases hd : d = '0'
      · subst hd
        obtain rfl : ds = [] := (List.cons.inj (hzero rfl)).2
        rfl
      · have hspan := span1_append hne hdigits hrest
        refine (onHead_neg ?_).trans hspan
        rintro c ⟨rfl⟩
        exact beq_false_of_ne hd

theorem readFrac_append {frac : List Char} (hdigits : ∀ c ∈ frac, c.isDigit = true)
    (hrest : ∀ c ∈ rest.head?, c.isDigit = false ∧ isPoint c = false) :
    readFrac (Numeral.fracText frac ++ rest) = some (frac, rest) := by
  unfold Numeral.fracText
  split
  next h =>
    subst h
    exact onHead_neg fun c hc => (hrest c hc).2
  next hne =>
    refine (onHead_pos rfl).trans ((bind_eq (one_cons rfl)).trans ?_)
    exact span1_append hne hdigits fun c hc => (hrest c hc).1

theorem readExponent_append {exponent : Option (Bool × List Char)}
    (hdigits : ∀ negative digits, exponent = some (negative, digits) →
      digits ≠ [] ∧ ∀ c ∈ digits, c.isDigit = true)
    (hrest : ∀ c ∈ rest.head?, c.isDigit = false ∧ isExponent c = false) :
    readExponent (Numeral.exponentText exponent ++ rest) = some (exponent, rest) := by
  cases exponent with
  | none => exact onHead_neg fun c hc => (hrest c hc).2
  | some e =>
      obtain ⟨negative, digits⟩ := e
      obtain ⟨hne, hall⟩ := hdigits negative digits rfl
      have hspan := span1_append hne hall fun c hc => (hrest c hc).1
      have hsign : readSign ((if negative then '-' else '+') :: (digits ++ rest)) =
          some (negative, digits ++ rest) := by
        cases negative <;> rfl
      refine (onHead_pos rfl).trans ((bind_eq (one_cons rfl)).trans ?_)
      exact (bind_eq hsign).trans (map_eq hspan)

theorem head_fracText {frac : List Char} {p : Char → Prop} (hpoint : p '.')
    (hrest : ∀ c ∈ rest.head?, p c) : ∀ c ∈ (Numeral.fracText frac ++ rest).head?, p c := by
  unfold Numeral.fracText
  split
  next => exact hrest
  next =>
    rintro c ⟨rfl⟩
    exact hpoint

theorem head_exponentText {exponent : Option (Bool × List Char)} {p : Char → Prop} (he : p 'e')
    (hrest : ∀ c ∈ rest.head?, p c) :
    ∀ c ∈ (Numeral.exponentText exponent ++ rest).head?, p c := by
  cases exponent with
  | none => exact hrest
  | some e =>
      rintro c ⟨rfl⟩
      exact he

/-- **A numeral is read as it is written.** -/
theorem readNumeral_text {m : Numeral} (hm : m.WellFormed)
    (hrest : ∀ c ∈ rest.head?, endsNumeral c = true) :
    readNumeral (m.text ++ rest) = some (m, rest) := by
  obtain ⟨negative, int, frac, exponent⟩ := m
  have hends : ∀ c ∈ rest.head?,
      c.isDigit = false ∧ isPoint c = false ∧ isExponent c = false := by
    intro c hc
    simpa [endsNumeral, and_assoc] using hrest c hc
  have hexponent : readExponent (Numeral.exponentText exponent ++ rest) = some (exponent, rest) :=
    readExponent_append hm.exponent_digits fun c hc => ⟨(hends c hc).1, (hends c hc).2.2⟩
  have hfrac : readFrac (Numeral.fracText frac ++ (Numeral.exponentText exponent ++ rest)) =
      some (frac, Numeral.exponentText exponent ++ rest) :=
    readFrac_append hm.frac_digits
      (head_exponentText ⟨rfl, rfl⟩ fun c hc => ⟨(hends c hc).1, (hends c hc).2.1⟩)
  have hint : readInt (int ++ (Numeral.fracText frac ++ (Numeral.exponentText exponent ++ rest))) =
      some (int, Numeral.fracText frac ++ (Numeral.exponentText exponent ++ rest)) :=
    readInt_append hm.int_ne hm.int_digits hm.int_zero
      (head_fracText rfl (head_exponentText rfl fun c hc => (hends c hc).1))
  have hhead : ∀ c ∈ (int ++ (Numeral.fracText frac ++
      (Numeral.exponentText exponent ++ rest))).head?, isMinus c = false := by
    cases int with
    | nil => exact absurd rfl hm.int_ne
    | cons d ds =>
        rintro c ⟨rfl⟩
        exact (isDigit_classes (hm.int_digits _ List.mem_cons_self)).1
  have hminus := readMinus_append negative hhead
  simp only [Numeral.text, List.append_assoc]
  exact (bind_eq hminus).trans ((bind_eq hint).trans ((bind_eq hfrac).trans (map_eq hexponent)))

end Read

/-! ### The digits of a number -/

/-- None for zero. -/
def decimalDigits (n : ℕ) : List Char := (Nat.digits 10 n).reverse.map fun d => Char.ofNat (48 + d)

theorem digitChar_spec : ∀ d < 10, (Char.ofNat (48 + d)).isDigit = true ∧
    digitValue (Char.ofNat (48 + d)) = d ∧ (Char.ofNat (48 + d) = '0' → d = 0) := by
  decide

theorem natOf_append (l m : List Char) : natOf (l ++ m) = natOf l * 10 ^ m.length + natOf m := by
  have hstart (n : ℕ) : m.foldl (fun n c => n * 10 + digitValue c) n =
      n * 10 ^ m.length + natOf m := by
    induction m generalizing n with
    | nil => simp [natOf]
    | cons c m ih =>
        rw [natOf, List.foldl_cons, List.foldl_cons, ih, ih, List.length_cons, pow_succ]
        ring
  rw [natOf, List.foldl_append]
  exact hstart _

theorem natOf_cons (c : Char) (l : List Char) :
    natOf (c :: l) = digitValue c * 10 ^ l.length + natOf l := by
  have happend := natOf_append [c] l
  simpa [natOf] using happend

@[simp] theorem natOf_zeros (k : ℕ) : natOf (List.replicate k '0') = 0 := by
  induction k with
  | zero => rfl
  | succ k ih => simp [List.replicate_succ, natOf_cons, ih, digitValue]

theorem isDigit_decimalDigits (n : ℕ) : ∀ c ∈ decimalDigits n, c.isDigit = true := by
  intro c hc
  obtain ⟨d, hd, rfl⟩ := List.mem_map.mp hc
  exact (digitChar_spec d (Nat.digits_lt_base (by norm_num) (List.mem_reverse.mp hd))).1

theorem natOf_decimalDigits (n : ℕ) : natOf (decimalDigits n) = n := by
  have hall : ∀ l : List ℕ, (∀ d ∈ l, d < 10) →
      natOf (l.reverse.map fun d => Char.ofNat (48 + d)) = Nat.ofDigits 10 l := by
    intro l hl
    induction l with
    | nil => rfl
    | cons d l ih =>
        obtain ⟨hd, hl⟩ := List.forall_mem_cons.mp hl
        rw [List.reverse_cons, List.map_append, natOf_append, ih hl, Nat.ofDigits_cons]
        have hone : natOf [Char.ofNat (48 + d)] = d := by simp [natOf, (digitChar_spec d hd).2.1]
        rw [List.map_singleton, hone, List.length_singleton, pow_one]
        ring
  rw [decimalDigits, hall _ fun d hd => Nat.digits_lt_base (by norm_num) hd, Nat.ofDigits_digits]

theorem decimalDigits_ne_nil {n : ℕ} (h : 0 < n) : decimalDigits n ≠ [] := by
  rw [decimalDigits, Ne, List.map_eq_nil_iff, List.reverse_eq_nil_iff]
  exact Nat.digits_ne_nil_iff_ne_zero.mpr h.ne'

/-- No zero comes first. -/
theorem head_decimalDigits {n : ℕ} (h : 0 < n) : (decimalDigits n).head? ≠ some '0' := by
  have hne : Nat.digits 10 n ≠ [] := Nat.digits_ne_nil_iff_ne_zero.mpr h.ne'
  rw [decimalDigits, List.head?_map, List.head?_reverse, List.getLast?_eq_some_getLast hne,
    Option.map_some, Ne, Option.some.injEq]
  intro hzero
  refine Nat.getLast_digit_ne_zero 10 h.ne' ?_
  exact (digitChar_spec _ (Nat.digits_lt_base (by norm_num) (List.getLast_mem hne))).2.2 hzero

theorem length_decimalDigits {n k : ℕ} (hk : 0 < k) (hlower : 10 ^ (k - 1) ≤ n)
    (hupper : n < 10 ^ k) : (decimalDigits n).length = k := by
  have hle := (Nat.digits_length_le_iff (by norm_num) n).mpr hupper
  have hlt := (Nat.lt_digits_length_iff (by norm_num) n).mpr hlower
  rw [decimalDigits, List.length_map, List.length_reverse]
  omega

/-! ### `Number::toString` -/

/-- `s` of `k` digits, before which the point stands `n` places in. -/
structure Decimal where
  s : ℕ
  k : ℕ
  n : ℤ

namespace Decimal

def value (d : Decimal) : ℚ := d.s * 10 ^ (d.n - d.k)

/-- `d` has its digits, and `x` is the double nearest to it. -/
structure Of (d : Decimal) (x : ℚ) : Prop where
  k_pos : 0 < d.k
  lower : 10 ^ (d.k - 1) ≤ d.s
  upper : d.s < 10 ^ d.k
  nearest : Binary64.nearest d.value = x

/-- And there is none of fewer digits. -/
structure Shortest (d : Decimal) (x : ℚ) : Prop extends Of d x where
  minimal (d' : Decimal) : Of d' x → d.k ≤ d'.k

/-- Where the point is written, and when an exponent is. -/
def layout (d : Decimal) : Numeral :=
  let digits := decimalDigits d.s
  if d.k ≤ d.n ∧ d.n ≤ 21 then
    ⟨false, digits ++ List.replicate (d.n - d.k).toNat '0', [], none⟩
  else if 0 < d.n ∧ d.n ≤ 21 then
    ⟨false, digits.take d.n.toNat, digits.drop d.n.toNat, none⟩
  else if -6 < d.n ∧ d.n ≤ 0 then
    ⟨false, ['0'], List.replicate (-d.n).toNat '0' ++ digits, none⟩
  else
    ⟨false, digits.take 1, digits.drop 1,
      some (decide (d.n - 1 < 0), decimalDigits (d.n - 1).natAbs)⟩

variable {d : Decimal} {x : ℚ}

theorem Of.s_pos (h : Of d x) : 0 < d.s := (Nat.pow_pos (by norm_num)).trans_le h.lower

theorem Of.length (h : Of d x) : (decimalDigits d.s).length = d.k :=
  length_decimalDigits h.k_pos h.lower h.upper

/-- A beginning of the digits. -/
theorem take_wellFormed (h : Of d x) {j : ℕ} (hj : 0 < j) :
    (decimalDigits d.s).take j ≠ [] ∧
      ((decimalDigits d.s).take j).head? ≠ some '0' := by
  have hne := decimalDigits_ne_nil h.s_pos
  have hhead := head_decimalDigits h.s_pos
  obtain ⟨c, cs, hcs⟩ := List.exists_cons_of_ne_nil hne
  obtain ⟨j, rfl⟩ := Nat.exists_eq_succ_of_ne_zero hj.ne'
  rw [hcs] at hhead ⊢
  exact ⟨List.cons_ne_nil _ _, hhead⟩

theorem layout_wellFormed (h : Of d x) : d.layout.WellFormed := by
  have hdigits := isDigit_decimalDigits d.s
  have htake (j : ℕ) : ∀ c ∈ (decimalDigits d.s).take j, c.isDigit = true :=
    fun c hc => hdigits c (List.mem_of_mem_take hc)
  have hdrop (j : ℕ) : ∀ c ∈ (decimalDigits d.s).drop j, c.isDigit = true :=
    fun c hc => hdigits c (List.mem_of_mem_drop hc)
  have hzeros (j : ℕ) : ∀ c ∈ List.replicate j '0', c.isDigit = true :=
    fun c hc => List.eq_of_mem_replicate hc ▸ rfl
  have hnone : ∀ (negative : Bool) (digits : List Char), (none : Option (Bool × List Char)) =
      some (negative, digits) → digits ≠ [] ∧ ∀ c ∈ digits, c.isDigit = true :=
    fun _ _ heq => (Option.some_ne_none _ heq.symm).elim
  unfold layout
  split
  next =>
    have hne := decimalDigits_ne_nil h.s_pos
    refine ⟨by simp [hne], List.forall_mem_append.mpr ⟨hdigits, hzeros _⟩, fun hzero => ?_,
      fun c hc => absurd hc List.not_mem_nil, hnone⟩
    rw [List.head?_append_of_ne_nil _ hne] at hzero
    exact absurd hzero (head_decimalDigits h.s_pos)
  split
  next hn =>
    obtain ⟨hne, hhead⟩ := take_wellFormed h (j := d.n.toNat) (by omega)
    exact ⟨hne, htake _, fun hzero => absurd hzero hhead, hdrop _, hnone⟩
  split
  next =>
    exact ⟨List.cons_ne_nil _ _, fun c hc => List.mem_singleton.mp hc ▸ rfl, fun _ => rfl,
      List.forall_mem_append.mpr ⟨hzeros _, hdigits⟩, hnone⟩
  next hlarge hmiddle hsmall =>
    obtain ⟨hne, hhead⟩ := take_wellFormed h one_pos
    have hk := h.k_pos
    refine ⟨hne, htake 1, fun hzero => absurd hzero hhead, hdrop 1, ?_⟩
    rintro negative digits heq
    obtain ⟨-, rfl⟩ := Prod.mk.inj (Option.some.inj heq)
    exact ⟨decimalDigits_ne_nil (by omega), isDigit_decimalDigits _⟩

/-- **A layout stands for its decimal.** -/
theorem value_layout (h : Of d x) : d.layout.value = d.value := by
  have hlength := h.length
  have hk := h.k_pos
  unfold layout
  split
  next hn =>
    obtain ⟨j, hj⟩ := Int.eq_ofNat_of_zero_le (a := d.n - d.k) (by omega)
    simp [Numeral.value, Numeral.exponentValue, natOf_append, natOf_decimalDigits, value, hj]
  split
  next hn =>
    have hlen : ((decimalDigits d.s).drop d.n.toNat).length = d.k - d.n.toNat := by
      rw [List.length_drop, hlength]
    simp only [Numeral.value, Numeral.exponentValue, List.take_append_drop, natOf_decimalDigits,
      value, hlen]
    congr 2
    omega
  split
  next hn =>
    have hlen : (List.replicate (-d.n).toNat '0' ++ decimalDigits d.s).length =
        (-d.n).toNat + d.k := by simp [hlength]
    have hnat : natOf (['0'] ++ (List.replicate (-d.n).toNat '0' ++ decimalDigits d.s)) = d.s := by
      rw [natOf_append, natOf_append, natOf_zeros, natOf_decimalDigits]
      simp [natOf, digitValue]
    simp only [Numeral.value, Numeral.exponentValue, hnat, hlen, value]
    congr 2
    omega
  next hlarge hmiddle hsmall =>
    have hlen : ((decimalDigits d.s).drop 1).length = d.k - 1 := by
      rw [List.length_drop, hlength]
    have hexp : Numeral.exponentValue ⟨false, (decimalDigits d.s).take 1,
        (decimalDigits d.s).drop 1,
        some (decide (d.n - 1 < 0), decimalDigits (d.n - 1).natAbs)⟩ = d.n - 1 := by
      by_cases hneg : d.n - 1 < 0
      · simp only [Numeral.exponentValue, hneg, decide_true, natOf_decimalDigits]
        omega
      · simp only [Numeral.exponentValue, hneg, decide_false, natOf_decimalDigits]
        omega
    simp only [Numeral.value, hexp, List.take_append_drop, natOf_decimalDigits, value, hlen]
    congr 2
    omega

/-- A double has a numeral. -/
theorem exists_of (hx : Binary64.IsDouble x) (hpos : 0 < x) : ∃ d : Decimal, Of d x := by
  obtain ⟨s, e, hs, rfl⟩ := Binary64.exists_decimal hx.nearest_eq hpos
  refine ⟨⟨s, Nat.log 10 s + 1, e + (Nat.log 10 s + 1)⟩, Nat.succ_pos _, ?_, ?_, ?_⟩
  · exact Nat.pow_log_le_self 10 hs.ne'
  · exact Nat.lt_pow_succ_log_self (by norm_num) s
  · rw [value]
    push_cast
    rw [add_sub_cancel_right]
    exact hx.nearest_eq

theorem exists_shortest (hx : Binary64.IsDouble x) (hpos : 0 < x) :
    ∃ d : Decimal, Shortest d x := by
  classical
  have hex : ∃ k, ∃ d : Decimal, Of d x ∧ d.k = k := by
    obtain ⟨d, hd⟩ := exists_of hx hpos
    exact ⟨d.k, d, hd, rfl⟩
  obtain ⟨d, hd, hk⟩ := Nat.find_spec hex
  exact ⟨d, hd, fun d' hd' => hk ▸ Nat.find_min' hex ⟨d', hd', rfl⟩⟩

end Decimal

/-- A choice of digits for every double. -/
structure NumberToString where
  decimal : ℚ → Decimal
  shortest (x : ℚ) : Binary64.IsDouble x → 0 < x → (decimal x).Shortest x

instance : Nonempty NumberToString := by
  classical
  have h (x : ℚ) : ∃ d : Decimal, Binary64.IsDouble x → 0 < x → d.Shortest x := by
    by_cases hx : Binary64.IsDouble x ∧ 0 < x
    · obtain ⟨d, hd⟩ := Decimal.exists_shortest hx.1 hx.2
      exact ⟨d, fun _ _ => hd⟩
    · exact ⟨⟨0, 0, 0⟩, fun hdouble hpos => absurd ⟨hdouble, hpos⟩ hx⟩
  choose decimal hdecimal using h
  exact ⟨⟨decimal, hdecimal⟩⟩

namespace JsNumber

/-- The number nearest to a decimal. -/
def ofDecimal (negative : Bool) (r : ℚ) : JsNumber :=
  let x := Binary64.nearest r
  if Binary64.limit ≤ x then .infinity negative
  else if x = 0 then if negative then .negativeZero else .finite 0
  else .finite (if negative then -x else x)

/-- A finite number is a double. -/
def IsDouble : JsNumber → Prop
  | .finite q => Binary64.IsDouble |q|
  | _ => True

end JsNumber

/-- The number that a numeral stands for. -/
def Numeral.number (m : Numeral) : JsNumber := JsNumber.ofDecimal m.negative m.value

namespace NumberToString

variable (N : NumberToString)

def numeral (x : ℚ) : Numeral :=
  if x = 0 then ⟨false, ['0'], [], none⟩
  else if x < 0 then { (N.decimal (-x)).layout with negative := true }
  else (N.decimal x).layout

/-- `String(x)` of a finite number. -/
def text (x : ℚ) : List Char := (N.numeral x).text

variable {x : ℚ}

theorem numeral_wellFormed (hx : Binary64.IsDouble |x|) : (N.numeral x).WellFormed := by
  unfold numeral
  split
  next =>
    exact ⟨List.cons_ne_nil _ _, fun c hc => List.mem_singleton.mp hc ▸ rfl, fun _ => rfl,
      fun c hc => absurd hc List.not_mem_nil, fun _ _ heq => (Option.some_ne_none _ heq.symm).elim⟩
  split
  next hneg =>
    rw [abs_of_neg hneg] at hx
    have h := Decimal.layout_wellFormed (N.shortest (-x) hx (neg_pos.mpr hneg)).toOf
    exact ⟨h.int_ne, h.int_digits, h.int_zero, h.frac_digits, h.exponent_digits⟩
  next hzero hneg =>
    have hpos : 0 < x := lt_of_le_of_ne (not_lt.mp hneg) (Ne.symm hzero)
    rw [abs_of_pos hpos] at hx
    exact Decimal.layout_wellFormed (N.shortest x hx hpos).toOf

theorem number_layout (negative : Bool) {d : Decimal} (hx : Binary64.IsDouble x) (hpos : 0 < x)
    (hd : d.Of x) : Numeral.number { d.layout with negative } =
      .finite (if negative then -x else x) := by
  have hvalue : Numeral.value { d.layout with negative } = d.value := Decimal.value_layout hd
  rw [Numeral.number, hvalue, JsNumber.ofDecimal, hd.nearest]
  simp only [not_le.mpr hx.lt_limit, if_false, hpos.ne']

/-- **A double that is written is read back.** -/
theorem number_numeral (hx : Binary64.IsDouble |x|) : (N.numeral x).number = .finite x := by
  unfold numeral
  split
  next hzero =>
    subst hzero
    have hvalue : Numeral.value ⟨false, ['0'], [], none⟩ = 0 := by
      simp [Numeral.value, natOf, digitValue]
    have hlimit : ¬ Binary64.limit ≤ 0 := not_le.mpr Binary64.isDouble_zero.lt_limit
    rw [Numeral.number, hvalue, JsNumber.ofDecimal]
    simp [hlimit]
  split
  next hneg =>
    rw [abs_of_neg hneg] at hx
    have hpos := neg_pos.mpr hneg
    have h := number_layout true hx hpos (N.shortest (-x) hx hpos).toOf
    simpa using h
  next hzero hneg =>
    have hpos : 0 < x := lt_of_le_of_ne (not_lt.mp hneg) (Ne.symm hzero)
    rw [abs_of_pos hpos] at hx
    have h := number_layout false hx hpos (N.shortest x hx hpos).toOf
    have hlayout : { (N.decimal x).layout with negative := false } = (N.decimal x).layout := by
      unfold Decimal.layout
      split
      · rfl
      split
      · rfl
      split <;> rfl
    rwa [hlayout] at h

end NumberToString

/-- `JSON.parse` of a number. -/
def readNumber : Reader Char JsNumber := Reader.map Numeral.number readNumeral

theorem stable_readNumber : Reader.Stable readNumber := stable_readNumeral.map

/-- The text of a number begins with a digit or a minus sign. -/
theorem Numeral.head_text {m : Numeral} (hm : m.WellFormed) :
    ∃ c cs, m.text = c :: cs ∧ (c.isDigit = true ∨ c = '-') := by
  obtain ⟨d, ds, hint⟩ := List.exists_cons_of_ne_nil hm.int_ne
  rw [Numeral.text, hint]
  cases m.negative with
  | true => exact ⟨'-', _, rfl, .inr rfl⟩
  | false => exact ⟨d, _, rfl, .inl (hm.int_digits d (hint ▸ List.mem_cons_self))⟩

/-! ### Another first digit -/

namespace Numeral

variable {m : Numeral} {d : Char} {ds : List Char}

theorem natOf_lt {digits : List Char} (h : ∀ c ∈ digits, c.isDigit = true) :
    natOf digits < 10 ^ digits.length := by
  induction digits with
  | nil => exact Nat.one_pos
  | cons c digits ih =>
      obtain ⟨hc, hdigits⟩ := List.forall_mem_cons.mp h
      have hlt := ih hdigits
      have hvalue : digitValue c ≤ 9 := by
        have hle : c.toNat ≤ '9'.toNat := (Char.isDigit_iff_toNat.mp hc).2
        have h9 : '9'.toNat = 57 := rfl
        rw [digitValue]
        omega
      have hmul := Nat.mul_le_mul_right (10 ^ digits.length) hvalue
      rw [natOf_cons, List.length_cons, pow_succ]
      omega

/-- The numeral with another first digit. -/
def withFirst (m : Numeral) (d : Char) : Numeral := { m with int := d :: m.int.tail }

theorem withFirst_wellFormed (hm : m.WellFormed) (hd : d.isDigit = true) (hzero : d ≠ '0') :
    (m.withFirst d).WellFormed := by
  refine ⟨List.cons_ne_nil _ _, ?_, fun h => absurd (Option.some.inj h) hzero, hm.frac_digits,
    hm.exponent_digits⟩
  exact List.forall_mem_cons.mpr ⟨hd, fun c hc => hm.int_digits c (List.mem_of_mem_tail hc)⟩

theorem text_withFirst (hint : m.int = d :: ds) : ∃ sign tail, (sign = [] ∨ sign = ['-']) ∧
    m.text = sign ++ d :: tail ∧ ∀ d', (m.withFirst d').text = sign ++ d' :: tail := by
  refine ⟨if m.negative then ['-'] else [], ds ++ fracText m.frac ++ exponentText m.exponent,
    ?_, ?_, fun d' => ?_⟩
  · cases m.negative
    · exact .inl rfl
    · exact .inr rfl
  · simp [text, hint]
  · simp [text, withFirst, hint]

/-- **The first digit counts**: no double is nearest to both what begins with 1 and what begins
with 9. -/
theorem nearest_withFirst_ne (hm : m.WellFormed)
    (hpos : 0 < Binary64.nearest (m.withFirst '1').value) :
    Binary64.nearest (m.withFirst '1').value ≠ Binary64.nearest (m.withFirst '9').value := by
  intro heq
  have hle := Binary64.le_three_mul heq hpos
  let digits := m.int.tail ++ m.frac
  have hlt : (natOf digits : ℚ) < 10 ^ digits.length := mod_cast natOf_lt
    (List.forall_mem_append.mpr ⟨fun c hc => hm.int_digits c (List.mem_of_mem_tail hc),
      hm.frac_digits⟩)
  have hscale : (0 : ℚ) < 10 ^ (m.exponentValue - m.frac.length) := zpow_pos (by norm_num) _
  have hvalue (c : Char) : (m.withFirst c).value =
      (digitValue c * 10 ^ digits.length + natOf digits) *
        10 ^ (m.exponentValue - m.frac.length) := by
    have hnat : natOf (c :: m.int.tail ++ m.frac) =
        digitValue c * 10 ^ digits.length + natOf digits := natOf_cons c _
    rw [value, withFirst, hnat]
    push_cast
    rfl
  have hone : digitValue '1' = 1 := rfl
  have hnine : digitValue '9' = 9 := rfl
  rw [hvalue, hvalue, hone, hnine, ← mul_assoc, mul_le_mul_iff_left₀ hscale] at hle
  push_cast at hle
  have hpow : (0 : ℚ) < 10 ^ digits.length := by positivity
  linarith

end Numeral

theorem JsNumber.ofDecimal_ne_negativeZero (r : ℚ) : ofDecimal false r ≠ .negativeZero := by
  unfold ofDecimal
  simp only
  split
  next => exact nofun
  split <;> exact nofun

theorem JsNumber.eq_of_ofDecimal {negative : Bool} {r x : ℚ}
    (h : ofDecimal negative r = .finite x) : Binary64.nearest r = 0 ∧ x = 0 ∨
      Binary64.nearest r ≠ 0 ∧
        x = if negative then -Binary64.nearest r else Binary64.nearest r := by
  unfold ofDecimal at h
  simp only at h
  split at h
  next => cases h
  split at h
  next hzero =>
    split at h
    next => cases h
    next => exact .inl ⟨hzero, (JsNumber.finite.inj h).symm⟩
  next hne => exact .inr ⟨hne, (JsNumber.finite.inj h).symm⟩

namespace NumberToString

variable (N : NumberToString) {x : ℚ}

theorem negative_numeral : (N.numeral x).negative = decide (x < 0) := by
  unfold numeral
  split
  next h =>
    subst h
    rfl
  split
  next h => exact (decide_eq_true h).symm
  next h =>
    rw [decide_eq_false h]
    unfold Decimal.layout
    split
    · rfl
    split
    · rfl
    split <;> rfl

theorem nearest_one_pos : 0 < Binary64.nearest 1 := by
  obtain ⟨-, -, hrounded⟩ := Binary64.rounded 1
  have hunit : Binary64.unit 1 ≤ 1 := by
    rw [Binary64.unit, Binary64.exponent, Int.log_one_right]
    exact zpow_le_one_of_nonpos₀ one_le_two (by norm_num)
  rw [abs_le] at hrounded
  linarith

/-- A first digit that makes it another number. -/
theorem exists_withFirst (hx : Binary64.IsDouble |x|) : ∃ d : Char, d.isDigit = true ∧ d ≠ '0' ∧
    ((N.numeral x).withFirst d).number ≠ .finite x ∧
    (x = 0 → ((N.numeral x).withFirst d).number ≠ .negativeZero) := by
  by_cases hzero : x = 0
  · subst hzero
    have hnumeral : N.numeral 0 = ⟨false, ['0'], [], none⟩ := if_pos rfl
    have hvalue : (Numeral.withFirst ⟨false, ['0'], [], none⟩ '1').value = 1 := by
      simp [Numeral.value, Numeral.withFirst, Numeral.exponentValue, natOf, digitValue]
    rw [hnumeral]
    refine ⟨'1', rfl, by decide, fun h => ?_, fun _ => JsNumber.ofDecimal_ne_negativeZero _⟩
    rw [Numeral.number, hvalue] at h
    rcases JsNumber.eq_of_ofDecimal h with ⟨h, -⟩ | ⟨hne, h⟩
    · exact nearest_one_pos.ne' h
    · exact hne h.symm
  · by_contra hall
    have hboth (d : Char) (hd : d.isDigit = true) (hd0 : d ≠ '0') :
        ((N.numeral x).withFirst d).number = .finite x := by
      by_contra hne
      exact hall ⟨d, hd, hd0, hne, fun h => absurd h hzero⟩
    have hnearest (d : Char) (hd : d.isDigit = true) (hd0 : d ≠ '0') :
        Binary64.nearest ((N.numeral x).withFirst d).value = |x| := by
      have hnegative : ((N.numeral x).withFirst d).negative = decide (x < 0) :=
        N.negative_numeral
      rcases JsNumber.eq_of_ofDecimal (hboth d hd hd0) with ⟨-, h⟩ | ⟨-, h⟩
      · exact absurd h hzero
      · rw [hnegative] at h
        by_cases hneg : x < 0
        · rw [decide_eq_true hneg, if_pos rfl] at h
          rw [abs_of_neg hneg]
          linarith
        · rw [decide_eq_false hneg, if_neg Bool.false_ne_true] at h
          rw [abs_of_nonneg (not_lt.mp hneg)]
          exact h.symm
    have hone := hnearest '1' rfl (by decide)
    refine Numeral.nearest_withFirst_ne (N.numeral_wellFormed hx) ?_
      (hone.trans (hnearest '9' rfl (by decide)).symm)
    rw [hone]
    exact abs_pos.mpr hzero

/-- **A number with one other digit** is another number. -/
theorem exists_other (hx : Binary64.IsDouble |x|) : ∃ (m : Numeral) (sign tail : List Char)
    (d d' : Char), m.WellFormed ∧ m.number ≠ .finite x ∧ (x = 0 → m.number ≠ .negativeZero) ∧
      (sign = [] ∨ sign = ['-']) ∧ d.isDigit = true ∧ d'.isDigit = true ∧ d ≠ d' ∧
      N.text x = sign ++ d :: tail ∧ m.text = sign ++ d' :: tail := by
  have hm := N.numeral_wellFormed hx
  obtain ⟨d, ds, hint⟩ := List.exists_cons_of_ne_nil hm.int_ne
  obtain ⟨sign, tail, hsign, htext, hother⟩ := Numeral.text_withFirst hint
  obtain ⟨d', hd', hd0, hne, hne0⟩ := N.exists_withFirst hx
  have hd : d.isDigit = true := hm.int_digits d (by simp [hint])
  have hself : (N.numeral x).withFirst d = N.numeral x := by
    rw [Numeral.withFirst, hint, List.tail_cons, ← hint]
  refine ⟨(N.numeral x).withFirst d', sign, tail, d, d', Numeral.withFirst_wellFormed hm hd' hd0,
    hne, hne0, hsign, hd, hd', ?_, htext, hother d'⟩
  rintro rfl
  exact hne ((congrArg Numeral.number hself).trans (N.number_numeral hx))

end NumberToString

end NestDdd

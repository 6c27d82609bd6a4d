import Mathlib.Data.List.Forall2
import NestDdd.Shared.JsonParse

/-!
# Shared — the text of a value

`JSON.parse` behind `JSON.stringify`, for values as JavaScript can hold them: numbers that are
doubles, objects whose names are in their order.

* `parse_stringify`: what is written is read back, as `jsonify` has it.
* `parse_cut`: the text of an object, cut anywhere, is not read.
* `stringify_split`: what stands around one field of an object.
-/

namespace NestDdd

open Reader JsValue

/-! ### Values as JavaScript holds them -/

/-- An object has a name once, and its names are in order. -/
structure OwnOrder (fields : List (String × JsValue)) : Prop where
  nodup : (fields.map Prod.fst).Nodup
  sorted : (fields.map Prod.fst).Pairwise fun k k' => keyBefore k k' = true

/-- Nothing but doubles for numbers, and objects in order. -/
inductive Ordinary : JsValue → Prop
  | undefined : Ordinary .undefined
  | null : Ordinary .null
  | bool (b : Bool) : Ordinary (.bool b)
  | number {n : JsNumber} : n.IsDouble → Ordinary (.number n)
  | string (s : String) : Ordinary (.string s)
  | array {items : List JsValue} : (∀ item ∈ items, Ordinary item) → Ordinary (.array items)
  | object {fields : List (String × JsValue)} : OwnOrder fields →
      (∀ field ∈ fields, Ordinary field.2) → Ordinary (.object fields)

theorem OwnOrder.sublist {fields fields' : List (String × JsValue)} (h : OwnOrder fields)
    (hsub : (fields'.map Prod.fst).Sublist (fields.map Prod.fst)) : OwnOrder fields' :=
  ⟨h.nodup.sublist hsub, h.sorted.sublist hsub⟩

/-- A name behind all others. -/
theorem put_last {fields : List (String × JsValue)} {name : String} {v : JsValue}
    (h : OwnOrder (fields ++ [(name, v)])) : put fields name v = fields ++ [(name, v)] := by
  have hnodup := h.nodup
  have hsorted := h.sorted
  rw [List.map_append, List.nodup_append] at hnodup
  rw [List.map_append, List.pairwise_append] at hsorted
  have hnew : name ∉ fields.map Prod.fst :=
    fun hmem => hnodup.2.2 name hmem name (List.mem_singleton_self name) rfl
  have hbefore : ∀ field ∈ fields, keyBefore field.1 name = true := fun field hfield =>
    hsorted.2.2 field.1 (List.mem_map_of_mem hfield) name (List.mem_singleton_self name)
  rw [put, if_neg hnew, List.takeWhile_eq_self_iff.mpr hbefore,
    List.dropWhile_eq_nil_iff.mpr hbefore]

/-- An object is made of its own members. -/
theorem ofMembers_eq_self {fields : List (String × JsValue)} (h : OwnOrder fields) :
    ofMembers fields = fields := by
  induction fields using List.reverseRecOn with
  | nil => rfl
  | append_singleton fields field ih =>
      have hfields : ofMembers fields = fields :=
        ih (h.sublist ((List.sublist_append_left fields [field]).map Prod.fst))
      rw [ofMembers, List.foldl_append, List.foldl_cons, List.foldl_nil]
      rw [ofMembers] at hfields
      rw [hfields]
      exact put_last h

/-- What JSON keeps of an object stays in order. -/
theorem names_jsonifyFields (fields : List (String × JsValue)) :
    ((jsonifyFields fields).map Prod.fst).Sublist (fields.map Prod.fst) := by
  induction fields with
  | nil => simp
  | cons field fields ih =>
      obtain ⟨name, value⟩ := field
      rw [jsonifyFields_cons]
      cases jsonify value with
      | none => exact ih.cons name
      | some w => exact ih.cons_cons name

/-! ### Strings -/

section Strings

variable {rest : List Char}

theorem hexValue_hexDigit : ∀ n < 16, hexValue (hexDigit n) = some n := by decide

theorem readHex_hexDigit {n : ℕ} (h : n < 16) :
    readHex (hexDigit n :: rest) = some (n, rest) := by
  have hvalue := hexValue_hexDigit n h
  have hone : one (fun c => (hexValue c).isSome) (hexDigit n :: rest) = some (hexDigit n, rest) :=
    one_cons (by simp [hvalue])
  exact (map_eq hone).trans (by rw [hvalue]; rfl)

theorem encodeChar_of_small {c : Char} (h : c.toNat < 128) : Utf16.encodeChar c = [c.toNat] :=
  if_pos (h.trans (by norm_num))

/-- An escaped character, by its escape. -/
theorem readUnits_escape (c : Char) :
    readUnits (escape c ++ rest) = some (Utf16.encodeChar c, rest) := by
  unfold escape
  split
  next h => subst h; rfl
  split
  next h => subst h; rfl
  split
  next h => rw [encodeChar_of_small (by omega), h]; rfl
  split
  next h => rw [encodeChar_of_small (by omega), h]; rfl
  split
  next h => rw [encodeChar_of_small (by omega), h]; rfl
  split
  next h => rw [encodeChar_of_small (by omega), h]; rfl
  split
  next h => rw [encodeChar_of_small (by omega), h]; rfl
  split
  next h =>
    have hzero : readHex
        ('0' :: '0' :: hexDigit (c.toNat / 16) :: hexDigit (c.toNat % 16) :: rest) =
        some (0, '0' :: hexDigit (c.toNat / 16) :: hexDigit (c.toNat % 16) :: rest) := rfl
    have hzero' : readHex ('0' :: hexDigit (c.toNat / 16) :: hexDigit (c.toNat % 16) :: rest) =
        some (0, hexDigit (c.toNat / 16) :: hexDigit (c.toNat % 16) :: rest) := rfl
    have hunicode : readUnicode
        ('0' :: '0' :: hexDigit (c.toNat / 16) :: hexDigit (c.toNat % 16) :: rest) =
          some (((0 * 16 + 0) * 16 + c.toNat / 16) * 16 + c.toNat % 16, rest) :=
      (bind_eq hzero).trans ((bind_eq hzero').trans
        ((bind_eq (readHex_hexDigit (by omega))).trans (map_eq (readHex_hexDigit (by omega)))))
    have hescape : readEscape ('u' :: '0' :: '0' :: hexDigit (c.toNat / 16) ::
        hexDigit (c.toNat % 16) :: rest) =
          some (((0 * 16 + 0) * 16 + c.toNat / 16) * 16 + c.toNat % 16, rest) :=
      (onHead_pos rfl).trans ((bind_eq (one_cons rfl)).trans hunicode)
    have hunit : ((0 * 16 + 0) * 16 + c.toNat / 16) * 16 + c.toNat % 16 = c.toNat := by omega
    rw [hunit] at hescape
    rw [encodeChar_of_small (by omega)]
    exact (onHead_pos rfl).trans ((bind_eq (one_cons rfl)).trans (map_eq hescape))
  next hquote hbackslash _ _ _ _ _ hsmall =>
    have hneg : isBackslash c = false := beq_false_of_ne hbackslash
    refine (onHead_neg ?_).trans (map_eq (one_cons (decide_eq_true (not_lt.mp hsmall))))
    rintro d ⟨rfl⟩
    exact hneg

theorem head_escape (c : Char) : ∃ d cs, escape c = d :: cs ∧ isQuote d = false := by
  unfold escape
  split
  next => exact ⟨_, _, rfl, rfl⟩
  split
  next => exact ⟨_, _, rfl, rfl⟩
  split
  next => exact ⟨_, _, rfl, rfl⟩
  split
  next => exact ⟨_, _, rfl, rfl⟩
  split
  next => exact ⟨_, _, rfl, rfl⟩
  split
  next => exact ⟨_, _, rfl, rfl⟩
  split
  next => exact ⟨_, _, rfl, rfl⟩
  split
  next => exact ⟨_, _, rfl, rfl⟩
  next h _ _ _ _ _ _ _ => exact ⟨c, [], rfl, beq_false_of_ne h⟩

theorem readChars_escape (cs : List Char) {fuel : ℕ} (h : cs.length < fuel) :
    readChars fuel (cs.flatMap escape ++ '"' :: rest) = some (Utf16.encode cs, rest) := by
  induction cs generalizing fuel with
  | nil =>
      obtain ⟨fuel, rfl⟩ := Nat.exists_eq_succ_of_ne_zero h.ne'
      rfl
  | cons c cs ih =>
      obtain ⟨fuel, rfl⟩ := Nat.exists_eq_succ_of_ne_zero (Nat.ne_zero_of_lt h)
      obtain ⟨d, ds, hd, hquote⟩ := head_escape c
      rw [List.flatMap_cons, List.append_assoc]
      refine (onHead_neg ?_).trans ((bind_eq (readUnits_escape c)).trans
        (map_eq (ih (Nat.lt_of_succ_lt_succ h))))
      rw [hd]
      rintro e ⟨rfl⟩
      exact hquote

theorem length_le_escape (cs : List Char) : cs.length ≤ (cs.flatMap escape).length := by
  induction cs with
  | nil => exact le_rfl
  | cons c cs ih =>
      obtain ⟨d, ds, hd, -⟩ := head_escape c
      rw [List.flatMap_cons, List.length_append, hd, List.length_cons, List.length_cons]
      omega

/-- **A string is read as it is written.** -/
theorem readString_quote (s : String) {fuel : ℕ} (h : (quote s).length ≤ fuel) :
    readString fuel (quote s ++ rest) = some (s, rest) := by
  have hlen := length_le_escape s.toList
  have hfuel : s.toList.length < fuel := by
    simp only [quote, List.length_append, List.length_cons, List.length_nil] at h
    omega
  have hchars : readChars fuel (s.toList.flatMap escape ++ '"' :: rest) =
      some (Utf16.encode s.toList, rest) := readChars_escape s.toList hfuel
  have hquote : quote s ++ rest = '"' :: (s.toList.flatMap escape ++ '"' :: rest) := by
    simp [quote]
  rw [hquote]
  refine (bind_eq (one_cons rfl)).trans ((map_eq hchars).trans ?_)
  rw [Utf16.decode_encode, String.ofList_toList]

end Strings

/-! ### Lists in brackets -/

section Lists

variable {α : Type} {rest : List Char}

/-- What comes next does not go on a number. -/
def Ends (rest : List Char) : Prop := ∀ c ∈ rest.head?, endsNumeral c = true

theorem ends_cons {c : Char} (h : endsNumeral c = true) : Ends (c :: rest) := by
  rintro d ⟨rfl⟩
  exact h

/-- There is no white space to skip. -/
theorem skipSpace_cons {f : Reader Char α} {c : Char} {s : List Char} (h : isJsonSpace c = false) :
    skipSpace f (c :: s) = f (c :: s) := by
  have hspan : span isJsonSpace ([] ++ c :: s) = some ([], c :: s) :=
    span_append (fun d hd => absurd hd List.not_mem_nil) (by rintro d ⟨rfl⟩; exact h)
  exact bind_eq hspan

/-- `text` is read as `v`, with fuel for its length. -/
def Reads (item : ℕ → Reader Char α) (text : List Char) (v : α) : Prop :=
  ∀ fuel rest, 2 * text.length + 1 ≤ fuel → Ends rest → item fuel (text ++ rest) = some (v, rest)

/-- **A list is read as it is written**, if its items are. -/
theorem loop_join {loop : ℕ → Reader Char (List α)} {item : ℕ → Reader Char α} {closing : Char}
    (hloop : ∀ n, loop (n + 1) = listed closing (item n) (loop n))
    (hspace : isJsonSpace closing = false) (hcomma : (closing == ',') = false)
    (hends : endsNumeral closing = true) {texts : List (List Char)} {values : List α}
    (h : List.Forall₂ (Reads item) texts values) (hne : texts ≠ []) {fuel : ℕ}
    (hfuel : 2 * ([','].intercalate texts).length + 2 ≤ fuel) :
    loop fuel ([','].intercalate texts ++ closing :: rest) = some (values, rest) := by
  induction h generalizing fuel with
  | nil => exact absurd rfl hne
  | @cons t v texts values hread hrest ih =>
      obtain ⟨fuel, rfl⟩ := Nat.exists_eq_succ_of_ne_zero (Nat.ne_zero_of_lt hfuel)
      rw [hloop]
      cases hrest with
      | nil =>
          rw [List.intercalate_singleton] at hfuel ⊢
          refine (bind_eq (hread fuel _ (by omega) (ends_cons hends))).trans ?_
          refine (skipSpace_cons hspace).trans ((onHead_neg ?_).trans (map_eq (one_beq closing _)))
          rintro c ⟨rfl⟩
          exact hcomma
      | @cons t' v' texts values hread' hrest =>
          have hjoin : [','].intercalate (t :: t' :: texts) =
              t ++ ',' :: [','].intercalate (t' :: texts) := by
            simp [List.intercalate_cons_of_ne_nil]
          rw [hjoin] at hfuel ⊢
          rw [List.length_append, List.length_cons] at hfuel
          have hfuel' : 2 * ([','].intercalate (t' :: texts)).length + 2 ≤ fuel := by omega
          have hmore := ih (List.cons_ne_nil _ _) hfuel'
          rw [List.append_assoc, List.cons_append]
          refine (bind_eq (hread fuel _ (by omega) (ends_cons rfl))).trans ?_
          refine (skipSpace_cons rfl).trans ((onHead_pos rfl).trans ?_)
          exact (bind_eq (one_cons rfl)).trans (map_eq hmore)

/-- Between its brackets, a list may be empty. -/
theorem bracketed_join {items : Reader Char (List α)} {opening closing : Char}
    (hspace : isJsonSpace closing = false) {texts : List (List Char)} {values : List α}
    (hlen : texts.length = values.length)
    (hhead : ∀ t ∈ texts, ∃ c cs, t = c :: cs ∧ isJsonSpace c = false ∧ (c == closing) = false)
    (hitems : texts ≠ [] → items ([','].intercalate texts ++ closing :: rest) =
      some (values, rest)) :
    bracketed opening closing items
      ((opening :: [','].intercalate texts ++ [closing]) ++ rest) = some (values, rest) := by
  have htext : (opening :: [','].intercalate texts ++ [closing]) ++ rest =
      opening :: ([','].intercalate texts ++ closing :: rest) := by simp
  rw [htext]
  refine (bind_eq (one_beq opening _)).trans ?_
  cases texts with
  | nil =>
      obtain rfl : values = [] := List.length_eq_zero_iff.mp hlen.symm
      refine (skipSpace_cons hspace).trans ((onHead_pos (beq_self_eq_true closing)).trans ?_)
      exact map_eq (one_beq closing _)
  | cons t texts =>
      have hread := hitems (List.cons_ne_nil _ _)
      obtain ⟨c, cs, rfl, hcspace, hcclosing⟩ := hhead t List.mem_cons_self
      obtain ⟨cs', hcs'⟩ : ∃ cs', [','].intercalate ((c :: cs) :: texts) = c :: cs' := by
        cases texts with
        | nil => exact ⟨cs, List.intercalate_singleton⟩
        | cons t' texts => exact ⟨_, List.intercalate_cons_of_ne_nil (List.cons_ne_nil _ _)⟩
      rw [hcs'] at hread ⊢
      refine (skipSpace_cons hcspace).trans ((onHead_neg ?_).trans hread)
      rintro d ⟨rfl⟩
      exact hcclosing

end Lists

/-! ### Values -/

/-- `text` is a value's; it does not begin with what would close an array. -/
structure ReadsValue (text : List Char) (w : JsValue) : Prop where
  head : ∃ c cs, text = c :: cs ∧ isJsonSpace c = false ∧ (c == ']') = false
  reads : Reads readValue text w

/-- `text` is a member's. -/
structure ReadsMember (text : List Char) (member : String × JsValue) : Prop where
  head : ∃ c cs, text = c :: cs ∧ isJsonSpace c = false ∧ (c == '}') = false
  reads : Reads (fun fuel => readMember (readString fuel) (readValue fuel)) text member

theorem readsValue_null : ReadsValue ['n', 'u', 'l', 'l'] .null := by
  refine ⟨⟨_, _, rfl, rfl, rfl⟩, fun fuel rest hfuel _ => ?_⟩
  obtain ⟨fuel, rfl⟩ := Nat.exists_eq_succ_of_ne_zero (Nat.ne_zero_of_lt hfuel)
  rfl

theorem readsValue_true : ReadsValue ['t', 'r', 'u', 'e'] (.bool true) := by
  refine ⟨⟨_, _, rfl, rfl, rfl⟩, fun fuel rest hfuel _ => ?_⟩
  obtain ⟨fuel, rfl⟩ := Nat.exists_eq_succ_of_ne_zero (Nat.ne_zero_of_lt hfuel)
  rfl

theorem readsValue_false : ReadsValue ['f', 'a', 'l', 's', 'e'] (.bool false) := by
  refine ⟨⟨_, _, rfl, rfl, rfl⟩, fun fuel rest hfuel _ => ?_⟩
  obtain ⟨fuel, rfl⟩ := Nat.exists_eq_succ_of_ne_zero (Nat.ne_zero_of_lt hfuel)
  rfl

theorem readsValue_string (s : String) : ReadsValue (quote s) (.string s) := by
  refine ⟨⟨_, _, rfl, rfl, rfl⟩, fun fuel rest hfuel hrest => ?_⟩
  obtain ⟨fuel, rfl⟩ := Nat.exists_eq_succ_of_ne_zero (Nat.ne_zero_of_lt hfuel)
  refine (skipSpace_cons rfl).trans ((onHead_pos rfl).trans (map_eq ?_))
  exact readString_quote s (by omega)

/-- What a number begins with begins no other value. -/
theorem number_head {c : Char} (hc : c.isDigit = true ∨ c = '-') :
    isJsonSpace c = false ∧ (c == ']') = false ∧ isQuote c = false ∧ (c == '[') = false ∧
      (c == '{') = false ∧ (c == 't') = false ∧ (c == 'f') = false ∧ (c == 'n') = false := by
  have hne {d : Char} (hd : d.isDigit = false) (hd' : d ≠ '-') : (c == d) = false := by
    refine beq_false_of_ne ?_
    rintro rfl
    rcases hc with hc | hc
    · exact Bool.noConfusion (hc.symm.trans hd)
    · exact hd' hc
  simp only [isJsonSpace, isQuote, hne (d := ' ') rfl (by decide), hne (d := '\t') rfl (by decide),
    hne (d := '\n') rfl (by decide), hne (d := '\r') rfl (by decide),
    hne (d := ']') rfl (by decide), hne (d := '"') rfl (by decide), hne (d := '[') rfl (by decide),
    hne (d := '{') rfl (by decide), hne (d := 't') rfl (by decide), hne (d := 'f') rfl (by decide),
    hne (d := 'n') rfl (by decide), Bool.or_self, and_self]

theorem readsValue_numeral {m : Numeral} (hm : m.WellFormed) :
    ReadsValue m.text (.number m.number) := by
  obtain ⟨c, cs, hc, hhead⟩ := Numeral.head_text hm
  obtain ⟨hspace, hclosing, hquote, harray, hobject, ht, hf, hn⟩ := number_head hhead
  refine ⟨⟨c, cs, hc, hspace, hclosing⟩, fun fuel rest hfuel hrest => ?_⟩
  obtain ⟨fuel, rfl⟩ := Nat.exists_eq_succ_of_ne_zero (Nat.ne_zero_of_lt hfuel)
  have hread : readNumber (m.text ++ rest) = some (m.number, rest) :=
    map_eq (readNumeral_text hm hrest)
  have hneg {p : Char → Bool} (h : p c = false) : ∀ d ∈ (c :: (cs ++ rest)).head?, p d = false := by
    rintro d ⟨rfl⟩
    exact h
  rw [hc, List.cons_append] at hread ⊢
  refine (skipSpace_cons hspace).trans ((onHead_neg (hneg hquote)).trans ?_)
  refine (onHead_neg (hneg harray)).trans ((onHead_neg (hneg hobject)).trans ?_)
  refine (onHead_neg (hneg ht)).trans ((onHead_neg (hneg hf)).trans ?_)
  exact (onHead_neg (hneg hn)).trans (map_eq hread)

/-- A finite number in a text is read back. -/
theorem readsValue_number (N : NumberToString) {x : ℚ} (hx : Binary64.IsDouble |x|) :
    ReadsValue (N.text x) (.number (.finite x)) := by
  have hread := readsValue_numeral (N.numeral_wellFormed hx)
  rwa [N.number_numeral hx] at hread

theorem readsValue_array {texts : List (List Char)} {values : List JsValue}
    (h : List.Forall₂ ReadsValue texts values) :
    ReadsValue ('[' :: [','].intercalate texts ++ [']']) (.array values) := by
  refine ⟨⟨_, _, rfl, rfl, rfl⟩, fun fuel rest hfuel hrest => ?_⟩
  obtain ⟨fuel, rfl⟩ := Nat.exists_eq_succ_of_ne_zero (Nat.ne_zero_of_lt hfuel)
  refine (skipSpace_cons rfl).trans ((onHead_neg ?_).trans ((onHead_pos rfl).trans (map_eq ?_)))
  · rintro c ⟨rfl⟩
    rfl
  obtain ⟨hhead, hreads⟩ := (List.forall₂_and_left texts values).mp
    (h.imp fun _ _ hw => ⟨hw.head, hw.reads⟩)
  refine bracketed_join rfl h.length_eq hhead fun hne => ?_
  refine loop_join (fun n => rfl) rfl rfl rfl hreads hne ?_
  simp only [List.length_append, List.length_cons, List.length_nil] at hfuel
  omega

/-- Members in any order, and a name more than once. -/
theorem readsValue_members {texts : List (List Char)} {fields : List (String × JsValue)}
    (h : List.Forall₂ ReadsMember texts fields) :
    ReadsValue ('{' :: [','].intercalate texts ++ ['}']) (.object (ofMembers fields)) := by
  refine ⟨⟨_, _, rfl, rfl, rfl⟩, fun fuel rest hfuel hrest => ?_⟩
  obtain ⟨fuel, rfl⟩ := Nat.exists_eq_succ_of_ne_zero (Nat.ne_zero_of_lt hfuel)
  have hmembers : bracketed '{' '}' (readMembers fuel)
      (('{' :: [','].intercalate texts ++ ['}']) ++ rest) = some (fields, rest) := by
    obtain ⟨hhead, hreads⟩ := (List.forall₂_and_left texts fields).mp
      (h.imp fun _ _ hw => ⟨hw.head, hw.reads⟩)
    refine bracketed_join rfl h.length_eq hhead fun hne => ?_
    refine loop_join (fun n => rfl) rfl rfl rfl hreads hne ?_
    simp only [List.length_append, List.length_cons, List.length_nil] at hfuel
    omega
  refine (skipSpace_cons rfl).trans ((onHead_neg ?_).trans ((onHead_neg ?_).trans
    ((onHead_pos rfl).trans (map_eq hmembers))))
  · rintro c ⟨rfl⟩
    rfl
  · rintro c ⟨rfl⟩
    rfl

theorem readsValue_object {texts : List (List Char)} {fields : List (String × JsValue)}
    (h : List.Forall₂ ReadsMember texts fields) (hfields : OwnOrder fields) :
    ReadsValue ('{' :: [','].intercalate texts ++ ['}']) (.object fields) := by
  have hread := readsValue_members h
  rwa [ofMembers_eq_self hfields] at hread

theorem readsMember {text : List Char} {w : JsValue} (h : ReadsValue text w) (name : String) :
    ReadsMember (quote name ++ ':' :: text) (name, w) := by
  refine ⟨⟨_, _, rfl, rfl, rfl⟩, fun fuel rest hfuel hrest => ?_⟩
  rw [List.length_append, List.length_cons] at hfuel
  have hname : readString fuel (quote name ++ ':' :: (text ++ rest)) =
      some (name, ':' :: (text ++ rest)) := readString_quote name (by omega)
  have hvalue := h.reads fuel rest (by omega) hrest
  have htext : (quote name ++ ':' :: text) ++ rest = quote name ++ ':' :: (text ++ rest) := by simp
  rw [htext]
  refine (skipSpace_cons rfl).trans ((bind_eq hname).trans ?_)
  exact (skipSpace_cons rfl).trans ((bind_eq (one_beq ':' _)).trans (map_eq hvalue))

variable (N : NumberToString)

theorem text_zero : N.text 0 = ['0'] := by
  simp [NumberToString.text, NumberToString.numeral, Numeral.text, Numeral.fracText,
    Numeral.exponentText]

mutual

/-- What is written of a value is read as what JSON keeps of it. -/
theorem readsValue_stringify : ∀ {v w : JsValue}, Ordinary v → jsonify v = some w →
    ∃ text, stringify N.text v = some text ∧ ReadsValue text w
  | .undefined, _, _, hw => by simp at hw
  | .null, _, _, hw => by
      obtain rfl : JsValue.null = _ := by simpa using hw
      exact ⟨_, by rw [stringify], readsValue_null⟩
  | .bool true, _, _, hw => by
      obtain rfl : JsValue.bool true = _ := by simpa using hw
      exact ⟨_, by rw [stringify], readsValue_true⟩
  | .bool false, _, _, hw => by
      obtain rfl : JsValue.bool false = _ := by simpa using hw
      exact ⟨_, by rw [stringify], readsValue_false⟩
  | .string s, _, _, hw => by
      obtain rfl : JsValue.string s = _ := by simpa using hw
      exact ⟨_, by rw [stringify], readsValue_string s⟩
  | .number n, _, hv, hw => by
      obtain rfl : n.jsonify = _ := by simpa using hw
      cases hv with
      | number hn =>
          cases n with
          | nan => exact ⟨_, by rw [stringify], readsValue_null⟩
          | infinity negative => exact ⟨_, by rw [stringify], readsValue_null⟩
          | negativeZero =>
              exact ⟨_, by rw [stringify], text_zero N ▸ readsValue_number N
                (abs_zero (α := ℚ) ▸ Binary64.isDouble_zero)⟩
          | finite q => exact ⟨_, by rw [stringify], readsValue_number N hn⟩
  | .array items, _, hv, hw => by
      obtain rfl : JsValue.array (jsonifyItems items) = _ := by simpa using hw
      cases hv with
      | array hitems => exact ⟨_, by rw [stringify], readsValue_array (readsItems hitems)⟩
  | .object fields, _, hv, hw => by
      obtain rfl : JsValue.object (jsonifyFields fields) = _ := by simpa using hw
      cases hv with
      | object horder hfields =>
          exact ⟨_, by rw [stringify], readsValue_object (readsFields hfields)
            (horder.sublist (names_jsonifyFields fields))⟩

theorem readsItems : ∀ {items : List JsValue}, (∀ item ∈ items, Ordinary item) →
    List.Forall₂ ReadsValue (stringifyItems N.text items) (jsonifyItems items)
  | [], _ => by
      rw [stringifyItems, jsonifyItems_nil]
      exact .nil
  | item :: items, h => by
      obtain ⟨hitem, hitems⟩ := List.forall_mem_cons.mp h
      rw [stringifyItems, jsonifyItems_cons]
      refine .cons ?_ (readsItems hitems)
      cases hw : jsonify item with
      | none =>
          rw [jsonify_eq_none.mp hw, stringify]
          exact readsValue_null
      | some w =>
          obtain ⟨text, htext, hread⟩ := readsValue_stringify hitem hw
          rw [htext]
          exact hread

theorem readsFields : ∀ {fields : List (String × JsValue)},
    (∀ field ∈ fields, Ordinary field.2) →
      List.Forall₂ ReadsMember (stringifyFields N.text fields) (jsonifyFields fields)
  | [], _ => by
      rw [stringifyFields, jsonifyFields_nil]
      exact .nil
  | (name, value) :: fields, h => by
      obtain ⟨hvalue, hfields⟩ := List.forall_mem_cons.mp h
      have hrest := readsFields hfields
      rw [stringifyFields, jsonifyFields_cons]
      cases hw : jsonify value with
      | none =>
          rw [jsonify_eq_none.mp hw, stringify]
          exact hrest
      | some w =>
          obtain ⟨text, htext, hread⟩ := readsValue_stringify hvalue hw
          rw [htext]
          exact .cons (readsMember hread name) hrest

end

mutual

/-- What JSON keeps of a value has the text of the value. -/
theorem stringify_jsonify : ∀ {v w : JsValue}, jsonify v = some w →
    stringify N.text v = stringify N.text w
  | .undefined, _, hw => by simp at hw
  | .null, _, hw | .bool _, _, hw | .string _, _, hw => by
      cases hw
      rfl
  | .number n, _, hw => by
      cases hw
      cases n <;> simp [JsNumber.jsonify, stringify, text_zero]
  | .array items, _, hw => by
      cases hw
      rw [stringify, stringify, stringifyItems_jsonify items]
  | .object fields, _, hw => by
      cases hw
      rw [stringify, stringify, stringifyFields_jsonify fields]

theorem stringifyItems_jsonify : ∀ items : List JsValue,
    stringifyItems N.text items = stringifyItems N.text (jsonifyItems items)
  | [] => by rw [jsonifyItems_nil]
  | item :: items => by
      rw [jsonifyItems_cons, stringifyItems, stringifyItems, stringifyItems_jsonify items]
      cases hw : jsonify item with
      | none => rw [jsonify_eq_none.mp hw]; rfl
      | some w => rw [stringify_jsonify hw]; rfl

theorem stringifyFields_jsonify : ∀ fields : List (String × JsValue),
    stringifyFields N.text fields = stringifyFields N.text (jsonifyFields fields)
  | [] => by rw [jsonifyFields_nil]
  | (name, value) :: fields => by
      rw [jsonifyFields_cons, stringifyFields]
      cases hw : jsonify value with
      | none =>
          rw [jsonify_eq_none.mp hw, stringify]
          exact stringifyFields_jsonify fields
      | some w =>
          rw [stringify_jsonify hw, stringifyFields_jsonify fields, Option.map_some,
            Option.toList_some, List.singleton_append, stringifyFields]

end

theorem ReadsValue.whole {text : List Char} {w : JsValue} (h : ReadsValue text w) :
    readValue (2 * text.length + 1) text = some (w, []) := by
  have hread := h.reads (2 * text.length + 1) [] le_rfl (by rintro c ⟨⟩)
  rwa [List.append_nil] at hread

theorem ReadsValue.parse_eq {text : List Char} {w : JsValue} (h : ReadsValue text w) :
    parse text = some w := by
  rw [parse, h.whole]
  rfl

/-- **What is written is read back**, as JSON has it. -/
theorem parse_stringify {v w : JsValue} (hv : Ordinary v) (hw : jsonify v = some w) :
    ∃ text, stringify N.text v = some text ∧ parse text = some w := by
  obtain ⟨text, htext, hread⟩ := readsValue_stringify N hv hw
  exact ⟨text, htext, hread.parse_eq⟩

/-! ### The text of an object by its fields -/

theorem stringifyFields_append (fields others : List (String × JsValue)) :
    stringifyFields N.text (fields ++ others) =
      stringifyFields N.text fields ++ stringifyFields N.text others := by
  induction fields with
  | nil => rw [List.nil_append, stringifyFields, List.nil_append]
  | cons field fields ih =>
      obtain ⟨name, value⟩ := field
      rw [List.cons_append, stringifyFields, stringifyFields]
      cases stringify N.text value with
      | none => exact ih
      | some text => exact congrArg _ ih

/-- What stands around one of several texts. -/
theorem intercalate_split (texts others : List (List Char)) : ∃ before after, ∀ text,
    [','].intercalate (texts ++ text :: others) = before ++ (text ++ after) := by
  induction texts with
  | nil =>
      cases others with
      | nil => exact ⟨[], [], fun text => by simp⟩
      | cons other others =>
          refine ⟨[], ',' :: [','].intercalate (other :: others), fun text => ?_⟩
          simp [List.intercalate_cons_of_ne_nil]
  | cons first texts ih =>
      obtain ⟨before, after, heq⟩ := ih
      refine ⟨first ++ ',' :: before, after, fun text => ?_⟩
      rw [List.cons_append, List.intercalate_cons_of_ne_nil (by simp), heq]
      simp

/-- **What stands around one field** of an object. -/
theorem stringify_split (fields others : List (String × JsValue)) : ∃ before after,
    ∀ name v text, stringify N.text v = some text →
      stringify N.text (.object (fields ++ (name, v) :: others)) =
        some (before ++ (quote name ++ ':' :: (text ++ after))) := by
  obtain ⟨before, after, heq⟩ := intercalate_split (stringifyFields N.text fields)
    (stringifyFields N.text others)
  refine ⟨'{' :: before, after ++ ['}'], fun name v text htext => ?_⟩
  rw [stringify, stringifyFields_append, stringifyFields, htext]
  simp [heq]

/-- An object whose names are not in order, or not unique. -/
theorem parse_fields {fields : List (String × JsValue)}
    (h : ∀ field ∈ fields, Ordinary field.2) : ∃ text,
    stringify N.text (.object fields) = some text ∧
      parse text = some (.object (ofMembers (jsonifyFields fields))) :=
  ⟨_, by rw [stringify], (readsValue_members (readsFields N h)).parse_eq⟩

theorem mem_names_put {fields : List (String × JsValue)} {name k : String} {v : JsValue}
    (h : k ∈ (put fields name v).map Prod.fst) : k = name ∨ k ∈ fields.map Prod.fst := by
  unfold put at h
  split at h
  next =>
    obtain ⟨field', hfield', rfl⟩ := List.mem_map.mp h
    obtain ⟨field, hfield, rfl⟩ := List.mem_map.mp hfield'
    split
    next => exact .inl rfl
    next => exact .inr (List.mem_map_of_mem hfield)
  next =>
    rw [List.map_append, List.map_cons, List.mem_append, List.mem_cons] at h
    rcases h with h | rfl | h
    · exact .inr (List.map_subset _ (List.takeWhile_subset _) h)
    · exact .inl rfl
    · exact .inr (List.map_subset _ (List.dropWhile_subset _) h)

/-- An object has the names of its members. -/
theorem mem_names_ofMembers {members : List (String × JsValue)} {k : String}
    (h : k ∈ (ofMembers members).map Prod.fst) : k ∈ members.map Prod.fst := by
  induction members using List.reverseRecOn with
  | nil => exact h
  | append_singleton members member ih =>
      rw [ofMembers, List.foldl_append, List.foldl_cons, List.foldl_nil] at h
      rw [List.map_append, List.mem_append]
      rcases mem_names_put h with rfl | h
      · exact .inr (List.mem_singleton_self _)
      · exact .inl (ih h)

/-! ### Texts that are cut -/

/-- The members of an object end with its brace. -/
theorem endsWith_readMembers : ∀ fuel, EndsWith '}' (readMembers fuel)
  | 0 => fun _ _ _ h => (Option.some_ne_none _ h.symm).elim
  | fuel + 1 => by
      have hmember := stable_readMember (closed_readString fuel).stable (stable_readValue fuel).1
      rw [readMembers, listed]
      refine .bind hmember fun member => ?_
      rw [skipSpace]
      refine .bind (stable_span _) fun _ => .onHead ?_ ?_
      · exact .bind (closed_one _).stable fun _ => (endsWith_readMembers fuel).map
      · exact (endsWith_one '}').map

theorem endsWith_bracketed (fuel : ℕ) : EndsWith '}' (bracketed '{' '}' (readMembers fuel)) :=
  .bind (closed_one _).stable fun _ => .bind (stable_span _) fun _ =>
    (endsWith_one '}').map.onHead (endsWith_readMembers fuel)

/-- What begins with a brace is an object. -/
theorem readValue_brace (fuel : ℕ) (s : List Char) : readValue (fuel + 1) ('{' :: s) =
    map (fun members => .object (ofMembers members)) (bracketed '{' '}' (readMembers fuel))
      ('{' :: s) := by
  refine (skipSpace_cons rfl).trans ((onHead_neg ?_).trans ((onHead_neg ?_).trans (onHead_pos rfl)))
  · rintro c ⟨rfl⟩
    rfl
  · rintro c ⟨rfl⟩
    rfl

/-- An object is closed, and ends with its brace. -/
theorem readValue_object {fuel : ℕ} {s rest : List Char} {v : JsValue}
    (h : readValue fuel ('{' :: s) = some (v, rest)) :
    (∃ u, '{' :: s = u ++ '}' :: rest) ∧
      ∀ t, readValue fuel ('{' :: s ++ t) = some (v, rest ++ t) := by
  cases fuel with
  | zero => exact (Option.some_ne_none _ h.symm).elim
  | succ fuel =>
      rw [readValue_brace] at h
      refine ⟨(endsWith_bracketed fuel).map _ _ _ h, fun t => ?_⟩
      rw [List.cons_append, readValue_brace]
      exact ((closed_bracketed (stable_readValue fuel).2.2 (readMembers_nil fuel)).map _ _ _ h).2 t

theorem parse_eq_some {text : List Char} {v : JsValue} (h : parse text = some v) :
    ∃ rest, readValue (2 * text.length + 1) text = some (v, rest) ∧
      ∀ c ∈ rest, isJsonSpace c = true := by
  unfold parse at h
  split at h
  next w rest hread =>
    split at h
    next hall =>
      obtain rfl := Option.some.inj h
      exact ⟨rest, hread, List.all_eq_true.mp hall⟩
    next => cases h
  next => cases h

/-- **A text that is cut is not read.**  The text of an object is cut, and something that is no text
by itself may stand behind the cut. -/
theorem parse_cut {text kept lost junk : List Char} {v : JsValue}
    (hread : readValue (2 * text.length + 1) text = some (v, []))
    (hopen : text.head? = some '{') (hcut : text = kept ++ lost) (hlost : lost ≠ [])
    (hjunk : parse junk = none) (hlast : ∀ c ∈ junk.getLast?, isJsonSpace c = false ∧ c ≠ '}') :
    parse (kept ++ junk) = none := by
  cases kept with
  | nil => exact hjunk
  | cons c kept =>
      obtain rfl : c = '{' := by
        rw [hcut] at hopen
        exact Option.some.inj hopen
      by_contra hsome
      obtain ⟨w, hw⟩ := Option.ne_none_iff_exists'.mp hsome
      obtain ⟨rest, hrest, hspace⟩ := parse_eq_some hw
      obtain ⟨⟨u, hu⟩, hclosed⟩ := readValue_object hrest
      rcases List.eq_nil_or_concat junk with rfl | ⟨init, last, rfl⟩
      · -- nothing behind the cut: the object would end before the text does
        rw [List.append_nil] at hrest
        have hlen : kept.length + 1 ≤ text.length := by simp [hcut]
        rw [(readValue_fuel _).1 le_rfl (m := 2 * text.length + 1)
          (by simp only [List.length_cons]; omega)] at hrest
        have hwhole := (readValue_object hrest).2 lost
        rw [← hcut, hread] at hwhole
        have hnil : [] = rest ++ lost := (Prod.mk.inj (Option.some.inj hwhole)).2
        exact hlost (List.append_eq_nil_iff.mp hnil.symm).2
      · -- the last character would have to be the brace, or white space behind it
        obtain ⟨hnospace, hnobrace⟩ := hlast last (by simp)
        have hends := congrArg List.getLast? hu
        rw [List.concat_eq_append, List.append_eq, ← List.append_assoc, ← List.cons_append,
          List.getLast?_concat] at hends
        rcases List.eq_nil_or_concat rest with rfl | ⟨init', last', rfl⟩
        · rw [List.getLast?_concat] at hends
          exact hnobrace (Option.some.inj hends)
        · rw [List.concat_eq_append, ← List.cons_append, ← List.append_assoc,
            List.getLast?_concat] at hends
          have hlast' := hspace last' (by simp)
          rw [← Option.some.inj hends, hnospace] at hlast'
          cases hlast'

end NestDdd

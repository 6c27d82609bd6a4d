import NestDdd.Shared.Cursor

/-!
# Shared — cursors with one other character

A token carries nothing that vouches for its payload.  One character of it reaches six bits, and
inside a value these can turn one text of JSON into another.

* `exists_oneOff_quote`: a string that is not empty has another beside it, wherever it stands.
* `detected_iff`: the payloads all of whose tampered tokens are rejected.
-/

namespace NestDdd

open JsValue Base64url

/-- Whatever one character of its token is replaced by, the token is rejected, or still decoded to
the payload. -/
def Detected (N : NumberToString) (payload : CursorPayload) : Prop :=
  ∀ before c c' after, encodeCursor N payload = before ++ c :: after → isDigit c' = true → c' ≠ c →
    ∀ v, decodeCursor (before ++ c' :: after) = some v → v = payload.toJs

/-! ### Texts whose tokens differ in one character -/

def OneOff (text text' : List Char) : Prop := Edited (Utf8.encode text) (Utf8.encode text')

section

variable {before after : List Char} {c d : Char}

theorem utf8_split (init : List UInt8) {a : UInt8} (h : String.utf8EncodeChar c = init ++ [a]) :
    Utf8.encode (before ++ c :: after) =
      (Utf8.encode before ++ init) ++ a :: Utf8.encode after := by
  rw [Utf8.encode_append, Utf8.encode_cons, h]
  simp

theorem oneOff_low (h : c.toNat / 4 = d.toNat / 4) (hne : c ≠ d) :
    OneOff (before ++ c :: after) (before ++ d :: after) := by
  obtain ⟨init, a, b, hc, hd, hne, hlow⟩ := Utf8.encodeChar_low h hne
  rw [OneOff, utf8_split init hc, utf8_split init hd]
  exact edited_low _ _ hne hlow

/-- A quote behind a backslash. -/
theorem oneOff_quote : OneOff (before ++ '"' :: after) (before ++ 'b' :: after) := by
  rw [OneOff, utf8_split [] (a := 0x22) rfl, utf8_split [] (a := 0x62) rfl]
  exact edited_high _ _ (by decide) rfl

/-- Two backslashes: the character that they share is replaced, if they do; else one of the second's
own. -/
theorem oneOff_backslash : ∃ cs, cs ≠ ['\\'] ∧
    OneOff (before ++ '\\' :: '\\' :: after) (before ++ (cs.flatMap escape ++ after)) := by
  have hencode (x y : Char) (a b : UInt8) (hx : String.utf8EncodeChar x = [a])
      (hy : String.utf8EncodeChar y = [b]) : Utf8.encode (before ++ x :: y :: after) =
        Utf8.encode before ++ a :: b :: Utf8.encode after := by
    rw [Utf8.encode_append, Utf8.encode_cons, Utf8.encode_cons, hx, hy]
    rfl
  by_cases hphase : (Utf8.encode before).length % 3 = 0
  · refine ⟨[']', ','], by decide, ?_⟩
    have htext : [']', ','].flatMap escape ++ after = ']' :: ',' :: after := rfl
    rw [htext, OneOff, hencode '\\' '\\' 0x5C 0x5C rfl rfl, hencode ']' ',' 0x5D 0x2C rfl rfl]
    exact edited_pair _ _ hphase rfl (by decide) rfl
  · refine ⟨['\t'], by decide, ?_⟩
    have htext : ['\t'].flatMap escape ++ after = '\\' :: 't' :: after := rfl
    have hsplit (b : UInt8) : Utf8.encode before ++ 0x5C :: b :: Utf8.encode after =
        (Utf8.encode before ++ [0x5C]) ++ b :: Utf8.encode after := by simp
    rw [htext, OneOff, hencode '\\' '\\' 0x5C 0x5C rfl rfl, hencode '\\' 't' 0x5C 0x74 rfl rfl,
      hsplit, hsplit]
    refine edited_byte _ _ (by decide) ?_
    rw [List.length_append, List.length_singleton]
    have hlt := Nat.mod_lt (Utf8.encode before).length (by decide : 3 > 0)
    obtain hmod | hmod : ((Utf8.encode before).length + 1) % 3 = 2 ∨
        ((Utf8.encode before).length + 1) % 3 = 0 := by omega
    · rw [hmod]
      exact .inl rfl
    · rw [hmod]
      exact .inr rfl

/-- An escape, without its backslash. -/
theorem oneOff_escape (x : Char) (xs : List Char) (h : escape c = '\\' :: x :: xs)
    (hplain : (x :: xs).flatMap escape = x :: xs) :
    ∃ cs, cs ≠ [c] ∧
      OneOff (before ++ (escape c ++ after)) (before ++ (cs.flatMap escape ++ after)) := by
  have htext : (']' :: x :: xs).flatMap escape = ']' :: x :: xs := by
    rw [List.flatMap_cons, hplain]
    rfl
  refine ⟨']' :: x :: xs, by simp, ?_⟩
  rw [h, htext]
  exact oneOff_low rfl (by decide)

/-- A character that is not escaped has one beside it that is not either. -/
theorem exists_neighbour (hc : 32 ≤ c.toNat) : ∃ d, d ≠ c ∧ c.toNat / 4 = d.toNat / 4 ∧
    escape d = [d] := by
  have hvalid : c.toNat < 0xD800 ∨ 0xDFFF < c.toNat ∧ c.toNat < 0x110000 := c.valid
  -- neither the quote nor the backslash has an odd code that ends like this
  have hplain {n : ℕ} (hlow : c.toNat / 4 = n / 4) (hodd : n % 4 = 1 ∨ n % 4 = 3)
      (hne : n ≠ c.toNat) :
      ∃ d : Char, d ≠ c ∧ c.toNat / 4 = d.toNat / 4 ∧ escape d = [d] := by
    have hn : n.isValidChar := by
      unfold Nat.isValidChar
      omega
    have hnat : (Char.ofNat n).toNat = n := by
      rw [Char.ofNat, dif_pos hn]
      rfl
    refine ⟨Char.ofNat n, fun h => hne (by rw [← h, hnat]), by rw [hnat, hlow], ?_⟩
    have hquote : Char.ofNat n ≠ '"' := fun h => by
      have h34 : n = 34 := by rw [← hnat, h]; rfl
      omega
    have hbackslash : Char.ofNat n ≠ '\\' := fun h => by
      have h92 : n = 92 := by rw [← hnat, h]; rfl
      omega
    rw [escape, if_neg hquote, if_neg hbackslash, hnat, if_neg (by omega), if_neg (by omega),
      if_neg (by omega), if_neg (by omega), if_neg (by omega), if_neg (by omega)]
  by_cases hone : c.toNat % 4 = 1
  · exact hplain (n := c.toNat + 2) (by omega) (by omega) (by omega)
  · exact hplain (n := c.toNat / 4 * 4 + 1) (by omega) (by omega) (by omega)

theorem hexDigit_plain : ∀ n < 16, escape (hexDigit n) = [hexDigit n] := by decide

/-- **A character of a string** has other text beside its own. -/
theorem exists_oneOff_char (before after : List Char) (c : Char) : ∃ cs, cs ≠ [c] ∧
    OneOff (before ++ (escape c ++ after)) (before ++ (cs.flatMap escape ++ after)) := by
  by_cases hquote : c = '"'
  · subst hquote
    have hsplit (x : Char) : before ++ '\\' :: x :: after = (before ++ ['\\']) ++ x :: after := by
      simp
    refine ⟨['\x08'], by decide, ?_⟩
    have htext : ['\x08'].flatMap escape ++ after = '\\' :: 'b' :: after := rfl
    have hescape : escape '"' ++ after = '\\' :: '"' :: after := rfl
    rw [htext, hescape, hsplit, hsplit]
    exact oneOff_quote
  by_cases hbackslash : c = '\\'
  · subst hbackslash
    exact oneOff_backslash
  by_cases hsmall : c.toNat < 32
  · have hc := Char.ofNat_toNat c
    by_cases h8 : c.toNat = 8
    · exact oneOff_escape 'b' [] (by rw [← hc, h8]; decide) (by decide)
    by_cases h9 : c.toNat = 9
    · exact oneOff_escape 't' [] (by rw [← hc, h9]; decide) (by decide)
    by_cases h10 : c.toNat = 10
    · exact oneOff_escape 'n' [] (by rw [← hc, h10]; decide) (by decide)
    by_cases h12 : c.toNat = 12
    · exact oneOff_escape 'f' [] (by rw [← hc, h12]; decide) (by decide)
    by_cases h13 : c.toNat = 13
    · exact oneOff_escape 'r' [] (by rw [← hc, h13]; decide) (by decide)
    have hescape : escape c =
        ['\\', 'u', '0', '0', hexDigit (c.toNat / 16), hexDigit (c.toNat % 16)] := by
      rw [escape, if_neg hquote, if_neg hbackslash, if_neg h8, if_neg h9, if_neg h10, if_neg h12,
        if_neg h13, if_pos hsmall]
    refine oneOff_escape 'u' _ hescape ?_
    simp only [List.flatMap_cons, List.flatMap_nil, hexDigit_plain _ (by omega : c.toNat / 16 < 16),
      hexDigit_plain _ (by omega : c.toNat % 16 < 16)]
    rfl
  · obtain ⟨d, hne, hlow, hplain⟩ := exists_neighbour (not_lt.mp hsmall)
    have hescape : escape c = [c] := by
      rw [escape, if_neg hquote, if_neg hbackslash, if_neg (by omega), if_neg (by omega),
        if_neg (by omega), if_neg (by omega), if_neg (by omega), if_neg hsmall]
    refine ⟨[d], fun h => hne (List.singleton_inj.mp h), ?_⟩
    rw [hescape, List.flatMap_singleton, hplain]
    exact oneOff_low hlow hne.symm

/-- **A string that is not empty** has another beside it. -/
theorem exists_oneOff_quote (before after : List Char) {s : String} (hs : s ≠ "") : ∃ s', s' ≠ s ∧
    OneOff (before ++ (quote s ++ after)) (before ++ (quote s' ++ after)) := by
  obtain ⟨c, cs, hcs⟩ : ∃ c cs, s.toList = c :: cs :=
    List.exists_cons_of_ne_nil fun h => hs (String.toList_eq_nil_iff.mp h)
  obtain ⟨ds, hds, honeOff⟩ := exists_oneOff_char (before ++ ['"'])
    (cs.flatMap escape ++ '"' :: after) c
  refine ⟨String.ofList (ds ++ cs), fun h => hds ?_, ?_⟩
  · have hlist := congrArg String.toList h
    rw [String.toList_ofList, hcs] at hlist
    exact List.append_cancel_right (hlist.trans (List.singleton_append).symm)
  · have hquote (t : String) (ts : List Char) (h : t.toList = ts ++ cs) :
        before ++ (quote t ++ after) =
          (before ++ ['"']) ++ (ts.flatMap escape ++ (cs.flatMap escape ++ '"' :: after)) := by
      rw [quote, h, List.flatMap_append]
      simp
    rw [hquote s [c] hcs, hquote _ ds String.toList_ofList, List.flatMap_singleton]
    exact honeOff

end

/-! ### Payloads that can be changed -/

section

variable (N : NumberToString) {payload : CursorPayload}

theorem CursorValue.exists_text (v : CursorValue) :
    ∃ text, stringify N.text v.toJs = some text := by
  cases v with
  | string s => exact ⟨_, by rw [toJs, stringify]⟩
  | number n => cases n <;> exact ⟨_, by rw [toJs, stringify]⟩
  | boolean b => cases b <;> exact ⟨_, by rw [toJs, stringify]⟩
  | null => exact ⟨_, by rw [toJs, stringify]⟩

/-- One other text that is read as something else. -/
theorem not_detected {text text' : List Char} {v : JsValue}
    (htext : stringify N.text payload.toJs = some text) (h : OneOff text text')
    (hparse : parse text' = some v) (hne : v ≠ payload.toJs) : ¬ Detected N payload := by
  obtain ⟨before, c, c', after, hc', hcc', hencode, hencode'⟩ := h.encode
  intro hdetected
  have htoken : encodeCursor N payload = before ++ c :: after := by
    rw [encodeCursor, htext, Option.getD_some, hencode]
  refine hne (hdetected before c c' after htoken hc' hcc'.symm v ?_)
  rw [← hencode', decodeCursor_encode, hparse]

/-- **A name** that is not empty. -/
theorem not_detected_of_name {field : String × CursorValue} (hmem : field ∈ payload.fields)
    (hname : field.1 ≠ "") : ¬ Detected N payload := by
  obtain ⟨name, v⟩ := field
  obtain ⟨fields, others, hfields⟩ := List.append_of_mem hmem
  let toJs : String × CursorValue → String × JsValue := fun field => (field.1, field.2.toJs)
  have hjs : payload.toJs = .object (fields.map toJs ++ (name, v.toJs) :: others.map toJs) := by
    rw [CursorPayload.toJs, hfields, List.map_append, List.map_cons]
  obtain ⟨before, after, hsplit⟩ := stringify_split N (fields.map toJs) (others.map toJs)
  obtain ⟨text, htext⟩ := v.exists_text N
  obtain ⟨name', hne, honeOff⟩ := exists_oneOff_quote before (':' :: (text ++ after)) hname
  have hordinary : ∀ field ∈ fields.map toJs ++ (name', v.toJs) :: others.map toJs,
      Ordinary field.2 := by
    have hall := payload.ordinary
    rw [hjs] at hall
    cases hall with
    | object _ hall =>
        simp only [List.forall_mem_append, List.forall_mem_cons] at hall ⊢
        exact hall
  obtain ⟨text', htext', hparse⟩ := parse_fields N hordinary
  obtain rfl := Option.some.inj ((hsplit name' v.toJs text htext).symm.trans htext')
  refine not_detected N (hjs ▸ hsplit name v.toJs text htext) honeOff hparse fun heq => ?_
  -- the name is gone
  rw [hjs] at heq
  have hlost : name ∈ (fields.map toJs ++ (name', v.toJs) :: others.map toJs).map Prod.fst := by
    refine (names_jsonifyFields _).subset (mem_names_ofMembers ?_)
    rw [JsValue.object.inj heq]
    simp
  have hnodup := payload.order.nodup
  have hmap : payload.fields.map (fun field => (field.1, field.2.toJs)) =
      fields.map toJs ++ (name, v.toJs) :: others.map toJs := by
    rw [hfields, List.map_append, List.map_cons]
  rw [hmap, List.map_append, List.map_cons, List.nodup_middle, List.nodup_cons] at hnodup
  rw [List.map_append, List.map_cons, List.mem_append, List.mem_cons] at hlost
  rcases hlost with hlost | hlost | hlost
  · exact hnodup.1 (List.mem_append_left _ hlost)
  · exact hne hlost.symm
  · exact hnodup.1 (List.mem_append_right _ hlost)

/-- The text of a payload whose only name is empty. -/
theorem text_single {v : CursorValue} (hfields : payload.fields = [("", v)]) {text : List Char}
    (htext : stringify N.text v.toJs = some text) :
    stringify N.text payload.toJs = some (['{', '"', '"', ':'] ++ (text ++ ['}'])) := by
  rw [CursorPayload.toJs, hfields, List.map_singleton, stringify, stringifyFields, stringifyFields,
    htext]
  simp [quote]

/-- **A string** that is not empty. -/
theorem not_detected_of_string {s : String} (hfields : payload.fields = [("", .string s)])
    (hs : s ≠ "") : ¬ Detected N payload := by
  obtain ⟨s', hne, honeOff⟩ := exists_oneOff_quote ['{', '"', '"', ':'] ['}'] hs
  have hread := (readsValue_members (.cons (readsMember (readsValue_string s') "") .nil)).parse_eq
  refine not_detected N (text_single N hfields (by rw [CursorValue.toJs, stringify])) honeOff
    (by simpa [quote] using hread) ?_
  rw [CursorPayload.toJs, hfields]
  simpa [CursorValue.toJs, ofMembers, put] using hne

theorem encodeChar_digit {d : Char} (h : d.isDigit = true) :
    String.utf8EncodeChar d = [UInt8.ofNat d.toNat] ∧ (UInt8.ofNat d.toNat).toNat = d.toNat ∧
      48 ≤ d.toNat ∧ d.toNat ≤ 57 := by
  have h0 : ('0' : Char).toNat = 48 := rfl
  have h9 : ('9' : Char).toNat = 57 := rfl
  obtain ⟨hle, hle'⟩ := Char.isDigit_iff_toNat.mp h
  have hval : d.val.toNat ≤ 0x7f := by
    rw [h9] at hle'
    exact hle'.trans (by decide)
  exact ⟨if_pos hval, Utf8.toNat_ofNat (by omega), by omega, by omega⟩

/-- The first digit of the only number has its low bits in one character. -/
theorem oneOff_digit {sign tail : List Char} {d d' : Char} (hsign : sign = [] ∨ sign = ['-'])
    (hd : d.isDigit = true) (hd' : d'.isDigit = true) (hne : d ≠ d') :
    OneOff (['{', '"', '"', ':'] ++ sign ++ d :: tail)
      (['{', '"', '"', ':'] ++ sign ++ d' :: tail) := by
  obtain ⟨hencode, hnat, hle, hle'⟩ := encodeChar_digit hd
  obtain ⟨hencode', hnat', hle₂, hle₂'⟩ := encodeChar_digit hd'
  rw [OneOff, utf8_split [] hencode, utf8_split [] hencode']
  refine edited_byte _ _ (fun heq => hne ?_) (.inl ?_)
  · rw [← Char.ofNat_toNat d, ← hnat, heq, hnat', Char.ofNat_toNat]
  · rw [hnat, hnat']
    rcases hsign with rfl | rfl
    · have hwindow :
          4 ^ ((Utf8.encode (['{', '"', '"', ':'] ++ []) ++ []).length % 3 + 1) = 16 := rfl
      rw [hwindow]
      omega
    · have hwindow :
          4 ^ ((Utf8.encode (['{', '"', '"', ':'] ++ ['-']) ++ []).length % 3 + 1) = 64 := rfl
      rw [hwindow]
      omega

/-- **A number** that is written with digits. -/
theorem not_detected_of_number {n : JsNumber} {x : ℚ} (hfields : payload.fields = [("", .number n)])
    (hx : Binary64.IsDouble |x|) (hn : n = .finite x ∨ n = .negativeZero ∧ x = 0) :
    ¬ Detected N payload := by
  obtain ⟨m, sign, tail, d, d', hm, hne, hne0, hsign, hd, hd', hdd', htext, htext'⟩ :=
    N.exists_other hx
  have hnumber : stringify N.text (CursorValue.number n).toJs = some (N.text x) := by
    rcases hn with rfl | ⟨rfl, rfl⟩
    · rw [CursorValue.toJs, stringify]
    · rw [CursorValue.toJs, stringify, text_zero]
  have hread := (readsValue_members (.cons (readsMember (readsValue_numeral hm) "") .nil)).parse_eq
  have hsplit (e : Char) : ['{', '"', '"', ':'] ++ (sign ++ e :: tail ++ ['}']) =
      ['{', '"', '"', ':'] ++ sign ++ e :: (tail ++ ['}']) := by simp
  have htokens := text_single N hfields hnumber
  rw [htext, hsplit] at htokens
  refine not_detected N (v := .object [("", .number m.number)]) htokens
    (oneOff_digit hsign hd hd' hdd') ?_ ?_
  · rw [← hsplit, ← htext']
    simpa [quote, ofMembers, put] using hread
  · rw [CursorPayload.toJs, hfields]
    rcases hn with rfl | ⟨rfl, rfl⟩
    · simpa [CursorValue.toJs] using hne
    · simpa [CursorValue.toJs] using hne0 rfl

end

/-! ### Payloads that cannot -/

/-- Whatever sextet of its token is replaced, a text is not read. -/
def Guarded (text : List Char) : Prop :=
  let ns := sextets (Utf8.encode text)
  ∀ i < ns.length, ∀ n < 64, ns[i]? ≠ some n →
    (parse (Utf8.decode (ofSextets (ns.set i n)))).isNone = true

/-- Or it is the same: bits that are left over have changed. -/
def Robust (text : List Char) : Prop :=
  let ns := sextets (Utf8.encode text)
  ∀ i < ns.length, ∀ n < 64, ns[i]? ≠ some n →
    (parse (Utf8.decode (ofSextets (ns.set i n)))).isNone = true ∨
      ofSextets (ns.set i n) = Utf8.encode text

theorem guarded_null : Guarded ['{', '"', '"', ':', 'n', 'u', 'l', 'l', '}'] := by
  unfold Guarded
  decide +kernel

theorem robust_texts : ∀ text ∈ [['{', '}'], ['{', '"', '"', ':', 't', 'r', 'u', 'e', '}'],
    ['{', '"', '"', ':', 'f', 'a', 'l', 's', 'e', '}'], ['{', '"', '"', ':', '"', '"', '}']],
    Robust text := by
  unfold Robust
  decide +kernel

theorem robust_empty : Robust ['{', '}'] := robust_texts _ (by simp)

theorem robust_true : Robust ['{', '"', '"', ':', 't', 'r', 'u', 'e', '}'] :=
  robust_texts _ (by simp)

theorem robust_false : Robust ['{', '"', '"', ':', 'f', 'a', 'l', 's', 'e', '}'] :=
  robust_texts _ (by simp)

theorem robust_string : Robust ['{', '"', '"', ':', '"', '"', '}'] := robust_texts _ (by simp)

/-- A value that no edit of its token changes, under the empty name. -/
def CursorValue.Untouchable : CursorValue → Prop
  | .null | .boolean _ | .number .nan | .number (.infinity _) => True
  | .string s => s = ""
  | .number _ => False

section

variable (N : NumberToString) {payload : CursorPayload} {text : List Char}

theorem detected_of_edits (htext : stringify N.text payload.toJs = some text)
    (h : ∀ i < (sextets (Utf8.encode text)).length, ∀ n < 64,
      (sextets (Utf8.encode text))[i]? ≠ some n → ∀ v,
        parse (Utf8.decode (ofSextets ((sextets (Utf8.encode text)).set i n))) = some v →
          v = payload.toJs) :
    Detected N payload := by
  intro before c c' after htoken hc' hne v hv
  rw [encodeCursor, htext, Option.getD_some] at htoken
  obtain ⟨i, hi, n, hn, hother, hdecode⟩ := decode_edit htoken hc' hne
  rw [decodeCursor, hdecode] at hv
  exact h i hi n hn hother v hv

theorem detected_of_guarded (htext : stringify N.text payload.toJs = some text)
    (h : Guarded text) : Detected N payload := by
  refine detected_of_edits N htext fun i hi n hn hother v hv => ?_
  have hnone := h i hi n hn hother
  rw [hv] at hnone
  cases hnone

theorem detected_of_robust (htext : stringify N.text payload.toJs = some text)
    (h : Robust text) (hfinite : payload.FiniteNumbers) : Detected N payload := by
  refine detected_of_edits N htext fun i hi n hn hother v hv => ?_
  rcases h i hi n hn hother with hnone | hbytes
  · rw [hv] at hnone
    cases hnone
  · rw [hbytes, Utf8.decode_encode] at hv
    obtain ⟨text', htext', hparse⟩ := parse_stringify N payload.ordinary
      (CursorPayload.jsonify_toJs hfinite)
    obtain rfl := Option.some.inj (htext.symm.trans htext')
    exact Option.some.inj (hv.symm.trans hparse)

theorem detected_of_untouchable {v : CursorValue} (hfields : payload.fields = [("", v)])
    (h : v.Untouchable) : Detected N payload := by
  have hfinite (hv : ∀ n, v ≠ .number n) : payload.FiniteNumbers := by
    rw [CursorPayload.FiniteNumbers, hfields]
    exact List.forall_mem_singleton.mpr fun n hn => absurd hn (hv n)
  have hnull (h : stringify N.text v.toJs = some ['n', 'u', 'l', 'l']) : Detected N payload :=
    detected_of_guarded N (text_single N hfields h) guarded_null
  cases v with
  | string s =>
      obtain rfl : s = "" := h
      have htext : stringify N.text (CursorValue.string "").toJs = some ['"', '"'] := by
        rw [CursorValue.toJs, stringify]
        rfl
      exact detected_of_robust N (text_single N hfields htext) robust_string
        (hfinite fun _ hn => by cases hn)
  | number n =>
      cases n with
      | nan => exact hnull (by rw [CursorValue.toJs, stringify])
      | infinity negative => exact hnull (by rw [CursorValue.toJs, stringify])
      | negativeZero => exact h.elim
      | finite q => exact h.elim
  | boolean b =>
      have hb := hfinite fun _ hn => by cases hn
      cases b with
      | true =>
          have htext : stringify N.text (CursorValue.boolean true).toJs =
              some ['t', 'r', 'u', 'e'] := by rw [CursorValue.toJs, stringify]
          exact detected_of_robust N (text_single N hfields htext) robust_true hb
      | false =>
          have htext : stringify N.text (CursorValue.boolean false).toJs =
              some ['f', 'a', 'l', 's', 'e'] := by rw [CursorValue.toJs, stringify]
          exact detected_of_robust N (text_single N hfields htext) robust_false hb
  | null => exact hnull (by rw [CursorValue.toJs, stringify])

theorem untouchable_of_detected {v : CursorValue} (hfields : payload.fields = [("", v)])
    (h : Detected N payload) : v.Untouchable := by
  have hmem : ("", v) ∈ payload.fields := by
    rw [hfields]
    exact List.mem_singleton_self _
  cases v with
  | string s => exact by_contra fun hs => not_detected_of_string N hfields hs h
  | number n =>
      cases n with
      | nan => exact trivial
      | infinity negative => exact trivial
      | negativeZero =>
          refine not_detected_of_number N hfields (x := 0) ?_ (.inr ⟨rfl, rfl⟩) h
          exact abs_zero (α := ℚ) ▸ Binary64.isDouble_zero
      | finite q =>
          exact not_detected_of_number N hfields (payload.double _ hmem _ rfl) (.inl rfl) h
  | boolean b => exact trivial
  | null => exact trivial

/-- **Which tampering is noticed**: every replacement of one character is, if and only if the
payload is empty, or has no name but the empty one, with `null`, a boolean, the empty string or a
number that is not finite. -/
theorem detected_iff (payload : CursorPayload) : Detected N payload ↔
    payload.fields = [] ∨ ∃ v : CursorValue, payload.fields = [("", v)] ∧ v.Untouchable := by
  constructor
  · intro h
    have hnames : ∀ field ∈ payload.fields, field.1 = "" := fun field hfield =>
      by_contra fun hname => not_detected_of_name N hfield hname h
    have hnodup := payload.order.nodup
    cases hfields : payload.fields with
    | nil => exact .inl rfl
    | cons field others =>
        obtain ⟨name, v⟩ := field
        rw [hfields] at hnames hnodup
        obtain ⟨rfl, hothers⟩ := List.forall_mem_cons.mp hnames
        cases others with
        | nil => exact .inr ⟨v, rfl, untouchable_of_detected N hfields h⟩
        | cons other others =>
            have hname := hothers other List.mem_cons_self
            simp [hname] at hnodup
  · rintro (hfields | ⟨v, hfields, h⟩)
    · have htext : stringify N.text payload.toJs = some ['{', '}'] := by
        rw [CursorPayload.toJs, hfields, List.map_nil, stringify, stringifyFields]
        rfl
      refine detected_of_robust N htext robust_empty ?_
      rw [CursorPayload.FiniteNumbers, hfields]
      exact List.forall_mem_nil _
    · exact detected_of_untouchable N hfields h

end

def createdAt : CursorPayload where
  fields := [("createdAt", .string "2026-09-18")]
  order := ⟨by decide, by decide⟩
  double := by
    rw [List.forall_mem_singleton]
    exact nofun

/-- The day after, by one character of the token. -/
theorem detected_slips : ¬ ∀ N : NumberToString, Detected N createdAt := by
  intro h
  obtain ⟨N⟩ : Nonempty NumberToString := inferInstance
  have htext : stringify N.text createdAt.toJs =
      some "\x7b\"createdAt\":\"2026-09-18\"\x7d".toList := by
    rw [createdAt, CursorPayload.toJs, List.map_singleton, stringify, stringifyFields,
      stringifyFields, CursorValue.toJs, stringify]
    decide +kernel
  have htoken : encodeCursor N createdAt =
      "eyJjcmVhdGVkQXQiOiIyMDI2LTA5LTE".toList ++ '4' :: "In0".toList := by
    rw [encodeCursor, htext]
    decide +kernel
  have hdecode : Utf8.decode (Base64url.decode
      ("eyJjcmVhdGVkQXQiOiIyMDI2LTA5LTE".toList ++ '5' :: "In0".toList)) =
        '{' :: [','].intercalate [quote "createdAt" ++ ':' :: quote "2026-09-19"] ++ ['}'] := by
    decide +kernel
  have hread := readsValue_members
    (.cons (readsMember (readsValue_string "2026-09-19") "createdAt") .nil)
  have heq := h N _ _ '5' _ htoken (by decide) (by decide) _
    ((congrArg parse hdecode).trans hread.parse_eq)
  simp [createdAt, CursorPayload.toJs, CursorValue.toJs, ofMembers, put] at heq

end NestDdd

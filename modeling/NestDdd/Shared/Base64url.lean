import Mathlib.Data.List.Infix
import Mathlib.Data.List.TakeWhile
import Mathlib.Tactic.NormNum

/-!
# Shared — base64url without padding

Bytes as characters of six bits each.  The decoder stops at a pad, passes over characters of neither
alphabet, and drops the bits that are left over.

* `decode_encode`: what is encoded is decoded.
* `decode_of_prefix`: a token that is cut is decoded to bytes that are cut.
* `edited_byte`: a byte whose bits change within one character changes that character only.
-/

namespace Base64url

/-! ### Characters -/

/-- `A-Z a-z 0-9 - _`. -/
def isDigit (c : Char) : Bool := c.isAlphanum || c == '-' || c == '_'

def digit (n : ℕ) : Char :=
  if n < 26 then Char.ofNat (65 + n)
  else if n < 52 then Char.ofNat (71 + n)
  else if n < 62 then Char.ofNat (n - 4)
  else if n = 62 then '-'
  else '_'

/-- The six bits of a character, of this alphabet or of the other. -/
def value (c : Char) : Option ℕ :=
  if 65 ≤ c.toNat ∧ c.toNat ≤ 90 then some (c.toNat - 65)
  else if 97 ≤ c.toNat ∧ c.toNat ≤ 122 then some (c.toNat - 71)
  else if 48 ≤ c.toNat ∧ c.toNat ≤ 57 then some (c.toNat + 4)
  else if c = '-' ∨ c = '+' then some 62
  else if c = '_' ∨ c = '/' then some 63
  else none

theorem digit_spec : ∀ n < 64, isDigit (digit n) = true ∧ value (digit n) = some n ∧
    digit n ≠ '=' := by
  decide

/-! ### Six bits at a time -/

def sextets : List UInt8 → List ℕ
  | [] => []
  | [a] => [a.toNat / 4, a.toNat % 4 * 16]
  | [a, b] => [a.toNat / 4, a.toNat % 4 * 16 + b.toNat / 16, b.toNat % 16 * 4]
  | a :: b :: c :: bytes =>
      a.toNat / 4 :: (a.toNat % 4 * 16 + b.toNat / 16) :: (b.toNat % 16 * 4 + c.toNat / 64) ::
        c.toNat % 64 :: sextets bytes

def ofSextets : List ℕ → List UInt8
  | [w, x] => [UInt8.ofNat (w * 4 + x / 16)]
  | [w, x, y] => [UInt8.ofNat (w * 4 + x / 16), UInt8.ofNat (x % 16 * 16 + y / 4)]
  | w :: x :: y :: z :: rest =>
      UInt8.ofNat (w * 4 + x / 16) :: UInt8.ofNat (x % 16 * 16 + y / 4) ::
        UInt8.ofNat (y % 4 * 64 + z) :: ofSextets rest
  | _ => []

def encode (bytes : List UInt8) : List Char := (sextets bytes).map digit

def decode (token : List Char) : List UInt8 :=
  ofSextets ((token.takeWhile (· ≠ '=')).filterMap value)

theorem sextets_lt : ∀ bytes : List UInt8, ∀ n ∈ sextets bytes, n < 64
  | [] => nofun
  | [a] => by
      have ha := a.toNat_lt
      simp only [sextets, List.forall_mem_cons]
      exact ⟨by omega, by omega, nofun⟩
  | [a, b] => by
      have ha := a.toNat_lt
      have hb := b.toNat_lt
      simp only [sextets, List.forall_mem_cons]
      exact ⟨by omega, by omega, by omega, nofun⟩
  | a :: b :: c :: bytes => by
      have ha := a.toNat_lt
      have hb := b.toNat_lt
      have hc := c.toNat_lt
      simp only [sextets, List.forall_mem_cons]
      exact ⟨by omega, by omega, by omega, by omega, sextets_lt bytes⟩

/-- The eight bits of a byte, put together again. -/
theorem ofNat_eq {a : UInt8} {n : ℕ} (h : n = a.toNat) : UInt8.ofNat n = a := by
  rw [h, UInt8.ofNat_toNat]

theorem ofSextets_sextets : ∀ bytes : List UInt8, ofSextets (sextets bytes) = bytes
  | [] => rfl
  | [a] => by
      rw [sextets, ofSextets, ofNat_eq (a := a) (by omega)]
  | [a, b] => by
      have hb := b.toNat_lt
      rw [sextets, ofSextets, ofNat_eq (a := a) (by omega), ofNat_eq (a := b) (by omega)]
  | a :: b :: c :: bytes => by
      have hb := b.toNat_lt
      have hc := c.toNat_lt
      rw [sextets, ofSextets, ofNat_eq (a := a) (by omega), ofNat_eq (a := b) (by omega),
        ofNat_eq (a := c) (by omega), ofSextets_sextets bytes]

theorem decode_digits {ns : List ℕ} (h : ∀ n ∈ ns, n < 64) :
    decode (ns.map digit) = ofSextets ns := by
  have htake : (ns.map digit).takeWhile (· ≠ '=') = ns.map digit := by
    refine List.takeWhile_eq_self_iff.mpr fun c hc => ?_
    obtain ⟨n, hn, rfl⟩ := List.mem_map.mp hc
    exact decide_eq_true (digit_spec n (h n hn)).2.2
  have hvalues : (ns.map digit).filterMap value = ns := by
    rw [List.filterMap_map]
    refine (List.filterMap_congr fun n hn => ?_).trans List.filterMap_some
    exact (digit_spec n (h n hn)).2.1
  rw [decode, htake, hvalues]

/-- **What is encoded** is decoded. -/
theorem decode_encode (bytes : List UInt8) : decode (encode bytes) = bytes := by
  rw [encode, decode_digits (sextets_lt bytes), ofSextets_sextets]

theorem isDigit_encode {bytes : List UInt8} : ∀ c ∈ encode bytes, isDigit c = true := by
  intro c hc
  obtain ⟨n, hn, rfl⟩ := List.mem_map.mp hc
  exact (digit_spec n (sextets_lt bytes n hn)).1

/-! ### A token that is cut -/

/-- Some bytes are lost with the first character that is. -/
theorem ofSextets_take : ∀ (bytes : List UInt8) (k : ℕ), k < (sextets bytes).length →
    ∃ m < bytes.length, ofSextets ((sextets bytes).take k) = bytes.take m
  | [], k, h => absurd h (Nat.not_lt_zero k)
  | a :: bytes, 0, _ | a :: bytes, 1, _ => ⟨0, Nat.succ_pos _, by
      match bytes with
      | [] | [b] | b :: c :: bytes => rfl⟩
  | [a], k + 2, h => absurd h (by simp [sextets])
  | [a, b], 2, _ => ⟨1, by simp, by
      have hb := b.toNat_lt
      simp only [sextets, List.take, ofSextets]
      rw [ofNat_eq (a := a) (by omega)]⟩
  | [a, b], k + 3, h => absurd h (by simp [sextets])
  | a :: b :: c :: bytes, 2, _ => ⟨1, by simp, by
      have hb := b.toNat_lt
      simp only [sextets, List.take, ofSextets]
      rw [ofNat_eq (a := a) (by omega)]⟩
  | a :: b :: c :: bytes, 3, _ => ⟨2, by simp, by
      have hb := b.toNat_lt
      have hc := c.toNat_lt
      simp only [sextets, List.take, ofSextets]
      rw [ofNat_eq (a := a) (by omega), ofNat_eq (a := b) (by omega)]⟩
  | a :: b :: c :: bytes, k + 4, h => by
      have hb := b.toNat_lt
      have hc := c.toNat_lt
      obtain ⟨m, hm, heq⟩ := ofSextets_take bytes k (by simpa [sextets] using h)
      refine ⟨m + 3, by simpa using hm, ?_⟩
      simp only [sextets, List.take, ofSextets, heq]
      rw [ofNat_eq (a := a) (by omega), ofNat_eq (a := b) (by omega),
        ofNat_eq (a := c) (by omega)]

/-- **A token that is cut** is decoded to bytes that are cut. -/
theorem decode_of_prefix {token : List Char} {bytes : List UInt8} (h : token <+: encode bytes)
    (hne : token ≠ encode bytes) : ∃ m < bytes.length, decode token = bytes.take m := by
  have hlen : token.length < (sextets bytes).length := by
    refine lt_of_le_of_ne (h.length_le.trans_eq (List.length_map _)) fun heq => ?_
    exact hne (h.eq_of_length (heq.trans (List.length_map _).symm))
  obtain ⟨m, hm, heq⟩ := ofSextets_take bytes token.length hlen
  have htoken : token = ((sextets bytes).take token.length).map digit := by
    rw [List.map_take]
    exact List.prefix_iff_eq_take.mp h
  refine ⟨m, hm, ?_⟩
  rw [htoken, decode_digits fun n hn => sextets_lt bytes n (List.mem_of_mem_take hn), heq]

/-! ### A token with one other character -/

theorem exists_digit {c : Char} (h : isDigit c = true) : ∃ n < 64, digit n = c := by
  have hcode : ∀ k < 128, isDigit (Char.ofNat k) = true → ∃ n < 64, digit n = Char.ofNat k := by
    decide +kernel
  have hlt : c.val.toNat < 128 := by
    have hZ : ('Z' : Char).val.toNat = 90 := rfl
    have hz : ('z' : Char).val.toNat = 122 := rfl
    have h9 : ('9' : Char).val.toNat = 57 := rfl
    have hclasses : isDigit c = (((decide ('A'.val ≤ c.val ∧ c.val ≤ 'Z'.val) ||
        (decide ('a'.val ≤ c.val) && decide (c.val ≤ 'z'.val))) ||
        (decide ('0'.val ≤ c.val) && decide (c.val ≤ '9'.val))) || c == '-' || c == '_') := rfl
    simp only [hclasses, Bool.or_eq_true, Bool.and_eq_true, decide_eq_true_eq, beq_iff_eq,
      UInt32.le_iff_toNat_le] at h
    rcases h with ((((h | h) | h) | rfl) | rfl)
    · omega
    · omega
    · omega
    · decide
    · decide
  obtain ⟨n, hn, hdigit⟩ := hcode c.toNat hlt (by rw [Char.ofNat_toNat]; exact h)
  exact ⟨n, hn, hdigit.trans (Char.ofNat_toNat c)⟩

/-- A token with one other character, in sextets. -/
theorem decode_edit {bytes : List UInt8} {before after : List Char} {c c' : Char}
    (h : encode bytes = before ++ c :: after) (hc' : isDigit c' = true) (hne : c' ≠ c) :
    ∃ i < (sextets bytes).length, ∃ n < 64, (sextets bytes)[i]? ≠ some n ∧
      decode (before ++ c' :: after) = ofSextets ((sextets bytes).set i n) := by
  obtain ⟨n, hn, rfl⟩ := exists_digit hc'
  obtain ⟨ns, ms, hsextets, rfl, hms⟩ := List.map_eq_append_iff.mp h
  obtain ⟨m, ms, rfl, rfl, rfl⟩ := List.map_eq_cons_iff.mp hms
  have hlt := sextets_lt bytes
  rw [hsextets] at hlt ⊢
  refine ⟨ns.length, by simp, n, hn, ?_, ?_⟩
  · rw [List.getElem?_append_right le_rfl, Nat.sub_self, List.getElem?_cons_zero]
    exact fun heq => hne (congrArg digit (Option.some.inj heq).symm)
  · have htoken : ns.map digit ++ digit n :: ms.map digit = (ns ++ n :: ms).map digit := by simp
    rw [htoken, decode_digits, List.set_append_right _ _ le_rfl, Nat.sub_self, List.set_cons_zero]
    simp only [List.forall_mem_append, List.forall_mem_cons] at hlt ⊢
    exact ⟨hlt.1, hn, hlt.2.2⟩

/-- The encodings differ in one character. -/
def Edited (bytes bytes' : List UInt8) : Prop :=
  ∃ before n n' after, n ≠ n' ∧ sextets bytes = before ++ n :: after ∧
    sextets bytes' = before ++ n' :: after

theorem Edited.encode {bytes bytes' : List UInt8} (h : Edited bytes bytes') :
    ∃ before c c' after, isDigit c' = true ∧ c ≠ c' ∧ encode bytes = before ++ c :: after ∧
      encode bytes' = before ++ c' :: after := by
  obtain ⟨before, n, n', after, hne, hbytes, hbytes'⟩ := h
  have hn := digit_spec n (sextets_lt bytes n (by simp [hbytes]))
  have hn' := digit_spec n' (sextets_lt bytes' n' (by simp [hbytes']))
  refine ⟨before.map digit, digit n, digit n', after.map digit, hn'.1, fun heq => hne ?_, ?_, ?_⟩
  · exact Option.some.inj (hn.2.1.symm.trans ((congrArg value heq).trans hn'.2.1))
  · rw [Base64url.encode, hbytes, List.map_append, List.map_cons]
  · rw [Base64url.encode, hbytes', List.map_append, List.map_cons]

theorem Edited.cons {bytes bytes' : List UInt8} (a b c : UInt8) (h : Edited bytes bytes') :
    Edited (a :: b :: c :: bytes) (a :: b :: c :: bytes') := by
  obtain ⟨before, n, n', after, hne, hbytes, hbytes'⟩ := h
  refine ⟨a.toNat / 4 :: (a.toNat % 4 * 16 + b.toNat / 16) :: (b.toNat % 16 * 4 + c.toNat / 64) ::
    c.toNat % 64 :: before, n, n', after, hne, ?_, ?_⟩
  · rw [sextets, hbytes]
    rfl
  · rw [sextets, hbytes']
    rfl

/-- What one byte has in the first two characters. -/
theorem sextets_one (bytes : List UInt8) : ∃ k rest, ∀ a : UInt8,
    sextets (a :: bytes) = a.toNat / 4 :: (a.toNat % 4 * 16 + k) :: rest := by
  match bytes with
  | [] => exact ⟨0, [], fun a => rfl⟩
  | [b] => exact ⟨b.toNat / 16, _, fun a => rfl⟩
  | b :: c :: bytes => exact ⟨b.toNat / 16, _, fun a => rfl⟩

/-- What two bytes have in the first three. -/
theorem sextets_two (bytes : List UInt8) : ∃ k rest, ∀ a b : UInt8, sextets (a :: b :: bytes) =
    a.toNat / 4 :: (a.toNat % 4 * 16 + b.toNat / 16) :: (b.toNat % 16 * 4 + k) :: rest := by
  match bytes with
  | [] => exact ⟨0, [], fun a b => rfl⟩
  | c :: bytes => exact ⟨c.toNat / 64, _, fun a b => rfl⟩

/-- **One byte, one character**: its bits change on one side of where it is cut. -/
theorem edited_byte : ∀ (before : List UInt8) {a b : UInt8} (after : List UInt8), a ≠ b →
    (a.toNat / 4 ^ (before.length % 3 + 1) = b.toNat / 4 ^ (before.length % 3 + 1) ∨
      a.toNat % 4 ^ (before.length % 3 + 1) = b.toNat % 4 ^ (before.length % 3 + 1)) →
    Edited (before ++ a :: after) (before ++ b :: after)
  | [], a, b, after, hne, h => by
      have hne : a.toNat ≠ b.toNat := mt UInt8.toNat_inj.mp hne
      have hw : 4 ^ (([] : List UInt8).length % 3 + 1) = 4 := rfl
      obtain ⟨k, rest, hsextets⟩ := sextets_one after
      rw [hw] at h
      rcases h with h | h
      · refine ⟨[a.toNat / 4], a.toNat % 4 * 16 + k, b.toNat % 4 * 16 + k, rest, by omega,
          hsextets a, ?_⟩
        rw [h]
        exact hsextets b
      · refine ⟨[], a.toNat / 4, b.toNat / 4, (a.toNat % 4 * 16 + k) :: rest, by omega,
          hsextets a, ?_⟩
        rw [h]
        exact hsextets b
  | [x], a, b, after, hne, h => by
      have hne : a.toNat ≠ b.toNat := mt UInt8.toNat_inj.mp hne
      have hw : 4 ^ ([x].length % 3 + 1) = 16 := rfl
      obtain ⟨k, rest, hsextets⟩ := sextets_two after
      rw [hw] at h
      rcases h with h | h
      · refine ⟨[x.toNat / 4, x.toNat % 4 * 16 + a.toNat / 16], a.toNat % 16 * 4 + k,
          b.toNat % 16 * 4 + k, rest, by omega, hsextets x a, ?_⟩
        rw [h]
        exact hsextets x b
      · refine ⟨[x.toNat / 4], x.toNat % 4 * 16 + a.toNat / 16, x.toNat % 4 * 16 + b.toNat / 16,
          (a.toNat % 16 * 4 + k) :: rest, by omega, hsextets x a, ?_⟩
        rw [h]
        exact hsextets x b
  | [x, y], a, b, after, hne, h => by
      have hne : a.toNat ≠ b.toNat := mt UInt8.toNat_inj.mp hne
      have hw : 4 ^ ([x, y].length % 3 + 1) = 64 := rfl
      rw [hw] at h
      rcases h with h | h
      · refine ⟨[x.toNat / 4, x.toNat % 4 * 16 + y.toNat / 16, y.toNat % 16 * 4 + a.toNat / 64],
          a.toNat % 64, b.toNat % 64, sextets after, by omega, rfl, ?_⟩
        rw [h]
        rfl
      · refine ⟨[x.toNat / 4, x.toNat % 4 * 16 + y.toNat / 16], y.toNat % 16 * 4 + a.toNat / 64,
          y.toNat % 16 * 4 + b.toNat / 64, a.toNat % 64 :: sextets after, by omega, rfl, ?_⟩
        rw [h]
        rfl
  | x :: y :: z :: before, a, b, after, hne, h => by
      have hlen : (x :: y :: z :: before).length % 3 = before.length % 3 := by
        simp only [List.length_cons]
        omega
      rw [hlen] at h
      exact (edited_byte before after hne h).cons x y z

section

variable (before after : List UInt8) {a b : UInt8}

/-- The low bits of a byte are in one character. -/
theorem edited_low (hne : a ≠ b) (h : a.toNat / 4 = b.toNat / 4) :
    Edited (before ++ a :: after) (before ++ b :: after) := by
  refine edited_byte before after hne (.inl ?_)
  rw [pow_succ', ← Nat.div_div_eq_div_mul, ← Nat.div_div_eq_div_mul, h]

/-- So are the high ones. -/
theorem edited_high (hne : a ≠ b) (h : a.toNat % 64 = b.toNat % 64) :
    Edited (before ++ a :: after) (before ++ b :: after) := by
  have hdvd : 4 ^ (before.length % 3 + 1) ∣ 64 :=
    Nat.pow_dvd_pow 4 (n := 3) (by omega)
  refine edited_byte before after hne (.inr ?_)
  rw [← Nat.mod_mod_of_dvd _ hdvd, h, Nat.mod_mod_of_dvd _ hdvd]

end

/-- Two bytes that meet in one character. -/
theorem edited_pair : ∀ (before : List UInt8) {a a' b b' : UInt8} (after : List UInt8),
    before.length % 3 = 0 → a.toNat / 4 = a'.toNat / 4 → a.toNat % 4 ≠ a'.toNat % 4 →
    b.toNat % 16 = b'.toNat % 16 →
    Edited (before ++ a :: b :: after) (before ++ a' :: b' :: after)
  | [], a, a', b, b', after, _, ha, hne, hb => by
      have hlt := b.toNat_lt
      have hlt' := b'.toNat_lt
      obtain ⟨k, rest, hsextets⟩ := sextets_two after
      refine ⟨[a.toNat / 4], a.toNat % 4 * 16 + b.toNat / 16, a'.toNat % 4 * 16 + b'.toNat / 16,
        (b.toNat % 16 * 4 + k) :: rest, by omega, hsextets a b, ?_⟩
      rw [ha, hb]
      exact hsextets a' b'
  | [x], _, _, _, _, _, h, _, _, _ => absurd h (by simp)
  | [x, y], _, _, _, _, _, h, _, _, _ => absurd h (by simp)
  | x :: y :: z :: before, a, a', b, b', after, h, ha, hne, hb => by
      have hlen : before.length % 3 = 0 := by
        simp only [List.length_cons] at h
        omega
      exact (edited_pair before after hlen ha hne hb).cons x y z

end Base64url

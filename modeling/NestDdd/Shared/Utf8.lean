import NestDdd.Shared.Utf16

/-!
# Shared — UTF-8 with replacement

Decoding bytes that need not be UTF-8: every longest beginning of a character that is not one, and
every byte that begins none, becomes U+FFFD.

* `decode_encode`: what encodes characters is decoded to them.
* `decode_inj`: two such byte strings are told apart by their text.
* `decode_take`: of bytes that are cut, what is whole is decoded, and one U+FFFD may stand behind
  it.
* `encodeChar_low`: characters that differ in their two low bits differ in those of their last byte.
-/

namespace Utf8

open Utf16 (replacement)

/-- Between the bytes of a character: how many are needed, the bounds of the next, and the bits so
far. -/
structure Pending where
  needed : Nat
  lower : Nat
  upper : Nat
  codePoint : Nat

/-- A byte at which a character may begin: what is emitted, and what is left pending. -/
def lead (byte : UInt8) : List Char × Option Pending :=
  let b := byte.toNat
  if b < 0x80 then ([Char.ofNat b], none)
  else if b < 0xC2 then ([replacement], none)
  else if b < 0xE0 then ([], some ⟨1, 0x80, 0xBF, b - 0xC0⟩)
  else if b < 0xF0 then
    ([], some ⟨2, if b = 0xE0 then 0xA0 else 0x80, if b = 0xED then 0x9F else 0xBF, b - 0xE0⟩)
  else if b < 0xF5 then
    ([], some ⟨3, if b = 0xF0 then 0x90 else 0x80, if b = 0xF4 then 0x8F else 0xBF, b - 0xF0⟩)
  else ([replacement], none)

/-- A byte out of bounds ends what is pending, and is read again. -/
def decodeFrom : Option Pending → List UInt8 → List Char
  | none, [] => []
  | some _, [] => [replacement]
  | none, byte :: bytes => (lead byte).1 ++ decodeFrom (lead byte).2 bytes
  | some p, byte :: bytes =>
      if p.lower ≤ byte.toNat ∧ byte.toNat ≤ p.upper then
        let codePoint := p.codePoint * 64 + (byte.toNat - 0x80)
        if p.needed = 1 then Char.ofNat codePoint :: decodeFrom none bytes
        else decodeFrom (some ⟨p.needed - 1, 0x80, 0xBF, codePoint⟩) bytes
      else replacement :: ((lead byte).1 ++ decodeFrom (lead byte).2 bytes)

def decode (bytes : List UInt8) : List Char := decodeFrom none bytes

def encode (cs : List Char) : List UInt8 := cs.flatMap String.utf8EncodeChar

variable {n lower upper codePoint : Nat} {bytes : List UInt8} {byte : UInt8}

theorem decodeFrom_lead (byte : UInt8) (bytes : List UInt8) :
    decodeFrom none (byte :: bytes) = (lead byte).1 ++ decodeFrom (lead byte).2 bytes :=
  rfl

theorem decodeFrom_last (h : lower ≤ byte.toNat ∧ byte.toNat ≤ upper) :
    decodeFrom (some ⟨1, lower, upper, codePoint⟩) (byte :: bytes) =
      Char.ofNat (codePoint * 64 + (byte.toNat - 0x80)) :: decodeFrom none bytes := by
  simp [decodeFrom, h]

theorem decodeFrom_more (h : lower ≤ byte.toNat ∧ byte.toNat ≤ upper) :
    decodeFrom (some ⟨n + 2, lower, upper, codePoint⟩) (byte :: bytes) =
      decodeFrom (some ⟨n + 1, 0x80, 0xBF, codePoint * 64 + (byte.toNat - 0x80)⟩) bytes := by
  simp [decodeFrom, h]

/-! ### Characters by their length -/

section Lengths

variable {b₁ b₂ b₃ b₄ : UInt8}

/-- A byte that goes on. -/
def Tail (byte : UInt8) : Prop := 0x80 ≤ byte.toNat ∧ byte.toNat ≤ 0xBF

theorem decodeFrom_one (h : b₁.toNat < 0x80) :
    decodeFrom none (b₁ :: bytes) = Char.ofNat b₁.toNat :: decodeFrom none bytes := by
  rw [decodeFrom_lead, lead, if_pos h]
  rfl

theorem lead_two (h : 0xC2 ≤ b₁.toNat ∧ b₁.toNat < 0xE0) :
    lead b₁ = ([], some ⟨1, 0x80, 0xBF, b₁.toNat - 0xC0⟩) := by
  rw [lead, if_neg (by omega), if_neg (by omega), if_pos h.2]

theorem decodeFrom_two (h₁ : 0xC2 ≤ b₁.toNat ∧ b₁.toNat < 0xE0) (h₂ : Tail b₂) :
    decodeFrom none (b₁ :: b₂ :: bytes) =
      Char.ofNat ((b₁.toNat - 0xC0) * 64 + (b₂.toNat - 0x80)) :: decodeFrom none bytes := by
  rw [decodeFrom_lead, lead_two h₁]
  exact decodeFrom_last h₂

theorem lead_three (h : 0xE0 ≤ b₁.toNat ∧ b₁.toNat < 0xF0) :
    lead b₁ = ([], some ⟨2, if b₁.toNat = 0xE0 then 0xA0 else 0x80,
      if b₁.toNat = 0xED then 0x9F else 0xBF, b₁.toNat - 0xE0⟩) := by
  rw [lead, if_neg (by omega), if_neg (by omega), if_neg (by omega), if_pos h.2]

/-- The bounds of the second byte leave out what is too long, and the surrogates. -/
theorem decodeFrom_three (h₁ : 0xE0 ≤ b₁.toNat ∧ b₁.toNat < 0xF0)
    (h₂ : (if b₁.toNat = 0xE0 then 0xA0 else 0x80) ≤ b₂.toNat ∧
      b₂.toNat ≤ if b₁.toNat = 0xED then 0x9F else 0xBF) (h₃ : Tail b₃) :
    decodeFrom none (b₁ :: b₂ :: b₃ :: bytes) =
      Char.ofNat (((b₁.toNat - 0xE0) * 64 + (b₂.toNat - 0x80)) * 64 + (b₃.toNat - 0x80)) ::
        decodeFrom none bytes := by
  rw [decodeFrom_lead, lead_three h₁]
  exact (decodeFrom_more h₂).trans (decodeFrom_last h₃)

theorem lead_four (h : 0xF0 ≤ b₁.toNat ∧ b₁.toNat < 0xF5) :
    lead b₁ = ([], some ⟨3, if b₁.toNat = 0xF0 then 0x90 else 0x80,
      if b₁.toNat = 0xF4 then 0x8F else 0xBF, b₁.toNat - 0xF0⟩) := by
  rw [lead, if_neg (by omega), if_neg (by omega), if_neg (by omega), if_neg (by omega),
    if_pos h.2]

theorem decodeFrom_four (h₁ : 0xF0 ≤ b₁.toNat ∧ b₁.toNat < 0xF5)
    (h₂ : (if b₁.toNat = 0xF0 then 0x90 else 0x80) ≤ b₂.toNat ∧
      b₂.toNat ≤ if b₁.toNat = 0xF4 then 0x8F else 0xBF) (h₃ : Tail b₃) (h₄ : Tail b₄) :
    decodeFrom none (b₁ :: b₂ :: b₃ :: b₄ :: bytes) =
      Char.ofNat ((((b₁.toNat - 0xF0) * 64 + (b₂.toNat - 0x80)) * 64 + (b₃.toNat - 0x80)) * 64 +
        (b₄.toNat - 0x80)) :: decodeFrom none bytes := by
  rw [decodeFrom_lead, lead_four h₁]
  exact (decodeFrom_more h₂).trans ((decodeFrom_more h₃).trans (decodeFrom_last h₄))

end Lengths

/-! ### What is encoded -/

theorem toNat_ofNat (h : n < 256) : (UInt8.ofNat n).toNat = n := by
  rw [UInt8.toNat_ofNat', Nat.mod_eq_of_lt h]

/-- The low six bits of a number, as a byte that goes on. -/
theorem toNat_low (n : Nat) : (UInt8.ofNat (n % 64 + 0x80)).toNat = n % 64 + 0x80 :=
  toNat_ofNat (by omega)

theorem tail_low (n : Nat) : Tail (UInt8.ofNat (n % 64 + 0x80)) := by
  rw [Tail, toNat_low]
  omega

/-- One character, by the length of its encoding. -/
theorem decodeFrom_encodeChar (c : Char) (bytes : List UInt8) :
    decodeFrom none (String.utf8EncodeChar c ++ bytes) = c :: decodeFrom none bytes := by
  have hvalid : c.toNat < 0xD800 ∨ 0xDFFF < c.toNat ∧ c.toNat < 0x110000 := c.valid
  have hc : Char.ofNat c.toNat = c := Char.ofNat_toNat c
  generalize hv : c.toNat = v at hvalid hc
  have hval : c.val.toNat = v := hv
  unfold String.utf8EncodeChar
  simp only [hval]
  split
  next =>
    have h₁ : (UInt8.ofNat v).toNat = v := toNat_ofNat (by omega)
    refine (decodeFrom_one (by omega)).trans ?_
    rw [h₁, hc]
    rfl
  split
  next =>
    have h₁ : (UInt8.ofNat (v / 64 % 32 + 0xC0)).toNat = v / 64 % 32 + 0xC0 :=
      toNat_ofNat (by omega)
    have hcode : (v / 64 % 32 + 0xC0 - 0xC0) * 64 + (v % 64 + 0x80 - 0x80) = v := by omega
    refine (decodeFrom_two (by omega) (tail_low v)).trans ?_
    rw [h₁, toNat_low, hcode, hc]
    rfl
  split
  next =>
    have h₁ : (UInt8.ofNat (v / 4096 % 16 + 0xE0)).toNat = v / 4096 % 16 + 0xE0 :=
      toNat_ofNat (by omega)
    have hcode : ((v / 4096 % 16 + 0xE0 - 0xE0) * 64 + (v / 64 % 64 + 0x80 - 0x80)) * 64 +
        (v % 64 + 0x80 - 0x80) = v := by omega
    refine (decodeFrom_three (by omega) ?_ (tail_low v)).trans ?_
    · rw [h₁, toNat_low]
      split <;> split <;> omega
    · rw [h₁, toNat_low, toNat_low, hcode, hc]
      rfl
  next =>
    have h₁ : (UInt8.ofNat (v / 262144 % 8 + 0xF0)).toNat = v / 262144 % 8 + 0xF0 :=
      toNat_ofNat (by omega)
    have hcode : (((v / 262144 % 8 + 0xF0 - 0xF0) * 64 + (v / 4096 % 64 + 0x80 - 0x80)) * 64 +
        (v / 64 % 64 + 0x80 - 0x80)) * 64 + (v % 64 + 0x80 - 0x80) = v := by omega
    refine (decodeFrom_four (by omega) ?_ (tail_low _) (tail_low v)).trans ?_
    · rw [h₁, toNat_low]
      split <;> split <;> omega
    · rw [h₁, toNat_low, toNat_low, toNat_low, hcode, hc]
      rfl

theorem encode_append (as bs : List Char) : encode (as ++ bs) = encode as ++ encode bs :=
  List.flatMap_append

theorem encode_cons (c : Char) (cs : List Char) :
    encode (c :: cs) = String.utf8EncodeChar c ++ encode cs :=
  List.flatMap_cons

/-- **What encodes characters** is decoded to them. -/
theorem decode_encode (cs : List Char) : decode (encode cs) = cs := by
  induction cs with
  | nil => rfl
  | cons c cs ih =>
      rw [encode_cons]
      exact (decodeFrom_encodeChar c _).trans (congrArg (c :: ·) ih)

/-- The encoding of some characters. -/
def WellFormed (bytes : List UInt8) : Prop := ∃ cs, bytes = encode cs

theorem decode_inj {a b : List UInt8} (ha : WellFormed a) (hb : WellFormed b) :
    decode a = decode b ↔ a = b := by
  obtain ⟨as, rfl⟩ := ha
  obtain ⟨bs, rfl⟩ := hb
  rw [decode_encode, decode_encode]
  refine ⟨congrArg encode, fun h => ?_⟩
  rw [← decode_encode as, h, decode_encode]

/-! ### Characters that are close -/

/-- The low bits of a character are those of its last byte. -/
theorem encodeChar_low {c d : Char} (h : c.toNat / 4 = d.toNat / 4) (hne : c ≠ d) :
    ∃ init a b, String.utf8EncodeChar c = init ++ [a] ∧ String.utf8EncodeChar d = init ++ [b] ∧
      a ≠ b ∧ a.toNat / 4 = b.toNat / 4 := by
  have hvalid : c.toNat < 0xD800 ∨ 0xDFFF < c.toNat ∧ c.toNat < 0x110000 := c.valid
  have hne : c.toNat ≠ d.toNat := fun heq => hne
    ((Char.ofNat_toNat c).symm.trans ((congrArg Char.ofNat heq).trans (Char.ofNat_toNat d)))
  generalize hv : c.toNat = v at hvalid h hne
  generalize hw : d.toNat = w at h hne
  have hval : c.val.toNat = v := hv
  have hval' : d.val.toNat = w := hw
  have hbyte {m n : Nat} (hm : m < 256) (hn : n < 256) (hmn : m ≠ n) (h4 : m / 4 = n / 4) :
      UInt8.ofNat m ≠ UInt8.ofNat n ∧ (UInt8.ofNat m).toNat / 4 = (UInt8.ofNat n).toNat / 4 := by
    refine ⟨fun heq => hmn ?_, by rw [toNat_ofNat hm, toNat_ofNat hn, h4]⟩
    rw [← toNat_ofNat hm, ← toNat_ofNat hn, heq]
  have h64 : v / 64 = w / 64 := by omega
  have h4096 : v / 4096 = w / 4096 := by omega
  have h262144 : v / 262144 = w / 262144 := by omega
  unfold String.utf8EncodeChar
  simp only [hval, hval']
  split
  next hlt =>
    rw [if_pos (by omega : w ≤ 0x7f)]
    exact ⟨[], _, _, rfl, rfl, hbyte (by omega) (by omega) hne h⟩
  rw [if_neg (by omega : ¬ w ≤ 0x7f)]
  have hlast := hbyte (m := v % 0x40 + 0x80) (n := w % 0x40 + 0x80) (by omega) (by omega) (by omega)
    (by omega)
  split
  next hlt =>
    rw [if_pos (by omega : w ≤ 0x7ff), h64]
    exact ⟨[_], _, _, rfl, rfl, hlast⟩
  rw [if_neg (by omega : ¬ w ≤ 0x7ff)]
  split
  next hlt =>
    rw [if_pos (by omega : w ≤ 0xffff), h64, h4096]
    exact ⟨[_, _], _, _, rfl, rfl, hlast⟩
  next hlt =>
    rw [if_neg (by omega : ¬ w ≤ 0xffff), h64, h4096, h262144]
    exact ⟨[_, _, _], _, _, rfl, rfl, hlast⟩

/-! ### Bytes that are cut -/

/-- A byte that goes on, of a character that is cut. -/
theorem decodeFrom_cut (h : lower ≤ byte.toNat ∧ byte.toNat ≤ upper) :
    decodeFrom (some ⟨n + 2, lower, upper, codePoint⟩) [byte] = [replacement] := by
  rw [decodeFrom_more h]
  rfl

section Cut

variable {b₁ b₂ b₃ : UInt8}

/-- Nothing but the first byte. -/
theorem decode_first (h : 0xC2 ≤ b₁.toNat ∧ b₁.toNat < 0xF5) : decode [b₁] = [replacement] := by
  rw [decode, decodeFrom_lead]
  rcases Nat.lt_or_ge b₁.toNat 0xE0 with h₂ | h₂
  · rw [lead_two ⟨h.1, h₂⟩]
    rfl
  rcases Nat.lt_or_ge b₁.toNat 0xF0 with h₃ | h₃
  · rw [lead_three ⟨h₂, h₃⟩]
    rfl
  · rw [lead_four ⟨h₃, h.2⟩]
    rfl

theorem decode_three_cut (h₁ : 0xE0 ≤ b₁.toNat ∧ b₁.toNat < 0xF0)
    (h₂ : (if b₁.toNat = 0xE0 then 0xA0 else 0x80) ≤ b₂.toNat ∧
      b₂.toNat ≤ if b₁.toNat = 0xED then 0x9F else 0xBF) : decode [b₁, b₂] = [replacement] := by
  rw [decode, decodeFrom_lead, lead_three h₁]
  exact decodeFrom_cut h₂

theorem decode_four_cut (h₁ : 0xF0 ≤ b₁.toNat ∧ b₁.toNat < 0xF5)
    (h₂ : (if b₁.toNat = 0xF0 then 0x90 else 0x80) ≤ b₂.toNat ∧
      b₂.toNat ≤ if b₁.toNat = 0xF4 then 0x8F else 0xBF) (h₃ : Tail b₃) :
    decode [b₁, b₂] = [replacement] ∧ decode [b₁, b₂, b₃] = [replacement] := by
  rw [decode, decode, decodeFrom_lead, decodeFrom_lead, lead_four h₁]
  exact ⟨decodeFrom_cut h₂, (decodeFrom_more h₂).trans (decodeFrom_cut h₃)⟩

end Cut

/-- A character that is cut. -/
theorem decode_take_encodeChar (c : Char) {m : ℕ} (hm : 0 < m)
    (hlt : m < (String.utf8EncodeChar c).length) :
    decode ((String.utf8EncodeChar c).take m) = [replacement] := by
  have hvalid : c.toNat < 0xD800 ∨ 0xDFFF < c.toNat ∧ c.toNat < 0x110000 := c.valid
  generalize hv : c.toNat = v at hvalid
  have hval : c.val.toNat = v := hv
  unfold String.utf8EncodeChar at hlt ⊢
  simp only [hval] at hlt ⊢
  split at hlt
  next =>
    rw [List.length_singleton] at hlt
    omega
  split at hlt
  next h₁ h₂ =>
    rw [if_neg h₁, if_pos h₂]
    have hlead : (UInt8.ofNat (v / 64 % 32 + 0xC0)).toNat = v / 64 % 32 + 0xC0 :=
      toNat_ofNat (by omega)
    obtain rfl : m = 1 := by
      simp only [List.length_cons, List.length_nil] at hlt
      omega
    exact decode_first (by omega)
  split at hlt
  next h₁ h₂ h₃ =>
    rw [if_neg h₁, if_neg h₂, if_pos h₃]
    have hlead : (UInt8.ofNat (v / 4096 % 16 + 0xE0)).toNat = v / 4096 % 16 + 0xE0 :=
      toNat_ofNat (by omega)
    obtain rfl | rfl : m = 1 ∨ m = 2 := by
      simp only [List.length_cons, List.length_nil] at hlt
      omega
    · exact decode_first (by omega)
    · refine decode_three_cut (by omega) ?_
      rw [hlead, toNat_low]
      split <;> split <;> omega
  next h₁ h₂ h₃ =>
    rw [if_neg h₁, if_neg h₂, if_neg h₃]
    have hlead : (UInt8.ofNat (v / 262144 % 8 + 0xF0)).toNat = v / 262144 % 8 + 0xF0 :=
      toNat_ofNat (by omega)
    obtain ⟨hsecond, hthird⟩ := @decode_four_cut (UInt8.ofNat (v / 262144 % 8 + 0xF0))
      (UInt8.ofNat (v / 4096 % 64 + 0x80)) (UInt8.ofNat (v / 64 % 64 + 0x80)) (by omega)
      (by rw [hlead, toNat_low]; split <;> split <;> omega) (tail_low (v / 64))
    obtain rfl | rfl | rfl : m = 1 ∨ m = 2 ∨ m = 3 := by
      simp only [List.length_cons, List.length_nil] at hlt
      omega
    · exact decode_first (by omega)
    · exact hsecond
    · exact hthird

/-- **Bytes that are cut**: the characters that are whole, and a replacement of one that is not. -/
theorem decode_take (cs : List Char) {m : ℕ} (h : m < (encode cs).length) :
    ∃ kept lost, cs = kept ++ lost ∧ lost ≠ [] ∧
      (decode ((encode cs).take m) = kept ∨
        decode ((encode cs).take m) = kept ++ [replacement]) := by
  induction cs generalizing m with
  | nil => exact absurd h (Nat.not_lt_zero m)
  | cons c cs ih =>
      rw [encode_cons, List.length_append] at h
      rw [encode_cons]
      by_cases hm : m < (String.utf8EncodeChar c).length
      · refine ⟨[], c :: cs, rfl, List.cons_ne_nil _ _, ?_⟩
        rw [List.take_append_of_le_length (Nat.le_of_lt hm)]
        cases m with
        | zero => exact .inl rfl
        | succ m => exact .inr (decode_take_encodeChar c (Nat.succ_pos m) hm)
      · obtain ⟨kept, lost, rfl, hlost, hdecode⟩ :=
          ih (m := m - (String.utf8EncodeChar c).length) (by omega)
        refine ⟨c :: kept, lost, rfl, hlost, ?_⟩
        rw [List.take_append, List.take_of_length_le (Nat.le_of_not_lt hm), decode,
          decodeFrom_encodeChar, List.cons_append, List.cons.injEq, List.cons.injEq]
        exact hdecode.imp (⟨rfl, ·⟩) (⟨rfl, ·⟩)

/-- What is not UTF-8 is not told apart: a quoted `FF` and a quoted `FE`. -/
example : decode [0x22, 0xFF, 0x22] = decode [0x22, 0xFE, 0x22] := by decide

end Utf8

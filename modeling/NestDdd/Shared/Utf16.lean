import Mathlib.Data.List.Basic

/-!
# Shared — UTF-16

Characters as one code unit, or as a pair of surrogates.  A surrogate that has no partner is read
as U+FFFD.

* `decode_encode`: what encodes characters is decoded to them.
-/

namespace Utf16

/-- U+FFFD, what a decoder writes for what is no character. -/
def replacement : Char := '\uFFFD'

def IsHigh (unit : Nat) : Prop := 0xD800 ≤ unit ∧ unit < 0xDC00

def IsLow (unit : Nat) : Prop := 0xDC00 ≤ unit ∧ unit < 0xE000

instance (unit : Nat) : Decidable (IsHigh unit) := inferInstanceAs (Decidable (_ ∧ _))

instance (unit : Nat) : Decidable (IsLow unit) := inferInstanceAs (Decidable (_ ∧ _))

def encodeChar (c : Char) : List Nat :=
  if c.toNat < 0x10000 then [c.toNat]
  else [0xD800 + (c.toNat - 0x10000) / 0x400, 0xDC00 + (c.toNat - 0x10000) % 0x400]

def encode (cs : List Char) : List Nat := cs.flatMap encodeChar

/-- A unit by itself. -/
def single (unit : Nat) : Char :=
  if IsHigh unit ∨ IsLow unit then replacement else Char.ofNat unit

def pair (high low : Nat) : Char :=
  Char.ofNat (0x10000 + (high - 0xD800) * 0x400 + (low - 0xDC00))

def decode : List Nat → List Char
  | [] => []
  | [unit] => [single unit]
  | high :: low :: units =>
      if IsHigh high ∧ IsLow low then pair high low :: decode units
      else single high :: decode (low :: units)

theorem decode_cons {unit : Nat} (h : ¬ IsHigh unit) (units : List Nat) :
    decode (unit :: units) = single unit :: decode units := by
  cases units with
  | nil => rfl
  | cons low units => exact if_neg fun hpair => h hpair.1

theorem decode_encodeChar (c : Char) (units : List Nat) :
    decode (encodeChar c ++ units) = c :: decode units := by
  have hvalid : c.toNat < 0xD800 ∨ 0xDFFF < c.toNat ∧ c.toNat < 0x110000 := c.valid
  have hc : Char.ofNat c.toNat = c := Char.ofNat_toNat c
  unfold encodeChar
  split
  next h =>
    have hhigh : ¬ IsHigh c.toNat := by unfold IsHigh; omega
    have hlow : ¬ IsLow c.toNat := by unfold IsLow; omega
    rw [List.singleton_append, decode_cons hhigh, single, if_neg (not_or.mpr ⟨hhigh, hlow⟩), hc]
  next h =>
    have hhigh : IsHigh (0xD800 + (c.toNat - 0x10000) / 0x400) := by unfold IsHigh; omega
    have hlow : IsLow (0xDC00 + (c.toNat - 0x10000) % 0x400) := by unfold IsLow; omega
    have hcode : 0x10000 + (0xD800 + (c.toNat - 0x10000) / 0x400 - 0xD800) * 0x400 +
        (0xDC00 + (c.toNat - 0x10000) % 0x400 - 0xDC00) = c.toNat := by omega
    refine (if_pos ⟨hhigh, hlow⟩).trans ?_
    rw [pair, hcode, hc]
    rfl

/-- **What encodes characters** is decoded to them. -/
theorem decode_encode (cs : List Char) : decode (encode cs) = cs := by
  induction cs with
  | nil => rfl
  | cons c cs ih =>
      rw [encode, List.flatMap_cons]
      exact (decode_encodeChar c _).trans (congrArg (c :: ·) ih)

end Utf16

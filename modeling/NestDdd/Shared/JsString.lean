import Mathlib.Data.List.DropRight
import NestDdd.Shared.JsValue

/-!
# Shared — strings

The methods of JavaScript's strings that the source calls.

* `trim` strips white space and line ends; `indexOf` is the place of the first occurrence
  (`prefix_of_indexOf`).
* `LowerCase` is any Unicode table for `toLowerCase`: on ASCII all of them agree.
-/

namespace NestDdd

/-- What `trim` strips and `\s` matches. -/
def isWhiteSpace (c : Char) : Bool :=
  let code := c.toNat
  9 ≤ code && code ≤ 13 || code == 0x20 || code == 0xA0 || code == 0x1680 ||
    0x2000 ≤ code && code ≤ 0x200A || code == 0x2028 || code == 0x2029 || code == 0x202F ||
    code == 0x205F || code == 0x3000 || code == 0xFEFF

/-- `s.trim()`. -/
def trimChars (cs : List Char) : List Char := (cs.dropWhile isWhiteSpace).rdropWhile isWhiteSpace

def trim (s : String) : String := String.ofList (trimChars s.toList)

/-- Text without white space at its ends. -/
theorem trimChars_eq_self {cs : List Char} (hhead : ∀ c ∈ cs.head?, isWhiteSpace c = false)
    (hlast : ∀ c ∈ cs.getLast?, isWhiteSpace c = false) : trimChars cs = cs := by
  have hdrop : cs.dropWhile isWhiteSpace = cs := by
    cases cs with
    | nil => rfl
    | cons c cs => exact List.dropWhile_cons_of_neg (by simp [hhead c rfl])
  rw [trimChars, hdrop, List.rdropWhile_eq_self_iff]
  intro hne
  simp [hlast _ (List.getLast?_eq_some_getLast hne)]

theorem trimChars_of_none {cs : List Char} (h : ∀ c ∈ cs, isWhiteSpace c = false) :
    trimChars cs = cs :=
  trimChars_eq_self (fun c hc => h c (List.mem_of_mem_head? hc))
    fun c hc => h c (List.mem_of_mem_getLast? hc)

theorem trimChars_cons {c : Char} (h : isWhiteSpace c = true) (cs : List Char) :
    trimChars (c :: cs) = trimChars cs := by
  rw [trimChars, List.dropWhile_cons_of_pos h, trimChars]

/-- Nothing is stripped behind a character that is not white space. -/
theorem trimChars_concat {c : Char} (h : isWhiteSpace c = false) (cs : List Char) :
    ∃ rest, trimChars (cs ++ [c]) = rest ++ [c] ∧ rest <:+ cs := by
  induction cs with
  | nil => exact ⟨[], trimChars_eq_self (by simpa using h) (by simpa using h), List.suffix_rfl⟩
  | cons d cs ih =>
      by_cases hd : isWhiteSpace d = true
      · obtain ⟨rest, hrest, hsuffix⟩ := ih
        refine ⟨rest, ?_, hsuffix.trans (List.suffix_cons d cs)⟩
        rw [List.cons_append, trimChars_cons hd, hrest]
      · refine ⟨d :: cs, trimChars_eq_self ?_ ?_, List.suffix_rfl⟩
        · rintro e ⟨rfl⟩
          exact Bool.not_eq_true _ ▸ hd
        · intro e he
          rw [List.getLast?_concat] at he
          exact Option.some.inj he ▸ h

/-- What is stripped does not begin with white space. -/
theorem head_of_trimChars_eq {c : Char} {cs : List Char} (h : trimChars (c :: cs) = c :: cs) :
    isWhiteSpace c = false := by
  by_contra hc
  have hle : (trimChars cs).length ≤ cs.length :=
    (List.rdropWhile_prefix isWhiteSpace _).length_le.trans (List.dropWhile_suffix _).length_le
  rw [← trimChars_cons (Bool.not_eq_false _ ▸ hc), h, List.length_cons] at hle
  omega

theorem trimChars_ne_nil {c : Char} {cs : List Char} (h : isWhiteSpace c = false) :
    trimChars (c :: cs) ≠ [] := by
  intro hnil
  rw [trimChars, List.dropWhile_cons_of_neg (by simp [h]), List.rdropWhile_eq_nil_iff] at hnil
  exact Bool.noConfusion (h.symm.trans (hnil c List.mem_cons_self))

/-- What stands before a character that is not white space stays. -/
theorem trimChars_append {c : Char} (hc : isWhiteSpace c = false) {cs : List Char}
    (hhead : ∀ d ∈ cs.head?, isWhiteSpace d = false) (ds : List Char) :
    trimChars (cs ++ c :: ds) = cs ++ c :: ds.rdropWhile isWhiteSpace := by
  have hdrop : (cs ++ c :: ds).dropWhile isWhiteSpace = cs ++ c :: ds := by
    cases cs with
    | nil => exact List.dropWhile_cons_of_neg (by simp [hc])
    | cons d cs => exact List.dropWhile_cons_of_neg (by simp [hhead d rfl])
  have hrest : (c :: cs.reverse).dropWhile isWhiteSpace = c :: cs.reverse :=
    List.dropWhile_cons_of_neg (by simp [hc])
  rw [trimChars, hdrop, List.rdropWhile, List.rdropWhile, List.reverse_append, List.reverse_cons,
    List.append_assoc, List.singleton_append, List.dropWhile_append, hrest]
  split
  next h => simp [List.isEmpty_iff.mp h]
  next => simp

theorem mem_of_mem_trimChars {c : Char} {cs : List Char} (h : c ∈ trimChars cs) : c ∈ cs :=
  List.dropWhile_subset _ ((List.rdropWhile_prefix isWhiteSpace _).subset h)

/-- `s.indexOf(sub)`, `none` for -1. -/
def indexOf (sub : List Char) : List Char → Option Nat
  | [] => if sub.isPrefixOf [] then some 0 else none
  | c :: cs => if sub.isPrefixOf (c :: cs) then some 0 else (indexOf sub cs).map (· + 1)

/-- `s.includes(sub)`. -/
def includes (sub s : List Char) : Bool := (indexOf sub s).isSome

/-- An occurrence stands where it is found. -/
theorem prefix_of_indexOf {sub s : List Char} {i : Nat} (h : indexOf sub s = some i) :
    sub <+: s.drop i := by
  induction s generalizing i with
  | nil =>
      obtain ⟨hbegins, h⟩ := Option.ite_none_right_eq_some.mp h
      rw [← Option.some.inj h]
      exact List.isPrefixOf_iff_prefix.mp hbegins
  | cons c cs ih =>
      rw [indexOf] at h
      split at h
      next hbegins =>
        rw [← Option.some.inj h]
        exact List.isPrefixOf_iff_prefix.mp hbegins
      next =>
        obtain ⟨j, hj, rfl⟩ := Option.map_eq_some_iff.mp h
        exact ih hj

theorem mem_of_includes {sub s : List Char} (h : includes sub s = true) {c : Char} (hc : c ∈ sub) :
    c ∈ s := by
  obtain ⟨i, hi⟩ := Option.isSome_iff_exists.mp h
  exact List.mem_of_mem_drop ((prefix_of_indexOf hi).subset hc)

/-- A digit of lower-case hex. -/
def hexDigit (n : Nat) : Char := if n < 10 then Char.ofNat (48 + n) else Char.ofNat (87 + n)

/-- `s.toLowerCase()`. -/
structure LowerCase where
  lower : String → String
  ascii (s : String) : (∀ c ∈ s.toList, c.toNat < 128) → lower s = toLowerCase s

/-- The table that leaves all but ASCII as it is. -/
def LowerCase.ofAscii : LowerCase := ⟨toLowerCase, fun _ _ => rfl⟩

end NestDdd

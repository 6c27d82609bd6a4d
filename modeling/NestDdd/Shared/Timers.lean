import Mathlib.Data.Rat.Floor
import Mathlib.Tactic.Linarith

/-!
# Shared — timers

How long a `setTimeout` takes, in milliseconds: a delay below 1, or one that no 32-bit integer
holds, is taken for 1, and of any other the fraction is cut off.

* `setTimeoutOf_eq_iff`: the delays that are waited for as they are.
-/

namespace NestDdd

/-- What `setTimeout` makes of a whole number. -/
def setTimeoutMs (ms : Nat) : Nat := if 1 ≤ ms ∧ ms ≤ 2147483647 then ms else 1

/-- What it makes of any number. -/
def setTimeoutOf (ms : ℚ) : ℕ := if 1 ≤ ms ∧ ms ≤ 2147483647 then ⌊ms⌋₊ else 1

/-- A delay that a timer keeps: whole milliseconds, at least one, and no more than a timer holds. -/
def TimerKeeps (ms : ℚ) : Prop := ∃ n : ℕ, ms = n ∧ 1 ≤ n ∧ n ≤ 2147483647

theorem le_setTimeoutMs {ms : Nat} (h : ms ≤ 2147483647) : ms ≤ setTimeoutMs ms := by
  unfold setTimeoutMs
  split <;> omega

theorem setTimeoutMs_of_lt {ms : Nat} (h : 2147483647 < ms) : setTimeoutMs ms = 1 :=
  if_neg fun hin => absurd hin.2 (by omega)

theorem setTimeoutOf_natCast (n : ℕ) : setTimeoutOf n = setTimeoutMs n := by
  have hin : (1 ≤ (n : ℚ) ∧ (n : ℚ) ≤ 2147483647) ↔ 1 ≤ n ∧ n ≤ 2147483647 := by
    exact_mod_cast Iff.rfl
  simp only [setTimeoutOf, setTimeoutMs, hin, Nat.floor_natCast]

/-- A timer runs no longer than a bound that its delay keeps to. -/
theorem setTimeoutOf_le {ms : ℚ} {n : ℕ} (hn : 1 ≤ n) (h : ms ≤ n) : setTimeoutOf ms ≤ n := by
  unfold setTimeoutOf
  split
  next hin =>
    have hfloor : (⌊ms⌋₊ : ℚ) ≤ ms := Nat.floor_le (by linarith [hin.1])
    exact_mod_cast hfloor.trans h
  next => exact hn

/-- **A timer keeps a delay** that is a whole number of milliseconds within its range. -/
theorem setTimeoutOf_eq_iff {ms : ℚ} : (setTimeoutOf ms : ℚ) = ms ↔ TimerKeeps ms := by
  constructor
  · intro h
    refine ⟨setTimeoutOf ms, h.symm, ?_⟩
    unfold setTimeoutOf at h ⊢
    split at h
    next hin =>
      rw [if_pos hin]
      rw [← h] at hin
      exact_mod_cast hin
    next hout =>
      rw [if_neg hout]
      omega
  · rintro ⟨n, rfl, hin⟩
    rw [setTimeoutOf_natCast, setTimeoutMs, if_pos hin]

end NestDdd

import Mathlib.Algebra.Order.Group.Defs
import Mathlib.Data.List.TakeWhile

/-!
# Runs — a rolling window

A limiter admits at most `cap` events in any stretch of time of length `width`.  It keeps the times
of past admissions, oldest first, drops those that have left the window, and admits while fewer
than `cap` are left.

* `Rolling width cap clock kept all`: at `clock`, `kept` is what the limiter still has of the
  admission times `all`, newest first.
* `Rolling.window`: a closed stretch of length `width` holds at most `cap` admissions, wherever it
  lies.
-/

namespace Runs

universe u

variable {α : Type u} [AddCommGroup α] [LinearOrder α]

/-- How many of the times lie in `[a, a + width]`. -/
def within (width a : α) (times : List α) : Nat :=
  times.countP fun t => a ≤ t ∧ t ≤ a + width

structure Rolling (width : α) (cap : Nat) (clock : α) (kept all : List α) : Prop where
  split : ∃ dropped, all = kept.reverse ++ dropped ∧ ∀ t ∈ dropped, t < clock - width
  window : ∀ a, within width a all ≤ cap

namespace Rolling

variable {width clock clock' : α} {cap : Nat} {kept all : List α}

theorem nil : Rolling width cap clock [] [] :=
  ⟨⟨[], rfl, by simp⟩, fun _ => Nat.zero_le _⟩

/-- Dropping from the front what has left the window. -/
theorem prune (h : Rolling width cap clock kept all) :
    Rolling width cap clock (kept.dropWhile (· < clock - width)) all := by
  obtain ⟨dropped, rfl, hd⟩ := h.split
  refine ⟨⟨(kept.takeWhile (· < clock - width)).reverse ++ dropped, ?_, fun t ht => ?_⟩, h.window⟩
  · rw [← List.append_assoc, ← List.reverse_append, List.takeWhile_append_dropWhile]
  · rcases List.mem_append.mp ht with ht | ht
    · have hleft := List.mem_takeWhile_imp (List.mem_reverse.mp ht)
      exact of_decide_eq_true hleft
    · exact hd t ht

variable [IsOrderedAddMonoid α]

theorem later (h : Rolling width cap clock kept all) (hc : clock ≤ clock') :
    Rolling width cap clock' kept all := by
  obtain ⟨dropped, rfl, hd⟩ := h.split
  exact ⟨⟨dropped, rfl, fun t ht => (hd t ht).trans_le (sub_le_sub_right hc width)⟩, h.window⟩

/-- A stretch that reaches up to now holds nothing that was dropped. -/
theorem within_le_kept (h : Rolling width cap clock kept all) {a : α} (ha : clock ≤ a + width) :
    within width a all ≤ kept.length := by
  obtain ⟨dropped, rfl, hd⟩ := h.split
  have hnone : within width a dropped = 0 := by
    refine List.countP_eq_zero.mpr fun t ht hin => ?_
    have hat : a ≤ t := (of_decide_eq_true hin).1
    exact absurd (hat.trans_lt (hd t ht)) (not_lt.mpr (sub_le_iff_le_add.mpr ha))
  calc within width a (kept.reverse ++ dropped)
      = within width a kept.reverse + within width a dropped := List.countP_append ..
    _ ≤ kept.reverse.length := by rw [hnone]; exact List.countP_le_length
    _ = kept.length := List.length_reverse

/-- **Admitting one more** keeps every window within the cap. -/
theorem admitted (h : Rolling width cap clock kept all) (hroom : kept.length < cap) :
    Rolling width cap clock (kept ++ [clock]) (clock :: all) := by
  refine ⟨?_, fun a => ?_⟩
  · obtain ⟨dropped, rfl, hd⟩ := h.split
    exact ⟨dropped, by simp, hd⟩
  · by_cases hin : a ≤ clock ∧ clock ≤ a + width
    · have hle := h.within_le_kept hin.2
      have hcons : within width a (clock :: all) = within width a all + 1 :=
        List.countP_cons_of_pos (decide_eq_true hin)
      omega
    · have hcons : within width a (clock :: all) = within width a all :=
        List.countP_cons_of_neg (by simpa using hin)
      rw [hcons]
      exact h.window a

end Rolling

end Runs

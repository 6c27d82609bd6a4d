import Mathlib.Data.List.Basic

/-!
# Runs — histories

A history is a list of events with the newest first, so that what a machine does next is put in
front.  `Happened past e earlier` says that `e` is in the history `past`, and that `earlier` is all
that came before it.
-/

namespace Runs

universe u

variable {ε : Type u}

def Happened (past : List ε) (e : ε) (earlier : List ε) : Prop := e :: earlier <:+ past

namespace Happened

variable {past earlier new : List ε} {a e : ε}

theorem not_nil : ¬ Happened [] e earlier := by simp [Happened]

theorem cons_iff :
    Happened (a :: past) e earlier ↔ (e = a ∧ earlier = past) ∨ Happened past e earlier := by
  rw [Happened, List.suffix_cons_iff, List.cons.injEq, Happened]

theorem mem (h : Happened past e earlier) : e ∈ past := h.subset List.mem_cons_self

/-- What came before an event is in the history too. -/
theorem mem_of_earlier (h : Happened past e earlier) (ha : a ∈ earlier) : a ∈ past :=
  h.subset (List.mem_cons_of_mem e ha)

theorem append (h : Happened past e earlier) (new : List ε) : Happened (new ++ past) e earlier :=
  h.trans (List.suffix_append ..)

/-- What happened stays in a longer history. -/
theorem mono {past' : List ε} (h : Happened past e earlier) (hp : past <:+ past') :
    Happened past' e earlier :=
  h.trans hp

/-- An event of the history did not happen among new events that differ from it. -/
theorem of_append (h : Happened (new ++ past) e earlier) (hnew : e ∉ new) :
    Happened past e earlier := by
  induction new with
  | nil => exact h
  | cons b new ih =>
      rw [List.cons_append, cons_iff] at h
      rcases h with ⟨rfl, -⟩ | h
      · exact absurd List.mem_cons_self hnew
      · exact ih h fun hmem => hnew (List.mem_cons_of_mem b hmem)

theorem of_cons (h : Happened (a :: past) e earlier) (ha : e ≠ a) : Happened past e earlier :=
  (cons_iff.mp h).resolve_left fun hea => ha hea.1

/-- An event among new ones: what came before it is what was there, and some of the new. -/
theorem append_cases (h : Happened (new ++ past) e earlier) :
    (e ∈ new ∧ ∃ rest, earlier = rest ++ past ∧ rest ⊆ new) ∨ Happened past e earlier := by
  induction new with
  | nil => exact .inr h
  | cons b new ih =>
      rw [List.cons_append, cons_iff] at h
      rcases h with ⟨rfl, rfl⟩ | h
      · exact .inl ⟨List.mem_cons_self, new, rfl, List.subset_cons_self ..⟩
      · refine (ih h).imp_left fun ⟨he, rest, hrest, hsub⟩ =>
          ⟨List.mem_cons_of_mem b he, rest, hrest, fun a ha => List.mem_cons_of_mem b (hsub ha)⟩

end Happened

end Runs

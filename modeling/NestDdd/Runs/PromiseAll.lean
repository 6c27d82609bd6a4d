import NestDdd.Runs.Machine
import Mathlib.Data.List.Basic

/-!
# Runs — calls gathered by `Promise.all`

Calls that are begun together and settle in any order.  A call that resolves writes its value to
the state that all of them share; the first that rejects decides the outcome, and the others still
write.

* `Gathering.Settled`: what a run has settled, as a property of its labels.
* `Run.settled`: the labels of a run say all about where it leads.
* `written_frame`, `cell_written`: if each call writes a cell of its own, no write is lost, in
  whatever order they come.
-/

namespace Runs

universe u v w x

variable {σ : Type u} {ι : Type v} {α : Type w} {ε : Type x}

/-- The state that the calls share, those that have yet to settle, and the first error. -/
structure Gathering (σ : Type u) (ι : Type v) (ε : Type x) where
  state : σ
  pending : List ι
  error : Option ε

/-- A call and how it settles. -/
abbrev Settlement (ι : Type v) (α : Type w) (ε : Type x) := ι × Except ε α

/-- The error of a call that rejects. -/
def Settlement.error? : Settlement ι α ε → Option ε
  | (_, .ok _) => none
  | (_, .error e) => some e

theorem Settlement.error?_eq_none {l : Settlement ι α ε} :
    l.error? = none ↔ ∃ a, l = (l.1, .ok a) := by
  obtain ⟨i, r⟩ := l
  cases r <;> simp [error?]

theorem Settlement.error?_eq_some {l : Settlement ι α ε} {e : ε} :
    l.error? = some e ↔ l = (l.1, .error e) := by
  obtain ⟨i, r⟩ := l
  cases r <;> simp [error?]

section

variable (effect : ι → α → σ → σ)

/-- What a call that settles writes. -/
def Settlement.write : Settlement ι α ε → σ → σ
  | (i, .ok a), s => effect i a s
  | (_, .error _), s => s

/-- What is written in the order of the settlements. -/
def written (s : σ) : List (Settlement ι α ε) → σ
  | [] => s
  | l :: ls => written (l.write effect s) ls

theorem written_snoc (s : σ) (ls : List (Settlement ι α ε)) (l : Settlement ι α ε) :
    written effect s (ls ++ [l]) = l.write effect (written effect s ls) := by
  induction ls generalizing s with
  | nil => rfl
  | cons l' ls ih => exact ih _

/-- What has become of `calls` that began on `s₀`, after `ls`: each has settled once or is pending,
`error` is the first error, and `state` has every value written. -/
structure Gathering.Settled (s₀ : σ) (calls : List ι) (ls : List (Settlement ι α ε))
    (g : Gathering σ ι ε) : Prop where
  calls : (ls.map Prod.fst ++ g.pending).Perm calls
  error : g.error = ls.findSome? Settlement.error?
  state : g.state = written effect s₀ ls

variable [DecidableEq ι]

/-- The first error stays. -/
def gather : Machine (Gathering σ ι ε) (Settlement ι α ε) where
  step g l :=
    if l.1 ∈ g.pending then
      some ⟨l.write effect g.state, g.pending.erase l.1, g.error.or l.error?⟩
    else none

end

section

variable {effect : ι → α → σ → σ} {s₀ : σ} {calls : List ι}
  {ls : List (Settlement ι α ε)} {l : Settlement ι α ε} {g g' : Gathering σ ι ε}

theorem Gathering.Settled.start :
    (⟨s₀, calls, none⟩ : Gathering σ ι ε).Settled effect s₀ calls [] :=
  ⟨.refl _, rfl, rfl⟩

theorem Gathering.Settled.step [DecidableEq ι] (h : g.Settled effect s₀ calls ls)
    (hs : (gather effect).step g l = some g') : g'.Settled effect s₀ calls (ls ++ [l]) := by
  obtain ⟨hmem, hs⟩ := Option.ite_none_right_eq_some.mp hs
  obtain rfl := Option.some.inj hs
  refine ⟨List.Perm.trans ?_ h.calls, ?_, ?_⟩
  · rw [List.map_append, List.append_assoc]
    exact (List.perm_cons_erase hmem).symm.append_left _
  · rw [h.error, List.findSome?_append]
    simp
  · rw [h.state, written_snoc]

/-- What a run settles. -/
theorem Run.settled [DecidableEq ι]
    {G : Gathering σ ι ε → Settlement ι α ε → Gathering σ ι ε → Prop}
    (r : Run (gather effect) G ⟨s₀, calls, none⟩ ls g) : g.Settled effect s₀ calls ls := by
  induction r with
  | nil => exact .start
  | snoc _ hs _ ih => exact ih.step hs

namespace Gathering.Settled

/-- The error is that of the first call to fail. -/
theorem first (h : g.Settled effect s₀ calls ls) {e : ε} (he : g.error = some e) :
    ∃ before i after, ls = before ++ (i, .error e) :: after ∧
      ∀ l ∈ before, ∃ a, l = (l.1, .ok a) := by
  rw [h.error, List.findSome?_eq_some_iff] at he
  obtain ⟨before, l, after, rfl, hl, hbefore⟩ := he
  rw [Settlement.error?_eq_some] at hl
  exact ⟨before, l.1, after, hl ▸ rfl, fun l' hl' => Settlement.error?_eq_none.mp (hbefore l' hl')⟩

/-- Without an error, every call that has settled has resolved. -/
theorem resolved (h : g.Settled effect s₀ calls ls) (he : g.error = none) :
    ∀ l ∈ ls, ∃ a, l = (l.1, .ok a) := by
  rw [h.error, List.findSome?_eq_none_iff] at he
  exact fun l hl => Settlement.error?_eq_none.mp (he l hl)

/-- A call settles once. -/
theorem once (h : g.Settled effect s₀ calls ls) (hcalls : calls.Nodup) :
    (ls.map Prod.fst).Nodup :=
  (List.nodup_append.mp (h.calls.nodup_iff.mpr hcalls)).1

end Gathering.Settled

/-- What no call writes stays as it was. -/
theorem written_frame {β : Type*} {f : σ → β} (hf : ∀ i a s, f (effect i a s) = f s) (s₀ : σ)
    (ls : List (Settlement ι α ε)) : f (written effect s₀ ls) = f s₀ := by
  induction ls generalizing s₀ with
  | nil => rfl
  | cons l ls ih =>
      refine (ih _).trans ?_
      obtain ⟨i, r⟩ := l
      cases r with
      | ok a => exact hf i a s₀
      | error e => rfl

/-- **No write is lost.**  If the value of a call is read from a cell that only it writes, it is
read whatever else is written, before or after. -/
theorem cell_written [DecidableEq ι] {β : Type*} {cell : σ → ι → β} {val : ι → α → β}
    (hcell : ∀ i a s j, cell (effect i a s) j = if j = i then val i a else cell s j)
    (honce : (ls.map Prod.fst).Nodup) :
    (∀ i a, (i, .ok a) ∈ ls → cell (written effect s₀ ls) i = val i a) ∧
      ∀ i, (∀ a, (i, .ok a) ∉ ls) → cell (written effect s₀ ls) i = cell s₀ i := by
  induction ls generalizing s₀ with
  | nil => exact ⟨(fun _ _ hmem => nomatch hmem), fun _ _ => rfl⟩
  | cons l ls ih =>
      rw [List.map_cons, List.nodup_cons] at honce
      obtain ⟨hwritten, hkept⟩ := @ih (l.write effect s₀) honce.2
      refine ⟨fun i a hmem => ?_, fun i hnone => ?_⟩
      · rcases List.mem_cons.mp hmem with rfl | hmem
        · -- it has settled, and will not again
          have hlast : ∀ a', (i, .ok a') ∉ ls := fun a' hmem' =>
            honce.1 (List.mem_map.mpr ⟨_, hmem', rfl⟩)
          exact (hkept i hlast).trans ((hcell i a s₀ i).trans (if_pos rfl))
        · exact hwritten i a hmem
      · refine (hkept i fun a hmem => hnone a (List.mem_cons_of_mem _ hmem)).trans ?_
        obtain ⟨i₀, r⟩ := l
        cases r with
        | ok a =>
            refine (hcell i₀ a s₀ i).trans (if_neg ?_)
            rintro rfl
            exact hnone a List.mem_cons_self
        | error e => rfl

end

end Runs

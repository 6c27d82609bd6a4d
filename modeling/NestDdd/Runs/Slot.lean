import NestDdd.Runs.Machine

/-!
# Runs — an exclusive slot

A slot is held by at most one owner.  An owner takes it when it is vacant, or supplants the one
who holds it; it becomes vacant when its owner's holding is ended.  Every move says whose holding
it ends, and why.

* `Slot.ended_between`: in every history of a slot, whoever takes it after `a` did so after a move
  that ended the holding of `a`, or by one.
-/

namespace Runs

universe u v

namespace Slot

inductive Move (α : Type u) (ε : Type v) where
  | take (a : α)
  | supplant (old a : α) (why : ε)
  | vacate (old : α) (why : ε)

variable {α : Type u} {ε : Type v}

/-- Who holds the slot by this move. -/
def Move.taker : Move α ε → Option α
  | .take a | .supplant _ a _ => some a
  | .vacate _ _ => none

/-- Whose holding this move ends, and why. -/
def Move.ended : Move α ε → Option (α × ε)
  | .take _ => none
  | .supplant old _ why | .vacate old why => some (old, why)

/-- The slot as a machine: its state is who holds it. -/
def machine [DecidableEq α] : Machine (Option α) (Move α ε) where
  step
    | none, .take a => some (some a)
    | some h, .supplant old a _ => if h = old then some (some a) else none
    | some h, .vacate old _ => if h = old then some none else none
    | _, _ => none

variable [DecidableEq α] {G : Option α → Move α ε → Option α → Prop} {a b h : α} {why : ε}
  {s s' : Option α} {m : Move α ε}

theorem step_taker (hm : m.taker = some a) (hs : machine.step s m = some s') : s' = some a := by
  cases m with
  | take b =>
      obtain rfl := Option.some.inj hm
      cases s with
      | none => exact (Option.some.inj hs).symm
      | some h => cases hs
  | supplant old b why =>
      obtain rfl := Option.some.inj hm
      cases s with
      | none => cases hs
      | some h =>
          simp only [machine, Option.ite_none_right_eq_some] at hs
          exact (Option.some.inj hs.2).symm
  | vacate old why => cases hm

/-- Nothing moves a held slot without ending the holding. -/
theorem step_held (hs : machine.step (some h) m = some s') : ∃ why, m.ended = some (h, why) := by
  cases m with
  | take b => cases hs
  | supplant old b why | vacate old why =>
      simp only [machine, Option.ite_none_right_eq_some] at hs
      exact ⟨why, by rw [hs.1]; rfl⟩

/-- **Holdings do not overlap.**  Between two takings of a slot a move ends the holding of the
first, at the latest the second taking itself. -/
theorem ended_between {pre mid post : List (Move α ε)} {l₁ l₂ : Move α ε}
    (hrun : Run machine G s (pre ++ l₁ :: (mid ++ l₂ :: post)) s') (h₁ : l₁.taker = some a) :
    ∃ m ∈ mid ++ [l₂], ∃ t t' why, m.ended = some (a, why) ∧ machine.step t m = some t' ∧
      G t m t' := by
  obtain ⟨s₁, -, hrun⟩ := hrun.split rfl
  obtain ⟨s₂, hs₂, -, hrun⟩ := hrun.uncons
  obtain rfl := step_taker h₁ hs₂
  -- the very next move ends the holding of `a`
  cases mid with
  | nil =>
      obtain ⟨s₃, hs₃, hg, -⟩ := hrun.uncons
      obtain ⟨why, hwhy⟩ := step_held hs₃
      exact ⟨l₂, by simp, _, _, why, hwhy, hs₃, hg⟩
  | cons m mid =>
      obtain ⟨s₃, hs₃, hg, -⟩ := hrun.uncons
      obtain ⟨why, hwhy⟩ := step_held hs₃
      exact ⟨m, by simp, _, _, why, hwhy, hs₃, hg⟩

end Slot

end Runs

import Mathlib.Logic.Function.Basic

/-!
# Runs — labelled machines

A *machine* steps from a state along a label; a label not enabled in a state leads nowhere.
All nondeterminism (who moves next, what the clock reads, what the environment answers) is in
the labels, so a run is a list of labels.

* `Run M G s ls s'`: the labels `ls` lead from `s` to `s'`, and every step on the way meets the
  guard `G`.  `G` says what the environment promises: that a deadline is kept, or that the step
  which goes wrong is not taken.
* `Run.invariant`: what holds of the first state and is kept by every guarded step holds of the
  last.
* `Run.length_le`, `Machine.exists_final`: if every step lowers a rank, runs are bounded and some
  run cannot go on.
* `Run.simulate`: if every guarded step of `M` is matched by a run of `N`, so is every run.
-/

namespace Runs

universe u v w x

/-- A machine with states `σ` and labels `ℓ`. -/
structure Machine (σ : Type u) (ℓ : Type v) where
  step : σ → ℓ → Option σ

variable {σ : Type u} {ℓ : Type v} {τ : Type w} {κ : Type x}

/-- The labels `ls` lead from `s` to the last state, and every step meets `G`. -/
inductive Run (M : Machine σ ℓ) (G : σ → ℓ → σ → Prop) (s : σ) : List ℓ → σ → Prop where
  | nil : Run M G s [] s
  | snoc {ls : List ℓ} {l : ℓ} {s₁ s₂ : σ} (r : Run M G s ls s₁) (h : M.step s₁ l = some s₂)
      (g : G s₁ l s₂) : Run M G s (ls ++ [l]) s₂

/-- The guard of a run whose environment promises nothing. -/
def Free : σ → ℓ → σ → Prop := fun _ _ _ => True

namespace Run

variable {M : Machine σ ℓ} {N : Machine τ κ} {G : σ → ℓ → σ → Prop} {H : τ → κ → τ → Prop}
  {s s₁ s₂ : σ} {ls ls₁ ls₂ : List ℓ} {l : ℓ}

theorem one (h : M.step s l = some s₁) (g : G s l s₁) : Run M G s [l] s₁ :=
  .snoc .nil h g

theorem append (r₁ : Run M G s ls₁ s₁) (r₂ : Run M G s₁ ls₂ s₂) : Run M G s (ls₁ ++ ls₂) s₂ := by
  induction r₂ with
  | nil => rwa [List.append_nil]
  | snoc _ h g ih => rw [← List.append_assoc]; exact .snoc ih h g

theorem cons (h : M.step s l = some s₁) (g : G s l s₁) (r : Run M G s₁ ls s₂) :
    Run M G s (l :: ls) s₂ :=
  (one h g).append r

theorem split (r : Run M G s ls s₂) :
    ∀ {ls₁ ls₂ : List ℓ}, ls = ls₁ ++ ls₂ → ∃ s₁, Run M G s ls₁ s₁ ∧ Run M G s₁ ls₂ s₂ := by
  induction r with
  | nil =>
      intro ls₁ ls₂ h
      obtain ⟨rfl, rfl⟩ := List.append_eq_nil_iff.mp h.symm
      exact ⟨_, .nil, .nil⟩
  | snoc r hl g ih =>
      intro ls₁ ls₂ h
      rcases List.eq_nil_or_concat ls₂ with rfl | ⟨ls₃, l, rfl⟩
      · rw [List.append_nil] at h
        subst h
        exact ⟨_, .snoc r hl g, .nil⟩
      · rw [List.concat_eq_append, ← List.append_assoc] at h
        obtain ⟨rfl, hlast⟩ := List.append_inj' h rfl
        obtain rfl := (List.cons.inj hlast).1
        obtain ⟨s₁, r₁, r₂⟩ := ih rfl
        exact ⟨s₁, r₁, List.concat_eq_append ▸ .snoc r₂ hl g⟩

theorem uncons (r : Run M G s (l :: ls) s₂) :
    ∃ s₁, M.step s l = some s₁ ∧ G s l s₁ ∧ Run M G s₁ ls s₂ := by
  obtain ⟨s₁, r₁, r₂⟩ := r.split (List.singleton_append (l := ls)).symm
  generalize hk : [l] = ks at r₁
  cases r₁ with
  | nil => cases hk
  | snoc r₀ h g =>
      cases r₀ with
      | nil =>
          obtain rfl := (List.cons.inj hk).1
          exact ⟨s₁, h, g, r₂⟩
      | snoc _ _ _ =>
          have := congrArg List.length hk
          simp at this

/-- **The invariant rule.**  What holds of the first state and is kept by every step that meets
the guard holds of the last state. -/
theorem invariant {I : σ → Prop} (h₀ : I s)
    (hstep : ∀ s l s', I s → M.step s l = some s' → G s l s' → I s') (r : Run M G s ls s₁) :
    I s₁ := by
  induction r with
  | nil => exact h₀
  | snoc _ h g ih => exact hstep _ _ _ ih h g

/-- **The simulation rule.**  `R` relates the states of `M` to states of `N`; if each guarded
step of `M` is matched by a run of `N`, every guarded run of `M` is. -/
theorem simulate {R : σ → τ → Prop} {t : τ} (h₀ : R s t)
    (hstep : ∀ s t l s', R s t → M.step s l = some s' → G s l s' →
      ∃ ks t', Run N H t ks t' ∧ R s' t') (r : Run M G s ls s₁) :
    ∃ ks t', Run N H t ks t' ∧ R s₁ t' := by
  induction r with
  | nil => exact ⟨[], t, .nil, h₀⟩
  | snoc _ h g ih =>
      obtain ⟨ks, t₁, r₁, hR₁⟩ := ih
      obtain ⟨ks', t₂, r₂, hR₂⟩ := hstep _ _ _ _ hR₁ h g
      exact ⟨ks ++ ks', t₂, r₁.append r₂, hR₂⟩

end Run

/-! ### Runs that end -/

section Ranked

variable {M : Machine σ ℓ} {I : σ → Prop} {rank : σ → Nat}

/-- If every step lowers the rank, a run is no longer than the rank it starts with. -/
theorem Run.length_le {G : σ → ℓ → σ → Prop} {s s₁ : σ} {ls : List ℓ}
    (hstep : ∀ s l s', I s → M.step s l = some s' → G s l s' → I s' ∧ rank s' < rank s)
    (h₀ : I s) (r : Run M G s ls s₁) : I s₁ ∧ ls.length + rank s₁ ≤ rank s := by
  induction r with
  | nil => exact ⟨h₀, by simp⟩
  | snoc _ h g ih =>
      obtain ⟨hI, hle⟩ := ih
      obtain ⟨hI', hlt⟩ := hstep _ _ _ hI h g
      refine ⟨hI', ?_⟩
      rw [List.length_append, List.length_singleton]
      omega

/-- And there is a run that cannot go on. -/
theorem Machine.exists_final
    (hstep : ∀ s l s', I s → M.step s l = some s' → I s' ∧ rank s' < rank s) (s : σ) (h₀ : I s) :
    ∃ ls s', Run M Free s ls s' ∧ ∀ l, M.step s' l = none := by
  induction hn : rank s using Nat.strongRecOn generalizing s with
  | _ n ih =>
      by_cases hfinal : ∀ l, M.step s l = none
      · exact ⟨[], s, .nil, hfinal⟩
      · obtain ⟨l, hl⟩ := not_forall.mp hfinal
        obtain ⟨s₁, h₁⟩ := Option.ne_none_iff_exists'.mp hl
        obtain ⟨hI, hlt⟩ := hstep s l s₁ h₀ h₁
        obtain ⟨ls, s', r, hs'⟩ := ih (rank s₁) (hn ▸ hlt) s₁ hI rfl
        exact ⟨l :: ls, s', .cons h₁ trivial r, hs'⟩

end Ranked

/-! ### Executing a list of labels -/

/-- The state a list of labels leads to, if each of them is enabled in turn. -/
def Machine.exec (M : Machine σ ℓ) : σ → List ℓ → Option σ
  | s, [] => some s
  | s, l :: ls => (M.step s l).bind fun s' => M.exec s' ls

/-- A list of labels that leads to a state is a run, under any guard that its labels meet. -/
theorem Run.of_exec {M : Machine σ ℓ} {G : σ → ℓ → σ → Prop} :
    ∀ {ls : List ℓ} {s s' : σ}, M.exec s ls = some s' → (∀ l ∈ ls, ∀ s₁ s₂, G s₁ l s₂) →
      Run M G s ls s'
  | [], s, s', h, _ => by
      obtain rfl : s = s' := Option.some.inj h
      exact .nil
  | l :: ls, s, s', h, hG => by
      obtain ⟨s₁, h₁, h₂⟩ := Option.bind_eq_some_iff.mp h
      have r := Run.of_exec h₂ fun k hk => hG k (List.mem_cons_of_mem l hk)
      exact .cons h₁ (hG l List.mem_cons_self s s₁) r

/-- The same, if each step also meets a guard. -/
def Machine.execUnder (M : Machine σ ℓ) (G : σ → ℓ → σ → Prop) [∀ s l s', Decidable (G s l s')] :
    σ → List ℓ → Option σ
  | s, [] => some s
  | s, l :: ls =>
      (M.step s l).bind fun s' => if G s l s' then M.execUnder G s' ls else none

theorem Run.of_execUnder {M : Machine σ ℓ} {G : σ → ℓ → σ → Prop}
    [∀ s l s', Decidable (G s l s')] :
    ∀ {ls : List ℓ} {s s' : σ}, M.execUnder G s ls = some s' → Run M G s ls s'
  | [], s, s', h => by
      obtain rfl : s = s' := Option.some.inj h
      exact .nil
  | l :: ls, s, s', h => by
      obtain ⟨s₁, h₁, h₂⟩ := Option.bind_eq_some_iff.mp h
      obtain ⟨g, h₂⟩ := Option.ite_none_right_eq_some.mp h₂
      exact .cons h₁ g (Run.of_execUnder h₂)

end Runs

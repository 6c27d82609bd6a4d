import NestDdd.Http.CircuitBreaker

/-!
# Http — an open circuit

What it takes for an open breaker to stay open.  `recordSuccess` closes the breaker whatever its
state, so the result of a call that was admitted before the breaker opened closes it too.

* `open_stays_open`: if no call but the trial records a success while the breaker is not closed, no
  call is admitted within `resetMs` of an opening.
* `late_success_closes`: a success that is late closes a breaker that has just opened.
-/

namespace NestDdd.Http

open Runs

universe u

section

variable {ι : Type u} [DecidableEq ι] {options : CircuitBreakerOptions} {s s' : BreakerState ι}
  {i : ι} {l : BreakerLabel ι}

/-- `i` is the call that the current half-open period has admitted. -/
def BreakerState.IsTrial (s : BreakerState ι) (i : ι) : Prop :=
  s.breaker.state = .halfOpen ∧ s.past.admittedSinceHalfOpened = [i]

/-- No call but the trial records a success while the breaker is not closed. -/
def TrialOnly (s : BreakerState ι) (l : BreakerLabel ι) (_ : BreakerState ι) : Prop :=
  match l with
  | .success i => s.breaker.state = .closed ∨ s.IsTrial i
  | .tick _ | .call _ | .failure _ => True

/-- If the step closes the breaker, it is the success of the trial. -/
def ClosedByTrial (s : BreakerState ι) (l : BreakerLabel ι) (s' : BreakerState ι) : Prop :=
  s.breaker.state ≠ .closed → s'.breaker.state = .closed → ∃ i, l = .success i ∧ s.IsTrial i

/-- A later admission is at least `resetMs` after an earlier opening. -/
def Apart (options : CircuitBreakerOptions) (later earlier : BreakerEvent ι) : Prop :=
  ∀ i t t', later = .admitted i t → earlier = .opened t' → t' + options.resetMs ≤ t

/-- Openings are over by `resetMs`, unless the breaker is still open from them. -/
structure BreakerState.Shut (options : CircuitBreakerOptions) (s : BreakerState ι) : Prop where
  clock : s.breaker.state = .opened → s.breaker.openedAt ≤ s.now
  openings : ∀ t, .opened t ∈ s.past →
    if s.breaker.state = .opened then t ≤ s.breaker.openedAt else t + options.resetMs ≤ s.now
  apart : s.past.Pairwise (Apart options)

namespace BreakerState

omit [DecidableEq ι] in
theorem Shut.fresh {now : Int} : (BreakerState.fresh now : BreakerState ι).Shut options where
  clock h := nomatch h
  openings _ h := nomatch h
  apart := .nil

section

omit [DecidableEq ι]

variable (hs : s.Shut options)

include hs

theorem Shut.over {t : Int} (h : s.breaker.state ≠ .opened) (ht : .opened t ∈ s.past) :
    t + options.resetMs ≤ s.now := by
  have := hs.openings t ht
  rwa [if_neg h] at this

theorem Shut.since {t : Int} (h : s.breaker.state = .opened) (ht : .opened t ∈ s.past) :
    t ≤ s.breaker.openedAt := by
  have := hs.openings t ht
  rwa [if_pos h] at this

/-- No opening is in the future. -/
theorem Shut.before {t : Int} (ht : .opened t ∈ s.past) : t ≤ s.now := by
  have hpos := options.resetMs_pos
  by_cases h : s.breaker.state = .opened
  · have h₁ := hs.since h ht
    have h₂ := hs.clock h
    omega
  · have h₁ := hs.over h ht
    omega

/-- What is no admission may come at any time. -/
theorem Shut.cons {e : BreakerEvent ι} (he : ∀ i t, e ≠ .admitted i t) :
    (e :: s.past).Pairwise (Apart options) :=
  .cons (fun _ _ i t _ h => absurd h (he i t)) hs.apart

end

omit [DecidableEq ι] in
/-- A call that is admitted when all openings are over. -/
theorem Shut.admitted {b : CircuitBreaker} {past : Past ι} (hb : b.state ≠ .opened)
    (hover : ∀ t, .opened t ∈ past → t + options.resetMs ≤ s.now)
    (hapart : past.Pairwise (Apart options)) :
    Shut options { s with breaker := b, past := .admitted i s.now :: past } := by
  refine ⟨fun h => absurd h hb, fun t ht => ?_, .cons (fun e he j t t' hj ht' => ?_) hapart⟩
  · rw [if_neg hb]
    rcases List.mem_cons.mp ht with h | h
    · cases h
    · exact hover t h
  · cases hj
    exact hover t' (ht' ▸ he)

theorem Shut.step (hs : s.Shut options) (h : (breakers options).step s l = some s')
    (hl : TrialOnly s l s') : s'.Shut options := by
  cases breakers_takes h with
  | tick d =>
      refine ⟨fun h => ?_, fun t ht => ?_, hs.apart⟩
      · have := hs.clock h
        show s.breaker.openedAt ≤ s.now + d
        omega
      · have := hs.openings t ht
        show if s.breaker.state = .opened then _ else t + options.resetMs ≤ s.now + d
        split
        next ho => rwa [if_pos ho] at this
        next ho => rw [if_neg ho] at this; omega
  | @call i hadm =>
      have hasks := @ask_asks ι options s i
      generalize s.ask options i = r at hasks ⊢
      cases hasks with
      | passed ho =>
          have hne : s.breaker.state ≠ .opened := by simp [ho]
          exact .admitted hne (fun t => hs.over hne) hs.apart
      | trial ho ht =>
          -- the last opening was at `openedAt`, and all others were before it
          refine .admitted (by simp) (fun t hm => ?_) (hs.cons (by simp))
          rcases List.mem_cons.mp hm with hm | hm
          · cases hm
          · have := hs.since ho hm
            omega
      | freed ho ht =>
          have hne : s.breaker.state ≠ .opened := by simp [ho]
          exact .admitted (by simp) (fun t => hs.over hne) hs.apart
      | early ms ho ht => exact hs
      | taken ms ho ht => exact hs
  | @success i hf =>
      have hne : s.breaker.state ≠ .opened := by
        rcases hl with hc | ⟨hc, -⟩ <;> simp [hc]
      refine ⟨by simp [succeed, CircuitBreaker.recordSuccess], fun t ht => ?_, hs.cons (by simp)⟩
      rcases List.mem_cons.mp ht with ht | ht
      · cases ht
      · exact hs.over hne ht
  | @failure i hf =>
      have hrec : (.recorded i false :: s.past).Pairwise (Apart options) :=
        hs.cons (by simp)
      have hmem : ∀ {t}, .opened t ∈ .recorded i false :: s.past → .opened t ∈ s.past := by
        intro t ht
        rcases List.mem_cons.mp ht with ht | ht
        · cases ht
        · exact ht
      rw [BreakerState.fail]
      cases ho : s.breaker.opens options with
      | true =>
          rw [CircuitBreaker.recordFailure_opens ho, if_pos rfl]
          refine ⟨fun _ => Int.le_refl _, fun t ht => ?_, .cons (fun _ _ i t _ h => ?_) hrec⟩
          · show t ≤ s.now
            rcases List.mem_cons.mp ht with ht | ht
            · cases ht; exact Int.le_refl _
            · exact hs.before (hmem ht)
          · cases h
      | false =>
          rw [CircuitBreaker.recordFailure_counts ho, if_neg Bool.false_ne_true]
          exact ⟨hs.clock, fun t ht => hs.openings t (hmem ht), hrec⟩

/-- A success closes the breaker, and no other step does. -/
theorem closedByTrial_iff (h : (breakers options).step s l = some s') :
    ClosedByTrial s l s' ↔ TrialOnly s l s' := by
  cases breakers_takes h with
  | tick d =>
      exact iff_of_true (fun ho hc => absurd hc ho) trivial
  | @call i hadm =>
      refine iff_of_true (fun ho => ?_) trivial
      have hasks := @ask_asks ι options s i
      generalize s.ask options i = r at hasks ⊢
      intro hc
      cases hasks with
      | passed hs => exact absurd hs ho
      | trial hs ht => cases hc
      | freed hs ht => cases hc
      | early ms hs ht => exact absurd hc ho
      | taken ms hs ht => exact absurd hc ho
  | @success i hf =>
      refine ⟨fun hc => ?_, fun hl ho _ => ⟨i, rfl, hl.resolve_left ho⟩⟩
      by_cases ho : s.breaker.state = .closed
      · exact .inl ho
      · obtain ⟨j, hj, htrial⟩ := hc ho rfl
        cases hj
        exact .inr htrial
  | @failure i hf =>
      refine iff_of_true (fun ho hc => ?_) trivial
      rw [BreakerState.fail] at hc
      cases hop : s.breaker.opens options with
      | true => rw [CircuitBreaker.recordFailure_opens hop] at hc; cases hc
      | false => rw [CircuitBreaker.recordFailure_counts hop] at hc; exact absurd hc ho

end BreakerState

/-- **An open circuit stays open, if only the trial may close it.**  In every run in which no call
but the trial of the current half-open period records a success while the breaker is not closed,
every admission is at least `resetMs` after every earlier opening, and the breaker is only ever
closed by the success of that trial.  Any other success closes it as well. -/
theorem open_stays_open {now : Int} {ls : List (BreakerLabel ι)}
    (r : Run (breakers options) TrialOnly (.fresh now) ls s) :
    s.past.Pairwise (Apart options) ∧
      ∀ l s', (breakers options).step s l = some s' → (ClosedByTrial s l s' ↔ TrialOnly s l s') :=
  ⟨(@Run.invariant _ _ _ _ _ _ _ (BreakerState.Shut options) .fresh
    (fun _ _ _ hi h hl => hi.step h hl) r).apart, fun _ _ h => BreakerState.closedByTrial_iff h⟩

end

/-- Five of six calls in flight fail, which opens the breaker. -/
def fiveFailures : List (BreakerLabel ℕ) :=
  [.call 0, .call 1, .call 2, .call 3, .call 4, .call 5, .failure 0, .failure 1, .failure 2,
    .failure 3, .failure 4]

/-- The sixth fails too; after `resetMs` a trial is admitted. -/
def trialAdmitted : List (BreakerLabel ℕ) := fiveFailures ++ [.failure 5, .tick 30000, .call 6]

/-- The trial succeeds. -/
theorem open_stays_open_trial :
    ∃ s, (breakers .defaults).exec (.fresh 0) (trialAdmitted ++ [.success 6]) = some s ∧
      s.breaker.state = .closed ∧ s.past.Pairwise (Apart .defaults) := by
  refine ⟨_, rfl, rfl, (@open_stays_open _ _ _ _ 0 (trialAdmitted ++ [.success 6]) ?_).1⟩
  refine .snoc (@Run.of_exec _ _ _ _ trialAdmitted _ _ rfl ?_) rfl (.inr ⟨rfl, rfl⟩)
  intro l hl s₁ s₂
  cases l with
  | success i => simp [trialAdmitted, fiveFailures] at hl
  | _ => trivial

/-- **A late success closes an open circuit.**  The sixth call was admitted before the breaker
opened; by its success the next call is admitted at once. -/
theorem late_success_closes :
    ∃ s, Run (breakers .defaults) Free (.fresh 0) (fiveFailures ++ [.success 5, .call 6]) s ∧
      s.past.take 3 = [.admitted 6 0, .recorded 5 true, .opened 0] ∧
      ¬ s.past.Pairwise (Apart .defaults) := by
  refine ⟨_, .of_exec rfl fun _ _ _ _ => trivial, rfl, fun h => ?_⟩
  have := List.rel_of_pairwise_cons h (.tail _ (.head _)) 6 0 0 rfl rfl
  exact absurd this (by decide)

end NestDdd.Http

import Mathlib.Data.List.Nodup
import NestDdd.Runs.Machine
import NestDdd.Runs.Semaphore

/-!
# Database — the semaphore

`Semaphore` (`src/infrastructure/database/utils/semaphore.util.ts`), whoever calls `with` and
whenever: also between a release and the moment the woken waiter runs on.  A step ends where the
code awaits.  A function holds its permit from the moment it is called until its `finally`.

* `Sound` is what every step keeps (`sound_step`); it says where each call is, and which have run.
* `no_wakeup_lost` reads the claims of the limiter off it; without further calls it runs dry, and
  then every function has run once (`ran_dry`).
-/

namespace NestDdd.Database

open Runs

variable {κ ε α : Type}

/-- `sem` has the count and the queue; the rest is what happened to the calls of `with`, the newest
first. -/
structure SemaphoreCalls (κ ε α : Type) where
  sem : Semaphore κ
  /-- The calls so far. -/
  made : List κ
  /-- Whose function has been called. -/
  ran : List κ
  /-- How the calls settled that did. -/
  settled : List (κ × Except ε α)

/-- A call of `with`, the end of its function, or a woken waiter that runs on. -/
inductive SemaphoreLabel (κ ε α : Type) where
  | call (k : κ)
  | settle (k : κ) (r : Except ε α)
  | resume (k : κ)

namespace SemaphoreCalls

/-- `new Semaphore(max)`: `Math.max(1, max)` permits. -/
def start (max : Int) : SemaphoreCalls κ ε α := ⟨.init (Max.max 1 max).toNat, [], [], []⟩

/-- `with(fn)` up to where it awaits: `fn` is called if there is a permit. -/
def enter (s : SemaphoreCalls κ ε α) (k : κ) : SemaphoreCalls κ ε α :=
  { s with sem := s.sem.enter k, ran := if 0 < s.sem.count then k :: s.ran else s.ran }

/-- Whose `with` has settled. -/
def done (s : SemaphoreCalls κ ε α) : List κ := s.settled.map Prod.fst

variable [DecidableEq κ]

/-- The `finally` of a function that has settled. -/
def leave (s : SemaphoreCalls κ ε α) (k : κ) (r : Except ε α) : SemaphoreCalls κ ε α :=
  { s with sem := s.sem.leave k, settled := (k, r) :: s.settled }

def step (s : SemaphoreCalls κ ε α) : SemaphoreLabel κ ε α → Option (SemaphoreCalls κ ε α)
  | .call k => if k ∈ s.made then none else some ({ s with made := k :: s.made }.enter k)
  | .settle k r => if k ∈ s.sem.holding then some (s.leave k r) else none
  | .resume k =>
      if k ∈ s.sem.woken then
        some ({ s with sem := { s.sem with woken := s.sem.woken.erase k } }.enter k)
      else none

end SemaphoreCalls

def semaphore [DecidableEq κ] : Machine (SemaphoreCalls κ ε α) (SemaphoreLabel κ ε α) :=
  ⟨SemaphoreCalls.step⟩

namespace SemaphoreCalls

/-- Where each call is, and which functions have been called. -/
structure Sound (max : Nat) (s : SemaphoreCalls κ ε α) : Prop where
  fair : s.sem.Fair max
  nodup : s.made.Nodup
  placed : s.made.Perm (s.done ++ s.sem.everyone)
  ran : s.ran.Perm (s.done ++ s.sem.holding)

variable {max : Nat} {s s' : SemaphoreCalls κ ε α} {k : κ} {l : SemaphoreLabel κ ε α}
  {ls : List (SemaphoreLabel κ ε α)}

theorem sound_start (max : Int) :
    (start max : SemaphoreCalls κ ε α).Sound (Max.max 1 max).toNat :=
  ⟨Semaphore.fair_init, .nil, .refl _, .refl _⟩

/-- A function is called exactly when its call takes a permit. -/
theorem ran_enter {done : List κ} (h : s.ran.Perm (done ++ s.sem.holding)) :
    (s.enter k).ran.Perm (done ++ (s.enter k).sem.holding) := by
  unfold enter
  rcases Nat.eq_zero_or_pos s.sem.count with hc | hc
  · rw [Semaphore.enter_zero hc, if_neg (by omega)]
    exact h
  · rw [Semaphore.enter_pos hc, if_pos hc]
    exact (h.cons k).trans List.perm_middle.symm

theorem Sound.nodup_ran (h : s.Sound max) : s.ran.Nodup := by
  have hsub : (s.done ++ s.sem.holding).Sublist (s.done ++ s.sem.everyone) := by
    refine .append_left ?_ s.done
    exact .trans (List.sublist_append_right _ _) (List.sublist_append_right _ _)
  exact h.ran.nodup_iff.mpr ((h.placed.nodup_iff.mp h.nodup).sublist hsub)

/-- With nobody running and nobody woken, every call has settled. -/
theorem Sound.all_done (h : s.Sound max) (hmax : 0 < max) (hholding : s.sem.holding = [])
    (hwoken : s.sem.woken = []) : ∀ k ∈ s.made, k ∈ s.done := by
  intro k hk
  have hplaced := h.placed.mem_iff.mp hk
  rwa [h.fair.idle hmax hwoken hholding, List.append_nil] at hplaced

variable [DecidableEq κ]

theorem ran_leave {r : Except ε α} (hk : k ∈ s.sem.holding)
    (h : s.ran.Perm (s.done ++ s.sem.holding)) :
    (s.leave k r).ran.Perm ((s.leave k r).done ++ (s.leave k r).sem.holding) := by
  have hholding : (s.leave k r).sem.holding = s.sem.holding.erase k := Semaphore.leave_holding
  rw [hholding]
  exact h.trans (((List.perm_cons_erase hk).append_left s.done).trans List.perm_middle)

theorem placed_leave {r : Except ε α} (hk : k ∈ s.sem.holding)
    (h : s.made.Perm (s.done ++ s.sem.everyone)) :
    (s.leave k r).made.Perm ((s.leave k r).done ++ (s.leave k r).sem.everyone) :=
  h.trans (((Semaphore.everyone_leave hk).append_left s.done).trans List.perm_middle)

/-- **Every step keeps the semaphore sound.** -/
theorem sound_step (h : s.Sound max) (hs : s.step l = some s') : s'.Sound max := by
  cases l with
  | call k =>
      rw [step, Option.ite_none_left_eq_some] at hs
      obtain ⟨hnew, hs⟩ := hs
      obtain rfl := Option.some.inj hs
      refine ⟨Semaphore.fair_enter h.fair, List.nodup_cons.mpr ⟨hnew, h.nodup⟩, ?_, ?_⟩
      · refine (h.placed.cons k).trans (List.perm_middle.symm.trans ?_)
        exact Semaphore.everyone_enter.symm.append_left s.done
      · exact ran_enter (s := { s with made := k :: s.made }) h.ran
  | settle k r =>
      rw [step, Option.ite_none_right_eq_some] at hs
      obtain ⟨hk, hs⟩ := hs
      obtain rfl := Option.some.inj hs
      exact ⟨Semaphore.fair_leave h.fair hk, h.nodup, placed_leave hk h.placed, ran_leave hk h.ran⟩
  | resume k =>
      rw [step, Option.ite_none_right_eq_some] at hs
      obtain ⟨hk, hs⟩ := hs
      obtain rfl := Option.some.inj hs
      refine ⟨Semaphore.fair_resume h.fair hk, h.nodup, ?_, ?_⟩
      · exact h.placed.trans ((Semaphore.everyone_resume hk).symm.append_left s.done)
      · exact ran_enter (s := { s with sem := { s.sem with woken := s.sem.woken.erase k } }) h.ran

theorem Sound.run (h : s.Sound max) {G : SemaphoreCalls κ ε α → SemaphoreLabel κ ε α →
    SemaphoreCalls κ ε α → Prop} (r : Run semaphore G s ls s') : s'.Sound max :=
  r.invariant h fun _ _ _ hsound hs _ => sound_step hsound hs

/-! ### How often a function is called -/

theorem Sound.count_ran_le (h : s.Sound max) : s.ran.count k ≤ 1 :=
  List.nodup_iff_count_le_one.mp h.nodup_ran k

/-- A call that has settled, or that runs, has called its function once. -/
theorem Sound.count_ran (h : s.Sound max) (hk : k ∈ s.done ∨ k ∈ s.sem.holding) :
    s.ran.count k = 1 :=
  List.count_eq_one_of_mem h.nodup_ran (h.ran.mem_iff.mpr (List.mem_append.mpr hk))

/-! ### Without further calls -/

/-- Nobody calls `with` any more. -/
def NoCall : SemaphoreCalls κ ε α → SemaphoreLabel κ ε α → SemaphoreCalls κ ε α → Prop :=
  fun _ l _ => ∀ k, l ≠ .call k

theorem rank_step (hs : s.step l = some s') (hcall : ∀ k, l ≠ .call k) :
    s'.sem.rank < s.sem.rank := by
  cases l with
  | call k => exact absurd rfl (hcall k)
  | settle k r =>
      rw [step, Option.ite_none_right_eq_some] at hs
      obtain ⟨hk, hs⟩ := hs
      obtain rfl := Option.some.inj hs
      exact Semaphore.rank_leave hk
  | resume k =>
      rw [step, Option.ite_none_right_eq_some] at hs
      obtain ⟨hk, hs⟩ := hs
      obtain rfl := Option.some.inj hs
      exact Semaphore.rank_resume hk

theorem length_le_rank (r : Run semaphore NoCall s ls s') : ls.length ≤ s.sem.rank := by
  have hrank : True ∧ ls.length + s'.sem.rank ≤ s.sem.rank :=
    r.length_le (fun _ _ _ _ hs hcall => ⟨trivial, rank_step hs hcall⟩) trivial
  omega

/-- What the semaphore promises in a state, for `max` permits. -/
structure Limits (max : Int) (s : SemaphoreCalls κ ε α) : Prop where
  running : (s.sem.holding.length : Int) ≤ Max.max 1 max
  permits : (s.sem.count : Int) + s.sem.holding.length = Max.max 1 max
  /-- A waiter is queued only behind those already woken. -/
  queued : s.sem.queue ≠ [] → s.sem.count ≤ s.sem.woken.length
  /-- No wake-up is lost. -/
  served : s.sem.holding = [] → s.sem.woken = [] →
    s.sem.queue = [] ∧ ∀ k ∈ s.made, k ∈ s.done ∧ s.ran.count k = 1
  atMostOnce : ∀ k, s.ran.count k ≤ 1
  once : ∀ k ∈ s.done, s.ran.count k = 1
  /-- Without further calls it runs dry: as long as not every function has run, one still runs, or
  a waiter may run on. -/
  drains : ∀ ls s', Run semaphore NoCall s ls s' → ls.length ≤ s.sem.rank ∧
    (s'.sem.holding ≠ [] ∨ (∃ k, (s'.step (.resume k)).isSome) ∨
      ∀ k ∈ s.made, k ∈ s'.done ∧ s'.ran.count k = 1)

theorem resume_isSome (hk : k ∈ s.sem.woken) : (s.step (.resume k)).isSome := by
  rw [step, if_pos hk]
  rfl

theorem subset_made (r : Run semaphore NoCall s ls s') : s.made ⊆ s'.made := by
  refine r.invariant (I := fun s' => s.made ⊆ s'.made) (List.Subset.refl _) ?_
  intro s₁ l s₂ hsub hs hcall
  cases l with
  | call k => exact absurd rfl (hcall k)
  | settle k r | resume k =>
      obtain ⟨-, hs⟩ := Option.ite_none_right_eq_some.mp hs
      obtain rfl := Option.some.inj hs
      exact hsub

end SemaphoreCalls

open SemaphoreCalls

/-- **No wake-up is lost**, in any state of any run, and every function runs once. -/
theorem no_wakeup_lost [DecidableEq κ] (max : Int) {s : SemaphoreCalls κ ε α}
    {ls : List (SemaphoreLabel κ ε α)} (r : Run semaphore Free (.start max) ls s) :
    s.Limits max := by
  have hsound := (sound_start max).run r
  have hslots := hsound.fair.slots
  have hpos : 0 < (Max.max 1 max).toNat := by omega
  refine ⟨by omega, by omega, hsound.fair.served, fun hholding hwoken => ⟨?_, fun k hk => ?_⟩,
    fun k => hsound.count_ran_le, fun k hk => hsound.count_ran (.inl hk), fun ls' s' r' => ?_⟩
  · exact (List.append_eq_nil_iff.mp (hsound.fair.idle hpos hwoken hholding)).1
  · have hdone := hsound.all_done hpos hholding hwoken k hk
    exact ⟨hdone, hsound.count_ran (.inl hdone)⟩
  · refine ⟨length_le_rank r', ?_⟩
    have hsound' := hsound.run r'
    by_cases hholding : s'.sem.holding = []
    · cases hwoken : s'.sem.woken with
      | nil =>
          refine .inr (.inr fun k hk => ?_)
          have hdone := hsound'.all_done hpos hholding hwoken k (subset_made r' hk)
          exact ⟨hdone, hsound'.count_ran (.inl hdone)⟩
      | cons k woken => exact .inr (.inl ⟨k, resume_isSome (hwoken ▸ List.mem_cons_self)⟩)
    · exact .inl hholding

/-- One permit: `b` waits, is woken, is overtaken by `c`, queues again, and runs at last. -/
theorem no_wakeup_lost_overtaken :
    (⟨⟨0, [], [], ['b']⟩, ['c', 'b', 'a'], ['b', 'c', 'a'], [('c', .error ()), ('a', .ok ())]⟩ :
      SemaphoreCalls Char Unit Unit).Limits 0 :=
  no_wakeup_lost 0 (Run.of_exec (show semaphore.exec (.start 0) [.call 'a', .call 'b',
    .settle 'a' (.ok ()), .call 'c', .resume 'b', .settle 'c' (.error ()), .resume 'b'] = some _
    from rfl) fun _ _ _ _ => trivial)

end NestDdd.Database

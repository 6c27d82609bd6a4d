import Mathlib.Data.List.Nodup
import Mathlib.Data.List.Perm.Basic

/-!
# Runs — a counting semaphore

A semaphore with `max` slots and a queue of waiters, as an event loop runs it.  `enter` takes a
slot, or queues; `leave` gives the slot back and wakes the first waiter, which stays without a
slot until it runs again (`resume`) and enters anew.  A slot is not handed over: between the two,
the count is up, and whoever enters first has it.

* `Fair` counts the slots and says that a queue is served, whoever enters and whenever:
  `fair_enter`, `fair_leave`, `fair_resume`.  A woken waiter may be overtaken and queue again.
* `Sound` adds that no woken waiter can find the count at zero, when nobody enters behind it:
  `sound_enter`, `sound_leave`, `sound_resume`.
* `everyone_enter`, `everyone_leave`, `everyone_resume`: nobody is lost and nobody is made;
  `enter_all`: those who enter one after the other are all in.
* `Fair.idle`: when no one holds a slot and no one is woken, no one waits.
* `rank_leave`, `rank_resume`: without newcomers, a semaphore runs dry.
-/

namespace Runs

universe u

/-- Who waits, who has been woken, and who holds a slot.  The program keeps only the count and the
queue. -/
structure Semaphore (κ : Type u) where
  count : Nat
  queue : List κ
  woken : List κ
  holding : List κ

namespace Semaphore

variable {κ : Type u}

def init (max : Nat) : Semaphore κ := ⟨max, [], [], []⟩

def enter (s : Semaphore κ) (k : κ) : Semaphore κ :=
  if 0 < s.count then { s with count := s.count - 1, holding := k :: s.holding }
  else { s with queue := s.queue ++ [k] }

section

variable [DecidableEq κ]

def leave (s : Semaphore κ) (k : κ) : Semaphore κ :=
  match s.queue with
  | [] => { s with count := s.count + 1, holding := s.holding.erase k }
  | waiter :: queue =>
      ⟨s.count + 1, queue, waiter :: s.woken, s.holding.erase k⟩

def resume (s : Semaphore κ) (k : κ) : Semaphore κ :=
  { s with woken := s.woken.erase k }.enter k

end

/-- Everyone who has entered and not left. -/
def everyone (s : Semaphore κ) : List κ := s.queue ++ (s.woken ++ s.holding)

theorem mem_of_holding {s : Semaphore κ} {k : κ} (hk : k ∈ s.holding) : k ∈ s.everyone :=
  List.mem_append_right _ (List.mem_append_right _ hk)

/-- A woken waiter is in, without a slot. -/
theorem mem_of_woken {s : Semaphore κ} {k : κ} (hn : s.everyone.Nodup) (hk : k ∈ s.woken) :
    k ∈ s.everyone ∧ k ∉ s.holding :=
  ⟨List.mem_append_right _ (List.mem_append_left _ hk),
    fun hheld => List.disjoint_of_nodup_append hn.of_append_right hk hheld⟩

/-- What anyone may count on who enters at any time. -/
structure Fair (max : Nat) (s : Semaphore κ) : Prop where
  slots : s.count + s.holding.length = max
  served : s.queue ≠ [] → s.count ≤ s.woken.length

structure Sound (max : Nat) (s : Semaphore κ) : Prop where
  slots : s.count + s.holding.length = max
  woken : s.woken.length ≤ s.count
  served : s.queue ≠ [] → s.count ≤ s.woken.length

variable {max : Nat} {s : Semaphore κ} {k : κ}

theorem Sound.fair (h : Sound max s) : Fair max s := ⟨h.slots, h.served⟩

theorem fair_init : Fair max (init max : Semaphore κ) := ⟨rfl, fun h => absurd rfl h⟩

theorem sound_init : Sound max (init max : Semaphore κ) :=
  ⟨rfl, Nat.zero_le _, fun h => absurd rfl h⟩

theorem enter_pos (h : 0 < s.count) :
    s.enter k = { s with count := s.count - 1, holding := k :: s.holding } := if_pos h

theorem enter_zero (h : s.count = 0) : s.enter k = { s with queue := s.queue ++ [k] } :=
  if_neg (by omega)

/-- Whoever enters takes a slot or waits for one. -/
theorem fair_enter (h : Fair max s) : Fair max (s.enter k) := by
  have hslots := h.slots
  have hserved := h.served
  rcases Nat.eq_zero_or_pos s.count with hc | hc
  · rw [enter_zero hc]
    exact ⟨hslots, fun _ => Nat.le_trans (Nat.le_of_eq hc) (Nat.zero_le _)⟩
  · rw [enter_pos hc]
    refine ⟨?_, fun hq => Nat.le_trans (Nat.sub_le _ 1) (hserved hq)⟩
    simp only [List.length_cons]
    omega

theorem woken_enter : (s.enter k).woken = s.woken := by
  unfold enter
  split <;> rfl

/-- As long as nobody is woken. -/
theorem sound_enter (h : Sound max s) (hw : s.woken = []) : Sound max (s.enter k) := by
  have hfair := fair_enter (k := k) h.fair
  refine ⟨hfair.slots, ?_, hfair.served⟩
  rw [woken_enter, hw]
  exact Nat.zero_le _

theorem everyone_enter : (s.enter k).everyone.Perm (k :: s.everyone) := by
  unfold enter everyone
  split
  · exact ((List.perm_middle.append_left _).trans List.perm_middle)
  · simp only [List.append_assoc, List.singleton_append]
    exact List.perm_middle

/-- Those who enter one after the other are all in. -/
theorem enter_all (ks : List κ) {s : Semaphore κ} (h : Sound max s) (hw : s.woken = []) :
    Sound max (ks.foldl enter s) ∧ (ks.foldl enter s).everyone.Perm (ks ++ s.everyone) := by
  induction ks generalizing s with
  | nil => exact ⟨h, .refl _⟩
  | cons k ks ih =>
      have hw' : (s.enter k).woken = [] := woken_enter.trans hw
      obtain ⟨hsound, hperm⟩ := ih (sound_enter h hw) hw'
      exact ⟨hsound, hperm.trans ((everyone_enter.append_left ks).trans List.perm_middle)⟩

section

variable [DecidableEq κ]

/-- Whoever leaves gives the slot back, and wakes one who waits. -/
theorem fair_leave (h : Fair max s) (hk : k ∈ s.holding) : Fair max (s.leave k) := by
  have hslots := h.slots
  have hserved := h.served
  have hlen := List.length_erase_of_mem hk
  have hpos := List.length_pos_of_mem hk
  unfold leave
  split
  next hq =>
    refine ⟨?_, fun hne => absurd hq hne⟩
    change s.count + 1 + (s.holding.erase k).length = max
    omega
  next waiter queue hq =>
    have hle := hserved (by simp [hq])
    refine ⟨?_, fun _ => ?_⟩
    · change s.count + 1 + (s.holding.erase k).length = max
      omega
    · change s.count + 1 ≤ (waiter :: s.woken).length
      simp only [List.length_cons]
      omega

theorem sound_leave (h : Sound max s) (hk : k ∈ s.holding) : Sound max (s.leave k) := by
  have hfair := fair_leave h.fair hk
  have hwoken := h.woken
  refine ⟨hfair.slots, ?_, hfair.served⟩
  unfold leave
  split
  next hq => exact Nat.le_succ_of_le hwoken
  next waiter queue hq => exact Nat.succ_le_succ hwoken

theorem everyone_leave (hk : k ∈ s.holding) : s.everyone.Perm (k :: (s.leave k).everyone) := by
  have hholding : s.holding.Perm (k :: s.holding.erase k) := List.perm_cons_erase hk
  have hall : s.everyone.Perm (k :: (s.queue ++ (s.woken ++ s.holding.erase k))) := by
    refine (((hholding.append_left s.woken).append_left s.queue).trans ?_)
    exact (List.perm_middle.append_left _).trans List.perm_middle
  refine hall.trans (List.Perm.cons k ?_)
  unfold leave everyone
  split
  next hq => simp [hq]
  next waiter queue hq =>
    rw [hq]
    exact List.perm_middle.symm

@[simp] theorem leave_holding : (s.leave k).holding = s.holding.erase k := by
  unfold leave
  split <;> rfl

/-- Whoever leaves is gone, and no one else. -/
theorem mem_leave {j : κ} (hn : s.everyone.Nodup) (hk : k ∈ s.holding) :
    j ∈ (s.leave k).everyone ↔ j ∈ s.everyone ∧ j ≠ k := by
  have hperm := everyone_leave hk
  obtain ⟨hout, -⟩ := List.nodup_cons.mp (hperm.nodup_iff.mp hn)
  rw [hperm.mem_iff, List.mem_cons]
  constructor
  · intro hj
    exact ⟨.inr hj, fun heq => hout (heq ▸ hj)⟩
  · rintro ⟨rfl | hj, hne⟩
    · exact absurd rfl hne
    · exact hj

/-- A woken waiter takes a slot, or has been overtaken and queues again. -/
theorem fair_resume (h : Fair max s) (hk : k ∈ s.woken) : Fair max (s.resume k) := by
  have hslots := h.slots
  have hserved := h.served
  have hlen := List.length_erase_of_mem hk
  have hpos := List.length_pos_of_mem hk
  unfold resume
  rcases Nat.eq_zero_or_pos s.count with hc | hc
  · rw [enter_zero (by exact hc)]
    exact ⟨hslots, fun _ => Nat.le_trans (Nat.le_of_eq hc) (Nat.zero_le _)⟩
  · rw [enter_pos (by exact hc)]
    refine ⟨?_, fun hq => ?_⟩
    · simp only [List.length_cons]
      omega
    · have := hserved hq
      change s.count - 1 ≤ (s.woken.erase k).length
      omega

/-- A woken waiter finds a slot, if no one overtakes it. -/
theorem resume_eq (h : Sound max s) (hk : k ∈ s.woken) :
    s.resume k = ⟨s.count - 1, s.queue, s.woken.erase k, k :: s.holding⟩ := by
  have hpos := List.length_pos_of_mem hk
  have hwoken := h.woken
  exact if_pos (by change 0 < s.count; omega)

theorem sound_resume (h : Sound max s) (hk : k ∈ s.woken) : Sound max (s.resume k) := by
  have hfair := fair_resume h.fair hk
  have hwoken := h.woken
  have hlen := List.length_erase_of_mem hk
  refine ⟨hfair.slots, ?_, hfair.served⟩
  rw [resume_eq h hk]
  change (s.woken.erase k).length ≤ s.count - 1
  omega

theorem everyone_resume (hk : k ∈ s.woken) : (s.resume k).everyone.Perm s.everyone := by
  refine everyone_enter.trans (List.perm_middle.symm.trans (List.Perm.append_left _ ?_))
  exact (List.perm_cons_erase hk).symm.append_right s.holding

/-- How much is left to do. -/
def rank (s : Semaphore κ) : Nat := 3 * s.woken.length + 2 * s.queue.length + 2 * s.holding.length

theorem rank_leave (hk : k ∈ s.holding) : (s.leave k).rank < s.rank := by
  have hlen := List.length_erase_of_mem hk
  have hpos := List.length_pos_of_mem hk
  unfold leave rank
  split
  next hq =>
    change 3 * s.woken.length + 2 * s.queue.length + 2 * (s.holding.erase k).length < _
    omega
  next waiter queue hq =>
    rw [hq]
    simp only [List.length_cons]
    omega

theorem rank_resume (hk : k ∈ s.woken) : (s.resume k).rank < s.rank := by
  have hlen := List.length_erase_of_mem hk
  have hpos := List.length_pos_of_mem hk
  unfold resume rank
  rcases Nat.eq_zero_or_pos s.count with hc | hc
  · rw [enter_zero (by exact hc)]
    simp only [List.length_append, List.length_singleton]
    omega
  · rw [enter_pos (by exact hc)]
    simp only [List.length_cons]
    omega

end

/-- **No waiter is left behind.** -/
theorem Fair.idle (h : Fair max s) (hmax : 0 < max) (hwoken : s.woken = [])
    (hholding : s.holding = []) : s.everyone = [] := by
  have hslots := h.slots
  rw [everyone, hwoken, hholding]
  by_contra hq
  have hserved := h.served (by simpa using hq)
  simp only [hwoken, hholding, List.length_nil] at hserved hslots
  omega

end Semaphore

end Runs

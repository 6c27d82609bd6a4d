import NestDdd.Cluster.Primary
import Mathlib.Data.List.Count

/-!
# Cluster — winding down

`shutdown` of `startPrimary`, read off the history: the signal reaches every live worker once,
stragglers are killed after the wait, and the primary exits once.

* `Tracked`: the live workers are those that were forked and have not exited.
* `Begun`, `Waited`, `Ended`: what holds of the signal, of the wait and of the end.
* `shutdown_protocol`: the three together, in every reachable state.
-/

namespace NestDdd.Cluster

open Runs PrimaryState

/-- The worker was forked. -/
def Forked (past : List PrimaryEvent) (id : Nat) : Prop :=
  ∃ leader replaces, .forked id leader replaces ∈ past

/-- The worker was forked, and has not exited. -/
def AliveIn (past : List PrimaryEvent) (id : Nat) : Prop := Forked past id ∧ .exited id ∉ past

section

variable {past : List PrimaryEvent} {id id' : Nat}

/-- Whether an event makes or ends a worker. -/
def PrimaryEvent.isLife : PrimaryEvent → Bool
  | .forked _ _ _ | .exited _ => true
  | _ => false

theorem forked_append {new : List PrimaryEvent} (hnew : ∀ e ∈ new, e.isLife = false) :
    Forked (new ++ past) id ↔ Forked past id := by
  refine ⟨fun ⟨leader, replaces, h⟩ => ?_, fun ⟨leader, replaces, h⟩ =>
    ⟨leader, replaces, List.mem_append_right new h⟩⟩
  rcases List.mem_append.mp h with h | h
  · cases hnew _ h
  · exact ⟨leader, replaces, h⟩

theorem aliveIn_append {new : List PrimaryEvent} (hnew : ∀ e ∈ new, e.isLife = false) :
    AliveIn (new ++ past) id ↔ AliveIn past id := by
  have hexit : .exited id ∈ new ++ past ↔ .exited id ∈ past := by
    rw [List.mem_append, or_iff_right]
    exact fun h => nomatch hnew _ h
  rw [AliveIn, AliveIn, forked_append hnew, hexit]

theorem aliveIn_exited : AliveIn (.exited id' :: past) id ↔ AliveIn past id ∧ id ≠ id' := by
  simp [AliveIn, Forked, and_assoc, and_comm]

theorem forked_cons {leader : Bool} {replaces : Option (Nat × Int)} :
    Forked (.forked id' leader replaces :: past) id ↔ id = id' ∨ Forked past id := by
  constructor
  · rintro ⟨leader', replaces', h⟩
    rcases List.mem_cons.mp h with h | h
    · cases h; exact .inl rfl
    · exact .inr ⟨leader', replaces', h⟩
  · rintro (rfl | ⟨leader', replaces', h⟩)
    · exact ⟨leader, replaces, List.mem_cons_self⟩
    · exact ⟨leader', replaces', List.mem_cons_of_mem _ h⟩

theorem aliveIn_forked {leader : Bool} {replaces : Option (Nat × Int)}
    (hnew : .exited id' ∉ past) :
    AliveIn (.forked id' leader replaces :: past) id ↔ AliveIn past id ∨ id = id' := by
  rw [AliveIn, AliveIn, forked_cons]
  constructor
  · rintro ⟨rfl | h, hexit⟩
    · exact .inr rfl
    · exact .inl ⟨h, fun h' => hexit (List.mem_cons_of_mem _ h')⟩
  · rintro (⟨h, hexit⟩ | rfl)
    · exact ⟨.inr h, by simpa using hexit⟩
    · exact ⟨.inl rfl, by simpa using hnew⟩

end

/-! ### Who is alive -/

/-- The map of live workers is right, and a worker that exited has an id that was given out. -/
structure PrimaryState.Tracked (ids : Nat → Nat) (s : PrimaryState) : Prop where
  live : ∀ id, id ∈ s.liveWorkers.map (·.id) ↔ AliveIn s.past id
  exited : ∀ id, .exited id ∈ s.past → ∃ n < s.forks, ids n = id

section

variable {config : StartPrimaryConfig} {ids : Nat → Nat} {s s' : PrimaryState} {l : PrimaryLabel}
  {workerCount : Nat}

namespace PrimaryState.Tracked

theorem quiet (h : s.Tracked ids) (hl : s'.liveWorkers = s.liveWorkers) (hf : s'.forks = s.forks)
    (new : List PrimaryEvent) (hpast : s'.past = new ++ s.past)
    (hnew : ∀ e ∈ new, e.isLife = false) : s'.Tracked ids := by
  refine ⟨fun id => ?_, fun id hid => ?_⟩
  · rw [hl, hpast, aliveIn_append hnew, h.live]
  · rw [hpast] at hid
    rcases List.mem_append.mp hid with hid | hid
    · cases hnew _ hid
    · rw [hf]; exact h.exited id hid

theorem deleted (h : s.Tracked ids) (hpool : s.Pool ids workerCount) {id : Nat}
    (hid : id ∈ s.liveWorkers.map (·.id)) (now : Int) : (s.deleted id now).Tracked ids := by
  refine ⟨fun id' => ?_, fun id' hid' => ?_⟩
  · rw [PrimaryState.deleted, aliveIn_exited, ← h.live]
    simp only [List.mem_map, List.mem_filter, decide_eq_true_eq]
    constructor
    · rintro ⟨w, ⟨hw, hne⟩, rfl⟩
      exact ⟨⟨w, hw, rfl⟩, hne⟩
    · rintro ⟨⟨w, hw, rfl⟩, hne⟩
      exact ⟨w, ⟨hw, hne⟩, rfl⟩
  · rcases List.mem_cons.mp hid' with hid' | hid'
    · cases hid'
      obtain ⟨w, hw, rfl⟩ := List.mem_map.mp hid
      exact hpool.forked w hw
    · exact h.exited id' hid'

theorem forkWorker (hids : Function.Injective ids) (h : s.Tracked ids) (isLeader : Bool)
    (replaces : Option (Nat × Int)) : (s.forkWorker ids isLeader replaces).Tracked ids := by
  have hnew : .exited (ids s.forks) ∉ s.past := fun hmem => by
    obtain ⟨n, hn, hsame⟩ := h.exited _ hmem
    exact Nat.ne_of_lt hn (hids hsame)
  refine ⟨fun id => ?_, fun id hid => ?_⟩
  · rw [PrimaryState.forkWorker, aliveIn_forked hnew, ← h.live]
    simp [eq_comm]
  · obtain ⟨n, hn, rfl⟩ := h.exited id ((List.mem_cons.mp hid).resolve_left (by simp))
    exact ⟨n, Nat.lt_succ_of_lt hn, rfl⟩

theorem boot (hids : Function.Injective ids) (workerCount : Nat) (now : Int) :
    (PrimaryState.boot ids workerCount now).Tracked ids := by
  induction workerCount with
  | zero => exact ⟨fun id => by simp [boot_eq, AliveIn, Forked], fun id hid => nomatch hid⟩
  | succ n ih =>
      rw [boot_succ]
      exact ih.forkWorker hids _ _

theorem step (hids : Function.Injective ids) (h : s.Tracked ids) (hpool : s.Pool ids workerCount)
    (hs : (primary config ids).step s l = some s') : s'.Tracked ids := by
  cases step_takes hs with
  | dismissed hid => exact h.deleted hpool hid _
  | @unreplaced id t₁ t₂ hid => exact (h.deleted hpool hid t₂).quiet rfl rfl [] rfl (by simp)
  | @rateLimited id t₁ t₂ hid =>
      exact (h.deleted hpool hid t₂).quiet rfl rfl [.rateLimited id (s.leads id)] rfl
        (by simp [PrimaryEvent.isLife])
  | @respawned id t₁ t₂ hid =>
      have hgone : Tracked ids
          { s.deleted id t₂ with respawnTimestamps := s.inWindow t₁ ++ [t₂] } :=
        (h.deleted hpool hid t₂).quiet rfl rfl [] rfl (by simp)
      exact hgone.forkWorker hids _ _
  | ignored => exact h
  | begun =>
      refine h.quiet rfl rfl _ rfl fun e he => ?_
      rcases mem_starting he with rfl | ⟨w, -, rfl⟩ <;> rfl
  | expired => exact h.quiet rfl rfl [.expired] rfl (by simp [PrimaryEvent.isLife])
  | resumed =>
      refine h.quiet (by simp) (by simp) _ afterRace_past fun e he => ?_
      rcases mem_ending he with rfl | ⟨-, w, -, rfl⟩ <;> rfl
  | closed => exact h.quiet rfl rfl [.exit 0] rfl (by simp [PrimaryEvent.isLife])

end PrimaryState.Tracked

/-! ### The signal -/

/-- Whether an event belongs to the winding down. -/
def PrimaryEvent.isWinding : PrimaryEvent → Bool
  | .shutdown _ _ | .killed _ _ | .expired | .sigkilled _ | .exit _ => true
  | _ => false

/-- Whether an event makes a worker, or signals one. -/
def PrimaryEvent.isStart : PrimaryEvent → Bool
  | .forked _ _ _ | .shutdown _ _ | .killed _ _ => true
  | _ => false

/-- What the history says of the first signal: nothing is forked after it, and it goes once to each
worker alive at that moment. -/
structure Begun (past : List PrimaryEvent) : Prop where
  noFork : ∀ id leader replaces earlier, Happened past (.forked id leader replaces) earlier →
    ∀ e ∈ earlier, e.isWinding = false
  once : ∀ signal ms earlier, Happened past (.shutdown signal ms) earlier →
    (∀ e ∈ earlier, e.isWinding = false) ∧
      ∀ id, AliveIn earlier id → past.count (.killed id signal) = 1
  only : ∀ id signal, .killed id signal ∈ past →
    ∃ ms earlier, Happened past (.shutdown signal ms) earlier ∧ AliveIn earlier id

/-- Until shutdown begins, nothing of it is in the history. -/
def PrimaryState.Calm (s : PrimaryState) : Prop :=
  s.phase = .running → ∀ e ∈ s.past, e.isWinding = false

theorem PrimaryState.Calm.step (h : s.Calm) (hs : (primary config ids).step s l = some s') :
    s'.Calm := by
  intro hp'
  have hcalm := h (running_of_step hs hp')
  cases step_takes hs with
  | dismissed | unreplaced => exact List.forall_mem_cons.mpr ⟨rfl, hcalm⟩
  | rateLimited | respawned =>
      exact List.forall_mem_cons.mpr ⟨rfl, List.forall_mem_cons.mpr ⟨rfl, hcalm⟩⟩
  | ignored => exact hcalm
  | begun => simp only at hp'; split at hp' <;> cases hp'
  | resumed => rw [afterRace_phase] at hp'; split at hp' <;> cases hp'
  | expired | closed => cases hp'

namespace Begun

variable {past : List PrimaryEvent}

/-- As long as nothing is wound down, only forks have to be looked at. -/
theorem calm (hcalm : ∀ e ∈ past, e.isWinding = false) : Begun past where
  noFork _ _ _ _ hin _ he := hcalm _ (hin.mem_of_earlier he)
  once _ _ _ hin := nomatch hcalm _ hin.mem
  only _ _ hmem := nomatch hcalm _ hmem

/-- Neither a fork nor a signal among what is new. -/
theorem append (h : Begun past) (new : List PrimaryEvent)
    (hnew : ∀ e ∈ new, e.isStart = false) : Begun (new ++ past) := by
  have hnot : ∀ {e : PrimaryEvent}, e.isStart = true → e ∉ new :=
    fun he hmem => Bool.noConfusion (he.symm.trans (hnew _ hmem))
  refine ⟨fun id leader replaces earlier hin => ?_, fun signal ms earlier hin => ?_,
    fun id signal hmem => ?_⟩
  · exact h.noFork id leader replaces earlier (hin.of_append (hnot rfl))
  · obtain ⟨hquiet, hcount⟩ := h.once signal ms earlier (hin.of_append (hnot rfl))
    refine ⟨hquiet, fun id halive => ?_⟩
    rw [List.count_append, List.count_eq_zero.mpr (hnot rfl), Nat.zero_add]
    exact hcount id halive
  · have hmem' := (List.mem_append.mp hmem).resolve_left (hnot rfl)
    obtain ⟨ms, earlier, hin, halive⟩ := h.only id signal hmem'
    exact ⟨ms, earlier, hin.append new, halive⟩

/-- The signal is forwarded to the live workers. -/
theorem starting (hcalm : ∀ e ∈ s.past, e.isWinding = false) (htracked : s.Tracked ids)
    (hnodup : (s.liveWorkers.map (·.id)).Nodup) (signal : Signal) :
    Begun (starting config s signal ++ s.past) := by
  have hsplit : PrimaryState.starting config s signal ++ s.past =
      (s.liveWorkers.map fun w => .killed w.id signal).reverse ++
        .shutdown signal (waitMs config) :: s.past := by
    simp [PrimaryState.starting]
  have hfirst : ∀ signal' ms earlier,
      Happened (PrimaryState.starting config s signal ++ s.past) (.shutdown signal' ms) earlier →
        signal' = signal ∧ earlier = s.past := by
    intro signal' ms earlier hin
    rw [hsplit] at hin
    rcases Happened.cons_iff.mp (hin.of_append (by simp)) with ⟨he, rfl⟩ | hin
    · cases he; exact ⟨rfl, rfl⟩
    · cases hcalm _ hin.mem
  refine ⟨fun id leader replaces earlier hin => ?_, fun signal' ms earlier hin => ?_,
    fun id signal' hmem => ?_⟩
  · have hold := hin.of_append fun hmem => by
      rcases mem_starting hmem with h | ⟨w, -, h⟩ <;> cases h
    exact fun e he => hcalm e (hold.mem_of_earlier he)
  · obtain ⟨rfl, rfl⟩ := hfirst signal' ms earlier hin
    refine ⟨hcalm, fun id halive => ?_⟩
    -- the ids of the live workers are distinct, so each of them gets the signal once
    have hkills : (s.liveWorkers.map fun w => PrimaryEvent.killed w.id signal').reverse.count
        (.killed id signal') = 1 := by
      have hmap : (s.liveWorkers.map fun w => PrimaryEvent.killed w.id signal') =
          (s.liveWorkers.map (·.id)).map fun id => .killed id signal' := by simp
      rw [List.count_reverse, hmap,
        List.count_map_of_injective _ _ fun _ _ h => (PrimaryEvent.killed.inj h).1]
      exact List.count_eq_one_of_mem hnodup ((htracked.live id).mpr halive)
    have hnone : (PrimaryEvent.shutdown signal' (waitMs config) :: s.past).count
        (.killed id signal') = 0 :=
      List.count_eq_zero.mpr fun hmem =>
        nomatch hcalm _ ((List.mem_cons.mp hmem).resolve_left (by simp))
    rw [hsplit, List.count_append, hkills, hnone]
  · rcases List.mem_append.mp hmem with hmem | hmem
    · obtain ⟨w, hw, he⟩ := (mem_starting hmem).resolve_left (by simp)
      cases he
      refine ⟨waitMs config, s.past, ?_, (htracked.live _).mp (List.mem_map_of_mem hw)⟩
      rw [hsplit]
      exact .append (Happened.cons_iff.mpr (.inl ⟨rfl, rfl⟩)) _
    · cases hcalm _ hmem

theorem step (h : Begun s.past) (hcalm : s.Calm) (htracked : s.Tracked ids)
    (hpool : s.Pool ids workerCount) (hs : (primary config ids).step s l = some s') :
    Begun s'.past := by
  have hcalm' := hcalm.step hs
  cases step_takes hs with
  | dismissed => exact h.append [.exited _] (by simp [PrimaryEvent.isStart])
  | @unreplaced id t₁ t₂ _ _ _ hp | @rateLimited id t₁ t₂ _ _ _ hp
  | @respawned id t₁ t₂ _ _ _ hp => exact .calm (hcalm' (deleted_running hp id t₂))
  | ignored => exact h
  | begun hp => exact .starting (hcalm hp) htracked hpool.nodup _
  | expired => exact h.append [.expired] (by simp [PrimaryEvent.isStart])
  | resumed =>
      rw [afterRace_past]
      refine h.append _ fun e he => ?_
      rcases mem_ending he with rfl | ⟨-, w, -, rfl⟩ <;> rfl
  | closed => exact h.append [.exit 0] (by simp [PrimaryEvent.isStart])

end Begun

/-! ### The wait -/

/-- Whether an event comes after the wait. -/
def PrimaryEvent.isEnding : PrimaryEvent → Bool
  | .sigkilled _ | .exit _ => true
  | _ => false

/-- Whether the wait is over. -/
def Phase.isOver : Phase → Bool
  | .closing | .exited => true
  | _ => false

/-- The wait ends when the last worker is gone or the timer has run out; `SIGKILL` goes to the
workers that are then still alive. -/
structure PrimaryState.Waited (s : PrimaryState) : Prop where
  waiting : s.phase = .waiting → s.liveWorkers ≠ []
  drained : s.phase = .raced .drained → s.liveWorkers = []
  timeout : s.phase = .raced .timeout → .expired ∈ s.past
  before : s.phase.isOver = false → ∀ e ∈ s.past, e.isEnding = false
  sigkilled : ∀ id earlier, Happened s.past (.sigkilled id) earlier →
    .expired ∈ earlier ∧ AliveIn earlier id

namespace PrimaryState.Waited

/-- As long as the wait is not over, only the phase has to be looked at. -/
theorem of_before (hw : s.phase = .waiting → s.liveWorkers ≠ [])
    (hd : s.phase = .raced .drained → s.liveWorkers = [])
    (ht : s.phase = .raced .timeout → .expired ∈ s.past)
    (hb : ∀ e ∈ s.past, e.isEnding = false) : s.Waited :=
  ⟨hw, hd, ht, fun _ => hb, fun _ _ hin => nomatch hb _ hin.mem⟩

/-- No `SIGKILL` among what is new, and the wait is over as it was. -/
theorem finished (h : s.Waited) (ho : s'.phase.isOver = true) (new : List PrimaryEvent)
    (hpast : s'.past = new ++ s.past) (hnew : ∀ id, .sigkilled id ∉ new) : s'.Waited := by
  refine ⟨?_, ?_, ?_, fun h => Bool.noConfusion (h.symm.trans ho), fun id earlier hin => ?_⟩
  · intro hp; rw [hp] at ho; cases ho
  · intro hp; rw [hp] at ho; cases ho
  · intro hp; rw [hp] at ho; cases ho
  · rw [hpast] at hin
    exact h.sigkilled id earlier (hin.of_append (hnew id))

/-- Nor is there anything to look at before the wait. -/
theorem of_running (hp : s.phase = .running) (hb : ∀ e ∈ s.past, e.isEnding = false) : s.Waited :=
  of_before (by simp [hp]) (by simp [hp]) (by simp [hp]) hb

theorem deleted (h : s.Waited) (id : Nat) (now : Int) : (s.deleted id now).Waited := by
  have hphase : (s.deleted id now).phase =
      if (s.deleted id now).liveWorkers = [] ∧ s.phase = .waiting then .raced .drained
      else s.phase := rfl
  cases ho : s.phase.isOver with
  | true =>
      have hnot : s.phase ≠ .waiting := fun hp => by rw [hp] at ho; cases ho
      refine h.finished ?_ [.exited id] rfl (by simp)
      rw [hphase, if_neg fun hw => hnot hw.2, ho]
  | false =>
      refine of_before (fun hp => ?_) (fun hp => ?_) (fun hp => ?_) ?_
      · -- still waiting: this was not the last worker
        split at hphase
        · cases hp.symm.trans hphase
        next hlast => exact fun hnil => hlast ⟨hnil, hphase.symm.trans hp⟩
      · split at hphase
        next hlast => exact hlast.1
        · rw [PrimaryState.deleted, h.drained (hphase.symm.trans hp)]; rfl
      · split at hphase
        · cases hp.symm.trans hphase
        · exact List.mem_cons_of_mem _ (h.timeout (hphase.symm.trans hp))
      · exact List.forall_mem_cons.mpr ⟨rfl, h.before ho⟩

theorem step (h : s.Waited) (htracked : s.Tracked ids)
    (hs : (primary config ids).step s l = some s') : s'.Waited := by
  cases step_takes hs with
  | dismissed => exact h.deleted _ _
  | @unreplaced id t₁ t₂ _ _ _ hp =>
      exact .of_running (deleted_running hp id t₂)
        (List.forall_mem_cons.mpr ⟨rfl, h.before (by rw [hp]; rfl)⟩)
  | @rateLimited id t₁ t₂ _ _ _ hp | @respawned id t₁ t₂ _ _ _ hp =>
      exact .of_running (deleted_running hp id t₂)
        (List.forall_mem_cons.mpr
          ⟨rfl, List.forall_mem_cons.mpr ⟨rfl, h.before (by rw [hp]; rfl)⟩⟩)
  | ignored => exact h
  | begun hp =>
      refine of_before (fun hp' => ?_) (fun hp' => ?_) (fun hp' => ?_) fun e he => ?_
      · simpa using hp'
      · simpa using hp'
      · simp only at hp'; split at hp' <;> cases hp'
      · rcases List.mem_append.mp he with he | he
        · rcases mem_starting he with rfl | ⟨w, -, rfl⟩ <;> rfl
        · exact h.before (by rw [hp]; rfl) e he
  | expired hp =>
      exact of_before (nomatch ·) (nomatch ·) (fun _ => List.mem_cons_self)
        (List.forall_mem_cons.mpr ⟨rfl, h.before (by rw [hp]; rfl)⟩)
  | @resumed outcome hp =>
      have hbefore := h.before (by rw [hp]; rfl)
      refine ⟨?_, ?_, ?_, ?_, fun id earlier hin => ?_⟩
      · rw [afterRace_phase]; split <;> exact (nomatch ·)
      · rw [afterRace_phase]; split <;> exact (nomatch ·)
      · rw [afterRace_phase]; split <;> exact (nomatch ·)
      · rw [afterRace_phase]; split <;> exact (nomatch ·)
      · rw [afterRace_past] at hin
        rcases hin.append_cases with ⟨hmem, rest, rfl, hsub⟩ | hin
        · obtain ⟨rfl, w, hw, he⟩ := (mem_ending hmem).resolve_left (by simp)
          cases he
          refine ⟨List.mem_append_right rest (h.timeout hp), ?_⟩
          have hquiet : ∀ e ∈ rest, e.isLife = false := fun e he => by
            rcases mem_ending (hsub he) with rfl | ⟨-, w, -, rfl⟩ <;> rfl
          exact (aliveIn_append hquiet).mpr ((htracked.live _).mp (List.mem_map_of_mem hw))
        · cases hbefore _ hin.mem
  | closed => exact h.finished rfl [.exit 0] rfl (by simp)

end PrimaryState.Waited

/-! ### The end -/

/-- Every worker that was forked has exited or been sent `SIGKILL`. -/
def Accounted (past : List PrimaryEvent) : Prop :=
  ∀ id, Forked past id → .exited id ∈ past ∨ .sigkilled id ∈ past

theorem Accounted.append {past new : List PrimaryEvent} (h : Accounted past)
    (hnew : ∀ id leader replaces, .forked id leader replaces ∉ new) : Accounted (new ++ past) := by
  rintro id ⟨leader, replaces, hmem⟩
  have hold := (List.mem_append.mp hmem).resolve_left (hnew id leader replaces)
  exact (h id ⟨leader, replaces, hold⟩).imp (List.mem_append_right new) (List.mem_append_right new)

def PrimaryEvent.isExit : PrimaryEvent → Bool
  | .exit _ => true
  | _ => false

/-- The primary exits once, when every worker is accounted for. -/
structure PrimaryState.Ended (s : PrimaryState) : Prop where
  accounted : s.phase.isOver = true → Accounted s.past
  count : s.past.countP (·.isExit) = if s.phase = .exited then 1 else 0
  last : ∀ code earlier, Happened s.past (.exit code) earlier → Accounted earlier

namespace PrimaryState.Ended

theorem of_before (hw : s.Waited) (ho : s.phase.isOver = false) : s.Ended := by
  have hnone : ∀ e ∈ s.past, e.isExit = false := fun e he => by
    have := hw.before ho e he
    cases e <;> first | rfl | cases this
  refine ⟨fun h => Bool.noConfusion (h.symm.trans ho), ?_, fun _ _ hin => nomatch hnone _ hin.mem⟩
  rw [if_neg fun hp => by rw [hp] at ho; cases ho]
  exact List.countP_eq_zero.mpr fun e he => by simp [hnone e he]

/-- The `SIGKILL`s that follow a race. -/
def stragglers (s : PrimaryState) (outcome : Outcome) : List PrimaryEvent :=
  if outcome = .timeout then (s.liveWorkers.map fun w => .sigkilled w.id).reverse else []

theorem mem_stragglers {outcome : Outcome} {e : PrimaryEvent} (he : e ∈ stragglers s outcome) :
    ∃ id, e = .sigkilled id := by
  unfold stragglers at he
  split at he
  · obtain ⟨w, -, rfl⟩ := List.mem_map.mp (List.mem_reverse.mp he)
    exact ⟨w.id, rfl⟩
  · cases he

/-- When the race is over every worker is accounted for. -/
theorem accounted_stragglers (hw : s.Waited) (htracked : s.Tracked ids) {outcome : Outcome}
    (hp : s.phase = .raced outcome) : Accounted (stragglers s outcome ++ s.past) := by
  rintro id ⟨leader, replaces, hmem⟩
  have hold : Forked s.past id := by
    refine ⟨leader, replaces, (List.mem_append.mp hmem).resolve_left fun hk => ?_⟩
    obtain ⟨id', h⟩ := mem_stragglers hk
    cases h
  by_cases halive : AliveIn s.past id
  · -- still alive, so the race was lost, and the worker is killed
    obtain ⟨w, hlive, rfl⟩ := List.mem_map.mp ((htracked.live id).mpr halive)
    cases outcome with
    | drained => rw [hw.drained hp] at hlive; cases hlive
    | timeout =>
        refine .inr (List.mem_append_left _ ?_)
        rw [stragglers, if_pos rfl]
        exact List.mem_reverse.mpr (List.mem_map.mpr ⟨w, hlive, rfl⟩)
  · exact .inl (List.mem_append_right _ (by_contra fun hexit => halive ⟨hold, hexit⟩))

/-- When the race is over the primary may exit. -/
theorem resumed (hw : s.Waited) (htracked : s.Tracked ids) {outcome : Outcome}
    (hp : s.phase = .raced outcome) : (s.afterRace config outcome).Ended := by
  have ho : s.phase.isOver = false := by rw [hp]; rfl
  have haccounted := accounted_stragglers hw htracked hp
  have hcount : (stragglers s outcome ++ s.past).countP (·.isExit) = 0 := by
    rw [List.countP_append, (of_before hw ho).count, if_neg (by simp [hp]), Nat.add_zero]
    refine List.countP_eq_zero.mpr fun e he => ?_
    obtain ⟨id, rfl⟩ := mem_stragglers he
    exact Bool.false_ne_true
  have hpast : (s.afterRace config outcome).past =
      (if hasMetricsServer config then [] else [.exit 0]) ++
        (stragglers s outcome ++ s.past) := by
    rw [afterRace_past, ending, List.append_assoc, stragglers]
  cases hm : hasMetricsServer config with
  | true =>
      rw [hm, if_pos rfl, List.nil_append] at hpast
      refine ⟨fun _ => hpast ▸ haccounted, ?_, fun code earlier hin => ?_⟩
      · rw [hpast, hcount, afterRace_phase, hm]; rfl
      · have hexit := List.countP_eq_zero.mp hcount _ (hpast ▸ hin).mem
        exact absurd rfl hexit
  | false =>
      rw [hm, if_neg Bool.false_ne_true, List.singleton_append] at hpast
      refine ⟨fun _ => ?_, ?_, fun code earlier hin => ?_⟩
      · rw [hpast]
        exact @Accounted.append _ [.exit 0] haccounted (by simp)
      · rw [hpast, List.countP_cons_of_pos rfl, hcount, afterRace_phase, hm]; rfl
      · rw [hpast] at hin
        rcases Happened.cons_iff.mp hin with ⟨-, rfl⟩ | hin
        · exact haccounted
        · exact absurd rfl (List.countP_eq_zero.mp hcount _ hin.mem)

theorem step (h : s.Ended) (hw : s.Waited) (htracked : s.Tracked ids)
    (hs : (primary config ids).step s l = some s') : s'.Ended := by
  have hw' := hw.step htracked hs
  cases ho : s'.phase.isOver with
  | false => exact .of_before hw' ho
  | true =>
      cases step_takes hs with
      | @dismissed id t₁ t₂ =>
          -- the end does not begin with an exit
          have hsame : (s.deleted id t₂).phase = s.phase := by
            simp only [PrimaryState.deleted] at ho ⊢
            split at ho
            · cases ho
            next hnot => exact if_neg hnot
          refine ⟨fun _ => ?_, ?_, fun code earlier hin => ?_⟩
          · exact @Accounted.append _ [.exited id] (h.accounted (hsame ▸ ho)) (by simp)
          · rw [hsame, ← h.count]
            exact List.countP_cons_of_neg Bool.false_ne_true
          · exact h.last code earlier (hin.of_cons (by simp))
      | @unreplaced id t₁ t₂ _ _ _ hp | @rateLimited id t₁ t₂ _ _ _ hp
      | @respawned id t₁ t₂ _ _ _ hp =>
          have hp' := deleted_running hp id t₂
          simp [PrimaryState.disowned, PrimaryState.forkWorker, hp', Phase.isOver] at ho
      | ignored => exact h
      | begun => simp only at ho; split at ho <;> cases ho
      | expired => cases ho
      | resumed hp => exact resumed hw htracked hp
      | closed hp =>
          have haccounted := h.accounted (by rw [hp]; rfl)
          refine ⟨fun _ => @Accounted.append _ [.exit 0] haccounted (by simp), ?_,
            fun code earlier hin => ?_⟩
          · rw [PrimaryState.exit, List.countP_cons_of_pos rfl, h.count, hp]; rfl
          · rcases Happened.cons_iff.mp hin with ⟨-, rfl⟩ | hin
            · exact haccounted
            · exact h.last code earlier hin

end PrimaryState.Ended

/-! ### What shutdown awaits -/

/-- The end of the wait, the continuation after it, and the callback of the metrics server: what
`shutdown` awaits. -/
def PrimaryLabel.isAwaited : PrimaryLabel → Bool
  | .expire | .resume | .closed => true
  | .exit _ _ _ | .signal _ => false

/-- How much of it may still come. -/
def Phase.rank : Phase → Nat
  | .running | .waiting => 3
  | .raced _ => 2
  | .closing => 1
  | .exited => 0

theorem rank_step (hs : (primary config ids).step s l = some s') :
    s'.phase.rank + [l].countP (·.isAwaited) ≤ s.phase.rank := by
  cases step_takes hs with
  | dismissed =>
      simp only [PrimaryState.deleted]
      split
      next hlast => rw [hlast.2]; simp [Phase.rank, PrimaryLabel.isAwaited]
      · exact le_rfl
  | @unreplaced id t₁ t₂ _ _ _ hp | @rateLimited id t₁ t₂ _ _ _ hp
  | @respawned id t₁ t₂ _ _ _ hp =>
      have hp' := deleted_running hp id t₂
      simp [PrimaryState.disowned, PrimaryState.forkWorker, hp', hp, PrimaryLabel.isAwaited]
  | ignored => exact le_rfl
  | begun hp => rw [hp]; simp only; split <;> simp [Phase.rank, PrimaryLabel.isAwaited]
  | expired hp => rw [hp]; simp [Phase.rank, PrimaryLabel.isAwaited]
  | resumed hp => rw [hp, afterRace_phase]; split <;> simp [Phase.rank, PrimaryLabel.isAwaited]
  | closed hp => rw [hp]; simp [PrimaryState.exit, Phase.rank, PrimaryLabel.isAwaited]

/-- At most three of these come, in a run of any length. -/
theorem awaited_le {s₀ : PrimaryState} {ls : List PrimaryLabel}
    (r : Run (primary config ids) Free s₀ ls s) :
    s.phase.rank + ls.countP (·.isAwaited) ≤ s₀.phase.rank := by
  induction r with
  | nil => exact le_rfl
  | snoc r hs _ ih =>
      have hstep := rank_step hs
      rw [List.countP_append]
      omega

/-- If nothing that `shutdown` awaits can come, it has not begun or is over. -/
theorem exited_of_quiet (hp : s.phase ≠ .running)
    (hnone : ∀ l, l.isAwaited = true → (primary config ids).step s l = none) :
    s.phase = .exited := by
  cases hphase : s.phase with
  | running => exact absurd hphase hp
  | waiting =>
      have h := hnone .expire rfl
      simp [primary, primaryStep, hphase] at h
  | raced outcome =>
      have h := hnone .resume rfl
      simp [primary, primaryStep, hphase] at h
  | closing =>
      have h := hnone .closed rfl
      simp [primary, primaryStep, hphase] at h
  | exited => rfl

/-! ### The first signal -/

/-- The first signal among what comes from outside. -/
def firstSignal (ls : List PrimaryLabel) : Option Signal :=
  ls.findSome? fun
    | .signal signal => some signal
    | _ => none

theorem past_step (hs : (primary config ids).step s l = some s') : s.past <:+ s'.past := by
  cases step_takes hs with
  | dismissed | unreplaced => exact ⟨[_], rfl⟩
  | rateLimited | respawned => exact ⟨[_, _], rfl⟩
  | ignored => exact List.suffix_rfl
  | begun => exact List.suffix_append ..
  | resumed => rw [afterRace_past]; exact List.suffix_append ..
  | expired | closed => exact ⟨[_], rfl⟩

/-- The first signal begins shutdown, and nothing else does. -/
theorem first_signal {s₀ : PrimaryState} {ls : List PrimaryLabel} (h₀ : s₀.phase = .running)
    (r : Run (primary config ids) Free s₀ ls s) :
    match firstSignal ls with
    | none => s.phase = .running
    | some signal =>
        s.phase ≠ .running ∧ ∃ ms earlier, Happened s.past (.shutdown signal ms) earlier := by
  induction r with
  | nil => exact h₀
  | @snoc ls l s s' r hs _ ih =>
      rw [firstSignal, List.findSome?_append, ← firstSignal]
      cases hfirst : firstSignal ls with
      | some signal =>
          rw [hfirst] at ih
          obtain ⟨hp, ms, earlier, hin⟩ := ih
          exact ⟨fun hp' => hp (running_of_step hs hp'), ms, earlier, hin.mono (past_step hs)⟩
      | none =>
          rw [hfirst] at ih
          cases step_takes hs with
          | dismissed _ _ _ hp => exact absurd ih hp
          | @unreplaced id t₁ t₂ | @rateLimited id t₁ t₂ | @respawned id t₁ t₂ =>
              exact deleted_running ih id t₂
          | ignored hp => exact absurd ih hp
          | @begun signal hp =>
              refine ⟨fun hp' => ?_, waitMs config, s.past, ?_⟩
              · simp only at hp'; split at hp' <;> cases hp'
              · rw [starting, List.append_assoc]
                exact .append (Happened.cons_iff.mpr (.inl ⟨rfl, rfl⟩)) _
          | expired hp | resumed hp | closed hp => cases ih.symm.trans hp

/-! ### The protocol -/

/-- What the protocol promises of a state: of the signal, of the wait, of `SIGKILL` and of the
end. -/
structure PrimaryState.WindsDown (config : StartPrimaryConfig) (ids : Nat → Nat)
    (s : PrimaryState) : Prop where
  signal : Begun s.past
  wait : s.phase = .waiting → s.liveWorkers ≠ []
  sigkill : ∀ id earlier, Happened s.past (.sigkilled id) earlier →
    .expired ∈ earlier ∧ AliveIn earlier id
  exitOnce : s.past.countP (·.isExit) ≤ 1
  exitLast : ∀ code earlier, Happened s.past (.exit code) earlier → Accounted earlier
  exits : s.phase ≠ .running →
    (∀ l, l.isAwaited = true → (primary config ids).step s l = none) →
      s.past.countP (·.isExit) = 1

/-- **Cluster shutdown.**  Under any exits, signals, expiry and callbacks: the first signal begins
shutdown; nothing is forked after it, and every worker alive at that moment gets it exactly once;
the wait is over with the last worker; `SIGKILL` comes after the wait has expired, and to workers
still alive; the primary exits once, after every worker has exited or been sent `SIGKILL`, and it
does so when the at most three things it awaits have come. -/
theorem shutdown_protocol {cpuCount : ℚ} {now : Int} {s₀ : PrimaryState} {ls : List PrimaryLabel}
    (hids : Function.Injective ids) (hboot : startPrimary config ids cpuCount now = .ok s₀)
    (r : Run (primary config ids) Free s₀ ls s) :
    (match firstSignal ls with
      | none => s.phase = .running
      | some signal =>
          s.phase ≠ .running ∧ ∃ ms earlier, Happened s.past (.shutdown signal ms) earlier) ∧
      s.WindsDown config ids ∧ ls.countP (·.isAwaited) ≤ 3 := by
  obtain rfl := startPrimary_ok hboot
  generalize (resolveWorkerCount config.workers cpuCount).toNat = n at r
  have hrunning : (boot ids n now).phase = .running := by rw [boot_eq]; rfl
  have hboot' : ∀ e ∈ (boot ids n now).past, e.isWinding = false ∧ e.isEnding = false := by
    rw [boot_eq]
    simp [PrimaryEvent.isWinding, PrimaryEvent.isEnding]
  have hwaited : (boot ids n now).Waited := .of_running hrunning fun e he => (hboot' e he).2
  obtain ⟨-, -, -, hbegun, hw, hended⟩ := r.invariant
    (I := fun s => s.Pool ids n ∧ s.Tracked ids ∧ s.Calm ∧ Begun s.past ∧ s.Waited ∧ s.Ended)
    ⟨.boot hids now, .boot hids n now, fun _ e he => (hboot' e he).1,
      .calm fun e he => (hboot' e he).1, hwaited, .of_before hwaited (by rw [hrunning]; rfl)⟩
    fun s l s' ⟨hpool, htracked, hcalm, hbegun, hw, hended⟩ hs _ =>
      ⟨hpool.step hids hs, htracked.step hids hpool hs, hcalm.step hs,
        hbegun.step hcalm htracked hpool hs, hw.step htracked hs, hended.step hw htracked hs⟩
  refine ⟨first_signal hrunning r, ⟨hbegun, hw.waiting, hw.sigkilled, ?_, hended.last, ?_⟩, ?_⟩
  · rw [hended.count]; split <;> decide
  · intro hp hnone
    rw [hended.count, if_pos (exited_of_quiet hp hnone)]
  · have := awaited_le r
    rw [hrunning] at this
    exact (Nat.le_add_left ..).trans this

/-- Two workers, of which one outlives the wait. -/
theorem shutdown_protocol_two :
    ∃ s, (primary .two id).exec (boot id 2 0)
        [.signal .sigterm, .exit 0 5 5, .signal .sigint, .expire, .resume] = some s ∧
      s.past.take 5 = [.exit 0, .sigkilled 1, .expired, .exited 0, .killed 1 .sigterm] ∧
      s.WindsDown .two id := by
  have hrun : (primary .two id).exec (boot id 2 0)
      [.signal .sigterm, .exit 0 5 5, .signal .sigint, .expire, .resume] = some _ := rfl
  exact ⟨_, hrun, rfl, (@shutdown_protocol _ _ _ 1 0 _ _ Function.injective_id rfl
    (.of_exec hrun fun _ _ _ _ => trivial)).2.1⟩

end

end NestDdd.Cluster

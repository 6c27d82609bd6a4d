import NestDdd.Cluster.Primary

/-!
# Cluster — who leads

The worker forked with `CLUSTER_LEADER=true` runs the cron jobs, and leadership is handed on in
`onExit` only: a replacement leads if the worker it replaces did.

* `leader_restored`: while the rate cap refuses the leader no replacement, a live worker leads after
  every respawn.
* `leaderless_for_good`: the first time it does, no worker leads again, whatever is forked later.
-/

namespace NestDdd.Cluster

open Runs PrimaryState

namespace PrimaryState

/-- If the last thing that happened is a respawn, exactly one live worker leads; the replacement
does if no other worker does. -/
def Restored (s : PrimaryState) : Prop :=
  ∀ id leader old t earlier, s.past = .forked id leader (some (old, t)) :: earlier →
    ((∀ w ∈ s.liveWorkers, w.id ≠ id → w.leader = false) → leader = true) ∧
      s.liveWorkers.countP (·.leader) = 1

/-- A live worker leads, and the primary knows which, until shutdown begins. -/
def Led (s : PrimaryState) : Prop :=
  s.phase = .running → ∃ w ∈ s.liveWorkers, w.leader = true ∧ s.leaderId = some w.id

/-- No leader: the primary has none to hand on, and no live worker is one. -/
structure Leaderless (s : PrimaryState) : Prop where
  unknown : s.phase = .running → s.leaderId = none
  live : ∀ w ∈ s.liveWorkers, w.leader = false

end PrimaryState

/-- A respawn of the leader is not refused. -/
def LeaderReplaced (config : StartPrimaryConfig) : PrimaryState → PrimaryLabel → PrimaryState → Prop
  | s, .exit id t₁ _, _ =>
      s.phase = .running → s.leads id = true →
        (s.inWindow t₁).length < config.respawnMaxPerMinute
  | _, _, _ => True

section

variable {config : StartPrimaryConfig} {ids : Nat → Nat} {s s' : PrimaryState} {l : PrimaryLabel}

/-! ### While every leader is replaced -/

theorem PrimaryState.Led.boot {workerCount : Nat} (hpos : 0 < workerCount) (now : Int) :
    Led (boot ids workerCount now) := by
  intro _
  rw [boot_eq]
  exact ⟨⟨ids 0, true⟩, List.mem_map.mpr ⟨0, List.mem_range.mpr hpos, rfl⟩, rfl,
    if_neg (Nat.ne_of_gt hpos)⟩

/-- The leader outlives the exit of another worker. -/
theorem PrimaryState.Led.deleted (h : Led s) (hp : s.phase = .running) {id : Nat}
    (hlead : s.leads id = false) (now : Int) :
    ∃ w ∈ (s.deleted id now).liveWorkers, w.leader = true ∧ s.leaderId = some w.id := by
  obtain ⟨w, hw, hl, hid⟩ := h hp
  refine ⟨w, List.mem_filter.mpr ⟨hw, decide_eq_true fun hsame => ?_⟩, hl, hid⟩
  exact of_decide_eq_false hlead (hsame ▸ hid)

/-- **There is a leader** at every step that does not refuse to replace it. -/
theorem PrimaryState.Led.step (h : Led s) (hr : config.respawn = true)
    (hs : (primary config ids).step s l = some s') (g : LeaderReplaced config s l s') :
    Led s' := by
  intro hp'
  have hp := running_of_step hs hp'
  cases step_takes hs with
  | unreplaced _ _ _ _ hnone => cases hr.symm.trans hnone
  | @rateLimited id t₁ t₂ _ _ _ _ _ hfull =>
      -- the guard: it is not the leader that was refused
      have hlead : s.leads id = false :=
        Bool.eq_false_iff.mpr fun hlead => Nat.not_le.mpr (g hp hlead) hfull
      obtain ⟨w, hw, hl, hid⟩ := h.deleted hp hlead t₂
      exact ⟨w, hw, hl, (if_neg (Bool.eq_false_iff.mp hlead)).trans hid⟩
  | @respawned id t₁ t₂ =>
      cases hlead : s.leads id with
      | true => exact ⟨_, List.mem_append_right _ List.mem_cons_self, rfl, rfl⟩
      | false =>
          obtain ⟨w, hw, hl, hid⟩ := h.deleted hp hlead t₂
          exact ⟨w, List.mem_append_left _ hw, hl, hid⟩
  | ignored => exact h hp
  | begun => simp only at hp'; split at hp' <;> cases hp'
  | dismissed _ _ _ hnot => exact absurd hp hnot
  | expired hp'' | resumed hp'' | closed hp'' => cases hp.symm.trans hp''

/-- What happens without a respawn is no occasion for a new leader. -/
theorem PrimaryState.Restored.quiet (h : Restored s) (new : List PrimaryEvent)
    (hpast : s'.past = new ++ s.past) (hnew : ∀ e ∈ new, e.isRespawn = false)
    (hlive : new = [] → s'.liveWorkers = s.liveWorkers) : Restored s' := by
  intro id leader old t earlier hlast
  rw [hpast] at hlast
  cases new with
  | nil => rw [hlive rfl]; exact h id leader old t earlier hlast
  | cons e new =>
      obtain ⟨rfl, -⟩ := List.cons.inj hlast
      cases hnew _ List.mem_cons_self

theorem PrimaryState.Restored.step {workerCount : Nat} (hids : Function.Injective ids)
    (h : Restored s) (hpool : s.Pool ids workerCount)
    (hs : (primary config ids).step s l = some s') (hled : Led s') : Restored s' := by
  have hpool' := hpool.step hids hs
  cases step_takes hs with
  | @dismissed id | @unreplaced id =>
      exact h.quiet [.exited id] rfl (by simp [PrimaryEvent.isRespawn]) (by simp)
  | @rateLimited id =>
      exact h.quiet [.rateLimited id (s.leads id), .exited id] rfl
        (by simp [PrimaryEvent.isRespawn]) (by simp)
  | @respawned id t₁ t₂ hid _ _ hp =>
      intro id' leader old t earlier hlast
      obtain ⟨w, hw, hl, -⟩ := hled (deleted_running hp id t₂)
      cases hlast
      have hone := le_antisymm hpool'.leaders_le_one (List.countP_pos_iff.mpr ⟨w, hw, hl⟩)
      refine ⟨fun hnone => ?_, hone⟩
      rcases List.mem_append.mp hw with hw | hw
      · have hne := (hpool.deleted hid t₂).1.fresh hids hw
        exact absurd hl (by simp [hnone w (List.mem_append_left _ hw) hne])
      · obtain rfl := List.mem_singleton.mp hw
        exact hl
  | ignored => exact h
  | begun =>
      refine h.quiet _ rfl (fun e he => ?_) fun _ => rfl
      rcases mem_starting he with rfl | ⟨w, -, rfl⟩ <;> rfl
  | expired => exact h.quiet [.expired] rfl (by simp [PrimaryEvent.isRespawn]) (by simp)
  | resumed =>
      refine h.quiet _ afterRace_past (fun e he => ?_) fun _ => afterRace_liveWorkers
      rcases mem_ending he with rfl | ⟨-, w, -, rfl⟩ <;> rfl
  | closed => exact h.quiet [.exit 0] rfl (by simp [PrimaryEvent.isRespawn]) (by simp)

/-! ### Once a leader is not replaced -/

theorem PrimaryState.Leaderless.step (h : Leaderless s)
    (hs : (primary config ids).step s l = some s') : Leaderless s' := by
  refine ⟨fun hp' => ?_, ?_⟩
  · have hp := running_of_step hs hp'
    cases step_takes hs with
    | unreplaced | rateLimited => exact ite_eq_left_iff.mpr fun _ => h.unknown hp
    | respawned =>
        simp [forkWorker, leads, PrimaryState.deleted, h.unknown hp]
    | ignored => exact h.unknown hp
    | begun => exact h.unknown hp
    | dismissed _ _ _ hnot => exact absurd hp hnot
    | expired hp'' | resumed hp'' | closed hp'' => cases hp.symm.trans hp''
  · cases step_takes hs with
    | dismissed | unreplaced | rateLimited =>
        exact fun w hw => h.live w (List.mem_of_mem_filter hw)
    | @respawned id t₁ t₂ _ _ _ hp =>
        intro w hw
        rcases List.mem_append.mp hw with hw | hw
        · exact h.live w (List.mem_of_mem_filter hw)
        · rw [List.mem_singleton.mp hw]
          simp [leads, h.unknown hp]
    | ignored | begun | expired | closed => exact h.live
    | resumed => rw [afterRace_liveWorkers]; exact h.live

/-! ### Over a whole run -/

variable {cpuCount : ℚ} {now : Int} {s₀ : PrimaryState} {ls : List PrimaryLabel}

/-- **Leadership is handed on** as long as the rate cap refuses the leader no replacement: after
every respawn exactly one live worker leads, and it is the replacement if no other one does. -/
theorem leader_restored (hids : Function.Injective ids) (hr : config.respawn = true)
    (hboot : startPrimary config ids cpuCount now = .ok s₀)
    (r : Run (primary config ids) (LeaderReplaced config) s₀ ls s) : s.Restored := by
  obtain rfl := startPrimary_ok hboot
  have hpos : 0 < (resolveWorkerCount config.workers cpuCount).toNat := by
    have := resolveWorkerCount_pos config.workers cpuCount
    omega
  generalize (resolveWorkerCount config.workers cpuCount).toNat = n at hpos r
  have hboot' : Restored (boot ids n now) := by
    rw [boot_eq]
    intro id leader old t earlier hlast
    have hmem := hlast ▸ List.mem_cons_self
    simp at hmem
  refine (r.invariant (I := fun s => s.Pool ids n ∧ s.Led ∧ s.Restored)
    ⟨Pool.boot hids now, Led.boot hpos now, hboot'⟩ ?_).2.2
  rintro s l s' ⟨hpool, hled, hrestored⟩ hs g
  have hled' := hled.step hr hs g
  exact ⟨hpool.step hids hs, hled', hrestored.step hids hpool hs hled'⟩

/-- The second of two workers exits, and then the leader: both are replaced. -/
theorem leader_restored_two :
    ∃ s, (primary .two id).exec (boot id 2 0) [.exit 1 0 0, .exit 0 1000 1000] = some s ∧
      s.liveWorkers = [⟨2, false⟩, ⟨3, true⟩] ∧ s.Restored := by
  have r : Run (primary .two id) (LeaderReplaced .two) (boot id 2 0)
      [.exit 1 0 0, .exit 0 1000 1000] _ :=
    .cons rfl (fun _ _ => by decide) (.one rfl fun _ _ => by decide)
  exact ⟨_, rfl, rfl, @leader_restored _ _ _ 1 0 _ _ Function.injective_id rfl rfl r⟩

/-- Two workers, of which one may be replaced a minute. -/
def StartPrimaryConfig.oneAMinute : StartPrimaryConfig :=
  { two with respawnMaxPerMinute := 1, respawnMaxPerMinute_pos := by decide }

/-- The leader exits in the minute of the one respawn, and the other worker an hour later: its
replacement does not lead, and nothing does. -/
theorem leader_lost :
    ∃ s, startPrimary .oneAMinute id 1 0 = .ok (boot id 2 0) ∧
      Run (primary .oneAMinute id) Free (boot id 2 0)
        [.exit 1 0 0, .exit 0 1000 1000, .exit 2 3600000 3600000] s ∧
      StartPrimaryConfig.oneAMinute.respawn = true ∧ s.phase = .running ∧ ¬ s.Restored := by
  refine ⟨_, rfl, .of_exec rfl fun _ _ _ _ => trivial, rfl, rfl, fun h => ?_⟩
  have hleads := (h 3 false 2 3600000 _ rfl).2
  cases hleads

/-- **Leadership is lost for good** when the leader exits while the rate cap is reached: whatever is
forked from then on, no live worker leads. -/
theorem leaderless_for_good (hids : Function.Injective ids) (hr : config.respawn = true)
    (hboot : startPrimary config ids cpuCount now = .ok s₀)
    (r : Run (primary config ids) Free s₀ ls s) (hp : s.phase = .running) {id : Nat} {t₁ t₂ : Int}
    (hlead : s.leads id = true)
    (hfull : config.respawnMaxPerMinute ≤ (s.inWindow t₁).length)
    (hs : (primary config ids).step s (.exit id t₁ t₂) = some s') {ls' : List PrimaryLabel}
    {s'' : PrimaryState} (r' : Run (primary config ids) Free s' ls' s'') :
    ∀ w ∈ s''.liveWorkers, w.leader = false := by
  obtain rfl := startPrimary_ok hboot
  have hpool := r.invariant (Pool.boot hids now) fun _ _ _ h hs _ => h.step hids hs
  have hlost : s'.Leaderless := by
    cases step_takes hs with
    | dismissed _ _ _ hnot => exact absurd hp hnot
    | unreplaced _ _ _ _ hnone => cases hr.symm.trans hnone
    | respawned _ _ _ _ _ hroom => exact absurd hfull (Nat.not_le.mpr hroom)
    | rateLimited => exact ⟨fun _ => if_pos hlead, fun w hw => hpool.leaderless t₂ hlead hw⟩
  exact (r'.invariant hlost fun _ _ _ h hs _ => h.step hs).live

end

end NestDdd.Cluster

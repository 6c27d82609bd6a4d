import NestDdd.Runs.History
import NestDdd.Runs.Machine
import NestDdd.Runs.RollingWindow
import Mathlib.Algebra.Order.Group.Int
import Mathlib.Data.List.Nodup
import Mathlib.Data.Rat.Floor

/-!
# Cluster — the primary

`startPrimary` (`src/infrastructure/cluster/cluster-primary.ts`): it forks the workers, replaces
those that exit, and winds the cluster down on `SIGTERM` or `SIGINT`.  What comes from outside is a
label: an exit, a signal, the end of the bounded wait, the continuation of `shutdown` after its
race, the callback of the metrics server.  The `n`-th fork gets the id `ids n`.  `PrimaryState.past`
keeps what happened, newest first, and is no part of the program.

* `PrimaryState.step_takes`: what a step may do.
* `PrimaryState.Pool`: one leader at most, as many workers as were asked for.
* `PrimaryState.Paced`: no more respawns than the rolling window lets through; each respawn follows
  the exit it makes up for.
-/

namespace NestDdd.Cluster

open Runs

/-! ### Boot -/

inductive IdempotencyStore where
  | memory
  | oracle
  deriving DecidableEq

/-- The slice of the configuration that the primary reads, within the bounds of its schemas. -/
structure StartPrimaryConfig where
  workers : Nat
  respawn : Bool
  respawnMaxPerMinute : Nat
  metricsPort : Option Nat
  metricsEnabled : Bool
  drainDelayMs : Nat
  forceAfterMs : Nat
  jobDrainMs : Nat
  store : IdempotencyStore
  respawnMaxPerMinute_pos : 1 ≤ respawnMaxPerMinute

/-- The defaults of the schemas, but for a store that workers can share. -/
def StartPrimaryConfig.defaults : StartPrimaryConfig where
  workers := 0
  respawn := true
  respawnMaxPerMinute := 10
  metricsPort := none
  metricsEnabled := false
  drainDelayMs := 5000
  forceAfterMs := 10000
  jobDrainMs := 10000
  store := .oracle
  respawnMaxPerMinute_pos := by decide

/-- Two workers. -/
def StartPrimaryConfig.two : StartPrimaryConfig := { defaults with workers := 2 }

def resolveWorkerCount (configuredWorkers cpuCount : ℚ) : Int :=
  let requested := if configuredWorkers > 0 then configuredWorkers else cpuCount
  max 1 ⌊requested⌋

theorem resolveWorkerCount_pos (configuredWorkers cpuCount : ℚ) :
    1 ≤ resolveWorkerCount configuredWorkers cpuCount :=
  le_max_left ..

/-- An issue of an `InvalidConfigError`. -/
structure ConfigIssue where
  path : String
  code : String
  message : String

/-- `runClusterBootRails`, apart from its log lines. -/
def runClusterBootRails (store : IdempotencyStore) (workerCount : Int) :
    Except (List ConfigIssue) Unit :=
  if workerCount > 1 ∧ store = .memory then
    .error [{
      path := "idempotency.store"
      code := "custom"
      message :=
        "IDEMPOTENCY_STORE=memory is single-instance only: state lives in the memory " ++
        "of one process, not shared across replicas. Cluster mode would run " ++
        toString workerCount ++ " " ++
        "worker processes, so a claim made on one worker is invisible to the others and " ++
        "the same request could run twice — worse than refusing to start. Set " ++
        "IDEMPOTENCY_STORE=oracle, or run a single worker (CLUSTER_WORKERS=1)." }]
  else .ok ()

/-! ### State -/

inductive Signal where
  | sigterm
  | sigint
  deriving DecidableEq

/-- A live worker, and whether it was forked with `CLUSTER_LEADER=true`. -/
structure Worker where
  id : Nat
  leader : Bool
  deriving DecidableEq

/-- What the race of `shutdown` came to. -/
inductive Outcome where
  | drained
  | timeout
  deriving DecidableEq

/-- How far `shutdown` has come: not begun, at its race, past it, at the metrics server's `close`,
past `exit`. -/
inductive Phase where
  | running
  | waiting
  | raced (outcome : Outcome)
  | closing
  | exited
  deriving DecidableEq

/-- What the primary did, and what happened to its workers.  A fork that makes up for an exit has
the worker it replaces, and the time it was counted at. -/
inductive PrimaryEvent where
  | forked (id : Nat) (leader : Bool) (replaces : Option (Nat × Int))
  | exited (id : Nat)
  | rateLimited (id : Nat) (leader : Bool)
  | shutdown (signal : Signal) (waitMs : Nat)
  | killed (id : Nat) (signal : Signal)
  | expired
  | sigkilled (id : Nat)
  | exit (code : Nat)
  deriving DecidableEq

structure PrimaryState where
  liveWorkers : List Worker
  respawnTimestamps : List Int
  leaderId : Option Nat
  phase : Phase
  /-- How many workers were forked so far. -/
  forks : Nat
  /-- What `now()` read last. -/
  clock : Int
  past : List PrimaryEvent

/-- `SHUTDOWN_SLACK_MS`. -/
def shutdownSlackMs : Nat := 2000

/-- `RESPAWN_WINDOW_MS`. -/
def respawnWindowMs : Int := 60000

/-- The times at which respawns were counted, newest first. -/
def respawnTimes (past : List PrimaryEvent) : List Int :=
  past.filterMap fun
    | .forked _ _ (some (_, t)) => some t
    | _ => none

namespace PrimaryState

section

variable (config : StartPrimaryConfig) (ids : Nat → Nat) (s : PrimaryState)

/-- No worker yet. -/
def empty (now : Int) : PrimaryState := ⟨[], [], none, .running, 0, now, []⟩

def forkWorker (isLeader : Bool) (replaces : Option (Nat × Int)) : PrimaryState :=
  let id := ids s.forks
  { s with
    liveWorkers := s.liveWorkers ++ [⟨id, isLeader⟩]
    leaderId := if isLeader then some id else s.leaderId
    forks := s.forks + 1
    past := .forked id isLeader replaces :: s.past }

/-- `for (let index = 0; index < workerCount; index += 1) forkWorker(index === 0)`. -/
def boot (workerCount : Nat) (now : Int) : PrimaryState :=
  (List.range workerCount).foldl (fun s index => s.forkWorker ids (index == 0) none) (empty now)

/-- `liveWorkers.delete(worker.id)`, and `notifyDrained` if it was the last. -/
def deleted (id : Nat) (now : Int) : PrimaryState :=
  let live := s.liveWorkers.filter (·.id ≠ id)
  { s with
    liveWorkers := live
    phase := if live = [] ∧ s.phase = .waiting then .raced .drained else s.phase
    clock := now
    past := .exited id :: s.past }

/-- `worker.id === leaderId`. -/
def leads (id : Nat) : Bool := s.leaderId = some id

/-- `if (wasLeader) leaderId = undefined`. -/
def disowned (id : Nat) : PrimaryState :=
  { s with leaderId := if s.leads id then none else s.leaderId }

/-- The timestamps that a respawn at `now` leaves in the window. -/
def inWindow (now : Int) : List Int := s.respawnTimestamps.dropWhile (· < now - respawnWindowMs)

/-- `onExit`; `now()` first reads `t₁`, and then `t₂`. -/
def onExit (id : Nat) (t₁ t₂ : Int) : PrimaryState :=
  let wasLeader := s.leads id
  let gone := s.deleted id t₂
  if s.phase ≠ .running then gone
  else if !config.respawn then gone.disowned id
  else
    let kept := s.inWindow t₁
    let gone := { gone with respawnTimestamps := kept }
    if kept.length ≥ config.respawnMaxPerMinute then
      { gone.disowned id with past := .rateLimited id wasLeader :: gone.past }
    else
      { gone with respawnTimestamps := kept ++ [t₂] }.forkWorker ids wasLeader (some (id, t₂))

/-- The bound of the wait. -/
def waitMs : Nat :=
  config.drainDelayMs + config.forceAfterMs + config.jobDrainMs + shutdownSlackMs

/-- What `shutdown` does before its race: every live worker gets the signal. -/
def starting (signal : Signal) : List PrimaryEvent :=
  (s.liveWorkers.map fun w => .killed w.id signal).reverse ++ [.shutdown signal (waitMs config)]

/-- `shutdown` up to its race. -/
def shutdown (signal : Signal) : PrimaryState :=
  if s.phase ≠ .running then s
  else
    { s with
      phase := if s.liveWorkers = [] then .raced .drained else .waiting
      past := starting config s signal ++ s.past }

/-- `processApi.exit(0)`. -/
def exit : PrimaryState := { s with phase := .exited, past := .exit 0 :: s.past }

/-- `config.cluster.metricsPort && config.metrics.enabled`. -/
def hasMetricsServer : Bool := config.metricsPort.getD 0 ≠ 0 && config.metricsEnabled

/-- The stragglers get their `SIGKILL`. -/
def killed (outcome : Outcome) : PrimaryState :=
  if outcome = .timeout ∧ s.liveWorkers ≠ [] then
    { s with past := (s.liveWorkers.map fun w => .sigkilled w.id).reverse ++ s.past }
  else s

/-- `shutdown` from the end of its race on. -/
def afterRace (outcome : Outcome) : PrimaryState :=
  let s := s.killed outcome
  if hasMetricsServer config then { s with phase := .closing } else s.exit

/-! What `starting` adds to the history, and what `afterRace` leaves alone. -/

variable {config s} {outcome : Outcome}

theorem deleted_running (hp : s.phase = .running) (id : Nat) (now : Int) :
    (s.deleted id now).phase = .running := by
  simp [deleted, hp]

theorem mem_starting {signal : Signal} {e : PrimaryEvent} (he : e ∈ starting config s signal) :
    e = .shutdown signal (waitMs config) ∨ ∃ w ∈ s.liveWorkers, e = .killed w.id signal := by
  rcases List.mem_append.mp he with he | he
  · obtain ⟨w, hw, rfl⟩ := List.mem_map.mp (List.mem_reverse.mp he)
    exact .inr ⟨w, hw, rfl⟩
  · exact .inl (List.mem_singleton.mp he)

@[simp] theorem afterRace_liveWorkers :
    (s.afterRace config outcome).liveWorkers = s.liveWorkers := by
  unfold afterRace killed exit; split_ifs <;> rfl

@[simp] theorem afterRace_leaderId : (s.afterRace config outcome).leaderId = s.leaderId := by
  unfold afterRace killed exit; split_ifs <;> rfl

@[simp] theorem afterRace_forks : (s.afterRace config outcome).forks = s.forks := by
  unfold afterRace killed exit; split_ifs <;> rfl

@[simp] theorem afterRace_clock : (s.afterRace config outcome).clock = s.clock := by
  unfold afterRace killed exit; split_ifs <;> rfl

@[simp] theorem afterRace_respawnTimestamps :
    (s.afterRace config outcome).respawnTimestamps = s.respawnTimestamps := by
  unfold afterRace killed exit; split_ifs <;> rfl

@[simp] theorem afterRace_phase :
    (s.afterRace config outcome).phase =
      if hasMetricsServer config then .closing else .exited := by
  unfold afterRace killed exit; split_ifs <;> rfl

/-- What `afterRace` adds to the history. -/
def ending (config : StartPrimaryConfig) (s : PrimaryState) (outcome : Outcome) :
    List PrimaryEvent :=
  (if hasMetricsServer config then [] else [.exit 0]) ++
    if outcome = .timeout then (s.liveWorkers.map fun w => .sigkilled w.id).reverse else []

theorem afterRace_past :
    (s.afterRace config outcome).past = ending config s outcome ++ s.past := by
  unfold afterRace killed exit ending
  by_cases hl : s.liveWorkers = [] <;> by_cases ho : outcome = .timeout <;>
    by_cases hm : hasMetricsServer config = true <;> simp [hl, ho, hm]

theorem mem_ending {e : PrimaryEvent} (he : e ∈ ending config s outcome) :
    e = .exit 0 ∨ outcome = .timeout ∧ ∃ w ∈ s.liveWorkers, e = .sigkilled w.id := by
  rcases List.mem_append.mp he with he | he
  · split at he
    · cases he
    · exact .inl (List.mem_singleton.mp he)
  · split at he
    next ho =>
      obtain ⟨w, hw, rfl⟩ := List.mem_map.mp (List.mem_reverse.mp he)
      exact .inr ⟨ho, w, hw, rfl⟩
    · cases he

end

end PrimaryState

open PrimaryState

def startPrimary (config : StartPrimaryConfig) (ids : Nat → Nat) (cpuCount : ℚ) (now : Int) :
    Except (List ConfigIssue) PrimaryState := do
  let workerCount := resolveWorkerCount config.workers cpuCount
  runClusterBootRails config.store workerCount
  pure (boot ids workerCount.toNat now)

inductive PrimaryLabel where
  | exit (id : Nat) (t₁ t₂ : Int)
  | signal (signal : Signal)
  | expire
  | resume
  | closed

section

variable (config : StartPrimaryConfig) (ids : Nat → Nat)

/-- Only live workers exit.  A wait that expires when it is over changes nothing, and is left
out. -/
def primaryStep (s : PrimaryState) : PrimaryLabel → Option PrimaryState
  | .exit id t₁ t₂ =>
      if id ∈ s.liveWorkers.map (·.id) ∧ s.clock ≤ t₁ ∧ t₁ ≤ t₂ then
        some (s.onExit config ids id t₁ t₂)
      else none
  | .signal signal => some (s.shutdown config signal)
  | .expire =>
      if s.phase = .waiting then
        some { s with phase := .raced .timeout, past := .expired :: s.past }
      else none
  | .resume =>
      match s.phase with
      | .raced outcome => some (s.afterRace config outcome)
      | _ => none
  | .closed => if s.phase = .closing then some s.exit else none

def primary : Machine PrimaryState PrimaryLabel := ⟨primaryStep config ids⟩

end

/-! ### What a step does -/

section

variable {config : StartPrimaryConfig} {ids : Nat → Nat} {s s' : PrimaryState}

/-- What a step may do. -/
inductive PrimaryState.Takes (config : StartPrimaryConfig) (ids : Nat → Nat) (s : PrimaryState) :
    PrimaryLabel → PrimaryState → Prop where
  | dismissed {id : Nat} {t₁ t₂ : Int} (hid : id ∈ s.liveWorkers.map (·.id)) (h₁ : s.clock ≤ t₁)
      (h₂ : t₁ ≤ t₂) (hp : s.phase ≠ .running) :
      Takes config ids s (.exit id t₁ t₂) (s.deleted id t₂)
  | unreplaced {id : Nat} {t₁ t₂ : Int} (hid : id ∈ s.liveWorkers.map (·.id)) (h₁ : s.clock ≤ t₁)
      (h₂ : t₁ ≤ t₂) (hp : s.phase = .running) (hr : config.respawn = false) :
      Takes config ids s (.exit id t₁ t₂) ((s.deleted id t₂).disowned id)
  | rateLimited {id : Nat} {t₁ t₂ : Int} (hid : id ∈ s.liveWorkers.map (·.id)) (h₁ : s.clock ≤ t₁)
      (h₂ : t₁ ≤ t₂) (hp : s.phase = .running) (hr : config.respawn = true)
      (hfull : config.respawnMaxPerMinute ≤ (s.inWindow t₁).length) :
      Takes config ids s (.exit id t₁ t₂)
        { (s.deleted id t₂).disowned id with
          respawnTimestamps := s.inWindow t₁
          past := .rateLimited id (s.leads id) :: .exited id :: s.past }
  | respawned {id : Nat} {t₁ t₂ : Int} (hid : id ∈ s.liveWorkers.map (·.id)) (h₁ : s.clock ≤ t₁)
      (h₂ : t₁ ≤ t₂) (hp : s.phase = .running) (hr : config.respawn = true)
      (hroom : (s.inWindow t₁).length < config.respawnMaxPerMinute) :
      Takes config ids s (.exit id t₁ t₂)
        ({ s.deleted id t₂ with respawnTimestamps := s.inWindow t₁ ++ [t₂] }.forkWorker ids
          (s.leads id) (some (id, t₂)))
  | ignored {signal : Signal} (hp : s.phase ≠ .running) : Takes config ids s (.signal signal) s
  | begun {signal : Signal} (hp : s.phase = .running) :
      Takes config ids s (.signal signal)
        { s with
          phase := if s.liveWorkers = [] then .raced .drained else .waiting
          past := starting config s signal ++ s.past }
  | expired (hp : s.phase = .waiting) :
      Takes config ids s .expire { s with phase := .raced .timeout, past := .expired :: s.past }
  | resumed {outcome : Outcome} (hp : s.phase = .raced outcome) :
      Takes config ids s .resume (s.afterRace config outcome)
  | closed (hp : s.phase = .closing) : Takes config ids s .closed s.exit

theorem PrimaryState.step_takes {l : PrimaryLabel} (h : (primary config ids).step s l = some s') :
    s.Takes config ids l s' := by
  cases l with
  | exit id t₁ t₂ =>
      obtain ⟨⟨hid, h₁, h₂⟩, rfl⟩ := Option.ite_none_right_eq_some.mp h |>.imp_right Option.some.inj
      by_cases hp : s.phase = .running
      · cases hr : config.respawn with
        | false =>
            simpa only [onExit, hp, hr, ne_eq, not_true_eq_false, if_false, Bool.not_false,
              if_true] using Takes.unreplaced hid h₁ h₂ hp hr
        | true =>
            simp only [onExit, hp, hr, ne_eq, not_true_eq_false, if_false, Bool.not_true,
              Bool.false_eq_true]
            split
            next hfull => exact .rateLimited hid h₁ h₂ hp hr hfull
            next hroom => exact .respawned hid h₁ h₂ hp hr (Nat.not_le.mp hroom)
      · simpa only [onExit, hp, ne_eq, not_false_eq_true, if_true] using
          Takes.dismissed hid h₁ h₂ hp
  | signal signal =>
      obtain rfl := Option.some.inj h
      by_cases hp : s.phase = .running
      · simpa only [shutdown, hp, ne_eq, not_true_eq_false, if_false] using
          @Takes.begun config ids s signal hp
      · simpa only [shutdown, hp, ne_eq, not_false_eq_true, if_true] using
          @Takes.ignored config ids s signal hp
  | expire =>
      obtain ⟨hp, h⟩ := Option.ite_none_right_eq_some.mp h
      obtain rfl := Option.some.inj h
      exact .expired hp
  | resume =>
      simp only [primary, primaryStep] at h
      split at h
      next outcome hp =>
        obtain rfl := Option.some.inj h
        exact .resumed hp
      next => cases h
  | closed =>
      obtain ⟨hp, h⟩ := Option.ite_none_right_eq_some.mp h
      obtain rfl := Option.some.inj h
      exact .closed hp

/-- Shutdown once begun is never over. -/
theorem PrimaryState.running_of_step {l : PrimaryLabel}
    (hs : (primary config ids).step s l = some s') (hp' : s'.phase = .running) :
    s.phase = .running := by
  cases step_takes hs with
  | dismissed _ _ _ hp =>
      simp only [deleted] at hp'
      split at hp'
      · cases hp'
      · exact hp'
  | unreplaced _ _ _ hp | rateLimited _ _ _ hp | respawned _ _ _ hp | begun hp => exact hp
  | ignored => exact hp'
  | resumed => rw [afterRace_phase] at hp'; split at hp' <;> cases hp'
  | expired | closed => cases hp'

/-! ### After boot -/

theorem boot_succ (n : Nat) (now : Int) :
    boot ids (n + 1) now = (boot ids n now).forkWorker ids (n == 0) none := by
  rw [boot, List.range_succ, List.foldl_append, ← boot]
  rfl

/-- The cluster after `n` of the first forks. -/
theorem boot_eq (n : Nat) (now : Int) :
    boot ids n now =
      { empty now with
        liveWorkers := (List.range n).map fun index => ⟨ids index, index == 0⟩
        leaderId := if n = 0 then none else some (ids 0)
        forks := n
        past := ((List.range n).map fun index =>
          .forked (ids index) (index == 0) none).reverse } := by
  induction n with
  | zero => rfl
  | succ n ih =>
      rw [boot_succ, ih]
      cases n with
      | zero => rfl
      | succ n => simp [forkWorker, List.range_succ]

theorem startPrimary_ok {cpuCount : ℚ} {now : Int}
    (h : startPrimary config ids cpuCount now = .ok s) :
    s = boot ids (resolveWorkerCount config.workers cpuCount).toNat now := by
  simp only [startPrimary, runClusterBootRails] at h
  split at h
  · cases h
  · exact (Except.ok.inj h).symm

/-! ### The invariant -/

/-- What holds of the live workers and of what the primary knows about them. -/
structure PrimaryState.Pool (ids : Nat → Nat) (workerCount : Nat) (s : PrimaryState) : Prop where
  nodup : (s.liveWorkers.map (·.id)).Nodup
  forked : ∀ w ∈ s.liveWorkers, ∃ n < s.forks, ids n = w.id
  leader : ∀ w ∈ s.liveWorkers, w.leader = true → s.leaderId = some w.id
  size : s.liveWorkers.length ≤ workerCount

namespace PrimaryState.Pool

variable {workerCount : Nat}

/-- The invariant reads no other field. -/
theorem of_same (h : s.Pool ids workerCount) (hl : s'.liveWorkers = s.liveWorkers)
    (hf : s'.forks = s.forks) (hi : s'.leaderId = s.leaderId) : s'.Pool ids workerCount := by
  refine ⟨hl ▸ h.nodup, ?_, ?_, hl ▸ h.size⟩
  · rw [hl, hf]; exact h.forked
  · rw [hl, hi]; exact h.leader

/-- Two live workers with one id are one worker, so there is one leader at most. -/
theorem leaders_le_one (h : s.Pool ids workerCount) : s.liveWorkers.countP (·.leader) ≤ 1 := by
  obtain ⟨hnodup, -, hleader, -⟩ := h
  generalize s.liveWorkers = live at hnodup hleader
  induction live with
  | nil => simp
  | cons w rest ih =>
      obtain ⟨hw, hrest⟩ := List.nodup_cons.mp hnodup
      cases hl : w.leader with
      | false =>
          rw [List.countP_cons_of_neg (by simp [hl])]
          exact ih hrest fun w' hw' => hleader w' (List.mem_cons_of_mem w hw')
      | true =>
          rw [List.countP_cons_of_pos hl, List.countP_eq_zero.mpr]
          intro w' hw' hl'
          have hsame := (hleader w List.mem_cons_self hl).symm.trans
            (hleader w' (List.mem_cons_of_mem w hw') hl')
          exact hw (List.mem_map.mpr ⟨w', hw', (Option.some.inj hsame).symm⟩)

theorem boot (hids : Function.Injective ids) (now : Int) :
    (PrimaryState.boot ids workerCount now).Pool ids workerCount := by
  rw [boot_eq]
  refine ⟨?_, fun w hw => ?_, fun w hw hl => ?_, by simp⟩
  · simpa [Function.comp_def] using List.Nodup.map hids List.nodup_range
  · obtain ⟨n, hn, rfl⟩ := List.mem_map.mp hw
    exact ⟨n, List.mem_range.mp hn, rfl⟩
  · obtain ⟨n, hn, rfl⟩ := List.mem_map.mp hw
    obtain rfl := eq_of_beq hl
    exact if_neg (Nat.ne_of_gt (List.mem_range.mp hn))

/-- A worker is gone: there is room for one more. -/
theorem deleted (h : s.Pool ids workerCount) {id : Nat} (hid : id ∈ s.liveWorkers.map (·.id))
    (now : Int) :
    (s.deleted id now).Pool ids workerCount ∧
      (s.deleted id now).liveWorkers.length < workerCount := by
  have hsub : (s.deleted id now).liveWorkers.Sublist s.liveWorkers := List.filter_sublist
  have hlt : (s.deleted id now).liveWorkers.length < s.liveWorkers.length := by
    obtain ⟨w, hw, rfl⟩ := List.mem_map.mp hid
    exact List.length_filter_lt_length_iff_exists.mpr ⟨w, hw, by simp⟩
  exact ⟨⟨h.nodup.sublist (hsub.map _), fun w hw => h.forked w (hsub.subset hw),
    fun w hw => h.leader w (hsub.subset hw), hlt.le.trans h.size⟩, hlt.trans_le h.size⟩

/-- If the leader is gone, none of the live workers leads. -/
theorem leaderless (h : s.Pool ids workerCount) {id : Nat} (now : Int)
    (hlead : s.leads id = true) {w : Worker} (hw : w ∈ (s.deleted id now).liveWorkers) :
    w.leader = false := by
  obtain ⟨hlive, hne⟩ := List.mem_filter.mp hw
  refine Bool.eq_false_iff.mpr fun hl => of_decide_eq_true hne ?_
  exact Option.some.inj ((h.leader w hlive hl).symm.trans (of_decide_eq_true hlead))

theorem disowned (h : s.Pool ids workerCount) {id : Nat} (hid : id ∈ s.liveWorkers.map (·.id))
    (now : Int) : ((s.deleted id now).disowned id).Pool ids workerCount := by
  obtain ⟨hgone, -⟩ := h.deleted hid now
  refine ⟨hgone.nodup, hgone.forked, fun w hw hl => ?_, hgone.size⟩
  have hlead : ¬ s.leads id = true := fun hlead =>
    Bool.eq_false_iff.mp (h.leaderless now hlead hw) hl
  exact (if_neg hlead).trans (hgone.leader w hw hl)

/-- The next id is nobody's yet. -/
theorem fresh (hids : Function.Injective ids) (h : s.Pool ids workerCount) {w : Worker}
    (hw : w ∈ s.liveWorkers) : w.id ≠ ids s.forks := by
  intro hsame
  obtain ⟨n, hn, hw'⟩ := h.forked w hw
  exact Nat.ne_of_lt hn (hids (hw'.trans hsame))

/-- A fork, into a pool that has room for it, of a leader if there is none. -/
theorem forkWorker (hids : Function.Injective ids) (h : s.Pool ids workerCount)
    (hroom : s.liveWorkers.length < workerCount) {isLeader : Bool}
    (hnone : isLeader = true → ∀ w ∈ s.liveWorkers, w.leader = false)
    (replaces : Option (Nat × Int)) :
    (s.forkWorker ids isLeader replaces).Pool ids workerCount := by
  refine ⟨?_, fun w hw => ?_, fun w hw hl => ?_, ?_⟩
  · simp only [PrimaryState.forkWorker, List.map_append, List.map_cons, List.map_nil]
    refine List.nodup_append.mpr ⟨h.nodup, by simp, ?_⟩
    simpa using fun w hw => h.fresh hids (w := w) hw
  · rcases List.mem_append.mp hw with hw | hw
    · obtain ⟨n, hn, hw'⟩ := h.forked w hw
      exact ⟨n, Nat.lt_succ_of_lt hn, hw'⟩
    · obtain rfl := List.mem_singleton.mp hw
      exact ⟨s.forks, Nat.lt_succ_self _, rfl⟩
  · rcases List.mem_append.mp hw with hlive | hw
    · cases isLeader with
      | false => exact h.leader w hlive hl
      | true => exact absurd hl (by simp [hnone rfl w hlive])
    · obtain rfl := List.mem_singleton.mp hw
      exact if_pos hl
  · simpa [PrimaryState.forkWorker] using Nat.succ_le_of_lt hroom

/-- **The pool invariant** is kept by every step. -/
theorem step (hids : Function.Injective ids) (h : s.Pool ids workerCount) {l : PrimaryLabel}
    (hs : (primary config ids).step s l = some s') : s'.Pool ids workerCount := by
  cases step_takes hs with
  | dismissed hid => exact (h.deleted hid _).1
  | unreplaced hid => exact h.disowned hid _
  | @rateLimited id t₁ t₂ hid => exact (h.disowned hid t₂).of_same rfl rfl rfl
  | @respawned id t₁ t₂ hid =>
      obtain ⟨hgone, hroom⟩ := h.deleted hid t₂
      have hkept : Pool ids workerCount
          { s.deleted id t₂ with respawnTimestamps := s.inWindow t₁ ++ [t₂] } :=
        hgone.of_same rfl rfl rfl
      exact hkept.forkWorker hids hroom (fun hlead _ hw => h.leaderless t₂ hlead hw) _
  | ignored => exact h
  | resumed => exact h.of_same (by simp) (by simp) (by simp)
  | begun | expired | closed => exact h.of_same rfl rfl rfl

end PrimaryState.Pool

/-- A respawn. -/
def PrimaryEvent.isRespawn : PrimaryEvent → Bool
  | .forked _ _ (some _) => true
  | _ => false

/-- Every respawn follows the exit of the worker it replaces. -/
def Direct (past : List PrimaryEvent) : Prop :=
  ∀ id leader old t earlier, Happened past (.forked id leader (some (old, t))) earlier →
    ∃ rest, earlier = .exited old :: rest

/-- What holds of the respawns so far. -/
structure PrimaryState.Paced (config : StartPrimaryConfig) (s : PrimaryState) : Prop where
  rolling : Rolling respawnWindowMs config.respawnMaxPerMinute s.clock s.respawnTimestamps
    (respawnTimes s.past)
  direct : Direct s.past

theorem respawnTimes_append {new : List PrimaryEvent} (past : List PrimaryEvent)
    (hnew : ∀ e ∈ new, e.isRespawn = false) : respawnTimes (new ++ past) = respawnTimes past := by
  rw [respawnTimes, List.filterMap_append, List.filterMap_eq_nil_iff.mpr, List.nil_append]
  · rfl
  · intro e he
    have hquiet := hnew e he
    cases e with
    | forked id leader replaces =>
        cases replaces with
        | none => rfl
        | some _ => cases hquiet
    | _ => rfl

theorem Direct.append {new past : List PrimaryEvent} (h : Direct past)
    (hnew : ∀ e ∈ new, e.isRespawn = false) : Direct (new ++ past) := by
  intro id leader old t earlier hin
  exact h _ _ _ _ _ (hin.of_append fun hmem => Bool.noConfusion (hnew _ hmem))

namespace PrimaryState.Paced

/-- No respawn among what is new. -/
theorem quiet (h : s.Paced config) (hc : s.clock ≤ s'.clock)
    (ht : s'.respawnTimestamps = s.respawnTimestamps) (new : List PrimaryEvent)
    (hpast : s'.past = new ++ s.past) (hnew : ∀ e ∈ new, e.isRespawn = false) :
    s'.Paced config := by
  refine ⟨?_, hpast ▸ h.direct.append hnew⟩
  rw [ht, hpast, respawnTimes_append _ hnew]
  exact h.rolling.later hc

theorem boot (ids : Nat → Nat) (workerCount : Nat) (now : Int) :
    (PrimaryState.boot ids workerCount now).Paced config := by
  rw [boot_eq]
  have hboot : ∀ e ∈ ((List.range workerCount).map fun index =>
      PrimaryEvent.forked (ids index) (index == 0) none).reverse, e.isRespawn = false := by
    simp [PrimaryEvent.isRespawn]
  have hnone : PrimaryState.Paced config (empty now) := ⟨.nil, fun _ _ _ _ _ h => h.not_nil.elim⟩
  exact hnone.quiet le_rfl rfl _ (List.append_nil _).symm hboot

/-- **The respawns stay paced** at every step. -/
theorem step (h : s.Paced config) {l : PrimaryLabel}
    (hs : (primary config ids).step s l = some s') : s'.Paced config := by
  cases step_takes hs with
  | @dismissed id t₁ t₂ _ h₁ h₂ | @unreplaced id t₁ t₂ _ h₁ h₂ =>
      exact h.quiet (h₁.trans h₂) rfl [.exited id] rfl (by simp [PrimaryEvent.isRespawn])
  | @rateLimited id t₁ t₂ _ h₁ h₂ =>
      have hdirect := @Direct.append [.rateLimited id (s.leads id), .exited id] _ h.direct
        (by simp [PrimaryEvent.isRespawn])
      exact ⟨(h.rolling.later h₁).prune.later h₂, hdirect⟩
  | @respawned id t₁ t₂ _ h₁ h₂ _ _ hroom =>
      refine ⟨((h.rolling.later h₁).prune.later h₂).admitted hroom, ?_⟩
      intro id' leader old t earlier hin
      rcases Happened.cons_iff.mp hin with ⟨he, rfl⟩ | hin
      · cases he
        exact ⟨s.past, rfl⟩
      · exact h.direct _ _ _ _ _ (hin.of_cons (by simp))
  | ignored => exact h
  | @begun signal =>
      refine h.quiet le_rfl rfl _ rfl fun e he => ?_
      rcases mem_starting he with rfl | ⟨w, -, rfl⟩ <;> rfl
  | expired => exact h.quiet le_rfl rfl [.expired] rfl (by simp [PrimaryEvent.isRespawn])
  | resumed =>
      refine h.quiet (by simp) (by simp) _ afterRace_past fun e he => ?_
      rcases mem_ending he with rfl | ⟨-, w, -, rfl⟩ <;> rfl
  | closed => exact h.quiet le_rfl rfl [.exit 0] rfl (by simp [PrimaryEvent.isRespawn])

end PrimaryState.Paced

/-! ### The pool over a whole run -/

/-- **The worker pool.**  Under any exits, signals and clock, one live worker at most was forked as
the leader, no more workers are live than were asked for, every respawn makes up for the exit right
before it, and no closed minute has more respawns than the cap. -/
theorem pool_invariants {cpuCount : ℚ} {now : Int} {s₀ : PrimaryState} {ls : List PrimaryLabel}
    (hids : Function.Injective ids) (hboot : startPrimary config ids cpuCount now = .ok s₀)
    (r : Run (primary config ids) Free s₀ ls s) :
    s.liveWorkers.countP (·.leader) ≤ 1 ∧
      (s.liveWorkers.length : Int) ≤ resolveWorkerCount config.workers cpuCount ∧
      (∀ id leader old t earlier,
        Happened s.past (.forked id leader (some (old, t))) earlier →
          ∃ rest, earlier = .exited old :: rest) ∧
      ∀ a, within respawnWindowMs a (respawnTimes s.past) ≤ config.respawnMaxPerMinute := by
  obtain rfl := startPrimary_ok hboot
  have hpos := resolveWorkerCount_pos config.workers cpuCount
  have hpool := r.invariant (Pool.boot hids now) fun _ _ _ h hs _ => h.step hids hs
  have hpaced := r.invariant (Paced.boot ids _ now) fun _ _ _ h hs _ => h.step hs
  refine ⟨hpool.leaders_le_one, ?_, hpaced.direct, hpaced.rolling.window⟩
  have hsize := hpool.size
  omega

/-- Two workers, of which the second exits and is replaced. -/
theorem pool_invariants_two :
    ∃ s, (primary .two id).exec (boot id 2 0) [.exit 1 5 5] = some s ∧
      s.liveWorkers = [⟨0, true⟩, ⟨2, false⟩] ∧ s.liveWorkers.countP (·.leader) ≤ 1 := by
  have hrun : (primary .two id).exec (boot id 2 0) [.exit 1 5 5] = some _ := rfl
  exact ⟨_, hrun, rfl, (@pool_invariants _ _ _ 1 0 _ _ Function.injective_id rfl
    (.of_exec hrun fun _ _ _ _ => trivial)).1⟩

end

end NestDdd.Cluster

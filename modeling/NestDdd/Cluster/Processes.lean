import NestDdd.Cluster.Primary
import NestDdd.Lifecycle.GracefulShutdown

/-!
# Cluster — the processes

The primary (`src/infrastructure/cluster/cluster-primary.ts`) and the processes of its workers,
side by side.  A worker is forked with `CLUSTER_LEADER`, bootstraps, registers its cron jobs
(`JobScheduler.onApplicationBootstrap`, `src/interface/scheduler/job-scheduler.ts`) and from then on
is the machine of `Lifecycle.GracefulShutdown`; it may die at any time, and the primary hears of
that later.

* `ClusterState.Sound`: every process is that of a live worker, with the flag the primary knows of,
  and its state is one that a worker alone may reach.
* `one_scheduler`: the cron jobs of the whole cluster tick in one process, so that no two processes
  ever run jobs at the same time.
-/

namespace NestDdd.Cluster

open Runs Lifecycle PrimaryState

universe u

variable {ι : Type u}

/-- The jobs that a process registers. -/
def JobScheduler.onApplicationBootstrap (schedulerEnabled clusterEnabled isLeader : Bool)
    (jobs : List ι) : List ι :=
  if !schedulerEnabled then []
  else if clusterEnabled && !isLeader then []
  else jobs

/-- What the workers read of their configuration. -/
structure WorkerConfig (ι : Type u) where
  shutdown : ShutdownConfig
  schedulerEnabled : Bool
  jobs : List ι

/-- The jobs of a worker forked with `CLUSTER_LEADER=leader`, in cluster mode. -/
def WorkerConfig.registered (config : WorkerConfig ι) (leader : Bool) : List ι :=
  JobScheduler.onApplicationBootstrap config.schedulerEnabled true leader config.jobs

theorem WorkerConfig.mem_registered {config : WorkerConfig ι} {leader : Bool} {j : ι}
    (h : j ∈ config.registered leader) :
    config.schedulerEnabled = true ∧ leader = true ∧ j ∈ config.jobs := by
  unfold WorkerConfig.registered JobScheduler.onApplicationBootstrap at h
  cases hs : config.schedulerEnabled <;> cases leader <;> simp_all

/-! ### State -/

/-- A process: what it was forked with, and its worker once it has bootstrapped. -/
structure Process (ι : Type u) where
  leader : Bool
  worker : Option (WorkerState ι)

structure ClusterState (ι : Type u) where
  primary : PrimaryState
  process : Nat → Option (Process ι)

/-- The worker that the primary has forked between `s` and `s'`, if its id is `id`. -/
def forkedBetween (s s' : PrimaryState) (id : Nat) : Option Worker :=
  if id ∈ s.liveWorkers.map (·.id) then none else s'.liveWorkers.find? (·.id = id)

/-- The processes after a step of the primary. -/
def spawn (s s' : PrimaryState) (process : Nat → Option (Process ι)) (id : Nat) :
    Option (Process ι) :=
  match forkedBetween s s' id with
  | some w => some ⟨w.leader, none⟩
  | none => process id

/-- What `spawn` adds is a worker of the primary that has not bootstrapped. -/
theorem spawn_cases {p p' : PrimaryState} {process : Nat → Option (Process ι)} {id : Nat}
    {x : Process ι} (h : spawn p p' process id = some x) :
    (∃ w ∈ p'.liveWorkers, w.id = id ∧ x = ⟨w.leader, none⟩) ∨ process id = some x := by
  unfold spawn at h
  split at h
  next w hw =>
    unfold forkedBetween at hw
    split at hw
    · cases hw
    · exact .inl ⟨w, List.mem_of_find?_eq_some hw,
        by simpa using List.find?_some hw, (Option.some.inj h).symm⟩
  next => exact .inr h

/-- The worker whose exit a step of the primary handles. -/
def PrimaryLabel.exits : PrimaryLabel → Option Nat
  | .exit id _ _ => some id
  | _ => none

namespace ClusterState

/-- The primary has forked its workers. -/
def start (s₀ : PrimaryState) : ClusterState ι :=
  ⟨s₀, spawn (empty 0) s₀ fun _ => none⟩

def setProcess (s : ClusterState ι) (id : Nat) (p : Option (Process ι)) : ClusterState ι :=
  { s with process := Function.update s.process id p }

theorem start_process (s₀ : PrimaryState) :
    (start s₀ : ClusterState ι).process = spawn (empty 0) s₀ fun _ => none := rfl

theorem setProcess_process (s : ClusterState ι) (id id' : Nat) (p : Option (Process ι)) :
    (s.setProcess id p).process id' = if id' = id then p else s.process id' :=
  Function.update_apply ..

end ClusterState

/-- A step of the primary, the end of a worker's bootstrap, a step of a worker, and the end of a
process. -/
inductive ClusterLabel (ι : Type u) where
  | primary (l : PrimaryLabel)
  | listen (id : Nat) (now : Int)
  | worker (id : Nat) (l : WorkerLabel ι)
  | die (id : Nat)

section

variable [DecidableEq ι] (config : StartPrimaryConfig) (ids : Nat → Nat)
  (workerConfig : WorkerConfig ι)

/-- The primary hears of an exit when the process is gone. -/
def clusterStep (s : ClusterState ι) : ClusterLabel ι → Option (ClusterState ι)
  | .primary l =>
      if (l.exits.bind s.process).isNone then
        (primaryStep config ids s.primary l).map fun p => ⟨p, spawn s.primary p s.process⟩
      else none
  | .listen id now =>
      match s.process id with
      | some ⟨leader, none⟩ => some (s.setProcess id (some ⟨leader, some (.serving now)⟩))
      | _ => none
  | .worker id l =>
      match s.process id with
      | some ⟨leader, some w⟩ =>
          (workerStep workerConfig.shutdown (workerConfig.registered leader) w l).map fun w' =>
            s.setProcess id (some ⟨leader, some w'⟩)
      | _ => none
  | .die id => if (s.process id).isSome then some (s.setProcess id none) else none

def cluster : Machine (ClusterState ι) (ClusterLabel ι) :=
  ⟨clusterStep config ids workerConfig⟩

end

/-! ### What a step does -/

section

variable [DecidableEq ι] {config : StartPrimaryConfig} {ids : Nat → Nat}
  {workerConfig : WorkerConfig ι} {s s' : ClusterState ι} {p p' : PrimaryState}

/-- What a step may do. -/
inductive ClusterState.Takes (config : StartPrimaryConfig) (ids : Nat → Nat)
    (workerConfig : WorkerConfig ι) (s : ClusterState ι) : ClusterState ι → Prop where
  | stepped {l : PrimaryLabel} {p : PrimaryState}
      (hgone : ∀ id, l.exits = some id → s.process id = none)
      (hs : (Cluster.primary config ids).step s.primary l = some p) :
      Takes config ids workerConfig s ⟨p, spawn s.primary p s.process⟩
  | listened {id : Nat} {leader : Bool} {now : Int} (hp : s.process id = some ⟨leader, none⟩) :
      Takes config ids workerConfig s (s.setProcess id (some ⟨leader, some (.serving now)⟩))
  | worked {id : Nat} {leader : Bool} {w w' : WorkerState ι} {l : WorkerLabel ι}
      (hp : s.process id = some ⟨leader, some w⟩)
      (hs : (worker workerConfig.shutdown (workerConfig.registered leader)).step w l = some w') :
      Takes config ids workerConfig s (s.setProcess id (some ⟨leader, some w'⟩))
  | died (id : Nat) : Takes config ids workerConfig s (s.setProcess id none)

theorem ClusterState.step_takes {l : ClusterLabel ι}
    (h : (cluster config ids workerConfig).step s l = some s') :
    s.Takes config ids workerConfig s' := by
  cases l with
  | primary l =>
      obtain ⟨hgone, h⟩ := Option.ite_none_right_eq_some.mp h
      obtain ⟨p, hp, rfl⟩ := Option.map_eq_some_iff.mp h
      refine .stepped (fun id hid => ?_) hp
      simpa [hid] using hgone
  | listen id now =>
      simp only [cluster, clusterStep] at h
      split at h
      next leader hp =>
        obtain rfl := Option.some.inj h
        exact .listened hp
      next => cases h
  | worker id l =>
      simp only [cluster, clusterStep] at h
      split at h
      next leader w hp =>
        obtain ⟨w', hw, rfl⟩ := Option.map_eq_some_iff.mp h
        exact .worked hp hw
      next => cases h
  | die id =>
      obtain ⟨-, h⟩ := Option.ite_none_right_eq_some.mp h
      obtain rfl := Option.some.inj h
      exact .died id

/-- A live worker stays live until its own exit is handled. -/
theorem PrimaryState.live_of_step {l : PrimaryLabel} (hs : (primary config ids).step p l = some p')
    {w : Worker} (hw : w ∈ p.liveWorkers) (hl : l.exits ≠ some w.id) : w ∈ p'.liveWorkers := by
  have hkept : ∀ {id : Nat} {t₁ t₂ : Int}, l = .exit id t₁ t₂ →
      w ∈ p.liveWorkers.filter (·.id ≠ id) := by
    rintro id t₁ t₂ rfl
    exact List.mem_filter.mpr ⟨hw, decide_eq_true fun heq => hl (congrArg some heq.symm)⟩
  cases step_takes hs with
  | dismissed | unreplaced | rateLimited => exact hkept rfl
  | respawned => exact List.mem_append_left _ (hkept rfl)
  | ignored | begun | expired | closed => exact hw
  | resumed => rwa [afterRace_liveWorkers]

end

/-! ### The invariant -/

section

variable [DecidableEq ι] (config : StartPrimaryConfig) (ids : Nat → Nat)
  (workerConfig : WorkerConfig ι) (workerCount : Nat)

/-- Every process is that of a live worker, with the flag it was forked with, and its state is one
that a worker reaches on its own. -/
structure ClusterState.Sound (s : ClusterState ι) : Prop where
  pool : s.primary.Pool ids workerCount
  live : ∀ id p, s.process id = some p → ⟨id, p.leader⟩ ∈ s.primary.liveWorkers
  reached : ∀ id leader w, s.process id = some ⟨leader, some w⟩ → ∃ now ls,
    Run (worker workerConfig.shutdown (workerConfig.registered leader)) Free (.serving now) ls w

end

section

variable [DecidableEq ι] {config : StartPrimaryConfig} {ids : Nat → Nat}
  {workerConfig : WorkerConfig ι} {workerCount : Nat} {s s' : ClusterState ι}

namespace ClusterState.Sound

theorem start (hids : Function.Injective ids) (now : Int) :
    (ClusterState.start (boot ids workerCount now) : ClusterState ι).Sound ids workerConfig
      workerCount := by
  have hcases : ∀ {id : Nat} {x : Process ι},
      (ClusterState.start (boot ids workerCount now)).process id = some x →
        ∃ w ∈ (boot ids workerCount now).liveWorkers, w.id = id ∧ x = ⟨w.leader, none⟩ :=
    fun hx => by
      rw [start_process] at hx
      exact (spawn_cases hx).resolve_right fun h => by cases h
  refine ⟨Pool.boot hids now, fun id x hx => ?_, fun id leader w hx => ?_⟩
  · obtain ⟨w, hw, rfl, rfl⟩ := hcases hx
    exact hw
  · obtain ⟨w, -, -, hnone⟩ := hcases hx
    cases hnone

/-- One process changes; it stays that of its worker. -/
theorem setProcess (h : s.Sound ids workerConfig workerCount) {id : Nat} {x : Option (Process ι)}
    (hlive : ∀ p, x = some p → ⟨id, p.leader⟩ ∈ s.primary.liveWorkers)
    (hreached : ∀ leader w, x = some ⟨leader, some w⟩ → ∃ now ls,
      Run (worker workerConfig.shutdown (workerConfig.registered leader)) Free (.serving now) ls
        w) : (s.setProcess id x).Sound ids workerConfig workerCount := by
  refine ⟨h.pool, fun id' p hp => ?_, fun id' leader w hp => ?_⟩
  · rw [setProcess_process] at hp
    split at hp
    next heq => exact heq ▸ hlive p hp
    next => exact h.live id' p hp
  · rw [setProcess_process] at hp
    split at hp
    next => exact hreached leader w hp
    next => exact h.reached id' leader w hp

/-- **The processes** keep in step with the primary. -/
theorem step (hids : Function.Injective ids) (h : s.Sound ids workerConfig workerCount)
    {l : ClusterLabel ι} (hs : (cluster config ids workerConfig).step s l = some s') :
    s'.Sound ids workerConfig workerCount := by
  cases ClusterState.step_takes hs with
  | @stepped l p hgone hp =>
      refine ⟨h.pool.step hids hp, fun id x hx => ?_, fun id leader w hx => ?_⟩
      · rcases spawn_cases hx with ⟨w, hw, rfl, rfl⟩ | hx
        · exact hw
        · refine PrimaryState.live_of_step hp (h.live id x hx) fun hexit => ?_
          cases (hgone id hexit).symm.trans hx
      · rcases spawn_cases hx with ⟨w, hw, rfl, hnone⟩ | hx
        · cases hnone
        · exact h.reached id leader w hx
  | @listened id leader now hp =>
      refine h.setProcess (fun p hx => ?_) fun leader' w hx => ?_
      · obtain rfl := Option.some.inj hx
        exact h.live id ⟨leader, none⟩ hp
      · cases hx
        exact ⟨now, [], .nil⟩
  | @worked id leader w w' l hp hw =>
      refine h.setProcess (fun p hx => ?_) fun leader' w'' hx => ?_
      · obtain rfl := Option.some.inj hx
        exact h.live id ⟨leader, some w⟩ hp
      · cases hx
        obtain ⟨now, ls, r⟩ := h.reached id leader w hp
        exact ⟨now, ls ++ [l], .snoc r hw trivial⟩
  | died id =>
      exact h.setProcess (fun p hx => by cases hx) fun leader w hx => by cases hx

end ClusterState.Sound

/-! ### A worker on its own -/

/-- A job that runs has been running, or is registered. -/
theorem registered_of_step {shutdown : ShutdownConfig} {registered : List ι} {w w' : WorkerState ι}
    {l : WorkerLabel ι} (hs : (worker shutdown registered).step w l = some w') {j : ι}
    (hj : (w'.job j).current ≠ none) : j ∈ registered ∨ (w.job j).current ≠ none := by
  cases WorkerState.step_takes hs with
  | @ran j' hmem =>
      by_cases heq : j = j'
      · exact .inl (heq ▸ hmem)
      · exact .inr (by simpa [WorkerState.setJob_job, heq] using hj)
  | @settled j' n hc | @cleared j' n hc =>
      by_cases heq : j = j'
      · subst heq
        exact .inr (by simp [hc])
      · exact .inr (by simpa [WorkerState.setJob_job, heq] using hj)
  | jobsStopped =>
      refine .inr ?_
      by_cases hmem : j ∈ registered <;> simpa [hmem] using hj
  | _ => exact .inr hj

theorem registered_of_current {shutdown : ShutdownConfig} {registered : List ι} {now : Int}
    {ls : List (WorkerLabel ι)} {w : WorkerState ι}
    (r : Run (worker shutdown registered) Free (.serving now) ls w) :
    ∀ j, (w.job j).current ≠ none → j ∈ registered := by
  induction r with
  | nil => exact fun j h => absurd rfl h
  | snoc _ hs _ ih => exact fun j hj => (registered_of_step hs hj).elim id (ih j)

/-! ### One scheduler -/

namespace ClusterState

/-- A cron job for `j` is registered in the process. -/
def Registers (workerConfig : WorkerConfig ι) (s : ClusterState ι) (id : Nat) (j : ι) : Prop :=
  ∃ leader w, s.process id = some ⟨leader, some w⟩ ∧ j ∈ workerConfig.registered leader

/-- A run of `j` is in flight in the process. -/
def Executes (s : ClusterState ι) (id : Nat) (j : ι) : Prop :=
  ∃ leader w, s.process id = some ⟨leader, some w⟩ ∧ (w.job j).InFlight

/-- What holds of the cron jobs of a cluster. -/
structure OneScheduler (workerConfig : WorkerConfig ι) (s : ClusterState ι) : Prop where
  enabled : ∀ id j, s.Registers workerConfig id j →
    workerConfig.schedulerEnabled = true ∧ j ∈ workerConfig.jobs
  leader : ∀ id j, s.Registers workerConfig id j → s.primary.leaderId = some id
  registered : ∀ id j, s.Executes id j → s.Registers workerConfig id j
  alone : ∀ id id' j j', s.Executes id j → s.Executes id' j' → id = id'
  complete : ∀ id w, s.process id = some ⟨true, some w⟩ → workerConfig.schedulerEnabled = true →
    ∀ j ∈ workerConfig.jobs, s.Registers workerConfig id j
  left : s.primary.liveWorkers = [] → ∀ id j, ¬ s.Executes id j

theorem Sound.oneScheduler (h : s.Sound ids workerConfig workerCount) :
    s.OneScheduler workerConfig := by
  have hleader : ∀ id j, s.Registers workerConfig id j → s.primary.leaderId = some id := by
    rintro id j ⟨leader, w, hp, hj⟩
    obtain ⟨-, rfl, -⟩ := WorkerConfig.mem_registered hj
    exact h.pool.leader _ (h.live id _ hp) rfl
  have hregistered : ∀ id j, s.Executes id j → s.Registers workerConfig id j := by
    rintro id j ⟨leader, w, hp, n, hn⟩
    obtain ⟨now, ls, r⟩ := h.reached id leader w hp
    exact ⟨leader, w, hp, registered_of_current r j (by simp [hn])⟩
  refine ⟨?_, hleader, hregistered, fun id id' j j' hj hj' => ?_, ?_, ?_⟩
  · rintro id j ⟨leader, w, hp, hj⟩
    obtain ⟨hs, -, hmem⟩ := WorkerConfig.mem_registered hj
    exact ⟨hs, hmem⟩
  · have hid := hleader id j (hregistered id j hj)
    have hid' := hleader id' j' (hregistered id' j' hj')
    exact Option.some.inj (hid.symm.trans hid')
  · intro id w hp hs j hj
    refine ⟨true, w, hp, ?_⟩
    simpa [WorkerConfig.registered, JobScheduler.onApplicationBootstrap, hs] using hj
  · rintro hnone id j ⟨leader, w, hp, -⟩
    have := h.live id _ hp
    rw [hnone] at this
    cases this

end ClusterState

/-- **One scheduler.**  Whatever workers exit, die and are replaced, and however the steps of the
primary and of the processes mix, the cron jobs of the cluster are registered in one process at
most, the one whose worker the primary knows as the leader, and no two processes ever run jobs at
the same time. -/
theorem one_scheduler {cpuCount : ℚ} {now : Int} {s₀ : PrimaryState} {ls : List (ClusterLabel ι)}
    (hids : Function.Injective ids) (hboot : startPrimary config ids cpuCount now = .ok s₀)
    (r : Run (cluster config ids workerConfig) Free (.start s₀) ls s) :
    s.OneScheduler workerConfig := by
  obtain rfl := startPrimary_ok hboot
  have hsound := r.invariant (ClusterState.Sound.start hids now) fun _ _ _ h hs _ => h.step hids hs
  exact hsound.oneScheduler

/-- One job, and the ten-second drain of the defaults. -/
def WorkerConfig.nightly : WorkerConfig Unit := ⟨.defaults, true, [()]⟩

/-- The leader dies with a job running; its replacement runs the job. -/
theorem one_scheduler_two :
    ∃ s, (cluster .two id .nightly).exec (.start (boot id 2 0))
        [.listen 0 0, .listen 1 0, .worker 0 (.tick ()), .die 0, .primary (.exit 0 5 5),
          .listen 2 6, .worker 2 (.tick ())] = some s ∧
      s.Executes 2 () ∧ s.OneScheduler .nightly := by
  have hrun : (cluster .two id .nightly).exec (.start (boot id 2 0))
      [.listen 0 0, .listen 1 0, .worker 0 (.tick ()), .die 0, .primary (.exit 0 5 5),
        .listen 2 6, .worker 2 (.tick ())] = some _ := rfl
  exact ⟨_, hrun, ⟨true, _, rfl, 0, rfl⟩, @one_scheduler _ _ _ _ _ _ 1 0 _ _
    Function.injective_id rfl (.of_exec hrun fun _ _ _ _ => trivial)⟩

end

end NestDdd.Cluster

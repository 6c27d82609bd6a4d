import NestDdd.Database.Health
import NestDdd.Lifecycle.GracefulShutdown

/-!
# Lifecycle — draining behind a load balancer

An instance: the worker that `runGracefulShutdown` takes down (`Lifecycle.GracefulShutdown`), its
server, and the load balancer in front of it, which polls `GET /health/ready`
(`HealthController.ready`, `src/interface/http/controllers/health.controller.ts`) and routes
requests as long as it has not seen `threshold` polls in a row fail.  `ready` reads
`ShutdownState.isShuttingDown` when it begins and answers when the database check is over, so a
poll from before a signal may still succeed after it.

* `OnTime`: what the balancer promises of its times; a guard of the runs.
* `Fading`, `Fading.routes_until`: from a signal on, how long the balancer may still route.
* `Unrouted`: what holds once the server no longer listens.
* `drains_losslessly`: with a drain delay longer than the balancer takes to notice, no request
  meets a closed port, and each is answered but for those that the force timer cuts.
-/

namespace NestDdd.Lifecycle

open Runs Database

universe u

variable {ι : Type u}

/-- How a load balancer polls and routes: the longest from one poll to the next, the longest it
waits for an answer, how many failures in a row stop it, and the longest that a request it has
routed is on its way. -/
structure Balancer where
  intervalMs : Nat
  timeoutMs : Nat
  threshold : Nat
  latencyMs : Nat

/-- The longest that `n` polls take, with the waits before them. -/
def Balancer.roundsMs (b : Balancer) (n : Nat) : Nat := n * (b.intervalMs + b.timeoutMs)

theorem Balancer.roundsMs_succ (b : Balancer) (n : Nat) :
    b.roundsMs (n + 1) = b.roundsMs n + b.intervalMs + b.timeoutMs := by
  rw [roundsMs, roundsMs, Nat.add_mul, Nat.one_mul, Nat.add_assoc]

theorem Balancer.roundsMs_le (b : Balancer) {n n' : Nat} (h : n ≤ n') :
    b.roundsMs n ≤ b.roundsMs n' :=
  Nat.mul_le_mul_right _ h

/-- The longest that it routes to an instance which is no longer ready. -/
def Balancer.noticesMs (b : Balancer) : Nat := b.timeoutMs + b.roundsMs b.threshold

/-- The poll of the balancer: due, sent, or with the handler, which has read
`isShuttingDown()`. -/
inductive Poll where
  | due (since : Int)
  | sent (sentAt : Int)
  | handled (sentAt : Int) (isShuttingDown : Bool)

/-- Since when it is. -/
def Poll.since : Poll → Int
  | .due since => since
  | .sent sentAt => sentAt
  | .handled sentAt _ => sentAt

/-- When the next one begins, or this one is given up, at the latest. -/
def Poll.endsBy (b : Balancer) : Poll → Int
  | .due since => since + b.intervalMs
  | .sent sentAt => sentAt + b.timeoutMs
  | .handled sentAt _ => sentAt + b.timeoutMs

/-- A request, since when it is where it is. -/
structure Routed where
  id : Nat
  since : Int

/-- A request whose connection `closeAllConnections` has cut. -/
structure Cut extends Routed where
  cutAt : Int

structure InstanceState (ι : Type u) where
  worker : WorkerState ι
  poll : Poll
  /-- The polls in a row that have failed. -/
  failures : Nat
  /-- Every request that the balancer has sent here. -/
  routed : List Nat
  arriving : List Routed
  serving : List Routed
  answered : List Nat
  refused : List Nat
  cut : List Cut

namespace InstanceState

/-- An instance that serves, just polled. -/
def start (now : Int) : InstanceState ι :=
  ⟨.serving now, .due now, 0, [], [], [], [], [], []⟩

variable (s : InstanceState ι)

def now : Int := s.worker.now

/-- The server listens until `server.close()`. -/
def listens : Bool := s.worker.stage.order < 2

/-- A poll is over. -/
def polled (ok : Bool) : InstanceState ι :=
  { s with poll := .due s.now, failures := if ok then 0 else s.failures + 1 }

/-- `closeAllConnections()`. -/
def onForced (w : WorkerState ι) : InstanceState ι :=
  { s with worker := w, serving := [], cut := s.serving.map (⟨·, s.now⟩) ++ s.cut }

/-- `server.close()` calls back when nothing is being served. -/
def allows : WorkerLabel ι → Bool
  | .serverClosed => s.serving.isEmpty
  | _ => true

def onWorker : WorkerLabel ι → WorkerState ι → InstanceState ι
  | .force, w => s.onForced w
  | _, w => { s with worker := w }

/-- A request reaches the port. -/
def arrived (id : Nat) : InstanceState ι :=
  let rest := s.arriving.filter (·.id ≠ id)
  if s.listens then { s with arriving := rest, serving := ⟨id, s.now⟩ :: s.serving }
  else { s with arriving := rest, refused := id :: s.refused }

/-- A response is sent. -/
def responded (id : Nat) : InstanceState ι :=
  { s with serving := s.serving.filter (·.id ≠ id), answered := id :: s.answered }

end InstanceState

inductive InstanceLabel (ι : Type u) where
  | worker (l : WorkerLabel ι)
  | poll
  | handle
  | answer (sources : List SourceHealth)
  | lost
  | route (id : Nat)
  | arrive (id : Nat)
  | respond (id : Nat)

section

variable [DecidableEq ι] (config : ShutdownConfig) (registered : List ι) (b : Balancer)

open InstanceState

def instanceStep (s : InstanceState ι) : InstanceLabel ι → Option (InstanceState ι)
  | .worker l =>
      if s.allows l then ((worker config registered).step s.worker l).map (s.onWorker l) else none
  | .poll =>
      match s.poll with
      | .due _ => some { s with poll := .sent s.now }
      | _ => none
  | .handle =>
      match s.poll with
      | .sent sentAt =>
          if s.listens then some { s with poll := .handled sentAt s.worker.shuttingDown } else none
      | _ => none
  | .answer sources =>
      match s.poll with
      | .handled _ isShuttingDown => some (s.polled (ready isShuttingDown sources).isOk)
      | _ => none
  | .lost =>
      match s.poll with
      | .due _ => none
      | _ => some (s.polled false)
  | .route id =>
      if s.failures < b.threshold ∧ id ∉ s.routed then
        some { s with routed := id :: s.routed, arriving := ⟨id, s.now⟩ :: s.arriving }
      else none
  | .arrive id => if id ∈ s.arriving.map (·.id) then some (s.arrived id) else none
  | .respond id => if id ∈ s.serving.map (·.id) then some (s.responded id) else none

/-- An instance behind a balancer. -/
def instanceBehind : Machine (InstanceState ι) (InstanceLabel ι) :=
  ⟨instanceStep config registered b⟩

end

/-- The balancer polls, gives up and delivers in time. -/
structure InstanceState.OnTime (b : Balancer) (s : InstanceState ι) : Prop where
  poll : s.now ≤ s.poll.endsBy b
  arriving : ∀ r ∈ s.arriving, s.now ≤ r.since + b.latencyMs

/-- The guard of the runs of a balancer that keeps its times. -/
def Punctual (b : Balancer) : InstanceState ι → InstanceLabel ι → InstanceState ι → Prop :=
  fun _ _ s' => s'.OnTime b

instance (b : Balancer) (s : InstanceState ι) : Decidable (s.OnTime b) :=
  decidable_of_iff (s.now ≤ s.poll.endsBy b ∧ ∀ r ∈ s.arriving, s.now ≤ r.since + b.latencyMs)
    ⟨fun h => ⟨h.1, h.2⟩, fun h => ⟨h.poll, h.arriving⟩⟩

instance (b : Balancer) (s : InstanceState ι) (l : InstanceLabel ι) (s' : InstanceState ι) :
    Decidable (Punctual b s l s') :=
  inferInstanceAs (Decidable (s'.OnTime b))

/-! ### What a step does -/

/-- How the worker moves on its own. -/
inductive WorkerState.Moves (config : ShutdownConfig) (w w' : WorkerState ι) : Prop where
  | kept (hs : w'.stage = w.stage) (hn : w.now ≤ w'.now)
  | begun (hs : w'.stage = .delaying (w.now + setTimeoutMs config.drainDelayMs))
      (hn : w'.now = w.now)
  | delayed {delayedAt : Int} (h : w.stage = .delaying delayedAt) (ht : delayedAt ≤ w.now)
      (hs : w'.stage = .closing (some (w.now + setTimeoutMs config.forceAfterMs)))
      (hn : w'.now = w.now)
  | later (h : 3 ≤ w.stage.order) (hs : 3 ≤ w'.stage.order) (hn : w'.now = w.now)

section

variable [DecidableEq ι] {config : ShutdownConfig} {registered : List ι} {b : Balancer}
  {s s' : InstanceState ι} {w' : WorkerState ι}

theorem WorkerState.Takes.moves {w : WorkerState ι} {l : WorkerLabel ι}
    (h : w.Takes config registered l w') (hforce : l ≠ .force) (hclosed : l ≠ .serverClosed) :
    w.Moves config w' := by
  cases h with
  | passed d => exact .kept rfl (Int.le_add_of_nonneg_right (Int.natCast_nonneg d))
  | ignored | skipped | ran | settled | cleared => exact .kept rfl (Int.le_refl _)
  | begun => exact .begun rfl rfl
  | delayed hs ht => exact .delayed hs ht rfl rfl
  | forced => exact absurd rfl hforce
  | serverClosed => exact absurd rfl hclosed
  | unscheduled hs | jobsStopped hs | noneRunning hs | someRunning hs =>
      exact .later (by simp [hs, Stage.order]) (by simp [Stage.order]) rfl
  | idle hs | timedOut hs | closeApp hs | appClosed hs =>
      exact .later (by simp [hs, Stage.order]) (by simp [Stage.order]) rfl

/-- What a step may do. -/
inductive InstanceState.Takes (config : ShutdownConfig) (registered : List ι) (b : Balancer)
    (s : InstanceState ι) : InstanceState ι → Prop where
  | worked {l : WorkerLabel ι} {w : WorkerState ι}
      (hstep : (Lifecycle.worker config registered).step s.worker l = some w)
      (hw : s.worker.Moves config w) : Takes config registered b s { s with worker := w }
  | forced {w : WorkerState ι} {forceAt : Int}
      (hstep : (Lifecycle.worker config registered).step s.worker .force = some w)
      (hs : s.worker.stage = .closing (some forceAt)) (ht : forceAt ≤ s.now)
      (hw : w.stage = .closing none) (hn : w.now = s.now) :
      Takes config registered b s (s.onForced w)
  | serverClosed {w : WorkerState ι} {forceAt : Option Int}
      (hstep : (Lifecycle.worker config registered).step s.worker .serverClosed = some w)
      (hs : s.worker.stage = .closing forceAt) (he : s.serving = []) (hw : w.stage = .closed)
      (hn : w.now = s.now) : Takes config registered b s { s with worker := w }
  | polls {since : Int} (hp : s.poll = .due since) :
      Takes config registered b s { s with poll := .sent s.now }
  | handled {sentAt : Int} (hp : s.poll = .sent sentAt) :
      Takes config registered b s { s with poll := .handled sentAt s.worker.shuttingDown }
  | answered {sentAt : Int} {isShuttingDown : Bool} (hp : s.poll = .handled sentAt isShuttingDown)
      (sources : List SourceHealth) :
      Takes config registered b s (s.polled (ready isShuttingDown sources).isOk)
  | lost (hp : ∀ since, s.poll ≠ .due since) : Takes config registered b s (s.polled false)
  | routed (id : Nat) (hf : s.failures < b.threshold) :
      Takes config registered b s
        { s with routed := id :: s.routed, arriving := ⟨id, s.now⟩ :: s.arriving }
  | arrived {r : Routed} (hr : r ∈ s.arriving) : Takes config registered b s (s.arrived r.id)
  | responded (id : Nat) : Takes config registered b s (s.responded id)

theorem InstanceState.step_takes {l : InstanceLabel ι}
    (h : (instanceBehind config registered b).step s l = some s') :
    s.Takes config registered b s' := by
  cases l with
  | worker l =>
      obtain ⟨hallows, h⟩ := Option.ite_none_right_eq_some.mp h
      obtain ⟨w, hw, rfl⟩ := Option.map_eq_some_iff.mp h
      cases l with
      | force =>
          cases WorkerState.step_takes hw with
          | forced hs ht => exact .forced hw hs ht rfl rfl
      | serverClosed =>
          cases WorkerState.step_takes hw with
          | serverClosed hs => exact .serverClosed hw hs (List.isEmpty_iff.mp hallows) rfl rfl
      | _ => exact .worked hw ((WorkerState.step_takes hw).moves (by simp) (by simp))
  | poll =>
      simp only [instanceBehind, instanceStep] at h
      split at h
      next hp => obtain rfl := Option.some.inj h; exact .polls hp
      next => cases h
  | handle =>
      simp only [instanceBehind, instanceStep] at h
      split at h
      next hp =>
        obtain ⟨-, h⟩ := Option.ite_none_right_eq_some.mp h
        obtain rfl := Option.some.inj h
        exact .handled hp
      next => cases h
  | answer sources =>
      simp only [instanceBehind, instanceStep] at h
      split at h
      next hp => obtain rfl := Option.some.inj h; exact .answered hp sources
      next => cases h
  | lost =>
      simp only [instanceBehind, instanceStep] at h
      split at h
      next => cases h
      next hp => obtain rfl := Option.some.inj h; exact .lost hp
  | route id =>
      obtain ⟨⟨hf, -⟩, h⟩ := Option.ite_none_right_eq_some.mp h
      obtain rfl := Option.some.inj h
      exact .routed id hf
  | arrive id =>
      obtain ⟨hr, h⟩ := Option.ite_none_right_eq_some.mp h
      obtain rfl := Option.some.inj h
      obtain ⟨r, hmem, rfl⟩ := List.mem_map.mp hr
      exact .arrived hmem
  | respond id =>
      obtain ⟨-, h⟩ := Option.ite_none_right_eq_some.mp h
      obtain rfl := Option.some.inj h
      exact .responded id

end

/-! ### Once a signal has come -/

section

variable {b : Balancer} {s : InstanceState ι} {t₀ : Int}

/-- What holds of the polls, and of the requests on their way, after a signal at `t₀`: only a poll
from before it can still succeed, and the failures since then are as many as there was time
for. -/
structure InstanceState.Fading (b : Balancer) (t₀ : Int) (s : InstanceState ι) : Prop where
  stale : ∀ t, s.poll = .handled t false → t ≤ t₀
  due : ∀ t, s.poll = .due t → s.failures < b.threshold →
    t ≤ t₀ + b.timeoutMs + b.roundsMs s.failures
  asked : ∀ t, s.poll = .sent t ∨ s.poll = .handled t true → s.failures < b.threshold →
    t ≤ t₀ + b.roundsMs (s.failures + 1)
  arriving : ∀ r ∈ s.arriving, r.since ≤ t₀ + b.noticesMs

namespace InstanceState.Fading

/-- A balancer that keeps its times routes no longer than it takes to notice. -/
theorem routes_until (h : s.Fading b t₀) (ht : s.OnTime b) (hf : s.failures < b.threshold) :
    s.now ≤ t₀ + b.noticesMs := by
  have hrounds : b.roundsMs (s.failures + 1) ≤ b.roundsMs b.threshold := b.roundsMs_le hf
  have hsucc := b.roundsMs_succ s.failures
  have hends := ht.poll
  rw [Balancer.noticesMs]
  cases hp : s.poll with
  | due t =>
      have := h.due t hp hf
      rw [hp, Poll.endsBy] at hends
      omega
  | sent t =>
      have := h.asked t (.inl hp) hf
      rw [hp, Poll.endsBy] at hends
      omega
  | handled t isShuttingDown =>
      rw [hp, Poll.endsBy] at hends
      cases isShuttingDown with
      | false =>
          have := h.stale t hp
          omega
      | true =>
          have := h.asked t (.inr hp) hf
          omega

/-- A poll that succeeds is from before the signal. -/
theorem ends_by (h : s.Fading b t₀) (ht : s.OnTime b) {t : Int}
    (hp : s.poll = .handled t false) : s.now ≤ t₀ + b.timeoutMs := by
  have hends := ht.poll
  have := h.stale t hp
  rw [hp, Poll.endsBy] at hends
  omega

/-- A poll is over, and it did not succeed unless it is from before the signal. -/
theorem polled (h : s.Fading b t₀) (ht : s.OnTime b) {ok : Bool} (hd : ∀ t, s.poll ≠ .due t)
    (hok : ok = true → ∃ t, s.poll = .handled t false) : (s.polled ok).Fading b t₀ := by
  refine ⟨(fun _ hp => by cases hp), fun t hp hf => ?_, fun t hp _ => ?_, h.arriving⟩
  · cases hp
    cases ok with
    | true =>
        obtain ⟨t, hp⟩ := hok rfl
        have := h.ends_by ht hp
        change s.now ≤ t₀ + b.timeoutMs + (b.roundsMs 0 : Nat)
        omega
    | false =>
        have hlt : s.failures < b.threshold := Nat.lt_of_succ_lt hf
        change s.now ≤ t₀ + b.timeoutMs + (b.roundsMs (s.failures + 1) : Nat)
        have hends := ht.poll
        cases hp : s.poll with
        | due t => exact absurd hp (hd t)
        | sent t =>
            have := h.asked t (.inl hp) hlt
            rw [hp, Poll.endsBy] at hends
            omega
        | handled t isShuttingDown =>
            cases isShuttingDown with
            | false =>
                have := h.ends_by ht hp
                omega
            | true =>
                have := h.asked t (.inr hp) hlt
                rw [hp, Poll.endsBy] at hends
                omega
  · rcases hp with hp | hp <;> cases hp

end InstanceState.Fading

/-- Nothing more comes: the balancer does not route, no poll can make it, and no request is on its
way. -/
structure InstanceState.Unrouted (b : Balancer) (s : InstanceState ι) : Prop where
  failures : b.threshold ≤ s.failures
  poll : ∀ t, s.poll ≠ .handled t false
  arriving : s.arriving = []

/-- **The balancer notices.**  When the drain delay is over, it has stopped routing. -/
theorem InstanceState.Fading.unrouted (h : s.Fading b t₀) (ht : s.OnTime b) {delayMs : Int}
    (hdelay : b.noticesMs + b.latencyMs < delayMs) (hnow : t₀ + delayMs ≤ s.now) :
    s.Unrouted b := by
  refine ⟨Nat.not_lt.mp fun hf => ?_, fun t hp => ?_, List.eq_nil_iff_forall_not_mem.mpr ?_⟩
  · have := h.routes_until ht hf
    omega
  · have := h.ends_by ht hp
    have : (b.timeoutMs : Int) ≤ b.noticesMs := by rw [Balancer.noticesMs]; omega
    omega
  · intro r hr
    have := h.arriving r hr
    have := ht.arriving r hr
    omega

end

/-! ### What holds at each stage -/

section

variable {config : ShutdownConfig} {b : Balancer} {s s' : InstanceState ι} {w : WorkerState ι}

theorem ready_shuttingDown (sources : List SourceHealth) :
    (ready true sources).isOk = false := rfl

/-- How far the balancer is at each stage of the worker. -/
structure InstanceState.Phased (config : ShutdownConfig) (b : Balancer) (s : InstanceState ι) :
    Prop where
  since : s.poll.since ≤ s.now
  arriving : ∀ r ∈ s.arriving, r.since ≤ s.now
  fading : ∀ delayedAt, s.worker.stage = .delaying delayedAt →
    ∃ t₀ ≤ s.now, t₀ + setTimeoutMs config.drainDelayMs = delayedAt ∧ s.Fading b t₀
  unrouted : 2 ≤ s.worker.stage.order → s.Unrouted b

namespace InstanceState.Phased

/-- A step of the worker, which the balancer does not see. -/
theorem worked (h : s.Phased config b) (ht : s.OnTime b)
    (hdelay : b.noticesMs + b.latencyMs < setTimeoutMs config.drainDelayMs)
    (hw : s.worker.Moves config w) :
    ({ s with worker := w } : InstanceState ι).Phased config b := by
  have hunrouted : s.Unrouted b → ({ s with worker := w } : InstanceState ι).Unrouted b :=
    fun hu => ⟨hu.failures, hu.poll, hu.arriving⟩
  cases hw with
  | kept hs hn =>
      refine ⟨h.since.trans hn, fun r hr => (h.arriving r hr).trans hn, fun delayedAt hd => ?_,
        fun ho => hunrouted (h.unrouted (hs ▸ ho))⟩
      obtain ⟨t₀, hle, hd, hf⟩ := h.fading delayedAt (hs ▸ hd)
      exact ⟨t₀, hle.trans hn, hd, hf.stale, hf.due, hf.asked, hf.arriving⟩
  | begun hs hn =>
      refine ⟨h.since.trans_eq hn.symm, fun r hr => (h.arriving r hr).trans_eq hn.symm,
        fun delayedAt hd => ?_, fun ho => by simp [hs, Stage.order] at ho⟩
      obtain rfl : s.now + setTimeoutMs config.drainDelayMs = delayedAt :=
        Stage.delaying.inj (hs.symm.trans hd)
      have hle : ∀ t, s.poll.since = t → t ≤ s.now := fun t ht => ht ▸ h.since
      refine ⟨s.now, hn.ge, rfl, fun t hp => hle t (congrArg Poll.since hp), fun t hp _ => ?_,
        fun t hp _ => ?_, fun r hr => ?_⟩
      · have := hle t (congrArg Poll.since hp)
        omega
      · have := hle t (hp.elim (congrArg Poll.since) (congrArg Poll.since))
        omega
      · have := h.arriving r hr
        omega
  | delayed h₁ hle hs hn =>
      obtain ⟨t₀, -, rfl, hfading⟩ := h.fading _ h₁
      exact ⟨h.since.trans_eq hn.symm, fun r hr => (h.arriving r hr).trans_eq hn.symm,
        (fun _ hd => by cases hs.symm.trans hd),
        fun _ => hunrouted (hfading.unrouted ht (by omega) hle)⟩
  | later h₃ h₃' hn =>
      refine ⟨h.since.trans_eq hn.symm, fun r hr => (h.arriving r hr).trans_eq hn.symm,
        fun delayedAt hd => ?_, fun _ => hunrouted (h.unrouted (by omega))⟩
      rw [hd, Stage.order] at h₃'
      omega

variable [DecidableEq ι] {registered : List ι}

/-- What leaves the worker as it is. -/
theorem frame (h : s.Phased config b) (hl : s.worker.Logged) (hworker : s'.worker = s.worker)
    (hsince : s'.poll.since ≤ s.now) (harriving : ∀ r ∈ s'.arriving, r.since ≤ s.now)
    (hfading : ∀ t₀ ≤ s.now, s.worker.shuttingDown = true → s.Fading b t₀ → s'.Fading b t₀)
    (hunrouted : s.worker.shuttingDown = true → s.Unrouted b → s'.Unrouted b) :
    s'.Phased config b := by
  have hnow : s'.now = s.now := congrArg WorkerState.now hworker
  refine ⟨hnow ▸ hsince, hnow ▸ harriving, fun delayedAt hs => ?_, fun ho => ?_⟩
  · rw [hworker] at hs
    obtain ⟨t₀, hle, hd, hf⟩ := h.fading delayedAt hs
    have hflag := hl.flag.mpr (by rw [hs]; exact Nat.one_pos)
    exact ⟨t₀, hnow ▸ hle, hd, hfading t₀ hle hflag hf⟩
  · rw [hworker] at ho
    exact hunrouted (hl.flag.mpr (by omega)) (h.unrouted ho)

/-- A poll that is over. -/
theorem polled (h : s.Phased config b) (hl : s.worker.Logged) (ht : s.OnTime b) {ok : Bool}
    (hd : ∀ t, s.poll ≠ .due t)
    (hok : s.worker.shuttingDown = true → ok = true → ∃ t, s.poll = .handled t false) :
    (s.polled ok).Phased config b := by
  refine h.frame hl rfl (Int.le_refl _) h.arriving
    (fun t₀ _ hflag hf => hf.polled ht hd (hok hflag)) fun hflag hu => ⟨?_, ?_, hu.arriving⟩
  · cases ok with
    | true =>
        obtain ⟨t, hp⟩ := hok hflag rfl
        exact absurd hp (hu.poll t)
    | false => exact Nat.le_succ_of_le hu.failures
  · exact fun t hp => by cases hp

theorem step (h : s.Phased config b) (hl : s.worker.Logged) (ht : s.OnTime b)
    (hdelay : b.noticesMs + b.latencyMs < setTimeoutMs config.drainDelayMs)
    (hs : s.Takes config registered b s') : s'.Phased config b := by
  cases hs with
  | worked _ hw => exact h.worked ht hdelay hw
  | forced _ hst _ hw hn | serverClosed _ hst _ hw hn =>
      have hu := h.unrouted (by rw [hst]; exact Nat.le_refl 2)
      exact ⟨h.since.trans_eq hn.symm, fun r hr => (h.arriving r hr).trans_eq hn.symm,
        (fun _ hd => by cases hw.symm.trans hd), fun _ => ⟨hu.failures, hu.poll, hu.arriving⟩⟩
  | @polls since hp =>
      refine h.frame hl rfl (Int.le_refl _) h.arriving (fun t₀ _ _ hf => ?_) fun _ hu =>
        ⟨hu.failures, (fun _ hp => by cases hp), hu.arriving⟩
      refine ⟨(fun _ hp => by cases hp), (fun _ hp => by cases hp), fun t hp' hlt => ?_,
        hf.arriving⟩
      obtain rfl : s.now = t := hp'.elim Poll.sent.inj fun hp' => by cases hp'
      have hdue := hf.due since hp hlt
      have hsucc := b.roundsMs_succ s.failures
      have hends := ht.poll
      rw [hp, Poll.endsBy] at hends
      change s.now ≤ t₀ + (b.roundsMs (s.failures + 1) : Nat)
      omega
  | @handled sentAt hp =>
      have hsince := h.since
      rw [hp] at hsince
      refine h.frame hl rfl hsince h.arriving (fun t₀ _ hflag hf => ?_) fun hflag hu =>
        ⟨hu.failures, fun t hp' => ?_, hu.arriving⟩
      · refine ⟨fun t hp' => ?_, (fun _ hp => by cases hp), fun t hp' hlt => ?_, hf.arriving⟩
        · obtain ⟨-, hfalse⟩ := Poll.handled.inj hp'
          exact Bool.noConfusion (hflag.symm.trans hfalse)
        · obtain rfl : sentAt = t :=
            hp'.elim (fun hp' => by cases hp') fun hp' => (Poll.handled.inj hp').1
          exact hf.asked sentAt (.inl hp) hlt
      · obtain ⟨-, hfalse⟩ := Poll.handled.inj hp'
        exact Bool.noConfusion (hflag.symm.trans hfalse)
  | @answered sentAt isShuttingDown hp sources =>
      refine h.polled hl ht (fun t hd => by cases hp.symm.trans hd) fun _ hok => ⟨sentAt, ?_⟩
      cases isShuttingDown with
      | true => exact Bool.noConfusion ((ready_shuttingDown sources).symm.trans hok)
      | false => exact hp
  | lost hd => exact h.polled hl ht hd fun _ hok => by cases hok
  | routed id hlt =>
      refine h.frame hl rfl h.since (fun r hr => ?_) (fun t₀ _ _ hf => ?_) fun _ hu => ?_
      · rcases List.mem_cons.mp hr with rfl | hr
        · exact Int.le_refl _
        · exact h.arriving r hr
      · refine ⟨hf.stale, hf.due, hf.asked, fun r hr => ?_⟩
        rcases List.mem_cons.mp hr with rfl | hr
        · exact hf.routes_until ht hlt
        · exact hf.arriving r hr
      · exact absurd hlt (Nat.not_lt.mpr hu.failures)
  | @arrived r hr =>
      have hrest : ∀ r' ∈ (s.arrived r.id).arriving, r' ∈ s.arriving := by
        intro r' hr'
        unfold arrived at hr'
        split at hr' <;> exact (List.mem_filter.mp hr').1
      have hsame : (s.arrived r.id).worker = s.worker ∧ (s.arrived r.id).poll = s.poll ∧
          (s.arrived r.id).failures = s.failures := by
        unfold arrived
        split <;> exact ⟨rfl, rfl, rfl⟩
      refine h.frame hl hsame.1 (hsame.2.1 ▸ h.since) (fun r' hr' => h.arriving r' (hrest r' hr'))
        (fun t₀ _ _ hf => ⟨?_, ?_, ?_, fun r' hr' => hf.arriving r' (hrest r' hr')⟩) fun _ hu => ?_
      · rw [hsame.2.1]; exact hf.stale
      · rw [hsame.2.1, hsame.2.2]; exact hf.due
      · rw [hsame.2.1, hsame.2.2]; exact hf.asked
      · rw [hu.arriving] at hr
        cases hr
  | responded id =>
      exact h.frame hl rfl h.since h.arriving
        (fun t₀ _ _ hf => ⟨hf.stale, hf.due, hf.asked, hf.arriving⟩)
        fun _ hu => ⟨hu.failures, hu.poll, hu.arriving⟩

end InstanceState.Phased

/-- Where the requests are that the balancer has sent here. -/
structure InstanceState.Accounted (config : ShutdownConfig) (s : InstanceState ι) : Prop where
  since : ∀ r ∈ s.serving, r.since ≤ s.now
  forced : ∀ forceAt, s.worker.stage = .closing (some forceAt) →
    ∀ r ∈ s.serving, r.since + setTimeoutMs config.forceAfterMs ≤ forceAt
  closed : 3 ≤ s.worker.stage.order → s.serving = []
  cut : ∀ c ∈ s.cut, c.since + setTimeoutMs config.forceAfterMs ≤ c.cutAt
  refused : s.refused = []
  routed : ∀ id ∈ s.routed, id ∈ s.arriving.map (·.id) ∨ id ∈ s.serving.map (·.id) ∨
    id ∈ s.answered ∨ id ∈ s.cut.map (·.id)

namespace InstanceState.Accounted

/-- What leaves the requests as they are. -/
theorem worked (h : s.Accounted config) (hw : s.worker.Moves config w) :
    ({ s with worker := w } : InstanceState ι).Accounted config := by
  have hnow : s.worker.now ≤ w.now := by
    cases hw with
    | kept _ hn => exact hn
    | begun _ hn | delayed _ _ _ hn | later _ _ hn => exact hn.ge
  refine ⟨fun r hr => (h.since r hr).trans hnow, fun forceAt hst r hr => ?_, fun ho => ?_, h.cut,
    h.refused, h.routed⟩
  · cases hw with
    | kept hs => exact h.forced forceAt (hs ▸ hst) r hr
    | begun hs => cases hs.symm.trans hst
    | delayed _ _ hs =>
        obtain rfl : s.now + setTimeoutMs config.forceAfterMs = forceAt :=
          Option.some.inj (Stage.closing.inj (hs.symm.trans hst))
        have := h.since r hr
        omega
    | later _ h₃ =>
        rw [show w.stage = _ from hst, Stage.order] at h₃
        omega
  · cases hw with
    | kept hs => exact h.closed (hs ▸ ho)
    | begun hs | delayed _ _ hs =>
        rw [hs] at ho
        exact absurd ho (by simp [Stage.order])
    | later h₃ => exact h.closed h₃

variable [DecidableEq ι] {registered : List ι}

theorem step (h : s.Accounted config) (hu : 2 ≤ s.worker.stage.order → s.Unrouted b)
    (hs : s.Takes config registered b s') : s'.Accounted config := by
  have hwhere : ∀ {l : List Routed} {id id' : Nat}, id ∈ l.map (·.id) → id ≠ id' →
      id ∈ (l.filter (·.id ≠ id')).map (·.id) := by
    intro l id id' hmem hne
    obtain ⟨r, hr, rfl⟩ := List.mem_map.mp hmem
    exact List.mem_map_of_mem (List.mem_filter.mpr ⟨hr, by simpa using hne⟩)
  cases hs with
  | worked _ hw => exact h.worked hw
  | forced _ hst ht hw hn =>
      refine ⟨(fun _ hr => by cases hr), (fun _ _ _ hr => by cases hr), fun _ => rfl,
        fun c hc => ?_, h.refused, fun id hid => ?_⟩
      · rcases List.mem_append.mp hc with hc | hc
        · obtain ⟨r, hr, rfl⟩ := List.mem_map.mp hc
          exact (h.forced _ hst r hr).trans ht
        · exact h.cut c hc
      · rcases h.routed id hid with hid | hid | hid | hid
        · exact .inl hid
        · refine .inr (.inr (.inr ?_))
          obtain ⟨r, hr, rfl⟩ := List.mem_map.mp hid
          exact List.mem_map.mpr ⟨⟨r, s.now⟩,
            List.mem_append_left _ (List.mem_map_of_mem hr), rfl⟩
        · exact .inr (.inr (.inl hid))
        · refine .inr (.inr (.inr ?_))
          obtain ⟨c, hc, rfl⟩ := List.mem_map.mp hid
          exact List.mem_map_of_mem (List.mem_append_right _ hc)
  | serverClosed _ hst he hw hn =>
      refine ⟨fun r hr => (h.since r hr).trans_eq hn.symm, fun _ hst' => ?_, fun _ => he, h.cut,
        h.refused, h.routed⟩
      cases hw.symm.trans hst'
  | polls | handled | answered | lost =>
      exact ⟨h.since, h.forced, h.closed, h.cut, h.refused, h.routed⟩
  | routed id hlt =>
      refine ⟨h.since, h.forced, h.closed, h.cut, h.refused, fun id' hid => ?_⟩
      rcases List.mem_cons.mp hid with rfl | hid
      · exact .inl List.mem_cons_self
      · exact (h.routed id' hid).imp_left (List.mem_cons_of_mem _)
  | @arrived r hr =>
      have ho : s.worker.stage.order < 2 := by
        refine Nat.not_le.mp fun ho => ?_
        rw [(hu ho).arriving] at hr
        cases hr
      have harrived : s.arrived r.id =
          { s with
            arriving := s.arriving.filter (·.id ≠ r.id)
            serving := ⟨r.id, s.now⟩ :: s.serving } := by
        simp [InstanceState.arrived, listens, ho]
      rw [harrived]
      refine ⟨fun r' hr' => ?_, fun forceAt hst => ?_, fun ho' => ?_, h.cut, h.refused,
        fun id hid => ?_⟩
      · rcases List.mem_cons.mp hr' with rfl | hr'
        · exact Int.le_refl _
        · exact h.since r' hr'
      · exact absurd ho (by simp [show s.worker.stage = _ from hst, Stage.order])
      · exact absurd ho' (by change ¬ 3 ≤ s.worker.stage.order; omega)
      · by_cases heq : id = r.id
        · exact .inr (.inl (heq ▸ List.mem_cons_self))
        · refine (h.routed id hid).imp (fun hid => hwhere hid heq) (Or.imp_left ?_)
          exact List.mem_cons_of_mem _
  | responded id =>
      refine ⟨fun r hr => h.since r (List.mem_filter.mp hr).1,
        fun forceAt hst r hr => h.forced forceAt hst r (List.mem_filter.mp hr).1, fun ho => ?_,
        h.cut, h.refused, fun id' hid => ?_⟩
      · change s.serving.filter _ = []
        rw [h.closed ho, List.filter_nil]
      · by_cases heq : id' = id
        · exact .inr (.inr (.inl (heq ▸ List.mem_cons_self)))
        · rcases h.routed id' hid with hid | hid | hid | hid
          · exact .inl hid
          · exact .inr (.inl (hwhere hid heq))
          · exact .inr (.inr (.inl (List.mem_cons_of_mem _ hid)))
          · exact .inr (.inr (.inr hid))

end InstanceState.Accounted

end

/-! ### Over a whole run -/

section

variable [DecidableEq ι] {config : ShutdownConfig} {registered : List ι} {b : Balancer}
  {s : InstanceState ι}

/-- No request meets a closed port; each that was sent here is on its way, being served, answered,
or was cut after it had its time; and when the application closes, none is left. -/
structure InstanceState.Lossless (config : ShutdownConfig) (s : InstanceState ι) : Prop where
  refused : s.refused = []
  routed : ∀ id ∈ s.routed, id ∈ s.arriving.map (·.id) ∨ id ∈ s.serving.map (·.id) ∨
    id ∈ s.answered ∨ ∃ c ∈ s.cut, c.id = id ∧ c.since + config.forceAfterMs ≤ c.cutAt
  closed : .closeApp ∈ s.worker.past → s.arriving = [] ∧ s.serving = []

/-- The worker goes the way of `Lifecycle.worker`. -/
theorem InstanceState.Takes.logged {s' : InstanceState ι} (hs : s.Takes config registered b s')
    (h : s.worker.Logged) : s'.worker.Logged := by
  cases hs with
  | worked hstep | forced hstep | serverClosed hstep => exact h.step hstep
  | polls | handled | answered | lost | routed | responded => exact h
  | arrived =>
      unfold InstanceState.arrived
      split <;> exact h

end

/-- Polls every second, and stops after two failures. -/
def Balancer.twoPolls : Balancer := ⟨1000, 500, 2, 100⟩

/-- The poll that the signal overtakes still succeeds, and another request comes after it. -/
def drainOfTwo : List (InstanceLabel Unit) :=
  [.route 7, .worker (.pass 50), .arrive 7, .poll, .handle, .worker .signal, .answer [], .route 8,
    .worker (.pass 100), .arrive 8, .worker (.pass 900), .poll, .handle, .answer [],
    .worker (.pass 1000), .poll, .handle, .answer [], .worker (.pass 1000), .poll, .handle,
    .answer [], .worker (.pass 1000), .poll, .handle, .answer [], .worker (.pass 1000),
    .worker .delayed, .respond 7, .respond 8, .worker .serverClosed, .worker .stop,
    .worker .closeApp]

end NestDdd.Lifecycle

import NestDdd.Runs.History
import NestDdd.Runs.Machine
import NestDdd.Shared.Timers
import Mathlib.Data.Int.Order.Basic

/-!
# Lifecycle — shutting a worker down

`runGracefulShutdown` (`src/infrastructure/lifecycle/graceful-shutdown.ts`) as `main.ts` wires it:
one call a signal, with `JobScheduler.stop` (`src/interface/scheduler/job-scheduler.ts`) between the
close of the server and that of the application, over jobs that each run through a `JobRunner`
(`job-runner.ts`).  A step ends where the code awaits; a stopped cron job does not tick, and the
logger and the metrics do not throw.

* `WorkerState.step_takes`: what a step may do.
* `WorkerState.Logged`, `WorkerState.Jobs`: what holds at each stage; the runs in flight once the
  jobs are stopped are among those that `stop` waits for.
* `WorkerState.closes_last`: when the application closes, nothing is served and nothing runs, unless
  the jobs were stopped over a run in flight with a drain that no timer can hold.
* `WorkerState.closes_early`: and then it may close on that run.
-/

namespace NestDdd.Lifecycle

open Runs

universe u

variable {ι : Type u}

/-- What `shutdownSchema` lets through. -/
structure ShutdownConfig where
  drainDelayMs : Nat
  forceAfterMs : Nat
  jobDrainMs : Nat

/-- The defaults of `shutdownSchema`. -/
def ShutdownConfig.defaults : ShutdownConfig := ⟨5000, 10000, 10000⟩

/-! ### State -/

/-- The promise in `JobRunner.current`: the run it is for, and whether that is over; `finally`
then has yet to clear `current`. -/
structure JobRun where
  number : Nat
  settled : Bool

/-- A registered job: whether its cron job ticks, and its `JobRunner`. -/
structure RegisteredJob where
  active : Bool
  current : Option JobRun
  /-- How many runs it has begun. -/
  runs : Nat

/-- Just registered. -/
def RegisteredJob.started : RegisteredJob := ⟨true, none, 0⟩

namespace RegisteredJob

def isRunning (job : RegisteredJob) : Bool := job.current.isSome

/-- `JobRunner.run`: skipped while the run before is still going. -/
def run (job : RegisteredJob) : RegisteredJob :=
  if job.isRunning then job
  else { job with current := some ⟨job.runs, false⟩, runs := job.runs + 1 }

/-- A run is in flight. -/
def InFlight (job : RegisteredJob) : Prop := ∃ n, job.current = some ⟨n, false⟩

end RegisteredJob

/-- What `runGracefulShutdown` awaits: the drain delay, the close of the server (with the force
timer running), its own continuation, `cronJob.stop()`, the runs in flight against the timeout,
the continuation of `stop`, and the close of the application. -/
inductive Stage (ι : Type u) where
  | serving
  | delaying (delayedAt : Int)
  | closing (forceAt : Option Int)
  | closed
  | stopping (running : List ι)
  | idling (awaited : List (ι × Nat)) (timeoutAt : Int)
  | drained
  | closingApp
  | finished

/-- How far a stage is. -/
def Stage.order : Stage ι → Nat
  | .serving => 0
  | .delaying _ => 1
  | .closing _ => 2
  | .closed => 3
  | .stopping _ => 4
  | .idling _ _ => 5
  | .drained => 6
  | .closingApp => 7
  | .finished => 8

inductive ShutdownEvent (ι : Type u) where
  | begun
  | delayStarted
  | delayed
  | forced
  | serverClosed
  | jobsStopped (t : Int)
  | runStarted (j : ι)
  | drainTimeout
  | closeApp
  | finished
  deriving DecidableEq

structure WorkerState (ι : Type u) where
  /-- `ShutdownState.shuttingDown`, which fails readiness. -/
  shuttingDown : Bool
  stage : Stage ι
  job : ι → RegisteredJob
  now : Int
  past : List (ShutdownEvent ι)

/-- A worker that serves. -/
def WorkerState.serving (now : Int) : WorkerState ι :=
  ⟨false, .serving, fun _ => .started, now, []⟩

namespace WorkerState

section

variable [DecidableEq ι] (config : ShutdownConfig) (registered : List ι) (s : WorkerState ι)

/-- A signal: `runGracefulShutdown` up to `delay(drainDelayMs)`. -/
def onSignal : WorkerState ι :=
  if s.shuttingDown then s
  else
    { s with
      shuttingDown := true
      stage := .delaying (s.now + setTimeoutMs config.drainDelayMs)
      past := .delayStarted :: .begun :: s.past }

/-- After the delay, up to `server.close`. -/
def onDelayed : WorkerState ι :=
  { s with
    stage := .closing (some (s.now + setTimeoutMs config.forceAfterMs))
    past := .delayed :: s.past }

/-- `JobScheduler.stop` up to its first `await`. -/
def stop : WorkerState ι :=
  if registered = [] then { s with stage := .drained }
  else
    { s with
      stage := .stopping (registered.filter fun j => (s.job j).isRunning)
      job := fun j => if j ∈ registered then { s.job j with active := false } else s.job j
      past := .jobsStopped s.now :: s.past }

/-- What `whenIdle` awaits: the run that `current` holds, if any. -/
def whenIdle (j : ι) : Option (ι × Nat) := (s.job j).current.map fun run => (j, run.number)

/-- `JobScheduler.stop` up to `withTimeout`. -/
def onStopped (running : List ι) : WorkerState ι :=
  if running = [] then { s with stage := .drained }
  else
    { s with
      stage := .idling (running.filterMap s.whenIdle) (s.now + setTimeoutMs config.jobDrainMs) }

/-- The promises that `whenIdle` awaited have all resolved. -/
def Idle (awaited : List (ι × Nat)) : Prop :=
  ∀ p ∈ awaited, (s.job p.1).current.map (·.number) ≠ some p.2

instance (awaited : List (ι × Nat)) : Decidable (s.Idle awaited) :=
  inferInstanceAs (Decidable (∀ p ∈ awaited, _ ≠ _))

def setJob (j : ι) (job : RegisteredJob) : WorkerState ι :=
  { s with job := Function.update s.job j job }

theorem setJob_job (j j' : ι) (job : RegisteredJob) :
    (s.setJob j job).job j' = if j' = j then job else s.job j' :=
  Function.update_apply ..

end

end WorkerState

/-- What comes from outside, and the continuations of the code. -/
inductive WorkerLabel (ι : Type u) where
  | pass (d : Nat)
  | signal
  | tick (j : ι)
  | settle (j : ι)
  | clear (j : ι)
  | delayed
  | force
  | serverClosed
  | stop
  | stopped
  | idle
  | timeout
  | closeApp
  | appClosed

section

variable [DecidableEq ι] (config : ShutdownConfig) (registered : List ι)

open WorkerState

def workerStep (s : WorkerState ι) : WorkerLabel ι → Option (WorkerState ι)
  | .pass d => some { s with now := s.now + d }
  | .signal => some (s.onSignal config)
  | .tick j =>
      if j ∈ registered ∧ (s.job j).active = true then
        some (if (s.job j).isRunning then s
          else { s.setJob j (s.job j).run with past := .runStarted j :: s.past })
      else none
  | .settle j =>
      match (s.job j).current with
      | some ⟨n, false⟩ => some (s.setJob j { s.job j with current := some ⟨n, true⟩ })
      | _ => none
  | .clear j =>
      match (s.job j).current with
      | some ⟨_, true⟩ => some (s.setJob j { s.job j with current := none })
      | _ => none
  | .delayed =>
      match s.stage with
      | .delaying delayedAt => if delayedAt ≤ s.now then some (s.onDelayed config) else none
      | _ => none
  | .force =>
      match s.stage with
      | .closing (some forceAt) =>
          if forceAt ≤ s.now then
            some { s with stage := .closing none, past := .forced :: s.past }
          else none
      | _ => none
  | .serverClosed =>
      match s.stage with
      | .closing _ => some { s with stage := .closed, past := .serverClosed :: s.past }
      | _ => none
  | .stop =>
      match s.stage with
      | .closed => some (s.stop registered)
      | _ => none
  | .stopped =>
      match s.stage with
      | .stopping running => some (s.onStopped config running)
      | _ => none
  | .idle =>
      match s.stage with
      | .idling awaited _ => if s.Idle awaited then some { s with stage := .drained } else none
      | _ => none
  | .timeout =>
      match s.stage with
      | .idling _ timeoutAt =>
          if timeoutAt ≤ s.now then
            some { s with stage := .drained, past := .drainTimeout :: s.past }
          else none
      | _ => none
  | .closeApp =>
      match s.stage with
      | .drained => some { s with stage := .closingApp, past := .closeApp :: s.past }
      | _ => none
  | .appClosed =>
      match s.stage with
      | .closingApp => some { s with stage := .finished, past := .finished :: s.past }
      | _ => none

def worker : Machine (WorkerState ι) (WorkerLabel ι) := ⟨workerStep config registered⟩

end

/-! ### What a step does -/

section

variable [DecidableEq ι] {config : ShutdownConfig} {registered : List ι} {s s' : WorkerState ι}
  {l : WorkerLabel ι}

/-- What a step may do. -/
inductive WorkerState.Takes (config : ShutdownConfig) (registered : List ι) (s : WorkerState ι) :
    WorkerLabel ι → WorkerState ι → Prop where
  | passed (d : Nat) : Takes config registered s (.pass d) { s with now := s.now + d }
  | ignored (h : s.shuttingDown = true) : Takes config registered s .signal s
  | begun (h : s.shuttingDown = false) :
      Takes config registered s .signal
        { s with
          shuttingDown := true
          stage := .delaying (s.now + setTimeoutMs config.drainDelayMs)
          past := .delayStarted :: .begun :: s.past }
  | skipped (j : ι) : Takes config registered s (.tick j) s
  | ran {j : ι} (hj : j ∈ registered) (ha : (s.job j).active = true)
      (hc : (s.job j).current = none) :
      Takes config registered s (.tick j)
        { s.setJob j { s.job j with
            current := some ⟨(s.job j).runs, false⟩, runs := (s.job j).runs + 1 } with
          past := .runStarted j :: s.past }
  | settled {j : ι} {n : Nat} (hc : (s.job j).current = some ⟨n, false⟩) :
      Takes config registered s (.settle j)
        (s.setJob j { s.job j with current := some ⟨n, true⟩ })
  | cleared {j : ι} {n : Nat} (hc : (s.job j).current = some ⟨n, true⟩) :
      Takes config registered s (.clear j) (s.setJob j { s.job j with current := none })
  | delayed {delayedAt : Int} (hs : s.stage = .delaying delayedAt) (ht : delayedAt ≤ s.now) :
      Takes config registered s .delayed (s.onDelayed config)
  | forced {forceAt : Int} (hs : s.stage = .closing (some forceAt)) (ht : forceAt ≤ s.now) :
      Takes config registered s .force
        { s with stage := .closing none, past := .forced :: s.past }
  | serverClosed {forceAt : Option Int} (hs : s.stage = .closing forceAt) :
      Takes config registered s .serverClosed
        { s with stage := .closed, past := .serverClosed :: s.past }
  | unscheduled (hs : s.stage = .closed) (hr : registered = []) :
      Takes config registered s .stop { s with stage := .drained }
  | jobsStopped (hs : s.stage = .closed) :
      Takes config registered s .stop
        { s with
          stage := .stopping (registered.filter fun j => (s.job j).isRunning)
          job := fun j => if j ∈ registered then { s.job j with active := false } else s.job j
          past := .jobsStopped s.now :: s.past }
  | noneRunning (hs : s.stage = .stopping []) :
      Takes config registered s .stopped { s with stage := .drained }
  | someRunning {running : List ι} (hs : s.stage = .stopping running) :
      Takes config registered s .stopped
        { s with
          stage := .idling (running.filterMap s.whenIdle)
            (s.now + setTimeoutMs config.jobDrainMs) }
  | idle {awaited : List (ι × Nat)} {timeoutAt : Int} (hs : s.stage = .idling awaited timeoutAt)
      (hi : s.Idle awaited) : Takes config registered s .idle { s with stage := .drained }
  | timedOut {awaited : List (ι × Nat)} {timeoutAt : Int}
      (hs : s.stage = .idling awaited timeoutAt) (ht : timeoutAt ≤ s.now) :
      Takes config registered s .timeout
        { s with stage := .drained, past := .drainTimeout :: s.past }
  | closeApp (hs : s.stage = .drained) :
      Takes config registered s .closeApp
        { s with stage := .closingApp, past := .closeApp :: s.past }
  | appClosed (hs : s.stage = .closingApp) :
      Takes config registered s .appClosed
        { s with stage := .finished, past := .finished :: s.past }

theorem WorkerState.step_takes (h : (worker config registered).step s l = some s') :
    s.Takes config registered l s' := by
  cases l with
  | pass d => obtain rfl := Option.some.inj h; exact .passed d
  | signal =>
      obtain rfl := Option.some.inj h
      cases hf : s.shuttingDown with
      | true => simpa only [onSignal, hf, if_true] using Takes.ignored hf
      | false => simpa only [onSignal, hf, Bool.false_eq_true, if_false] using Takes.begun hf
  | tick j =>
      obtain ⟨⟨hj, ha⟩, h⟩ := Option.ite_none_right_eq_some.mp h
      obtain rfl := Option.some.inj h
      cases hc : (s.job j).current with
      | some run => simpa [RegisteredJob.isRunning, hc] using Takes.skipped j
      | none => simpa [RegisteredJob.run, RegisteredJob.isRunning, hc] using Takes.ran hj ha hc
  | settle j | clear j =>
      simp only [worker, workerStep] at h
      split at h
      next n hc =>
        obtain rfl := Option.some.inj h
        first | exact .settled hc | exact .cleared hc
      next => cases h
  | delayed | force =>
      simp only [worker, workerStep] at h
      split at h
      next hs =>
        obtain ⟨ht, h⟩ := Option.ite_none_right_eq_some.mp h
        obtain rfl := Option.some.inj h
        first | exact .delayed hs ht | exact .forced hs ht
      next => cases h
  | serverClosed =>
      simp only [worker, workerStep] at h
      split at h
      next hs => obtain rfl := Option.some.inj h; exact .serverClosed hs
      next => cases h
  | stop =>
      simp only [worker, workerStep] at h
      split at h
      next hs =>
        obtain rfl := Option.some.inj h
        by_cases hr : registered = []
        · simpa only [stop, if_pos hr] using Takes.unscheduled hs hr
        · simpa only [stop, if_neg hr] using Takes.jobsStopped hs
      next => cases h
  | stopped =>
      simp only [worker, workerStep] at h
      split at h
      next running hs =>
        obtain rfl := Option.some.inj h
        by_cases hr : running = []
        · subst hr; exact .noneRunning hs
        · simpa only [onStopped, if_neg hr] using Takes.someRunning hs
      next => cases h
  | idle | timeout =>
      simp only [worker, workerStep] at h
      split at h
      next hs =>
        obtain ⟨ht, h⟩ := Option.ite_none_right_eq_some.mp h
        obtain rfl := Option.some.inj h
        first | exact .idle hs ht | exact .timedOut hs ht
      next => cases h
  | closeApp | appClosed =>
      simp only [worker, workerStep] at h
      split at h
      next hs =>
        obtain rfl := Option.some.inj h
        first | exact .closeApp hs | exact .appClosed hs
      next => cases h

/-! ### The order of the stages -/

/-- Readiness fails before the drain delay, the server is closed before the jobs are stopped, and
the application is closed once. -/
structure WorkerState.Logged (s : WorkerState ι) : Prop where
  flag : s.shuttingDown = true ↔ 0 < s.stage.order
  begun : 0 < s.stage.order →
    ∃ before, Happened s.past .delayStarted before ∧ .begun ∈ before
  closed : 3 ≤ s.stage.order → .serverClosed ∈ s.past
  once : s.past.count .closeApp = if 7 ≤ s.stage.order then 1 else 0
  atClose : ∀ earlier, Happened s.past .closeApp earlier →
    (∃ before, Happened earlier .delayStarted before ∧ .begun ∈ before) ∧ .serverClosed ∈ earlier

namespace WorkerState.Logged

/-- What is no end of a stage, or ends one that is not the first and not the last but one. -/
theorem next (h : s.Logged) (hf : s'.shuttingDown = s.shuttingDown)
    (h₀ : 0 < s'.stage.order ↔ 0 < s.stage.order) (h₇ : 7 ≤ s'.stage.order ↔ 7 ≤ s.stage.order)
    (new : List (ShutdownEvent ι)) (hpast : s'.past = new ++ s.past) (hnew : .closeApp ∉ new)
    (hclosed : 3 ≤ s'.stage.order → 3 ≤ s.stage.order ∨ .serverClosed ∈ new) : s'.Logged := by
  refine ⟨?_, fun ho => ?_, fun ho => ?_, ?_, fun earlier hin => ?_⟩
  · rw [hf, h₀, h.flag]
  · obtain ⟨before, hin, hbegun⟩ := h.begun (h₀.mp ho)
    exact ⟨before, hpast ▸ hin.append new, hbegun⟩
  · rw [hpast]
    exact (hclosed ho).elim (fun ho => List.mem_append_right new (h.closed ho))
      (List.mem_append_left s.past)
  · rw [hpast, List.count_append, List.count_eq_zero.mpr hnew, Nat.zero_add, h.once]
    simp only [h₇]
  · rw [hpast] at hin
    exact h.atClose earlier (hin.of_append hnew)

/-- Until it closes, the application has not been closed. -/
theorem not_closed (h : s.Logged) (ho : s.stage.order < 7) : .closeApp ∉ s.past := by
  have honce := h.once
  rw [if_neg (Nat.not_le.mpr ho)] at honce
  exact List.count_eq_zero.mp honce

theorem step (h : s.Logged) (hs : (worker config registered).step s l = some s') : s'.Logged := by
  cases step_takes hs with
  | passed | settled | cleared =>
      exact h.next rfl Iff.rfl Iff.rfl [] rfl List.not_mem_nil .inl
  | ran => exact h.next rfl Iff.rfl Iff.rfl [.runStarted _] rfl (by simp) .inl
  | ignored | skipped => exact h
  | begun hf =>
      have ho : ¬ 0 < s.stage.order := fun ho => Bool.noConfusion (hf.symm.trans (h.flag.mpr ho))
      have hnot : .closeApp ∉ s.past := h.not_closed (by omega)
      have hnot' : ShutdownEvent.closeApp ∉ .delayStarted :: .begun :: s.past := by simpa using hnot
      refine ⟨by simp [Stage.order], fun _ => ⟨.begun :: s.past, ?_, List.mem_cons_self⟩,
        by simp [Stage.order], List.count_eq_zero.mpr hnot', fun _ hin => absurd hin.mem hnot'⟩
      exact Happened.cons_iff.mpr (.inl ⟨rfl, rfl⟩)
  | delayed hst =>
      exact h.next rfl (by simp [onDelayed, hst, Stage.order])
        (by simp [onDelayed, hst, Stage.order]) [.delayed] rfl (by simp)
        (by simp [onDelayed, Stage.order])
  | forced hst =>
      exact h.next rfl (by simp [hst, Stage.order]) (by simp [hst, Stage.order])
        [.forced] rfl (by simp) (by simp [Stage.order])
  | serverClosed hst =>
      exact h.next rfl (by simp [hst, Stage.order]) (by simp [hst, Stage.order])
        [.serverClosed] rfl (by simp) (by simp)
  | unscheduled hst | noneRunning hst | someRunning hst | idle hst =>
      exact h.next rfl (by simp [hst, Stage.order]) (by simp [hst, Stage.order]) [] rfl
        List.not_mem_nil (by simp [hst, Stage.order])
  | jobsStopped hst =>
      exact h.next rfl (by simp [hst, Stage.order]) (by simp [hst, Stage.order])
        [.jobsStopped _] rfl (by simp) (by simp [hst, Stage.order])
  | timedOut hst =>
      exact h.next rfl (by simp [hst, Stage.order]) (by simp [hst, Stage.order]) [.drainTimeout]
        rfl (by simp) (by simp [hst, Stage.order])
  | closeApp hst =>
      have ho : s.stage.order = 6 := by rw [hst]; rfl
      have hbegun := h.begun (by omega)
      have hclosed := h.closed (by omega)
      have hnot := h.not_closed (by omega)
      have hpos : 0 < s.stage.order := by omega
      refine ⟨iff_of_true (h.flag.mpr hpos) (by simp [Stage.order]), fun _ => ?_, fun _ => ?_, ?_,
        fun earlier hin => ?_⟩
      · obtain ⟨before, hin, hmem⟩ := hbegun
        exact ⟨before, hin.append [.closeApp], hmem⟩
      · exact List.mem_cons_of_mem _ hclosed
      · rw [List.count_cons_self, List.count_eq_zero.mpr hnot]; rfl
      · rcases Happened.cons_iff.mp hin with ⟨-, rfl⟩ | hin
        · exact ⟨hbegun, hclosed⟩
        · exact absurd hin.mem hnot
  | appClosed hst =>
      exact h.next rfl (by simp [hst, Stage.order]) (by simp [hst, Stage.order]) [.finished] rfl
        (by simp) (by simp [hst, Stage.order])

end WorkerState.Logged

/-! ### The jobs -/

/-- No run is left, or the drain has had its time. -/
def WorkerState.Quiet (config : ShutdownConfig) (registered : List ι) (s : WorkerState ι) : Prop :=
  (∀ j ∈ registered, (s.job j).current = none) ∨
    ∃ t, .jobsStopped t ∈ s.past ∧ t + setTimeoutMs config.jobDrainMs ≤ s.now

/-- What holds of the jobs once they are stopped. -/
structure WorkerState.Jobs (config : ShutdownConfig) (registered : List ι) (s : WorkerState ι) :
    Prop where
  stopped : 4 ≤ s.stage.order → ∀ j ∈ registered, (s.job j).active = false
  running : ∀ running, s.stage = .stopping running →
    (∃ t, .jobsStopped t ∈ s.past ∧ t ≤ s.now) ∧
      ∀ j ∈ registered, (s.job j).isRunning = true → j ∈ running
  awaited : ∀ awaited timeoutAt, s.stage = .idling awaited timeoutAt →
    (∃ t, .jobsStopped t ∈ s.past ∧ t + setTimeoutMs config.jobDrainMs ≤ timeoutAt) ∧
      ∀ j ∈ registered, ∀ run, (s.job j).current = some run → (j, run.number) ∈ awaited
  drained : 6 ≤ s.stage.order → s.Quiet config registered

namespace WorkerState.Jobs

omit [DecidableEq ι] in
theorem of_early (h : s.stage.order < 4) : s.Jobs config registered := by
  refine ⟨fun ho => absurd ho (by omega), fun running hs => ?_, fun awaited timeoutAt hs => ?_,
    fun ho => absurd ho (by omega)⟩
  · rw [hs] at h; simp [Stage.order] at h
  · rw [hs] at h; simp [Stage.order] at h

omit [DecidableEq ι] in
/-- What leaves the stage as it is, and makes no new run. -/
theorem frame (h : s.Jobs config registered) (hstage : s'.stage = s.stage) (hnow : s.now ≤ s'.now)
    (hpast : s.past <:+ s'.past) (ha : ∀ j, (s'.job j).active = (s.job j).active)
    (hc : ∀ j run', (s'.job j).current = some run' →
      ∃ run, (s.job j).current = some run ∧ run.number = run'.number) :
    s'.Jobs config registered := by
  have hnone : ∀ j, (s.job j).current = none → (s'.job j).current = none := by
    intro j hn
    refine Option.eq_none_iff_forall_ne_some.mpr fun run' hr => ?_
    obtain ⟨run, hrun, -⟩ := hc j run' hr
    cases hn.symm.trans hrun
  refine ⟨fun ho j hj => ?_, fun running hs => ?_, fun awaited timeoutAt hs => ?_, fun ho => ?_⟩
  · rw [ha]; exact h.stopped (hstage ▸ ho) j hj
  · obtain ⟨⟨t, ht, hle⟩, hrun⟩ := h.running running (hstage ▸ hs)
    refine ⟨⟨t, hpast.subset ht, Int.le_trans hle hnow⟩, fun j hj hr => hrun j hj ?_⟩
    obtain ⟨run', hr'⟩ := Option.isSome_iff_exists.mp hr
    obtain ⟨run, hr, -⟩ := hc j run' hr'
    simp [RegisteredJob.isRunning, hr]
  · obtain ⟨⟨t, ht, hle⟩, hawait⟩ := h.awaited awaited timeoutAt (hstage ▸ hs)
    refine ⟨⟨t, hpast.subset ht, hle⟩, fun j hj run' hr' => ?_⟩
    obtain ⟨run, hr, hn⟩ := hc j run' hr'
    exact hn ▸ hawait j hj run hr
  · rcases h.drained (hstage ▸ ho) with hq | ⟨t, ht, hle⟩
    · exact .inl fun j hj => hnone j (hq j hj)
    · exact .inr ⟨t, hpast.subset ht, Int.le_trans hle hnow⟩

omit [DecidableEq ι] in
/-- Past the drain, the jobs have no say. -/
theorem of_quiet (ho : 6 ≤ s.stage.order)
    (hstopped : ∀ j ∈ registered, (s.job j).active = false) (hq : s.Quiet config registered) :
    s.Jobs config registered := by
  refine ⟨fun _ => hstopped, fun running hs => ?_, fun awaited timeoutAt hs => ?_, fun _ => hq⟩
  · rw [hs] at ho; simp [Stage.order] at ho
  · rw [hs] at ho; simp [Stage.order] at ho

theorem step (h : s.Jobs config registered)
    (hs : (worker config registered).step s l = some s') : s'.Jobs config registered := by
  cases step_takes hs with
  | passed d =>
      exact h.frame rfl (Int.le_add_of_nonneg_right (Int.natCast_nonneg d)) List.suffix_rfl
        (fun _ => rfl) fun _ run hr => ⟨run, hr, rfl⟩
  | ignored | skipped => exact h
  | begun => exact of_early (by simp [Stage.order])
  | @ran j hj ha =>
      -- the jobs are not stopped yet
      refine of_early (Nat.not_le.mp fun ho => ?_)
      exact Bool.noConfusion (ha.symm.trans (h.stopped ho j hj))
  | @settled j n hc =>
      refine h.frame rfl (Int.le_refl _) List.suffix_rfl (fun j' => ?_) fun j' run' hr => ?_
      · rw [setJob_job]; split_ifs with hj <;> simp [hj]
      · rw [setJob_job] at hr
        split_ifs at hr with hj
        · obtain rfl := Option.some.inj hr
          exact ⟨⟨n, false⟩, hj ▸ hc, rfl⟩
        · exact ⟨run', hr, rfl⟩
  | @cleared j n hc =>
      refine h.frame rfl (Int.le_refl _) List.suffix_rfl (fun j' => ?_) fun j' run' hr => ?_
      · rw [setJob_job]; split_ifs with hj <;> simp [hj]
      · rw [setJob_job] at hr
        split_ifs at hr with hj
        exact ⟨run', hr, rfl⟩
  | delayed | forced | serverClosed => exact of_early (by simp [onDelayed, Stage.order])
  | unscheduled hst hr =>
      subst hr
      exact of_quiet (by simp [Stage.order]) (fun _ hj => nomatch hj) (.inl fun _ hj => nomatch hj)
  | jobsStopped hst =>
      refine ⟨fun _ j hj => by simp [hj], fun running hs' => ?_, (fun _ _ h => nomatch h),
        fun ho => by simp [Stage.order] at ho⟩
      cases hs'
      refine ⟨⟨s.now, List.mem_cons_self, Int.le_refl _⟩, fun j hj hr => ?_⟩
      exact List.mem_filter.mpr ⟨hj, by simpa [hj, RegisteredJob.isRunning] using hr⟩
  | noneRunning hst =>
      have hstopped := h.stopped (by simp [hst, Stage.order])
      refine of_quiet (by simp [Stage.order]) hstopped (.inl fun j hj => ?_)
      refine Option.isSome_eq_false_iff.mp ?_ |> Option.isNone_iff_eq_none.mp
      exact Bool.eq_false_iff.mpr fun hr => nomatch (h.running [] hst).2 j hj hr
  | @someRunning running hst =>
      obtain ⟨⟨t, hmem, hle⟩, hrun⟩ := h.running running hst
      refine ⟨fun _ => h.stopped (by simp [hst, Stage.order]), (fun _ h => nomatch h),
        fun awaited timeoutAt hs' => ?_, fun ho => by simp [Stage.order] at ho⟩
      cases hs'
      refine ⟨⟨t, hmem, Int.add_le_add_right hle _⟩, fun j hj run hr => ?_⟩
      have hcurrent : (s.job j).current = some run := hr
      exact List.mem_filterMap.mpr
        ⟨j, hrun j hj (by simp [RegisteredJob.isRunning, hcurrent]), by simp [whenIdle, hcurrent]⟩
  | @idle awaited timeoutAt hst hi =>
      have hstopped := h.stopped (by simp [hst, Stage.order])
      refine of_quiet (by simp [Stage.order]) hstopped (.inl fun j hj => ?_)
      refine Option.eq_none_iff_forall_ne_some.mpr fun run hr => ?_
      exact hi _ ((h.awaited awaited timeoutAt hst).2 j hj run hr) (congrArg _ hr)
  | @timedOut awaited timeoutAt hst ht =>
      have hstopped := h.stopped (by simp [hst, Stage.order])
      obtain ⟨⟨t, hmem, hle⟩, -⟩ := h.awaited awaited timeoutAt hst
      exact of_quiet (by simp [Stage.order]) hstopped
        (.inr ⟨t, List.mem_cons_of_mem _ hmem, Int.le_trans hle ht⟩)
  | closeApp hst | appClosed hst =>
      have ho : 6 ≤ s.stage.order := by simp [hst, Stage.order]
      refine of_quiet (by simp [Stage.order]) (h.stopped (by omega)) ?_
      exact (h.drained ho).imp_right fun ⟨t, hmem, hle⟩ => ⟨t, List.mem_cons_of_mem _ hmem, hle⟩

end WorkerState.Jobs

/-! ### Over a whole run -/

/-- When the application closes: readiness has been failing since before the drain delay and the
server is closed, no job can start, and none is running unless the drain has had its time. -/
structure WorkerState.ClosesLast (config : ShutdownConfig) (registered : List ι)
    (s : WorkerState ι) : Prop where
  once : s.past.count .closeApp ≤ 1
  after : ∀ earlier, Happened s.past .closeApp earlier →
    (∃ before, Happened earlier .delayStarted before ∧ .begun ∈ before) ∧ .serverClosed ∈ earlier
  unready : .closeApp ∈ s.past → s.shuttingDown = true
  stopped : .closeApp ∈ s.past → ∀ j ∈ registered,
    (worker config registered).step s (.tick j) = none
  idle : .closeApp ∈ s.past → (∀ j ∈ registered, ¬ (s.job j).InFlight) ∨
    ∃ t, .jobsStopped t ∈ s.past ∧ t + config.jobDrainMs ≤ s.now

/-- A timer holds the drain, or no run is in flight. -/
def WorkerState.Covered (config : ShutdownConfig) (registered : List ι) (s : WorkerState ι) :
    Prop :=
  config.jobDrainMs ≤ 2147483647 ∨ ∀ j ∈ registered, ¬ (s.job j).InFlight

/-- The jobs are stopped in such a state only. -/
def WorkerState.StopsCovered (config : ShutdownConfig) (registered : List ι) (s : WorkerState ι)
    (l : WorkerLabel ι) (_ : WorkerState ι) : Prop :=
  l = .stop → s.Covered config registered

/-- What holds on the way: `covered` is what stopping the jobs leaves behind. -/
structure WorkerState.Inv (config : ShutdownConfig) (registered : List ι) (s : WorkerState ι) :
    Prop where
  logged : s.Logged
  jobs : s.Jobs config registered
  covered : 4 ≤ s.stage.order → s.Covered config registered

namespace WorkerState

theorem Inv.serving {now : Int} :
    (WorkerState.serving now : WorkerState ι).Inv config registered where
  logged := ⟨by simp [WorkerState.serving, Stage.order], (fun h => nomatch h), (fun h => nomatch h),
    rfl, fun _ h => h.not_nil.elim⟩
  jobs := .of_early (by simp [WorkerState.serving, Stage.order])
  covered h := by simp [WorkerState.serving, Stage.order] at h

omit [DecidableEq ι] in
theorem Covered.mono (h : s.Covered config registered)
    (hjob : ∀ j, (s'.job j).InFlight → (s.job j).InFlight) : s'.Covered config registered :=
  h.imp_right fun hidle j hj hin => hidle j hj (hjob j hin)

/-- A run that is over is not in flight. -/
theorem inFlight_setJob {j j' : ι} {job : RegisteredJob} (hjob : ¬ job.InFlight)
    (h : ((s.setJob j job).job j').InFlight) : (s.job j').InFlight := by
  rw [setJob_job] at h
  split_ifs at h
  · exact absurd h hjob
  · exact h

theorem Inv.covered_step (h : s.Inv config registered)
    (hs : (worker config registered).step s l = some s')
    (hg : s.StopsCovered config registered l s') :
    4 ≤ s'.stage.order → s'.Covered config registered := by
  cases step_takes hs with
  | passed | ignored | skipped => exact h.covered
  | settled hc | cleared hc =>
      intro ho
      refine (h.covered ho).mono fun j hin => inFlight_setJob ?_ hin
      simp [RegisteredJob.InFlight]
  | @ran j hj ha =>
      -- the jobs are not stopped yet
      intro ho
      exact Bool.noConfusion (ha.symm.trans (h.jobs.stopped ho j hj))
  | begun | delayed | forced | serverClosed =>
      intro ho
      simp [onDelayed, Stage.order] at ho
  | unscheduled hst => exact fun _ => hg rfl
  | jobsStopped hst =>
      intro _
      refine (hg rfl).mono fun j hin => ?_
      dsimp only at hin
      split at hin <;> exact hin
  | noneRunning hst | someRunning hst | idle hst | timedOut hst | closeApp hst | appClosed hst =>
      intro _
      exact h.covered (by simp [hst, Stage.order])

theorem Inv.step (h : s.Inv config registered)
    (hs : (worker config registered).step s l = some s')
    (hg : s.StopsCovered config registered l s') : s'.Inv config registered :=
  ⟨h.logged.step hs, h.jobs.step hs, h.covered_step hs hg⟩

theorem Inv.closesLast (h : s.Inv config registered) : s.ClosesLast config registered := by
  have hlate : .closeApp ∈ s.past → 7 ≤ s.stage.order :=
    fun hmem => Nat.not_lt.mp fun ho => h.logged.not_closed ho hmem
  refine ⟨?_, h.logged.atClose, fun hmem => ?_, fun hmem j hj => ?_, fun hmem => ?_⟩
  · rw [h.logged.once]; split <;> omega
  · have := hlate hmem
    exact h.logged.flag.mpr (by omega)
  · have := hlate hmem
    have hinactive := h.jobs.stopped (by omega) j hj
    simp [worker, workerStep, hinactive]
  · have := hlate hmem
    rcases h.covered (by omega) with hfits | hidle
    · refine (h.jobs.drained (by omega)).imp (fun hnone j hj => ?_) fun ⟨t, ht, hle⟩ => ⟨t, ht, ?_⟩
      · rintro ⟨n, hn⟩
        cases (hnone j hj).symm.trans hn
      · have := le_setTimeoutMs hfits
        omega
    · exact .inl hidle

/-- **The application closes last**, if the jobs are stopped with their runs covered. -/
theorem closes_last {now : Int} {ls : List (WorkerLabel ι)}
    (r : Run (worker config registered) (StopsCovered config registered) (.serving now) ls s) :
    s.ClosesLast config registered :=
  (r.invariant Inv.serving fun _ _ _ h hs hg => h.step hs hg).closesLast

/-- **It closes early otherwise**: the drain is over after a millisecond. -/
theorem closes_early (hst : s.stage = .closed) (hnew : ∀ t, .jobsStopped t ∉ s.past) {j : ι}
    (hj : j ∈ registered) (hin : (s.job j).InFlight) (hlong : 2147483647 < config.jobDrainMs) :
    ∃ s', Run (worker config registered) Free s [.stop, .stopped, .pass 1, .timeout, .closeApp] s' ∧
      ¬ s'.ClosesLast config registered := by
  obtain ⟨n, hn⟩ := hin
  have hne : registered ≠ [] := List.ne_nil_of_mem hj
  have hrunning : (registered.filter fun j => (s.job j).isRunning) ≠ [] :=
    List.ne_nil_of_mem (List.mem_filter.mpr ⟨hj, by simp [RegisteredJob.isRunning, hn]⟩)
  let stopped : WorkerState ι :=
    { s with
      stage := .stopping (registered.filter fun j => (s.job j).isRunning)
      job := fun j => if j ∈ registered then { s.job j with active := false } else s.job j
      past := .jobsStopped s.now :: s.past }
  let idling : WorkerState ι :=
    { stopped with
      stage := .idling ((registered.filter fun j => (s.job j).isRunning).filterMap stopped.whenIdle)
        (s.now + 1) }
  have hstop : (worker config registered).step s .stop = some stopped := by
    simp [worker, workerStep, hst, stop, hne, stopped]
  have hidling : (worker config registered).step stopped .stopped = some idling := by
    have hmake : stopped.onStopped config (registered.filter fun j => (s.job j).isRunning) =
        idling := by
      rw [onStopped, if_neg hrunning, setTimeoutMs_of_lt hlong]
      rfl
    exact congrArg some hmake
  have htimeout : (worker config registered).step { idling with now := s.now + 1 } .timeout =
      some { idling with
        now := s.now + 1, stage := .drained, past := .drainTimeout :: idling.past } :=
    if_pos (Int.le_refl _)
  refine ⟨_, .cons hstop trivial (.cons hidling trivial (.cons rfl trivial
    (.cons htimeout trivial (.one rfl trivial)))), fun h => ?_⟩
  rcases h.idle List.mem_cons_self with hidle | ⟨t, hmem, hle⟩
  · exact hidle j hj ⟨n, by simp [idling, stopped, hj, hn]⟩
  · have hmem' : .jobsStopped t ∈ .closeApp :: .drainTimeout :: .jobsStopped s.now :: s.past := hmem
    have hle' : t + config.jobDrainMs ≤ s.now + 1 := hle
    have ht : t = s.now := by simpa [hnew t] using hmem'
    omega

/-- A job may be running when its worker has stopped serving. -/
theorem exists_running {j : ι} (hj : j ∈ registered) (now : Int) :
    ∃ ls s, Run (worker config registered) Free (.serving now) ls s ∧ s.stage = .closed ∧
      (∀ t, .jobsStopped t ∉ s.past) ∧ (s.job j).InFlight := by
  refine ⟨[.tick j, .signal, .pass (setTimeoutMs config.drainDelayMs), .delayed, .serverClosed], _,
    .cons (if_pos ⟨hj, rfl⟩) trivial (.cons rfl trivial (.cons rfl trivial
      (.cons (if_pos (Int.le_refl _)) trivial (.one rfl trivial)))), rfl, fun t => ?_, 0, ?_⟩ <;>
    simp [WorkerState.serving, RegisteredJob.isRunning, RegisteredJob.started, RegisteredJob.run,
    setJob, onSignal, onDelayed]

end WorkerState

/-- **The application closes last**, under any signals, timers, callbacks, ticks and runs, if the
jobs are stopped while none is in flight or with a drain that a timer holds.  So it closes last in
every run of a worker if and only if a timer holds its drain or it has no jobs. -/
theorem closes_app_last (config : ShutdownConfig) (registered : List ι) :
    (∀ now ls s, Run (worker config registered) (WorkerState.StopsCovered config registered)
        (.serving now) ls s → s.ClosesLast config registered) ∧
    ((∀ now ls s, Run (worker config registered) Free (.serving now) ls s →
        s.ClosesLast config registered) ↔
      config.jobDrainMs ≤ 2147483647 ∨ registered = []) := by
  refine ⟨fun _ _ _ r => WorkerState.closes_last r, fun h => ?_, fun h now ls s r => ?_⟩
  · by_contra hboth
    obtain ⟨hlong, hne⟩ := not_or.mp hboth
    obtain ⟨j, hj⟩ := List.exists_mem_of_ne_nil registered hne
    obtain ⟨ls, s, r, hst, hnew, hin⟩ := @WorkerState.exists_running ι _ config registered j hj 0
    obtain ⟨s', r', hearly⟩ := WorkerState.closes_early hst hnew hj hin (Nat.not_le.mp hlong)
    exact hearly (h 0 _ s' (r.append r'))
  · have hcovered : ∀ s : WorkerState ι, s.Covered config registered := fun s =>
      h.imp_right fun hnil j hj => by rw [hnil] at hj; cases hj
    exact (r.invariant WorkerState.Inv.serving fun s _ _ h hs _ =>
      h.step hs fun _ => hcovered s).closesLast

end

/-- A job that outlasts its drain of ten seconds. -/
theorem closes_app_last_defaults :
    ∃ s, (worker .defaults [()]).exec (.serving 0)
        [.tick (), .signal, .pass 5000, .delayed, .serverClosed, .stop, .stopped, .pass 10000,
          .timeout, .closeApp] = some s ∧
      s.past.head? = some .closeApp ∧ s.ClosesLast .defaults [()] := by
  have hrun : (worker .defaults [()]).exec (.serving 0)
      [.tick (), .signal, .pass 5000, .delayed, .serverClosed, .stop, .stopped, .pass 10000,
        .timeout, .closeApp] = some _ := rfl
  exact ⟨_, hrun, rfl, (closes_app_last .defaults [()]).1 0 _ _
    (.of_exec hrun fun _ _ _ _ _ => .inl (by decide))⟩

/-- A drain of 25 days, which no timer can hold. -/
def ShutdownConfig.monthly : ShutdownConfig := { defaults with jobDrainMs := 2160000000 }

/-- The application closes on a running job, one millisecond into its drain. -/
theorem closes_app_early :
    ∃ s, Run (worker .monthly [()]) Free (.serving 0)
        [.tick (), .signal, .pass 5000, .delayed, .serverClosed, .stop, .stopped, .pass 1,
          .timeout, .closeApp] s ∧
      (s.job ()).InFlight ∧ ¬ s.ClosesLast .monthly [()] := by
  refine ⟨_, .of_exec rfl fun _ _ _ _ => trivial, ⟨0, rfl⟩, fun h => ?_⟩
  rcases h.idle List.mem_cons_self with hidle | ⟨t, hmem, hle⟩
  · exact hidle () List.mem_cons_self ⟨0, rfl⟩
  · have hmem' : ShutdownEvent.jobsStopped t ∈ [.closeApp, .drainTimeout, .jobsStopped 5000,
      .serverClosed, .delayed, .delayStarted, .begun, .runStarted ()] := hmem
    have hle' : t + 2160000000 ≤ 5001 := hle
    obtain rfl : t = 5000 := by simpa using hmem'
    omega

end NestDdd.Lifecycle

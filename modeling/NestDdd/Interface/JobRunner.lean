import Mathlib.Data.Rat.Defs
import Mathlib.Logic.Function.Basic
import NestDdd.Runs.Machine

/-!
# Interface — the runner of a job

`JobRunner` (`src/interface/scheduler/job-runner.ts`): cron ticks call `run`, a shutdown calls
`whenIdle`, and a job ends when it likes, well or not.  A step ends where the code awaits: a tick
runs the job up to its first `await`; then the job's promise settles, `execute` goes on behind its
`await`, the callback of `finally` clears `current`, and whoever awaits that promise goes on, each
in a step of its own and in any order with everything else.  The logger and the metrics do not
throw, and a job does not call its own runner.

* `step_takes`: what a step may do.
* `Sound` ties `current` to what has happened, and every step keeps it (`sound_step`).
* `counted`: each tick has started an execution or is counted as skipped.
* `job_runner_contract`: what the runner promises in every state of every run.
-/

namespace NestDdd.Interface

open Runs

/-- `Metrics.jobRuns`. -/
def jobRuns : String := "scheduled_job_runs_total"

/-- `Metrics.jobDuration`. -/
def jobDuration : String := "scheduled_job_duration_seconds"

/-- What the runner tells its logger and its metrics; `ε` is what may be thrown. -/
inductive JobEffect (ε : Type) where
  | warn (message job reason : String)
  | info (message job : String) (durationMs : Int)
  | error (message job : String) (durationMs : Int) (error : ε)
  | increment (name job outcome : String)
  | observe (name : String) (value : Rat) (job : String)

/-- How far an execution is.  `execute` awaits the job, has yet to go on behind its `await`, or has
settled; `finished`: the callback of `finally` has run, and the promise in `current` settles. -/
inductive Execution (ε : Type) where
  | running (started : Int)
  | ended (started : Int) (r : Except ε Unit)
  | executed (r : Except ε Unit)
  | finished (r : Except ε Unit)

/-- A call of `run` or `whenIdle`: what it awaits, an execution or nothing, or how it settled. -/
inductive RunnerCall (ε : Type) where
  | awaiting (e : Option ℕ)
  | settled (r : Except ε Unit)

inductive RunnerEvent (κ : Type) where
  | started (c : κ) (e : ℕ)
  | skipped (c : κ)
  | finished (e : ℕ)

/-- The executions are numbered; `next` is the number of the next one.  `past` has the newest event
first. -/
structure RunnerState (κ ε : Type) where
  current : Option ℕ
  next : ℕ
  execution : ℕ → Option (Execution ε)
  calls : κ → Option (RunnerCall ε)
  effects : List (JobEffect ε)
  past : List (RunnerEvent κ)

/-- A cron tick, with what the clock reads and what the job throws at once; a call of `whenIdle`;
the job's promise settles; `execute` goes on, reading the clock twice; the callback of `finally`;
a call goes on behind its `await`. -/
inductive RunnerLabel (κ ε : Type) where
  | tick (c : κ) (now now' now'' : Int) (thrown : Option ε)
  | whenIdle (c : κ)
  | settle (e : ℕ) (r : Except ε Unit)
  | proceed (e : ℕ) (now now' : Int)
  | finalize (e : ℕ)
  | resume (c : κ)

variable {κ ε : Type}

/-- `record(outcome, started)`. -/
def record (job outcome : String) (started now : Int) : List (JobEffect ε) :=
  [.increment jobRuns job outcome, .observe jobDuration ((now - started : Int) / 1000) job]

/-- `execute` behind `this.job.run()`: what it tells, and how it settles. -/
def execute (job : String) (started now now' : Int) :
    Except ε Unit → List (JobEffect ε) × Except ε Unit
  | .ok () =>
      (.info "scheduler.job.finished" job (now - started) :: record job "succeeded" started now',
        .ok ())
  | .error error =>
      (.error "scheduler.job.failed" job (now - started) error :: record job "failed" started now',
        .ok ())

namespace RunnerState

/-- Nothing has run yet. -/
def start : RunnerState κ ε := ⟨none, 0, fun _ => none, fun _ => none, [], []⟩

def isRunning (s : RunnerState κ ε) : Bool := s.current.isSome

def setExecution (s : RunnerState κ ε) (e : ℕ) (x : Execution ε) : RunnerState κ ε :=
  { s with execution := Function.update s.execution e (some x) }

variable [DecidableEq κ] (job : String)

def setCall (s : RunnerState κ ε) (c : κ) (call : RunnerCall ε) : RunnerState κ ε :=
  { s with calls := Function.update s.calls c (some call) }

/-- `run` finds `current` set. -/
def skip (s : RunnerState κ ε) (c : κ) : RunnerState κ ε :=
  { s.setCall c (.settled (.ok ())) with
    effects := s.effects ++ [.warn "scheduler.job.skipped" job "still running",
      .increment jobRuns job "skipped"]
    past := .skipped c :: s.past }

/-- `run` finds `current` clear: `execute` runs up to its `await`, or through its `catch`. -/
def begin (s : RunnerState κ ε) (c : κ) (now now' now'' : Int) (thrown : Option ε) :
    RunnerState κ ε :=
  let s' := { s.setCall c (.awaiting (some s.next)) with
    current := some s.next
    next := s.next + 1
    past := .started c s.next :: s.past }
  match thrown with
  | none => s'.setExecution s.next (.running now)
  | some error =>
      let settled := execute job now now' now'' (.error error)
      { s'.setExecution s.next (.executed settled.2) with effects := s.effects ++ settled.1 }

/-- `run`. -/
def tick (s : RunnerState κ ε) (c : κ) (now now' now'' : Int) (thrown : Option ε) :
    RunnerState κ ε :=
  if s.isRunning then s.skip job c else s.begin job c now now' now'' thrown

def step (s : RunnerState κ ε) : RunnerLabel κ ε → Option (RunnerState κ ε)
  | .tick c now now' now'' thrown =>
      if (s.calls c).isNone then some (s.tick job c now now' now'' thrown) else none
  | .whenIdle c => if (s.calls c).isNone then some (s.setCall c (.awaiting s.current)) else none
  | .settle e r =>
      match s.execution e with
      | some (.running started) => some (s.setExecution e (.ended started r))
      | _ => none
  | .proceed e now now' =>
      match s.execution e with
      | some (.ended started r) =>
          let settled := execute job started now now' r
          some { s.setExecution e (.executed settled.2) with effects := s.effects ++ settled.1 }
      | _ => none
  | .finalize e =>
      match s.execution e with
      | some (.executed r) =>
          some { s.setExecution e (.finished r) with
            current := none
            past := .finished e :: s.past }
      | _ => none
  | .resume c =>
      match s.calls c with
      | some (.awaiting none) => some (s.setCall c (.settled (.ok ())))
      | some (.awaiting (some e)) =>
          match s.execution e with
          | some (.finished r) => some (s.setCall c (.settled r))
          | _ => none
      | _ => none

end RunnerState

def jobRunner [DecidableEq κ] (job : String) : Machine (RunnerState κ ε) (RunnerLabel κ ε) :=
  ⟨RunnerState.step job⟩

namespace RunnerState

/-- The steps of the runner. -/
inductive Takes [DecidableEq κ] (job : String) (s : RunnerState κ ε) :
    RunnerLabel κ ε → RunnerState κ ε → Prop where
  | skipped {c : κ} {now now' now'' : Int} {thrown : Option ε} {e : ℕ} (hc : s.calls c = none)
      (he : s.current = some e) :
      Takes job s (.tick c now now' now'' thrown) (s.skip job c)
  | begun {c : κ} {now now' now'' : Int} {thrown : Option ε} (hc : s.calls c = none)
      (hidle : s.current = none) :
      Takes job s (.tick c now now' now'' thrown) (s.begin job c now now' now'' thrown)
  | waited {c : κ} (hc : s.calls c = none) :
      Takes job s (.whenIdle c) (s.setCall c (.awaiting s.current))
  | settled {e : ℕ} {r : Except ε Unit} {started : Int}
      (he : s.execution e = some (.running started)) :
      Takes job s (.settle e r) (s.setExecution e (.ended started r))
  | proceeded {e : ℕ} {now now' started : Int} {r : Except ε Unit}
      (he : s.execution e = some (.ended started r)) :
      Takes job s (.proceed e now now')
        { s.setExecution e (.executed (execute job started now now' r).2) with
          effects := s.effects ++ (execute job started now now' r).1 }
  | finalized {e : ℕ} {r : Except ε Unit} (he : s.execution e = some (.executed r)) :
      Takes job s (.finalize e)
        { s.setExecution e (.finished r) with
          current := none
          past := .finished e :: s.past }
  | resumed {c : κ} (hc : s.calls c = some (.awaiting none)) :
      Takes job s (.resume c) (s.setCall c (.settled (.ok ())))
  | followed {c : κ} {e : ℕ} {r : Except ε Unit} (hc : s.calls c = some (.awaiting (some e)))
      (he : s.execution e = some (.finished r)) :
      Takes job s (.resume c) (s.setCall c (.settled r))

theorem step_takes [DecidableEq κ] {job : String} {s s' : RunnerState κ ε} {l : RunnerLabel κ ε}
    (hs : s.step job l = some s') : s.Takes job l s' := by
  cases l with
  | tick c now now' now'' thrown =>
      obtain ⟨hc, hs⟩ := Option.ite_none_right_eq_some.mp hs
      obtain rfl := Option.some.inj hs
      rw [Option.isNone_iff_eq_none] at hc
      unfold tick isRunning
      cases hcurrent : s.current with
      | none => exact .begun hc hcurrent
      | some e => exact .skipped hc hcurrent
  | whenIdle c =>
      obtain ⟨hc, hs⟩ := Option.ite_none_right_eq_some.mp hs
      obtain rfl := Option.some.inj hs
      exact .waited (Option.isNone_iff_eq_none.mp hc)
  | settle e r | proceed e now now' | finalize e =>
      simp only [step] at hs
      split at hs
      next he =>
        obtain rfl := Option.some.inj hs
        first | exact .settled he | exact .proceeded he | exact .finalized he
      next => cases hs
  | resume c =>
      simp only [step] at hs
      split at hs
      next hc =>
        obtain rfl := Option.some.inj hs
        exact .resumed hc
      next hc =>
        split at hs
        next he =>
          obtain rfl := Option.some.inj hs
          exact .followed hc he
        next => cases hs
      next => cases hs

/-- An execution has been started, and is not over. -/
def InFlight (s : RunnerState κ ε) (e : ℕ) : Prop :=
  (∃ c, .started c e ∈ s.past) ∧ .finished e ∉ s.past

/-! ### What every step keeps -/

structure Sound (s : RunnerState κ ε) : Prop where
  current : ∀ e, s.current = some e ↔ s.InFlight e
  fresh : ∀ e, s.next ≤ e → (∀ c, .started c e ∉ s.past) ∧ .finished e ∉ s.past
  /-- What has not come to its end is what `current` is for. -/
  pending : ∀ e x, s.execution e = some x → (∀ r, x ≠ .finished r) → s.current = some e
  going : ∀ e, s.current = some e → ∃ x, s.execution e = some x ∧ ∀ r, x ≠ .finished r
  ended : ∀ e, (∃ r, s.execution e = some (.finished r)) ↔ .finished e ∈ s.past
  execution : ∀ e r, s.execution e = some (.executed r) ∨ s.execution e = some (.finished r) →
    r = .ok ()
  calls : ∀ c r, s.calls c = some (.settled r) → r = .ok ()

variable {s s' : RunnerState κ ε} {e : ℕ} {c : κ}

theorem sound_start : (start : RunnerState κ ε).Sound where
  current _ := ⟨nofun, fun h => nomatch h.1.choose_spec⟩
  fresh _ _ := ⟨fun _ => List.not_mem_nil, List.not_mem_nil⟩
  pending _ _ h := nomatch h
  going _ h := nomatch h
  ended _ := ⟨nofun, nofun⟩
  execution _ _ h := h.elim nofun nofun
  calls _ _ h := nomatch h

/-- What is told changes nothing. -/
theorem Sound.tell (h : s.Sound) (effects : List (JobEffect ε)) :
    { s with effects := effects }.Sound :=
  ⟨h.current, h.fresh, h.pending, h.going, h.ended, h.execution, h.calls⟩

theorem execution_setExecution {e' : ℕ} {x x' : Execution ε} :
    (s.setExecution e x).execution e' = some x' ↔
      (e' = e ∧ x = x') ∨ (e' ≠ e ∧ s.execution e' = some x') := by
  by_cases heq : e' = e
  · subst heq
    simp [setExecution]
  · simp [setExecution, heq]

theorem finished_setExecution {e' : ℕ} {x : Execution ε} (hover : ∀ r, x ≠ .finished r)
    (he : ¬ ∃ r, s.execution e = some (.finished r)) :
    (∃ r, (s.setExecution e x).execution e' = some (.finished r)) ↔
      ∃ r, s.execution e' = some (.finished r) := by
  constructor
  · rintro ⟨r, hr⟩
    rcases execution_setExecution.mp hr with ⟨-, hr⟩ | ⟨-, hr⟩
    · exact absurd hr (hover r)
    · exact ⟨r, hr⟩
  · rintro ⟨r, hr⟩
    refine ⟨r, execution_setExecution.mpr (.inr ⟨?_, hr⟩)⟩
    rintro rfl
    exact he ⟨r, hr⟩

theorem ok_setExecution {e' : ℕ} {x : Execution ε} (hover : ∀ r, x ≠ .finished r)
    (hx : ∀ r, x = .executed r → r = .ok ())
    (h : ∀ e r, s.execution e = some (.executed r) ∨ s.execution e = some (.finished r) →
      r = .ok ())
    {r : Except ε Unit} (hr : (s.setExecution e x).execution e' = some (.executed r) ∨
      (s.setExecution e x).execution e' = some (.finished r)) : r = .ok () := by
  rw [execution_setExecution, execution_setExecution] at hr
  rcases hr with (⟨-, hr⟩ | ⟨-, hr⟩) | ⟨-, hr⟩ | ⟨-, hr⟩
  · exact hx r hr
  · exact h e' r (.inl hr)
  · exact absurd hr (hover r)
  · exact h e' r (.inr hr)

/-- An execution goes on. -/
theorem Sound.setExecution (h : s.Sound) {x : Execution ε} (he : s.current = some e)
    (hover : ∀ r, x ≠ .finished r) (hx : ∀ r, x = .executed r → r = .ok ()) :
    (s.setExecution e x).Sound := by
  refine ⟨h.current, h.fresh, fun e' x' hx' hover' => ?_, fun e' he' => ?_, fun e' => ?_,
    fun e' r hr => ?_, h.calls⟩
  · rcases execution_setExecution.mp hx' with ⟨rfl, -⟩ | ⟨-, hx'⟩
    · exact he
    · exact h.pending e' x' hx' hover'
  · obtain rfl : e = e' := Option.some.inj (he.symm.trans he')
    exact ⟨x, execution_setExecution.mpr (.inl ⟨rfl, rfl⟩), hover⟩
  · exact (finished_setExecution hover fun hr => ((h.current e).mp he).2 ((h.ended e).mp hr)).trans
      (h.ended e')
  · exact ok_setExecution hover hx h.execution hr

theorem execute_ok (job : String) (started now now' : Int) (r : Except ε Unit) :
    (execute job started now now' r).2 = .ok () := by
  cases r <;> rfl

/-- The callback of `finally`. -/
theorem Sound.finalize (h : s.Sound) {r : Except ε Unit} (he : s.execution e = some (.executed r)) :
    ({ s.setExecution e (.finished r) with
      current := none
      past := .finished e :: s.past }).Sound := by
  have hcurrent := h.pending e _ he fun _ => nofun
  refine ⟨fun e' => ⟨nofun, fun ⟨⟨c, hc⟩, hover⟩ => ?_⟩, fun e' hle => ?_,
    fun e' x hx hover => ?_, nofun, fun e' => ?_, fun e' r' hr => ?_, h.calls⟩
  · -- nothing else was in flight
    rw [List.mem_cons, not_or] at hover
    have hstarted : .started c e' ∈ s.past := (List.mem_cons.mp hc).resolve_left nofun
    have he' := (h.current e').mpr ⟨⟨c, hstarted⟩, hover.2⟩
    rw [hcurrent] at he'
    exact absurd (congrArg _ (Option.some.inj he').symm) hover.1
  · obtain ⟨hstarted, hover⟩ := h.fresh e' hle
    refine ⟨fun c hc => hstarted c ((List.mem_cons.mp hc).resolve_left nofun), fun hmem => ?_⟩
    rcases List.mem_cons.mp hmem with heq | hmem
    · obtain ⟨⟨c, hc⟩, -⟩ := (h.current e).mp hcurrent
      exact hstarted c (RunnerEvent.finished.inj heq ▸ hc)
    · exact hover hmem
  · rcases execution_setExecution.mp hx with ⟨-, hx⟩ | ⟨hne, hx⟩
    · exact absurd hx.symm (hover r)
    · have he' := h.pending e' x hx hover
      rw [hcurrent] at he'
      exact absurd (Option.some.inj he').symm hne
  · by_cases heq : e' = e
    · subst heq
      exact iff_of_true ⟨r, execution_setExecution.mpr (.inl ⟨rfl, rfl⟩)⟩ List.mem_cons_self
    · rw [List.mem_cons, or_iff_right (fun h => heq (RunnerEvent.finished.inj h)), ← h.ended e']
      refine exists_congr fun r' => execution_setExecution.trans ?_
      rw [or_iff_right (fun h => heq h.1), and_iff_right heq]
  · refine h.execution e' r' ?_
    rcases hr with hr | hr
    · rcases execution_setExecution.mp hr with ⟨-, hr⟩ | ⟨-, hr⟩
      · cases hr
      · exact .inl hr
    · rcases execution_setExecution.mp hr with ⟨rfl, heq⟩ | ⟨-, hr⟩
      · exact .inl (Execution.finished.inj heq ▸ he)
      · exact .inr hr

section

variable [DecidableEq κ] (job : String)

theorem calls_setCall {c' : κ} {call call' : RunnerCall ε} :
    (s.setCall c call).calls c' = some call' ↔
      (c' = c ∧ call = call') ∨ (c' ≠ c ∧ s.calls c' = some call') := by
  by_cases heq : c' = c
  · subst heq
    simp [setCall]
  · simp [setCall, heq]

theorem Sound.setCall (h : s.Sound) {call : RunnerCall ε}
    (hcall : ∀ r, call = .settled r → r = .ok ()) : (s.setCall c call).Sound := by
  refine ⟨h.current, h.fresh, h.pending, h.going, h.ended, h.execution, fun c' r hr => ?_⟩
  rcases calls_setCall.mp hr with ⟨-, hr⟩ | ⟨-, hr⟩
  · exact hcall r hr
  · exact h.calls c' r hr

theorem inFlight_skip : (s.skip job c).InFlight e ↔ s.InFlight e := by
  simp [InFlight, RunnerState.skip]

theorem Sound.skip (h : s.Sound) : (s.skip job c).Sound := by
  have hcall : (s.setCall c (.settled (.ok ()))).Sound :=
    h.setCall fun r hr => (RunnerCall.settled.inj hr).symm
  refine ⟨fun e => (h.current e).trans (inFlight_skip job).symm, fun e hle => ?_, hcall.pending,
    hcall.going, fun e => (h.ended e).trans ?_, hcall.execution, hcall.calls⟩
  · simpa [RunnerState.skip] using h.fresh e hle
  · simp [RunnerState.skip]

/-- An execution begins where none is in flight. -/
theorem Sound.begun (h : s.Sound) (hidle : s.current = none) {x : Execution ε}
    (hover : ∀ r, x ≠ .finished r) (hx : ∀ r, x = .executed r → r = .ok ()) :
    ({ (s.setCall c (.awaiting (some s.next))).setExecution s.next x with
      current := some s.next
      next := s.next + 1
      past := .started c s.next :: s.past } : RunnerState κ ε).Sound := by
  have hcall : (s.setCall c (.awaiting (some s.next))).Sound := h.setCall (by rintro _ ⟨⟩)
  obtain ⟨hnew, hnewOver⟩ := h.fresh s.next le_rfl
  have hpast {e : ℕ} :
      .finished e ∈ RunnerEvent.started c s.next :: s.past ↔ .finished e ∈ s.past := by
    simp
  refine ⟨fun e => ?_, fun e hle => ?_, fun e x' hx' hover' => ?_, fun e he => ?_, fun e => ?_,
    fun e r hr => ?_, hcall.calls⟩
  · constructor
    · intro he
      obtain rfl := Option.some.inj he
      exact ⟨⟨c, List.mem_cons_self⟩, fun hmem => hnewOver (hpast.mp hmem)⟩
    · rintro ⟨⟨c', hc'⟩, hover'⟩
      rcases List.mem_cons.mp hc' with heq | hc'
      · rw [(RunnerEvent.started.inj heq).2]
      · have he := (h.current e).mpr ⟨⟨c', hc'⟩, fun hmem => hover' (hpast.mpr hmem)⟩
        rw [hidle] at he
        cases he
  · have hlt : s.next < e := hle
    obtain ⟨hstarted, hnotOver⟩ := h.fresh e hlt.le
    refine ⟨fun c' hmem => ?_, fun hmem => hnotOver (hpast.mp hmem)⟩
    rcases List.mem_cons.mp hmem with heq | hmem
    · exact hlt.ne (RunnerEvent.started.inj heq).2.symm
    · exact hstarted c' hmem
  · rcases execution_setExecution.mp hx' with ⟨rfl, -⟩ | ⟨-, hx'⟩
    · rfl
    · have he := h.pending e x' hx' hover'
      rw [hidle] at he
      cases he
  · obtain rfl := Option.some.inj he
    exact ⟨x, execution_setExecution.mpr (.inl ⟨rfl, rfl⟩), hover⟩
  · exact (finished_setExecution (s := s.setCall c _) hover fun hr => hnewOver
      ((h.ended s.next).mp hr)).trans ((h.ended e).trans hpast.symm)
  · exact ok_setExecution hover hx hcall.execution hr

theorem Sound.begin (h : s.Sound) (hidle : s.current = none) (now now' now'' : Int)
    (thrown : Option ε) : (s.begin job c now now' now'' thrown).Sound := by
  unfold RunnerState.begin
  cases thrown with
  | none => exact h.begun hidle (fun _ => nofun) fun _ => nofun
  | some error =>
      have hexecuted := h.begun (c := c) hidle
        (x := .executed (execute job now now' now'' (.error error)).2) (fun _ => nofun)
        fun r hr => (Execution.executed.inj hr).symm.trans (execute_ok job now now' now'' _)
      exact hexecuted.tell _

/-- **Every step keeps the runner sound.** -/
theorem sound_step (h : s.Sound) {l : RunnerLabel κ ε} (hs : s.step job l = some s') :
    s'.Sound := by
  cases step_takes hs with
  | skipped hc he => exact h.skip job
  | begun hc hidle => exact h.begin job hidle _ _ _ _
  | waited hc => exact h.setCall (by rintro _ ⟨⟩)
  | settled he =>
      exact h.setExecution (h.pending _ _ he fun _ => nofun) (fun _ => nofun) fun _ => nofun
  | @proceeded e now now' started r he =>
      have hexecuted := h.setExecution (x := .executed (execute job started now now' r).2)
        (h.pending e _ he fun _ => nofun) (fun _ => nofun)
        fun r' hr' => (Execution.executed.inj hr').symm.trans (execute_ok job started now now' r)
      exact hexecuted.tell _
  | finalized he => exact h.finalize he
  | resumed hc => exact h.setCall fun r hr => (RunnerCall.settled.inj hr).symm
  | followed hc he =>
      exact h.setCall fun r' hr' => (RunnerCall.settled.inj hr') ▸ h.execution _ _ (.inr he)

theorem Sound.run (h : s.Sound) {G : RunnerState κ ε → RunnerLabel κ ε → RunnerState κ ε → Prop}
    {ls : List (RunnerLabel κ ε)} (r : Run (jobRunner job) G s ls s') : s'.Sound :=
  r.invariant h fun _ _ _ hsound hs _ => sound_step job hsound hs

end

end RunnerState

/-! ### Ticks, counted -/

def RunnerLabel.isTick : RunnerLabel κ ε → Bool
  | .tick .. => true
  | _ => false

def RunnerEvent.isStart : RunnerEvent κ → Bool
  | .started .. => true
  | _ => false

def RunnerEvent.isSkip : RunnerEvent κ → Bool
  | .skipped _ => true
  | _ => false

/-- A run counted as skipped. -/
def JobEffect.isSkip : JobEffect ε → Bool
  | .increment name _ outcome => name == jobRuns && outcome == "skipped"
  | _ => false

theorem countP_execute (job : String) (started now now' : Int) (r : Except ε Unit) :
    (execute job started now now' r).1.countP JobEffect.isSkip = 0 := by
  cases r <;> simp [execute, record, JobEffect.isSkip]

namespace RunnerState

variable {s s' : RunnerState κ ε} {e : ℕ} {c : κ}

def starts (s : RunnerState κ ε) : ℕ := s.past.countP RunnerEvent.isStart

def skips (s : RunnerState κ ε) : ℕ := s.past.countP RunnerEvent.isSkip

def skipsCounted (s : RunnerState κ ε) : ℕ := s.effects.countP JobEffect.isSkip

section

variable [DecidableEq κ] (job : String)

/-- A tick starts an execution or is skipped; nothing else does either. -/
theorem counts_step {l : RunnerLabel κ ε} (hs : s.step job l = some s') :
    s'.starts + s'.skips = s.starts + s.skips + (if l.isTick then 1 else 0) ∧
      s'.skipsCounted + s.skips = s.skipsCounted + s'.skips := by
  cases step_takes hs with
  | skipped hc he =>
      simp [RunnerState.skip, starts, skips, skipsCounted, setCall, List.countP_cons,
        RunnerEvent.isStart, RunnerEvent.isSkip, JobEffect.isSkip, RunnerLabel.isTick]
      omega
  | @begun c now now' now'' thrown hc hidle =>
      unfold RunnerState.begin
      cases thrown with
      | none =>
          simp [starts, skips, skipsCounted, setExecution, setCall, List.countP_cons,
            RunnerEvent.isStart, RunnerEvent.isSkip, RunnerLabel.isTick]
          omega
      | some error =>
          simp [starts, skips, skipsCounted, setExecution, setCall, List.countP_cons,
            RunnerEvent.isStart, RunnerEvent.isSkip, RunnerLabel.isTick, countP_execute]
          omega
  | proceeded he =>
      refine ⟨rfl, ?_⟩
      simp [skips, skipsCounted, setExecution, countP_execute]
  | _ => exact ⟨rfl, rfl⟩

/-- **Each tick has started an execution or is counted once as skipped.** -/
theorem counted {G : RunnerState κ ε → RunnerLabel κ ε → RunnerState κ ε → Prop}
    {ls : List (RunnerLabel κ ε)} (r : Run (jobRunner job) G start ls s) :
    s.starts + s.skips = ls.countP RunnerLabel.isTick ∧ s.skipsCounted = s.skips := by
  induction r with
  | nil => exact ⟨rfl, rfl⟩
  | snoc r hs g ih =>
      obtain ⟨hticks, hskips⟩ := ih
      obtain ⟨hticks', hskips'⟩ := counts_step job hs
      rw [List.countP_append, List.countP_singleton]
      exact ⟨hticks'.trans (by rw [hticks]), by omega⟩

/-! ### From one step to the next -/

/-- What has happened, and what a call awaits until it goes on, stays. -/
theorem frame_step {l : RunnerLabel κ ε} (hs : s.step job l = some s') : s.past ⊆ s'.past ∧
    ∀ c call, s.calls c = some call → l ≠ .resume c → s'.calls c = some call := by
  -- a call that is new is none of those before, and a resumed one is none of the others
  have hcalls {c : κ} {call' : RunnerCall ε} (hnew : s.calls c = none ∨ l = .resume c) :
      ∀ c' call, s.calls c' = some call → l ≠ .resume c' →
        (s.setCall c call').calls c' = some call := by
    intro c' call hcall hne
    refine calls_setCall.mpr (.inr ⟨?_, hcall⟩)
    rintro rfl
    rcases hnew with hnew | hl
    · rw [hcall] at hnew
      cases hnew
    · exact hne hl
  cases step_takes hs with
  | skipped hc he => exact ⟨List.subset_cons_self _ _, hcalls (.inl hc)⟩
  | @begun c now now' now'' thrown hc hidle =>
      unfold RunnerState.begin
      cases thrown with
      | none => exact ⟨List.subset_cons_self _ _, hcalls (.inl hc)⟩
      | some error => exact ⟨List.subset_cons_self _ _, hcalls (.inl hc)⟩
  | waited hc => exact ⟨List.Subset.refl _, hcalls (.inl hc)⟩
  | settled he => exact ⟨List.Subset.refl _, fun _ _ hcall _ => hcall⟩
  | proceeded he => exact ⟨List.Subset.refl _, fun _ _ hcall _ => hcall⟩
  | finalized he => exact ⟨List.subset_cons_self _ _, fun _ _ hcall _ => hcall⟩
  | resumed hc => exact ⟨List.Subset.refl _, hcalls (.inr rfl)⟩
  | followed hc he => exact ⟨List.Subset.refl _, hcalls (.inr rfl)⟩

/-- A call that awaits an execution goes on only when that is over. -/
theorem awaits_step (h : s.Sound) {l : RunnerLabel κ ε} (hs : s.step job l = some s')
    (hc : s.calls c = some (.awaiting (some e)) ∨ .finished e ∈ s.past) :
    s'.calls c = some (.awaiting (some e)) ∨ .finished e ∈ s'.past := by
  obtain ⟨hpast, hcalls⟩ := frame_step job hs
  rcases hc with hc | hover
  · by_cases hl : l = .resume c
    · subst hl
      simp only [step, hc] at hs
      split at hs
      next r he => exact .inr (hpast ((h.ended e).mp ⟨r, he⟩))
      next => cases hs
    · exact .inl (hcalls c _ hc hl)
  · exact .inr (hpast hover)

/-- No cron tick. -/
def NoTick : RunnerState κ ε → RunnerLabel κ ε → RunnerState κ ε → Prop :=
  fun _ l _ => l.isTick = false

/-- Only a tick sets `current`. -/
theorem idle_step {l : RunnerLabel κ ε} (hs : s.step job l = some s') (hl : l.isTick = false)
    (hidle : s.current = none) : s'.current = none := by
  cases step_takes hs with
  | skipped hc he => cases hl
  | begun hc hidle => cases hl
  | finalized he => rfl
  | _ => exact hidle

/-- A tick that finds nothing in flight. -/
theorem tick_idle (hidle : s.current = none) (now now' now'' : Int) (thrown : Option ε) :
    (s.tick job c now now' now'' thrown).past = .started c s.next :: s.past ∧
      (s.tick job c now now' now'' thrown).current = some s.next := by
  have htick : s.tick job c now now' now'' thrown = s.begin job c now now' now'' thrown := by
    rw [RunnerState.tick, isRunning, hidle]
    rfl
  rw [htick]
  unfold RunnerState.begin
  cases thrown <;> exact ⟨rfl, rfl⟩

/-- An execution whose job has settled comes to its end. -/
theorem Sound.ends (h : s.Sound) (he : s.current = some e) :
    (∃ started, s.execution e = some (.running started)) ∨
      ∃ ls s', Run (jobRunner job) NoTick s ls s' ∧ .finished e ∈ s'.past := by
  have hfinalize {s : RunnerState κ ε} {r : Except ε Unit}
      (hr : s.execution e = some (.executed r)) :
      ∃ s', Run (jobRunner job) NoTick s [.finalize e] s' ∧ .finished e ∈ s'.past := by
    refine ⟨{ s.setExecution e (.finished r) with current := none, past := .finished e :: s.past },
      .one ?_ rfl, List.mem_cons_self⟩
    simp only [jobRunner, step, hr]
  obtain ⟨x, hx, hover⟩ := h.going e he
  cases x with
  | running started => exact .inl ⟨started, hx⟩
  | ended started r =>
      let settled := execute job started 0 0 r
      let s₁ := { s.setExecution e (.executed settled.2) with effects := s.effects ++ settled.1 }
      have hproceed : (jobRunner job).step s (.proceed e 0 0) = some s₁ := by
        simp only [jobRunner, step, hx]
        rfl
      obtain ⟨s₂, r₂, hmem⟩ := hfinalize (s := s₁) (execution_setExecution.mpr (.inl ⟨rfl, rfl⟩))
      exact .inr ⟨_, s₂, .cons hproceed rfl r₂, hmem⟩
  | executed r =>
      obtain ⟨s', r', hmem⟩ := hfinalize hx
      exact .inr ⟨_, s', r', hmem⟩
  | finished r => exact absurd rfl (hover r)

end

/-! ### The contract -/

/-- What the runner of `job` promises in a state. -/
structure Contract [DecidableEq κ] (job : String) (s : RunnerState κ ε) : Prop where
  atMostOne : ∀ e e', s.InFlight e → s.InFlight e' → e = e'
  isRunning : s.isRunning = true ↔ ∃ e, s.InFlight e
  /-- A tick during an execution is skipped, and counted once. -/
  skips : ∀ c now now' now'' thrown, s.calls c = none → (∃ e, s.InFlight e) →
    ∃ s', s.step job (.tick c now now' now'' thrown) = some s' ∧ s'.past = .skipped c :: s.past ∧
      s'.skipsCounted = s.skipsCounted + 1 ∧ s'.calls c = some (.settled (.ok ()))
  /-- Any other tick starts a new execution. -/
  starts : ∀ c now now' now'' thrown, s.calls c = none → (¬ ∃ e, s.InFlight e) →
    ∃ s', s.step job (.tick c now now' now'' thrown) = some s' ∧
      s'.past = .started c s.next :: s.past ∧ s'.skipsCounted = s.skipsCounted ∧
        (∀ c', .started c' s.next ∉ s.past) ∧ s'.InFlight s.next
  neverRejects : ∀ c r, s.calls c = some (.settled r) → r = .ok ()
  /-- When `whenIdle` has resolved, the execution that it found in flight is over. -/
  waits : ∀ c s₁, s.step job (.whenIdle c) = some s₁ → ∀ ls s₂, Run (jobRunner job) Free s₁ ls s₂ →
    ∀ r, s₂.calls c = some (.settled r) → ∀ e, s.InFlight e →
      .finished e ∈ s₂.past ∧ s₂.current ≠ some e
  /-- A call that awaits nothing, or what is over, may go on. -/
  resumes : ∀ c e, s.calls c = some (.awaiting e) → (∀ n, e = some n → .finished n ∈ s.past) →
    (s.step job (.resume c)).isSome
  /-- An execution is over once its job has settled and the microtasks have run. -/
  ends : ∀ e, s.InFlight e → (∃ started, s.execution e = some (.running started)) ∨
    ∃ ls s', Run (jobRunner job) NoTick s ls s' ∧ .finished e ∈ s'.past
  /-- When an execution has ended, well or not, the next tick starts a new one. -/
  again : ∀ e s₁, s.step job (.finalize e) = some s₁ →
    ∀ ls s₂, Run (jobRunner job) NoTick s₁ ls s₂ →
    ∀ c now now' now'' thrown s₃, s₂.step job (.tick c now now' now'' thrown) = some s₃ →
      s₃.past = .started c s₂.next :: s₂.past

theorem Sound.contract [DecidableEq κ] (job : String) (h : s.Sound) : s.Contract job where
  atMostOne e e' he he' :=
    Option.some.inj (((h.current e).mpr he).symm.trans ((h.current e').mpr he'))
  isRunning := by
    rw [RunnerState.isRunning, Option.isSome_iff_exists]
    exact exists_congr h.current
  skips c now now' now'' thrown hc he := by
    obtain ⟨e, he⟩ := he
    have hcurrent := (h.current e).mpr he
    have htick : s.tick job c now now' now'' thrown = s.skip job c := by
      rw [RunnerState.tick, RunnerState.isRunning, hcurrent]
      rfl
    refine ⟨s.skip job c, ?_, rfl, ?_, calls_setCall.mpr (.inl ⟨rfl, rfl⟩)⟩
    · rw [step, hc, htick]
      rfl
    · simp [RunnerState.skip, skipsCounted, JobEffect.isSkip]
  starts c now now' now'' thrown hc hidle := by
    have hcurrent : s.current = none := by
      refine Option.eq_none_iff_forall_ne_some.mpr fun e he => hidle ⟨e, (h.current e).mp he⟩
    have hs : s.step job (.tick c now now' now'' thrown) =
        some (s.tick job c now now' now'' thrown) := by
      rw [step, hc]
      rfl
    obtain ⟨hpast, hcurrent'⟩ := tick_idle (c := c) job hcurrent now now' now'' thrown
    have hcounts := counts_step job hs
    have hskips : (s.tick job c now now' now'' thrown).skips = s.skips := by
      simp [RunnerState.skips, hpast, RunnerEvent.isSkip]
    refine ⟨_, hs, hpast, by omega, (h.fresh s.next le_rfl).1, ?_⟩
    exact ((sound_step job h hs).current s.next).mp hcurrent'
  neverRejects := h.calls
  waits c s₁ hs ls s₂ r result hresult e he := by
    have hcurrent := (h.current e).mpr he
    have hc : s₁.calls c = some (.awaiting (some e)) := by
      cases step_takes hs with
      | waited hnew => exact calls_setCall.mpr (.inl ⟨rfl, by rw [hcurrent]⟩)
    have h₁ := sound_step job h hs
    have hkept : s₂.Sound ∧ (s₂.calls c = some (.awaiting (some e)) ∨ .finished e ∈ s₂.past) :=
      r.invariant (I := fun s => s.Sound ∧ (s.calls c = some (.awaiting (some e)) ∨
          .finished e ∈ s.past)) ⟨h₁, .inl hc⟩ fun _ _ _ hinv hs _ =>
        ⟨sound_step job hinv.1 hs, awaits_step job hinv.1 hs hinv.2⟩
    obtain ⟨h₂, hawaits | hover⟩ := hkept
    · rw [hresult] at hawaits
      cases hawaits
    · exact ⟨hover, fun he₂ => ((h₂.current e).mp he₂).2 hover⟩
  resumes c e hc hover := by
    cases e with
    | none =>
        rw [step, hc]
        rfl
    | some e =>
        obtain ⟨r, hr⟩ := (h.ended e).mpr (hover e rfl)
        simp only [step, hc, hr]
        rfl
  ends e he := h.ends job ((h.current e).mpr he)
  again e s₁ hs ls s₂ r c now now' now'' thrown s₃ hs₃ := by
    have hidle : s₁.current = none := by
      cases step_takes hs with
      | finalized he => rfl
    have hidle₂ : s₂.current = none :=
      r.invariant (I := fun s => s.current = none) hidle fun _ _ _ hidle hs hl =>
        idle_step job hs hl hidle
    obtain ⟨-, hs₃⟩ := Option.ite_none_right_eq_some.mp hs₃
    obtain rfl := Option.some.inj hs₃
    exact (tick_idle job hidle₂ now now' now'' thrown).1

end RunnerState

open RunnerState

/-- **The runner keeps its contract**, in every state of every run; and each tick has started an
execution or is counted once as skipped. -/
theorem job_runner_contract [DecidableEq κ] (job : String) {s : RunnerState κ ε}
    {ls : List (RunnerLabel κ ε)} (r : Run (jobRunner job) Free start ls s) :
    s.Contract job ∧ s.starts + s.skips = ls.countP RunnerLabel.isTick ∧
      s.skipsCounted = s.skips :=
  ⟨(sound_start.run job r).contract job, counted job r⟩

/-- A tick while the job runs, the job fails, and a tick behind its end. -/
theorem job_runner_contract_failed :
    ∃ ls s, Run (jobRunner "tickets.closeStale") Free (start : RunnerState ℕ String) ls s ∧
      s.past = [.started 3 1, .finished 0, .skipped 1, .started 0 0] ∧
        s.Contract "tickets.closeStale" := by
  let ls : List (RunnerLabel ℕ String) := [.tick 0 0 0 0 none, .tick 1 5 5 5 none, .whenIdle 2,
    .settle 0 (.error "boom"), .proceed 0 9 9, .finalize 0, .resume 2, .tick 3 10 10 10 none]
  have hpast : ((jobRunner "tickets.closeStale").exec start ls).map RunnerState.past =
      some [.started 3 1, .finished 0, .skipped 1, .started 0 0] := rfl
  obtain ⟨s, hs, hpast⟩ := Option.map_eq_some_iff.mp hpast
  have r := Run.of_exec (G := Free) hs fun _ _ _ _ => trivial
  exact ⟨ls, s, r, hpast, (job_runner_contract _ r).1⟩

end NestDdd.Interface

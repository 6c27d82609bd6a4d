import NestDdd.Runs.Machine
import Mathlib.Data.Int.Order.Basic
import Mathlib.Data.List.Basic

/-!
# Http — the circuit breaker

`CircuitBreaker` (`src/infrastructure/http/circuit-breaker.ts`), and calls that go through one
breaker in any order: a call asks `blockedForMs`, and if it is admitted records one success or one
failure, however much later.  `BreakerState` keeps what the calls did, newest first, which is no
part of the program.

* `Inv.step`: while it is closed the breaker counts the failures since the last success; while it is
  half-open one call has been admitted, which is in flight.
* `Inv.admits_after_reset`: a breaker with no call in flight admits the next call once `resetMs`
  has passed since it last opened.
-/

namespace NestDdd.Http

open Runs

/-! ### The breaker -/

/-- The options, within the bounds of `httpClientSchema`. -/
structure CircuitBreakerOptions where
  failureThreshold : Nat
  resetMs : Int
  failureThreshold_pos : 0 < failureThreshold
  resetMs_pos : 0 < resetMs

/-- The defaults of `httpClientSchema`. -/
def CircuitBreakerOptions.defaults : CircuitBreakerOptions := ⟨5, 30000, by decide, by decide⟩

inductive CircuitState where
  | closed
  | opened
  | halfOpen
  deriving DecidableEq

structure CircuitBreaker where
  state : CircuitState
  failures : Nat
  openedAt : Int
  trialInFlight : Bool

/-- A new breaker. -/
def CircuitBreaker.fresh : CircuitBreaker := ⟨.closed, 0, 0, false⟩

namespace CircuitBreaker

section

variable (options : CircuitBreakerOptions) (now : Int) (b : CircuitBreaker)

/-- `none` when the call may proceed, or how long until the next attempt is allowed; and the
breaker after that. -/
def blockedForMs : Option Int × CircuitBreaker :=
  if b.state = .closed then (none, b)
  else
    let elapsed := now - b.openedAt
    let b :=
      if b.state = .opened ∧ elapsed ≥ options.resetMs then
        { b with state := .halfOpen, trialInFlight := false }
      else b
    if b.state = .halfOpen then
      if b.trialInFlight then (some options.resetMs, b)
      else (none, { b with trialInFlight := true })
    else (some (max 0 (options.resetMs - elapsed)), b)

def recordSuccess : CircuitBreaker :=
  { b with state := .closed, failures := 0, trialInFlight := false }

/-- `this.open()`. -/
def openNow : CircuitBreaker := { b with state := .opened, openedAt := now, failures := 0 }

def recordFailure : CircuitBreaker :=
  let b := { b with trialInFlight := false }
  if b.state = .halfOpen then b.openNow now
  else
    let b := { b with failures := b.failures + 1 }
    if b.failures ≥ options.failureThreshold then b.openNow now else b

/-- The next `recordFailure` calls `open`. -/
def opens : Bool := b.state = .halfOpen || b.failures + 1 ≥ options.failureThreshold

end

variable {options : CircuitBreakerOptions} {now : Int} {b b' : CircuitBreaker}

/-- What `blockedForMs` may do. -/
inductive Asked (options : CircuitBreakerOptions) (now : Int) (b : CircuitBreaker) :
    Option Int × CircuitBreaker → Prop where
  | passed (h : b.state = .closed) : Asked options now b (none, b)
  | trial (h : b.state = .opened) (ht : b.openedAt + options.resetMs ≤ now) :
      Asked options now b (none, { b with state := .halfOpen, trialInFlight := true })
  | freed (h : b.state = .halfOpen) (ht : b.trialInFlight = false) :
      Asked options now b (none, { b with state := .halfOpen, trialInFlight := true })
  | early (ms : Int) (h : b.state = .opened) (ht : now < b.openedAt + options.resetMs) :
      Asked options now b (some ms, b)
  | taken (h : b.state = .halfOpen) (ht : b.trialInFlight = true) :
      Asked options now b (some options.resetMs, b)

theorem blockedForMs_asked : Asked options now b (b.blockedForMs options now) := by
  cases hs : b.state with
  | closed =>
      rw [blockedForMs, if_pos hs]
      exact .passed hs
  | opened =>
      simp only [blockedForMs, hs, reduceCtorEq, if_false, true_and]
      by_cases ht : now - b.openedAt ≥ options.resetMs
      · simp only [if_pos ht, if_true, Bool.false_eq_true, if_false]
        exact .trial hs (by omega)
      · simp only [if_neg ht, hs, reduceCtorEq, if_false]
        exact .early _ hs (by omega)
  | halfOpen =>
      simp only [blockedForMs, hs, reduceCtorEq, if_false, false_and, if_true]
      cases ht : b.trialInFlight with
      | true => exact .taken hs ht
      | false => exact .freed hs ht

theorem recordFailure_opens (h : b.opens options = true) :
    b.recordFailure options now = ⟨.opened, 0, now, false⟩ := by
  rw [opens, Bool.or_eq_true, decide_eq_true_eq, decide_eq_true_eq] at h
  by_cases hs : b.state = .halfOpen
  · simp [recordFailure, openNow, hs]
  · simp [recordFailure, openNow, hs, h.resolve_left hs]

theorem recordFailure_counts (h : b.opens options = false) :
    b.recordFailure options now =
      { b with failures := b.failures + 1, trialInFlight := false } := by
  rw [opens, Bool.or_eq_false_iff, decide_eq_false_iff_not, decide_eq_false_iff_not] at h
  simp only [recordFailure, if_neg h.1, if_neg h.2]

end CircuitBreaker

/-! ### Calls through a breaker -/

universe u

variable {ι : Type u}

/-- What happened at a breaker: a call was admitted, a result recorded, the breaker opened, or a
half-open period began. -/
inductive BreakerEvent (ι : Type u) where
  | admitted (i : ι) (t : Int)
  | recorded (i : ι) (ok : Bool)
  | opened (t : Int)
  | halfOpened

/-- What happened is kept with the newest event first. -/
abbrev Past (ι : Type u) := List (BreakerEvent ι)

namespace Past

def failuresSinceSuccess : Past ι → Nat
  | [] => 0
  | .recorded _ true :: _ => 0
  | .recorded _ false :: past => failuresSinceSuccess past + 1
  | .admitted _ _ :: past | .opened _ :: past | .halfOpened :: past => failuresSinceSuccess past

/-- The calls admitted since the last half-open period began. -/
def admittedSinceHalfOpened : Past ι → List ι
  | [] => []
  | .halfOpened :: _ => []
  | .admitted i _ :: past => i :: admittedSinceHalfOpened past
  | .recorded _ _ :: past | .opened _ :: past => admittedSinceHalfOpened past

variable [DecidableEq ι] (i : ι)

def admissions (past : Past ι) : Nat :=
  past.countP fun
    | .admitted j _ => j = i
    | _ => false

def records (past : Past ι) : Nat :=
  past.countP fun
    | .recorded j _ => j = i
    | _ => false

variable {i} {past : Past ι}

@[simp] theorem admissions_cons {e : BreakerEvent ι} :
    admissions i (e :: past) = admissions i past +
      match e with
      | .admitted j _ => if j = i then 1 else 0
      | _ => 0 := by
  cases e <;> simp [admissions, List.countP_cons]

@[simp] theorem records_cons {e : BreakerEvent ι} :
    records i (e :: past) = records i past +
      match e with
      | .recorded j _ => if j = i then 1 else 0
      | _ => 0 := by
  cases e <;> simp [records, List.countP_cons]

end Past

structure BreakerState (ι : Type u) where
  breaker : CircuitBreaker
  now : Int
  past : Past ι

/-- A breaker nothing has happened at. -/
def BreakerState.fresh (now : Int) : BreakerState ι := ⟨.fresh, now, []⟩

namespace BreakerState

section

variable (options : CircuitBreakerOptions) (s : BreakerState ι) (i : ι)

/-- The call `i` asks `blockedForMs`. -/
def ask : Option Int × BreakerState ι :=
  let (blocked, b) := s.breaker.blockedForMs options s.now
  let began : Past ι :=
    if s.breaker.state ≠ .halfOpen ∧ b.state = .halfOpen then [.halfOpened] else []
  match blocked with
  | none => (none, { s with breaker := b, past := .admitted i s.now :: (began ++ s.past) })
  | some ms => (some ms, { s with breaker := b, past := began ++ s.past })

def succeed : BreakerState ι :=
  { s with breaker := s.breaker.recordSuccess, past := .recorded i true :: s.past }

def fail : BreakerState ι :=
  let opened : Past ι := if s.breaker.opens options then [.opened s.now] else []
  { s with
    breaker := s.breaker.recordFailure options s.now
    past := opened ++ .recorded i false :: s.past }

end

/-- The call was admitted, and has not recorded its result. -/
def InFlight [DecidableEq ι] (s : BreakerState ι) (i : ι) : Prop :=
  s.past.records i < s.past.admissions i

instance [DecidableEq ι] (s : BreakerState ι) (i : ι) : Decidable (s.InFlight i) :=
  Nat.decLt _ _

end BreakerState

inductive BreakerLabel (ι : Type u) where
  | tick (d : Nat)
  | call (i : ι)
  | success (i : ι)
  | failure (i : ι)

section

variable [DecidableEq ι] (options : CircuitBreakerOptions)

/-- A call is admitted at most once, and then records one result. -/
def breakerStep (s : BreakerState ι) : BreakerLabel ι → Option (BreakerState ι)
  | .tick d => some { s with now := s.now + d }
  | .call i => if s.past.admissions i = 0 then some (s.ask options i).2 else none
  | .success i => if s.InFlight i then some (s.succeed i) else none
  | .failure i => if s.InFlight i then some (s.fail options i) else none

def breakers : Machine (BreakerState ι) (BreakerLabel ι) := ⟨breakerStep options⟩

end

/-! ### The invariant -/

section

variable {options : CircuitBreakerOptions} {s s' : BreakerState ι} {i j : ι}

open BreakerState

/-- What asking comes to. -/
inductive BreakerState.Asks (options : CircuitBreakerOptions) (s : BreakerState ι) (i : ι) :
    Option Int × BreakerState ι → Prop where
  | passed (h : s.breaker.state = .closed) :
      Asks options s i (none, { s with past := .admitted i s.now :: s.past })
  | trial (h : s.breaker.state = .opened) (ht : s.breaker.openedAt + options.resetMs ≤ s.now) :
      Asks options s i (none, { s with
        breaker := { s.breaker with state := .halfOpen, trialInFlight := true }
        past := .admitted i s.now :: .halfOpened :: s.past })
  | freed (h : s.breaker.state = .halfOpen) (ht : s.breaker.trialInFlight = false) :
      Asks options s i (none, { s with
        breaker := { s.breaker with state := .halfOpen, trialInFlight := true }
        past := .admitted i s.now :: s.past })
  | early (ms : Int) (h : s.breaker.state = .opened)
      (ht : s.now < s.breaker.openedAt + options.resetMs) : Asks options s i (some ms, s)
  | taken (ms : Int) (h : s.breaker.state = .halfOpen) (ht : s.breaker.trialInFlight = true) :
      Asks options s i (some ms, s)

theorem BreakerState.ask_asks : s.Asks options i (s.ask options i) := by
  have h := @CircuitBreaker.blockedForMs_asked options s.now s.breaker
  rw [ask]
  generalize s.breaker.blockedForMs options s.now = r at h ⊢
  cases h with
  | passed hs => simpa [hs] using Asks.passed hs
  | trial hs ht => simpa [hs] using Asks.trial hs ht
  | freed hs ht => simpa [hs] using Asks.freed hs ht
  | early ms hs ht => simpa [hs] using Asks.early ms hs ht
  | taken hs ht => simpa [hs] using Asks.taken options.resetMs hs ht

theorem BreakerState.ask_blocked {ms : Int} (h : (s.ask options i).1 = some ms) :
    (s.ask options i).2 = s := by
  have hasks := @ask_asks ι options s i
  generalize s.ask options i = r at h hasks ⊢
  cases hasks with
  | early => rfl
  | taken => rfl
  | _ => cases h

section

variable [DecidableEq ι]

theorem BreakerState.ask_admitted (h : (s.ask options i).1 = none) (j : ι) :
    (s.ask options i).2.past.records j = s.past.records j ∧
      (s.ask options i).2.past.admissions j = s.past.admissions j + if i = j then 1 else 0 := by
  have hasks := @ask_asks ι options s i
  generalize s.ask options i = r at h hasks ⊢
  cases hasks with
  | early => cases h
  | taken => cases h
  | _ => simp

theorem BreakerState.succeed_recorded (j : ι) :
    (s.succeed i).past.records j = s.past.records j + (if i = j then 1 else 0) ∧
      (s.succeed i).past.admissions j = s.past.admissions j := by
  simp [BreakerState.succeed]

theorem BreakerState.fail_recorded (j : ι) :
    (s.fail options i).past.records j = s.past.records j + (if i = j then 1 else 0) ∧
      (s.fail options i).past.admissions j = s.past.admissions j := by
  cases h : s.breaker.opens options <;> simp [BreakerState.fail, h]

end

/-- The steps of the breaker. -/
inductive BreakerState.Takes [DecidableEq ι] (options : CircuitBreakerOptions)
    (s : BreakerState ι) : BreakerLabel ι → BreakerState ι → Prop where
  | tick (d : Nat) : Takes options s (.tick d) { s with now := s.now + d }
  | call {i : ι} (h : s.past.admissions i = 0) : Takes options s (.call i) (s.ask options i).2
  | success {i : ι} (h : s.InFlight i) : Takes options s (.success i) (s.succeed i)
  | failure {i : ι} (h : s.InFlight i) : Takes options s (.failure i) (s.fail options i)

theorem breakers_takes [DecidableEq ι] {l : BreakerLabel ι}
    (h : (breakers options).step s l = some s') : s.Takes options l s' := by
  cases l with
  | tick d => cases h; exact .tick d
  | call i =>
      obtain ⟨hadm, h⟩ := Option.ite_none_right_eq_some.mp h
      cases h
      exact .call hadm
  | success i =>
      obtain ⟨hf, h⟩ := Option.ite_none_right_eq_some.mp h
      cases h
      exact .success hf
  | failure i =>
      obtain ⟨hf, h⟩ := Option.ite_none_right_eq_some.mp h
      cases h
      exact .failure hf

/-- What has been counted, and who is in flight. -/
structure BreakerState.Inv [DecidableEq ι] (options : CircuitBreakerOptions) (s : BreakerState ι) :
    Prop where
  once : ∀ i, s.past.records i ≤ s.past.admissions i ∧ s.past.admissions i ≤ 1
  counts : s.breaker.state = .closed → s.breaker.failures = s.past.failuresSinceSuccess ∧
    s.breaker.failures < options.failureThreshold
  opened : s.breaker.state = .opened → .opened s.breaker.openedAt ∈ s.past
  trial : s.breaker.state = .halfOpen → s.breaker.trialInFlight = true ∧
    ∃ i, s.past.admittedSinceHalfOpened = [i] ∧ s.InFlight i

namespace BreakerState

variable [DecidableEq ι]

theorem Inv.fresh {now : Int} : (BreakerState.fresh now : BreakerState ι).Inv options where
  once _ := ⟨Nat.le_refl 0, Nat.zero_le 1⟩
  counts _ := ⟨rfl, options.failureThreshold_pos⟩
  opened h := nomatch h
  trial h := nomatch h

/-- An admission of a call that was not admitted before. -/
theorem Inv.once_admitted (hi : s.Inv options) (h : s.past.admissions i = 0) {past : Past ι}
    (hr : ∀ j, past.records j = s.past.records j)
    (ha : ∀ j, past.admissions j = s.past.admissions j + if i = j then 1 else 0) (j : ι) :
    past.records j ≤ past.admissions j ∧ past.admissions j ≤ 1 := by
  rw [hr, ha]
  by_cases hj : i = j
  · subst hj
    have hrec : s.past.records i = 0 := Nat.le_zero.mp (h ▸ (hi.once i).1)
    rw [h, hrec, if_pos rfl]
    exact ⟨Nat.zero_le 1, Nat.le_refl 1⟩
  · rw [if_neg hj, Nat.add_zero]
    exact hi.once j

/-- A result of a call in flight. -/
theorem Inv.once_recorded (hi : s.Inv options) (h : s.InFlight i) {past : Past ι}
    (hr : ∀ j, past.records j = s.past.records j + if i = j then 1 else 0)
    (ha : ∀ j, past.admissions j = s.past.admissions j) (j : ι) :
    past.records j ≤ past.admissions j ∧ past.admissions j ≤ 1 := by
  rw [hr, ha]
  by_cases hj : i = j
  · subst hj
    rw [if_pos rfl]
    exact ⟨h, (hi.once i).2⟩
  · rw [if_neg hj, Nat.add_zero]
    exact hi.once j

theorem Inv.ask (hi : s.Inv options) (h : s.past.admissions i = 0) :
    (s.ask options i).2.Inv options := by
  have hasks := @ask_asks ι options s i
  generalize s.ask options i = r at hasks ⊢
  cases hasks with
  | passed hs =>
      refine ⟨hi.once_admitted h (by simp) (by simp), fun _ => hi.counts hs, fun h => ?_,
        fun h => ?_⟩
      · rw [hs] at h; cases h
      · rw [hs] at h; cases h
  | trial hs ht =>
      refine ⟨hi.once_admitted h (by simp) (by simp), fun h => (nomatch h), fun h => (nomatch h),
        fun _ => ⟨rfl, i, rfl, ?_⟩⟩
      -- the trial has been admitted, and has recorded nothing
      simpa [InFlight, h] using (hi.once i).1
  -- a half-open breaker always has its trial in flight
  | freed hs ht => rw [(hi.trial hs).1] at ht; cases ht
  | early ms hs ht => exact hi
  | taken ms hs ht => exact hi

theorem Inv.succeed (hi : s.Inv options) (h : s.InFlight i) : (s.succeed i).Inv options :=
  ⟨hi.once_recorded h (by simp [BreakerState.succeed]) (by simp [BreakerState.succeed]),
    fun _ => ⟨rfl, options.failureThreshold_pos⟩, fun h => (nomatch h), fun h => (nomatch h)⟩

theorem Inv.fail (hi : s.Inv options) (h : s.InFlight i) : (s.fail options i).Inv options := by
  rw [BreakerState.fail]
  cases ho : s.breaker.opens options with
  | true =>
      rw [CircuitBreaker.recordFailure_opens ho, if_pos rfl]
      exact ⟨hi.once_recorded h (by simp) (by simp), fun h => (nomatch h),
        fun _ => List.mem_cons_self, fun h => (nomatch h)⟩
  | false =>
      rw [CircuitBreaker.recordFailure_counts ho, if_neg Bool.false_ne_true]
      have ho' := ho
      rw [CircuitBreaker.opens, Bool.or_eq_false_iff, decide_eq_false_iff_not,
        decide_eq_false_iff_not] at ho'
      refine ⟨hi.once_recorded h (by simp) (by simp), fun hs => ?_, fun hs => ?_,
        fun hs => absurd hs ho'.1⟩
      · exact ⟨congrArg Nat.succ (hi.counts hs).1, Nat.not_le.mp ho'.2⟩
      · exact List.mem_cons_of_mem _ (hi.opened hs)

theorem Inv.step {l : BreakerLabel ι} (hi : s.Inv options)
    (h : (breakers options).step s l = some s') : s'.Inv options := by
  cases breakers_takes h with
  | tick d => exact ⟨hi.once, hi.counts, hi.opened, hi.trial⟩
  | call hadm => exact hi.ask hadm
  | success hf => exact hi.succeed hf
  | failure hf => exact hi.fail hf

theorem Inv.run {now : Int} {G : BreakerState ι → BreakerLabel ι → BreakerState ι → Prop}
    {ls : List (BreakerLabel ι)} (r : Run (breakers options) G (.fresh now) ls s) : s.Inv options :=
  r.invariant (I := Inv options) .fresh fun _ _ _ hi h _ => hi.step h

/-- A closed breaker opens when the failures since the last success reach the threshold, and at no
other time. -/
theorem Inv.opens_iff {l : BreakerLabel ι} (hi : s.Inv options)
    (h : (breakers options).step s l = some s') (hc : s.breaker.state = .closed) :
    s'.breaker.state ≠ .halfOpen ∧
      (s'.breaker.state = .opened ↔ s'.past.failuresSinceSuccess = options.failureThreshold) := by
  obtain ⟨hcount, hlt⟩ := hi.counts hc
  have hne : s.past.failuresSinceSuccess ≠ options.failureThreshold := by omega
  cases breakers_takes h with
  | tick d =>
      exact ⟨by simp [hc], iff_of_false (by simp [hc]) hne⟩
  | @call i hadm =>
      have hasks := @ask_asks ι options s i
      generalize s.ask options i = r at hasks ⊢
      cases hasks with
      | passed hs => exact ⟨by simp [hc], iff_of_false (by simp [hc]) hne⟩
      | trial hs ht => rw [hc] at hs; cases hs
      | freed hs ht => rw [hc] at hs; cases hs
      | early ms hs ht => rw [hc] at hs; cases hs
      | taken ms hs ht => rw [hc] at hs; cases hs
  | success hf =>
      exact ⟨fun h => (nomatch h), iff_of_false (fun h => nomatch h)
        (Nat.ne_of_lt options.failureThreshold_pos)⟩
  | failure hf =>
      rw [BreakerState.fail]
      cases ho : s.breaker.opens options with
      | true =>
          rw [CircuitBreaker.recordFailure_opens ho, if_pos rfl]
          simp only [CircuitBreaker.opens, hc, Bool.or_eq_true, decide_eq_true_eq, reduceCtorEq,
            false_or] at ho
          refine ⟨fun h => (nomatch h), iff_of_true rfl ?_⟩
          show s.past.failuresSinceSuccess + 1 = options.failureThreshold
          omega
      | false =>
          rw [CircuitBreaker.recordFailure_counts ho, if_neg Bool.false_ne_true]
          simp only [CircuitBreaker.opens, Bool.or_eq_false_iff, decide_eq_false_iff_not] at ho
          refine ⟨by simp [hc], iff_of_false (by simp [hc]) ?_⟩
          show s.past.failuresSinceSuccess + 1 ≠ options.failureThreshold
          omega

/-- **The breaker never wedges.**  If no call is in flight and `resetMs` has passed since it last
opened, the breaker admits the next call. -/
theorem Inv.admits_after_reset (hi : s.Inv options) (hidle : ∀ i, ¬ s.InFlight i)
    (hreset : ∀ t, .opened t ∈ s.past → t + options.resetMs ≤ s.now) :
    (s.breaker.blockedForMs options s.now).1 = none := by
  have h := @CircuitBreaker.blockedForMs_asked options s.now s.breaker
  generalize s.breaker.blockedForMs options s.now = r at h ⊢
  cases h with
  | passed hs => rfl
  | trial hs ht => rfl
  | freed hs ht => rfl
  -- the opening that is still in the way is one of the past
  | early ms hs ht => exact absurd (hreset _ (hi.opened hs)) (by omega)
  | taken hs ht =>
      obtain ⟨-, i, -, hf⟩ := hi.trial hs
      exact absurd hf (hidle i)

end BreakerState

end

end NestDdd.Http

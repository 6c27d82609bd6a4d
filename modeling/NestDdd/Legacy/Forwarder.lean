import NestDdd.Runs.History
import NestDdd.Runs.Machine

/-!
# Legacy — forwarding

`LegacyForwarder.forward` (`src/infrastructure/legacy/legacy-forwarder.ts`) as a machine over what
Node reports of the two connections, in whatever order, one report a step.

* A connection that closes once the response has begun is a `closed` of the upstream response, for
  which `forward` has no handler; `pipe()` ends the client's response on the upstream's `end` only.
* `exchange_ends`: one head; 504 after a timeout and 502 after another failure, both before a
  response; and no client is left with an open response, while the upstream does not close in the
  middle of a body.
* `left_open`: there it is.
-/

namespace NestDdd.Legacy

open Runs

/-! ### The machine -/

/-- What Node reports: `timeout`, `response` and `error` of the outbound request, `data`, `end` and
`aborted` or `close` of the upstream response, and `aborted` of the client's request. -/
inductive Signal where
  | timeout
  | response (statusCode : Option Int)
  | data (chunk : List UInt8)
  | ended
  | closed
  | error
  | aborted
  deriving DecidableEq

/-- Whose status a head carries. -/
inductive Origin where
  | upstream
  | forwarder
  deriving DecidableEq

/-- What has happened: what Node reported, and what was done about it. -/
inductive ForwardEvent where
  | saw (signal : Signal)
  | wroteHead (origin : Origin) (status : Int)
  | wrote (chunk : List UInt8)
  | wroteText (text : String)
  | logged (status : Int)
  deriving DecidableEq

/-- How far the upstream is. -/
inductive Upstream where
  | awaited
  | responding
  | over
  deriving DecidableEq

/-- `timedOut`, whether `outbound` is destroyed and has failed, the three states of the client's
response, and the history with the newest event first. -/
structure Forwarding where
  timedOut : Bool
  cancelled : Bool
  failed : Bool
  upstream : Upstream
  headersSent : Bool
  ended : Bool
  destroyed : Bool
  past : List ForwardEvent
  deriving DecidableEq

namespace Forwarding

/-- `forward` has registered its handlers. -/
def start : Forwarding := ⟨false, false, false, .awaited, false, false, false, []⟩

variable (s : Forwarding)

/-- The client's response is left open. -/
def Open : Prop := s.ended = false ∧ s.destroyed = false

instance : Decidable s.Open := inferInstanceAs (Decidable (_ ∧ _))

def saw (signal : Signal) : Forwarding := { s with past := .saw signal :: s.past }

/-- `res.writeHead(status, …)`. -/
def writeHead (origin : Origin) (status : Int) : Forwarding :=
  { s with headersSent := true, past := .wroteHead origin status :: s.past }

/-- `res.write(chunk)`, by `pipe()`. -/
def write (chunk : List UInt8) : Forwarding :=
  if s.ended || s.destroyed then s else { s with past := .wrote chunk :: s.past }

/-- The `error` handler. -/
def onError : Forwarding :=
  let status : Int := if s.timedOut then 504 else 502
  let logged := { s with past := .logged status :: s.past }
  if !s.headersSent then
    let head := logged.writeHead .forwarder status
    let text := if status = 504 then "Gateway Timeout" else "Bad Gateway"
    { head with ended := true, past := .wroteText text :: head.past }
  else { logged with destroyed := true }

/-- One report.  A destroyed request gets no response and no timeout; its error may still come, and
so may the rest of a body. -/
def step (s : Forwarding) (signal : Signal) : Option Forwarding :=
  match signal with
  | .timeout =>
      if s.cancelled || s.upstream = .over then none
      else some { s.saw signal with timedOut := true, cancelled := true }
  | .response statusCode =>
      if s.cancelled || s.upstream ≠ .awaited then none
      else some ({ s.saw signal with upstream := .responding }.writeHead .upstream
        (statusCode.getD 502))
  | .data chunk => if s.upstream ≠ .responding then none else some ((s.saw signal).write chunk)
  | .ended =>
      if s.upstream ≠ .responding then none
      else some { s.saw signal with upstream := .over, ended := true }
  | .closed =>
      -- nobody listens: the client's response stays as it is
      if s.upstream ≠ .responding then none else some { s.saw signal with upstream := .over }
  | .error =>
      if s.failed then none
      else some { (s.saw signal).onError with failed := true, upstream := .over }
  | .aborted =>
      -- `outbound.destroy()`; Node destroys the response of a client that is gone
      some { s.saw signal with cancelled := true, destroyed := true }

end Forwarding

def forward : Machine Forwarding Signal := ⟨Forwarding.step⟩

/-! ### Heads -/

/-- What holds of the heads written so far. -/
structure Heads (past : List ForwardEvent) : Prop where
  once : ∀ origin status earlier, Happened past (.wroteHead origin status) earlier →
    ∀ origin' status', .wroteHead origin' status' ∉ earlier
  passed : ∀ status earlier, Happened past (.wroteHead .upstream status) earlier →
    ∃ statusCode, .saw (.response statusCode) ∈ earlier ∧ status = statusCode.getD 502
  failure : ∀ status earlier, Happened past (.wroteHead .forwarder status) earlier →
    (status = 504 ∧ .saw .timeout ∈ earlier ∨ status = 502 ∧ .saw .timeout ∉ earlier) ∧
      .saw .error ∈ earlier ∧ ∀ statusCode, .saw (.response statusCode) ∉ earlier

namespace Heads

variable {past : List ForwardEvent} {e : ForwardEvent}

theorem nil : Heads [] :=
  ⟨fun _ _ _ h => absurd h Happened.not_nil, fun _ _ h => absurd h Happened.not_nil,
    fun _ _ h => absurd h Happened.not_nil⟩

/-- Anything but a head. -/
theorem cons (h : Heads past) (he : ∀ origin status, .wroteHead origin status ≠ e) :
    Heads (e :: past) :=
  ⟨fun origin status earlier hh => h.once origin status earlier (hh.of_cons (he _ _)),
    fun status earlier hh => h.passed status earlier (hh.of_cons (he _ _)),
    fun status earlier hh => h.failure status earlier (hh.of_cons (he _ _))⟩

/-- The head of the upstream's response. -/
theorem upstream (h : Heads past) (hnone : ∀ origin status, .wroteHead origin status ∉ past)
    {statusCode : Option Int} (hsaw : .saw (.response statusCode) ∈ past) :
    Heads (.wroteHead .upstream (statusCode.getD 502) :: past) where
  once origin status earlier hh := by
    rcases Happened.cons_iff.mp hh with ⟨-, rfl⟩ | hh
    · exact hnone
    · exact h.once origin status earlier hh
  passed status earlier hh := by
    rcases Happened.cons_iff.mp hh with ⟨heq, rfl⟩ | hh
    · cases heq
      exact ⟨statusCode, hsaw, rfl⟩
    · exact h.passed status earlier hh
  failure status earlier hh := h.failure status earlier (hh.of_cons (by simp))

/-- The head of a failure. -/
theorem forwarder (h : Heads past) (hnone : ∀ origin status, .wroteHead origin status ∉ past)
    {status : Int} (hstatus : status = 504 ∧ .saw .timeout ∈ past ∨
      status = 502 ∧ .saw .timeout ∉ past) (herror : .saw .error ∈ past)
    (hresponse : ∀ statusCode, .saw (.response statusCode) ∉ past) :
    Heads (.wroteHead .forwarder status :: past) where
  once origin status earlier hh := by
    rcases Happened.cons_iff.mp hh with ⟨-, rfl⟩ | hh
    · exact hnone
    · exact h.once origin status earlier hh
  passed status earlier hh := h.passed status earlier (hh.of_cons (by simp))
  failure status earlier hh := by
    rcases Happened.cons_iff.mp hh with ⟨heq, rfl⟩ | hh
    · cases heq
      exact ⟨hstatus, herror, hresponse⟩
    · exact h.failure status earlier hh

end Heads

/-! ### Flags -/

/-- It is no head, and no flag changes with it. -/
def ForwardEvent.quiet : ForwardEvent → Bool
  | .saw .timeout | .saw (.response _) | .wroteHead _ _ => false
  | .saw _ | .wrote _ | .wroteText _ | .logged _ => true

/-- The two flags that the handlers read tell the history. -/
structure Told (timedOut headersSent : Bool) (past : List ForwardEvent) : Prop where
  heads : Heads past
  timedOut_iff : timedOut = true ↔ .saw .timeout ∈ past
  unsent : headersSent = false → (∀ origin status, .wroteHead origin status ∉ past) ∧
    ∀ statusCode, .saw (.response statusCode) ∉ past

namespace Told

variable {timedOut headersSent : Bool} {past : List ForwardEvent} {e : ForwardEvent}

theorem nil : Told false false [] := ⟨Heads.nil, by simp, by simp⟩

theorem cons (h : Told timedOut headersSent past) (he : e.quiet = true) :
    Told timedOut headersSent (e :: past) where
  heads := h.heads.cons fun origin status heq => by subst heq; cases he
  timedOut_iff := by
    have hne : .saw .timeout ≠ e := fun heq => by subst heq; cases he
    rw [h.timedOut_iff, List.mem_cons, or_iff_right hne]
  unsent hs := by
    obtain ⟨hhead, hresponse⟩ := h.unsent hs
    refine ⟨fun origin status hmem => ?_, fun statusCode hmem => ?_⟩
    · rcases List.mem_cons.mp hmem with rfl | hmem
      · cases he
      · exact hhead origin status hmem
    · rcases List.mem_cons.mp hmem with rfl | hmem
      · cases he
      · exact hresponse statusCode hmem

theorem timeout (h : Told timedOut headersSent past) :
    Told true headersSent (.saw .timeout :: past) where
  heads := h.heads.cons (by simp)
  timedOut_iff := by simp
  unsent hs := by simpa using h.unsent hs

theorem response (h : Told timedOut false past) (statusCode : Option Int) :
    Told timedOut true
      (.wroteHead .upstream (statusCode.getD 502) :: .saw (.response statusCode) :: past) where
  heads := (h.heads.cons (by simp)).upstream (by simpa using (h.unsent rfl).1) List.mem_cons_self
  timedOut_iff := by simpa using h.timedOut_iff
  unsent hs := by cases hs

/-- The handler of `error` answers before a response, and by the flag. -/
theorem failure (h : Told timedOut false past) (herror : .saw .error ∈ past) :
    Told timedOut true (.wroteHead .forwarder (if timedOut then 504 else 502) :: past) where
  heads := by
    obtain ⟨hnone, hresponse⟩ := h.unsent rfl
    refine h.heads.forwarder hnone ?_ herror hresponse
    cases timedOut with
    | true => exact .inl ⟨rfl, h.timedOut_iff.mp rfl⟩
    | false => exact .inr ⟨rfl, fun hmem => Bool.noConfusion (h.timedOut_iff.mpr hmem)⟩
  timedOut_iff := by simpa using h.timedOut_iff
  unsent hs := by cases hs

end Told

/-! ### Runs -/

namespace Forwarding

/-- The flags tell the history, a response that is awaited has no head yet, and no client waits for
an upstream that is over. -/
structure Sound (s : Forwarding) : Prop where
  told : Told s.timedOut s.headersSent s.past
  awaited : s.upstream = .awaited → s.headersSent = false
  settled : s.upstream = .over → ¬ s.Open

variable {s s' : Forwarding}

theorem not_open_of_ended (h : s.ended = true) : ¬ s.Open := by simp [Open, h]

theorem not_open_of_destroyed (h : s.destroyed = true) : ¬ s.Open := by simp [Open, h]

theorem start_sound : start.Sound := ⟨Told.nil, fun _ => rfl, fun h => by cases h⟩

/-- A chunk changes nothing but the history. -/
theorem Sound.write (h : s.Sound) (chunk : List UInt8) : (s.write chunk).Sound := by
  unfold Forwarding.write
  split
  · exact h
  · exact ⟨h.told.cons rfl, h.awaited, h.settled⟩

/-- The client of a failed request gets the failure as its response, or loses its connection. -/
theorem onError_settled (h : Told s.timedOut s.headersSent s.past)
    (herror : .saw .error ∈ s.past) :
    Told s.onError.timedOut s.onError.headersSent s.onError.past ∧ ¬ s.onError.Open := by
  obtain ⟨timedOut, cancelled, failed, upstream, headersSent, ended, destroyed, past⟩ := s
  cases headersSent with
  | false =>
      have hlogged : Told timedOut false (.logged (if timedOut then 504 else 502) :: past) :=
        h.cons rfl
      exact ⟨(hlogged.failure (List.mem_cons_of_mem _ herror)).cons rfl, not_open_of_ended rfl⟩
  | true => exact ⟨h.cons rfl, not_open_of_destroyed rfl⟩

/-- **One report** keeps the client served, if the upstream does not close on it. -/
theorem Sound.step (h : s.Sound) {signal : Signal} (hs : s.step signal = some s')
    (g : signal = .closed → ¬ s.Open) : s'.Sound := by
  cases signal with
  | timeout =>
      simp only [Forwarding.step, Option.ite_none_left_eq_some, Option.some.injEq] at hs
      obtain ⟨-, rfl⟩ := hs
      exact ⟨h.told.timeout, h.awaited, h.settled⟩
  | response statusCode =>
      simp only [Forwarding.step, Option.ite_none_left_eq_some, Option.some.injEq, Bool.or_eq_true,
        decide_eq_true_eq, not_or, not_not] at hs
      obtain ⟨⟨-, hawaited⟩, rfl⟩ := hs
      have htold := h.told
      rw [h.awaited hawaited] at htold
      exact ⟨htold.response statusCode, by simp [writeHead], by simp [writeHead]⟩
  | data chunk =>
      simp only [Forwarding.step, Option.ite_none_left_eq_some, Option.some.injEq] at hs
      obtain ⟨-, rfl⟩ := hs
      have hsaw : (s.saw (.data chunk)).Sound := ⟨h.told.cons rfl, h.awaited, h.settled⟩
      exact hsaw.write chunk
  | ended =>
      simp only [Forwarding.step, Option.ite_none_left_eq_some, Option.some.injEq] at hs
      obtain ⟨-, rfl⟩ := hs
      exact ⟨h.told.cons rfl, by simp, fun _ => not_open_of_ended rfl⟩
  | closed =>
      simp only [Forwarding.step, Option.ite_none_left_eq_some, Option.some.injEq] at hs
      obtain ⟨-, rfl⟩ := hs
      -- the guard: nobody would end it
      exact ⟨h.told.cons rfl, by simp, fun _ => g rfl⟩
  | error =>
      simp only [Forwarding.step, Option.ite_none_left_eq_some, Option.some.injEq] at hs
      obtain ⟨-, rfl⟩ := hs
      have hsaw : Told s.timedOut s.headersSent (.saw .error :: s.past) := h.told.cons rfl
      obtain ⟨htold, hopen⟩ := @onError_settled (s.saw .error) hsaw List.mem_cons_self
      exact ⟨htold, by simp, fun _ => hopen⟩
  | aborted =>
      simp only [Forwarding.step, Option.some.injEq] at hs
      subst hs
      exact ⟨h.told.cons rfl, h.awaited, fun _ => not_open_of_destroyed rfl⟩

end Forwarding

/-- The upstream does not close in the middle of a body that a client waits for. -/
def BodyCompletes (s : Forwarding) (signal : Signal) (_ : Forwarding) : Prop :=
  signal = .closed → ¬ s.Open

/-- What the client of a forwarded request is promised. -/
structure Served (s : Forwarding) : Prop where
  heads : Heads s.past
  settled : s.upstream = .over → ¬ s.Open

/-- **Every exchange ends at the client** in every run in which the upstream does not close in the
middle of a body: one head is written, 504 after a timeout, 502 after another failure, both before a
response, and once the upstream is over the client's response is ended or destroyed. -/
theorem exchange_ends {signals : List Signal} {s : Forwarding}
    (r : Run forward BodyCompletes Forwarding.start signals s) : Served s := by
  have hsound : s.Sound := r.invariant Forwarding.start_sound
    fun _ _ _ h hs g => h.step hs g
  exact ⟨hsound.told.heads, hsound.settled⟩

/-- The upstream responds, sends a part of its body and the rest, and closes. -/
theorem exchange_ends_passed : ∃ s, Run forward BodyCompletes Forwarding.start
    [.response (some 200), .data [104, 105], .ended] s ∧ Served s := by
  have r {s : Forwarding} (hs : forward.exec Forwarding.start
      [.response (some 200), .data [104, 105], .ended] = some s) : Run forward BodyCompletes
        Forwarding.start [.response (some 200), .data [104, 105], .ended] s := by
    refine Run.of_exec hs fun signal hmem _ _ hclosed => ?_
    subst hclosed
    simp at hmem
  exact ⟨_, r rfl, exchange_ends (r rfl)⟩

/-- A close in the middle of a body leaves the client's response as it is. -/
theorem closed_leaves_open {s s' : Forwarding} (hs : forward.step s .closed = some s')
    (h : s.Open) : s'.upstream = .over ∧ s'.Open := by
  simp only [forward, Forwarding.step, Option.ite_none_left_eq_some, Option.some.injEq] at hs
  obtain ⟨-, rfl⟩ := hs
  exact ⟨rfl, h⟩

/-- The upstream dies after a part of its body: the client waits for the rest. -/
theorem left_open : ∃ s, Run forward Free Forwarding.start
    [.response (some 200), .data [104, 105], .closed] s ∧ ¬ Served s := by
  refine ⟨_, Run.of_exec rfl fun _ _ _ _ => trivial, fun h => ?_⟩
  exact h.settled rfl ⟨rfl, rfl⟩

end NestDdd.Legacy

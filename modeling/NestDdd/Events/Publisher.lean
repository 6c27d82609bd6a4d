import NestDdd.Runs.Async
import NestDdd.Shared.JsValue

/-!
# Events — recording and publishing

An `AggregateRoot` (`src/domain/base/aggregate-root.ts`) records domain events until they are
pulled; `InProcessDomainEventPublisher.publish`
(`src/application/events/in-process-domain-event-publisher.ts`) hands each pulled event to the
handlers of its name.  Whether a handler resolves or rejects is up to the environment; the logger
and the metrics do not throw.

* `run_recorded`: what has been pulled, and then what is pending, is what was recorded.
* `run_pulled`: everything that was recorded before the last pull has been pulled.
* `Delivers` says what a piece of the publisher does: it resolves, it makes the calls it should, in
  order, and it counts how each settled.  It is closed under sequence.
* `recorded_events_dispatched`: every event that was recorded before the last pull reaches every
  handler of its name once, in order, whatever fails.
-/

namespace NestDdd.Events

open Runs Runs.Async

structure DomainEvent where
  name : String
  occurredAt : Int
  payload : JsValue

/-! ### The aggregate -/

structure AggregateRoot where
  events : List DomainEvent

namespace AggregateRoot

def addEvent (a : AggregateRoot) (event : DomainEvent) : AggregateRoot := ⟨a.events ++ [event]⟩

/-- The events, and the aggregate without them. -/
def pullEvents (a : AggregateRoot) : List DomainEvent × AggregateRoot := (a.events, ⟨[]⟩)

/-- What is done to an aggregate. -/
inductive Op where
  | addEvent (event : DomainEvent)
  | pullEvents

/-- The lists that are pulled, in order, and the aggregate after all operations. -/
def run : List Op → AggregateRoot → List (List DomainEvent) × AggregateRoot
  | [], a => ([], a)
  | .addEvent event :: ops, a => run ops (a.addEvent event)
  | .pullEvents :: ops, a =>
      let (events, a') := a.pullEvents
      let (pulled, a'') := run ops a'
      (events :: pulled, a'')

/-- What the operations record. -/
def recorded : List Op → List DomainEvent
  | [] => []
  | .addEvent event :: ops => event :: recorded ops
  | .pullEvents :: ops => recorded ops

/-- **Nothing is lost or pulled twice.** -/
theorem run_recorded (ops : List Op) (a : AggregateRoot) :
    (run ops a).1.flatten ++ (run ops a).2.events = a.events ++ recorded ops := by
  induction ops generalizing a with
  | nil => simp [run, recorded]
  | cons op ops ih =>
      cases op with
      | addEvent event =>
          rw [run, ih, recorded, addEvent, List.append_assoc]
          rfl
      | pullEvents =>
          rw [run, recorded]
          dsimp only [pullEvents]
          rw [List.flatten_cons, List.append_assoc, ih]
          rfl

theorem run_append (ops ops' : List Op) (a : AggregateRoot) :
    run (ops ++ ops') a =
      ((run ops a).1 ++ (run ops' (run ops a).2).1, (run ops' (run ops a).2).2) := by
  induction ops generalizing a with
  | nil => rfl
  | cons op ops ih =>
      cases op with
      | addEvent event => exact ih _
      | pullEvents =>
          rw [List.cons_append, run, run]
          dsimp only
          rw [ih]
          rfl

/-- Without a pull, events are only recorded. -/
theorem run_addEvents {ops : List Op} (h : .pullEvents ∉ ops) (a : AggregateRoot) :
    run ops a = ([], ⟨a.events ++ recorded ops⟩) := by
  induction ops generalizing a with
  | nil => rw [recorded, List.append_nil, run]
  | cons op ops ih =>
      rw [List.mem_cons, not_or] at h
      cases op with
      | addEvent event =>
          rw [run, ih h.2, recorded, addEvent, List.append_assoc]
          rfl
      | pullEvents => exact absurd rfl h.1

/-- **A pull leaves nothing over.**  The last one ends with what was recorded before it; what comes
after it is pending. -/
theorem run_pulled (before : List Op) {later : List Op} (h : .pullEvents ∉ later)
    (a : AggregateRoot) :
    (run (before ++ .pullEvents :: later) a).1.flatten = a.events ++ recorded before ∧
      (run (before ++ .pullEvents :: later) a).2.events = recorded later := by
  have hbefore := run_recorded before a
  have hlater : run (.pullEvents :: later) (run before a).2 =
      ([(run before a).2.events], ⟨recorded later⟩) := by
    rw [run]
    dsimp only [pullEvents]
    rw [run_addEvents h]
    rfl
  rw [run_append, hlater]
  refine ⟨?_, rfl⟩
  rw [List.flatten_append, List.flatten_singleton, hbefore]

end AggregateRoot

/-! ### The publisher -/

/-- A handler: which object it is, the events it takes, and its class. -/
structure DomainEventHandler where
  id : Nat
  eventName : String
  className : String

/-- The two counters of the publisher. -/
inductive Metric where
  | domainEventsPublished
  | domainEventHandlerFailures
  deriving DecidableEq

/-- What the publisher asks of a handler, the metrics and the logger. -/
inductive Call where
  | handle (handler : DomainEventHandler) (event : DomainEvent)
  | increment (metric : Metric) (event : String)
  | error (message event handler : String) (error : JsValue)

abbrev Call.Reply : Call → Type
  | .handle _ _ | .increment _ _ | .error _ _ _ _ => Unit

abbrev PublishM := Async Call.Reply JsValue

abbrev PublishEvent := Event Call.Reply JsValue

def increment (metric : Metric) (event : String) : PublishM Unit :=
  note (Call.increment metric event) ()

namespace InProcessDomainEventPublisher

/-- The body of the inner loop, for a handler of the event. -/
def deliver (handler : DomainEventHandler) (event : DomainEvent) : PublishM Unit :=
  catchError
    (do
      call (Call.handle handler event)
      increment .domainEventsPublished event.name)
    fun error => do
      note (Call.error "domain.event.handler.failed" event.name handler.className error) ()
      increment .domainEventHandlerFailures event.name

/-- The inner loop. -/
def dispatch (event : DomainEvent) : List DomainEventHandler → PublishM Unit
  | [] => pure ()
  | handler :: handlers => do
      if handler.eventName ≠ event.name then pure () else deliver handler event
      dispatch event handlers

def publish (handlers : List DomainEventHandler) : List DomainEvent → PublishM Unit
  | [] => pure ()
  | event :: events => do
      dispatch event handlers
      publish handlers events

/-- One list after the other is published. -/
def publishEach (handlers : List DomainEventHandler) : List (List DomainEvent) → PublishM Unit
  | [] => pure ()
  | events :: lists => do
      publish handlers events
      publishEach handlers lists

end InProcessDomainEventPublisher

/-! ### What it does -/

/-- The calls of `handle` in a trace. -/
def handleCalls : List PublishEvent → List (DomainEventHandler × DomainEvent)
  | [] => []
  | ⟨.handle handler event, _⟩ :: t => (handler, event) :: handleCalls t
  | ⟨.increment _ _, _⟩ :: t | ⟨.error _ _ _ _, _⟩ :: t => handleCalls t

/-- How often a metric is incremented for an event name. -/
def counted (metric : Metric) (name : String) : List PublishEvent → Nat
  | [] => 0
  | ⟨.increment m n, _⟩ :: t => (if m = metric ∧ n = name then 1 else 0) + counted metric name t
  | ⟨.handle _ _, _⟩ :: t | ⟨.error _ _ _ _, _⟩ :: t => counted metric name t

/-- How many calls of `handle` for an event name resolve, or how many reject. -/
def settled (ok : Bool) (name : String) : List PublishEvent → Nat
  | [] => 0
  | ⟨.handle _ event, answer⟩ :: t =>
      (if answer.isOk = ok ∧ event.name = name then 1 else 0) + settled ok name t
  | ⟨.increment _ _, _⟩ :: t | ⟨.error _ _ _ _, _⟩ :: t => settled ok name t

/-- The metrics say how the calls settled. -/
def Accounts (t : List PublishEvent) : Prop := ∀ name,
  counted .domainEventsPublished name t = settled true name t ∧
    counted .domainEventHandlerFailures name t = settled false name t

section Append

variable (t t' : List PublishEvent)

theorem handleCalls_append : handleCalls (t ++ t') = handleCalls t ++ handleCalls t' := by
  induction t with
  | nil => rfl
  | cons e t ih => rcases e with ⟨_ | _ | _, _⟩ <;> simp [handleCalls, ih]

theorem counted_append (metric : Metric) (name : String) :
    counted metric name (t ++ t') = counted metric name t + counted metric name t' := by
  induction t with
  | nil => simp [counted]
  | cons e t ih => rcases e with ⟨_ | _ | _, _⟩ <;> simp [counted, ih, Nat.add_assoc]

theorem settled_append (ok : Bool) (name : String) :
    settled ok name (t ++ t') = settled ok name t + settled ok name t' := by
  induction t with
  | nil => simp [settled]
  | cons e t ih => rcases e with ⟨_ | _ | _, _⟩ <;> simp [settled, ih, Nat.add_assoc]

end Append

theorem Accounts.append {t t' : List PublishEvent} (h : Accounts t) (h' : Accounts t') :
    Accounts (t ++ t') := by
  intro name
  rw [counted_append, counted_append, settled_append, settled_append, (h name).1, (h name).2,
    (h' name).1, (h' name).2]
  exact ⟨rfl, rfl⟩

/-- `x` resolves, having made exactly `calls`, and counts how each of them settled. -/
def Delivers (calls : List (DomainEventHandler × DomainEvent)) (x : PublishM Unit) : Prop :=
  ∀ env t, ∃ added, x env t = (.ok (), t ++ added) ∧ handleCalls added = calls ∧ Accounts added

namespace Delivers

open InProcessDomainEventPublisher

variable {calls calls' : List (DomainEventHandler × DomainEvent)} {x y : PublishM Unit}

theorem pure : Delivers [] (pure () : PublishM Unit) :=
  fun _ t => ⟨[], by simp, rfl, fun _ => ⟨rfl, rfl⟩⟩

theorem bind (hx : Delivers calls x) (hy : Delivers calls' y) :
    Delivers (calls ++ calls') (x >>= fun _ => y) := by
  intro env t
  obtain ⟨added, hrun, hcalls, hcounts⟩ := hx env t
  obtain ⟨added', hrun', hcalls', hcounts'⟩ := hy env (t ++ added)
  refine ⟨added ++ added', ?_, ?_, hcounts.append hcounts'⟩
  · rw [bind_ok env t hrun, hrun', List.append_assoc]
  · rw [handleCalls_append, hcalls, hcalls']

/-- A handler is called once; a failure is logged, counted and skipped. -/
theorem deliver (handler : DomainEventHandler) (event : DomainEvent) :
    Delivers [(handler, event)] (deliver handler event) := by
  intro env t
  cases h : env t (.handle handler event) with
  | ok answer =>
      refine ⟨[⟨.handle handler event, .ok answer⟩,
        ⟨.increment .domainEventsPublished event.name, .ok ()⟩], ?_, rfl, fun name => ?_⟩
      · refine catchError_ok env t ?_
        rw [bind_apply, call_apply, h]
        simp [increment]
      · simp [counted, settled, Except.isOk, Except.toBool]
  | error error =>
      refine ⟨[⟨.handle handler event, .error error⟩,
        ⟨.error "domain.event.handler.failed" event.name handler.className error, .ok ()⟩,
        ⟨.increment .domainEventHandlerFailures event.name, .ok ()⟩], ?_, rfl, fun name => ?_⟩
      · rw [InProcessDomainEventPublisher.deliver,
          @catchError_error _ _ _ _ env t _ _ error (t ++ [⟨.handle handler event, .error error⟩])
            (by rw [bind_apply, call_apply, h])]
        simp [bind_apply, increment]
      · simp [counted, settled, Except.isOk, Except.toBool]

/-- The calls for one event: the handlers of its name, in the order of their registration. -/
theorem dispatch (event : DomainEvent) (handlers : List DomainEventHandler) :
    Delivers ((handlers.filter fun handler => handler.eventName = event.name).map (·, event))
      (dispatch event handlers) := by
  induction handlers with
  | nil => exact .pure
  | cons handler handlers ih =>
      rw [InProcessDomainEventPublisher.dispatch, List.filter_cons]
      by_cases h : handler.eventName = event.name
      · rw [if_pos (decide_eq_true h), if_neg (not_not.mpr h)]
        exact (Delivers.deliver handler event).bind ih
      · rw [if_neg (by simpa using h), if_pos h]
        exact ih

end Delivers

/-- The calls that are due: for each event, each handler of its name. -/
def due (handlers : List DomainEventHandler) (events : List DomainEvent) :
    List (DomainEventHandler × DomainEvent) :=
  events.flatMap fun event =>
    (handlers.filter fun handler => handler.eventName = event.name).map (·, event)

open InProcessDomainEventPublisher

variable (handlers : List DomainEventHandler)

theorem publish_delivers (events : List DomainEvent) :
    Delivers (due handlers events) (publish handlers events) := by
  induction events with
  | nil => exact .pure
  | cons event events ih => exact (Delivers.dispatch event handlers).bind ih

theorem publishEach_delivers (lists : List (List DomainEvent)) :
    Delivers (due handlers lists.flatten) (publishEach handlers lists) := by
  induction lists with
  | nil => exact .pure
  | cons events lists ih =>
      rw [List.flatten_cons, due, List.flatMap_append]
      exact (publish_delivers handlers events).bind ih

/-- **Every event once, in order.**  However an aggregate is written to and pulled from, publishing
what was pulled resolves, whichever handlers fail; it calls, for each event in the order they were
recorded in, each handler of its name in the order of registration, once; and it counts each call as
it settled.  What was recorded before the last pull is all published; what was recorded after it is
what the aggregate still has. -/
theorem recorded_events_dispatched (ops : List AggregateRoot.Op) (env : Env Call.Reply JsValue)
    (t : List PublishEvent) :
    ∃ added,
      publishEach handlers (AggregateRoot.run ops ⟨[]⟩).1 env t = (.ok (), t ++ added) ∧
      handleCalls added = due handlers (AggregateRoot.run ops ⟨[]⟩).1.flatten ∧
      Accounts added ∧
      (AggregateRoot.run ops ⟨[]⟩).1.flatten ++ (AggregateRoot.run ops ⟨[]⟩).2.events =
        AggregateRoot.recorded ops ∧
      ∀ before later, ops = before ++ .pullEvents :: later → .pullEvents ∉ later →
        handleCalls added = due handlers (AggregateRoot.recorded before) ∧
        (AggregateRoot.run ops ⟨[]⟩).2.events = AggregateRoot.recorded later := by
  obtain ⟨added, hrun, hcalls, hcounts⟩ :=
    publishEach_delivers handlers (AggregateRoot.run ops ⟨[]⟩).1 env t
  refine ⟨added, hrun, hcalls, hcounts, AggregateRoot.run_recorded ops ⟨[]⟩, ?_⟩
  rintro before later rfl hlater
  obtain ⟨hpulled, hpending⟩ := AggregateRoot.run_pulled before hlater ⟨[]⟩
  rw [hpulled, List.nil_append] at hcalls
  exact ⟨hcalls, hpending⟩

/-! An order is placed and shipped; two handlers are to hear that it was placed, and one fails. -/

def DomainEvent.placed : DomainEvent := ⟨"order.placed", 0, .undefined⟩

def DomainEvent.shipped : DomainEvent := ⟨"order.shipped", 1, .undefined⟩

def DomainEventHandler.mail : DomainEventHandler := ⟨0, "order.placed", "SendMailHandler"⟩

def DomainEventHandler.audit : DomainEventHandler := ⟨1, "order.placed", "AuditHandler"⟩

def mailFails : Env Call.Reply JsValue := fun _ c =>
  match c with
  | .handle handler _ => if handler.id = 0 then .error (.string "smtp") else .ok ()
  | .increment _ _ | .error _ _ _ _ => .ok ()

theorem recorded_events_dispatched_placed :
    ∃ added,
      publishEach [.mail, .audit] [[.placed]] mailFails [] = (.ok (), added) ∧
      handleCalls added = [(.mail, .placed), (.audit, .placed)] ∧
      Accounts added := by
  obtain ⟨added, hrun, -, hcounts, -, hpulled⟩ := recorded_events_dispatched [.mail, .audit]
    [.addEvent .placed, .pullEvents, .addEvent .shipped] mailFails []
  exact ⟨added, hrun, (hpulled [.addEvent .placed] [.addEvent .shipped] rfl (by simp)).1, hcounts⟩

end NestDdd.Events

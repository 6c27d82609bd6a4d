import NestDdd.Runs.Machine
import NestDdd.Database.OracleClient

/-!
# Database — the client identifier over a pool

Calls of one `OracleClient` (`src/infrastructure/database/clients/oracle.client.ts`), interleaved in
any way over the connections of its pool, one driver call a step.  A changed `clientId` waits in the
driver for the next round trip; a round trip that fails may have reached the server, may not have
been sent, or may have been lost with what it carried.  The functions run on the connections make
any round trips, and set no `clientId`.

* `identity_never_leaks`: the first round trip a function makes on its connection runs under the
  context user resolved for its call, and under no identifier if there is none.
-/

namespace NestDdd.Database

open Runs

/-! ### Sessions -/

/-- What becomes of a round trip.  One that is not `reached` fails. -/
inductive Trip where
  | reached
  | unsent
  | lost
  deriving DecidableEq

/-- The client identifier of a connection: the one the driver has yet to send, and the one the
server has. -/
structure Session where
  pending : Option String
  server : String
  deriving DecidableEq

/-- No identifier, and none to send. -/
def Session.clean : Session := ⟨none, ""⟩

def Session.setClientId (se : Session) (user : String) : Session := { se with pending := some user }

def Session.trip (se : Session) : Trip → Session
  | .reached => ⟨none, se.pending.getD se.server⟩
  | .unsent => se
  | .lost => ⟨none, se.server⟩

@[simp] theorem Session.trip_clean (t : Trip) : Session.clean.trip t = .clean := by cases t <;> rfl

/-- A cleared session is clean once a round trip has reached the server. -/
theorem Session.trip_reached {se : Session} (h : se.pending = some "") :
    se.trip .reached = .clean := by
  rw [Session.trip, h]; rfl

/-! ### Calls -/

/-- A call of the client. -/
inductive Method where
  | withConnection (options : ConnectionOptions)
  | transaction (options : ConnectionOptions)
  | ping (timeoutMs : Int)

/-- The options a call borrows its connection with. -/
def Method.options : Method → ConnectionOptions
  | .withConnection options | .transaction options => options
  | .ping timeoutMs => ⟨none, some timeoutMs, some "ping", none⟩

def Method.commits : Method → Bool
  | .transaction _ => true
  | .withConnection _ | .ping _ => false

abbrev CallId := Nat

/-- Where a call is.  `user` is empty when there is no context user; `tripped` says that a round
trip of the function has taken what the driver had to send. -/
inductive Phase where
  | idle
  | borrowing (method : Method) (user : String)
  | running (method : Method) (user : String) (c : Conn) (tripped : Bool)
  | committing (user : String) (c : Conn)
  | rollingBack (user : String) (c : Conn)
  | clearing (c : Conn)
  | closing (c : Conn) (drop : Bool)
  | done

/-- The connection a call has borrowed and not yet given back. -/
def Phase.connection : Phase → Option Conn
  | .running _ _ c _ | .committing _ c | .rollingBack _ c | .clearing c | .closing c _ => some c
  | .idle | .borrowing _ _ | .done => none

/-- Where a connection is. -/
inductive Place where
  | pooled
  | lent (i : CallId)
  | gone
  deriving DecidableEq

/-- The identifier the server had at the first round trip of a function that reached it. -/
structure Sighting where
  call : CallId
  method : Method
  clientIdentifier : String

structure PoolState where
  place : Conn → Place
  session : Conn → Session
  phase : CallId → Phase
  seen : List Sighting

/-- No call has been made, and no session has an identifier. -/
def PoolState.fresh : PoolState := ⟨fun _ => .pooled, fun _ => .clean, fun _ => .idle, []⟩

namespace PoolState

/-- A call moves on without a connection. -/
def goto (s : PoolState) (i : CallId) (p : Phase) : PoolState :=
  { s with phase := Function.update s.phase i p }

/-- A call moves on, and its connection with it. -/
def set (s : PoolState) (i : CallId) (p : Phase) (c : Conn) (place : Place) (se : Session) :
    PoolState where
  place := Function.update s.place c place
  session := Function.update s.session c se
  phase := Function.update s.phase i p
  seen := s.seen

/-- A call moves on with a connection that is lent to it. -/
def move (s : PoolState) (i : CallId) (p : Phase) (c : Conn) (se : Session) : PoolState :=
  s.set i p c (.lent i) se

def see (s : PoolState) (o : List Sighting) : PoolState := { s with seen := s.seen ++ o }

section

variable (s : PoolState) (i : CallId) (p : Phase) (c : Conn) (se : Session) (place : Place)

@[simp] theorem goto_phase : (s.goto i p).phase = Function.update s.phase i p := rfl
@[simp] theorem set_phase : (s.set i p c place se).phase = Function.update s.phase i p := rfl
@[simp] theorem set_place : (s.set i p c place se).place = Function.update s.place c place := rfl
@[simp] theorem set_session :
    (s.set i p c place se).session = Function.update s.session c se := rfl
@[simp] theorem see_phase (o : List Sighting) : (s.see o).phase = s.phase := rfl

end

/-- `finally { await this.release(connection, !!contextUser) }`. -/
def release (s : PoolState) (i : CallId) (user : String) (c : Conn) (se : Session) : PoolState :=
  if user = "" then s.move i (.closing c false) c se
  else s.move i (.clearing c) c (se.setClientId "")

end PoolState

inductive PoolLabel where
  | call (i : CallId) (method : Method)
  | refuse (i : CallId)
  | lend (i : CallId) (c : Conn)
  | trip (i : CallId) (t : Trip)
  | settle (i : CallId) (ok : Bool)
  | commit (i : CallId) (t : Trip) (ok : Bool)
  | rollback (i : CallId) (t : Trip)
  | clear (i : CallId) (t : Trip) (ok : Bool)
  | close (i : CallId) (back : Bool)

section

variable (source : OracleSource)

def poolStep (s : PoolState) : PoolLabel → Option PoolState
  | .call i method =>
      match s.phase i with
      | .idle =>
          match resolveContextUser source method.options with
          | .ok contextUser => some (s.goto i (.borrowing method (contextUser.getD "")))
          | .error _ => some (s.goto i .done)
      | _ => none
  | .refuse i =>
      match s.phase i with
      | .borrowing _ _ => some (s.goto i .done)
      | _ => none
  | .lend i c =>
      match s.phase i, s.place c with
      | .borrowing method user, .pooled =>
          let se := if user = "" then s.session c else (s.session c).setClientId user
          some (s.move i (.running method user c false) c se)
      | _, _ => none
  | .trip i t =>
      match s.phase i with
      | .running method user c tripped =>
          let se := (s.session c).trip t
          let o := if t = .reached && !tripped then [⟨i, method, se.server⟩] else []
          some ((s.see o).move i (.running method user c (tripped || t ≠ .unsent)) c se)
      -- a round trip that the function started and did not await
      | .committing user c => some (s.move i (.committing user c) c ((s.session c).trip t))
      | .rollingBack user c => some (s.move i (.rollingBack user c) c ((s.session c).trip t))
      | _ => none
  | .settle i ok =>
      match s.phase i with
      | .running method user c _ =>
          if method.commits then
            let next := if ok then .committing user c else .rollingBack user c
            some (s.move i next c (s.session c))
          else some (s.release i user c (s.session c))
      | _ => none
  | .commit i t ok =>
      match s.phase i with
      | .committing user c =>
          let se := (s.session c).trip t
          if ok then
            if t = .reached then some (s.release i user c se) else none
          else some (s.move i (.rollingBack user c) c se)
      | _ => none
  | .rollback i t =>
      match s.phase i with
      | .rollingBack user c => some (s.release i user c ((s.session c).trip t))
      | _ => none
  | .clear i t ok =>
      match s.phase i with
      | .clearing c =>
          if ok = true ∧ t ≠ .reached then none
          else some (s.move i (.closing c (!ok)) c ((s.session c).trip t))
      | _ => none
  | .close i back =>
      match s.phase i with
      | .closing c drop =>
          -- a dropped connection never returns to the pool
          let place := if back && !drop then .pooled else .gone
          some (s.set i .done c place (s.session c))
      | _ => none

def pool : Machine PoolState PoolLabel := ⟨poolStep source⟩

end

variable {source : OracleSource} {s s' : PoolState} {i : CallId} {c : Conn}

/-! ### What a step does -/

/-- The steps of the pool, one for each way a step may go. -/
inductive PoolState.Takes (source : OracleSource) (s : PoolState) :
    PoolLabel → PoolState → Prop where
  | call {i : CallId} {method : Method} {contextUser : Option String} (hp : s.phase i = .idle)
      (h : resolveContextUser source method.options = .ok contextUser) :
      Takes source s (.call i method) (s.goto i (.borrowing method (contextUser.getD "")))
  | reject {i : CallId} {method : Method} (hp : s.phase i = .idle) :
      Takes source s (.call i method) (s.goto i .done)
  | refuse {i : CallId} {method : Method} {user : String}
      (hp : s.phase i = .borrowing method user) : Takes source s (.refuse i) (s.goto i .done)
  | lend {i : CallId} {c : Conn} {method : Method} {user : String}
      (hp : s.phase i = .borrowing method user) (hc : s.place c = .pooled) :
      Takes source s (.lend i c) (s.move i (.running method user c false) c
        (if user = "" then s.session c else (s.session c).setClientId user))
  | trip {i : CallId} {c : Conn} {method : Method} {user : String} {tripped : Bool} (t : Trip)
      (hp : s.phase i = .running method user c tripped) :
      Takes source s (.trip i t) ((s.see (if t = .reached && !tripped then
        [⟨i, method, ((s.session c).trip t).server⟩] else [])).move i
          (.running method user c (tripped || t ≠ .unsent)) c ((s.session c).trip t))
  | tripCommitting {i : CallId} {c : Conn} {user : String} (t : Trip)
      (hp : s.phase i = .committing user c) :
      Takes source s (.trip i t) (s.move i (.committing user c) c ((s.session c).trip t))
  | tripRollingBack {i : CallId} {c : Conn} {user : String} (t : Trip)
      (hp : s.phase i = .rollingBack user c) :
      Takes source s (.trip i t) (s.move i (.rollingBack user c) c ((s.session c).trip t))
  | settle {i : CallId} {c : Conn} {method : Method} {user : String} {tripped : Bool} (ok : Bool)
      (hp : s.phase i = .running method user c tripped) (hm : method.commits = true) :
      Takes source s (.settle i ok)
        (s.move i (if ok then .committing user c else .rollingBack user c) c (s.session c))
  | settleConnection {i : CallId} {c : Conn} {method : Method} {user : String} {tripped : Bool}
      (ok : Bool) (hp : s.phase i = .running method user c tripped)
      (hm : method.commits = false) :
      Takes source s (.settle i ok) (s.release i user c (s.session c))
  | commit {i : CallId} {c : Conn} {user : String} (hp : s.phase i = .committing user c) :
      Takes source s (.commit i .reached true)
        (s.release i user c ((s.session c).trip .reached))
  | commitFailed {i : CallId} {c : Conn} {user : String} (t : Trip)
      (hp : s.phase i = .committing user c) :
      Takes source s (.commit i t false)
        (s.move i (.rollingBack user c) c ((s.session c).trip t))
  | rollback {i : CallId} {c : Conn} {user : String} (t : Trip)
      (hp : s.phase i = .rollingBack user c) :
      Takes source s (.rollback i t) (s.release i user c ((s.session c).trip t))
  | clear {i : CallId} {c : Conn} {t : Trip} {ok : Bool} (hp : s.phase i = .clearing c)
      (ht : ok = true → t = .reached) :
      Takes source s (.clear i t ok) (s.move i (.closing c (!ok)) c ((s.session c).trip t))
  | close {i : CallId} {c : Conn} {drop : Bool} (back : Bool) (hp : s.phase i = .closing c drop) :
      Takes source s (.close i back)
        (s.set i .done c (if back && !drop then .pooled else .gone) (s.session c))

theorem pool_takes {l : PoolLabel} (h : (pool source).step s l = some s') :
    s.Takes source l s' := by
  cases l with
  | call i method =>
      simp only [pool, poolStep] at h
      split at h
      next hp =>
        split at h <;> cases h
        next huser => exact .call hp huser
        next => exact .reject hp
      next => cases h
  | refuse i =>
      simp only [pool, poolStep] at h
      split at h
      next hp => cases h; exact .refuse hp
      next => cases h
  | lend i c =>
      simp only [pool, poolStep] at h
      split at h
      next hp hc => cases h; exact .lend hp hc
      next => cases h
  | trip i t =>
      simp only [pool, poolStep] at h
      split at h
      next hp => cases h; exact .trip t hp
      next hp => cases h; exact .tripCommitting t hp
      next hp => cases h; exact .tripRollingBack t hp
      next => cases h
  | settle i ok =>
      simp only [pool, poolStep] at h
      split at h
      next hp =>
        split at h <;> cases h
        next hm => exact .settle ok hp hm
        next hm => exact .settleConnection ok hp (Bool.eq_false_iff.mpr hm)
      next => cases h
  | commit i t ok =>
      simp only [pool, poolStep] at h
      split at h
      next hp =>
        cases ok with
        | true =>
            obtain ⟨rfl, h⟩ := Option.ite_none_right_eq_some.mp h
            cases h
            exact .commit hp
        | false => cases h; exact .commitFailed t hp
      next => cases h
  | rollback i t =>
      simp only [pool, poolStep] at h
      split at h
      next hp => cases h; exact .rollback t hp
      next => cases h
  | clear i t ok =>
      simp only [pool, poolStep] at h
      split at h
      next hp =>
        obtain ⟨hok, h⟩ := Option.ite_none_left_eq_some.mp h
        cases h
        exact .clear hp fun ho => by_contra fun ht => hok ⟨ho, ht⟩
      next => cases h
  | close i back =>
      simp only [pool, poolStep] at h
      split at h
      next hp => cases h; exact .close back hp
      next => cases h

/-! ### The life of a call -/

/-- The call that takes a step. -/
def PoolLabel.caller : PoolLabel → CallId
  | .call i _ | .refuse i | .lend i _ | .trip i _ | .settle i _ | .commit i _ _ | .rollback i _
  | .clear i _ _ | .close i _ => i

/-- What `release` leads to. -/
def Phase.Releases (c : Conn) (p : Phase) : Prop := p = .closing c false ∨ p = .clearing c

/-- What a step makes of the phase of its call. -/
inductive Phase.Next : PoolLabel → Phase → Phase → Prop where
  | call {i method user} : Next (.call i method) .idle (.borrowing method user)
  | reject {i method} : Next (.call i method) .idle .done
  | refuse {i method user} : Next (.refuse i) (.borrowing method user) .done
  | lend {i c method user} :
      Next (.lend i c) (.borrowing method user) (.running method user c false)
  | trip {i t method user c tripped tripped'} :
      Next (.trip i t) (.running method user c tripped) (.running method user c tripped')
  | tripCommitting {i t user c} : Next (.trip i t) (.committing user c) (.committing user c)
  | tripRollingBack {i t user c} : Next (.trip i t) (.rollingBack user c) (.rollingBack user c)
  | settle {i ok method user c tripped} (h : method.commits = true) :
      Next (.settle i ok) (.running method user c tripped)
        (if ok then .committing user c else .rollingBack user c)
  | settleConnection {i ok method user c tripped p} (h : method.commits = false)
      (hp : p.Releases c) : Next (.settle i ok) (.running method user c tripped) p
  | commit {i t user c p} (hp : p.Releases c) : Next (.commit i t true) (.committing user c) p
  | commitFailed {i t user c} : Next (.commit i t false) (.committing user c) (.rollingBack user c)
  | rollback {i t user c p} (hp : p.Releases c) : Next (.rollback i t) (.rollingBack user c) p
  | clear {i t ok c} : Next (.clear i t ok) (.clearing c) (.closing c (!ok))
  | close {i back c drop} : Next (.close i back) (.closing c drop) .done

theorem PoolState.release_phase {user : String} {se : Session} :
    ∃ p, (s.release i user c se).phase = Function.update s.phase i p ∧ p.Releases c := by
  unfold PoolState.release
  split
  · exact ⟨_, rfl, .inl rfl⟩
  · exact ⟨_, rfl, .inr rfl⟩

/-- A step moves its call on, and no other. -/
theorem pool_next {l : PoolLabel} (h : (pool source).step s l = some s') :
    ∃ p, s'.phase = Function.update s.phase l.caller p ∧ (s.phase l.caller).Next l p := by
  cases pool_takes h with
  | call hp huser => exact ⟨_, rfl, by rw [PoolLabel.caller, hp]; exact .call⟩
  | reject hp => exact ⟨_, rfl, by rw [PoolLabel.caller, hp]; exact .reject⟩
  | refuse hp => exact ⟨_, rfl, by rw [PoolLabel.caller, hp]; exact .refuse⟩
  | lend hp hc => exact ⟨_, rfl, by rw [PoolLabel.caller, hp]; exact .lend⟩
  | trip t hp => exact ⟨_, rfl, by rw [PoolLabel.caller, hp]; exact .trip⟩
  | tripCommitting t hp => exact ⟨_, rfl, by rw [PoolLabel.caller, hp]; exact .tripCommitting⟩
  | tripRollingBack t hp => exact ⟨_, rfl, by rw [PoolLabel.caller, hp]; exact .tripRollingBack⟩
  | settle ok hp hm => exact ⟨_, rfl, by rw [PoolLabel.caller, hp]; exact .settle hm⟩
  | settleConnection ok hp hm =>
      obtain ⟨p, hphase, hrel⟩ := PoolState.release_phase
      exact ⟨p, hphase, by rw [PoolLabel.caller, hp]; exact .settleConnection hm hrel⟩
  | commit hp =>
      obtain ⟨p, hphase, hrel⟩ := PoolState.release_phase
      exact ⟨p, hphase, by rw [PoolLabel.caller, hp]; exact .commit hrel⟩
  | commitFailed t hp => exact ⟨_, rfl, by rw [PoolLabel.caller, hp]; exact .commitFailed⟩
  | rollback t hp =>
      obtain ⟨p, hphase, hrel⟩ := PoolState.release_phase
      exact ⟨p, hphase, by rw [PoolLabel.caller, hp]; exact .rollback hrel⟩
  | clear hp ht => exact ⟨_, rfl, by rw [PoolLabel.caller, hp]; exact .clear⟩
  | close back hp => exact ⟨_, rfl, by rw [PoolLabel.caller, hp]; exact .close⟩

/-! ### The invariant -/

/-- What a phase says about the session of its connection. -/
def Phase.Fits : Phase → Session → Prop
  | .running _ user _ tripped, se =>
      (user = "" → se = .clean) ∧ (user ≠ "" → tripped = false → se.pending = some user)
  | .committing user _, se | .rollingBack user _, se => user = "" → se = .clean
  | .clearing _, se => se.pending = some ""
  | .closing _ drop, se => drop = false → se = .clean
  | .idle, _ | .borrowing _ _, _ | .done, _ => True

/-- A round trip of the function keeps what a running call says of its session. -/
theorem Phase.Fits.trip {method : Method} {user : String} {tripped : Bool} {se : Session} (t : Trip)
    (h : (Phase.running method user c tripped).Fits se) :
    (Phase.running method user c (tripped || t ≠ .unsent)).Fits (se.trip t) := by
  refine ⟨fun hu => by rw [h.1 hu, Session.trip_clean], fun hu ht => ?_⟩
  rw [Bool.or_eq_false_iff] at ht
  obtain rfl : t = .unsent := by simpa using ht.2
  exact h.2 hu ht.1

/-- The first round trip of a function that reaches the server carries the user of its call. -/
theorem Phase.Fits.first {method : Method} {user : String} {se : Session}
    (h : (Phase.running method user c false).Fits se) : (se.trip .reached).server = user := by
  by_cases hu : user = ""
  · rw [h.1 hu, hu]; rfl
  · rw [Session.trip, h.2 hu rfl]; rfl

/-- The user of a call is the one that was resolved for it. -/
def Phase.Resolved (source : OracleSource) : Phase → Prop
  | .borrowing method user | .running method user _ _ =>
      ∃ contextUser, resolveContextUser source method.options = .ok contextUser ∧
        user = contextUser.getD ""
  | _ => True

/-- The identifier is the user resolved for the call, and empty if there is none. -/
def Sighting.Own (source : OracleSource) (o : Sighting) : Prop :=
  ∃ contextUser, resolveContextUser source o.method.options = .ok contextUser ∧
    o.clientIdentifier = contextUser.getD ""

structure PoolState.Inv (source : OracleSource) (s : PoolState) : Prop where
  lent : ∀ i c, (s.phase i).connection = some c ↔ s.place c = .lent i
  pooled : ∀ c, s.place c = .pooled → s.session c = .clean
  fits : ∀ i c, (s.phase i).connection = some c → (s.phase i).Fits (s.session c)
  resolved : ∀ i, (s.phase i).Resolved source
  seen : ∀ o ∈ s.seen, o.Own source

theorem PoolState.Inv.fresh : PoolState.fresh.Inv source where
  lent _ _ := ⟨fun h => (nomatch h), fun h => (nomatch h)⟩
  pooled _ _ := rfl
  fits _ _ h := nomatch h
  resolved _ := trivial
  seen _ h := nomatch h

namespace PoolState

theorem Inv.fitsAt (hi : s.Inv source) {p : Phase} (hp : s.phase i = p)
    (hc : p.connection = some c) : p.Fits (s.session c) :=
  hp ▸ hi.fits i c (hp ▸ hc)

theorem Inv.resolvedAt (hi : s.Inv source) {p : Phase} (hp : s.phase i = p) : p.Resolved source :=
  hp ▸ hi.resolved i

/-- A round trip leaves the session of a call without a user as it is. -/
theorem Inv.cleanTrip (hi : s.Inv source) {p : Phase} {user : String} (hp : s.phase i = p)
    (h : p = .committing user c ∨ p = .rollingBack user c) (t : Trip) :
    user = "" → (s.session c).trip t = .clean := by
  intro hu
  obtain rfl | rfl := h
  · rw [hi.fitsAt hp rfl hu, Session.trip_clean]
  · rw [hi.fitsAt hp rfl hu, Session.trip_clean]

/-- A step of a call that holds no connection. -/
theorem Inv.goto (hi : s.Inv source) {p : Phase} (h : (s.phase i).connection = none)
    (hp : p.connection = none) (hres : p.Resolved source) : (s.goto i p).Inv source := by
  have hphase : ∀ j, ((s.goto i p).phase j).connection = (s.phase j).connection := by
    intro j
    by_cases hj : j = i
    · rw [hj, h, goto_phase, Function.update_self, hp]
    · rw [goto_phase, Function.update_of_ne hj]
  refine ⟨fun j c => by rw [hphase]; exact hi.lent j c, hi.pooled, fun j c hc => ?_, fun j => ?_,
    hi.seen⟩
  · rw [hphase] at hc
    have hj : j ≠ i := by rintro rfl; rw [h] at hc; cases hc
    rw [goto_phase, Function.update_of_ne hj]
    exact hi.fits j c hc
  · by_cases hj : j = i
    · rw [hj, goto_phase, Function.update_self]; exact hres
    · rw [goto_phase, Function.update_of_ne hj]; exact hi.resolved j

/-- A step of a call with a connection that no other call holds. -/
theorem Inv.set (hi : s.Inv source) {p : Phase} {place : Place} {se : Session}
    (hfree : s.place c = .pooled ∨ s.place c = .lent i)
    (hown : ∀ c', (s.phase i).connection = some c' → c' = c)
    (hp : ∀ c', p.connection = some c' ↔ c' = c ∧ place = .lent i)
    (hplace : ∀ j, place = .lent j → j = i) (hclean : place = .pooled → se = .clean)
    (hfits : place = .lent i → p.Fits se) (hres : p.Resolved source) :
    (s.set i p c place se).Inv source := by
  -- no other call can be holding `c`
  have hother : ∀ j, j ≠ i → (s.phase j).connection ≠ some c := fun j hj hc => by
    have := (hi.lent j c).mp hc
    rcases hfree with hf | hf <;> rw [hf] at this <;> cases this
    exact hj rfl
  refine ⟨fun j c' => ?_, fun c' hc' => ?_, fun j c' hc' => ?_, fun j => ?_, hi.seen⟩
  · rw [set_phase, set_place]
    by_cases hj : j = i
    · subst hj
      rw [Function.update_self, hp]
      by_cases hc : c' = c
      · rw [hc, Function.update_self]; exact ⟨fun h => h.2, fun h => ⟨rfl, h⟩⟩
      · rw [Function.update_of_ne hc, ← hi.lent]
        exact ⟨fun h => absurd h.1 hc, fun h => absurd (hown _ h) hc⟩
    · rw [Function.update_of_ne hj]
      by_cases hc : c' = c
      · rw [hc, Function.update_self]
        exact ⟨fun h => absurd h (hother j hj), fun h => absurd (hplace j h) hj⟩
      · rw [Function.update_of_ne hc]; exact hi.lent j c'
  · rw [set_place] at hc'
    rw [set_session]
    by_cases hc : c' = c
    · subst hc
      rw [Function.update_self] at hc' ⊢
      exact hclean hc'
    · rw [Function.update_of_ne hc] at hc' ⊢
      exact hi.pooled c' hc'
  · rw [set_phase] at hc' ⊢
    rw [set_session]
    by_cases hj : j = i
    · subst hj
      rw [Function.update_self] at hc' ⊢
      obtain ⟨rfl, hl⟩ := (hp c').mp hc'
      rw [Function.update_self]
      exact hfits hl
    · rw [Function.update_of_ne hj] at hc' ⊢
      have hc : c' ≠ c := by rintro rfl; exact hother j hj hc'
      rw [Function.update_of_ne hc]
      exact hi.fits j c' hc'
  · rw [set_phase]
    by_cases hj : j = i
    · rw [hj, Function.update_self]; exact hres
    · rw [Function.update_of_ne hj]; exact hi.resolved j

/-- A call moves on with its connection, or with one that leaves the pool. -/
theorem Inv.move (hi : s.Inv source) {p : Phase} {se : Session}
    (h : (s.phase i).connection = some c ∨ (s.phase i).connection = none ∧ s.place c = .pooled)
    (hp : p.connection = some c) (hfits : p.Fits se) (hres : p.Resolved source) :
    (s.move i p c se).Inv source := by
  refine hi.set ?_ ?_ (fun c' => by rw [hp]; simp [eq_comm]) (fun j hj => by cases hj; rfl)
    (fun h => nomatch h) (fun _ => hfits) hres
  · rcases h with h | ⟨-, h⟩
    · exact .inr ((hi.lent i c).mp h)
    · exact .inl h
  · intro c' hc'
    rcases h with h | ⟨h, -⟩ <;> rw [h] at hc' <;> cases hc'
    rfl

theorem Inv.see (hi : s.Inv source) {o : List Sighting} (ho : ∀ x ∈ o, x.Own source) :
    (s.see o).Inv source := by
  refine ⟨hi.lent, hi.pooled, hi.fits, hi.resolved, fun x hx => ?_⟩
  rcases List.mem_append.mp hx with hx | hx
  · exact hi.seen x hx
  · exact ho x hx

theorem Inv.release (hi : s.Inv source) {user : String} {se : Session}
    (h : (s.phase i).connection = some c) (hfits : user = "" → se = .clean) :
    (s.release i user c se).Inv source := by
  unfold PoolState.release
  split
  next hu => exact hi.move (.inl h) rfl (fun _ => hfits hu) trivial
  next => exact hi.move (.inl h) rfl rfl trivial

end PoolState

/-- One step keeps the invariant. -/
theorem PoolState.Inv.step {l : PoolLabel} (hi : s.Inv source)
    (h : (pool source).step s l = some s') : s'.Inv source := by
  cases pool_takes h with
  | call hp huser => exact hi.goto (by rw [hp]; rfl) rfl ⟨_, huser, rfl⟩
  | reject hp => exact hi.goto (by rw [hp]; rfl) rfl trivial
  | refuse hp => exact hi.goto (by rw [hp]; rfl) rfl trivial
  | @lend i c method user hp hc =>
      have hres := hi.resolvedAt hp
      refine hi.move (.inr ⟨by rw [hp]; rfl, hc⟩) rfl ⟨fun hu => ?_, fun hu _ => ?_⟩ hres
      · rw [if_pos hu]; exact hi.pooled c hc
      · rw [if_neg hu]; rfl
  | @trip i c method user tripped t hp =>
      have hfits := hi.fitsAt hp rfl
      have hres := hi.resolvedAt hp
      refine Inv.move (hi.see fun o ho => ?_) (.inl (by rw [see_phase, hp]; rfl)) rfl
        (hfits.trip t) hres
      split at ho
      next hfirst =>
        -- the first round trip to reach the server carries what `lend` set
        obtain rfl := List.mem_singleton.mp ho
        obtain ⟨rfl, rfl⟩ : t = .reached ∧ tripped = false := by simpa using hfirst
        obtain ⟨contextUser, huser, rfl⟩ := hres
        exact ⟨contextUser, huser, hfits.first⟩
      next => cases ho
  | tripCommitting t hp =>
      exact hi.move (.inl (by rw [hp]; rfl)) rfl (hi.cleanTrip hp (.inl rfl) t) trivial
  | tripRollingBack t hp =>
      exact hi.move (.inl (by rw [hp]; rfl)) rfl (hi.cleanTrip hp (.inr rfl) t) trivial
  | settle ok hp hm =>
      exact hi.move (.inl (by rw [hp]; rfl)) (by cases ok <;> rfl)
        (by cases ok <;> exact (hi.fitsAt hp rfl).1) (by cases ok <;> trivial)
  | settleConnection ok hp hm => exact hi.release (by rw [hp]; rfl) (hi.fitsAt hp rfl).1
  | commit hp => exact hi.release (by rw [hp]; rfl) (hi.cleanTrip hp (.inl rfl) .reached)
  | commitFailed t hp =>
      exact hi.move (.inl (by rw [hp]; rfl)) rfl (hi.cleanTrip hp (.inl rfl) t) trivial
  | rollback t hp => exact hi.release (by rw [hp]; rfl) (hi.cleanTrip hp (.inr rfl) t)
  | @clear i c t ok hp ht =>
      refine hi.move (.inl (by rw [hp]; rfl)) rfl (fun hdrop => ?_) trivial
      -- a ping that succeeds has carried the empty identifier to the server
      obtain rfl : t = .reached := ht (by simpa using hdrop)
      exact Session.trip_reached (hi.fitsAt hp rfl)
  | @close i c drop back hp =>
      refine hi.set (.inr ((hi.lent i c).mp (by rw [hp]; rfl)))
        (fun c' hc' => by rw [hp] at hc'; cases hc'; rfl) (fun c' => ?_) (fun j hj => ?_)
        (fun hclean => ?_) (fun _ => trivial) trivial
      · exact ⟨fun h => (nomatch h), fun h => by split at h <;> cases h.2⟩
      · split at hj <;> cases hj
      · split at hclean
        next hback => exact hi.fitsAt hp rfl (by simpa using And.right (by simpa using hback))
        next => cases hclean

theorem PoolState.Inv.run {ls : List PoolLabel} (r : Run (pool source) Free PoolState.fresh ls s) :
    s.Inv source :=
  r.invariant (I := PoolState.Inv source) .fresh fun _ _ _ hi h _ => hi.step h

/-- **Identity never leaks between borrowers.**  Whatever calls are made and however they are
interleaved, the first round trip of a function runs under the context user resolved for its call,
and under no identifier if there is none. -/
theorem identity_never_leaks {ls : List PoolLabel}
    (r : Run (pool source) Free PoolState.fresh ls s) :
    ∀ o ∈ s.seen, ∃ contextUser, resolveContextUser source o.method.options = .ok contextUser ∧
      o.clientIdentifier = contextUser.getD "" :=
  (PoolState.Inv.run r).seen

/-- Alice's function fails; the connection is cleared and goes to a caller without a user. -/
def reborrow : List PoolLabel :=
  [.call 0 (.withConnection ⟨some "alice", none, none, none⟩), .lend 0 7, .trip 0 .reached,
    .settle 0 false, .clear 0 .reached true, .close 0 true, .call 1 (.ping 3000), .lend 1 7,
    .trip 1 .reached]

/-- Her identifier does not go with it. -/
theorem identity_never_leaks_reborrowed :
    ∃ s, (pool .main).exec .fresh reborrow = some s ∧
      s.seen.map Sighting.clientIdentifier = ["alice", ""] ∧
      ∀ o ∈ s.seen, ∃ contextUser,
        resolveContextUser .main o.method.options = .ok contextUser ∧
          o.clientIdentifier = contextUser.getD "" :=
  ⟨_, rfl, rfl, @identity_never_leaks _ _ reborrow (.of_exec rfl fun _ _ _ _ => trivial)⟩

end NestDdd.Database

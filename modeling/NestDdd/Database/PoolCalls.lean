import NestDdd.Database.Pool

/-!
# Database — the calls of the pool

The steps a call takes in `Pool` are those of `OracleClient`, cut at its round trips.  A trace says
how each round trip settled, and not what became of one that failed: `Hears` is what the session of
a connection may go through by the events of a trace.

* `perform_runs`: whatever the session goes through by the trace of a call, the pool has a run in
  which the call goes through the same.
* `perform_leaves_clean`: so a connection that a call does not drop is left without an identifier.
-/

namespace NestDdd.Database

open Runs Runs.Async

/-! ### What a session hears -/

/-- A round trip that resolved has reached the server. -/
def Trip.Carries {α : Type} (t : Trip) (settled : Except DbError α) : Prop :=
  settled.isOk = true → t = .reached

/-- The connection a call goes to the server on. -/
def DbCall.roundTrip : DbCall → Option Conn
  | .execute c _ | .commit c | .rollback c | .ping c => some c
  | .getConnection | .setCallTimeout _ _ | .setClientId _ _ | .close _ _ | .warn _ => none

/-- The call neither goes to the server nor sets a `clientId`. -/
def DbCall.quiet : DbCall → Bool
  | .getConnection | .setCallTimeout _ _ | .close _ _ | .warn _ => true
  | .execute _ _ | .commit _ | .rollback _ | .ping _ | .setClientId _ _ => false

theorem DbCall.roundTrip_of_quiet {call : DbCall} (h : call.quiet = true) :
    call.roundTrip = none := by
  cases call <;> first | rfl | cases h

theorem DbCall.quiet_of_isWarn {call : DbCall} (h : call.isWarn = true) : call.quiet = true := by
  cases call <;> first | rfl | cases h

/-- What the session of `c` may go through by the events of a trace. -/
inductive Session.Hears (c : Conn) : Session → List DbEvent → Session → Prop where
  | nil {se : Session} : Hears c se [] se
  | setClientId {se se' : Session} {user : String} {r : Except DbError Unit} {t : List DbEvent}
      (h : Hears c (se.setClientId user) t se') : Hears c se (⟨.setClientId c user, r⟩ :: t) se'
  | trip {se se' : Session} {e : DbEvent} {t : List DbEvent} {trip : Trip}
      (hc : e.1.roundTrip = some c) (ht : trip.Carries e.2) (h : Hears c (se.trip trip) t se') :
      Hears c se (e :: t) se'
  | quiet {se se' : Session} {e : DbEvent} {t : List DbEvent} (hq : e.1.quiet = true)
      (h : Hears c se t se') : Hears c se (e :: t) se'

namespace Session.Hears

variable {c : Conn} {se se' : Session} {t t' : List DbEvent} {e : DbEvent}

theorem append_inv (h : Hears c se (t ++ t') se') :
    ∃ se₁, Hears c se t se₁ ∧ Hears c se₁ t' se' := by
  induction t generalizing se with
  | nil => exact ⟨se, .nil, h⟩
  | cons e t ih =>
      cases h with
      | setClientId h => obtain ⟨se₁, h₁, h₂⟩ := ih h; exact ⟨se₁, .setClientId h₁, h₂⟩
      | trip hc ht h => obtain ⟨se₁, h₁, h₂⟩ := ih h; exact ⟨se₁, .trip hc ht h₁, h₂⟩
      | quiet hq h => obtain ⟨se₁, h₁, h₂⟩ := ih h; exact ⟨se₁, .quiet hq h₁, h₂⟩

theorem quiet_inv (hq : e.1.quiet = true) (h : Hears c se (e :: t) se') : Hears c se t se' := by
  cases h with
  | setClientId h => cases hq
  | trip hc ht h => rw [DbCall.roundTrip_of_quiet hq] at hc; cases hc
  | quiet hq h => exact h

theorem quiets_inv (hq : ∀ e ∈ t, e.1.quiet = true) (h : Hears c se t se') : se' = se := by
  induction t with
  | nil => cases h; rfl
  | cons e t ih =>
      exact ih (fun e he => hq e (List.mem_cons_of_mem _ he))
        (h.quiet_inv (hq e List.mem_cons_self))

theorem trip_inv (hc : e.1.roundTrip = some c) (h : Hears c se (e :: t) se') :
    ∃ trip : Trip, trip.Carries e.2 ∧ Hears c (se.trip trip) t se' := by
  cases h with
  | setClientId h => cases hc
  | trip hc ht h => exact ⟨_, ht, h⟩
  | quiet hq h => rw [DbCall.roundTrip_of_quiet hq] at hc; cases hc

theorem setClientId_inv {user : String} {r : Except DbError Unit}
    (h : Hears c se (⟨.setClientId c user, r⟩ :: t) se') : Hears c (se.setClientId user) t se' := by
  cases h with
  | setClientId h => exact h
  | trip hc ht h => cases hc
  | quiet hq h => cases hq

/-- What opening a connection comes to. -/
theorem opens_inv {user : String} (ho : Opens c user t) (h : Hears c se t se') :
    se' = if user = "" then se else se.setClientId user := by
  obtain ⟨timeouts, ht, rfl⟩ := ho
  obtain ⟨se₁, h₁, h₂⟩ := h.append_inv
  obtain rfl : se₁ = se := h₁.quiets_inv fun e he => by obtain ⟨ms, rfl⟩ := ht e he; rfl
  split at h₂
  next hu => rw [if_pos hu]; exact h₂.quiets_inv (by simp)
  next hu => rw [if_neg hu]; exact h₂.setClientId_inv.quiets_inv (by simp)

end Session.Hears

/-! ### Where a call stands -/

namespace PoolState

/-- The call `i` stands at `p`, `c` is lent to it with the session `se`, and `o` has been seen of
it since `s`. -/
def stand (s : PoolState) (i : CallId) (c : Conn) (p : Phase) (se : Session) (o : List Sighting) :
    PoolState :=
  (s.move i p c se).see o

section

variable (s : PoolState) (i : CallId) (c : Conn) (p p' : Phase) (se se' : Session)
  (o o' : List Sighting)

@[simp] theorem stand_phase : (s.stand i c p se o).phase i = p := Function.update_self ..
@[simp] theorem stand_session : (s.stand i c p se o).session c = se := Function.update_self ..

@[simp] theorem stand_see : (s.stand i c p se o).see o' = s.stand i c p se (o ++ o') := by
  simp [stand, see]

@[simp] theorem stand_set (place : Place) :
    (s.stand i c p se o).set i p' c place se' = (s.set i p' c place se').see o := by
  simp [stand, move, set, see]

@[simp] theorem stand_move : (s.stand i c p se o).move i p' c se' = s.stand i c p' se' o :=
  stand_set s i c p p' se se' o (.lent i)

/-- What `release` leads to. -/
theorem stand_release (user : String) :
    (s.stand i c p se o).release i user c se' =
      if user = "" then s.stand i c (.closing c false) se' o
      else s.stand i c (.clearing c) (se'.setClientId "") o := by
  unfold release
  split <;> exact stand_move ..

end

end PoolState

/-! ### One call -/

section

variable {source : OracleSource} {s : PoolState} {i : CallId} {c : Conn} {method : Method}
  {user : String} {se se' : Session} {o : List Sighting} {events : List DbEvent}

/-- The pool lends the connection, and its driver has the user to send. -/
theorem lends_run {contextUser : Option String} (hidle : s.phase i = .idle)
    (hpool : s.place c = .pooled)
    (huser : resolveContextUser source method.options = .ok contextUser) :
    Run (pool source) Free s [.call i method, .lend i c]
      (s.stand i c (.running method (contextUser.getD "") c false)
        (if contextUser.getD "" = "" then s.session c
          else (s.session c).setClientId (contextUser.getD "")) []) := by
  have hcall : (pool source).step s (.call i method) =
      some (s.goto i (.borrowing method (contextUser.getD ""))) := by
    simp [pool, poolStep, hidle, huser]
  refine .cons hcall trivial (.one ?_ trivial)
  simp [pool, poolStep, hpool, PoolState.stand, PoolState.see, PoolState.move, PoolState.set,
    PoolState.goto]

/-- The function makes its round trips. -/
theorem trips_run (hbody : ∀ e ∈ events, e.1.roundTrip = some c)
    (h : Session.Hears c se events se') (tripped : Bool) :
    ∃ ls tripped' o', Run (pool source) Free (s.stand i c (.running method user c tripped) se o) ls
      (s.stand i c (.running method user c tripped') se' o') := by
  induction events generalizing se tripped o with
  | nil => cases h; exact ⟨[], _, _, .nil⟩
  | cons e events ih =>
      obtain ⟨trip, -, h⟩ := h.trip_inv (hbody e List.mem_cons_self)
      obtain ⟨ls, tripped', o', hrun⟩ := @ih (se.trip trip)
        (o ++ if trip = .reached && !tripped then [⟨i, method, (se.trip trip).server⟩] else [])
        (fun e he => hbody e (List.mem_cons_of_mem _ he)) h (tripped || trip ≠ .unsent)
      refine ⟨.trip i trip :: ls, tripped', o', .cons ?_ trivial hrun⟩
      simp [pool, poolStep]

/-- The connection is closed, and goes back to the pool if it is not dropped. -/
theorem givesBack_run {drop : Bool} (hg : GivesBack c drop events)
    (h : Session.Hears c se events se') :
    (∃ answer, ⟨.close c drop, answer⟩ ∈ events) ∧
      ∃ ls, Run (pool source) Free (s.stand i c (.closing c drop) se o) ls
        ((s.set i .done c (if drop then .gone else .pooled) se').see o) := by
  have hquiet : ∀ e ∈ events, e.1.quiet = true := by
    cases hg <;> simp [DbCall.quiet]
  obtain rfl := h.quiets_inv hquiet
  refine ⟨by cases hg <;> exact ⟨_, .tail _ (.head _)⟩, [.close i true], .one ?_ trivial⟩
  cases drop <;> simp [pool, poolStep]

/-- The connection is cleared if it has to be, and closed. -/
theorem returns_run (hr : Returns c (user ≠ "") events) (p : Phase) (se₀ : Session)
    (h : Session.Hears c se events se') :
    ∃ drop answer, ⟨.close c drop, answer⟩ ∈ events ∧
      ∃ ls, Run (pool source) Free ((s.stand i c p se₀ o).release i user c se) ls
        ((s.set i .done c (if drop then .gone else .pooled) se').see o) := by
  rw [PoolState.stand_release]
  generalize hb : decide (user ≠ "") = clearContext at hr
  cases hr with
  | kept hg =>
      rw [if_pos (by simpa using hb)]
      obtain ⟨⟨answer, hclose⟩, hrun⟩ := givesBack_run hg h
      exact ⟨false, answer, hclose, hrun⟩
  | @cleared drop tidied given ht hg =>
      rw [if_neg (by simpa using hb)]
      obtain ⟨se₁, h₁, h₂⟩ := h.append_inv
      obtain ⟨⟨answer, hclose⟩, ls, hrun⟩ := @givesBack_run source s i c _ _ o given drop hg h₂
      -- the ping tells whether the empty identifier has reached the server
      have hclear : ∃ l, (pool source).step (s.stand i c (.clearing c) (se.setClientId "") o) l =
          some (s.stand i c (.closing c drop) se₁ o) := by
        cases ht with
        | cleared ms =>
            obtain ⟨trip, htrip, h₁⟩ := (h₁.setClientId_inv.quiet_inv rfl).trip_inv rfl
            obtain rfl := h₁.quiets_inv (by simp)
            obtain rfl : trip = .reached := htrip rfl
            exact ⟨.clear i .reached true, by simp [pool, poolStep]⟩
        | failed ms e =>
            obtain ⟨trip, -, h₁⟩ := (h₁.setClientId_inv.quiet_inv rfl).trip_inv rfl
            obtain rfl := h₁.quiets_inv (by simp [DbCall.quiet])
            exact ⟨.clear i trip false, by simp [pool, poolStep]⟩
      obtain ⟨l, hl⟩ := hclear
      exact ⟨drop, answer, List.mem_append_right _ hclose, l :: ls, .cons hl trivial hrun⟩

theorem stand_settle {tripped ok : Bool} (hm : method.commits = true) :
    (pool source).step (s.stand i c (.running method user c tripped) se o) (.settle i ok) =
      some (s.stand i c (if ok then .committing user c else .rollingBack user c) se o) := by
  simp [pool, poolStep, hm]

theorem stand_return {tripped : Bool} (ok : Bool) (hm : method.commits = false) :
    (pool source).step (s.stand i c (.running method user c tripped) se o) (.settle i ok) =
      some ((s.stand i c (.running method user c tripped) se o).release i user c se) := by
  simp [pool, poolStep, hm]

theorem stand_rollback {trip : Trip} :
    (pool source).step (s.stand i c (.rollingBack user c) se o) (.rollback i trip) =
      some ((s.stand i c (.rollingBack user c) se o).release i user c (se.trip trip)) := by
  simp [pool, poolStep]

/-- A transaction is committed or rolled back. -/
theorem settles_run {α : Type} {settled result : Except DbError α} {tripped : Bool}
    (hm : method.commits = true) (hs : Settles c settled events result)
    (h : Session.Hears c se events se') :
    ∃ ls p se₀, Run (pool source) Free (s.stand i c (.running method user c tripped) se o) ls
      ((s.stand i c p se₀ o).release i user c se') := by
  cases hs with
  | committed v =>
      obtain ⟨trip, htrip, h⟩ := h.trip_inv rfl
      obtain rfl := h.quiets_inv (by simp)
      obtain rfl : trip = .reached := htrip rfl
      exact ⟨[.settle i true, .commit i .reached true], .committing user c, se,
        .cons (stand_settle hm) trivial (.one (by simp [pool, poolStep]) trivial)⟩
  | refused v e answer after hw =>
      obtain ⟨trip, -, h⟩ := h.trip_inv rfl
      obtain ⟨trip', -, h⟩ := h.trip_inv rfl
      obtain rfl := h.quiets_inv fun e he => DbCall.quiet_of_isWarn (hw e he)
      have hrefused : (pool source).step (s.stand i c (.committing user c) se o)
          (.commit i trip false) = some (s.stand i c (.rollingBack user c) (se.trip trip) o) := by
        simp [pool, poolStep]
      exact ⟨[.settle i true, .commit i trip false, .rollback i trip'], .rollingBack user c,
        se.trip trip, .cons (stand_settle hm) trivial
          (.cons hrefused trivial (.one stand_rollback trivial))⟩
  | failed e answer after hw =>
      obtain ⟨trip, -, h⟩ := h.trip_inv rfl
      obtain rfl := h.quiets_inv fun e he => DbCall.quiet_of_isWarn (hw e he)
      exact ⟨[.settle i false, .rollback i trip], .rollingBack user c, se,
        .cons (stand_settle hm) trivial (.one stand_rollback trivial)⟩

variable {α : Type} {fn : Conn → DbM α} {env : DbEnv} {t : List DbEvent}
  {contextUser : Option String}

/-- What a call does that borrows a connection. -/
def Method.perform (source : OracleSource) (fn : Conn → DbM α) : Method → DbM α
  | .withConnection options => OracleClient.withConnection source fn options
  | .transaction options => OracleClient.transaction source fn options
  | .ping timeoutMs => OracleClient.withConnection source fn (Method.ping timeoutMs).options

/-- The health check makes one round trip. -/
theorem healthCheck_roundTrips :
    Emits (fun e => e.1.roundTrip = some c) (OracleClient.healthCheck source c) := by
  unfold OracleClient.healthCheck
  split
  · exact Emits.call fun _ => rfl
  · exact Emits.bind (Emits.call fun _ => rfl) fun _ => Emits.pure _

theorem perform_ping (timeoutMs : Int) :
    (Method.ping timeoutMs).perform source (OracleClient.healthCheck source) =
      OracleClient.ping source timeoutMs := rfl

/-- The parts of the trace of a call. -/
theorem perform_borrowed (huser : resolveContextUser source method.options = .ok contextUser)
    (hget : env t .getConnection = .ok c) :
    ∃ opening settling ending, Opens c (contextUser.getD "") opening ∧
      Returns c (contextUser.getD "" ≠ "") ending ∧
      (if method.commits then ∃ settled result : Except DbError α, Settles c settled settling result
        else settling = []) ∧
      (method.perform source fn env t).2 =
        (fn c env (t ++ ⟨.getConnection, .ok c⟩ :: opening)).2 ++ settling ++ ending := by
  cases method with
  | transaction options =>
      obtain ⟨opening, settling, ending, result, ho, -, hs, hr, h⟩ :=
        @OracleClient.transaction_borrowed α source options fn env t contextUser c huser hget
      exact ⟨opening, settling, ending, ho, hr, ⟨_, _, hs⟩, congrArg Prod.snd h⟩
  | withConnection options =>
      obtain ⟨opening, ending, ho, hr, -, h⟩ :=
        @OracleClient.withConnection_borrowed α source options fn env t contextUser c huser hget
      exact ⟨opening, [], ending, ho, hr, rfl, by
        rw [List.append_nil]; exact congrArg Prod.snd h⟩
  | ping timeoutMs =>
      obtain ⟨opening, ending, ho, hr, -, h⟩ :=
        @OracleClient.withConnection_borrowed α source _ fn env t contextUser c huser hget
      exact ⟨opening, [], ending, ho, hr, rfl, by
        rw [List.append_nil]; exact congrArg Prod.snd h⟩

/-- **The calls of the pool are the calls of the client.**  Whatever the session of its connection
goes through by the trace of a call, the pool has a run of that call in which the session goes
through the same, and the connection goes back to the pool unless it is dropped. -/
theorem perform_runs (hidle : s.phase i = .idle) (hpool : s.place c = .pooled)
    (huser : resolveContextUser source method.options = .ok contextUser)
    (hget : env t .getConnection = .ok c) (hfn : Emits (fun e => e.1.roundTrip = some c) (fn c)) :
    ∃ events, (method.perform source fn env t).2 = t ++ events ∧
      ∀ se', Session.Hears c (s.session c) events se' →
        ∃ drop answer ls o, ⟨.close c drop, answer⟩ ∈ events ∧ Run (pool source) Free s ls
          ((s.set i .done c (if drop then .gone else .pooled) se').see o) := by
  obtain ⟨opening, settling, ending, ho, hr, hs, htrace⟩ :=
    @perform_borrowed source c method α fn env t contextUser huser hget
  obtain ⟨body, hfn, hbody⟩ := hfn env (t ++ ⟨.getConnection, .ok c⟩ :: opening)
  refine ⟨⟨.getConnection, .ok c⟩ :: (opening ++ (body ++ (settling ++ ending))), by
    rw [htrace, hfn]; simp, fun se' h => ?_⟩
  obtain ⟨se₁, h₁, h⟩ := (h.quiet_inv rfl).append_inv
  obtain ⟨se₂, h₂, h⟩ := h.append_inv
  obtain ⟨se₃, h₃, h₄⟩ := h.append_inv
  obtain rfl := h₁.opens_inv ho
  obtain ⟨ls₂, tripped, o, hrun₂⟩ := trips_run hbody h₂ false
  have hrun := (lends_run hidle hpool huser).append hrun₂
  -- the function settles: a transaction is committed or rolled back, any other call is not
  have hsettled : ∃ ls₃ p se₀, Run (pool source) Free (s.stand i c
      (.running method (contextUser.getD "") c tripped) se₂ o) ls₃
      ((s.stand i c p se₀ o).release i (contextUser.getD "") c se₃) := by
    cases hm : method.commits with
    | true =>
        rw [if_pos hm] at hs
        obtain ⟨settled, result, hs⟩ := hs
        exact settles_run hm hs h₃
    | false =>
        rw [hm, if_neg Bool.false_ne_true] at hs
        subst hs
        cases h₃
        exact ⟨_, _, _, .one (stand_return true hm) trivial⟩
  obtain ⟨ls₃, p, se₀, hrun₃⟩ := hsettled
  obtain ⟨drop, answer, hclose, ls₄, hrun₄⟩ := returns_run hr p se₀ h₄
  exact ⟨drop, answer, _, o, by simp [hclose], (hrun.append hrun₃).append hrun₄⟩

/-- A call leaves a connection that it does not drop without an identifier. -/
theorem perform_leaves_clean (hi : s.Inv source) (hidle : s.phase i = .idle)
    (hpool : s.place c = .pooled)
    (huser : resolveContextUser source method.options = .ok contextUser)
    (hget : env t .getConnection = .ok c) (hfn : Emits (fun e => e.1.roundTrip = some c) (fn c)) :
    ∃ events, (method.perform source fn env t).2 = t ++ events ∧
      ∀ se', Session.Hears c (s.session c) events se' →
        ∃ drop answer, ⟨.close c drop, answer⟩ ∈ events ∧ (drop = false → se' = .clean) := by
  obtain ⟨events, htrace, hruns⟩ := @perform_runs source s i c method α fn env t contextUser
    hidle hpool huser hget hfn
  refine ⟨events, htrace, fun se' h => ?_⟩
  obtain ⟨drop, answer, ls, o, hclose, hrun⟩ := hruns se' h
  have hi' : ((s.set i .done c (if drop then .gone else .pooled) se').see o).Inv source :=
    hrun.invariant hi fun _ _ _ hi h _ => hi.step h
  refine ⟨drop, answer, hclose, ?_⟩
  rintro rfl
  have hclean := hi'.pooled c (Function.update_self ..)
  exact (Function.update_self ..).symm.trans hclean

end

end NestDdd.Database

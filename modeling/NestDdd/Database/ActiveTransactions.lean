import NestDdd.Database.Pool

/-!
# Database — transactions in the async context

`PoolManager.runInTransaction` (`src/infrastructure/database/connection/pool.manager.ts`) puts the
connection of its transaction into an `AsyncLocalStorage` store.  Every flow started inside its work
inherits the store and keeps it for as long as it lives, whether the work awaits it or not; a
`withConnection` or `transaction` call made in such a flow joins, and runs its function on the
connection in the store.  These calls are interleaved, one round trip a step, with the calls of
`Pool` that borrow connections of their own.

A nested `runInTransaction` only runs its work, whose calls are calls of the same store.

* `no_call_outlives`: no joined call runs its function on the connection of a transaction that has
  committed or rolled back, if calls join before then and have returned by then; and a step that is
  not in time always leads to one that does.
* `joined_calls_keep_identity`: such runs are runs of the pool, so what holds of the pool holds
  with joined calls too.
-/

namespace NestDdd.Database

open Runs

/-! ### Joined calls -/

inductive Joined where
  | idle
  | running (transaction : CallId) (c : Conn)
  | ended

/-- A round trip of a joined call, and where its connection was. -/
structure JoinedTrip where
  call : CallId
  transaction : CallId
  connection : Conn
  place : Place

/-- `store x` is what the flows inside the work of the transaction `x` find in their store. -/
structure SharedState where
  pool : PoolState
  store : CallId → Option Conn
  joined : CallId → Joined
  ran : List JoinedTrip

def SharedState.fresh : SharedState := ⟨.fresh, fun _ => none, fun _ => .idle, []⟩

/-- `own` is a step of a call that borrows a connection of its own; `enter` starts the work of a
`runInTransaction`; `join`, `trip` and `leave` are the steps of a joined call. -/
inductive SharedLabel where
  | own (l : PoolLabel)
  | enter (x : CallId)
  | join (j x : CallId)
  | trip (j : CallId) (t : Trip)
  | leave (j : CallId)

/-- A round trip on a connection whose borrower has finished. -/
def PoolState.stray (s : PoolState) (c : Conn) (t : Trip) : PoolState :=
  { s with session := Function.update s.session c ((s.session c).trip t) }

/-- What a call made in a flow of `x` joins. -/
def SharedState.joinedConnection (s : SharedState) (x : CallId) : Option Conn := s.store x

section

variable (source : OracleSource)

def sharedStep (s : SharedState) : SharedLabel → Option SharedState
  | .own l => (poolStep source s.pool l).map fun pool => { s with pool := pool }
  | .enter x =>
      match s.pool.phase x, s.store x with
      | .running (.transaction _) _ c _, none =>
          some { s with store := Function.update s.store x (some c) }
      | _, _ => none
  | .join j x =>
      match s.joined j, s.joinedConnection x with
      | .idle, some c => some { s with joined := Function.update s.joined j (.running x c) }
      | _, _ => none
  | .trip j t =>
      match s.joined j with
      | .running x c =>
          some { s with
            pool := (poolStep source s.pool (.trip x t)).getD (s.pool.stray c t)
            ran := s.ran ++ [⟨j, x, c, s.pool.place c⟩] }
      | _ => none
  | .leave j =>
      match s.joined j with
      | .running _ _ => some { s with joined := Function.update s.joined j .ended }
      | _ => none

def shared : Machine SharedState SharedLabel := ⟨sharedStep source⟩

end

/-- The call has committed or rolled back. -/
def Phase.finished : Phase → Bool
  | .clearing _ | .closing _ _ | .done => true
  | .idle | .borrowing _ _ | .running _ _ _ _ | .committing _ _ | .rollingBack _ _ => false

/-- By this step the transaction `x` has committed or rolled back. -/
def PoolLabel.Finishes (x : CallId) : PoolLabel → Prop
  | .commit i _ ok => i = x ∧ ok = true
  | .rollback i _ => i = x
  | _ => False

/-- No joined call runs its function after its transaction has committed or rolled back. -/
def SharedState.NoneOutlives (s : SharedState) : Prop :=
  ∀ j x c, s.joined j = .running x c → (s.pool.phase x).finished = false

/-- A call joins before its transaction has finished, and has returned when it finishes. -/
def InTime (s : SharedState) (l : SharedLabel) (_ : SharedState) : Prop :=
  match l with
  | .join _ x => (s.pool.phase x).finished = false
  | .own l => ∀ x, l.Finishes x → ∀ j c, s.joined j ≠ .running x c
  | .enter _ | .trip _ _ | .leave _ => True

variable {source : OracleSource}

theorem update_eq {α : Type} {f : CallId → α} {i j : CallId} {a b : α}
    (h : Function.update f i a j = b) : j = i ∧ a = b ∨ j ≠ i ∧ f j = b := by
  rw [Function.update_apply] at h
  split at h
  next hj => exact .inl ⟨hj, h⟩
  next hj => exact .inr ⟨hj, h⟩

/-! ### What a pool step does to a transaction -/

section

variable {s s' : PoolState} {l : PoolLabel} {x : CallId} {c : Conn}

/-- The call is a transaction whose function was handed `c`. -/
def Phase.Serves (c : Conn) : Phase → Prop
  | .running method _ c' _ => method.commits = true ∧ c' = c
  | .committing _ c' | .rollingBack _ c' | .clearing c' | .closing c' _ => c' = c
  | .done => True
  | .idle | .borrowing _ _ => False

/-- A transaction has its connection until it has finished. -/
theorem Phase.Serves.connection {p : Phase} (h : p.Serves c) (hf : p.finished = false) :
    p.connection = some c := by
  cases p with
  | running method user c' tripped => exact congrArg some h.2
  | committing user c' => exact congrArg some h
  | rollingBack user c' => exact congrArg some h
  | clearing c' => cases hf
  | closing c' drop => cases hf
  | done => cases hf
  | idle => cases h
  | borrowing method user => cases h

/-- What a step makes of a transaction that serves `c`: it still does, and it finishes by a commit
or a rollback. -/
theorem Phase.Serves.next {p p' : Phase} (hs : p.Serves c) (h : p.Next l p') :
    p'.Serves c ∧ (p'.finished = true → p.finished = true ∨ l.Finishes l.caller) := by
  have hrel : ∀ {c'}, c' = c → p'.Releases c' → p'.Serves c := by
    rintro c' rfl (rfl | rfl) <;> rfl
  cases h with
  | call => exact hs.elim
  | reject => exact hs.elim
  | refuse => exact hs.elim
  | lend => exact hs.elim
  | trip => exact ⟨hs, .inl⟩
  | tripCommitting => exact ⟨hs, .inl⟩
  | tripRollingBack => exact ⟨hs, .inl⟩
  | @settle i ok => cases ok <;> exact ⟨hs.2, fun h => nomatch h⟩
  | settleConnection hm => exact absurd (hm.symm.trans hs.1) Bool.false_ne_true
  | commit hp => exact ⟨hrel hs hp, fun _ => .inr ⟨rfl, rfl⟩⟩
  | commitFailed => exact ⟨hs, .inl⟩
  | rollback hp => exact ⟨hrel hs hp, fun _ => .inr rfl⟩
  | clear => exact ⟨hs, fun _ => .inl rfl⟩
  | close => exact ⟨trivial, fun _ => .inl rfl⟩

theorem pool_serves (h : (pool source).step s l = some s') (hs : (s.phase x).Serves c) :
    (s'.phase x).Serves c ∧
      ((s'.phase x).finished = true → (s.phase x).finished = true ∨ l.Finishes x) := by
  obtain ⟨p, hphase, hnext⟩ := pool_next h
  rw [hphase]
  by_cases hx : x = l.caller
  · subst hx
    rw [Function.update_self]
    exact hs.next hnext
  · rw [Function.update_of_ne hx]
    exact ⟨hs, .inl⟩

/-- A commit or a rollback finishes its transaction. -/
theorem Phase.Next.finishes {p p' : Phase} (h : p.Next l p') (hl : l.Finishes x) :
    x = l.caller ∧ p'.finished = true := by
  have hrel : ∀ {c}, p'.Releases c → p'.finished = true := by rintro c (rfl | rfl) <;> rfl
  cases h with
  | commit hp => exact ⟨hl.1.symm, hrel hp⟩
  | rollback hp => exact ⟨hl.symm, hrel hp⟩
  | commitFailed => cases hl.2
  | _ => exact hl.elim

theorem pool_finishes (h : (pool source).step s l = some s') (hl : l.Finishes x) :
    (s'.phase x).finished = true := by
  obtain ⟨p, hphase, hnext⟩ := pool_next h
  obtain ⟨hx, hp⟩ := hnext.finishes hl
  rw [hphase, hx, Function.update_self, hp]

/-- A round trip of a transaction is possible until it has finished. -/
theorem pool_trip (hs : (s.phase x).Serves c) (hf : (s.phase x).finished = false) (t : Trip) :
    ∃ s', (pool source).step s (.trip x t) = some s' := by
  simp only [pool, poolStep]
  cases hp : s.phase x with
  | running method user c' tripped => exact ⟨_, rfl⟩
  | committing user c' => exact ⟨_, rfl⟩
  | rollingBack user c' => exact ⟨_, rfl⟩
  | idle => rw [hp] at hs; exact hs.elim
  | borrowing method user => rw [hp] at hs; exact hs.elim
  | clearing c' => rw [hp] at hf; cases hf
  | closing c' drop => rw [hp] at hf; cases hf
  | done => rw [hp] at hf; cases hf

end

/-! ### Calls in time -/

section

variable {s s' : SharedState} {l : SharedLabel} {j x : CallId} {c : Conn}

structure SharedState.Inv (source : OracleSource) (s : SharedState) : Prop where
  pool : s.pool.Inv source
  store : ∀ x c, s.store x = some c → (s.pool.phase x).Serves c
  joined : ∀ j x c, s.joined j = .running x c → s.store x = some c
  inTime : s.NoneOutlives
  ran : ∀ o ∈ s.ran, o.place = .lent o.transaction

theorem SharedState.Inv.fresh : SharedState.fresh.Inv source where
  pool := .fresh
  store _ _ h := nomatch h
  joined _ _ _ h := nomatch h
  inTime _ _ _ h := nomatch h
  ran _ h := nomatch h

namespace SharedState

/-- The connection of a joined call is lent to its transaction. -/
theorem Inv.lent (hi : s.Inv source) (h : s.joined j = .running x c) : s.pool.place c = .lent x :=
  (hi.pool.lent x c).mp ((hi.store x c (hi.joined j x c h)).connection (hi.inTime j x c h))

/-- A step of the pool in time, and maybe a round trip of a joined call. -/
theorem Inv.pool_step (hi : s.Inv source) {pool : PoolState} {l : PoolLabel} {ran : List JoinedTrip}
    (h : (Database.pool source).step s.pool l = some pool)
    (hl : ∀ x, l.Finishes x → ∀ j c, s.joined j ≠ .running x c)
    (hran : ∀ o ∈ ran, o.place = .lent o.transaction) :
    Inv source { s with pool := pool, ran := ran } := by
  refine ⟨hi.pool.step h, fun x c hx => (pool_serves h (hi.store x c hx)).1, hi.joined,
    fun j x c hj => ?_, hran⟩
  have hs := (pool_serves h (hi.store x c (hi.joined j x c hj))).2
  by_contra hf
  rcases hs (Bool.not_eq_false _ ▸ hf) with hf | hf
  · exact absurd (hi.inTime j x c hj) (by rw [hf]; decide)
  · exact hl x hf j c hj

/-- A step in time keeps the invariant, and the pool takes at most a step. -/
theorem Inv.step (hi : s.Inv source) (h : (shared source).step s l = some s') (hl : InTime s l s') :
    s'.Inv source ∧
      (s'.pool = s.pool ∨ ∃ k, (Database.pool source).step s.pool k = some s'.pool) := by
  cases l with
  | own l =>
      obtain ⟨pool, hp, rfl⟩ := Option.map_eq_some_iff.mp h
      exact ⟨hi.pool_step hp hl hi.ran, .inr ⟨l, hp⟩⟩
  | enter x =>
      simp only [shared, sharedStep] at h
      split at h
      next options user c tripped hp hx =>
        cases h
        refine ⟨⟨hi.pool, fun x' c' hx' => ?_, fun j x' c' hj => ?_, hi.inTime, hi.ran⟩, .inl rfl⟩
        · rcases update_eq hx' with ⟨rfl, hc⟩ | ⟨-, hx'⟩
          · cases hc
            rw [hp]
            exact ⟨rfl, rfl⟩
          · exact hi.store x' c' hx'
        · -- `x` had no store, so no joined call is one of `x`
          have hs := hi.joined j x' c' hj
          exact (Function.update_of_ne (by rintro rfl; rw [hx] at hs; cases hs) ..).trans hs
      next => cases h
  | join j x =>
      simp only [shared, sharedStep, joinedConnection] at h
      split at h
      next c hj hx =>
        cases h
        have hnew : ∀ {j' x' c'}, Function.update s.joined j (.running x c) j' = .running x' c' →
            x' = x ∧ c' = c ∨ s.joined j' = .running x' c' := by
          intro j' x' c' hj'
          rcases update_eq hj' with ⟨-, hj'⟩ | ⟨-, hj'⟩
          · cases hj'; exact .inl ⟨rfl, rfl⟩
          · exact .inr hj'
        refine ⟨⟨hi.pool, hi.store, fun j' x' c' hj' => ?_, fun j' x' c' hj' => ?_, hi.ran⟩,
          .inl rfl⟩
        · rcases hnew hj' with ⟨rfl, rfl⟩ | hj'
          · exact hx
          · exact hi.joined j' x' c' hj'
        · rcases hnew hj' with ⟨rfl, rfl⟩ | hj'
          · exact hl
          · exact hi.inTime j' x' c' hj'
      next => cases h
  | trip j t =>
      simp only [shared, sharedStep] at h
      split at h
      next x c hj =>
        cases h
        -- the transaction has not finished, so the round trip is one of its own
        obtain ⟨pool, hp⟩ := pool_trip (hi.store x c (hi.joined j x c hj)) (hi.inTime j x c hj) t
        have hran : ∀ o ∈ s.ran ++ [⟨j, x, c, s.pool.place c⟩], o.place = .lent o.transaction := by
          intro o ho
          rcases List.mem_append.mp ho with ho | ho
          · exact hi.ran o ho
          · rw [List.mem_singleton.mp ho]; exact hi.lent hj
        have hpool : poolStep source s.pool (.trip x t) = some pool := hp
        rw [hpool, Option.getD_some]
        exact ⟨hi.pool_step hp (fun _ h => h.elim) hran, .inr ⟨_, hp⟩⟩
      next => cases h
  | leave j =>
      simp only [shared, sharedStep] at h
      split at h
      next x c hj =>
        cases h
        have hother : ∀ {j' x' c'}, Function.update s.joined j .ended j' = .running x' c' →
            s.joined j' = .running x' c' := by
          intro j' x' c' hj'
          rcases update_eq hj' with ⟨-, hj'⟩ | ⟨-, hj'⟩
          · cases hj'
          · exact hj'
        exact ⟨⟨hi.pool, hi.store, fun j' x' c' hj' => hi.joined j' x' c' (hother hj'),
          fun j' x' c' hj' => hi.inTime j' x' c' (hother hj'), hi.ran⟩, .inl rfl⟩
      next => cases h

/-- A step that is not in time leads to a joined call that outlives its transaction. -/
theorem inTime_of_noneOutlives (h : (shared source).step s l = some s')
    (hs : s'.NoneOutlives) : InTime s l s' := by
  cases l with
  | enter x => trivial
  | trip j t => trivial
  | leave j => trivial
  | join j x =>
      simp only [shared, sharedStep, joinedConnection] at h
      split at h
      next c hj hx =>
        cases h
        exact hs j x c (Function.update_self ..)
      next => cases h
  | own l =>
      obtain ⟨pool, hp, rfl⟩ := Option.map_eq_some_iff.mp h
      intro x hl j c hj
      have hf := hs j x c hj
      rw [pool_finishes hp hl] at hf
      cases hf

end SharedState

theorem SharedState.Inv.run {ls : List SharedLabel}
    (r : Run (shared source) InTime SharedState.fresh ls s) : s.Inv source :=
  r.invariant (I := SharedState.Inv source) .fresh fun _ _ _ hi h hl => (hi.step h hl).1

/-- **Joined calls in time are calls of their transaction.**  What the pool goes through in a run in
time is a run of its own. -/
theorem joined_calls_project {ls : List SharedLabel}
    (r : Run (shared source) InTime SharedState.fresh ls s) :
    ∃ ks, Run (pool source) Free PoolState.fresh ks s.pool := by
  obtain ⟨ks, p, hrun, -, rfl⟩ := @Run.simulate _ _ _ _ _ (pool source) _ Free _ _ _
    (fun s p => s.Inv source ∧ s.pool = p) .fresh ⟨.fresh, rfl⟩ (fun s p l s' ⟨hi, hp⟩ h hl => by
      subst hp
      obtain ⟨hi', hp' | ⟨k, hp'⟩⟩ := hi.step h hl
      · exact ⟨[], _, .nil, hi', hp'⟩
      · exact ⟨[k], _, .one hp' trivial, hi', rfl⟩) r
  exact ⟨ks, hrun⟩

/-- The context user of a transaction applies to its joined calls. -/
theorem joined_calls_keep_identity {ls : List SharedLabel}
    (r : Run (shared source) InTime SharedState.fresh ls s) : ∀ o ∈ s.pool.seen, o.Own source := by
  obtain ⟨ks, hrun⟩ := joined_calls_project r
  exact (PoolState.Inv.run hrun).seen

/-- **No joined call outlives its transaction, if calls are in time.**  In every run in which calls
join before their transaction has committed or rolled back, and have returned by then, no joined
call runs its function later, and all its round trips go to a connection that is lent to its
transaction.  Any step that is not in time leads to one that does run it later. -/
theorem no_call_outlives {ls : List SharedLabel}
    (r : Run (shared source) InTime SharedState.fresh ls s) :
    s.NoneOutlives ∧ (∀ o ∈ s.ran, o.place = .lent o.transaction) ∧
      ∀ l s', (shared source).step s l = some s' → (s'.NoneOutlives ↔ InTime s l s') := by
  have hi := SharedState.Inv.run r
  exact ⟨hi.inTime, hi.ran, fun l s' h =>
    ⟨SharedState.inTime_of_noneOutlives h, fun hl => (hi.step h hl).1.inTime⟩⟩

/-- Alice's unit of work, with one awaited insert. -/
def awaited : List SharedLabel :=
  [.own (.call 0 (.transaction ⟨some "alice", none, none, none⟩)), .own (.lend 0 7), .enter 0,
    .join 1 0, .trip 1 .reached, .leave 1, .own (.settle 0 true), .own (.commit 0 .reached true)]

/-- The insert is in time. -/
theorem no_call_outlives_awaited :
    ∃ s, (shared .main).exec .fresh awaited = some s ∧ s.ran = [⟨1, 0, 7, .lent 0⟩] ∧
      s.NoneOutlives := by
  refine ⟨_, rfl, rfl, (@no_call_outlives .main _ awaited ?_).1⟩
  refine .cons rfl (fun _ h => h.elim) (.cons rfl (fun _ h => h.elim) (.cons rfl trivial
    (.cons rfl rfl (.cons rfl trivial (.cons rfl trivial (.cons rfl (fun _ h => h.elim)
    (.cons rfl ?_ .nil)))))))
  -- by then the only joined call has returned
  intro x _ j c hj
  have hj : Function.update (Function.update (fun _ => Joined.idle) 1 (Joined.running 0 7)) 1
      Joined.ended j = Joined.running x c := hj
  rcases update_eq hj with ⟨-, hj⟩ | ⟨hne, hj⟩
  · cases hj
  · rw [Function.update_of_ne hne] at hj; cases hj

/-- A call that Alice's unit of work started and did not await joins when the unit has committed,
and its connection has gone to Bob. -/
def detached : List SharedLabel :=
  [.own (.call 0 (.transaction ⟨some "alice", none, none, none⟩)), .own (.lend 0 7), .enter 0,
    .own (.settle 0 true), .own (.commit 0 .reached true), .own (.clear 0 .reached true),
    .own (.close 0 true), .own (.call 1 (.withConnection ⟨some "bob", none, none, none⟩)),
    .own (.lend 1 7), .join 2 0, .trip 2 .reached]

/-- **A detached call runs on the connection of another caller.** -/
theorem detached_call_outlives :
    ∃ s, Run (shared .main) Free .fresh detached s ∧ ¬ s.NoneOutlives ∧
      s.ran = [⟨2, 0, 7, .lent 1⟩] ∧ (s.pool.session 7).server = "bob" :=
  ⟨_, .of_exec rfl fun _ _ _ _ => trivial, fun h => Bool.false_ne_true (h 2 0 7 rfl).symm, rfl, rfl⟩

end

end NestDdd.Database

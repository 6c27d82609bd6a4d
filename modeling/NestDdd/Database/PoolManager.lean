import NestDdd.Database.OracleClient

/-!
# Database — transactions and units of work

`PoolManager` (`src/infrastructure/database/connection/pool.manager.ts`) keeps the connection of a
transaction in an `AsyncLocalStorage`, so that calls made inside its work join it; and
`DatabaseUnitOfWork` (`unit-of-work/database-unit-of-work.ts`) runs its work in such a transaction
and turns a failed `Result` into a rollback.  There is one source; the store is what
`activeTransactions` holds for it.

`Work` is a program of awaited calls, nested in any way; a caller goes on from how each call
settled, so it may inspect or ignore a failure.

* `eval_joined`: work inside a transaction does nothing but run statements on its connection.
* `one_connection_one_outcome`: a transaction opened at top level borrows one connection, commits or
  rolls back once, closes once, and settles as its work and its commit did.
-/

namespace NestDdd.Database

open Runs Runs.Async

/-- What `activeTransactions.getStore()` holds for the source. -/
abbrev Store := Option Conn

namespace PoolManager

variable {α : Type} (source : OracleSource)

def runJoined (connection : Conn) (fn : Conn → DbM α) (options : ConnectionOptions) : DbM α :=
  OracleClient.mapErrors source options.tag (fn connection)

def withConnection (store : Store) (fn : Conn → DbM α) (options : ConnectionOptions) : DbM α :=
  match store with
  | some connection => runJoined source connection fn options
  | none => OracleClient.withConnection source fn options

def transaction (store : Store) (fn : Conn → DbM α) (options : ConnectionOptions) : DbM α :=
  match store with
  | some connection => runJoined source connection fn options
  | none => OracleClient.transaction source fn options

/-- `work` runs in the store it is given. -/
def runInTransaction (store : Store) (work : Store → DbM α) (options : ConnectionOptions) : DbM α :=
  match store with
  | some _ => work store
  | none => OracleClient.transaction source (fun connection => work (some connection)) options

end PoolManager

namespace DatabaseUnitOfWork

/-- `if (isResultLike(result) && !result.ok) throw new RollbackWithResult(result)`. -/
def orRollback (result : JsValue) : DbM JsValue :=
  if result.isFailedResult then reject (.rollbackWithResult result) else pure result

def options (actor : Option String) : ConnectionOptions :=
  ⟨actor, none, some "unitOfWork.run", none⟩

def run (source : OracleSource) (store : Store) (work : Store → DbM JsValue)
    (actor : Option String) : DbM JsValue :=
  catchError
    (PoolManager.runInTransaction source store
      (fun store' => do
        let result ← work store'
        orRollback result)
      (options actor))
    fun
      | .rollbackWithResult result => pure result
      | e => reject e

end DatabaseUnitOfWork

/-! ### Programs of calls -/

/-- A program of awaited calls.  `execute` runs on the connection handed to the function it
stands in, if there is one; each call goes on with how it settled. -/
inductive Work where
  | ret (v : JsValue)
  | throw (e : DbError)
  | execute (sql : String) (next : Except DbError JsValue → Work)
  | withConnection (options : ConnectionOptions) (fn : Work) (next : Except DbError JsValue → Work)
  | transaction (options : ConnectionOptions) (fn : Work) (next : Except DbError JsValue → Work)
  | runInTransaction (options : ConnectionOptions) (work : Work)
      (next : Except DbError JsValue → Work)
  | unitOfWork (actor : Option String) (work : Work) (next : Except DbError JsValue → Work)

def Work.eval (source : OracleSource) : Work → Store → Option Conn → DbM JsValue
  | .ret v, _, _ => pure v
  | .throw e, _, _ => reject e
  | .execute sql next, store, handed =>
      match handed with
      | none => reject (.value .undefined)
      | some connection => do
          let settled ← attempt (Database.execute connection sql)
          (next settled).eval source store handed
  | .withConnection options fn next, store, handed => do
      let settled ← attempt (PoolManager.withConnection source store
        (fun connection => fn.eval source store (some connection)) options)
      (next settled).eval source store handed
  | .transaction options fn next, store, handed => do
      let settled ← attempt (PoolManager.transaction source store
        (fun connection => fn.eval source store (some connection)) options)
      (next settled).eval source store handed
  | .runInTransaction options work next, store, handed => do
      let settled ← attempt (PoolManager.runInTransaction source store
        (fun store' => work.eval source store' handed) options)
      (next settled).eval source store handed
  | .unitOfWork actor work next, store, handed => do
      let settled ← attempt (DatabaseUnitOfWork.run source store
        (fun store' => work.eval source store' handed) actor)
      (next settled).eval source store handed

/-! ### Joined work -/

/-- A statement on `c`. -/
def ExecutesOn (c : Conn) (e : DbEvent) : Prop := ∃ sql, e.1 = .execute c sql

variable {source : OracleSource} {c : Conn}

theorem emits_mapErrors {α : Type} {P : DbEvent → Prop} {tag : Option String} {x : DbM α}
    (h : Emits P x) : Emits P (OracleClient.mapErrors source tag x) :=
  Emits.catchError h fun _ => Emits.reject _

theorem emits_orRollback {P : DbEvent → Prop} (result : JsValue) :
    Emits P (DatabaseUnitOfWork.orRollback result) := by
  unfold DatabaseUnitOfWork.orRollback
  split
  · exact Emits.reject _
  · exact Emits.pure _

theorem emits_run {P : DbEvent → Prop} {work : Store → DbM JsValue} {actor : Option String}
    (h : Emits P (work (some c))) :
    Emits P (DatabaseUnitOfWork.run source (some c) work actor) := by
  refine Emits.catchError (Emits.bind h emits_orRollback) fun e => ?_
  split
  · exact Emits.pure _
  · exact Emits.reject _

/-- **Joined work** runs statements on the connection of its transaction, and does nothing else:
it borrows, commits, rolls back and closes nothing. -/
theorem eval_joined (work : Work) {handed : Option Conn} (hh : handed = none ∨ handed = some c) :
    Emits (ExecutesOn c) (work.eval source (some c) handed) := by
  induction work generalizing handed with
  | ret v => exact Emits.pure v
  | throw e => exact Emits.reject e
  | execute sql next ih =>
      rcases hh with rfl | rfl
      · exact Emits.reject _
      · exact Emits.bind (Emits.attempt (Emits.call fun _ => ⟨sql, rfl⟩)) fun settled =>
          ih settled (.inr rfl)
  | withConnection options fn next ihfn ih =>
      exact Emits.bind (Emits.attempt (emits_mapErrors (ihfn (.inr rfl)))) fun settled =>
        ih settled hh
  | transaction options fn next ihfn ih =>
      exact Emits.bind (Emits.attempt (emits_mapErrors (ihfn (.inr rfl)))) fun settled =>
        ih settled hh
  | runInTransaction options work next ihw ih =>
      exact Emits.bind (Emits.attempt (ihw hh)) fun settled => ih settled hh
  | unitOfWork actor work next ihw ih =>
      exact Emits.bind (Emits.attempt (emits_run (ihw hh))) fun settled => ih settled hh

/-! ### One connection, one outcome -/

/-- How many calls of one kind were made. -/
def times (k : DbCall.Kind) (t : List DbEvent) : Nat := t.countP fun e => e.1.kind = k

section Times

variable {k : DbCall.Kind} {t t₁ t₂ : List DbEvent} {e : DbEvent}

@[simp] theorem times_nil : times k [] = 0 := rfl

@[simp] theorem times_cons : times k (e :: t) = times k t + if e.1.kind = k then 1 else 0 := by
  simp [times, List.countP_cons]

@[simp] theorem times_append : times k (t₁ ++ t₂) = times k t₁ + times k t₂ :=
  List.countP_append

theorem times_eq_zero (h : ∀ e ∈ t, e.1.kind ≠ k) : times k t = 0 :=
  List.countP_eq_zero.mpr fun e he => by simp [h e he]

theorem kind_ne_of_times (h : times k t = 0) (he : e ∈ t) : e.1.kind ≠ k := by
  simpa using List.countP_eq_zero.mp h e he

theorem times_other (hk : k ≠ .other) (h : ∀ e ∈ t, e.1.kind = .other) : times k t = 0 :=
  times_eq_zero fun e he => by rw [h e he]; exact Ne.symm hk

theorem times_executes (hk : k ≠ .execute) (h : ∀ e ∈ t, ExecutesOn c e) : times k t = 0 :=
  times_eq_zero fun e he => by
    obtain ⟨sql, he⟩ := h e he
    rw [he]
    exact Ne.symm hk

theorem times_closes (hk : k ≠ .other) (h : Closes c t) :
    times k t = if k = .close then 1 else 0 := by
  obtain ⟨before, drop, answer, after, rfl, hb, ha⟩ := h
  have hafter : ∀ e ∈ after, e.1.kind = .other := fun e he => DbCall.kind_of_isWarn (ha e he)
  simp [times_other hk hb, times_other hk hafter, DbCall.kind, eq_comm]

end Times

/-- What a transaction on `c` comes to, whose work settled as `settled`: its result, and the
trace. -/
structure OneOutcome (source : OracleSource) (tag : Option String) (c : Conn)
    (settled result : Except DbError JsValue) (t : List DbEvent) : Prop where
  borrowed : times .borrow t = 1
  committed : times .commit t = if settled.isOk then 1 else 0
  rolledBack : (times .rollback t = 0 ∧ ⟨.commit c, .ok ()⟩ ∈ t) ∨
    (times .rollback t = 1 ∧ (settled.isOk = false ∨ ∃ e, ⟨.commit c, .error e⟩ ∈ t))
  closed : ∃ used drop answer after, t = used ++ ⟨.close c drop, answer⟩ :: after ∧
    times .close used = 0 ∧ ∀ e ∈ after, e.1.isWarn = true
  resolved : ∀ v, result = .ok v ↔ settled = .ok v ∧ ⟨.commit c, .ok ()⟩ ∈ t
  rejected : ∀ e, result = .error e → ∃ e₀, (settled = .error e₀ ∨ ⟨.commit c, .error e₀⟩ ∈ t) ∧
    e = e₀.mapOracleError source.stringOf source.key tag

/-! #### The settling of a transaction -/

section Settling

variable {settled result : Except DbError JsValue} {settling : List DbEvent}

theorem times_warns {k : DbCall.Kind} {t : List DbEvent} (hk : k ≠ .other)
    (h : ∀ e ∈ t, e.1.isWarn = true) : times k t = 0 :=
  times_other hk fun e he => DbCall.kind_of_isWarn (h e he)

theorem commit_not_warn {t : List DbEvent} {answer : Except DbError Unit}
    (h : ∀ e ∈ t, e.1.isWarn = true) : (⟨.commit c, answer⟩ : DbEvent) ∉ t :=
  fun hm => nomatch h _ hm

theorem Settles.times_zero (h : Settles c settled settling result) {k : DbCall.Kind}
    (hc : k ≠ .commit) (hr : k ≠ .rollback) (ho : k ≠ .other) : times k settling = 0 := by
  cases h with
  | committed v => simp [DbCall.kind, hc.symm]
  | refused v e answer after hw => simp [DbCall.kind, hc.symm, hr.symm, times_warns ho hw]
  | failed e answer after hw => simp [DbCall.kind, hr.symm, times_warns ho hw]

theorem Settles.times_commit (h : Settles c settled settling result) :
    times .commit settling = if settled.isOk then 1 else 0 := by
  cases h with
  | committed v => rfl
  | refused v e answer after hw =>
      rw [times_cons, times_cons, times_warns (by decide) hw]; rfl
  | failed e answer after hw => rw [times_cons, times_warns (by decide) hw]; rfl

theorem Settles.times_rollback (h : Settles c settled settling result) :
    (times .rollback settling = 0 ∧ ⟨.commit c, .ok ()⟩ ∈ settling) ∨
      (times .rollback settling = 1 ∧
        (settled.isOk = false ∨ ∃ e, ⟨.commit c, .error e⟩ ∈ settling)) := by
  cases h with
  | committed v => exact .inl ⟨rfl, List.mem_singleton_self _⟩
  | refused v e answer after hw =>
      refine .inr ⟨?_, .inr ⟨e, List.mem_cons_self⟩⟩
      rw [times_cons, times_cons, times_warns (by decide) hw]; rfl
  | failed e answer after hw =>
      refine .inr ⟨?_, .inl rfl⟩
      rw [times_cons, times_warns (by decide) hw]; rfl

theorem Settles.resolved_iff (h : Settles c settled settling result) (v : JsValue) :
    result = .ok v ↔ settled = .ok v ∧ ⟨.commit c, .ok ()⟩ ∈ settling := by
  cases h with
  | committed v' => exact ⟨fun h => ⟨h, List.mem_singleton_self _⟩, fun h => h.1⟩
  | refused v' e answer after hw =>
      refine ⟨fun h => (nomatch h), fun h => absurd h.2 ?_⟩
      simp [commit_not_warn hw]
  | failed e answer after hw => exact ⟨fun h => (nomatch h), fun h => (nomatch h.1)⟩

theorem Settles.rejected {α : Type} {settled result : Except DbError α}
    (h : Settles c settled settling result) {e : DbError} (he : result = .error e) :
    settled = .error e ∨ ⟨.commit c, .error e⟩ ∈ settling := by
  cases h with
  | committed v => cases he
  | refused v e' answer after hw => cases he; exact .inr List.mem_cons_self
  | failed e' answer after hw => exact .inl he

theorem Settles.no_commit {e : DbError} (h : Settles c settled settling (.error e)) :
    ⟨.commit c, .ok ()⟩ ∉ settling := by
  generalize hr : (Except.error e : Except DbError JsValue) = r at h
  cases h with
  | committed v => cases hr
  | refused v e answer after hw => simp [commit_not_warn hw]
  | failed e answer after hw => simp [commit_not_warn hw]

end Settling

section Parts

variable {opening body settling ending : List DbEvent} {settled result : Except DbError JsValue}
  (hopen : ∀ e ∈ opening, e.1.kind = .other) (hbody : ∀ e ∈ body, ExecutesOn c e)

include hopen hbody

/-- What the calls up to the settling of a transaction add up to. -/
theorem times_used {k : DbCall.Kind} (hk : k ≠ .other) (he : k ≠ .execute) :
    times k (⟨.getConnection, .ok c⟩ :: opening ++ body) = if .borrow = k then 1 else 0 := by
  rw [times_append, times_cons, times_other hk hopen, times_executes he hbody, Nat.add_zero,
    Nat.zero_add]
  rfl

/-- All commits are in the settling. -/
theorem commit_mem_parts (hclose : Closes c ending) (answer : Except DbError Unit) :
    (⟨.commit c, answer⟩ : DbEvent) ∈
        ⟨.getConnection, .ok c⟩ :: opening ++ body ++ settling ++ ending ↔
      (⟨.commit c, answer⟩ : DbEvent) ∈ settling := by
  have hno : ∀ {t : List DbEvent}, times .commit t = 0 →
      (⟨.commit c, answer⟩ : DbEvent) ∉ t := fun h hm => kind_ne_of_times h hm rfl
  have hu := hno (@times_used c opening body hopen hbody .commit (by decide) (by decide))
  have he : (⟨.commit c, answer⟩ : DbEvent) ∉ ending :=
    hno ((times_closes (by decide) hclose).trans (if_neg (by decide)))
  rw [List.mem_append, List.mem_append, or_iff_left he, or_iff_right hu]

/-- The parts of a transaction's trace add up to one outcome. -/
theorem OneOutcome.of_parts {tag : Option String} (hsettles : Settles c settled settling result)
    (hclose : Closes c ending) :
    OneOutcome source tag c settled (result.mapError (OracleClient.mapError source · tag))
      (⟨.getConnection, .ok c⟩ :: opening ++ body ++ settling ++ ending) := by
  have hmem := @commit_mem_parts c opening body settling ending hopen hbody hclose
  have htimes : ∀ k, k ≠ .other → k ≠ .execute → k ≠ .close →
      times k (⟨.getConnection, .ok c⟩ :: opening ++ body ++ settling ++ ending) =
        (if .borrow = k then 1 else 0) + times k settling := by
    intro k hk he hc
    rw [times_append, times_append, times_used hopen hbody hk he, times_closes hk hclose,
      if_neg hc, Nat.add_zero]
  refine ⟨?_, ?_, ?_, ?_, fun v => ?_, fun e he => ?_⟩
  · rw [htimes .borrow (by decide) (by decide) (by decide),
      hsettles.times_zero (by decide) (by decide) (by decide)]
    rfl
  · rw [htimes .commit (by decide) (by decide) (by decide), hsettles.times_commit]
    exact Nat.zero_add _
  · rw [htimes .rollback (by decide) (by decide) (by decide), if_neg (by decide), Nat.zero_add]
    simp only [hmem]
    exact hsettles.times_rollback
  · obtain ⟨before, drop, answer, after, rfl, hb, ha⟩ := hclose
    refine ⟨⟨.getConnection, .ok c⟩ :: opening ++ body ++ settling ++ before, drop, answer, after,
      (List.append_assoc ..).symm, ?_, ha⟩
    rw [times_append, times_append, times_used hopen hbody (by decide) (by decide),
      hsettles.times_zero (by decide) (by decide) (by decide), times_other (by decide) hb]
    rfl
  · rw [hmem, ← hsettles.resolved_iff]
    cases result <;> simp [Except.mapError]
  · cases result with
    | ok v => cases he
    | error e₀ =>
        refine ⟨e₀, ?_, (Except.error.inj he).symm⟩
        rw [hmem]
        exact hsettles.rejected rfl

end Parts

/-- **One connection, one outcome.**  Whatever is nested in it, a transaction opened at top level,
whose context user resolves and which gets a connection, runs its work once on that connection, and
comes to one outcome: one borrowing; one commit if the work resolved, and none otherwise; one
rollback if the work or the commit failed, and none otherwise; one close, after which nothing else
happens; and it settles as its work and its commit did, whatever the rollback, the ping and the
close did. -/
theorem one_connection_one_outcome {options : ConnectionOptions} {user : Option String}
    {env : DbEnv} (huser : resolveContextUser source options = .ok user)
    (hget : env [] .getConnection = .ok c) (work : Work) :
    ∃ before settled body rest,
      work.eval source (some c) none env before = (settled, before ++ body) ∧
      (PoolManager.runInTransaction source none (fun store => work.eval source store none) options
        env []).2 = before ++ body ++ rest ∧
      OneOutcome source options.tag c settled
        (PoolManager.runInTransaction source none (fun store => work.eval source store none) options
          env []).1
        (PoolManager.runInTransaction source none (fun store => work.eval source store none) options
          env []).2 := by
  obtain ⟨opening, settling, ending, result, hopen, -, hsettles, hclose, hrun⟩ :=
    @OracleClient.transaction_borrowed _ source options
      (fun connection => work.eval source (some connection) none) env [] user c huser hget
  obtain ⟨body, hbody, hexec⟩ := @eval_joined source c work none (.inl rfl) env
    ([] ++ ⟨.getConnection, .ok c⟩ :: opening)
  rw [hbody] at hrun
  refine ⟨_, _, body, settling ++ ending, Prod.ext rfl hbody, ?_, ?_⟩
  · rw [PoolManager.runInTransaction, hrun, List.append_assoc]
  · rw [PoolManager.runInTransaction, hrun]
    exact .of_parts hopen.other hexec hsettles hclose.closes

/-- A driver that lends connection 7, runs every statement, and loses the session at the commit. -/
def losesCommit : DbEnv := fun _ c =>
  match c with
  | .getConnection => .ok 7
  | .execute _ _ => .ok .undefined
  | .commit _ => .error (.driver "ORA-03113" "end-of-file on communication channel")
  | .setCallTimeout _ _ | .setClientId _ _ | .rollback _ | .ping _ | .close _ _ | .warn _ => .ok ()

/-- One write, in a repository call. -/
def Work.insert (sql : String) (next : Except DbError JsValue → Work) : Work :=
  .transaction ⟨none, none, none, none⟩ (.execute sql fun
    | .ok v => .ret v
    | .error e => .throw e) next

/-- A lost commit is attempted once and rolled back once. -/
theorem one_connection_one_outcome_lost :
    times .commit (PoolManager.runInTransaction .main none
        (fun store => (Work.insert "INSERT" fun _ => .ret .null).eval .main store none)
        ⟨some "alice", none, none, none⟩ losesCommit []).2 = 1 ∧
      ∃ settled, OneOutcome .main none 7 settled
        (PoolManager.runInTransaction .main none
          (fun store => (Work.insert "INSERT" fun _ => .ret .null).eval .main store none)
          ⟨some "alice", none, none, none⟩ losesCommit []).1
        (PoolManager.runInTransaction .main none
          (fun store => (Work.insert "INSERT" fun _ => .ret .null).eval .main store none)
          ⟨some "alice", none, none, none⟩ losesCommit []).2 := by
  refine ⟨by rfl, ?_⟩
  obtain ⟨_, settled, _, _, -, -, h⟩ := @one_connection_one_outcome .main 7
    ⟨some "alice", none, none, none⟩ (some "alice") losesCommit rfl rfl
    (.insert "INSERT" fun _ => .ret .null)
  exact ⟨settled, h⟩

end NestDdd.Database

import NestDdd.Database.PoolManager
import NestDdd.Idempotency.OracleStore

/-!
# Idempotency — what the Oracle store asks of the database

`OracleIdempotencyStore` again
(`src/infrastructure/database/idempotency/oracle-idempotency.store.ts`), one call of it over the
driver: each method is one `transaction` on its source, which passes a tag and no user.  How the
driver sends binds with a statement and reads a row out of a reply is a parameter.

* `answer_stage`: after its `SELECT`, a claim goes on as `afterSelect` has it.
* `transaction_blames`, `claim_blames`, `complete_blames`, `release_blames`: on a source that lets
  a call without a user through, a call of the store rejects only if the database fails it
  (`DatabaseFails`).
-/

namespace NestDdd.Idempotency

open Runs Runs.Async NestDdd.Database

/-- What node-oracledb makes of a statement with its binds, and `rows?.[0]` of a reply. -/
structure Driver where
  bind : String → List (String × JsValue) → String
  row : JsValue → Option ClaimRow

/-- What `JSON.parse` throws. -/
def syntaxError : DbError := .value (.object [("name", .string "SyntaxError")])

/-- A `Date`, by its time. -/
def date (ms : Int) : JsValue := .number (.finite ms)

/-- `errorNum === 1`. -/
def isUniqueViolation (error : DbError) : Bool :=
  match error.property "errorNum" with
  | some (.number (.finite n)) => n == 1
  | _ => false

namespace OracleIdempotencyStore

variable (source : OracleSource) (config : IdempotencyConfig) (json : JsonCodec) (driver : Driver)
  (table : String) (store : Database.Store) (connection : Conn) (key fingerprint : String)

/-- A statement whose reply is not looked at. -/
def run (sql : String) (binds : List (String × JsValue)) : DbM Unit := do
  let _ ← execute connection (driver.bind sql binds)
  pure ()

def purgeExpired : DbM Unit :=
  run driver connection
    ("DELETE FROM " ++ table ++ " WHERE expires_at < SYSTIMESTAMP AND ROWNUM <= 100") []

def insertSql : String :=
  "INSERT INTO " ++ table ++ " (key, fingerprint, state, created_at, expires_at)\n" ++
    "                 VALUES (:p_key, :p_fingerprint, 'in_progress', :p_created, :p_expires)"

def insertBinds (createdAt expiresAt : Int) : List (String × JsValue) :=
  [("p_key", .string key), ("p_fingerprint", .string fingerprint), ("p_created", date createdAt),
    ("p_expires", date expiresAt)]

def insert (createdAt expiresAt : Int) : DbM Unit :=
  run driver connection (insertSql table) (insertBinds key fingerprint createdAt expiresAt)

def tryInsert (createdAt expiresAt : Int) : DbM Bool :=
  catchError
    (do
      insert driver table connection key fingerprint createdAt expiresAt
      pure true)
    fun error => if isUniqueViolation error then pure false else reject error

def selectSql : String :=
  "SELECT fingerprint, state, status, response_body, created_at\n               FROM " ++ table ++
    "\n              WHERE key = :p_key"

def takeOverSql : String :=
  "UPDATE " ++ table ++
    "\n                    SET fingerprint = :p_fingerprint, state = 'in_progress', " ++
    "status = NULL,\n                        response_body = NULL, created_at = :p_created, " ++
    "expires_at = :p_expires\n                  WHERE key = :p_key"

/-- `claimOn` from the answer of its `SELECT` on. -/
def answer (now dateNow : Int) : Option ClaimRow → DbM ClaimOutcome
  | none => do
      insert driver table connection key fingerprint now (now + config.ttlMs)
      pure .claimed
  | some row =>
      if row.fingerprint ≠ fingerprint then pure .mismatch
      else
        match row.state with
        | .inProgress =>
            if dateNow - row.createdAt ≤ config.inProgressTtlMs then pure .inProgress
            else do
              run driver connection (takeOverSql table)
                [("p_fingerprint", .string fingerprint), ("p_created", date now),
                  ("p_expires", date (now + config.ttlMs)), ("p_key", .string key)]
              pure .claimed
        | .completed =>
            match json.decode row.responseBody with
            | some body => pure (.replay (row.status.getD 200) body)
            | none => reject syntaxError

/-- `claimOn`; `now` and `dateNow` are what its two clocks read. -/
def claimOn (now dateNow : Int) : DbM ClaimOutcome := do
  purgeExpired driver table connection
  if ← tryInsert driver table connection key fingerprint now (now + config.ttlMs) then
    pure .claimed
  else do
    let reply ← execute connection (driver.bind (selectSql table) [("p_key", .string key)])
    answer config json driver table connection key fingerprint now dateNow (driver.row reply)

def claim (now dateNow : Int) : DbM ClaimOutcome :=
  PoolManager.transaction source store
    (fun connection => claimOn config json driver table connection key fingerprint now dateNow)
    (nobody none "idempotency.claim")

def completeSql : String :=
  "UPDATE " ++ table ++
    "\n                        SET state = 'completed', status = :p_status, " ++
    "response_body = :p_body\n                      WHERE key = :p_key"

def complete (status : Int) (body : JsValue) : DbM Unit :=
  PoolManager.transaction source store
    (fun connection => run driver connection (completeSql table)
      [("p_status", .number (.finite status)),
        ("p_body", ((json.encode body).map JsValue.string).getD .null), ("p_key", .string key)])
    (nobody none "idempotency.complete")

def release : DbM Unit :=
  PoolManager.transaction source store
    (fun connection => run driver connection ("DELETE FROM " ++ table ++ " WHERE key = :p_key")
      [("p_key", .string key)])
    (nobody none "idempotency.release")

end OracleIdempotencyStore

/-! ### What a call of the store fails with -/

/-- A statement fails: the database rejects it, or returns a stored body that is not JSON, which
the store has never written. -/
inductive StatementFails (json : JsonCodec) (driver : Driver) : DbEvent → DbError → Prop where
  | rejected (c : Conn) (sql : String) (e : DbError) :
      StatementFails json driver ⟨.execute c sql, .error e⟩ e
  | garbled (c : Conn) (sql : String) (reply : JsValue) (row : ClaimRow)
      (hrow : driver.row reply = some row) (hbody : json.decode row.responseBody = none) :
      StatementFails json driver ⟨.execute c sql, .ok reply⟩ syntaxError

/-- The pool or the database fails a call with a tag, and the call rejects with that. -/
inductive DatabaseFails (source : OracleSource) (json : JsonCodec) (driver : Driver)
    (tag : String) : DbEvent → DbError → Prop where
  | pool (e : DbError) :
      DatabaseFails source json driver tag ⟨.getConnection, .error e⟩ (.connection source.key e)
  | statement (event : DbEvent) (e : DbError) (h : StatementFails json driver event e) :
      DatabaseFails source json driver tag event (OracleClient.mapError source e (some tag))
  | commit (c : Conn) (e : DbError) :
      DatabaseFails source json driver tag ⟨.commit c, .error e⟩
        (OracleClient.mapError source e (some tag))

/-- A call rejects only if the pool or the database fails it. -/
def FailsWithDatabase {α : Type} (source : OracleSource) (json : JsonCodec) (driver : Driver)
    (tag : String) (x : DbM α) : Prop :=
  Blames (DatabaseFails source json driver tag) (fun _ => False) x

namespace OracleIdempotencyStore

variable {source : OracleSource} {config : IdempotencyConfig} {json : JsonCodec} {driver : Driver}
  {table : String} {store : Database.Store} {connection : Conn} {key fingerprint : String}
  {P : DbError → Prop} {α : Type}

/-- After the `SELECT`, a claim goes on at the stage that `afterSelect` names. -/
theorem answer_stage (now dateNow : Int) (row : Option ClaimRow) :
    answer config json driver table connection key fingerprint now dateNow row =
      match afterSelect config json fingerprint now dateNow row with
      | some (.inserting _) => do
          insert driver table connection key fingerprint now (now + config.ttlMs)
          pure .claimed
      | some (.takingOver _ _ _) => do
          run driver connection (takeOverSql table)
            [("p_fingerprint", .string fingerprint), ("p_created", date now),
              ("p_expires", date (now + config.ttlMs)), ("p_key", .string key)]
          pure .claimed
      | some (.done outcome) => pure outcome
      | _ => reject syntaxError := by
  cases row with
  | none => rfl
  | some row =>
      simp only [answer, afterSelect]
      by_cases hfp : row.fingerprint ≠ fingerprint
      · simp only [if_pos hfp]
      · simp only [if_neg hfp]
        cases row.state with
        | inProgress =>
            by_cases hlate : dateNow - row.createdAt ≤ config.inProgressTtlMs
            · simp only [if_pos hlate]
            · simp only [if_neg hlate]
        | completed => cases json.decode row.responseBody <;> rfl

theorem mapError_eq_error {f : DbError → DbError} {r : Except DbError α} {e : DbError}
    (h : r.mapError f = .error e) : ∃ e₀, r = .error e₀ ∧ f e₀ = e := by
  cases r with
  | ok v => cases h
  | error e₀ => exact ⟨e₀, rfl, Except.error.inj h⟩

theorem run_blames (sql : String) (binds : List (String × JsValue)) :
    Blames (StatementFails json driver) P (run driver connection sql binds) :=
  Blames.call_bind (fun e => .rejected connection _ e) fun _ => Blames.pure _

theorem tryInsert_blames (createdAt expiresAt : Int) :
    Blames (StatementFails json driver) P
      (tryInsert driver table connection key fingerprint createdAt expiresAt) := by
  refine Blames.rethrow (Blames.bind (run_blames _ _) fun _ => Blames.pure _) fun e => ?_
  cases h : isUniqueViolation e with
  | true => exact .inl ⟨false, by simp⟩
  | false => exact .inr (by simp)

theorem answer_blames (now dateNow : Int) (row : Option ClaimRow)
    (hgarbled : ∀ r, row = some r → json.decode r.responseBody = none → P syntaxError) :
    Blames (StatementFails json driver) P
      (answer config json driver table connection key fingerprint now dateNow row) := by
  unfold answer
  split
  next => exact Blames.bind (run_blames _ _) fun _ => Blames.pure _
  next row =>
    split
    · exact Blames.pure _
    · split
      next =>
        split
        · exact Blames.pure _
        · exact Blames.bind (run_blames _ _) fun _ => Blames.pure _
      next =>
        split
        next => exact Blames.pure _
        next hbody => exact Blames.reject (hgarbled row rfl hbody)

theorem claimOn_blames (now dateNow : Int) :
    Blames (StatementFails json driver) P
      (claimOn config json driver table connection key fingerprint now dateNow) := by
  refine Blames.bind (run_blames _ _) fun _ => Blames.bind (tryInsert_blames _ _) fun inserted => ?_
  cases inserted with
  | true => exact Blames.pure _
  | false =>
      refine Blames.call_bind (fun e => .rejected connection _ e) fun reply => ?_
      exact answer_blames now dateNow _ fun row hrow hbody =>
        .inr (.garbled connection _ reply row hrow hbody)

/-- A transaction that may go without a user rejects with what failed its statements, its commit or
the pool. -/
theorem transaction_blames {tag : String} {fn : Conn → DbM α}
    (hopen : ¬ source.RequiresUser)
    (hfn : ∀ c, Blames (StatementFails json driver) (fun _ => False) (fn c)) :
    FailsWithDatabase source json driver tag
      (PoolManager.transaction source store fn (nobody none tag)) := by
  have huser := resolve_nobody hopen none tag
  intro env t
  cases store with
  | some connection =>
      -- a joined call
      obtain ⟨t', ht', hF⟩ := hfn connection env t
      have hrun := @OracleClient.mapErrors_apply α source env t (some tag) (fn connection)
      refine ⟨t', (congrArg Prod.snd hrun).trans ht', fun e he => ?_⟩
      obtain ⟨e₀, he₀, rfl⟩ := mapError_eq_error ((congrArg Prod.fst hrun).symm.trans he)
      obtain hnone | ⟨event, hevent, hfails⟩ := hF e₀ he₀
      · exact hnone.elim
      · exact .inr ⟨event, hevent, .statement event e₀ hfails⟩
  | none =>
      cases hget : env t .getConnection with
      | error e =>
          have hrun : OracleClient.transaction source fn (nobody none tag) env t =
              (.error (.connection source.key e), t ++ [⟨.getConnection, .error e⟩]) :=
            OracleClient.withConnection_refused env t huser hget
          refine ⟨_, congrArg Prod.snd hrun, fun e' he => ?_⟩
          obtain rfl := Except.error.inj ((congrArg Prod.fst hrun).symm.trans he)
          exact .inr ⟨_, List.mem_singleton_self _, .pool e⟩
      | ok c =>
          obtain ⟨opening, settling, ending, result, -, -, hsettles, -, hrun⟩ :=
            @OracleClient.transaction_borrowed α source (nobody none tag) fn env t _ _ huser hget
          obtain ⟨t', ht', hF⟩ := hfn c env (t ++ ⟨.getConnection, .ok c⟩ :: opening)
          rw [ht'] at hrun
          refine ⟨⟨.getConnection, .ok c⟩ :: opening ++ t' ++ settling ++ ending, ?_,
            fun e he => ?_⟩
          · exact (congrArg Prod.snd hrun).trans (by simp)
          · obtain ⟨e₀, rfl, rfl⟩ := mapError_eq_error ((congrArg Prod.fst hrun).symm.trans he)
            rcases hsettles.rejected rfl with hs | hcommit
            · obtain hnone | ⟨event, hevent, hfails⟩ := hF e₀ hs
              · exact hnone.elim
              · exact .inr ⟨event, by simp [hevent], .statement event e₀ hfails⟩
            · exact .inr ⟨_, by simp [hcommit], .commit c e₀⟩

theorem claim_blames (hopen : ¬ source.RequiresUser)
    (now dateNow : Int) : FailsWithDatabase source json driver "idempotency.claim"
      (claim source config json driver table store key fingerprint now dateNow) :=
  transaction_blames hopen fun _ => claimOn_blames now dateNow

theorem complete_blames (hopen : ¬ source.RequiresUser)
    (status : Int) (body : JsValue) : FailsWithDatabase source json driver "idempotency.complete"
      (complete source json driver table store key status body) :=
  transaction_blames hopen fun _ => run_blames _ _

theorem release_blames (hopen : ¬ source.RequiresUser) :
    FailsWithDatabase source json driver "idempotency.release"
      (release source driver table store key) :=
  transaction_blames hopen fun _ => run_blames _ _

end OracleIdempotencyStore

end NestDdd.Idempotency

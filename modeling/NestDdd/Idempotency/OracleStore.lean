import NestDdd.Idempotency.InMemoryStore
import NestDdd.Runs.ReadCommitted
import NestDdd.Runs.Slot

/-!
# Idempotency — the Oracle store

`OracleIdempotencyStore`
(`src/infrastructure/database/idempotency/oracle-idempotency.store.ts`) under requests that run
through `intercept`, one statement a step: `claim` is the transaction purge, `INSERT`, `SELECT`,
second `INSERT` or takeover `UPDATE`, commit; `complete` and `release` are one statement and a
commit each.  Rows follow `Runs.ReadCommitted`; every clock a statement or the process reads is in
its label, in no order.

Any step of a transaction may fail instead, which rolls it back (`abort`); a commit may take effect
and its answer be lost.

A row carries the request whose claim wrote it, and a cell logs how the key changed hands, as moves
of a `Runs.Slot`.  Neither is part of the program.
-/

namespace NestDdd.Idempotency

open Runs

/-- `JSON.stringify` and `JSON.parse`, which throws on some texts. -/
structure JsonCodec where
  stringify : JsValue → String
  parse : String → Option JsValue

/-- `body === undefined ? null : JSON.stringify(body)`. -/
def JsonCodec.encode (json : JsonCodec) : JsValue → Option String
  | .undefined => none
  | body => some (json.stringify body)

/-- `RESPONSE_BODY === null ? undefined : JSON.parse(RESPONSE_BODY)`. -/
def JsonCodec.decode (json : JsonCodec) : Option String → Option JsValue
  | none => some .undefined
  | some text => json.parse text

/-- As far as one body goes. -/
def JsonCodec.order : JsonCodec where
  stringify
    | .string "order-1" => "\"order-1\""
    | _ => "null"
  parse text := if text = "\"order-1\"" then some (.string "order-1") else none

/-- A row of the table; `writer` is the request whose claim wrote it. -/
structure ClaimRow where
  fingerprint : String
  state : RecordState
  status : Option Int
  responseBody : Option String
  createdAt : Int
  expiresAt : Int
  writer : Nat

/-- Why a claim no longer holds its key: it was released, the purge found it expired, or another
claim found its row in progress for too long. -/
inductive Ending where
  | released
  | expired (expiresAt sysNow : Int)
  | outlived (createdAt dateNow : Int)

abbrev Move := Slot.Move Nat Ending

abbrev Slots := String → Cell Nat ClaimRow Move

/-- The statement a claim transaction is at. -/
inductive ClaimAt where
  | purging (deleted : Nat)
  | selecting (now : Int)
  | inserting (now : Int)
  | takingOver (now : Int) (row : ClaimRow) (dateNow : Int)
  | done (outcome : ClaimOutcome)

/-- How far `intercept` has come.  `executed` says that the statement of the store call it awaits
has run, and its commit has not. -/
inductive OraclePhase where
  | waiting
  | claiming (stage : ClaimAt)
  | answered (outcome : ClaimOutcome)
  | failed (error : Thrown)
  | claimed (handled : Option (Except Thrown Response)) (pipe : Pipe) (executed : Bool)

namespace OracleIdempotencyStore

variable (config : IdempotencyConfig) (json : JsonCodec) (r : Nat) (fingerprint : String)

/-- What `insertSql` inserts, and what the takeover `UPDATE` sets every column to. -/
def openedRow (now : Int) : ClaimRow where
  fingerprint := fingerprint
  state := .inProgress
  status := none
  responseBody := none
  createdAt := now
  expiresAt := now + config.ttlMs
  writer := r

/-- `claimOn` from the answer of its `SELECT` on; nothing when the stored body does not parse. -/
def afterSelect (now dateNow : Int) : Option ClaimRow → Option ClaimAt
  | none => some (.inserting now)
  | some row =>
      if row.fingerprint ≠ fingerprint then some (.done .mismatch)
      else
        match row.state with
        | .inProgress =>
            if dateNow - row.createdAt ≤ config.inProgressTtlMs then some (.done .inProgress)
            else some (.takingOver now row dateNow)
        | .completed =>
            (json.decode row.responseBody).map fun body =>
              .done (.replay (row.status.getD 200) body)

/-- One row of `DELETE … WHERE expires_at < SYSTIMESTAMP AND ROWNUM <= 100`. -/
def purged (sysNow : Int) (row : ClaimRow) : Option ClaimRow × List Move :=
  (none, [.vacate row.writer (.expired row.expiresAt sysNow)])

/-- The takeover `UPDATE`; `seen` is what the `SELECT` before it returned. -/
def takenOver (now : Int) (seen : ClaimRow) (dateNow : Int) (_ : ClaimRow) :
    Option ClaimRow × List Move :=
  (some (openedRow config r fingerprint now),
    [.supplant seen.writer r (.outlived seen.createdAt dateNow)])

/-- The `UPDATE` of `complete`. -/
def completed (status : Int) (body : JsValue) (row : ClaimRow) : Option ClaimRow × List Move :=
  (some { row with
    state := .completed, status := some status, responseBody := json.encode body }, [])

/-- The `DELETE` of `release`. -/
def released (row : ClaimRow) : Option ClaimRow × List Move :=
  (none, [.vacate row.writer .released])

/-- The statement of a store call. -/
def settling : Call → Option (ClaimRow → Option ClaimRow × List Move)
  | .complete _ status body => some (completed json status body)
  | .release _ => some released
  | _ => none

end OracleIdempotencyStore

open OracleIdempotencyStore

structure OracleState where
  table : Slots
  phase : Nat → OraclePhase

/-- An empty table, and requests that have not begun. -/
def OracleState.fresh : OracleState := ⟨fun _ => Cell.settled none, fun _ => .waiting⟩

/-- One statement, or the answer to one, of request `r`. -/
inductive OracleLabel where
  | begin (r : Nat)
  | purge (r : Nat) (k : String) (sysNow : Int)
  | insert (r : Nat) (now : Int)
  | select (r : Nat) (dateNow : Int)
  | insertAgain (r : Nat)
  | takeOver (r : Nat)
  | commit (r : Nat) (answer : Except Thrown Unit)
  | abort (r : Nat) (error : Thrown)
  | handlerEnd (r : Nat) (settled : Except Thrown Response)
  | settle (r : Nat)

/-- How `intercept` goes on when the claim transaction is over. -/
def OraclePhase.returned (outcome : ClaimOutcome) : Except Thrown Unit → OraclePhase
  | .error e => .failed e
  | .ok _ =>
      match outcome with
      | .claimed => .claimed none .handling false
      | o => .answered o

namespace OracleState

variable (s : OracleState) (r : Nat)

def goto (phase : OraclePhase) : OracleState :=
  { s with phase := Function.update s.phase r phase }

/-- A statement has left `cell` in the table. -/
def exec (k : String) (cell : Cell Nat ClaimRow Move) (phase : OraclePhase) : OracleState :=
  ⟨Function.update s.table k cell, Function.update s.phase r phase⟩

/-- The transaction of `r` is over, and has left each cell as `f` does. -/
def finish (f : Cell Nat ClaimRow Move → Cell Nat ClaimRow Move) (phase : OraclePhase) :
    OracleState :=
  ⟨fun k => f (s.table k), Function.update s.phase r phase⟩

variable {s r} {k : String} {cell : Cell Nat ClaimRow Move} {phase : OraclePhase}
  {f : Cell Nat ClaimRow Move → Cell Nat ClaimRow Move}

@[simp] theorem goto_phase : (s.goto r phase).phase r = phase := Function.update_self ..

@[simp] theorem exec_phase : (s.exec r k cell phase).phase r = phase := Function.update_self ..

@[simp] theorem exec_table : (s.exec r k cell phase).table k = cell := Function.update_self ..

@[simp] theorem finish_phase : (s.finish r f phase).phase r = phase := Function.update_self ..

@[simp] theorem exec_self : s.exec r k (s.table k) phase = s.goto r phase := by simp [exec, goto]

end OracleState

section

variable (config : IdempotencyConfig) (json : JsonCodec) (reqs : Requests)

def oracleStep (s : OracleState) : OracleLabel → Option OracleState
  | .begin r =>
      match s.phase r with
      | .waiting => some (s.goto r (.claiming (.purging 0)))
      | _ => none
  | .purge r k sysNow =>
      match s.phase r, (s.table k).view r with
      | .claiming (.purging n), some row =>
          if n < 100 ∧ row.expiresAt < sysNow then
            ((s.table k).modify r (purged sysNow)).map fun cell =>
              s.exec r k cell (.claiming (.purging (n + 1)))
          else none
      | _, _ => none
  | .insert r now =>
      match s.phase r with
      | .claiming (.purging _) =>
          ((s.table (reqs.key r)).insert r (openedRow config r (reqs.fingerprint r) now)
            (.take r)).map fun (ok, cell) =>
              s.exec r (reqs.key r) cell (.claiming (if ok then .done .claimed else .selecting now))
      | _ => none
  | .select r dateNow =>
      match s.phase r with
      | .claiming (.selecting now) =>
          (afterSelect config json (reqs.fingerprint r) now dateNow
            ((s.table (reqs.key r)).view r)).map fun stage => s.goto r (.claiming stage)
      | _ => none
  | .insertAgain r =>
      match s.phase r with
      | .claiming (.inserting now) =>
          -- the second `INSERT` is not caught: if it fails, so does the transaction
          match (s.table (reqs.key r)).insert r (openedRow config r (reqs.fingerprint r) now)
            (.take r) with
          | some (true, cell) => some (s.exec r (reqs.key r) cell (.claiming (.done .claimed)))
          | _ => none
      | _ => none
  | .takeOver r =>
      match s.phase r with
      | .claiming (.takingOver now seen dateNow) =>
          ((s.table (reqs.key r)).modify r
            (takenOver config r (reqs.fingerprint r) now seen dateNow)).map fun cell =>
              s.exec r (reqs.key r) cell (.claiming (.done .claimed))
      | _ => none
  | .commit r answer =>
      match s.phase r with
      | .claiming (.done outcome) => some (s.finish r (·.commit r) (.returned outcome answer))
      | .claimed handled pipe true =>
          some (s.finish r (·.commit r) (.claimed handled (pipe.onStore answer) false))
      | _ => none
  | .abort r error =>
      match s.phase r with
      | .claiming _ => some (s.finish r (·.abort r) (.failed error))
      | .claimed handled pipe _ =>
          (pipe.storeCall (reqs.key r)).map fun _ =>
            s.finish r (·.abort r) (.claimed handled (pipe.onStore (.error error)) false)
      | _ => none
  | .handlerEnd r settled =>
      match s.phase r with
      | .claimed _ .handling _ =>
          some (s.goto r (.claimed (some settled) (.onHandler settled) false))
      | _ => none
  | .settle r =>
      match s.phase r with
      | .claimed handled pipe false => do
          let call ← pipe.storeCall (reqs.key r)
          let f ← settling json call
          let cell ← (s.table (reqs.key r)).modify r f
          pure (s.exec r (reqs.key r) cell (.claimed handled pipe true))
      | _ => none

def oracle : Machine OracleState OracleLabel := ⟨oracleStep config json reqs⟩

end

variable {config : IdempotencyConfig} {json : JsonCodec} {reqs : Requests} {s s' : OracleState}
  {r : Nat}

/-! ### What a step does -/

theorem oracle_begin (h : (oracle config json reqs).step s (.begin r) = some s') :
    s.phase r = .waiting ∧ s' = s.goto r (.claiming (.purging 0)) := by
  simp only [oracle, oracleStep] at h
  split at h
  next hp => exact ⟨hp, (Option.some.inj h).symm⟩
  next => cases h

theorem oracle_purge {k : String} {sysNow : Int}
    (h : (oracle config json reqs).step s (.purge r k sysNow) = some s') :
    ∃ n row, s.phase r = .claiming (.purging n) ∧ (s.table k).view r = some row ∧
      row.expiresAt < sysNow ∧ (s.table k).free r = true ∧
      s' = s.exec r k
        ((s.table k).write r none [.vacate row.writer (.expired row.expiresAt sysNow)])
        (.claiming (.purging (n + 1))) := by
  simp only [oracle, oracleStep] at h
  split at h
  next n row hp hv =>
    obtain ⟨⟨-, hexp⟩, h⟩ := Option.ite_none_right_eq_some.mp h
    obtain ⟨cell, hc, rfl⟩ := Option.map_eq_some_iff.mp h
    rcases Cell.modify_cases hc with ⟨hnone, -⟩ | ⟨row', hv', hf, rfl⟩
    · rw [hv] at hnone; cases hnone
    · obtain rfl := Option.some.inj (hv.symm.trans hv')
      exact ⟨n, row, hp, hv, hexp, hf, rfl⟩
  next => cases h

theorem oracle_insert {now : Int}
    (h : (oracle config json reqs).step s (.insert r now) = some s') :
    ∃ n, s.phase r = .claiming (.purging n) ∧
      (((s.table (reqs.key r)).view r = none ∧ (s.table (reqs.key r)).free r = true ∧
        s' = s.exec r (reqs.key r) ((s.table (reqs.key r)).write r
          (some (openedRow config r (reqs.fingerprint r) now)) [.take r])
          (.claiming (.done .claimed))) ∨
      s' = s.goto r (.claiming (.selecting now))) := by
  simp only [oracle, oracleStep] at h
  split at h
  next n hp =>
    obtain ⟨⟨ok, cell⟩, hc, rfl⟩ := Option.map_eq_some_iff.mp h
    -- ORA-00001 goes on to the `SELECT`
    rcases Cell.insert_cases hc with ⟨rfl, hv, hf, rfl⟩ | ⟨rfl, -, rfl⟩
    · exact ⟨n, hp, .inl ⟨hv, hf, rfl⟩⟩
    · exact ⟨n, hp, .inr (OracleState.exec_self)⟩
  next => cases h

theorem oracle_select {dateNow : Int}
    (h : (oracle config json reqs).step s (.select r dateNow) = some s') :
    ∃ now stage, s.phase r = .claiming (.selecting now) ∧
      afterSelect config json (reqs.fingerprint r) now dateNow
        ((s.table (reqs.key r)).view r) = some stage ∧
      s' = s.goto r (.claiming stage) := by
  simp only [oracle, oracleStep] at h
  split at h
  next now hp =>
    obtain ⟨stage, hs, rfl⟩ := Option.map_eq_some_iff.mp h
    exact ⟨now, stage, hp, hs, rfl⟩
  next => cases h

theorem oracle_insertAgain (h : (oracle config json reqs).step s (.insertAgain r) = some s') :
    ∃ now, s.phase r = .claiming (.inserting now) ∧ (s.table (reqs.key r)).view r = none ∧
      (s.table (reqs.key r)).free r = true ∧
      s' = s.exec r (reqs.key r) ((s.table (reqs.key r)).write r
        (some (openedRow config r (reqs.fingerprint r) now)) [.take r])
        (.claiming (.done .claimed)) := by
  simp only [oracle, oracleStep] at h
  split at h
  next now hp =>
    split at h
    next cell hc =>
      obtain rfl := Option.some.inj h
      rcases Cell.insert_cases hc with ⟨-, hv, hf, rfl⟩ | ⟨hok, -⟩
      · exact ⟨now, hp, hv, hf, rfl⟩
      · cases hok
    next => cases h
  next => cases h

theorem oracle_takeOver (h : (oracle config json reqs).step s (.takeOver r) = some s') :
    ∃ now seen dateNow, s.phase r = .claiming (.takingOver now seen dateNow) ∧
      (((s.table (reqs.key r)).view r = none ∧ s' = s.goto r (.claiming (.done .claimed))) ∨
      ∃ row, (s.table (reqs.key r)).view r = some row ∧ (s.table (reqs.key r)).free r = true ∧
        s' = s.exec r (reqs.key r) ((s.table (reqs.key r)).write r
          (some (openedRow config r (reqs.fingerprint r) now))
          [.supplant seen.writer r (.outlived seen.createdAt dateNow)])
          (.claiming (.done .claimed))) := by
  simp only [oracle, oracleStep] at h
  split at h
  next now seen dateNow hp =>
    obtain ⟨cell, hc, rfl⟩ := Option.map_eq_some_iff.mp h
    refine ⟨now, seen, dateNow, hp, ?_⟩
    rcases Cell.modify_cases hc with ⟨hv, rfl⟩ | ⟨row, hv, hf, rfl⟩
    · exact .inl ⟨hv, OracleState.exec_self⟩
    · exact .inr ⟨row, hv, hf, rfl⟩
  next => cases h

theorem oracle_commit {answer : Except Thrown Unit}
    (h : (oracle config json reqs).step s (.commit r answer) = some s') :
    (∃ outcome, s.phase r = .claiming (.done outcome) ∧
        s' = s.finish r (·.commit r) (.returned outcome answer)) ∨
      ∃ handled pipe, s.phase r = .claimed handled pipe true ∧
        s' = s.finish r (·.commit r) (.claimed handled (pipe.onStore answer) false) := by
  simp only [oracle, oracleStep] at h
  split at h
  next outcome hp => exact .inl ⟨outcome, hp, (Option.some.inj h).symm⟩
  next handled pipe hp => exact .inr ⟨handled, pipe, hp, (Option.some.inj h).symm⟩
  next => cases h

theorem oracle_abort {error : Thrown}
    (h : (oracle config json reqs).step s (.abort r error) = some s') :
    (∃ stage, s.phase r = .claiming stage ∧ s' = s.finish r (·.abort r) (.failed error)) ∨
      ∃ handled pipe executed call, s.phase r = .claimed handled pipe executed ∧
        pipe.storeCall (reqs.key r) = some call ∧
        s' = s.finish r (·.abort r) (.claimed handled (pipe.onStore (.error error)) false) := by
  simp only [oracle, oracleStep] at h
  split at h
  next stage hp => exact .inl ⟨stage, hp, (Option.some.inj h).symm⟩
  next handled pipe executed hp =>
    obtain ⟨call, hc, rfl⟩ := Option.map_eq_some_iff.mp h
    exact .inr ⟨handled, pipe, executed, call, hp, hc, rfl⟩
  next => cases h

theorem oracle_handlerEnd {settled : Except Thrown Response}
    (h : (oracle config json reqs).step s (.handlerEnd r settled) = some s') :
    ∃ handled executed, s.phase r = .claimed handled .handling executed ∧
      s' = s.goto r (.claimed (some settled) (.onHandler settled) false) := by
  simp only [oracle, oracleStep] at h
  split at h
  next handled executed hp => exact ⟨handled, executed, hp, (Option.some.inj h).symm⟩
  next => cases h

theorem oracle_settle (h : (oracle config json reqs).step s (.settle r) = some s') :
    ∃ handled pipe call f, s.phase r = .claimed handled pipe false ∧
      pipe.storeCall (reqs.key r) = some call ∧ settling json call = some f ∧
      (((s.table (reqs.key r)).view r = none ∧ s' = s.goto r (.claimed handled pipe true)) ∨
      ∃ row, (s.table (reqs.key r)).view r = some row ∧ (s.table (reqs.key r)).free r = true ∧
        s' = s.exec r (reqs.key r) ((s.table (reqs.key r)).write r (f row).1 (f row).2)
          (.claimed handled pipe true)) := by
  simp only [oracle, oracleStep] at h
  split at h
  next handled pipe hp =>
    obtain ⟨call, hc, h⟩ := Option.bind_eq_some_iff.mp h
    obtain ⟨f, hf, h⟩ := Option.bind_eq_some_iff.mp h
    obtain ⟨cell, hcell, h⟩ := Option.bind_eq_some_iff.mp h
    obtain rfl := Option.some.inj h
    refine ⟨handled, pipe, call, f, hp, hc, hf, ?_⟩
    rcases Cell.modify_cases hcell with ⟨hv, rfl⟩ | ⟨row, hv, hfree, rfl⟩
    · exact .inl ⟨hv, OracleState.exec_self⟩
    · exact .inr ⟨row, hv, hfree, rfl⟩
  next => cases h

/-- The request whose step it is. -/
def OracleLabel.actor : OracleLabel → Nat
  | .begin r | .purge r _ _ | .insert r _ | .select r _ | .insertAgain r | .takeOver r
  | .commit r _ | .abort r _ | .handlerEnd r _ | .settle r => r

/-- `s'` is `s` after a step of `r`: other requests stand where they stood, and no cell that
another request has locked has changed. -/
structure OracleState.ActedBy (r : Nat) (s s' : OracleState) : Prop where
  cells : ∀ k, Cell.ActedBy r (s.table k) (s'.table k)
  phases : ∀ r', r' ≠ r → s'.phase r' = s.phase r'

theorem acted_goto (phase : OraclePhase) : s.ActedBy r (s.goto r phase) :=
  ⟨fun _ => .refl _, fun _ h => Function.update_of_ne h ..⟩

theorem acted_write {k : String} (hf : (s.table k).free r = true) (v : Option ClaimRow)
    (ms : List Move) (phase : OraclePhase) :
    s.ActedBy r (s.exec r k ((s.table k).write r v ms) phase) := by
  refine ⟨fun k' => ?_, fun _ h => Function.update_of_ne h ..⟩
  by_cases hk : k' = k
  · subst hk; simpa [OracleState.exec] using Cell.ActedBy.write hf v ms
  · simpa [OracleState.exec, hk] using Cell.ActedBy.refl _

theorem acted_commit (phase : OraclePhase) : s.ActedBy r (s.finish r (·.commit r) phase) :=
  ⟨fun _ => .commit .., fun _ h => Function.update_of_ne h ..⟩

theorem acted_abort (phase : OraclePhase) : s.ActedBy r (s.finish r (·.abort r) phase) :=
  ⟨fun _ => .abort .., fun _ h => Function.update_of_ne h ..⟩

/-- Every step acts for its own request only. -/
theorem oracle_acted {l : OracleLabel} (h : (oracle config json reqs).step s l = some s') :
    s.ActedBy l.actor s' := by
  cases l with
  | begin r => obtain ⟨-, rfl⟩ := oracle_begin h; exact acted_goto _
  | purge r k sysNow => obtain ⟨_, _, -, -, -, hf, rfl⟩ := oracle_purge h; exact acted_write hf ..
  | insert r now =>
      obtain ⟨_, -, ⟨-, hf, rfl⟩ | rfl⟩ := oracle_insert h
      · exact acted_write hf ..
      · exact acted_goto _
  | select r dateNow => obtain ⟨_, _, -, -, rfl⟩ := oracle_select h; exact acted_goto _
  | insertAgain r => obtain ⟨_, -, -, hf, rfl⟩ := oracle_insertAgain h; exact acted_write hf ..
  | takeOver r =>
      obtain ⟨_, _, _, -, ⟨-, rfl⟩ | ⟨_, -, hf, rfl⟩⟩ := oracle_takeOver h
      · exact acted_goto _
      · exact acted_write hf ..
  | commit r answer =>
      obtain ⟨_, -, rfl⟩ | ⟨_, _, -, rfl⟩ := oracle_commit h <;> exact acted_commit _
  | abort r error =>
      obtain ⟨_, -, rfl⟩ | ⟨_, _, _, _, -, -, rfl⟩ := oracle_abort h <;> exact acted_abort _
  | handlerEnd r settled => obtain ⟨_, _, -, rfl⟩ := oracle_handlerEnd h; exact acted_goto _
  | settle r =>
      obtain ⟨_, _, _, _, -, -, -, ⟨-, rfl⟩ | ⟨_, -, hf, rfl⟩⟩ := oracle_settle h
      · exact acted_goto _
      · exact acted_write hf ..

/-- A store call is a `complete` of the response at hand, or a `release`. -/
theorem settling_cases {pipe : Pipe} {call : Call} {f : ClaimRow → Option ClaimRow × List Move}
    (hc : pipe.storeCall (reqs.key r) = some call) (hf : settling json call = some f) :
    (∃ res, pipe = .completing res ∧ f = completed json res.statusCode res.body) ∨
      (f = released ∧ ∀ res, pipe ≠ .completing res) := by
  cases pipe with
  | completing res =>
      obtain rfl := Option.some.inj hc
      exact .inl ⟨res, rfl, (Option.some.inj hf).symm⟩
  | releasing res | rethrowing e =>
      obtain rfl := Option.some.inj hc
      exact .inr ⟨(Option.some.inj hf).symm, fun _ h => nomatch h⟩
  | handling | emitted res | errored e => cases hc

end NestDdd.Idempotency

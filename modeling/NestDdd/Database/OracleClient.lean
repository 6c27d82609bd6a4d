import NestDdd.Runs.Async
import NestDdd.Shared.JsString

/-!
# Database — the Oracle client

`OracleClient` (`src/infrastructure/database/clients/oracle.client.ts`) over the driver:
`withConnection` borrows a connection, sets the context user on it, runs a function, and clears and
closes it; `transaction` adds a commit or a rollback.  `mapOracleError` follows
`clients/oracle/oracle-error.mapper.ts`.  Property setters and the logger do not throw; every other
driver call may.

* `release_apply`: giving a connection back always resolves (`Returns`), with one `close`, and only
  log lines after it (`Closes`).
* `transaction_borrowed`: what a transaction leaves in the trace, and what it settles with, by how
  its function and the commit settled (`Settles`).
-/

namespace NestDdd.Database

open Runs Runs.Async NestDdd.JsValue

/-! ### Errors -/

/-- What may be thrown through a database call: a value as the language has it, or an error of a
class.  `presentable` is an `AppError` or a `DomainError` with its own properties, of any class that
the mapper does not make itself. -/
inductive DbError where
  | value (v : JsValue)
  | presentable (fields : List (String × JsValue))
  | conflict (message : String) (code : JsValue) (sourceKey : String) (tag : Option String)
  | connection (sourceKey : String) (cause : DbError)
  | execution (sourceKey : String) (sqlTag : Option String) (cause : DbError) (code : JsValue)
  | rollbackWithResult (result : JsValue)

/-- `CONNECTION_CODES`: the pool is exhausted, the network or the session is gone. -/
def connectionCodes : List String :=
  ["NJS-040", "NJS-076", "NJS-500", "NJS-501", "NJS-503", "NJS-510", "NJS-521", "DPI-1010",
    "DPI-1080", "ORA-03113", "ORA-03114", "ORA-03135", "ORA-12170", "ORA-12514", "ORA-12541",
    "ORA-12543", "ORA-12545"]

/-- `s.padStart(5, '0')`. -/
def padStart (s : String) : String :=
  String.ofList (List.replicate (5 - s.length) '0') ++ s

/-- `set.has(v)`. -/
def hasCode (codes : List String) : JsValue → Bool
  | .string code => codes.contains code
  | _ => false

namespace DbError

/-- A driver's error. -/
def driver (code message : String) : DbError :=
  .value (.object [("code", .string code), ("message", .string message)])

def unauthorized (message : String) : DbError := .presentable [("message", .string message)]

/-- `error instanceof AppError || error instanceof DomainError`. -/
def isPresentable : DbError → Bool
  | .value _ | .rollbackWithResult _ => false
  | .presentable _ | .conflict _ _ _ _ | .connection _ _ | .execution _ _ _ _ => true

/-- The property `name`, if the error has it, of those that the mapper looks for.  A conflict keeps
its code in its `details`. -/
def property (name : String) : DbError → Option JsValue
  | .value v => v.fields.lookup name
  | .presentable fields => fields.lookup name
  | .conflict _ _ _ _ | .connection _ _ | .rollbackWithResult _ => none
  | .execution _ _ _ code => if name = "code" then some code else none

def isOracleLikeError (error : DbError) : Bool :=
  (error.property "code").isSome || (error.property "errorNum").isSome

variable (stringOf : JsValue → String) (error : DbError)

/-- `error.code ?? (error.errorNum ? … : undefined)`; `stringOf` is `String`. -/
def oracleCode : JsValue :=
  let errorNum := (error.property "errorNum").getD .undefined
  coalesce ((error.property "code").getD .undefined)
    (if errorNum.truthy then .string ("ORA-" ++ padStart (stringOf errorNum)) else .undefined)

def mapOracleError (sourceKey : String) (tag : Option String) : DbError :=
  if !error.isOracleLikeError then error
  else
    let code := error.oracleCode stringOf
    if !code.truthy then error
    else if hasCode ["ORA-00001"] code then .conflict "Duplicate value" code sourceKey tag
    else if hasCode connectionCodes code then .connection sourceKey error
    else .execution sourceKey tag error code

end DbError

/-! ### The context user -/

structure ContextUserConfig where
  enabled : Bool
  required : Bool
  maxLength : Nat

/-- What the client reads of a source, and the `String` of the platform. -/
structure OracleSource where
  stringOf : JsValue → String
  key : String
  callTimeoutMs : Int
  poolPingTimeoutMs : Int
  healthQuery : String
  contextUser : ContextUserConfig

/-- `String(v)` of a string or an integer. -/
def plainString : JsValue → String
  | .string s => s
  | .number (.finite q) => toString q.num
  | _ => ""

/-- A source with the defaults of its schema. -/
def OracleSource.main : OracleSource where
  stringOf := plainString
  key := "main"
  callTimeoutMs := 0
  poolPingTimeoutMs := 5000
  healthQuery := "SELECT 1 FROM DUAL"
  contextUser := ⟨true, false, 64⟩

structure ConnectionOptions where
  contextUser : Option String
  callTimeoutMs : Option Int
  tag : Option String
  username : Option String

/-- The loop of `truncateBytes`. -/
def takeBytes (maxBytes : Nat) : String → List Char → String
  | result, [] => result
  | result, char :: rest =>
      if (result.push char).utf8ByteSize > maxBytes then result
      else takeBytes maxBytes (result.push char) rest

def truncateBytes (value : String) (maxBytes : Nat) : String :=
  if value.utf8ByteSize ≤ maxBytes then value else takeBytes maxBytes "" value.toList

def resolveContextUser (source : OracleSource) (options : ConnectionOptions) :
    Except DbError (Option String) :=
  let raw := ((options.contextUser <|> options.username).map trim).getD ""
  if !source.contextUser.enabled then .ok none
  else if raw = "" then
    if source.contextUser.required then
      .error (.unauthorized ("Database source \"" ++ source.key ++ "\" requires a context user"))
    else .ok none
  else .ok (some (truncateBytes raw source.contextUser.maxLength))

/-- Calls without a user are rejected. -/
def OracleSource.RequiresUser (source : OracleSource) : Prop :=
  source.contextUser.enabled = true ∧ source.contextUser.required = true

/-- The options of a call that names no user. -/
def nobody (callTimeoutMs : Option Int) (tag : String) : ConnectionOptions :=
  ⟨none, callTimeoutMs, some tag, none⟩

theorem resolve_nobody {source : OracleSource} (h : ¬ source.RequiresUser)
    (callTimeoutMs : Option Int) (tag : String) :
    resolveContextUser source (nobody callTimeoutMs tag) = .ok none := by
  unfold OracleSource.RequiresUser at h
  cases henabled : source.contextUser.enabled <;>
    cases hrequired : source.contextUser.required <;>
    simp_all [resolveContextUser, nobody]

theorem resolve_nobody_required {source : OracleSource} (h : source.RequiresUser)
    (callTimeoutMs : Option Int) (tag : String) :
    resolveContextUser source (nobody callTimeoutMs tag) = .error (.unauthorized
      ("Database source \"" ++ source.key ++ "\" requires a context user")) := by
  simp [resolveContextUser, nobody, h.1, h.2]

theorem takeBytes_size {maxBytes : Nat} :
    ∀ {result : String} {rest : List Char}, result.utf8ByteSize ≤ maxBytes →
      (takeBytes maxBytes result rest).utf8ByteSize ≤ maxBytes
  | result, [], h => h
  | result, char :: rest, h => by
      rw [takeBytes]
      split
      · exact h
      next hfit => exact takeBytes_size (Nat.not_lt.mp hfit)

/-- A context user never exceeds the limit of the source. -/
theorem resolveContextUser_size {source : OracleSource} {options : ConnectionOptions}
    {user : String} (h : resolveContextUser source options = .ok (some user)) :
    user.utf8ByteSize ≤ source.contextUser.maxLength := by
  simp only [resolveContextUser] at h
  split at h
  · cases h
  · split at h
    · split at h <;> cases h
    · obtain rfl := Option.some.inj (Except.ok.inj h)
      rw [truncateBytes]
      split
      · assumption
      · exact takeBytes_size (Nat.zero_le _)

/-! ### The driver -/

abbrev Conn := Nat

/-- What the client asks of the pool, a connection and the logger. -/
inductive DbCall where
  | getConnection
  | setCallTimeout (connection : Conn) (ms : Int)
  | setClientId (connection : Conn) (user : String)
  | execute (connection : Conn) (sql : String)
  | commit (connection : Conn)
  | rollback (connection : Conn)
  | ping (connection : Conn)
  | close (connection : Conn) (drop : Bool)
  | warn (event : String)

abbrev DbCall.Reply : DbCall → Type
  | .getConnection => Conn
  | .execute _ _ => JsValue
  | .setCallTimeout _ _ | .setClientId _ _ | .commit _ | .rollback _ | .ping _ | .close _ _
  | .warn _ => Unit

abbrev DbM := Async DbCall.Reply DbError

abbrev DbEvent := Event DbCall.Reply DbError

abbrev DbEnv := Env DbCall.Reply DbError

/-- A driver that lends a connection, and does nothing with it. -/
def lends : DbEnv := fun _ call =>
  match call with
  | .getConnection => .ok 0
  | _ => .error (.value .undefined)

def getConnection : DbM Conn := call DbCall.getConnection

def setCallTimeout (connection : Conn) (ms : Int) : DbM Unit :=
  note (DbCall.setCallTimeout connection ms) ()

def setClientId (connection : Conn) (user : String) : DbM Unit :=
  note (DbCall.setClientId connection user) ()

def execute (connection : Conn) (sql : String) : DbM JsValue := call (DbCall.execute connection sql)

def commit (connection : Conn) : DbM Unit := call (DbCall.commit connection)

def rollback (connection : Conn) : DbM Unit := call (DbCall.rollback connection)

def ping (connection : Conn) : DbM Unit := call (DbCall.ping connection)

def close (connection : Conn) (drop : Bool) : DbM Unit := call (DbCall.close connection drop)

def warn (event : String) : DbM Unit := note (DbCall.warn event) ()

/-- A line in the log. -/
def DbCall.isWarn : DbCall → Bool
  | .warn _ => true
  | _ => false

/-- What a call does to the connection or its transaction; the `other` calls leave both alone. -/
inductive DbCall.Kind where
  | borrow
  | execute
  | commit
  | rollback
  | close
  | other
  deriving DecidableEq

def DbCall.kind : DbCall → DbCall.Kind
  | .getConnection => .borrow
  | .execute _ _ => .execute
  | .commit _ => .commit
  | .rollback _ => .rollback
  | .close _ _ => .close
  | .setCallTimeout _ _ | .setClientId _ _ | .ping _ | .warn _ => .other

theorem DbCall.kind_of_isWarn {call : DbCall} (h : call.isWarn = true) : call.kind = .other := by
  cases call <;> first | rfl | cases h

/-- The connection is closed once, and nothing but log lines follows. -/
def Closes (c : Conn) (events : List DbEvent) : Prop :=
  ∃ before drop answer after, events = before ++ ⟨.close c drop, answer⟩ :: after ∧
    (∀ e ∈ before, e.1.kind = .other) ∧ ∀ e ∈ after, e.1.isWarn = true

/-- What `prepare` does to a connection: it may set a timeout, and it sets the user if there is
one. -/
def Opens (c : Conn) (user : String) (events : List DbEvent) : Prop :=
  ∃ timeouts, (∀ e ∈ timeouts, ∃ ms, e = ⟨.setCallTimeout c ms, .ok ()⟩) ∧
    events = timeouts ++ if user = "" then [] else [⟨.setClientId c user, .ok ()⟩]

/-- What `clear` does to a connection, and whether it is then to be dropped. -/
inductive Clears (c : Conn) : Bool → List DbEvent → Prop where
  | cleared (ms : Int) : Clears c false
      [⟨.setClientId c "", .ok ()⟩, ⟨.setCallTimeout c ms, .ok ()⟩, ⟨.ping c, .ok ()⟩]
  | failed (ms : Int) (e : DbError) : Clears c true
      [⟨.setClientId c "", .ok ()⟩, ⟨.setCallTimeout c ms, .ok ()⟩, ⟨.ping c, .error e⟩,
        ⟨.warn "db.context.clear.failed", .ok ()⟩]

/-- What `giveBack` does to a connection. -/
inductive GivesBack (c : Conn) (drop : Bool) : List DbEvent → Prop where
  | closed (ms : Int) : GivesBack c drop
      [⟨.setCallTimeout c ms, .ok ()⟩, ⟨.close c drop, .ok ()⟩]
  | failed (ms : Int) (e : DbError) : GivesBack c drop
      [⟨.setCallTimeout c ms, .ok ()⟩, ⟨.close c drop, .error e⟩,
        ⟨.warn "db.connection.release.failed", .ok ()⟩]

/-- What `release` does to a connection. -/
inductive Returns (c : Conn) : Bool → List DbEvent → Prop where
  | kept {given : List DbEvent} (h : GivesBack c false given) : Returns c false given
  | cleared {drop : Bool} {tidied given : List DbEvent} (ht : Clears c drop tidied)
      (h : GivesBack c drop given) : Returns c true (tidied ++ given)

theorem Opens.other {c : Conn} {user : String} {events : List DbEvent} (h : Opens c user events) :
    ∀ e ∈ events, e.1.kind = .other := by
  obtain ⟨timeouts, ht, rfl⟩ := h
  intro e he
  rcases List.mem_append.mp he with he | he
  · obtain ⟨ms, rfl⟩ := ht e he
    rfl
  · split at he
    · cases he
    · rw [List.mem_singleton.mp he]; rfl

theorem GivesBack.closes {c : Conn} {drop : Bool} {events : List DbEvent}
    (h : GivesBack c drop events) : Closes c events := by
  cases h with
  | closed ms => exact ⟨[_], drop, _, [], rfl, by simp [DbCall.kind], by simp⟩
  | failed ms e => exact ⟨[_], drop, _, [_], rfl, by simp [DbCall.kind], by simp [DbCall.isWarn]⟩

theorem Returns.closes {c : Conn} {clearContext : Bool} {events : List DbEvent}
    (h : Returns c clearContext events) : Closes c events := by
  cases h with
  | kept h => exact h.closes
  | @cleared drop tidied given ht h =>
      obtain ⟨before, drop', answer, after, rfl, hb, ha⟩ := h.closes
      refine ⟨tidied ++ before, drop', answer, after, (List.append_assoc ..).symm, ?_, ha⟩
      intro e he
      rcases List.mem_append.mp he with he | he
      · cases ht <;> simp only [List.mem_cons, List.not_mem_nil, or_false] at he <;>
          rcases he with rfl | rfl | rfl | rfl <;> rfl
      · exact hb e he

/-- How a transaction on `c` goes on once its function has settled: the events, and what comes
of it. -/
inductive Settles (c : Conn) {α : Type} :
    Except DbError α → List DbEvent → Except DbError α → Prop where
  | committed (v : α) : Settles c (.ok v) [⟨.commit c, .ok ()⟩] (.ok v)
  | refused (v : α) (e : DbError) (answer : Except DbError Unit) (after : List DbEvent)
      (h : ∀ e ∈ after, e.1.isWarn = true) :
      Settles c (.ok v) (⟨.commit c, .error e⟩ :: ⟨.rollback c, answer⟩ :: after) (.error e)
  | failed (e : DbError) (answer : Except DbError Unit) (after : List DbEvent)
      (h : ∀ e ∈ after, e.1.isWarn = true) :
      Settles c (.error e) (⟨.rollback c, answer⟩ :: after) (.error e)

/-! ### The client -/

namespace OracleClient

variable {α : Type} (source : OracleSource)

/-- `poolPingTimeoutMs || 5000`. -/
def clearTimeout : Int := if source.poolPingTimeoutMs = 0 then 5000 else source.poolPingTimeoutMs

/-- The first half of `release`: whether the connection is to be dropped. -/
def clear (connection : Conn) : DbM Bool := do
  setClientId connection ""
  setCallTimeout connection (clearTimeout source)
  match ← attempt (ping connection) with
  | .ok _ => pure false
  | .error _ =>
      warn "db.context.clear.failed"
      pure true

/-- The second half of `release`. -/
def giveBack (connection : Conn) (drop : Bool) : DbM Unit := do
  setCallTimeout connection source.callTimeoutMs
  match ← attempt (close connection drop) with
  | .ok _ => pure ()
  | .error _ => warn "db.connection.release.failed"

def release (connection : Conn) (clearContext : Bool) : DbM Unit := do
  let drop ← if clearContext then clear source connection else pure false
  giveBack source connection drop

def mapError (error : DbError) (tag : Option String) : DbError :=
  error.mapOracleError source.stringOf source.key tag

/-- `try { await fn } catch (e) { throw this.mapError(e, tag) }`. -/
def mapErrors (tag : Option String) (fn : DbM α) : DbM α :=
  catchError fn fun e => reject (mapError source e tag)

/-- The properties set on a borrowed connection. -/
def prepare (connection : Conn) (callTimeoutMs : Option Int) (user : String) : DbM Unit := do
  let callTimeout := callTimeoutMs.getD source.callTimeoutMs
  if callTimeout > 0 then setCallTimeout connection callTimeout
  if user ≠ "" then setClientId connection user

/-- The connection that `withConnection` hands to its function, and the trace at that moment. -/
def handed (options : ConnectionOptions) (env : DbEnv) (t : List DbEvent) :
    Option (Conn × List DbEvent) :=
  match resolveContextUser source options, env t .getConnection with
  | .ok contextUser, .ok connection =>
      some (connection, (prepare source connection options.callTimeoutMs (contextUser.getD "") env
        (t ++ [⟨.getConnection, .ok connection⟩])).2)
  | _, _ => none

def withConnection (fn : Conn → DbM α) (options : ConnectionOptions) : DbM α :=
  match resolveContextUser source options with
  | .error e => reject e
  | .ok contextUser => do
      -- an empty context user is as good as none
      let user := contextUser.getD ""
      match ← attempt getConnection with
      | .error e => reject (.connection source.key e)
      | .ok connection =>
          prepare source connection options.callTimeoutMs user
          andFinally (mapErrors source options.tag (fn connection))
            (release source connection (user ≠ ""))

/-- The `catch` of `transaction`. -/
def rollbackAnd (connection : Conn) (error : DbError) : DbM α := do
  match ← attempt (rollback connection) with
  | .ok _ => pure ()
  | .error _ => warn "db.rollback.failed"
  reject error

def transaction (fn : Conn → DbM α) (options : ConnectionOptions) : DbM α :=
  withConnection source
    (fun connection =>
      catchError
        (do
          let result ← fn connection
          commit connection
          pure result)
        (rollbackAnd connection))
    options

/-- What `ping` runs on its connection. -/
def healthCheck (connection : Conn) : DbM Unit :=
  if source.healthQuery = "SELECT 1 FROM DUAL" then Database.ping connection
  else do
    let _ ← execute connection source.healthQuery
    pure ()

/-- `ping`, apart from its log line. -/
def ping (timeoutMs : Int) : DbM Unit :=
  withConnection source (healthCheck source) ⟨none, some timeoutMs, some "ping", none⟩

/-! ### What a call leaves in the trace -/

variable {source} {options : ConnectionOptions} {fn : Conn → DbM α} (env : DbEnv)
  (t : List DbEvent)

theorem clear_apply (c : Conn) :
    ∃ drop tidied, clear source c env t = (.ok drop, t ++ tidied) ∧ Clears c drop tidied := by
  let t₁ : List DbEvent :=
    t ++ [⟨.setClientId c "", .ok ()⟩] ++ [⟨.setCallTimeout c (clearTimeout source), .ok ()⟩]
  have hstart : clear source c env t =
      (do
        match ← attempt (Database.ping c) with
        | .ok _ => pure false
        | .error _ =>
            warn "db.context.clear.failed"
            pure true : DbM Bool) env t₁ := rfl
  have hping : attempt (Database.ping c) env t₁ =
      (.ok (env t₁ (.ping c)), t₁ ++ [⟨_, env t₁ (.ping c)⟩]) := rfl
  -- the connection is dropped if the ping fails
  cases hp : env t₁ (.ping c) with
  | ok a =>
      rw [hp] at hping
      exact ⟨false, _, hstart.trans ((bind_ok env _ hping).trans
        (congrArg (Prod.mk _) (by simp [t₁]))), .cleared (clearTimeout source)⟩
  | error e =>
      rw [hp] at hping
      exact ⟨true, _, hstart.trans ((bind_ok env _ hping).trans
        (congrArg (Prod.mk _) (by simp [t₁]))), .failed (clearTimeout source) e⟩

theorem giveBack_apply (c : Conn) (drop : Bool) :
    ∃ given, giveBack source c drop env t = (.ok (), t ++ given) ∧ GivesBack c drop given := by
  let t₁ : List DbEvent := t ++ [⟨.setCallTimeout c source.callTimeoutMs, .ok ()⟩]
  have hstart : giveBack source c drop env t =
      (do
        match ← attempt (close c drop) with
        | .ok _ => pure ()
        | .error _ => warn "db.connection.release.failed" : DbM Unit) env t₁ := rfl
  have hclose : attempt (close c drop) env t₁ =
      (.ok (env t₁ (.close c drop)), t₁ ++ [⟨_, env t₁ (.close c drop)⟩]) := rfl
  cases hc : env t₁ (.close c drop) with
  | ok a =>
      rw [hc] at hclose
      exact ⟨_, hstart.trans ((bind_ok env _ hclose).trans (congrArg (Prod.mk _) (by simp [t₁]))),
        .closed source.callTimeoutMs⟩
  | error e =>
      rw [hc] at hclose
      exact ⟨_, hstart.trans ((bind_ok env _ hclose).trans (congrArg (Prod.mk _) (by simp [t₁]))),
        .failed source.callTimeoutMs e⟩

/-- Giving a connection back always resolves. -/
theorem release_apply (c : Conn) (clearContext : Bool) :
    ∃ events, release source c clearContext env t = (.ok (), t ++ events) ∧
      Returns c clearContext events := by
  cases clearContext with
  | false =>
      obtain ⟨given, hgive, h⟩ := giveBack_apply env t c false
      exact ⟨given, hgive, .kept h⟩
  | true =>
      obtain ⟨drop, tidied, hclear, ht⟩ := clear_apply env t c
      obtain ⟨given, hgive, h⟩ := giveBack_apply env (t ++ tidied) c drop
      refine ⟨tidied ++ given, ?_, .cleared ht h⟩
      rw [← List.append_assoc, ← hgive]
      exact bind_ok env t hclear

theorem prepare_apply (c : Conn) (callTimeoutMs : Option Int) (user : String) :
    ∃ opening, prepare source c callTimeoutMs user env t = (.ok (), t ++ opening) ∧
      Opens c user opening := by
  unfold prepare
  generalize callTimeoutMs.getD source.callTimeoutMs = ms
  let timeouts : List DbEvent := if ms > 0 then [⟨.setCallTimeout c ms, .ok ()⟩] else []
  refine ⟨timeouts ++ if user = "" then [] else [⟨.setClientId c user, .ok ()⟩], ?_,
    timeouts, fun e he => ⟨ms, ?_⟩, rfl⟩
  · by_cases hms : ms > 0 <;> by_cases hu : user = "" <;>
      simp [timeouts, hms, hu, setCallTimeout, setClientId, bind_apply]
  · simp only [timeouts] at he
    split at he
    · exact List.mem_singleton.mp he
    · cases he

theorem mapErrors_apply (tag : Option String) (x : DbM α) :
    mapErrors source tag x env t =
      ((x env t).1.mapError (mapError source · tag), (x env t).2) := by
  rcases h : x env t with ⟨r, t'⟩
  cases r with
  | ok v => exact catchError_ok env t h
  | error e => exact catchError_error env t h

theorem withConnection_unresolved {e : DbError} (h : resolveContextUser source options = .error e) :
    withConnection source fn options env t = (.error e, t) := by
  simp only [withConnection, h, reject_apply]

theorem withConnection_refused {user : Option String} {e : DbError}
    (h : resolveContextUser source options = .ok user) (hget : env t .getConnection = .error e) :
    withConnection source fn options env t =
      (.error (.connection source.key e), t ++ [⟨.getConnection, .error e⟩]) := by
  simp only [withConnection, h, getConnection, attempt_bind, call_apply, hget, reject_apply]

/-- A borrowed connection: it is prepared, used, and given back, whatever the function did. -/
theorem withConnection_borrowed {user : Option String} {c : Conn}
    (h : resolveContextUser source options = .ok user) (hget : env t .getConnection = .ok c) :
    ∃ opening ending, Opens c (user.getD "") opening ∧ Returns c (user.getD "" ≠ "") ending ∧
      handed source options env t = some (c, t ++ ⟨.getConnection, .ok c⟩ :: opening) ∧
      withConnection source fn options env t =
        ((fn c env (t ++ ⟨.getConnection, .ok c⟩ :: opening)).1.mapError
            (mapError source · options.tag),
          (fn c env (t ++ ⟨.getConnection, .ok c⟩ :: opening)).2 ++ ending) := by
  obtain ⟨opening, hprep, htidy⟩ :=
    @prepare_apply source env (t ++ [⟨.getConnection, .ok c⟩]) c options.callTimeoutMs
      (user.getD "")
  rw [List.append_assoc, List.singleton_append] at hprep
  obtain ⟨ending, hrel, hclose⟩ := @release_apply source env
    (fn c env (t ++ ⟨.getConnection, .ok c⟩ :: opening)).2 c (user.getD "" ≠ "")
  refine ⟨opening, ending, htidy, hclose, by simp only [handed, h, hget, hprep], ?_⟩
  simp only [withConnection, h, getConnection, attempt_bind, call_apply, hget]
  rw [bind_ok env _ hprep, andFinally_apply, mapErrors_apply]
  rw [mapErrors_apply]
  exact hrel

theorem rollbackAnd_apply (c : Conn) (e : DbError) :
    ∃ answer after, (rollbackAnd c e : DbM α) env t =
        (.error e, t ++ ⟨.rollback c, answer⟩ :: after) ∧ ∀ e ∈ after, e.1.isWarn = true := by
  have hroll : attempt (rollback c) env t =
      (.ok (env t (.rollback c)), t ++ [⟨_, env t (.rollback c)⟩]) := rfl
  cases hr : env t (.rollback c) with
  | ok a =>
      rw [hr] at hroll
      exact ⟨.ok a, [], (bind_ok env t hroll).trans rfl, by simp⟩
  | error e' =>
      rw [hr] at hroll
      exact ⟨.error e', [⟨.warn "db.rollback.failed", .ok ()⟩], (bind_ok env t hroll).trans
        (congrArg (Prod.mk _) (by simp)), by simp [DbCall.isWarn]⟩

/-- The function of a transaction, its commit and its rollback. -/
theorem settles (c : Conn) (x : DbM α) :
    ∃ settling result, Settles c (x env t).1 settling result ∧
      catchError (do let v ← x; commit c; pure v) (rollbackAnd c) env t =
        (result, (x env t).2 ++ settling) := by
  rcases hx : x env t with ⟨r, t₁⟩
  cases r with
  | error e =>
      obtain ⟨answer, after, hroll, hafter⟩ := @rollbackAnd_apply α env t₁ c e
      exact ⟨_, _, .failed e answer after hafter,
        (catchError_error env t (bind_error env t hx)).trans hroll⟩
  | ok v =>
      have hwork : (do let v ← x; commit c; pure v : DbM α) env t =
          (do commit c; pure v : DbM α) env t₁ := bind_ok env t hx
      -- a rejected commit is rolled back like a failed function
      cases hc : env t₁ (.commit c) with
      | ok _ =>
          refine ⟨_, _, .committed v, catchError_ok env t (hwork.trans ?_)⟩
          rw [bind_apply, commit, call_apply, hc]
          rfl
      | error e =>
          obtain ⟨answer, after, hroll, hafter⟩ :=
            @rollbackAnd_apply α env (t₁ ++ [⟨.commit c, .error e⟩]) c e
          refine ⟨_, _, .refused v e answer after hafter, ?_⟩
          rw [catchError_error env t (hwork.trans ?_), hroll, List.append_assoc]
          · rfl
          · rw [bind_apply, commit, call_apply, hc]

/-- **A transaction that has its connection**: the function runs once, on it; then it is committed
or rolled back, and then it is given back. -/
theorem transaction_borrowed {user : Option String} {c : Conn}
    (h : resolveContextUser source options = .ok user) (hget : env t .getConnection = .ok c) :
    ∃ opening settling ending result, Opens c (user.getD "") opening ∧
      handed source options env t = some (c, t ++ ⟨.getConnection, .ok c⟩ :: opening) ∧
      Settles c (fn c env (t ++ ⟨.getConnection, .ok c⟩ :: opening)).1 settling result ∧
      Returns c (user.getD "" ≠ "") ending ∧
      transaction source fn options env t =
        (result.mapError (mapError source · options.tag),
          (fn c env (t ++ ⟨.getConnection, .ok c⟩ :: opening)).2 ++ settling ++ ending) := by
  obtain ⟨opening, ending, htidy, hclose, hhanded, heq⟩ := @withConnection_borrowed α source options
    (fun connection => catchError (do let v ← fn connection; commit connection; pure v)
      (rollbackAnd connection)) env t user c h hget
  obtain ⟨settling, result, hsettles, hrun⟩ :=
    settles env (t ++ ⟨.getConnection, .ok c⟩ :: opening) c (fn c)
  refine ⟨opening, settling, ending, result, htidy, hhanded, hsettles, hclose, ?_⟩
  rw [transaction, heq, hrun]

end OracleClient

end NestDdd.Database

import NestDdd.Database.PingAll
import NestDdd.Idempotency.OracleCalls

/-!
# Database — health, and the calls the infrastructure makes of its own

`PoolManager.health` (`src/infrastructure/database/connection/pool.manager.ts`) through
`PoolHealthAdapter.check`, and `HealthController.ready`
(`src/interface/http/controllers/health.controller.ts`).  They ping, and so does `pingAll`; the
idempotency store runs transactions.  None of these calls names a user.

* `ping_ok_iff`: on a source that lets them through, a ping resolves if and only if the source is
  `Reachable`.
* `ping_required`: on one that requires a user no ping reaches the pool, and such a source fails
  every boot that it is required for (`failed_of_required`).
* `own_calls_iff`: the infrastructure's own calls depend on the database alone (`OwnCalls`) exactly
  on the sources that do not require a user.
-/

namespace NestDdd.Database

open Runs Runs.Async NestDdd.Idempotency

/-! ### Readiness -/

/-- `SourceHealthView`. -/
structure SourceHealth where
  key : String
  dialect : String
  implemented : Bool
  ok : Bool
  latencyMs : Int
  error : Option String

/-- `check`: `health`, source by source.  `ping key` is how the ping of `key` settles. -/
def check (clients : BootClients) (ping : String → Except String Unit) (latencyMs : String → Int) :
    List SourceHealth :=
  clients.entries.map fun (key, client) =>
    if !client.implemented then ⟨key, clients.dialect key, false, false, 0, none⟩
    else
      match ping key with
      | .ok _ => ⟨key, clients.dialect key, true, true, latencyMs key, none⟩
      | .error message => ⟨key, clients.dialect key, true, false, latencyMs key, some message⟩

/-- A `ServiceUnavailableException`, by its code. -/
inductive NotReady where
  | shuttingDown
  | notReady

def ready (isShuttingDown : Bool) (sources : List SourceHealth) : Except NotReady Unit :=
  if isShuttingDown then .error .shuttingDown
  else if (sources.filter fun s => s.implemented && !s.ok).isEmpty then .ok ()
  else .error .notReady

theorem ready_iff {clients : BootClients} {ping : String → Except String Unit}
    {latencyMs : String → Int} : ready false (check clients ping latencyMs) = .ok () ↔
      ∀ key ∈ clients.implementedKeys, ping key = .ok () := by
  have hready : ready false (check clients ping latencyMs) = .ok () ↔
      ∀ s ∈ check clients ping latencyMs, s.implemented = true → s.ok = true := by
    simp only [ready, Bool.false_eq_true, if_false]
    split
    next h => simpa [List.isEmpty_iff, List.filter_eq_nil_iff] using h
    next h => simpa [List.isEmpty_iff, List.filter_eq_nil_iff] using h
  rw [hready]
  constructor
  · intro h key hkey
    obtain ⟨⟨key, client⟩, hentry, rfl⟩ := List.mem_map.mp hkey
    obtain ⟨hmem, himpl⟩ := List.mem_filter.mp hentry
    have hok := h _ (List.mem_map_of_mem hmem)
    cases hp : ping key with
    | ok _ => rfl
    | error message =>
        simp only at himpl
        simp [himpl, hp] at hok
  · intro h s hs
    obtain ⟨⟨key, client⟩, hmem, rfl⟩ := List.mem_map.mp hs
    cases himpl : client.implemented with
    | false => simp [himpl]
    | true =>
        have hp := h key (List.mem_map.mpr ⟨_, List.mem_filter.mpr ⟨hmem, himpl⟩, rfl⟩)
        simp [himpl, hp]

/-! ### What the infrastructure's own calls depend on -/

/-- What `ping` has asked of the pool and the connection when its health check runs. -/
def borrowed (timeoutMs : Int) (c : Conn) : List DbEvent :=
  ⟨.getConnection, .ok c⟩ :: if timeoutMs > 0 then [⟨.setCallTimeout c timeoutMs, .ok ()⟩] else []

/-- The pool yields a connection, and its ping or its health query succeeds. -/
def Reachable (source : OracleSource) (timeoutMs : Int) (env : DbEnv) (t : List DbEvent) : Prop :=
  ∃ c, env t .getConnection = .ok c ∧
    (OracleClient.healthCheck source c env (t ++ borrowed timeoutMs c)).1 = .ok ()

/-- How a ping looks to `pingAll` and to `health`. -/
def pinged (source : OracleSource) (errorMessage : DbError → String) (timeoutMs : Int)
    (env : DbEnv) (t : List DbEvent) : Except String Unit :=
  (OracleClient.ping source timeoutMs env t).1.mapError errorMessage

/-- The pings of a source and the calls of the store fail with the database only; and a source that
is reachable is healthy at boot and to the readiness probe. -/
structure OwnCalls (source : OracleSource) (errorMessage : DbError → String)
    (config : IdempotencyConfig) (json : JsonCodec) (driver : Driver) (table : String) : Prop where
  ping : ∀ timeoutMs env t,
    (OracleClient.ping source timeoutMs env t).1 = .ok () ↔ Reachable source timeoutMs env t
  claim : ∀ store key fingerprint now dateNow,
    FailsWithDatabase source json driver "idempotency.claim"
      (OracleIdempotencyStore.claim source config json driver table store key fingerprint now
        dateNow)
  complete : ∀ store key status body,
    FailsWithDatabase source json driver "idempotency.complete"
      (OracleIdempotencyStore.complete source json driver table store key status body)
  release : ∀ store key, FailsWithDatabase source json driver "idempotency.release"
    (OracleIdempotencyStore.release source driver table store key)
  boot : ∀ clients options pings n timeoutMs env t, source.key ∈ clients.implementedKeys →
    1 ≤ n → n ≤ options.retries + 1 →
    pings source.key n = pinged source errorMessage timeoutMs env t →
    Reachable source timeoutMs env t → ∀ ls s,
      Run (pingAll clients options pings) Free (.start clients options) ls s →
        source.key ∉ s.failures.map (·.sourceKey)
  ready : ∀ clients (pings : String → Except String Unit) latencyMs timeoutMs env t,
    (∀ key ∈ clients.implementedKeys, key ≠ source.key → pings key = .ok ()) →
    pings source.key = pinged source errorMessage timeoutMs env t →
    Reachable source timeoutMs env t →
      ready false (check clients pings latencyMs) = .ok ()

section

variable {source : OracleSource} {errorMessage : DbError → String} {timeoutMs : Int}

theorem mapError_eq_ok {ε ε' α : Type} {f : ε → ε'} {r : Except ε α} {v : α} :
    r.mapError f = .ok v ↔ r = .ok v := by
  cases r <;> simp [Except.mapError]

/-- A ping that names no user has its connection as it comes, with its own timeout. -/
theorem handed_nobody {env : DbEnv} {t : List DbEvent} {c : Conn}
    (huser : resolveContextUser source (nobody (some timeoutMs) "ping") = .ok none)
    (hget : env t .getConnection = .ok c) :
    OracleClient.handed source (nobody (some timeoutMs) "ping") env t =
      some (c, t ++ borrowed timeoutMs c) := by
  simp only [OracleClient.handed, huser, hget]
  by_cases hms : timeoutMs > 0 <;>
    simp [OracleClient.prepare, nobody, borrowed, hms, setCallTimeout, bind_apply]

/-- A source that lets the ping through answers as its database does. -/
theorem ping_ok_iff (h : ¬ source.RequiresUser) (env : DbEnv) (t : List DbEvent) :
    (OracleClient.ping source timeoutMs env t).1 = .ok () ↔ Reachable source timeoutMs env t := by
  have huser := resolve_nobody h (some timeoutMs) "ping"
  cases hget : env t .getConnection with
  | error e =>
      have hrun : OracleClient.ping source timeoutMs env t =
          (.error (.connection source.key e), t ++ [⟨.getConnection, .error e⟩]) :=
        OracleClient.withConnection_refused env t huser hget
      rw [hrun]
      constructor
      · intro hok
        cases hok
      · rintro ⟨c, hc, -⟩
        cases hget.symm.trans hc
  | ok c =>
      obtain ⟨opening, ending, -, -, hhanded, hrun⟩ :=
        @OracleClient.withConnection_borrowed _ source (nobody (some timeoutMs) "ping")
          (OracleClient.healthCheck source) env t _ _ huser hget
      have hborrowed := handed_nobody huser hget
      obtain ⟨-, htrace⟩ := Prod.mk.inj (Option.some.inj (hhanded.symm.trans hborrowed))
      have hping : (OracleClient.ping source timeoutMs env t).1 =
          (OracleClient.healthCheck source c env (t ++ borrowed timeoutMs c)).1.mapError
            (OracleClient.mapError source · (some "ping")) := by
        rw [← htrace]
        exact congrArg Prod.fst hrun
      rw [hping, mapError_eq_ok]
      constructor
      · intro hok
        exact ⟨c, hget, hok⟩
      · rintro ⟨c', hc', hok⟩
        obtain rfl := Except.ok.inj (hget.symm.trans hc')
        exact hok

/-- No ping of a source that requires a user reaches the pool. -/
theorem ping_required (h : source.RequiresUser) (env : DbEnv) (t : List DbEvent) :
    OracleClient.ping source timeoutMs env t = (.error (.unauthorized
      ("Database source \"" ++ source.key ++ "\" requires a context user")), t) :=
  OracleClient.withConnection_unresolved env t (resolve_nobody_required h (some timeoutMs) "ping")

theorem pinged_reachable (h : ¬ source.RequiresUser) {env : DbEnv} {t : List DbEvent}
    (hreach : Reachable source timeoutMs env t) :
    pinged source errorMessage timeoutMs env t = .ok () :=
  mapError_eq_ok.mpr ((ping_ok_iff h env t).mpr hreach)

/-- A source with a ping that succeeds is in no failure of `pingAll`. -/
theorem not_failed_of_succeeds {clients : BootClients} {options : PingAllOptions} {pings : Pings}
    {key : String} (himpl : key ∈ clients.implementedKeys) (hok : Succeeds options pings key)
    {ls : List PingLabel} {s : PingState}
    (r : Run (pingAll clients options pings) Free (.start clients options) ls s) :
    key ∉ s.failures.map (·.sourceKey) := by
  obtain ⟨hgoing, -⟩ := r.length_le (fun s l s' hs h _ => step_lowers s l s' hs h) going_start
  obtain ⟨failed, hfailed, -, hkeys⟩ := hgoing.reported
  rw [hfailed, List.map_append, List.mem_append, placeholderFailures_keys]
  rintro (hplace | hmem)
  · exact not_placeholder himpl (List.mem_of_mem_filter hplace)
  · exact ((hkeys key).mp hmem).2.2.2 hok

/-- A source that requires a user, and is required at boot, fails every boot. -/
theorem failed_of_required (h : source.RequiresUser) {clients : BootClients}
    {options : PingAllOptions} {pings : Pings} (himpl : source.key ∈ clients.implementedKeys)
    (hreq : source.key ∈ reqSet clients options)
    (hpings : ∀ n, ∃ timeoutMs env t,
      pings source.key n = pinged source errorMessage timeoutMs env t)
    {ls : List PingLabel} {s : PingState}
    (r : Run (pingAll clients options pings) Free (.start clients options) ls s)
    (hfinal : ∀ l, (pingAll clients options pings).step s l = none) :
    source.key ∈ s.failures.map (·.sourceKey) := by
  obtain ⟨-, hreported⟩ := final_outcome r hfinal
  refine ((reported_final hreported).2 source.key).mpr ⟨initialised_iff.mpr (.inl himpl), hreq, ?_⟩
  rintro ⟨-, n, -, -, hok⟩
  obtain ⟨timeoutMs, env, t, hping⟩ := hpings n
  rw [hping, pinged, ping_required h] at hok
  cases hok

/-- A database that answers everything. -/
def answering : DbEnv := fun _ call =>
  match call with
  | .getConnection => .ok 0
  | .execute _ _ => .ok .undefined
  | .setCallTimeout _ _ | .setClientId _ _ | .commit _ | .rollback _ | .ping _ | .close _ _
  | .warn _ => .ok ()

theorem reachable_answering : Reachable source timeoutMs answering [] := by
  refine ⟨0, rfl, ?_⟩
  unfold OracleClient.healthCheck
  split <;> rfl

end

/-- **The infrastructure's own calls depend on the database alone exactly on the sources that do
not require a context user.** -/
theorem own_calls_iff (source : OracleSource) (errorMessage : DbError → String)
    (config : IdempotencyConfig) (json : JsonCodec) (driver : Driver) (table : String) :
    OwnCalls source errorMessage config json driver table ↔ ¬ source.RequiresUser := by
  constructor
  · intro hcalls hrequires
    have hok := (hcalls.ping 3000 answering []).mpr reachable_answering
    rw [ping_required hrequires] at hok
    cases hok
  · intro hopen
    refine ⟨fun timeoutMs env t => ping_ok_iff hopen env t,
      fun store key fingerprint now dateNow =>
        OracleIdempotencyStore.claim_blames hopen now dateNow,
      fun store key status body => OracleIdempotencyStore.complete_blames hopen status body,
      fun store key => OracleIdempotencyStore.release_blames hopen, ?_, ?_⟩
    · intro clients options pings n timeoutMs env t himpl h₁ hn hpings hreach ls s r
      have hping := hpings.trans (pinged_reachable hopen hreach)
      exact not_failed_of_succeeds himpl ⟨n, h₁, hn, hping⟩ r
    · intro clients pings latencyMs timeoutMs env t hothers hpings hreach
      refine ready_iff.mpr fun key hkey => ?_
      by_cases hsource : key = source.key
      · rw [hsource, hpings]
        exact pinged_reachable hopen hreach
      · exact hothers key hkey hsource

/-- The source of the documented configuration requires a user: its pool yields a connection and
answers, and its ping is rejected. -/
theorem required_user_unhealthy : ¬ ∀ source errorMessage config json driver table,
    OwnCalls source errorMessage config json driver table := by
  intro h
  let source : OracleSource := { OracleSource.main with
    callTimeoutMs := 30000, contextUser := ⟨true, true, 64⟩ }
  have hcalls := h source (fun _ => "") .defaults .order ⟨fun sql _ => sql, fun _ => none⟩ "claims"
  have hok : (OracleClient.ping source 3000 answering []).1 = .ok () :=
    (hcalls.ping 3000 answering []).mpr reachable_answering
  cases hok

end NestDdd.Database

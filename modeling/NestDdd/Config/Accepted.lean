import NestDdd.Config.LoadConfig
import NestDdd.Database.OracleClient
import NestDdd.Database.PingAll
import NestDdd.Http.RetryLoop
import NestDdd.Idempotency.InMemoryStore
import NestDdd.Lifecycle.GracefulShutdown

/-!
# Config — what an accepted configuration provides

What the rest of the program takes for granted of the configuration: the bounds of the numbers, that
one setting comes with those it needs, that the sources have keys of their own.  A consumer's
configuration is the structure of its own module, with the bounds that it carries.

* `Provides`: what each consumer reads, section by section.
* `loadConfig_provides`: every configuration that `loadConfig` accepts provides it, whatever the
  environment and the files hold.
-/

namespace NestDdd.Config

open JsValue

/-! ### Fields -/

section

variable {z : Zod} {checks : List NumberCheck} {d : Int}

/-- An integer that is not negative, with its default. -/
theorem ensures_nat (hint : .int ∈ checks) (hpos : ∃ c ∈ checks, c.nonneg = true)
    (hd : ∀ c ∈ checks, c.holdsInt d = true) :
    z.Ensures (z.default (z.coerceNumber checks) (int d)) fun w =>
      ∃ n : ℕ, w.IsNat n ∧ ∀ c ∈ checks, c.holdsInt n = true :=
  ((Zod.Ensures.coerceNumber hint).default ⟨d, rfl, hd⟩).mono fun _ hw => hw.nat fun _ hn =>
    let ⟨c, hc, hpos⟩ := hpos
    NumberCheck.nonneg_of_holdsInt hpos (hn c hc)

/-- One that has to be a number already. -/
theorem ensures_number (hint : .int ∈ checks) (hpos : ∃ c ∈ checks, c.nonneg = true)
    (hd : ∀ c ∈ checks, c.holdsInt d = true) :
    z.Ensures (z.default (z.number checks) (int d)) fun w =>
      ∃ n : ℕ, w.IsNat n ∧ ∀ c ∈ checks, c.holdsInt n = true :=
  ((Zod.Ensures.number hint).default ⟨d, rfl, hd⟩).mono fun _ hw => hw.nat fun _ hn =>
    let ⟨c, hc, hpos⟩ := hpos
    NumberCheck.nonneg_of_holdsInt hpos (hn c hc)

/-- A number of milliseconds that need not be whole. -/
theorem ensures_atLeast {bound : Int} (hd : bound ≤ d) :
    z.Ensures (z.default (z.coerceNumber [.min bound]) (int d)) fun w =>
      ∃ q : ℚ, w.rat = some q ∧ bound ≤ q := by
  refine Zod.Ensures.default ?_ ⟨d, rfl, by exact_mod_cast hd⟩
  intro v w hw
  obtain ⟨n, q, rfl, hq, hchecks⟩ := z.coerceNumber_ok _ v w hw
  exact ⟨q, hq, of_decide_eq_true (hchecks _ (List.mem_singleton_self _))⟩

theorem ensures_boolean : z.Ensures z.boolean fun w => ∃ b, w = .bool b := by
  intro v w hw
  obtain ⟨b, -, rfl⟩ := (z.boolean_ok v w).mp hw
  exact ⟨b, rfl⟩

theorem ensures_switch {b : Bool} :
    z.Ensures (z.default z.boolean (.bool b)) fun w => ∃ b, w = .bool b :=
  ensures_boolean.default ⟨b, rfl⟩

theorem ensures_enum {options : List String} :
    z.Ensures (z.enum options) (IsText (· ∈ options)) := by
  intro v w hw
  obtain ⟨s, hs, rfl⟩ := z.enum_ok options v w hw
  exact ⟨s, rfl, hs⟩

/-- A text that is not empty. -/
theorem ensures_text : z.Ensures (z.string [.min 1]) (IsText (· ≠ "")) := by
  refine Zod.Ensures.string.mono fun w hw => ?_
  obtain ⟨s, rfl, hs⟩ := hw
  refine ⟨s, rfl, fun hempty => ?_⟩
  subst hempty
  exact absurd (hs _ (List.mem_singleton_self _)) (by decide)

/-- A list of texts, none of them empty. -/
def IsTexts (v : JsValue) : Prop := ∃ items, v = .array items ∧ ∀ a ∈ items, a.IsText (· ≠ "")

theorem ensures_textArray : z.Ensures (z.array (z.string [.min 1]) 0) IsTexts :=
  ensures_text.array.mono fun _ hw =>
    hw.imp fun _ hitems => ⟨hitems.1, hitems.2.2⟩

theorem ensures_texts : z.Ensures (z.default (z.array (z.string [.min 1]) 0) (texts [])) IsTexts :=
  ensures_textArray.default ⟨[], rfl, fun _ h => by cases h⟩

end

/-! ### Sections -/

/-- The `shutdown` section holds `c`. -/
structure ShutdownSection (shutdown : JsValue) (c : Lifecycle.ShutdownConfig) : Prop where
  drainDelayMs : (shutdown.get "drainDelayMs").IsNat c.drainDelayMs
  forceAfterMs : (shutdown.get "forceAfterMs").IsNat c.forceAfterMs
  jobDrainMs : (shutdown.get "jobDrainMs").IsNat c.jobDrainMs
  forceAfterMs_pos : 0 < c.forceAfterMs

/-- The `idempotency` section holds `c`, for the store that it names. -/
structure IdempotencySection (idempotency : JsValue) (store : Cluster.IdempotencyStore)
    (c : Idempotency.IdempotencyConfig) : Prop where
  store : idempotency.get "store" = .string (if store = .oracle then "oracle" else "memory")
  table : (idempotency.get "table").IsText (· ≠ "")
  header : (idempotency.get "header").IsText (· ≠ "")
  ttlMs : (idempotency.get "ttlMs").rat = some (c.ttlMs : ℚ)
  inProgressTtlMs : (idempotency.get "inProgressTtlMs").rat = some (c.inProgressTtlMs : ℚ)

/-- The `httpClient` section holds what the client goes by for every origin. -/
structure HttpClientSection (httpClient : JsValue) (c : Http.RetryConfig) : Prop where
  timeoutMs : (httpClient.get "timeoutMs").rat = some (c.timeoutMs : ℚ)
  timeoutMs_pos : 0 < c.timeoutMs
  retries : (httpClient.get "retries").rat = some (c.retries : ℚ)
  retries_bound : 0 ≤ c.retries ∧ c.retries ≤ 10
  retryBaseMs : (httpClient.get "retryBaseMs").IsNat c.retryBaseMs
  retryJitterMs : (httpClient.get "retryJitterMs").IsNat c.retryJitterMs
  retryMaxDelayMs : (httpClient.get "retryMaxDelayMs").IsNat c.retryMaxDelayMs
  circuitEnabled : httpClient.get "circuitEnabled" = .bool c.circuitEnabled
  failureThreshold : (httpClient.get "circuitFailureThreshold").IsNat c.circuit.failureThreshold
  resetMs : (httpClient.get "circuitResetMs").rat = some (c.circuit.resetMs : ℚ)
  userAgent : (httpClient.get "userAgent").IsText (· ≠ "")

/-- What `startPrimary` reads of the `cluster` section. -/
structure ClusterSection (cluster : JsValue) (c : Cluster.StartPrimaryConfig) : Prop where
  enabled : ∃ b, cluster.get "enabled" = .bool b
  isLeader : ∃ b, cluster.get "isLeader" = .bool b
  workers : (cluster.get "workers").IsNat c.workers
  respawn : cluster.get "respawn" = .bool c.respawn
  respawnMaxPerMinute : (cluster.get "respawnMaxPerMinute").IsNat c.respawnMaxPerMinute
  metricsPort : match c.metricsPort with
    | none => cluster.get "metricsPort" = .undefined
    | some port => (cluster.get "metricsPort").IsNat port ∧ 1 ≤ port ∧ port ≤ 65535

/-- What the server, its guards and the throttler read of the `http` section. -/
structure HttpSection (http : JsValue) : Prop where
  port : ∃ q : ℚ, (http.get "port").rat = some q ∧ 1 ≤ q ∧ q ≤ 65535
  serverTimeout : ∃ q : ℚ, (http.get "serverTimeout").rat = some q ∧ 2000 ≤ q
  headersTimeout : ∃ q : ℚ, (http.get "headersTimeout").rat = some q ∧ 2000 ≤ q
  keepAliveTimeout : ∃ q : ℚ, (http.get "keepAliveTimeout").rat = some q ∧ 1000 ≤ q
  corsOrigins : IsTexts (http.get "corsOrigins")
  csrfEnabled : ∃ b, http.get "csrfEnabled" = .bool b
  csrfTrustedOrigins : http.get "csrfTrustedOrigins" = .undefined ∨
    IsTexts (http.get "csrfTrustedOrigins")
  throttleTtlMs : ∃ n : ℕ, (http.get "throttleTtlMs").IsNat n ∧ 1 ≤ n
  throttleLimit : ∃ n : ℕ, (http.get "throttleLimit").IsNat n
  redis : http.get "throttleStorage" = .string "redis" →
    (http.get "throttleRedisUrl").IsText (· ≠ "")

/-- What the forwarder is given. -/
structure LegacySection (legacy : JsValue) : Prop where
  forwardEnabled : ∃ b, legacy.get "forwardEnabled" = .bool b
  timeoutMs : ∃ n : ℕ, (legacy.get "timeoutMs").IsNat n ∧ 0 < n
  preserveHostHeader : ∃ b, legacy.get "preserveHostHeader" = .bool b
  target : legacy.get "forwardEnabled" = .bool true →
    (legacy.get "targetUrl").IsText (· ≠ "") ∧ ∃ prefixes, prefixes ≠ [] ∧
      legacy.get "forwardPrefixes" = .array prefixes ∧ ∀ p ∈ prefixes, p.IsText (· ≠ "")

/-- What `loadTlsOptions` reads. -/
structure TlsSection (tls : JsValue) : Prop where
  enabled : ∃ b, tls.get "enabled" = .bool b
  files : tls.get "enabled" = .bool true →
    (tls.get "keyFile").IsText (· ≠ "") ∧ (tls.get "certFile").IsText (· ≠ "")
  minVersion : (tls.get "minVersion").IsText (· ∈ ["TLSv1.2", "TLSv1.3"])

/-- What `JwtStrategy` and the guards read: no token is accepted without a signature. -/
structure JwtSection (jwt : JsValue) : Prop where
  secret : (jwt.get "secret").IsText fun s => 32 ≤ (Utf16.encode s.toList).length
  algorithms : ∃ items, items ≠ [] ∧ jwt.get "algorithms" = .array items ∧
    ∀ a ∈ items, a.IsText (· ∈ jwtAlgorithms)
  cookieName : (jwt.get "cookieName").IsText (· ≠ "")

/-- A source of the `oracle` dialect is what its client is made of. -/
structure OracleSection (source : JsValue) (c : Database.OracleSource) : Prop where
  key : source.get "key" = .string c.key
  callTimeoutMs : (source.get "callTimeoutMs").rat = some (c.callTimeoutMs : ℚ)
  poolPingTimeoutMs : (source.get "poolPingTimeoutMs").rat = some (c.poolPingTimeoutMs : ℚ)
  healthQuery : source.get "healthQuery" = .string c.healthQuery
  enabled : (source.get "contextUser").get "enabled" = .bool c.contextUser.enabled
  required : (source.get "contextUser").get "required" = .bool c.contextUser.required
  maxLength : ((source.get "contextUser").get "maxLength").IsNat c.contextUser.maxLength
  maxLength_bound : 1 ≤ c.contextUser.maxLength ∧ c.contextUser.maxLength ≤ 64
  pool : ∃ min max : ℕ, (source.get "poolMin").IsNat min ∧ (source.get "poolMax").IsNat max ∧
    min ≤ max ∧ 1 ≤ max
  target : hasOracleTarget source = true

/-- What `PoolManager` is given of the `database` section. -/
structure DatabaseSection (database : JsValue) (sources : List JsValue)
    (clients : Database.BootClients) (options : Database.PingAllOptions) : Prop where
  array : database.get "sources" = .array sources
  keys : sources.map (·.get "key") = clients.entries.map fun entry => .string entry.1
  dialects : sources.map (·.get "dialect") =
    clients.entries.map fun entry => .string entry.2.dialect
  nonempty : sources ≠ []
  key_ne : ∀ entry ∈ clients.entries, entry.1 ≠ ""
  implemented : ∀ entry ∈ clients.entries,
    (entry.2.implemented = true ↔ entry.2.dialect = "oracle")
  oracle : ∀ source ∈ sources, source.get "dialect" = .string "oracle" →
    ∀ stringOf, ∃ c, OracleSection source c ∧ c.stringOf = stringOf
  retries : ((database.get "health").get "maxRetries").IsNat options.retries
  required : ∃ names, options.requiredSet = some names ∧
    (database.get "health").get "requiredSources" = texts names
  concurrency : ((database.get "health").get "concurrency").IsNat options.concurrency
  concurrency_bound : 1 ≤ options.concurrency ∧ options.concurrency ≤ 100

section

variable {z : Zod}

theorem shutdown_ensures :
    z.Ensures (shutdownSchema z) fun w => ∃ c, ShutdownSection w c := by
  intro v w hw
  have hd : (shutdownShape z).Distinct := by simp [Properties.Distinct, shutdownShape]
  obtain ⟨drain, hdrain, -⟩ := Zod.Ensures.field "drainDelayMs" hd rfl
    (ensures_nat (by decide) (by decide) (by decide)) v w hw
  obtain ⟨force, hforce, hpos⟩ := Zod.Ensures.field "forceAfterMs" hd rfl
    (ensures_nat (by decide) (by decide) (by decide)) v w hw
  obtain ⟨job, hjob, -⟩ := Zod.Ensures.field "jobDrainMs" hd rfl
    (ensures_nat (by decide) (by decide) (by decide)) v w hw
  exact ⟨⟨drain, force, job⟩, hdrain, hforce, hjob, by simpa using hpos⟩

theorem idempotency_ensures :
    z.Ensures (idempotencySchema z) fun w => ∃ store c, IdempotencySection w store c := by
  intro v w hw
  have hd : (idempotencyShape z).Distinct := by simp [Properties.Distinct, idempotencyShape]
  obtain ⟨store, hstore, hmem⟩ := Zod.Ensures.field "store" hd rfl
    (ensures_enum.default ⟨_, rfl, by decide⟩) v w hw
  obtain ⟨ttl, httl, hpos⟩ := Zod.Ensures.field "ttlMs" hd rfl
    (ensures_nat (by decide) (by decide) (by decide)) v w hw
  obtain ⟨progress, hprogress, hpos'⟩ := Zod.Ensures.field "inProgressTtlMs" hd rfl
    (ensures_nat (by decide) (by decide) (by decide)) v w hw
  refine ⟨if store = "oracle" then .oracle else .memory,
    ⟨ttl, progress, by simpa using hpos, by simpa using hpos'⟩, ?_,
    Zod.Ensures.field _ hd rfl (ensures_text.default ⟨_, rfl, by decide⟩) v w hw,
    Zod.Ensures.field _ hd rfl (ensures_text.default ⟨_, rfl, by decide⟩) v w hw,
    by simpa [IsNat] using httl, by simpa [IsNat] using hprogress⟩
  rw [hstore]
  rcases List.mem_pair.mp hmem with rfl | rfl <;> rfl

theorem httpClient_ensures (target : String) : z.Ensures (httpClientSchema z) fun w =>
    ∃ c, c.target = target ∧ HttpClientSection w c := by
  intro v w hw
  have hd : (httpClientShape z).Distinct := by simp [Properties.Distinct, httpClientShape]
  obtain ⟨timeout, htimeout, htimeout'⟩ := Zod.Ensures.field "timeoutMs" hd rfl
    (ensures_nat (by decide) (by decide) (by decide)) v w hw
  obtain ⟨retries, hretries, hretries'⟩ := Zod.Ensures.field "retries" hd rfl
    (ensures_nat (by decide) (by decide) (by decide)) v w hw
  obtain ⟨base, hbase, -⟩ := Zod.Ensures.field "retryBaseMs" hd rfl
    (ensures_nat (by decide) (by decide) (by decide)) v w hw
  obtain ⟨jitter, hjitter, -⟩ := Zod.Ensures.field "retryJitterMs" hd rfl
    (ensures_nat (by decide) (by decide) (by decide)) v w hw
  obtain ⟨maxDelay, hmaxDelay, hmaxDelay'⟩ := Zod.Ensures.field "retryMaxDelayMs" hd rfl
    (ensures_nat (by decide) (by decide) (by decide)) v w hw
  obtain ⟨enabled, henabled⟩ := Zod.Ensures.field "circuitEnabled" hd rfl ensures_switch v w hw
  obtain ⟨threshold, hthreshold, hthreshold'⟩ := Zod.Ensures.field "circuitFailureThreshold" hd rfl
    (ensures_nat (by decide) (by decide) (by decide)) v w hw
  obtain ⟨reset, hreset, hreset'⟩ := Zod.Ensures.field "circuitResetMs" hd rfl
    (ensures_nat (by decide) (by decide) (by decide)) v w hw
  exact ⟨⟨⟨target, timeout, retries, threshold, reset, by simpa using hthreshold',
      by simpa using hreset'⟩, enabled, base, jitter, maxDelay, by simpa using hmaxDelay'⟩, rfl,
    by simpa [IsNat] using htimeout, by simpa using htimeout', by simpa [IsNat] using hretries,
    by simpa using hretries', hbase, hjitter, hmaxDelay, henabled, hthreshold,
    by simpa [IsNat] using hreset,
    Zod.Ensures.field _ hd rfl (ensures_text.default ⟨_, rfl, by decide⟩) v w hw⟩

/-- What the primary reads of the other sections is the same for every `c` with their values. -/
theorem cluster_ensures (c : Cluster.StartPrimaryConfig) : z.Ensures (clusterSchema z) fun w =>
    ∃ c', ClusterSection w c' ∧ c' = { c with
      workers := c'.workers
      respawn := c'.respawn
      respawnMaxPerMinute := c'.respawnMaxPerMinute
      metricsPort := c'.metricsPort
      respawnMaxPerMinute_pos := c'.respawnMaxPerMinute_pos } := by
  intro v w hw
  have hd : (clusterShape z).Distinct := by simp [Properties.Distinct, clusterShape]
  obtain ⟨workers, hworkers, -⟩ := Zod.Ensures.field "workers" hd rfl
    (ensures_nat (by decide) (by decide) (by decide)) v w hw
  obtain ⟨perMinute, hperMinute, hpos⟩ := Zod.Ensures.field "respawnMaxPerMinute" hd rfl
    (ensures_nat (by decide) (by decide) (by decide)) v w hw
  obtain ⟨respawn, hrespawn⟩ := Zod.Ensures.field "respawn" hd rfl ensures_switch v w hw
  have hport := Zod.Ensures.field "metricsPort" hd rfl
    (Zod.Ensures.coerceNumber (by decide)).optional v w hw
  obtain ⟨port, hport⟩ : ∃ port : Option ℕ, match port with
      | none => w.get "metricsPort" = .undefined
      | some port => (w.get "metricsPort").IsNat port ∧ 1 ≤ port ∧ port ≤ 65535 := by
    rcases hport with hnone | hport
    · exact ⟨none, hnone⟩
    · obtain ⟨port, hport, hbound⟩ := hport.nat fun n hn => by simp at hn; omega
      exact ⟨some port, hport, by simp at hbound; omega⟩
  exact ⟨{ c with
      workers := workers
      respawn := respawn
      respawnMaxPerMinute := perMinute
      metricsPort := port
      respawnMaxPerMinute_pos := by simpa using hpos },
    ⟨Zod.Ensures.field _ hd rfl ensures_switch v w hw,
      Zod.Ensures.field _ hd rfl ensures_switch v w hw, hworkers, hrespawn, hperMinute, hport⟩, rfl⟩

theorem truthy_of_unreported {b : Bool} {issue : ZodIssue}
    (h : (if !b then [issue] else []) = []) : b = true := by
  cases b with
  | true => rfl
  | false => cases h

/-- A setting whose check has found nothing missing. -/
theorem text_of_truthy {v : JsValue} (h : v = .undefined ∨ v.IsText (· ≠ ""))
    (ht : v.truthy = true) : v.IsText (· ≠ "") := by
  rcases h with rfl | h
  · cases ht
  · exact h

theorem http_ensures : z.Ensures (httpSchema z) HttpSection := by
  intro v w hw
  obtain ⟨hw, hissues⟩ := z.superRefine_ok _ _ v w hw
  have hd : (httpShape z).Distinct := by simp [Properties.Distinct, httpShape]
  have hport : z.Ensures (z.default (z.coerceNumber [.min 1, .max 65535]) (int 3000)) fun w =>
      ∃ q : ℚ, w.rat = some q ∧ 1 ≤ q ∧ q ≤ 65535 := by
    refine Zod.Ensures.default ?_ ⟨3000, rfl, by norm_num, by norm_num⟩
    intro v w hw
    obtain ⟨n, q, rfl, hq, hchecks⟩ := z.coerceNumber_ok _ v w hw
    have hmin := of_decide_eq_true (hchecks _ List.mem_cons_self)
    have hmax := of_decide_eq_true (hchecks _ (List.mem_cons_of_mem _ List.mem_cons_self))
    exact ⟨q, hq, by exact_mod_cast hmin, by exact_mod_cast hmax⟩
  obtain ⟨ttl, httl, hpos⟩ := Zod.Ensures.field "throttleTtlMs" hd rfl
    (ensures_nat (by decide) (by decide) (by decide)) v w hw
  obtain ⟨limit, hlimit, -⟩ := Zod.Ensures.field "throttleLimit" hd rfl
    (ensures_nat (by decide) (by decide) (by decide)) v w hw
  refine ⟨Zod.Ensures.field _ hd rfl hport v w hw,
    Zod.Ensures.field _ hd rfl (ensures_atLeast (by decide)) v w hw,
    Zod.Ensures.field _ hd rfl (ensures_atLeast (by decide)) v w hw,
    Zod.Ensures.field _ hd rfl (ensures_atLeast (by decide)) v w hw,
    Zod.Ensures.field _ hd rfl ensures_texts v w hw,
    Zod.Ensures.field _ hd rfl ensures_switch v w hw,
    Zod.Ensures.field _ hd rfl ensures_textArray.optional v w hw,
    ⟨ttl, httl, by simpa using hpos⟩, ⟨limit, hlimit⟩, fun hredis => ?_⟩
  refine text_of_truthy (Zod.Ensures.field _ hd rfl ensures_text.optional v w hw) ?_
  by_contra hnone
  simp [httpIssues, hredis, isText, JsValue.text, hnone] at hissues

theorem legacy_ensures : z.Ensures (legacySchema z) LegacySection := by
  intro v w hw
  obtain ⟨hw, hissues⟩ := z.superRefine_ok _ _ v w hw
  have hd : (legacyShape z).Distinct := by simp [Properties.Distinct, legacyShape]
  obtain ⟨timeout, htimeout, hpos⟩ := Zod.Ensures.field "timeoutMs" hd rfl
    (ensures_nat (by decide) (by decide) (by decide)) v w hw
  obtain ⟨prefixes, hprefixes, htexts⟩ :=
    Zod.Ensures.field "forwardPrefixes" hd rfl ensures_texts v w hw
  refine ⟨Zod.Ensures.field _ hd rfl ensures_switch v w hw,
    ⟨timeout, htimeout, by simpa using hpos⟩,
    Zod.Ensures.field _ hd rfl ensures_switch v w hw, fun henabled => ?_⟩
  have htrue : (JsValue.bool true).truthy = true := rfl
  simp only [legacyIssues, henabled, htrue, hprefixes, isEmptyArray, Bool.not_true,
    Bool.false_eq_true, if_false, List.append_eq_nil_iff] at hissues
  refine ⟨text_of_truthy (Zod.Ensures.field _ hd rfl ensures_text.optional v w hw) ?_,
    prefixes, ?_, hprefixes, htexts⟩
  · exact truthy_of_unreported hissues.1
  · rintro rfl
    cases hissues.2

theorem tls_ensures : z.Ensures (tlsSchema z) TlsSection := by
  intro v w hw
  obtain ⟨hw, hissues⟩ := z.superRefine_ok _ _ v w hw
  have hd : (tlsShape z).Distinct := by simp [Properties.Distinct, tlsShape]
  refine ⟨Zod.Ensures.field _ hd rfl ensures_switch v w hw, fun henabled => ?_,
    Zod.Ensures.field _ hd rfl (ensures_enum.default ⟨_, rfl, by decide⟩) v w hw⟩
  have htrue : (JsValue.bool true).truthy = true := rfl
  simp only [tlsIssues, henabled, htrue, Bool.not_true, Bool.false_eq_true, if_false,
    List.append_eq_nil_iff] at hissues
  refine ⟨text_of_truthy (Zod.Ensures.field _ hd rfl ensures_text.optional v w hw) ?_,
    text_of_truthy (Zod.Ensures.field _ hd rfl ensures_text.optional v w hw) ?_⟩
  · exact truthy_of_unreported hissues.1
  · exact truthy_of_unreported hissues.2

theorem jwt_ensures : z.Ensures (jwtSchema z) JwtSection := by
  intro v w hw
  have hd : (jwtShape z).Distinct := by simp [Properties.Distinct, jwtShape]
  refine ⟨?_, ?_, Zod.Ensures.field _ hd rfl (ensures_text.default ⟨_, rfl, by decide⟩) v w hw⟩
  · obtain ⟨s, hs, hchecks⟩ := Zod.Ensures.field "secret" hd rfl Zod.Ensures.string v w hw
    exact ⟨s, hs, of_decide_eq_true (hchecks _ (List.mem_singleton_self _))⟩
  · have halgorithms : z.Ensures (z.array (z.enum jwtAlgorithms) 1) fun w => ∃ items, items ≠ [] ∧
        w = .array items ∧ ∀ a ∈ items, a.IsText (· ∈ jwtAlgorithms) :=
      ensures_enum.array.mono fun _ hw =>
        hw.imp fun _ hitems => ⟨List.length_pos_iff.mp hitems.2.1, hitems.1, hitems.2.2⟩
    refine Zod.Ensures.field _ hd rfl
      (halgorithms.default ⟨_, List.cons_ne_nil _ _, rfl, ?_⟩) v w hw
    intro a ha
    obtain rfl := List.mem_singleton.mp ha
    exact ⟨_, rfl, by decide⟩

/-! ### Sources -/

section

variable {shape : Properties z.Schema} {name : String} {s : z.Schema}

theorem extendBase_distinct : (extendBase z shape).Distinct :=
  Properties.Distinct.assign (by simp [Properties.Distinct, baseSource])

/-- A field that the dialect has of its own. -/
theorem lookup_extendBase (hd : shape.Distinct) (hs : shape.lookup name = some s) :
    (extendBase z shape).lookup name = some s := by
  have hown := @Properties.Distinct.lookup_assign _ (baseSource z) id (fun _ => true) shape hd
    (name, s) (Properties.mem_of_lookup hs) rfl fun _ _ h => h
  exact hown

/-- A field that it takes over. -/
theorem lookup_extendBase_base (hnone : shape.lookup name = none)
    (hs : (baseSource z).lookup name = some s) : (extendBase z shape).lookup name = some s := by
  rw [extendBase, Properties.lookup_assign_other, hs]
  intro p hp _ heq
  have hne := List.lookup_eq_none_iff.mp hnone p hp
  exact absurd heq.symm (bne_iff_ne.mp hne)

end

/-- What every source has, and what one of the `oracle` dialect has. -/
structure SourceSection (source : JsValue) : Prop where
  key : (source.get "key").IsText (· ≠ "")
  dialect : (source.get "dialect").IsText fun _ => True
  oracle : source.get "dialect" = .string "oracle" →
    ∀ stringOf, ∃ c, OracleSection source c ∧ c.stringOf = stringOf

/-- A source of a dialect that is not implemented. -/
theorem placeholder_ensures {shape : Properties z.Schema} {dialect : String}
    (hd : shape.Distinct) (hkey : shape.lookup "key" = none)
    (hdialect : shape.lookup "dialect" = some (z.literal dialect)) (hne : dialect ≠ "oracle")
    (check : JsValue → Bool) (issue : ZodIssue) :
    z.Ensures (z.refine (z.object (extendBase z shape)) check issue) SourceSection := by
  intro v w hw
  obtain ⟨hw, -⟩ := z.refine_ok _ _ _ v w hw
  have hliteral : w.get "dialect" = .string dialect :=
    Zod.Ensures.field _ extendBase_distinct (lookup_extendBase hd hdialect)
      (z.literal_ok dialect) v w hw
  refine ⟨?_, ⟨dialect, hliteral, trivial⟩, fun horacle => ?_⟩
  · exact Zod.Ensures.field _ extendBase_distinct (lookup_extendBase_base hkey rfl) ensures_text v w
      hw
  · exact absurd (JsValue.string.inj (hliteral.symm.trans horacle)) hne

theorem contextUser_ensures : z.Ensures (oracleContextUser z) fun w =>
    ∃ c : Database.ContextUserConfig, w.get "enabled" = .bool c.enabled ∧
      w.get "required" = .bool c.required ∧ (w.get "maxLength").IsNat c.maxLength ∧
      1 ≤ c.maxLength ∧ c.maxLength ≤ 64 := by
  refine Zod.Ensures.default (fun v w hw => ?_)
    ⟨⟨true, false, 64⟩, rfl, rfl, rfl, by decide, by decide⟩
  have hd : Properties.Distinct [("enabled", z.default z.boolean (.bool true)),
      ("required", z.default z.boolean (.bool false)),
      ("maxLength", z.default (z.number [.int, .min 1, .max 64]) (int 64))] := by
    simp [Properties.Distinct]
  obtain ⟨enabled, henabled⟩ := Zod.Ensures.field "enabled" hd rfl ensures_switch v w hw
  obtain ⟨required, hrequired⟩ := Zod.Ensures.field "required" hd rfl ensures_switch v w hw
  obtain ⟨maxLength, hmaxLength, hbound⟩ := Zod.Ensures.field "maxLength" hd rfl
    (ensures_number (by decide) (by decide) (by decide)) v w hw
  exact ⟨⟨enabled, required, maxLength⟩, henabled, hrequired, hmaxLength, by simpa using hbound⟩

theorem oracle_ensures : z.Ensures (oracleSource z) SourceSection := by
  intro v w hw
  obtain ⟨hw, hpool⟩ := z.refine_ok _ _ _ v w hw
  obtain ⟨hw, htarget⟩ := z.refine_ok _ _ _ v w hw
  have hd : (oracleShape z).Distinct := by simp [Properties.Distinct, oracleShape]
  have own (name : String) {s : z.Schema} {P : JsValue → Prop}
      (hs : (oracleShape z).lookup name = some s) (h : z.Ensures s P) : P (w.get name) :=
    h.field name extendBase_distinct (lookup_extendBase hd hs) v w hw
  obtain ⟨key, hkey, hne⟩ := Zod.Ensures.field "key" extendBase_distinct
    (@lookup_extendBase_base z (oracleShape z) _ _ rfl rfl) ensures_text v w hw
  have hliteral := own "dialect" rfl (z.literal_ok "oracle")
  obtain ⟨call, hcall, -⟩ := own "callTimeoutMs" rfl
    (ensures_number (by decide) (by decide) (by decide))
  obtain ⟨ping, hping, -⟩ := own "poolPingTimeoutMs" rfl
    (ensures_number (by decide) (by decide) (by decide))
  obtain ⟨query, hquery, -⟩ := own "healthQuery" rfl (ensures_text.default ⟨_, rfl, by decide⟩)
  obtain ⟨user, henabled, hrequired, hmaxLength, hbound⟩ :=
    own "contextUser" rfl contextUser_ensures
  obtain ⟨min, hmin, -⟩ := own "poolMin" rfl (ensures_number (by decide) (by decide) (by decide))
  obtain ⟨max, hmax, hone⟩ := own "poolMax" rfl (ensures_number (by decide) (by decide) (by decide))
  have hle : min ≤ max := by
    have hle := hpool
    unfold poolMinLeMax at hle
    rw [hmin, hmax] at hle
    simpa using hle
  exact ⟨⟨key, hkey, hne⟩, ⟨_, hliteral, trivial⟩, fun _ stringOf =>
    ⟨⟨stringOf, key, call, ping, query, user⟩, ⟨hkey, by simpa [IsNat] using hcall,
      by simpa [IsNat] using hping, hquery, henabled, hrequired, hmaxLength, hbound,
      ⟨min, max, hmin, hmax, hle, by simpa using hone⟩, htarget⟩, rfl⟩⟩

/-- A server's source, and the shape of one. -/
theorem server_ensures {dialect last : String} (hne : dialect ≠ "oracle")
    (hlast : last = "ssl" ∨ last = "encrypt") :
    z.Ensures (serverSource z dialect last) SourceSection := by
  have hd : (serverShape z dialect last).Distinct := by
    rcases hlast with rfl | rfl <;> simp [Properties.Distinct, serverShape]
  have hkey : (serverShape z dialect last).lookup "key" = none := by
    rcases hlast with rfl | rfl <;> rfl
  exact placeholder_ensures hd hkey rfl hne _ _

theorem source_ensures : z.Ensures
    (z.discriminatedUnion "dialect" [oracleSource z, postgresSource z, mySqlSource z,
      mariaDbSource z, msSqlSource z, sqliteSource z]) SourceSection := by
  refine Zod.Ensures.discriminatedUnion fun s hs => ?_
  simp only [List.mem_cons, List.not_mem_nil, or_false] at hs
  rcases hs with rfl | rfl | rfl | rfl | rfl | rfl
  · exact oracle_ensures
  · exact server_ensures (by decide) (.inl rfl)
  · exact server_ensures (by decide) (.inl rfl)
  · exact server_ensures (by decide) (.inl rfl)
  · exact server_ensures (by decide) (.inr rfl)
  · exact placeholder_ensures (by simp [Properties.Distinct, sqliteShape]) rfl rfl (by decide) _ _

theorem requiredSources_ensures : z.Ensures (z.default (z.array (z.string []) 0) (texts []))
    fun w => ∃ names, w = texts names := by
  refine Zod.Ensures.default (Zod.Ensures.string.array.mono fun w hw => ?_) ⟨[], rfl⟩
  obtain ⟨items, rfl, -, hitems⟩ := hw
  induction items with
  | nil => exact ⟨[], rfl⟩
  | cons a items ih =>
      obtain ⟨name, rfl, -⟩ := hitems a List.mem_cons_self
      obtain ⟨names, hnames⟩ := ih fun b hb => hitems b (List.mem_cons_of_mem _ hb)
      exact ⟨name :: names, congrArg (fun items => JsValue.array (.string name :: items))
        (JsValue.array.inj hnames)⟩

/-- The entry of a source in `PoolManager.clients`. -/
def bootClient (source : JsValue) : String × Database.BootClient :=
  ((source.get "key").text.getD "",
    ⟨isText (source.get "dialect") "oracle", (source.get "dialect").text.getD ""⟩)

theorem database_ensures (env : Env) : z.Ensures (databaseConfigSchema z env) fun w =>
    ∃ sources clients options, DatabaseSection w sources clients options := by
  intro v w hw
  have hd : (databaseShape z env).Distinct := by simp [Properties.Distinct, databaseShape]
  obtain ⟨⟨sources, hsources, hmin, hall⟩, hunique⟩ := Zod.Ensures.field "sources" hd rfl
    (source_ensures.array.refine.preprocess) v w hw
  have hhealth : (healthShape z).Distinct := by simp [Properties.Distinct, healthShape]
  obtain ⟨⟨⟨retries, hretries, -⟩, names, hnames⟩, concurrency, hconcurrency, hbound⟩ :=
    Zod.Ensures.field "health" hd rfl
      (((Zod.Ensures.field "maxRetries" hhealth rfl
          (ensures_nat (by decide) (by decide) (by decide))).and
        (Zod.Ensures.field "requiredSources" hhealth rfl requiredSources_ensures)).and
        (Zod.Ensures.field "concurrency" hhealth rfl
          (ensures_nat (by decide) (by decide) (by decide)))) v w hw
  have hkey : ∀ s ∈ sources, s.get "key" = .string (bootClient s).1 ∧ (bootClient s).1 ≠ "" := by
    intro s hs
    obtain ⟨key, hkey, hne⟩ := (hall s hs).key
    simpa [bootClient, hkey, JsValue.text] using hne
  have hdialect : ∀ s ∈ sources, s.get "dialect" = .string (bootClient s).2.dialect := by
    intro s hs
    obtain ⟨dialect, hdialect, -⟩ := (hall s hs).dialect
    simp [bootClient, hdialect, JsValue.text]
  have hnodup : ((sources.map bootClient).map Prod.fst).Nodup := by
    rw [hsources, uniqueKeys, decide_eq_true_eq] at hunique
    have hkeys : sources.filterMap (fun s => (s.get "key").text) =
        (sources.map bootClient).map Prod.fst := by
      rw [List.map_map, ← List.filterMap_eq_map]
      refine List.filterMap_congr fun s hs => ?_
      rw [(hkey s hs).1]
      rfl
    rwa [hkeys] at hunique
  refine ⟨sources, ⟨sources.map bootClient, hnodup⟩, ⟨retries, some names, concurrency⟩, hsources,
    ?_, ?_, List.length_pos_iff.mp hmin, ?_, ?_, fun s hs => (hall s hs).oracle, hretries,
    ⟨names, rfl, hnames⟩, hconcurrency, by simpa using hbound⟩
  · rw [List.map_map]
    exact List.map_congr_left fun s hs => (hkey s hs).1
  · rw [List.map_map]
    exact List.map_congr_left hdialect
  · intro entry hentry
    obtain ⟨s, hs, rfl⟩ := List.mem_map.mp hentry
    exact (hkey s hs).2
  · intro entry hentry
    obtain ⟨s, hs, rfl⟩ := List.mem_map.mp hentry
    obtain ⟨dialect, hdialect, -⟩ := (hall s hs).dialect
    simp [bootClient, isText, hdialect, JsValue.text]

end

/-! ### The configuration -/

/-- What each consumer reads of `config`. -/
structure Provides (config : JsValue) : Prop where
  env : (get config "app.env").IsText (· ∈ ["development", "test", "staging", "production"])
  requestIdHeader : (get config "logging.requestIdHeader").IsText fun _ => True
  showStackTraces : ∃ b, get config "logging.showStackTraces" = .bool b
  http : HttpSection (get config "http")
  httpClient : ∀ target, ∃ c, c.target = target ∧ HttpClientSection (get config "httpClient") c
  database : get config "database" = .undefined ∨
    ∃ sources clients options, DatabaseSection (get config "database") sources clients options
  jwt : JwtSection (get config "jwt")
  idempotency : ∃ store c, IdempotencySection (get config "idempotency") store c
  legacy : LegacySection (get config "legacy")
  metricsPath : (get config "metrics.path").IsText fun path => ['/'] <+: path.toList
  scheduler : ∃ b, get config "scheduler.enabled" = .bool b
  timezone : (get config "scheduler.timezone").IsText (· ≠ "")
  shutdown : ∃ c, ShutdownSection (get config "shutdown") c
  tls : TlsSection (get config "tls")
  primary : ∃ c : Cluster.StartPrimaryConfig, ClusterSection (get config "cluster") c ∧
    ShutdownSection (get config "shutdown") ⟨c.drainDelayMs, c.forceAfterMs, c.jobDrainMs⟩ ∧
    (∃ ttl, IdempotencySection (get config "idempotency") c.store ttl) ∧
    get config "metrics.enabled" = .bool c.metricsEnabled

section

variable {rt : Runtime} {env : Env} {config : JsValue}

theorem rootShape_distinct : (rootShape rt env).Distinct := by
  simp [Properties.Distinct, rootShape]

variable {s : rt.zod.Schema} {P : JsValue → Prop} {v : JsValue}

/-- A section of what `rootSchema` accepts. -/
theorem section_of_root (key : String) (h : rt.zod.safeParse (rootSchema rt env) v = .ok config)
    (hs : (rootShape rt env).lookup key = some s) (hkey : parts key = [key])
    (hP : rt.zod.Ensures s P) : P (get config key) := by
  rw [get_section hkey]
  exact hP.field key rootShape_distinct hs v config h

/-- A setting of one of its sections. -/
theorem setting_of_root (key section' name : String) {shape : Properties rt.zod.Schema}
    (h : rt.zod.safeParse (rootSchema rt env) v = .ok config)
    (hshape : (rootShape rt env).lookup section' = some (rt.zod.object shape))
    (hs : shape.lookup name = some s) (hkey : parts key = [section', name]) (hd : shape.Distinct)
    (hP : rt.zod.Ensures s P) : P (get config key) := by
  rw [get_setting hkey]
  exact (hP.field name hd hs).field section' rootShape_distinct hshape v config h

theorem provides_of_root (h : rt.zod.safeParse (rootSchema rt env) v = .ok config) :
    Provides config := by
  have hlogging : (loggingShape rt.zod).Distinct := by simp [Properties.Distinct, loggingShape]
  have hmetrics : (metricsShape rt.zod).Distinct := by simp [Properties.Distinct, metricsShape]
  have hscheduler : (schedulerShape rt.zod).Distinct := by
    simp [Properties.Distinct, schedulerShape]
  obtain ⟨store, ttl, hidempotency⟩ :=
    section_of_root "idempotency" h rfl (by decide) idempotency_ensures
  obtain ⟨shutdown, hshutdown⟩ := section_of_root "shutdown" h rfl (by decide) shutdown_ensures
  obtain ⟨enabled, henabled⟩ :=
    setting_of_root "metrics.enabled" "metrics" "enabled" h rfl rfl (by decide) hmetrics
      ensures_switch
  obtain ⟨c, hcluster, hc⟩ := section_of_root "cluster" h rfl (by decide) (cluster_ensures
    { Cluster.StartPrimaryConfig.defaults with
      drainDelayMs := shutdown.drainDelayMs
      forceAfterMs := shutdown.forceAfterMs
      jobDrainMs := shutdown.jobDrainMs
      store := store
      metricsEnabled := enabled })
  refine ⟨setting_of_root _ "app" "env" h rfl rfl (by decide) (by simp [Properties.Distinct])
      ensures_enum,
    setting_of_root _ "logging" "requestIdHeader" h rfl rfl (by decide) hlogging ?_,
    setting_of_root _ "logging" "showStackTraces" h rfl rfl (by decide) hlogging ensures_switch,
    section_of_root _ h rfl (by decide) http_ensures,
    fun target => section_of_root _ h rfl (by decide) (httpClient_ensures target),
    section_of_root _ h rfl (by decide) (database_ensures env).optional,
    section_of_root _ h rfl (by decide) jwt_ensures, ⟨store, ttl, hidempotency⟩,
    section_of_root _ h rfl (by decide) legacy_ensures,
    setting_of_root _ "metrics" "path" h rfl rfl (by decide) hmetrics ?_,
    setting_of_root _ "scheduler" "enabled" h rfl rfl (by decide) hscheduler ensures_switch,
    setting_of_root _ "scheduler" "timezone" h rfl rfl (by decide) hscheduler
      (ensures_text.default ⟨_, rfl, by decide⟩),
    ⟨shutdown, hshutdown⟩, section_of_root _ h rfl (by decide) tls_ensures,
    c, hcluster, ?_, ⟨ttl, ?_⟩, ?_⟩
  · exact (Zod.Ensures.string.mono fun _ hw => hw.imp fun _ hheader => ⟨hheader.1, trivial⟩).default
      ⟨_, rfl, trivial⟩
  · refine (Zod.Ensures.string.mono fun _ hw => hw.imp fun _ hpath => ⟨hpath.1, ?_⟩).default
      ⟨_, rfl, by decide⟩
    exact List.isPrefixOf_iff_prefix.mp (hpath.2 _ (List.mem_singleton_self _))
  · rw [hc]
    exact hshutdown
  · rw [hc]
    exact hidempotency
  · rw [hc]
    exact henabled

/-- **An accepted configuration** provides what the program takes for granted, whatever the
environment and the files hold. -/
theorem loadConfig_provides (rt : Runtime) (env : Env) (config : JsValue)
    (h : loadConfig rt env = .ok config) : Provides config := by
  unfold loadConfig validated at h
  split at h
  next config' hparsed =>
    obtain rfl := Except.ok.inj h
    exact provides_of_root hparsed
  next => cases h

end

theorem loadConfig_provides_two : ∃ config, loadConfig .plain .two = .ok config ∧
    Provides config := by
  obtain ⟨config, hconfig⟩ := accepted_two
  exact ⟨config, hconfig, loadConfig_provides .plain .two config hconfig⟩

end NestDdd.Config

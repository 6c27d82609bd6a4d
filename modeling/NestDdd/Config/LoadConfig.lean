import NestDdd.Cluster.Primary
import NestDdd.Config.Schemas

/-!
# Config — loading

`loadConfig` (`src/infrastructure/config/load-config.ts`) reads the files of `NODE_ENV` into the
environment, makes the sections of the flat variables and validates them; `EnvConfigAdapter`
(`src/infrastructure/config/env-config.adapter.ts`) serves what comes of it by dotted keys.

* `get_section`, `get_setting`: what a key reads, and one with a dot.
-/

namespace NestDdd.Config

open JsValue

/-! ### Variables -/

/-- `value?.trim()`, or `undefined` if nothing is left of it. -/
def envString (value : Option String) : Option String := (value.map trim).filter (· ≠ "")

/-- What reads as neither is left to fail the validation. -/
def envBool (lowerCase : LowerCase) (value : Option String) : JsValue :=
  match (envString value).map lowerCase.lower with
  | none => .undefined
  | some v =>
      if v ∈ ["true", "1", "yes", "on"] then .bool true
      else if v ∈ ["false", "0", "no", "off"] then .bool false
      else ofText value

def envList (value : Option String) : Option (List String) :=
  (envString value).map fun v =>
    ((v.toList.splitOn ',').map fun item => String.ofList (trimChars item)).filter (· ≠ "")

/-- A list of texts as the value of a field. -/
def ofTexts (items : Option (List String)) : JsValue := (items.map texts).getD .undefined

/-- What `loadConfig` takes from outside: the validation library, the tables of the platform for
letter case, and what the files hold for a `NODE_ENV`. -/
structure Runtime where
  zod : Zod
  lowerCase : LowerCase
  toUpperCase : String → String
  dotenvFlow : Option String → Env

section

variable (rt : Runtime) (env : Env)

/-! ### Sections -/

/-- A variable as text, as a switch and as a list. -/
def text (name : String) : JsValue := ofText (envString (env name))

def switch (name : String) : JsValue := envBool rt.lowerCase (env name)

def list (name : String) : JsValue := ofTexts (envList (env name))

/-- A list in capitals. -/
def upperList (name : String) : JsValue :=
  ofTexts ((envList (env name)).map (·.map rt.toUpperCase))

/-- The `database` section, if `DATABASE_CONFIG_JSON` is set. -/
def hydrateDatabase : JsValue :=
  match envString (env "DATABASE_CONFIG_JSON") with
  | none => .undefined
  | some databaseSources =>
      .object [("sources", .string databaseSources),
        ("health", .object [("pingOnBoot", switch rt env "DATABASE_PING_ON_BOOT"),
          ("timeoutMs", text env "DATABASE_PING_TIMEOUT_MS"),
          ("maxRetries", text env "DATABASE_PING_MAX_RETRIES"),
          ("requiredSources", list env "DATABASE_PING_REQUIRED_SOURCES"),
          ("concurrency", text env "DATABASE_PING_CONCURRENCY"),
          ("jitterMs", text env "DATABASE_PING_JITTER_MS")]),
        ("oracle", .object [("thickMode", switch rt env "ORACLE_THICK_MODE"),
          ("clientLibDir", text env "ORACLE_CLIENT_LIB_DIR"),
          ("clientConfigDir", text env "ORACLE_CLIENT_CONFIG_DIR"),
          ("fetchAsString", upperList rt env "ORACLE_FETCH_AS_STRING"),
          ("fetchAsBuffer", upperList rt env "ORACLE_FETCH_AS_BUFFER")]),
        ("useDbLink", switch rt env "DATABASE_USE_DBLINK")]

/-- The `cluster` section. -/
def hydrateCluster : JsValue :=
  .object [("enabled", switch rt env "CLUSTER_ENABLED"),
    ("workers", text env "CLUSTER_WORKERS"),
    ("respawn", switch rt env "CLUSTER_RESPAWN"),
    ("respawnMaxPerMinute", text env "CLUSTER_RESPAWN_MAX_PER_MINUTE"),
    ("metricsPort", text env "CLUSTER_METRICS_PORT"),
    ("isLeader", switch rt env "CLUSTER_LEADER")]

def hydrate : JsValue :=
  .object [("app", .object [("env", text env "NODE_ENV")]),
    ("logging", .object [("logLevel", text env "LOG_LEVEL"),
      ("showStackTraces", switch rt env "SHOW_STACK_TRACES"),
      ("requestIdHeader", text env "REQUEST_ID_HEADER"),
      ("toFile", switch rt env "LOGGING_TO_FILE"),
      ("directory", text env "LOGGING_DIR"),
      ("fileName", text env "LOGGING_FILE_NAME"),
      ("filesLimit", text env "LOGGING_FILES_LIMIT"),
      ("maxSize", text env "LOGGING_MAX_SIZE"),
      ("pretty", switch rt env "LOGGING_PRETTY")]),
    ("http", .object [("port", text env "PORT"),
      ("corsOrigins", list env "CORS_ORIGINS"),
      ("serverTimeout", text env "SERVER_TIMEOUT"),
      ("headersTimeout", text env "HEADERS_TIMEOUT"),
      ("keepAliveTimeout", text env "KEEP_ALIVE_TIMEOUT"),
      ("jsonBodyLimit", text env "JSON_BODY_LIMIT"),
      ("urlencodedBodyLimit", text env "URLENCODED_BODY_LIMIT"),
      ("swaggerEnabled", switch rt env "SWAGGER_ENABLED"),
      ("throttleTtlMs", text env "THROTTLE_TTL_MS"),
      ("throttleLimit", text env "THROTTLE_LIMIT"),
      ("throttleStorage", text env "THROTTLE_STORAGE"),
      ("throttleRedisUrl", text env "THROTTLE_REDIS_URL"),
      ("trustProxy", switch rt env "TRUST_PROXY"),
      ("csrfEnabled", switch rt env "CSRF_ENABLED"),
      ("csrfTrustedOrigins", list env "CSRF_TRUSTED_ORIGINS")]),
    ("httpClient", .object [("timeoutMs", text env "HTTP_CLIENT_TIMEOUT_MS"),
      ("retries", text env "HTTP_CLIENT_RETRIES"),
      ("retryBaseMs", text env "HTTP_CLIENT_RETRY_BASE_MS"),
      ("retryJitterMs", text env "HTTP_CLIENT_RETRY_JITTER_MS"),
      ("retryMaxDelayMs", text env "HTTP_CLIENT_RETRY_MAX_DELAY_MS"),
      ("circuitEnabled", switch rt env "HTTP_CLIENT_CIRCUIT_ENABLED"),
      ("circuitFailureThreshold", text env "HTTP_CLIENT_CIRCUIT_FAILURE_THRESHOLD"),
      ("circuitResetMs", text env "HTTP_CLIENT_CIRCUIT_RESET_MS"),
      ("userAgent", text env "HTTP_CLIENT_USER_AGENT")]),
    ("database", hydrateDatabase rt env),
    ("jwt", .object [("secret", text env "JWT_SECRET"),
      ("algorithms", list env "JWT_ALGORITHMS"),
      ("issuer", text env "JWT_ISSUER"),
      ("audience", text env "JWT_AUDIENCE"),
      ("cookieName", text env "JWT_COOKIE_NAME")]),
    ("idempotency", .object [("store", text env "IDEMPOTENCY_STORE"),
      ("table", text env "IDEMPOTENCY_TABLE"),
      ("ttlMs", text env "IDEMPOTENCY_TTL_MS"),
      ("inProgressTtlMs", text env "IDEMPOTENCY_IN_PROGRESS_TTL_MS"),
      ("header", text env "IDEMPOTENCY_HEADER")]),
    ("legacy", .object [("forwardEnabled", switch rt env "LEGACY_FORWARD_ENABLED"),
      ("targetUrl", text env "LEGACY_TARGET_URL"),
      ("forwardPrefixes", list env "LEGACY_FORWARD_PREFIXES"),
      ("timeoutMs", text env "LEGACY_TIMEOUT_MS"),
      ("preserveHostHeader", switch rt env "LEGACY_PRESERVE_HOST_HEADER")]),
    ("metrics", .object [("enabled", switch rt env "METRICS_ENABLED"),
      ("defaultMetrics", switch rt env "METRICS_DEFAULT_METRICS"),
      ("path", text env "METRICS_PATH")]),
    ("scheduler", .object [("enabled", switch rt env "SCHEDULER_ENABLED"),
      ("timezone", text env "SCHEDULER_TIMEZONE")]),
    ("shutdown", .object [("drainDelayMs", text env "SHUTDOWN_DRAIN_DELAY_MS"),
      ("forceAfterMs", text env "SHUTDOWN_FORCE_AFTER_MS"),
      ("jobDrainMs", text env "SHUTDOWN_JOB_DRAIN_MS")]),
    ("tls", .object [("enabled", switch rt env "TLS_ENABLED"),
      ("keyFile", text env "TLS_KEY_FILE"),
      ("certFile", text env "TLS_CERT_FILE"),
      ("caFile", text env "TLS_CA_FILE"),
      ("passphrase", text env "TLS_PASSPHRASE"),
      ("minVersion", text env "TLS_MIN_VERSION")]),
    ("cluster", hydrateCluster rt env)]

def rootShape : Properties rt.zod.Schema :=
  [("app", appSchema rt.zod),
    ("logging", loggingSchema rt.zod),
    ("http", httpSchema rt.zod),
    ("httpClient", httpClientSchema rt.zod),
    ("database", rt.zod.optional (databaseConfigSchema rt.zod env)),
    ("jwt", jwtSchema rt.zod),
    ("idempotency", idempotencySchema rt.zod),
    ("legacy", legacySchema rt.zod),
    ("metrics", metricsSchema rt.zod),
    ("scheduler", schedulerSchema rt.zod),
    ("shutdown", shutdownSchema rt.zod),
    ("tls", tlsSchema rt.zod),
    ("cluster", clusterSchema rt.zod)]

def rootSchema : rt.zod.Schema := rt.zod.object (rootShape rt env)

/-! ### Loading -/

/-- What `process.env` is once the files are read: a variable that is set stays as it is. -/
def loadEnvFiles : Env :=
  if env "NODE_ENV" = some "test" ∨ env "NODE_ENV" = some "testing" then env
  else fun name => (env name).or (rt.dotenvFlow (env "NODE_ENV") name)

/-- An issue as `InvalidConfigError` lists it. -/
def configIssue (issue : ZodIssue) : Cluster.ConfigIssue where
  path :=
    let path := String.intercalate "." (issue.path.map PathKey.text)
    if path = "" then "(root)" else path
  code := issue.code
  message := issue.message

/-- `rootSchema.safeParse(hydrate())`, or an `InvalidConfigError`. -/
def validated : Except (List Cluster.ConfigIssue) JsValue :=
  match rt.zod.safeParse (rootSchema rt env) (hydrate rt env) with
  | .ok config => .ok config
  | .error issues => .error (issues.map configIssue)

def loadConfig : Except (List Cluster.ConfigIssue) JsValue := validated rt (loadEnvFiles rt env)

end

/-! ### The adapter -/

/-- `EnvConfigAdapter.get`, along the parts of a key. -/
def getPath : JsValue → List String → JsValue
  | current, [] => current
  | current, part :: parts =>
      if current.isRecord then
        match current.get part with
        | .undefined => .undefined
        | next => getPath next parts
      else .undefined

/-- `key.split('.')`. -/
def parts (key : String) : List String := (key.toList.splitOn '.').map String.ofList

/-- `config.get(key)`. -/
def get (config : JsValue) (key : String) : JsValue := getPath config (parts key)

theorem getPath_undefined (parts : List String) : getPath .undefined parts = .undefined := by
  cases parts <;> rfl

theorem getPath_eq (config : JsValue) (parts : List String) :
    getPath config parts = parts.foldl JsValue.get config := by
  induction parts generalizing config with
  | nil => rfl
  | cons part parts ih =>
      rw [List.foldl_cons, ← ih, getPath]
      split
      next =>
        split
        next heq => rw [heq, getPath_undefined]
        next => rfl
      next hrecord =>
        have hget : config.get part = .undefined := by
          cases config with
          | object fields => exact absurd rfl hrecord
          | _ => rfl
        rw [hget, getPath_undefined]

/-- A section of the configuration. -/
theorem get_section {config : JsValue} {key : String} (h : parts key = [key]) :
    get config key = config.get key := by
  rw [get, h, getPath_eq]
  rfl

/-- A setting of a section. -/
theorem get_setting {config : JsValue} {key section' name : String}
    (h : parts key = [section', name]) : get config key = (config.get section').get name := by
  rw [get, h, getPath_eq]
  rfl

/-- `isDevelopment` and `isProduction`. -/
def isDevelopment (config : JsValue) : Bool := isText (get config "app.env") "development"

def isProduction (config : JsValue) : Bool := isText (get config "app.env") "production"

/-! ### A deployment -/

/-- Neither files nor letters beyond ASCII. -/
def Runtime.plain : Runtime where
  zod := .ofFunctions
  lowerCase := .ofAscii
  toUpperCase := id
  dotenvFlow _ _ := none

/-- Workers in front of a legacy service. -/
def Env.two : Env := fun name =>
  List.lookup name [("NODE_ENV", "production"), ("JWT_SECRET", "0123456789abcdef0123456789abcdef"),
    ("CLUSTER_ENABLED", "true"), ("LEGACY_FORWARD_ENABLED", "true"),
    ("LEGACY_TARGET_URL", "http://legacy"), ("LEGACY_FORWARD_PREFIXES", "/a")]

theorem accepted_two : ∃ config, loadConfig .plain .two = .ok config := by
  have h : (loadConfig .plain .two).toBool = true := by decide +kernel
  cases hc : loadConfig .plain .two with
  | ok config => exact ⟨config, rfl⟩
  | error issues =>
      rw [hc] at h
      cases h

end NestDdd.Config

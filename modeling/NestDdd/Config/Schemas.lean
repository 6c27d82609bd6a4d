import NestDdd.Shared.JsString
import NestDdd.Shared.JsonParse
import NestDdd.Shared.Pattern
import NestDdd.Shared.Schema

/-!
# Config — the schemas

The sections of the configuration (`src/infrastructure/config/schemas`), over any validation
library.  A section is the shape of its object, with what its `superRefine` reports; the sources of
the database are parsed from JSON first, and take the secrets they refer to from the environment.
The texts of the library's own issues are left to it.
-/

namespace NestDdd.Config

open JsValue

/-- `process.env`. -/
abbrev Env := String → Option String

/-- A number as the source writes it. -/
def int (n : Int) : JsValue := .number (.finite n)

def texts (items : List String) : JsValue := .array (items.map .string)

/-- `ctx.addIssue({ code: 'custom', path: [field], message })`. -/
def customIssue (field message : String) : ZodIssue := ⟨[.key field], "custom", message⟩

/-- A variable as the value of a field. -/
def ofText (value : Option String) : JsValue := (value.map JsValue.string).getD .undefined

/-- `v === s`. -/
def isText (v : JsValue) (s : String) : Bool := v.text == some s

section Sections

variable (z : Zod)

/-! ### Sections without rules of their own -/

def appSchema : z.Schema :=
  z.object [("env", z.enum ["development", "test", "staging", "production"])]

def clusterShape : Properties z.Schema :=
  [("enabled", z.default z.boolean (.bool false)),
    ("workers", z.default (z.coerceNumber [.int, .min 0]) (int 0)),
    ("respawn", z.default z.boolean (.bool true)),
    ("respawnMaxPerMinute", z.default (z.coerceNumber [.int, .min 1]) (int 10)),
    ("metricsPort", z.optional (z.coerceNumber [.int, .min 1, .max 65535])),
    ("isLeader", z.default z.boolean (.bool false))]

def clusterSchema : z.Schema := z.object (clusterShape z)

/-- `APP_NAME`. -/
def appName : String := "nestjs-ddd"

def httpClientShape : Properties z.Schema :=
  [("timeoutMs", z.default (z.coerceNumber [.int, .positive]) (int 5000)),
    ("retries", z.default (z.coerceNumber [.int, .min 0, .max 10]) (int 2)),
    ("retryBaseMs", z.default (z.coerceNumber [.int, .positive]) (int 200)),
    ("retryJitterMs", z.default (z.coerceNumber [.int, .min 0]) (int 150)),
    ("retryMaxDelayMs", z.default (z.coerceNumber [.int, .positive]) (int 5000)),
    ("circuitEnabled", z.default z.boolean (.bool true)),
    ("circuitFailureThreshold", z.default (z.coerceNumber [.int, .positive]) (int 5)),
    ("circuitResetMs", z.default (z.coerceNumber [.int, .positive]) (int 30000)),
    ("userAgent", z.default (z.string [.min 1]) (.string appName))]

def httpClientSchema : z.Schema := z.object (httpClientShape z)

def idempotencyShape : Properties z.Schema :=
  [("store", z.default (z.enum ["memory", "oracle"]) (.string "memory")),
    ("table", z.default (z.string [.min 1]) (.string "IDEMPOTENCY_KEYS")),
    ("ttlMs", z.default (z.coerceNumber [.int, .min 1]) (int 86400000)),
    ("inProgressTtlMs", z.default (z.coerceNumber [.int, .min 1]) (int 60000)),
    ("header", z.default (z.string [.min 1]) (.string "idempotency-key"))]

def idempotencySchema : z.Schema := z.object (idempotencyShape z)

def jwtAlgorithms : List String :=
  ["HS256", "HS384", "HS512", "RS256", "RS384", "RS512", "ES256", "ES384"]

def jwtShape : Properties z.Schema :=
  [("secret", z.string [.min 32]),
    ("algorithms", z.default (z.array (z.enum jwtAlgorithms) 1) (texts ["HS256"])),
    ("issuer", z.optional (z.string [.min 1])),
    ("audience", z.optional (z.string [.min 1])),
    ("cookieName", z.default (z.string [.min 1]) (.string "jwt"))]

def jwtSchema : z.Schema := z.object (jwtShape z)

/-- A character of a class, in either case. -/
def isUnit (c : Char) : Bool := c.toLower ∈ ['b', 'k', 'm', 'g']

/-- `/^\d+(\.\d+)?[bkmg]?$/i`. -/
def maxSizePattern : Pattern Char :=
  .seq (.one Char.isDigit) (.seq (.many Char.isDigit)
    (.seq (.alt (.group (.seq (.one (· == '.')) (.seq (.one Char.isDigit) (.many Char.isDigit))))
        .empty)
      (.alt (.one isUnit) .empty)))

def loggingShape : Properties z.Schema :=
  [("logLevel", z.default (z.enum ["debug", "info", "warn", "error"]) (.string "info")),
    ("showStackTraces", z.default z.boolean (.bool false)),
    ("requestIdHeader", z.default (z.string []) (.string "x-request-id")),
    ("toFile", z.default z.boolean (.bool true)),
    ("directory", z.default (z.string []) (.string "logs")),
    ("fileName", z.default (z.string []) (.string "app.log")),
    ("filesLimit", z.default (z.coerceNumber [.int, .min 1, .max 365]) (int 14)),
    ("maxSize",
      z.default (z.string [.regex fun s => maxSizePattern.test s.toList]) (.string "10m")),
    ("pretty", z.optional z.boolean)]

def loggingSchema : z.Schema := z.object (loggingShape z)

def metricsShape : Properties z.Schema :=
  [("enabled", z.default z.boolean (.bool false)),
    ("defaultMetrics", z.default z.boolean (.bool true)),
    ("path", z.default (z.string [.startsWith "/"]) (.string "/metrics"))]

def metricsSchema : z.Schema := z.object (metricsShape z)

def schedulerShape : Properties z.Schema :=
  [("enabled", z.default z.boolean (.bool false)),
    ("timezone", z.default (z.string [.min 1]) (.string "UTC"))]

def schedulerSchema : z.Schema := z.object (schedulerShape z)

def shutdownShape : Properties z.Schema :=
  [("drainDelayMs", z.default (z.coerceNumber [.int, .min 0]) (int 5000)),
    ("forceAfterMs", z.default (z.coerceNumber [.int, .positive]) (int 10000)),
    ("jobDrainMs", z.default (z.coerceNumber [.int, .min 0]) (int 10000))]

def shutdownSchema : z.Schema := z.object (shutdownShape z)

/-! ### Sections with rules of their own -/

def httpShape : Properties z.Schema :=
  [("port", z.default (z.coerceNumber [.min 1, .max 65535]) (int 3000)),
    ("corsOrigins", z.default (z.array (z.string [.min 1]) 0) (texts [])),
    ("serverTimeout", z.default (z.coerceNumber [.min 2000]) (int 120000)),
    ("headersTimeout", z.default (z.coerceNumber [.min 2000]) (int 121000)),
    ("keepAliveTimeout", z.default (z.coerceNumber [.min 1000]) (int 61000)),
    ("jsonBodyLimit", z.default (z.string []) (.string "1mb")),
    ("urlencodedBodyLimit", z.default (z.string []) (.string "1mb")),
    ("swaggerEnabled", z.optional z.boolean),
    ("throttleTtlMs", z.default (z.coerceNumber [.int, .min 1]) (int 60000)),
    ("throttleLimit", z.default (z.coerceNumber [.int, .min 0]) (int 100)),
    ("throttleStorage", z.default (z.enum ["memory", "redis"]) (.string "memory")),
    ("throttleRedisUrl", z.optional (z.string [.min 1])),
    ("trustProxy", z.default z.boolean (.bool false)),
    ("csrfEnabled", z.default z.boolean (.bool true)),
    ("csrfTrustedOrigins", z.optional (z.array (z.string [.min 1]) 0))]

def httpIssues (http : JsValue) : List ZodIssue :=
  if isText (http.get "throttleStorage") "redis" && !(http.get "throttleRedisUrl").truthy then
    [customIssue "throttleRedisUrl" "THROTTLE_REDIS_URL is required when THROTTLE_STORAGE=redis"]
  else []

def httpSchema : z.Schema := z.superRefine (z.object (httpShape z)) httpIssues

def legacyShape : Properties z.Schema :=
  [("forwardEnabled", z.default z.boolean (.bool false)),
    ("targetUrl", z.optional (z.string [.min 1])),
    ("forwardPrefixes", z.default (z.array (z.string [.min 1]) 0) (texts [])),
    ("timeoutMs", z.default (z.coerceNumber [.int, .positive]) (int 10000)),
    ("preserveHostHeader", z.default z.boolean (.bool false))]

/-- `v.length === 0`. -/
def isEmptyArray : JsValue → Bool
  | .array items => items.isEmpty
  | _ => false

def legacyIssues (legacy : JsValue) : List ZodIssue :=
  if !(legacy.get "forwardEnabled").truthy then []
  else
    (if !(legacy.get "targetUrl").truthy then
      [customIssue "targetUrl" "LEGACY_TARGET_URL is required when LEGACY_FORWARD_ENABLED=true"]
    else []) ++
    if isEmptyArray (legacy.get "forwardPrefixes") then
      [customIssue "forwardPrefixes"
        ("LEGACY_FORWARD_PREFIXES must list at least one prefix when " ++
          "LEGACY_FORWARD_ENABLED=true")]
    else []

def legacySchema : z.Schema := z.superRefine (z.object (legacyShape z)) legacyIssues

def tlsShape : Properties z.Schema :=
  [("enabled", z.default z.boolean (.bool false)),
    ("keyFile", z.optional (z.string [.min 1])),
    ("certFile", z.optional (z.string [.min 1])),
    ("caFile", z.optional (z.string [.min 1])),
    ("passphrase", z.optional (z.string [.min 1])),
    ("minVersion", z.default (z.enum ["TLSv1.2", "TLSv1.3"]) (.string "TLSv1.2"))]

def tlsIssues (tls : JsValue) : List ZodIssue :=
  if !(tls.get "enabled").truthy then []
  else
    (if !(tls.get "keyFile").truthy then
      [customIssue "keyFile" "TLS_KEY_FILE is required when TLS_ENABLED=true"]
    else []) ++
    if !(tls.get "certFile").truthy then
      [customIssue "certFile" "TLS_CERT_FILE is required when TLS_ENABLED=true"]
    else []

def tlsSchema : z.Schema := z.superRefine (z.object (tlsShape z)) tlsIssues

/-! ### Sources -/

def dialects : List String := ["oracle", "postgres", "mysql", "mariadb", "mssql", "sqlite"]

def baseSource : Properties z.Schema :=
  [("key", z.string [.min 1]),
    ("dialect", z.enum dialects),
    ("poolMin", z.default (z.number [.int, .min 0]) (int 0)),
    ("poolMax", z.default (z.number [.int, .min 1]) (int 10)),
    ("defaultSchema", z.optional (z.string [.min 1])),
    ("extra", z.optional (z.record z.unknown))]

/-- `BaseSource.extend(shape)`. -/
def extendBase (shape : Properties z.Schema) : Properties z.Schema :=
  Properties.assign id (fun _ => true) (baseSource z) shape

/-- `keys` of `o` hold text. -/
def hasAll (o : JsValue) (keys : List String) : Bool :=
  keys.all fun k => (o.get k).text.any (· != "")

def oracleContextUser : z.Schema :=
  z.default
    (z.object
      [("enabled", z.default z.boolean (.bool true)),
        ("required", z.default z.boolean (.bool false)),
        ("maxLength", z.default (z.number [.int, .min 1, .max 64]) (int 64))])
    (.object [("enabled", .bool true), ("required", .bool false), ("maxLength", int 64)])

def oracleShape : Properties z.Schema :=
  [("dialect", z.literal "oracle"),
    ("connectionUrl", z.optional z.url),
    ("connectString", z.optional (z.string [.min 1])),
    ("user", z.optional (z.string [.min 1])),
    ("password", z.optional (z.string [.min 1])),
    ("passwordEnv", z.optional (z.string [.min 1])),
    ("externalAuth", z.default z.boolean (.bool false)),
    ("edition", z.optional (z.string [.min 1])),
    ("configDir", z.optional (z.string [.min 1])),
    ("walletLocation", z.optional (z.string [.min 1])),
    ("walletPassword", z.optional (z.string [.min 1])),
    ("walletPasswordEnv", z.optional (z.string [.min 1])),
    ("sslServerDNMatch", z.optional z.boolean),
    ("httpsProxy", z.optional (z.string [.min 1])),
    ("httpsProxyPort", z.optional (z.number [.int, .min 1, .max 65535])),
    ("poolMin", z.default (z.number [.int, .min 0]) (int 2)),
    ("poolMax", z.default (z.number [.int, .min 1]) (int 10)),
    ("poolIncrement", z.default (z.number [.int, .min 0]) (int 1)),
    ("poolTimeoutSec", z.default (z.number [.int, .min 0]) (int 60)),
    ("poolMaxLifetimeSessionSec", z.default (z.number [.int, .min 0]) (int 0)),
    ("poolPingIntervalSec", z.default (z.number [.int]) (int 60)),
    ("poolPingTimeoutMs", z.default (z.number [.int, .min 0]) (int 5000)),
    ("queueMax", z.default (z.number [.int, .min (-1)]) (int 500)),
    ("queueTimeoutMs", z.default (z.number [.int, .min 0]) (int 60000)),
    ("stmtCacheSize", z.default (z.number [.int, .min 0]) (int 30)),
    ("enableStatistics", z.default z.boolean (.bool false)),
    ("homogeneous", z.default z.boolean (.bool true)),
    ("drainTimeSec", z.default (z.number [.int, .min 0]) (int 10)),
    ("connectTimeoutSec", z.default (z.number [.int, .min 1]) (int 20)),
    ("expireTimeMin", z.default (z.number [.int, .min 0]) (int 0)),
    ("retryCount", z.default (z.number [.int, .min 0]) (int 0)),
    ("retryDelaySec", z.default (z.number [.int, .min 0]) (int 1)),
    ("callTimeoutMs", z.default (z.number [.int, .min 0]) (int 0)),
    ("fetchArraySize", z.default (z.number [.int, .min 1]) (int 100)),
    ("prefetchRows", z.default (z.number [.int, .min 0]) (int 2)),
    ("maxRows", z.default (z.number [.int, .min 0]) (int 0)),
    ("outFormat", z.default (z.enum ["array", "object"]) (.string "array")),
    ("slowQueryMs", z.default (z.number [.int, .min 0]) (int 1000)),
    ("logSql", z.default z.boolean (.bool false)),
    ("healthQuery", z.default (z.string [.min 1]) (.string "SELECT 1 FROM DUAL")),
    ("contextUser", oracleContextUser z)]

/-- The credentials of an oracle source. -/
def hasOracleTarget (o : JsValue) : Bool :=
  (o.get "connectionUrl").truthy ||
    ((o.get "externalAuth").truthy && hasAll o ["connectString"]) ||
    hasAll o ["connectString", "user", "password"]

/-- `o.poolMin <= o.poolMax`, of numbers. -/
def poolMinLeMax (o : JsValue) : Bool :=
  match (o.get "poolMin").rat, (o.get "poolMax").rat with
  | some min, some max => min ≤ max
  | _, _ => false

def oracleSource : z.Schema :=
  z.refine
    (z.refine (z.object (extendBase z (oracleShape z))) hasOracleTarget
      ⟨[], "custom", "oracle: provide connectionUrl, connectString+user+password (or " ++
        "passwordEnv), or connectString with externalAuth"⟩)
    poolMinLeMax ⟨[.key "poolMin"], "custom", "oracle: poolMin must be <= poolMax"⟩

/-- The fields that say where a server is, and as whom to log in. -/
def serverShape (dialect : String) (last : String) : Properties z.Schema :=
  [("dialect", z.literal dialect),
    ("connectionUrl", z.optional z.url),
    ("host", z.optional (z.string [])),
    ("port", z.optional (z.number [.int, .min 1])),
    ("database", z.optional (z.string [])),
    ("user", z.optional (z.string [])),
    ("password", z.optional (z.string [])),
    ("passwordEnv", z.optional (z.string [.min 1])),
    (last, z.optional z.boolean)]

def hasServer (o : JsValue) : Bool :=
  (o.get "connectionUrl").truthy ||
    (hasAll o ["host", "database", "user", "password"] && (o.get "port").rat.isSome)

/-- A source of one of the dialects that a server speaks. -/
def serverSource (dialect last : String) : z.Schema :=
  z.refine (z.object (extendBase z (serverShape z dialect last))) hasServer
    ⟨[], "custom",
      dialect ++ ": provide either connectionUrl or host+port+database+user+password"⟩

def postgresSource : z.Schema := serverSource z "postgres" "ssl"

def mySqlSource : z.Schema := serverSource z "mysql" "ssl"

def mariaDbSource : z.Schema := serverSource z "mariadb" "ssl"

def msSqlSource : z.Schema := serverSource z "mssql" "encrypt"

def sqliteShape : Properties z.Schema :=
  [("dialect", z.literal "sqlite"),
    ("file", z.optional (z.string [.min 1])),
    ("connectionUrl", z.optional z.url)]

def sqliteSource : z.Schema :=
  z.refine (z.object (extendBase z (sqliteShape z)))
    (fun o => (o.get "file").truthy || (o.get "connectionUrl").truthy)
    ⟨[], "custom", "sqlite: provide a file path or a connectionUrl"⟩

/-! ### The database -/

def oracleDriverShape : Properties z.Schema :=
  [("thickMode", z.default z.boolean (.bool false)),
    ("clientLibDir", z.optional (z.string [.min 1])),
    ("clientConfigDir", z.optional (z.string [.min 1])),
    ("fetchAsString",
      z.default (z.array (z.enum ["CLOB", "NCLOB", "NUMBER", "DATE", "JSON"]) 0) (texts [])),
    ("fetchAsBuffer", z.default (z.array (z.enum ["BLOB"]) 0) (texts []))]

def oracleDriverSchema : z.Schema := z.object (oracleDriverShape z)

/-- `new Set(keys).size === keys.length`, of sources whose keys are strings. -/
def uniqueKeys : JsValue → Bool
  | .array sources => decide ((sources.filterMap fun s => (s.get "key").text).Nodup)
  | _ => false

end Sections

/-- `SECRET_ENV_FIELDS`. -/
def secretEnvFields : List String := ["password", "walletPassword"]

/-- `parseJson`, `none` if it throws. -/
def parseJson : JsValue → Option JsValue
  | .undefined | .null => some .undefined
  | .string s => if s = "" then some .undefined else parse s.toList
  | .object fields => some (.object fields)
  | .array items => some (.array items)
  | .bool _ | .number _ => none

/-- One round of the loop of `resolveSecretRefs`. -/
def resolveSecretRef (env : Env) (resolved : Properties JsValue) (field : String) :
    Properties JsValue :=
  match JsValue.get (.object resolved) field, JsValue.get (.object resolved) (field ++ "Env") with
  | .undefined, .string ref => if ref = "" then resolved else resolved.set field (ofText (env ref))
  | _, _ => resolved

def resolveSecretRefs (env : Env) : JsValue → JsValue
  | .object source => .object (secretEnvFields.foldl (resolveSecretRef env) source)
  | source => source

/-- The `list` of `parseSources`. -/
def sourceList (v : JsValue) : Except ZodIssue JsValue :=
  match parseJson v with
  | none => .error ⟨[], "custom", "DATABASE_CONFIG_JSON is not valid JSON"⟩
  | some (.object fields) => .ok (JsValue.get (.object fields) "sources")
  | some parsed => .ok parsed

def parseSources (env : Env) (v : JsValue) : Except ZodIssue JsValue :=
  (sourceList v).map fun
    | .array sources => .array (sources.map (resolveSecretRefs env))
    | list => list

section

variable (z : Zod)

def sourcesSchema : z.Schema :=
  z.refine
    (z.array
      (z.discriminatedUnion "dialect"
        [oracleSource z, postgresSource z, mySqlSource z, mariaDbSource z, msSqlSource z,
          sqliteSource z])
      1)
    uniqueKeys ⟨[], "custom", "source keys must be unique"⟩

def healthShape : Properties z.Schema :=
  [("pingOnBoot", z.default z.boolean (.bool true)),
    ("timeoutMs", z.default (z.coerceNumber [.int, .min 0, .max 60000]) (int 3000)),
    ("maxRetries", z.default (z.coerceNumber [.int, .min 0, .max 100]) (int 2)),
    ("requiredSources", z.default (z.array (z.string []) 0) (texts [])),
    ("concurrency", z.default (z.coerceNumber [.int, .min 1, .max 100]) (int 3)),
    ("jitterMs", z.default (z.coerceNumber [.int, .min 0, .max 5000]) (int 250))]

def databaseShape (env : Env) : Properties z.Schema :=
  [("sources", z.preprocess (parseSources env) (sourcesSchema z)),
    ("health", z.object (healthShape z)),
    ("oracle", z.default (oracleDriverSchema z)
      (.object [("thickMode", .bool false), ("fetchAsString", texts []),
        ("fetchAsBuffer", texts [])])),
    ("useDbLink", z.default z.boolean (.bool false))]

def databaseConfigSchema (env : Env) : z.Schema := z.object (databaseShape z env)

end

end NestDdd.Config

import NestDdd.Cluster.Processes
import NestDdd.Config.LoadConfig

/-!
# Config — the configurations of a cluster

The primary and its workers read their configurations apart: a worker inherits the environment of
the primary, the variables of its files included, with `CLUSTER_LEADER` on top
(`src/infrastructure/cluster/cluster-primary.ts`), and loads twice, in `main.ts` and in
`EnvConfigAdapter`.

* `loadEnvFiles_fork`: a worker's files add nothing.
* `parseSources_fork`: its sources are those of the primary, if none takes a secret from
  `CLUSTER_LEADER`.
* `one_config`: every worker goes by the configuration of the primary, but for
  `cluster.isLeader`.
-/

namespace NestDdd.Config

open JsValue

universe u

/-- The environment of a worker: `clusterApi.fork({ CLUSTER_LEADER })`. -/
def fork (env : Env) (isLeader : Bool) : Env :=
  Function.update env "CLUSTER_LEADER" (some (if isLeader then "true" else "false"))

/-- `config` with another `cluster.isLeader`. -/
def withLeader (config : JsValue) (isLeader : Bool) : JsValue :=
  .object (Properties.set config.fields "cluster"
    (.object (Properties.set (config.get "cluster").fields "isLeader" (.bool isLeader))))

/-- No source takes a secret from `CLUSTER_LEADER`. -/
def secretsElsewhere (env : Env) : Bool :=
  match sourceList (text env "DATABASE_CONFIG_JSON") with
  | .ok (.array items) =>
      items.all fun source => secretEnvFields.all fun field =>
        !isText (source.get (field ++ "Env")) "CLUSTER_LEADER"
  | _ => true

section

variable {rt : Runtime} {env env' : Env} {isLeader : Bool} {config : JsValue}

theorem fork_other {name : String} (h : name ≠ "CLUSTER_LEADER") :
    fork env isLeader name = env name :=
  Function.update_of_ne h ..

theorem fork_leader : fork env isLeader "CLUSTER_LEADER" =
    some (if isLeader then "true" else "false") :=
  Function.update_self ..

/-! ### The files -/

/-- The files of a `NODE_ENV` that is set are read once. -/
theorem loadEnvFiles_fork (h : env "NODE_ENV" ≠ none) :
    loadEnvFiles rt (fork (loadEnvFiles rt env) isLeader) =
      fork (loadEnvFiles rt env) isLeader := by
  obtain ⟨nodeEnv, hnode⟩ := Option.ne_none_iff_exists'.mp h
  have hkept : fork (loadEnvFiles rt env) isLeader "NODE_ENV" = some nodeEnv := by
    rw [fork_other (by decide), loadEnvFiles]
    split
    · exact hnode
    · simp [hnode]
  rw [loadEnvFiles, hkept]
  split
  · rfl
  next htest =>
    funext name
    by_cases hname : name = "CLUSTER_LEADER"
    · subst hname
      simp [fork]
    · rw [fork_other hname, loadEnvFiles, hnode, if_neg htest, Option.or_assoc, Option.or_self]

/-! ### The sources -/

theorem resolveSecretRef_congr {resolved : Properties JsValue} {field : String}
    (h : ∀ ref, JsValue.get (.object resolved) (field ++ "Env") = .string ref →
      env ref = env' ref) :
    resolveSecretRef env resolved field = resolveSecretRef env' resolved field := by
  unfold resolveSecretRef
  split
  next ref _ href => rw [h ref href]
  next => rfl

theorem resolveSecretRef_get {resolved : Properties JsValue} {field name : String}
    (h : name ≠ field) :
    JsValue.get (.object (resolveSecretRef env resolved field)) name =
      JsValue.get (.object resolved) name := by
  unfold resolveSecretRef
  split
  · split
    · rfl
    · rw [JsValue.get, Properties.lookup_set, if_neg h, JsValue.get]
  · rfl

/-- The secrets of a source depend on the variables that it refers to. -/
theorem resolveSecretRefs_congr {source : JsValue}
    (h : ∀ field ∈ secretEnvFields, ∀ ref, source.get (field ++ "Env") = .string ref →
      env ref = env' ref) : resolveSecretRefs env source = resolveSecretRefs env' source := by
  cases source with
  | object fields =>
      refine congrArg JsValue.object ?_
      change resolveSecretRef env (resolveSecretRef env fields "password") "walletPassword" =
        resolveSecretRef env' (resolveSecretRef env' fields "password") "walletPassword"
      rw [resolveSecretRef_congr (h "password" (by decide))]
      refine resolveSecretRef_congr fun ref href => ?_
      rw [resolveSecretRef_get (by decide)] at href
      exact h "walletPassword" (by decide) ref href
  | _ => rfl

theorem parseSources_congr {v : JsValue}
    (h : ∀ items, sourceList v = .ok (.array items) → ∀ source ∈ items, ∀ field ∈ secretEnvFields,
      ∀ ref, source.get (field ++ "Env") = .string ref → env ref = env' ref) :
    parseSources env v = parseSources env' v := by
  unfold parseSources
  cases hlist : sourceList v with
  | error issue => rfl
  | ok list =>
      cases list with
      | array items =>
          have hmap : items.map (resolveSecretRefs env) = items.map (resolveSecretRefs env') :=
            List.map_congr_left fun source hs => resolveSecretRefs_congr (h items hlist source hs)
          simp only [Except.map, hmap]
      | _ => rfl

/-- The sources of a worker are those of the primary. -/
theorem parseSources_fork (h : secretsElsewhere env = true) :
    parseSources (fork env isLeader) (text env "DATABASE_CONFIG_JSON") =
      parseSources env (text env "DATABASE_CONFIG_JSON") := by
  refine parseSources_congr fun items hitems source hs field hfield ref href => fork_other ?_
  rintro rfl
  simp only [secretsElsewhere, hitems, List.all_eq_true] at h
  have hnone := h source hs field hfield
  rw [href] at hnone
  exact absurd hnone (by decide)

/-! ### The sections -/

theorem hydrate_fork : hydrate rt (fork env isLeader) =
    .object (Properties.set (hydrate rt env).fields "cluster"
      (hydrateCluster rt (fork env isLeader))) := by
  simp [hydrate, hydrateDatabase, fork, Properties.set, JsValue.fields, text, switch, list,
    upperList]

theorem hydrate_fork_get {name : String} (h : name ≠ "cluster") :
    (hydrate rt (fork env isLeader)).get name = (hydrate rt env).get name := by
  rw [hydrate_fork, JsValue.get, Properties.lookup_set, if_neg h, JsValue.get_eq_lookup]

/-- A `database` section that the primary accepts is accepted by its workers, unchanged. -/
theorem database_fork {database : JsValue} (hsecrets : secretsElsewhere env = true)
    (h : rt.zod.safeParse (rt.zod.optional (databaseConfigSchema rt.zod env))
      (hydrateDatabase rt env) = .ok database) :
    rt.zod.safeParse (rt.zod.optional (databaseConfigSchema rt.zod (fork env isLeader)))
      (hydrateDatabase rt env) = .ok database := by
  have hreject : ∀ env w, rt.zod.safeParse (databaseConfigSchema rt.zod env) .undefined ≠ .ok w :=
    fun env w hw => Bool.false_ne_true ((rt.zod.object_ok _ _ w).mp hw).1
  unfold hydrateDatabase at h ⊢
  split at h
  next =>
    obtain rfl := (rt.zod.optional_undefined _ _ h).resolve_right (hreject env database)
    exact rt.zod.optional_accepts _ (hreject _)
  next sources hsources =>
    rw [rt.zod.optional_ok _ _ _ (by simp)] at h ⊢
    obtain ⟨results, hresults, rfl⟩ :=
      (Zod.object_iff rfl (by simp [databaseShape, JsValue.has])).mp h
    refine (Zod.object_iff rfl (by simp [databaseShape, JsValue.has])).mpr ⟨results, ?_, rfl⟩
    cases hresults with
    | cons hr hrest =>
        refine .cons ?_ hrest
        obtain ⟨v, hv, hr⟩ := (rt.zod.preprocess_ok _ _ _ _).mp hr
        have hfork := @parseSources_fork env isLeader hsecrets
        rw [text, hsources] at hfork
        exact (rt.zod.preprocess_ok _ _ _ _).mpr ⟨v, hfork.trans hv, hr⟩

theorem switch_flag {name : String} (h : env name = some (if isLeader then "true" else "false")) :
    switch rt env name = .bool isLeader := by
  have hlower : ∀ s ∈ ["true", "false"], rt.lowerCase.lower s = s := by
    intro s hs
    have hascii : ∀ c ∈ s.toList, c.toNat < 128 := by
      have hall : (s.toList.all fun c => c.toNat < 128) = true := by
        rcases List.mem_pair.mp hs with rfl | rfl <;> decide
      exact fun c hc => of_decide_eq_true (List.all_eq_true.mp hall c hc)
    rw [rt.lowerCase.ascii s hascii]
    rcases List.mem_pair.mp hs with rfl | rfl <;> decide
  cases isLeader with
  | true =>
      have htrim : envString (some "true") = some "true" := by decide
      simp [switch, envBool, h, htrim, hlower]
  | false =>
      have htrim : envString (some "false") = some "false" := by decide
      simp [switch, envBool, h, htrim, hlower]

theorem hydrateCluster_fork : hydrateCluster rt (fork env isLeader) =
    .object [("enabled", switch rt env "CLUSTER_ENABLED"), ("workers", text env "CLUSTER_WORKERS"),
      ("respawn", switch rt env "CLUSTER_RESPAWN"),
      ("respawnMaxPerMinute", text env "CLUSTER_RESPAWN_MAX_PER_MINUTE"),
      ("metricsPort", text env "CLUSTER_METRICS_PORT"), ("isLeader", .bool isLeader)] := by
  rw [hydrateCluster, switch_flag fork_leader]
  simp [switch, text, fork]

/-- A `cluster` section that the primary accepts is accepted by its workers, with their flag. -/
theorem cluster_fork {cluster : JsValue}
    (h : rt.zod.safeParse (clusterSchema rt.zod) (hydrateCluster rt env) = .ok cluster) :
    rt.zod.safeParse (clusterSchema rt.zod) (hydrateCluster rt (fork env isLeader)) =
      .ok (.object (Properties.set cluster.fields "isLeader" (.bool isLeader))) := by
  have hhas : ∀ env, ∀ p ∈ clusterShape rt.zod, (hydrateCluster rt env).has p.1 = true := by
    simp [clusterShape, hydrateCluster, JsValue.has]
  obtain ⟨results, hresults, rfl⟩ := (Zod.object_iff rfl (hhas env)).mp h
  simp only [clusterShape, List.forall₂_cons_left_iff, List.forall₂_nil_left_iff] at hresults
  obtain ⟨enabled, _, h₁, ⟨workers, _, h₂, ⟨respawn, _, h₃, ⟨perMinute, _, h₄, ⟨port, _, h₅,
    ⟨leader, _, h₆, rfl, rfl⟩, rfl⟩, rfl⟩, rfl⟩, rfl⟩, rfl⟩ := hresults
  have hleader : rt.zod.safeParse (rt.zod.default rt.zod.boolean (.bool false)) (.bool isLeader) =
      .ok (.bool isLeader) :=
    (rt.zod.default_ok _ _ _ _ (by simp)).mpr
      ⟨.bool isLeader, (rt.zod.boolean_ok _ _).mpr ⟨isLeader, rfl, rfl⟩, rfl⟩
  refine (Zod.object_iff rfl (hhas _)).mpr
    ⟨[enabled, workers, respawn, perMinute, port, .bool isLeader], ?_, ?_⟩
  · rw [hydrateCluster_fork]
    exact .cons h₁ (.cons h₂ (.cons h₃ (.cons h₄ (.cons h₅ (.cons hleader .nil)))))
  · simp [clusterShape, JsValue.fields, Properties.set]

/-- What the primary accepts its workers accept, each with its own flag. -/
theorem validated_fork (hsecrets : secretsElsewhere env = true)
    (h : validated rt env = .ok config) :
    validated rt (fork env isLeader) = .ok (withLeader config isLeader) := by
  have hhas : ∀ env, ∀ p ∈ rootShape rt env, (hydrate rt env).has p.1 = true := by
    simp [rootShape, hydrate, JsValue.has]
  have hparsed : rt.zod.safeParse (rootSchema rt env) (hydrate rt env) = .ok config := by
    unfold validated at h
    split at h
    next hparsed => exact Except.ok.inj h ▸ hparsed
    next => cases h
  obtain ⟨results, hresults, rfl⟩ := (Zod.object_iff rfl (hhas env)).mp hparsed
  simp only [rootShape, List.forall₂_cons_left_iff, List.forall₂_nil_left_iff] at hresults
  obtain ⟨app, _, happ, ⟨logging, _, hlogging, ⟨http, _, hhttp, ⟨httpClient, _, hhttpClient,
    ⟨database, _, hdatabase, ⟨jwt, _, hjwt, ⟨idempotency, _, hidempotency, ⟨legacy, _, hlegacy,
    ⟨metrics, _, hmetrics, ⟨scheduler, _, hscheduler, ⟨shutdown, _, hshutdown, ⟨tls, _, htls,
    ⟨cluster, _, hcluster, rfl, rfl⟩, rfl⟩, rfl⟩, rfl⟩, rfl⟩, rfl⟩, rfl⟩, rfl⟩, rfl⟩, rfl⟩, rfl⟩,
    rfl⟩, rfl⟩ := hresults
  have same {name : String} {s : rt.zod.Schema} {r : JsValue} (hne : name ≠ "cluster")
      (hr : rt.zod.safeParse s ((hydrate rt env).get name) = .ok r) :
      rt.zod.safeParse s ((hydrate rt (fork env isLeader)).get name) = .ok r := by
    rwa [hydrate_fork_get hne]
  have hfork : rt.zod.safeParse (rootSchema rt (fork env isLeader))
      (hydrate rt (fork env isLeader)) =
        .ok (withLeader (.object (((rootShape rt env).map Prod.fst).zip [app, logging, http,
          httpClient, database, jwt, idempotency, legacy, metrics, scheduler, shutdown, tls,
          cluster])) isLeader) := by
    refine (Zod.object_iff rfl (hhas _)).mpr ⟨[app, logging, http, httpClient, database, jwt,
      idempotency, legacy, metrics, scheduler, shutdown, tls,
      .object (Properties.set cluster.fields "isLeader" (.bool isLeader))], ?_, ?_⟩
    · exact .cons (same (by simp) happ) (.cons (same (by simp) hlogging)
        (.cons (same (by simp) hhttp) (.cons (same (by simp) hhttpClient)
        (.cons (same (by simp) (database_fork hsecrets hdatabase)) (.cons (same (by simp) hjwt)
        (.cons (same (by simp) hidempotency) (.cons (same (by simp) hlegacy)
        (.cons (same (by simp) hmetrics) (.cons (same (by simp) hscheduler)
        (.cons (same (by simp) hshutdown) (.cons (same (by simp) htls)
        (.cons (cluster_fork hcluster) .nil))))))))))))
    · have hget : JsValue.get (.object (((rootShape rt env).map Prod.fst).zip [app, logging, http,
          httpClient, database, jwt, idempotency, legacy, metrics, scheduler, shutdown, tls,
          cluster])) "cluster" = cluster := rfl
      rw [withLeader, hget]
      generalize JsValue.object (Properties.set cluster.fields "isLeader" (.bool isLeader)) =
        cluster'
      simp [rootShape, JsValue.fields, Properties.set]
  rw [validated, hfork]

/-- The flag is all that another leader changes. -/
theorem get_withLeader {key section' name : String} (hkey : parts key = [section', name]) :
    get (withLeader config isLeader) key =
      if section' = "cluster" ∧ name = "isLeader" then .bool isLeader else get config key := by
  rw [get_setting hkey, get_setting hkey]
  by_cases hsection : section' = "cluster"
  · subst hsection
    have hcluster : (withLeader config isLeader).get "cluster" = .object
        (Properties.set (config.get "cluster").fields "isLeader" (.bool isLeader)) := by
      rw [withLeader, JsValue.get, Properties.lookup_set, if_pos rfl]
      rfl
    rw [hcluster, JsValue.get, Properties.lookup_set, JsValue.get_eq_lookup (config.get "cluster")]
    by_cases hname : name = "isLeader" <;> simp [hname]
  · rw [withLeader, JsValue.get, Properties.lookup_set, if_neg hsection,
      if_neg (by simp [hsection]), ← JsValue.get_eq_lookup]

/-- The jobs that a process registers under `config`. -/
def registeredJobs {ι : Type u} (config : JsValue) (jobs : List ι) : List ι :=
  Cluster.JobScheduler.onApplicationBootstrap (get config "scheduler.enabled").truthy
    (get config "cluster.enabled").truthy (get config "cluster.isLeader").truthy jobs

theorem registeredJobs_withLeader {ι : Type u} (workerConfig : Cluster.WorkerConfig ι)
    (hscheduler : (get config "scheduler.enabled").truthy = workerConfig.schedulerEnabled)
    (hcluster : get config "cluster.enabled" = .bool true) :
    registeredJobs (withLeader config isLeader) workerConfig.jobs =
      workerConfig.registered isLeader := by
  have hget (key section' name : String) (hkey : parts key = [section', name]) :=
    @get_withLeader isLeader config key section' name hkey
  rw [registeredJobs, hget _ "scheduler" "enabled" (by decide),
    hget _ "cluster" "enabled" (by decide), hget _ "cluster" "isLeader" (by decide),
    if_neg (by decide), if_neg (by decide), if_pos ⟨rfl, rfl⟩, hscheduler, hcluster]
  rfl

/-- **One configuration**: however often a worker loads it, it gets the configuration of the
primary with its own `cluster.isLeader`, and the cron jobs that the primary has in mind for it. -/
theorem one_config (rt : Runtime) (env : Env) (config : JsValue) (isLeader : Bool)
    (h : loadConfig rt env = .ok config) (hnode : env "NODE_ENV" ≠ none)
    (hsecrets : secretsElsewhere (loadEnvFiles rt env) = true) :
    loadConfig rt (fork (loadEnvFiles rt env) isLeader) = .ok (withLeader config isLeader) ∧
      loadConfig rt (loadEnvFiles rt (fork (loadEnvFiles rt env) isLeader)) =
        .ok (withLeader config isLeader) ∧
      (get config "cluster.enabled" = .bool true → ∀ {ι : Type} (c : Cluster.WorkerConfig ι),
        (get config "scheduler.enabled").truthy = c.schedulerEnabled →
          registeredJobs (withLeader config isLeader) c.jobs = c.registered isLeader) := by
  have hfork := @loadEnvFiles_fork rt env isLeader hnode
  have hvalidated := @validated_fork rt (loadEnvFiles rt env) isLeader config hsecrets h
  refine ⟨?_, ?_, fun hcluster _ c hscheduler => registeredJobs_withLeader c hscheduler hcluster⟩
  · rwa [loadConfig, hfork]
  · rwa [loadConfig, hfork, hfork]

end

theorem one_config_two : ∃ config, loadConfig .plain .two = .ok config ∧
    loadConfig .plain (fork (loadEnvFiles .plain .two) true) = .ok (withLeader config true) := by
  obtain ⟨config, hconfig⟩ := accepted_two
  exact ⟨config, hconfig,
    (one_config .plain .two config true hconfig (by decide) (by decide +kernel)).1⟩

end NestDdd.Config

import NestDdd.Database.PoolManager

/-!
# Database — atomicity of a unit of work

A `Program` runs units of work one after the other, and goes on from what each returned; inside a
unit, `Work` nests further units and repository calls in any way.  Evaluating it lists the outermost
runs, each with the runs nested in it.

A write is committed if its connection commits after it, before it rolls back or is closed: closing
a connection rolls back what is pending on it.

* `unit_of_work_atomic`: all writes inside an outermost run and the runs nested in it are committed,
  or none is; and none is if the outermost run returned a failed `Result` or threw.
* `nested_failure_commits`: a nested run joins the outermost one, so its failed `Result` alone rolls
  nothing back.
-/

namespace NestDdd.Database

open Runs Runs.Async

/-! ### Runs and writes -/

/-- A program of units of work on the main source. -/
inductive Program where
  | ret (v : JsValue)
  | throw (e : DbError)
  | unitOfWork (actor : Option String) (work : Work) (next : Except DbError JsValue → Program)

/-- A call of `DatabaseUnitOfWork.run`: the trace before and after it, and how it settled. -/
structure UnitRun where
  before : List DbEvent
  settled : Except DbError JsValue
  after : List DbEvent

/-- A statement that resolved, and the trace before it. -/
structure Write where
  before : List DbEvent
  connection : Conn
  sql : String
  value : JsValue

def Write.event (w : Write) : DbEvent := ⟨.execute w.connection w.sql, .ok w.value⟩

/-- The run threw, or returned a failed `Result`. -/
def UnitRun.failed (u : UnitRun) : Bool :=
  match u.settled with
  | .ok v => v.isFailedResult
  | .error _ => true

/-- The write was made inside the run. -/
def UnitRun.Wrote (u : UnitRun) (w : Write) : Prop :=
  u.before <+: w.before ∧ w.before ++ [w.event] <+: u.after

/-- The runs that work makes inside a transaction on `c`. -/
def Work.nestedRuns (source : OracleSource) (c : Conn) :
    Work → Option Conn → DbEnv → List DbEvent → List UnitRun
  | .ret _, _, _, _ => []
  | .throw _, _, _, _ => []
  | .execute sql next, handed, env, t =>
      match handed with
      | none => []
      | some connection =>
          let ran := Database.execute connection sql env t
          (next ran.1).nestedRuns source c handed env ran.2
  | .withConnection options fn next, handed, env, t =>
      let ran := PoolManager.withConnection source (some c)
        (fun connection => fn.eval source (some c) (some connection)) options env t
      fn.nestedRuns source c (some c) env t ++ (next ran.1).nestedRuns source c handed env ran.2
  | .transaction options fn next, handed, env, t =>
      let ran := PoolManager.transaction source (some c)
        (fun connection => fn.eval source (some c) (some connection)) options env t
      fn.nestedRuns source c (some c) env t ++ (next ran.1).nestedRuns source c handed env ran.2
  | .runInTransaction options work next, handed, env, t =>
      let ran := PoolManager.runInTransaction source (some c)
        (fun store => work.eval source store handed) options env t
      work.nestedRuns source c handed env t ++ (next ran.1).nestedRuns source c handed env ran.2
  | .unitOfWork actor work next, handed, env, t =>
      let ran := DatabaseUnitOfWork.run source (some c)
        (fun store => work.eval source store handed) actor env t
      ⟨t, ran.1, ran.2⟩ :: work.nestedRuns source c handed env t ++
        (next ran.1).nestedRuns source c handed env ran.2

/-- The runs nested in an outermost run. -/
def nestedIn (source : OracleSource) (actor : Option String) (work : Work) (env : DbEnv)
    (t : List DbEvent) : List UnitRun :=
  match OracleClient.handed source (DatabaseUnitOfWork.options actor) env t with
  | some (c, t') => work.nestedRuns source c none env t'
  | none => []

/-- The outermost runs of a program, each with those nested in it; what the program settles with;
and its trace. -/
def Program.eval (source : OracleSource) (env : DbEnv) :
    Program → List DbEvent →
      List (UnitRun × List UnitRun) × Except DbError JsValue × List DbEvent
  | .ret v, t => ([], .ok v, t)
  | .throw e, t => ([], .error e, t)
  | .unitOfWork actor work next, t =>
      let ran := DatabaseUnitOfWork.run source none (fun store => work.eval source store none) actor
        env t
      let rest := (next ran.1).eval source env ran.2
      ((⟨t, ran.1, ran.2⟩, nestedIn source actor work env t) :: rest.1, rest.2)

/-- What is pending on `c` is lost. -/
def Discards (c : Conn) (e : DbEvent) : Prop :=
  e = ⟨.rollback c, .ok ()⟩ ∨ ∃ drop answer, e = ⟨.close c drop, answer⟩

/-- The write is committed in the trace `t`. -/
def Committed (t : List DbEvent) (w : Write) : Prop :=
  ∃ between after, (∀ e ∈ between, ¬ Discards w.connection e) ∧
    t = w.before ++ w.event :: (between ++ ⟨.commit w.connection, .ok ()⟩ :: after)

/-- What the trace `t` makes of the writes of `r`, a run that is, or is nested in, the outermost
run `u`. -/
structure Atomic (t : List DbEvent) (u r : UnitRun) : Prop where
  together : ∀ w w', u.Wrote w → r.Wrote w' → (Committed t w ↔ Committed t w')
  failed : u.failed = true → ∀ w, r.Wrote w → ¬ Committed t w

variable {source : OracleSource} {env : DbEnv} {t : List DbEvent} {c : Conn}

/-! ### Nested runs -/

theorem orRollback_trace (work : DbM JsValue) :
    ((do let result ← work; DatabaseUnitOfWork.orRollback result) env t).2 = (work env t).2 := by
  rw [bind_apply]
  rcases work env t with ⟨r, t'⟩
  cases r with
  | error e => rfl
  | ok v => cases hv : v.isFailedResult <;> simp [DatabaseUnitOfWork.orRollback, hv]

/-- A joined run makes the trace of its work. -/
theorem run_joined_trace (work : Store → DbM JsValue) (actor : Option String) :
    (DatabaseUnitOfWork.run source (some c) work actor env t).2 = (work (some c) env t).2 := by
  rw [← orRollback_trace (work (some c))]
  rcases hx : (do let result ← work (some c); DatabaseUnitOfWork.orRollback result : DbM JsValue)
    env t with ⟨r, t'⟩
  cases r with
  | ok v => exact congrArg Prod.snd (catchError_ok env t hx)
  | error e =>
      refine (congrArg Prod.snd (catchError_error env t hx)).trans ?_
      cases e <;> rfl

/-- A joined call makes the trace of its function. -/
theorem mapErrors_trace (tag : Option String) (x : DbM JsValue) :
    (OracleClient.mapErrors source tag x env t).2 = (x env t).2 := by
  rw [OracleClient.mapErrors_apply]

theorem eval_extends (work : Work) {handed : Option Conn} (hh : handed = none ∨ handed = some c) :
    t <+: (work.eval source (some c) handed env t).2 := by
  obtain ⟨added, hadded, -⟩ := @eval_joined source c work handed hh env t
  exact ⟨added, hadded.symm⟩

/-- The run lies between two traces. -/
def UnitRun.Within (r : UnitRun) (t t' : List DbEvent) : Prop := t <+: r.before ∧ r.after <+: t'

/-- The runs nested in a joined call, and in what goes on from it. -/
theorem within_call {inner rest : Work} {handed handed' : Option Conn}
    (hh : handed = none ∨ handed = some c) (hh' : handed' = none ∨ handed' = some c)
    {t' : List DbEvent} (ht' : t' = (inner.eval source (some c) handed' env t).2)
    (hinner : ∀ r ∈ inner.nestedRuns source c handed' env t,
      r.Within t (inner.eval source (some c) handed' env t).2)
    (hrest : ∀ r ∈ rest.nestedRuns source c handed env t',
      r.Within t' (rest.eval source (some c) handed env t').2) :
    ∀ r ∈ inner.nestedRuns source c handed' env t ++ rest.nestedRuns source c handed env t',
      r.Within t (rest.eval source (some c) handed env t').2 := by
  intro r hr
  rcases List.mem_append.mp hr with hr | hr
  · obtain ⟨hb, ha⟩ := hinner r hr
    exact ⟨hb, (ht' ▸ ha).trans (eval_extends rest hh)⟩
  · obtain ⟨hb, ha⟩ := hrest r hr
    exact ⟨(ht' ▸ eval_extends inner hh').trans hb, ha⟩

/-- A nested run lies in the trace of the work that makes it. -/
theorem nestedRuns_within (work : Work) {handed : Option Conn}
    (hh : handed = none ∨ handed = some c) {t : List DbEvent} :
    ∀ r ∈ work.nestedRuns source c handed env t,
      r.Within t (work.eval source (some c) handed env t).2 := by
  induction work generalizing handed t with
  | ret v => exact fun r hr => nomatch hr
  | throw e => exact fun r hr => nomatch hr
  | execute sql next ih =>
      rcases hh with rfl | rfl
      · exact fun r hr => nomatch hr
      · intro r hr
        obtain ⟨hb, ha⟩ := ih _ (.inr rfl) r hr
        exact ⟨(List.prefix_append _ _).trans hb, ha⟩
  | withConnection options fn next ihfn ih =>
      have hrun := @mapErrors_trace source env t options.tag (fn.eval source (some c) (some c))
      exact within_call hh (.inr rfl) hrun (ihfn (.inr rfl)) (ih _ hh)
  | transaction options fn next ihfn ih =>
      have hrun := @mapErrors_trace source env t options.tag (fn.eval source (some c) (some c))
      exact within_call hh (.inr rfl) hrun (ihfn (.inr rfl)) (ih _ hh)
  | runInTransaction options work next ihw ih =>
      exact within_call hh hh rfl (ihw hh) (ih _ hh)
  | unitOfWork actor work next ihw ih =>
      have hrun := @run_joined_trace source env t c (fun store => work.eval source store handed)
        actor
      intro r hr
      rcases List.mem_cons.mp hr with rfl | hr
      · exact ⟨List.prefix_rfl, eval_extends (next _) hh⟩
      · exact within_call hh hh hrun (ihw hh) (ih _ hh) r hr

/-! ### One outermost run -/

/-- A list cut at an element that is in the middle of its three parts. -/
theorem split_mid {α : Type} {a b c pre rest : List α} {x : α}
    (h : a ++ b ++ c = pre ++ x :: rest) (ha : x ∉ a) (hc : x ∉ c) :
    ∃ b₁ b₂, b = b₁ ++ x :: b₂ ∧ pre = a ++ b₁ ∧ rest = b₂ ++ c := by
  rcases List.append_eq_append_iff.mp h with ⟨as, -, rfl⟩ | ⟨bs, hab, hbs⟩
  · exact absurd (by simp) hc
  · cases bs with
    | nil =>
        rw [List.nil_append] at hbs
        exact absurd (hbs ▸ List.mem_cons_self) hc
    | cons y bs =>
        obtain ⟨rfl, rfl⟩ := List.cons.inj hbs
        rcases List.append_eq_append_iff.mp hab with ⟨as, rfl, rfl⟩ | ⟨cs, rfl, hcs⟩
        · exact ⟨as, bs, rfl, rfl, rfl⟩
        · cases cs with
          | nil => exact ⟨[], bs, hcs.symm, by simp, rfl⟩
          | cons z cs =>
              obtain ⟨rfl, -⟩ := List.cons.inj hcs
              exact absurd (by simp) ha

/-- A list cut at an element that is not in its first part. -/
theorem prefix_of_cut {α : Type} {a b pre rest : List α} {x : α} (h : a ++ b = pre ++ x :: rest)
    (ha : x ∉ a) : a <+: pre := by
  rcases List.append_eq_append_iff.mp h with ⟨as, rfl, -⟩ | ⟨bs, rfl, hbs⟩
  · exact List.prefix_append _ _
  · cases bs with
    | nil => simp
    | cons y bs =>
        obtain ⟨rfl, -⟩ := List.cons.inj hbs
        exact absurd (by simp) ha

/-- What `run` does with what its transaction settled as. -/
theorem run_apply (work : Store → DbM JsValue) (actor : Option String) :
    DatabaseUnitOfWork.run source none work actor env t =
      ((match (PoolManager.runInTransaction source none
          (fun store => do let result ← work store; DatabaseUnitOfWork.orRollback result)
          (DatabaseUnitOfWork.options actor) env t).1 with
        | .error (.rollbackWithResult result) => .ok result
        | settled => settled),
      (PoolManager.runInTransaction source none
          (fun store => do let result ← work store; DatabaseUnitOfWork.orRollback result)
          (DatabaseUnitOfWork.options actor) env t).2) := by
  rcases h : PoolManager.runInTransaction source none
    (fun store => do let result ← work store; DatabaseUnitOfWork.orRollback result)
    (DatabaseUnitOfWork.options actor) env t with ⟨r, t'⟩
  cases r with
  | ok v => exact catchError_ok env t h
  | error e =>
      refine (catchError_error env t h).trans ?_
      cases e <;> rfl

/-- A work that resolves under `orRollback` did not return a failed `Result`. -/
theorem orRollback_ok {work : DbM JsValue} {v : JsValue}
    (h : ((do let result ← work; DatabaseUnitOfWork.orRollback result) env t).1 = .ok v) :
    v.isFailedResult = false := by
  rw [bind_apply] at h
  rcases hw : work env t with ⟨r, t'⟩
  rw [hw] at h
  cases r with
  | error e => cases h
  | ok result =>
      cases hf : result.isFailedResult with
      | true => simp [DatabaseUnitOfWork.orRollback, hf] at h
      | false =>
          simp only [DatabaseUnitOfWork.orRollback, hf, Bool.false_eq_true, if_false,
            pure_apply] at h
          cases h
          exact hf

/-- The trace of an outermost run that borrowed `c`: what came before its work ran, at `start`, what
its work ran, how that was settled, and the close. -/
structure Ran (u : UnitRun) (c : Conn) (start body settling ending : List DbEvent)
    (result : Except DbError JsValue) : Prop where
  opening : ∃ opening, start = u.before ++ opening ∧ ∀ e ∈ opening, e.1.kind ≠ .execute
  trace : u.after = start ++ body ++ (settling ++ ending)
  body : ∀ e ∈ body, ExecutesOn c e
  settles : ∃ settled, Settles c settled settling result
  closes : Closes c ending
  failed : u.failed = true → ∃ e, result = .error e

/-- An outermost run either runs no statement, or it has borrowed a connection. -/
theorem run_cases (actor : Option String) (work : Work) {settled : Except DbError JsValue}
    {t' : List DbEvent} (h : DatabaseUnitOfWork.run source none
      (fun store => work.eval source store none) actor env t = (settled, t')) :
    (nestedIn source actor work env t = [] ∧
      ∃ added, t' = t ++ added ∧ ∀ e ∈ added, e.1.kind ≠ .execute) ∨
      ∃ c start body settling ending result,
        nestedIn source actor work env t = work.nestedRuns source c none env start ∧
        (work.eval source (some c) none env start).2 = start ++ body ∧
        Ran ⟨t, settled, t'⟩ c start body settling ending result := by
  rw [run_apply] at h
  obtain ⟨hsettled, htrace⟩ := Prod.mk.inj h
  simp only [PoolManager.runInTransaction] at hsettled htrace
  cases huser : resolveContextUser source (DatabaseUnitOfWork.options actor) with
  | error e =>
      -- the context user does not resolve, so no connection is borrowed
      rw [OracleClient.transaction, OracleClient.withConnection_unresolved env t huser] at htrace
      exact .inl ⟨by simp only [nestedIn, OracleClient.handed, huser], [], by simp [← htrace],
        by simp⟩
  | ok user =>
      cases hget : env t .getConnection with
      | error e =>
          rw [OracleClient.transaction, OracleClient.withConnection_refused env t huser hget]
            at htrace
          exact .inl ⟨by simp only [nestedIn, OracleClient.handed, huser, hget], _, htrace.symm,
            by simp [DbCall.kind]⟩
      | ok c =>
          right
          obtain ⟨opening, settling, ending, result, hopen, hhanded, hsettles, hclose, hrun⟩ :=
            @OracleClient.transaction_borrowed _ source (DatabaseUnitOfWork.options actor)
              (fun connection => do
                let result ← work.eval source (some connection) none
                DatabaseUnitOfWork.orRollback result) env t user c huser hget
          let start := t ++ ⟨.getConnection, .ok c⟩ :: opening
          obtain ⟨body, hbody, hexec⟩ := @eval_joined source c work none (.inl rfl) env start
          have htail : ((do
              let result ← work.eval source (some c) none
              DatabaseUnitOfWork.orRollback result) env start).2 = start ++ body :=
            (orRollback_trace _).trans hbody
          rw [hrun] at hsettled htrace
          rw [htail] at htrace
          refine ⟨c, start, body, settling, ending, result, by simp only [nestedIn, hhanded, start],
            hbody, ⟨⟨.getConnection, .ok c⟩ :: opening, rfl, ?_⟩, ?_, hexec, ⟨_, hsettles⟩,
            hclose.closes, fun hf => ?_⟩
          · intro e he
            rcases List.mem_cons.mp he with rfl | he
            · simp [DbCall.kind]
            · rw [hopen.other e he]; decide
          · simp only [← htrace, List.append_assoc]
          · cases result with
            | error e => exact ⟨e, rfl⟩
            | ok v =>
                obtain rfl : settled = .ok v := hsettled.symm
                have hv : v.isFailedResult = false :=
                  orRollback_ok ((hsettles.resolved_iff v).mp rfl).1
                exact absurd (hv.symm.trans hf) Bool.false_ne_true

section

variable {u : UnitRun} {start body settling ending : List DbEvent}
  {result : Except DbError JsValue} (h : Ran u c start body settling ending result)

include h

/-- A write of an outermost run is in its body, and what follows it in the run only runs
statements, settles and closes. -/
theorem Ran.wrote {w : Write} (hw : u.Wrote w) :
    w.connection = c ∧ ∃ rest, (∀ e ∈ rest, ExecutesOn c e) ∧
      u.after = w.before ++ w.event :: (rest ++ (settling ++ ending)) := by
  obtain ⟨opening, rfl, hopen⟩ := h.opening
  obtain ⟨settled, hsettles⟩ := h.settles
  obtain ⟨⟨extra, hextra⟩, rest, hrest⟩ := hw
  have htail : times .execute (settling ++ ending) = 0 := by
    rw [times_append, hsettles.times_zero (by decide) (by decide) (by decide),
      times_closes (by decide) h.closes]
    rfl
  have hcut : opening ++ body ++ (settling ++ ending) = extra ++ w.event :: rest := by
    have := h.trace.symm.trans hrest.symm
    simpa [← hextra] using this
  -- only the body runs statements, so the write is in it
  obtain ⟨b₁, b₂, rfl, rfl, rfl⟩ := split_mid hcut (fun hm => hopen _ hm rfl) fun hm =>
    kind_ne_of_times htail hm rfl
  obtain ⟨sql, hsql⟩ := h.body w.event (by simp)
  refine ⟨(DbCall.execute.inj hsql).1, b₂, fun e he => h.body e (by simp [he]), ?_⟩
  rw [← hrest, List.append_assoc, List.singleton_append]

/-- A run that resolved has committed its writes. -/
theorem Ran.committed {v : JsValue} (hok : result = .ok v) {w : Write} (hw : u.Wrote w)
    (later : List DbEvent) : Committed (u.after ++ later) w := by
  subst hok
  obtain ⟨settled, hsettles⟩ := h.settles
  obtain ⟨hc, rest, hrest, htrace⟩ := h.wrote hw
  generalize hr : (Except.ok v : Except DbError JsValue) = r at hsettles
  cases hsettles with
  | refused => cases hr
  | failed => cases hr
  | committed v' =>
      refine ⟨rest, ending ++ later, fun e he => ?_, by rw [htrace, hc]; simp⟩
      obtain ⟨sql, hsql⟩ := hrest e he
      rintro (rfl | ⟨drop, answer, rfl⟩) <;> cases hsql

/-- A run that rejected commits none of its writes, whatever happens later. -/
theorem Ran.not_committed {e : DbError} (herr : result = .error e) {w : Write} (hw : u.Wrote w)
    (later : List DbEvent) : ¬ Committed (u.after ++ later) w := by
  subst herr
  obtain ⟨settled, hsettles⟩ := h.settles
  obtain ⟨hc, rest, hrest, htrace⟩ := h.wrote hw
  rintro ⟨between, after, hno, heq⟩
  rw [htrace, List.append_assoc, List.cons_append, List.append_cancel_left_eq, List.cons.injEq]
    at heq
  have hcommit : ⟨.commit w.connection, .ok ()⟩ ∉ rest ++ (settling ++ ending) := by
    rw [hc]
    intro hm
    rcases List.mem_append.mp hm with hm | hm
    · obtain ⟨sql, hsql⟩ := hrest _ hm
      cases hsql
    · rcases List.mem_append.mp hm with hm | hm
      · exact hsettles.no_commit hm
      · have : times .commit ending = 0 := times_closes (by decide) h.closes
        exact kind_ne_of_times this hm rfl
  -- there is no commit up to the close, which discards the write
  obtain ⟨before, drop, answer, tail, hending, -, -⟩ := h.closes
  have hclose : ⟨.close c drop, answer⟩ ∈ rest ++ (settling ++ ending) := by simp [hending]
  exact hno _ ((prefix_of_cut heq.2 hcommit).subset hclose) (hc ▸ .inr ⟨drop, answer, rfl⟩)

end

/-- **One outermost run**: whatever happens after it, its writes are committed together or not at
all, and not at all if it failed. -/
theorem unit_atomic (actor : Option String) (work : Work) {settled : Except DbError JsValue}
    {t' : List DbEvent} (h : DatabaseUnitOfWork.run source none
      (fun store => work.eval source store none) actor env t = (settled, t')) {r : UnitRun}
    (hr : r = ⟨t, settled, t'⟩ ∨ r ∈ nestedIn source actor work env t) (later : List DbEvent) :
    Atomic (t' ++ later) ⟨t, settled, t'⟩ r := by
  rcases run_cases actor work h with ⟨hnested, added, rfl, hadded⟩ |
    ⟨c, start, body, settling, ending, result, hnested, hbody, hran⟩
  · rw [hnested] at hr
    obtain rfl := hr.resolve_right (nomatch ·)
    -- a run that got no connection has no writes
    have hno : ∀ w, ¬ UnitRun.Wrote ⟨t, settled, t ++ added⟩ w := by
      rintro w ⟨⟨extra, hextra⟩, rest, hrest⟩
      have hcut : added = extra ++ w.event :: rest := by simpa [← hextra] using hrest.symm
      exact hadded w.event (by simp [hcut]) rfl
    exact ⟨fun w _ hw => absurd hw (hno w), fun _ w hw => absurd hw (hno w)⟩
  · -- a write of a nested run is one of the outermost run
    have hwrote : ∀ w, r.Wrote w → UnitRun.Wrote ⟨t, settled, t'⟩ w := by
      intro w hw
      rcases hr with rfl | hr
      · exact hw
      · rw [hnested] at hr
        obtain ⟨hb, ha⟩ := nestedRuns_within work (.inl rfl) r hr
        obtain ⟨opening, rfl, -⟩ := hran.opening
        refine ⟨((List.prefix_append _ _).trans hb).trans hw.1, (hw.2.trans ha).trans ?_⟩
        rw [hbody, hran.trace]
        exact List.prefix_append _ _
    cases result with
    | ok v =>
        have hall : ∀ w, UnitRun.Wrote ⟨t, settled, t'⟩ w → Committed (t' ++ later) w :=
          fun w hw => hran.committed rfl hw later
        refine ⟨fun w w' hw hw' => iff_of_true (hall w hw) (hall w' (hwrote w' hw')), fun hf => ?_⟩
        obtain ⟨e, he⟩ := hran.failed hf
        cases he
    | error e =>
        have hnone : ∀ w, UnitRun.Wrote ⟨t, settled, t'⟩ w → ¬ Committed (t' ++ later) w :=
          fun w hw => hran.not_committed rfl hw later
        exact ⟨fun w w' hw hw' => iff_of_false (hnone w hw) (hnone w' (hwrote w' hw')),
          fun _ w hw => hnone w (hwrote w hw)⟩

/-! ### Programs -/

theorem run_extends (actor : Option String) (work : Work) :
    t <+: (DatabaseUnitOfWork.run source none (fun store => work.eval source store none) actor
      env t).2 := by
  rcases run_cases actor work rfl with ⟨-, added, ht, -⟩ | ⟨c, start, _, _, _, _, -, -, hran⟩
  · exact ⟨added, ht.symm⟩
  · obtain ⟨opening, rfl, -⟩ := hran.opening
    exact ⟨_, ((List.append_assoc ..).symm.trans (List.append_assoc ..).symm).trans hran.trace.symm⟩

theorem program_extends (p : Program) : ∀ {t : List DbEvent}, t <+: (p.eval source env t).2.2 := by
  induction p with
  | ret v => exact List.prefix_rfl
  | throw e => exact List.prefix_rfl
  | unitOfWork actor work next ih => exact (run_extends actor work).trans (ih _)

/-- **Atomicity, for every nesting.**  In every program of units of work, the writes made inside an
outermost run and the runs nested in it are committed together or not at all, whatever the nested
runs returned or threw; and not at all if the outermost run failed. -/
theorem unit_of_work_atomic (source : OracleSource) (env : DbEnv) (p : Program) (t : List DbEvent) :
    ∀ u ∈ (p.eval source env t).1, ∀ r ∈ u.1 :: u.2, Atomic (p.eval source env t).2.2 u.1 r := by
  induction p generalizing t with
  | ret v => exact fun u hu => nomatch hu
  | throw e => exact fun u hu => nomatch hu
  | unitOfWork actor work next ih =>
      rcases hran : DatabaseUnitOfWork.run source none
        (fun store => work.eval source store none) actor env t with ⟨settled, t'⟩
      intro u hu r hr
      simp only [Program.eval, hran] at hu ⊢
      rcases List.mem_cons.mp hu with rfl | hu
      · obtain ⟨later, hlater⟩ := @program_extends source env (next settled) t'
        rw [← hlater]
        exact unit_atomic actor work hran (List.mem_cons.mp hr) later
      · exact ih _ _ u hu r hr

/-- A driver that lends connection 7 and answers every call. -/
def answers : DbEnv := fun _ c =>
  match c with
  | .getConnection => .ok 7
  | .execute _ _ => .ok .undefined
  | .setCallTimeout _ _ | .setClientId _ _ | .commit _ | .rollback _ | .ping _ | .close _ _
  | .warn _ => .ok ()

/-- The outer unit ignores the failed `Result` that the inner one returned after its insert. -/
def ignoresNested : Program :=
  .unitOfWork (some "alice")
    (.unitOfWork none (.insert "INSERT" fun _ => .ret (.err .undefined)) fun _ =>
      .ret (.ok .undefined))
    fun _ => .ret .undefined

/-- The insert of `ignoresNested`. -/
def ignoredInsert : Write where
  before := [⟨.getConnection, .ok 7⟩, ⟨.setClientId 7 "alice", .ok ()⟩]
  connection := 7
  sql := "INSERT"
  value := .undefined

/-- The inner run of `ignoresNested`. -/
def ignoredRun : UnitRun where
  before := ignoredInsert.before
  settled := .ok (.err .undefined)
  after := ignoredInsert.before ++ [ignoredInsert.event]

/-- The failed inner run shares the fate of the outer one. -/
theorem unit_of_work_atomic_nested :
    ∃ u : UnitRun, u.failed = false ∧ ignoredRun.failed = true ∧
      Atomic (ignoresNested.eval .main answers []).2.2 u ignoredRun :=
  ⟨_, rfl, rfl, unit_of_work_atomic .main answers ignoresNested [] (_, [ignoredRun])
    List.mem_cons_self ignoredRun (by simp)⟩

/-- **A nested failure alone rolls nothing back.**  The insert of a run that returned a failed
`Result` is committed. -/
theorem nested_failure_commits :
    ¬ ∀ (env : DbEnv) (p : Program), ∀ u ∈ (p.eval .main env []).1, ∀ r ∈ u.1 :: u.2,
      r.failed = true → ∀ w, r.Wrote w → ¬ Committed (p.eval .main env []).2.2 w := by
  intro h
  refine h answers ignoresNested (_, [ignoredRun]) List.mem_cons_self ignoredRun (by simp) rfl
    ignoredInsert ⟨List.prefix_rfl, List.prefix_rfl⟩ ⟨[], _, by simp, rfl⟩

end NestDdd.Database

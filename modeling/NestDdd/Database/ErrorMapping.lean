import NestDdd.Database.PoolManager

/-!
# Database — mapping errors more than once

`mapOracleError` (`src/infrastructure/database/clients/oracle/oracle-error.mapper.ts`) is asked at
every level: what an error has become when it reaches the caller of a unit of work through the calls
that joined it, each of which maps it.

* `map_map_iff`: an error is mapped once, unless it is wrapped in a `DatabaseExecutionError`, which
  has a `code` like the driver's own and so is wrapped again.
* `unit_reports`: what the caller of a unit of work gets.
* `mapped_once_iff`: which errors are mapped once, and which reach the caller of a unit of work as
  they would outside one.
-/

namespace NestDdd.Database

open Runs Runs.Async NestDdd.JsValue

namespace DbError

/-! ### Mapping twice -/

variable {stringOf : JsValue → String} {error : DbError}

/-- An error without a code passes. -/
theorem map_falsy (h : (error.oracleCode stringOf).truthy = false) (s : String)
    (tag : Option String) : error.mapOracleError stringOf s tag = error := by
  simp [mapOracleError, h]

/-- What has neither property has no code. -/
theorem isOracleLikeError_of_truthy (h : (error.oracleCode stringOf).truthy = true) :
    error.isOracleLikeError = true := by
  by_contra hlike
  simp only [isOracleLikeError, Bool.or_eq_true, not_or, Option.not_isSome_iff_eq_none] at hlike
  simp [oracleCode, hlike.1, hlike.2, coalesce, truthy] at h

theorem map_truthy (h : (error.oracleCode stringOf).truthy = true) (s : String)
    (tag : Option String) : error.mapOracleError stringOf s tag =
      if hasCode ["ORA-00001"] (error.oracleCode stringOf) then
        .conflict "Duplicate value" (error.oracleCode stringOf) s tag
      else if hasCode connectionCodes (error.oracleCode stringOf) then .connection s error
      else .execution s tag error (error.oracleCode stringOf) := by
  simp [mapOracleError, isOracleLikeError_of_truthy h, h]

/-- A `DatabaseExecutionError` has its cause's code. -/
theorem oracleCode_execution {code : JsValue} (hcode : code.truthy = true) (s : String)
    (tag : Option String) (cause : DbError) :
    (execution s tag cause code).oracleCode stringOf = code := by
  cases code <;> first | rfl | cases hcode

/-- The code of an error that is wrapped in a `DatabaseExecutionError`. -/
def IsWrapped (code : JsValue) : Prop :=
  code.truthy = true ∧ hasCode ["ORA-00001"] code = false ∧ hasCode connectionCodes code = false

theorem hasCode_cons (code : String) (codes : List String) (v : JsValue) :
    hasCode (code :: codes) v = (hasCode [code] v || hasCode codes v) := by
  cases v with
  | string s => simp [hasCode]
  | _ => rfl

theorem not_isWrapped {code : JsValue} : ¬ IsWrapped code ↔
    code.truthy = false ∨ hasCode ("ORA-00001" :: connectionCodes) code = true := by
  rw [IsWrapped, hasCode_cons "ORA-00001" connectionCodes]
  cases code.truthy <;> cases hasCode ["ORA-00001"] code <;>
    cases hasCode connectionCodes code <;> simp

theorem map_wrapped (h : IsWrapped (error.oracleCode stringOf)) (s : String)
    (tag : Option String) : error.mapOracleError stringOf s tag =
      .execution s tag error (error.oracleCode stringOf) := by
  rw [map_truthy h.1, h.2.1, h.2.2]
  rfl

/-- A wrapped error is wrapped again. -/
theorem map_map_wrapped (h : IsWrapped (error.oracleCode stringOf)) (s : String)
    (tag tag' : Option String) :
    (error.mapOracleError stringOf s tag).mapOracleError stringOf s tag' =
      .execution s tag' (.execution s tag error (error.oracleCode stringOf))
        (error.oracleCode stringOf) := by
  have hcode : (execution s tag error (error.oracleCode stringOf)).oracleCode stringOf =
      error.oracleCode stringOf := oracleCode_execution h.1 s tag error
  rw [map_wrapped h, map_wrapped (by rw [hcode]; exact h), hcode]

theorem execution_ne (s : String) (tag : Option String) (cause : DbError) (code : JsValue) :
    execution s tag cause code ≠ cause := by
  intro h
  have hsize := congrArg sizeOf h
  simp at hsize
  omega

/-- An error that is not wrapped is mapped once. -/
theorem map_map_of_not_wrapped (h : ¬ IsWrapped (error.oracleCode stringOf)) (s : String)
    (tag tag' : Option String) :
    (error.mapOracleError stringOf s tag).mapOracleError stringOf s tag' =
      error.mapOracleError stringOf s tag := by
  cases hcode : (error.oracleCode stringOf).truthy with
  | false => rw [map_falsy hcode, map_falsy hcode]
  | true =>
      rw [map_truthy hcode]
      split
      next => rfl
      next hconflict =>
        split
        next => rfl
        next hconnection =>
          exact absurd ⟨hcode, Bool.eq_false_iff.mpr hconflict, Bool.eq_false_iff.mpr hconnection⟩ h

theorem map_map_iff : (∀ s tag tag', (error.mapOracleError stringOf s tag).mapOracleError stringOf s
    tag' = error.mapOracleError stringOf s tag) ↔ ¬ IsWrapped (error.oracleCode stringOf) := by
  constructor
  · intro h hwrapped
    have htwice := h "" none none
    rw [map_map_wrapped hwrapped, map_wrapped hwrapped] at htwice
    exact execution_ne _ _ _ _ (execution.inj htwice).2.2.1
  · intro h s tag tag'
    exact map_map_of_not_wrapped h s tag tag'

/-- An error that has a code does not pass. -/
theorem map_ne_of_truthy (h : (error.oracleCode stringOf).truthy = true) (s : String)
    (tag : Option String) : error.mapOracleError stringOf s tag ≠ error := by
  rw [map_truthy h]
  intro heq
  split at heq
  · rw [← heq] at h
    cases h
  · split at heq
    · rw [← heq] at h
      cases h
    · exact execution_ne _ _ _ _ heq

end DbError

/-! ### Through a unit of work -/

/-- A call that raises `error`, in a transaction or outside one. -/
def raising (source : OracleSource) (error : DbError) (options : ConnectionOptions)
    (store : Store) : DbM JsValue :=
  PoolManager.withConnection source store (fun _ => reject error) options

/-- `work` inside calls of its own, the first of them outermost. -/
def nested (source : OracleSource) (store : Store) :
    List ConnectionOptions → DbM JsValue → DbM JsValue
  | [], work => work
  | options :: between, work =>
      PoolManager.withConnection source store (fun _ => nested source store between work) options

/-- A unit of work under `outer`, in which a call under `inner`, inside the calls `between`, raises
`error`. -/
def unitRaising (source : OracleSource) (error : DbError) (outer : ConnectionOptions)
    (between : List ConnectionOptions) (inner : ConnectionOptions) : DbM JsValue :=
  PoolManager.runInTransaction source none
    (fun store => nested source store between (raising source error inner store)) outer

/-- A call under `options` gets its connection. -/
def Borrows (source : OracleSource) (options : ConnectionOptions) (env : DbEnv)
    (t : List DbEvent) : Prop :=
  (∃ user, resolveContextUser source options = .ok user) ∧ ∃ c, env t .getConnection = .ok c

variable {source : OracleSource} {error : DbError} {outer inner : ConnectionOptions}
  {between : List ConnectionOptions} {env : DbEnv} {t : List DbEvent}

/-- Outside a unit of work the error is mapped once. -/
theorem raising_reports (h : Borrows source inner env t) :
    (raising source error inner none env t).1 =
      .error (OracleClient.mapError source error inner.tag) := by
  obtain ⟨⟨user, huser⟩, c, hget⟩ := h
  obtain ⟨opening, ending, -, -, -, hrun⟩ := @OracleClient.withConnection_borrowed JsValue source
    inner (fun _ => reject error) env t user c huser hget
  rw [raising, PoolManager.withConnection, hrun]
  rfl

/-- In a transaction each call maps it, from the inside out. -/
theorem nested_reports (c : Conn) (e : DbError) {work : DbM JsValue}
    (hwork : ∀ env t, (work env t).1 = .error e) (env : DbEnv) (t : List DbEvent) :
    (nested source (some c) between work env t).1 = .error
      (between.foldr (fun options e => OracleClient.mapError source e options.tag) e) := by
  induction between with
  | nil => exact hwork env t
  | cons options between ih =>
      rw [nested, PoolManager.withConnection, PoolManager.runJoined, OracleClient.mapErrors_apply,
        ih]
      rfl

/-- **What the caller of a unit of work gets.** -/
theorem unit_reports (h : Borrows source outer env t) :
    (unitRaising source error outer between inner env t).1 = .error
      ((outer :: between).foldr (fun options e => OracleClient.mapError source e options.tag)
        (OracleClient.mapError source error inner.tag)) := by
  obtain ⟨⟨user, huser⟩, c, hget⟩ := h
  obtain ⟨opening, settling, ending, result, -, -, hsettles, -, hrun⟩ :=
    @OracleClient.transaction_borrowed JsValue source outer
      (fun connection => nested source (some connection) between
        (raising source error inner (some connection))) env t user c huser hget
  rw [nested_reports c (OracleClient.mapError source error inner.tag)
    (fun env t => by rw [raising, PoolManager.withConnection, PoolManager.runJoined,
      OracleClient.mapErrors_apply]; rfl)] at hsettles
  cases hsettles
  rw [unitRaising, PoolManager.runInTransaction, hrun]
  rfl

/-- Whatever raises `error` in a unit of work on `source`, through however many calls, its caller
gets what the caller of the innermost call would get outside a unit of work. -/
def ReachesCaller (source : OracleSource) (error : DbError) : Prop :=
  ∀ outer between inner env t env' t', Borrows source outer env t → Borrows source inner env' t' →
    (unitRaising source error outer between inner env t).1 =
      (raising source error inner none env' t').1

theorem reachesCaller_of_not_wrapped (h : ¬ DbError.IsWrapped (error.oracleCode source.stringOf)) :
    ReachesCaller source error := by
  intro outer between inner env t env' t' houter hinner
  rw [unit_reports houter, raising_reports hinner]
  refine congrArg Except.error ?_
  induction outer :: between with
  | nil => rfl
  | cons options rest ih =>
      rw [List.foldr_cons, ih]
      exact DbError.map_map_of_not_wrapped h source.key inner.tag options.tag

/-- The options of a call for a user. -/
def somebody (tag : String) : ConnectionOptions := ⟨some "alice", none, some tag, none⟩

theorem borrows_somebody (source : OracleSource) (tag : String) :
    Borrows source (somebody tag) lends [] := by
  have htrim : trim "alice" ≠ "" := by decide
  refine ⟨?_, 0, rfl⟩
  cases henabled : source.contextUser.enabled with
  | false => exact ⟨none, by simp [resolveContextUser, henabled]⟩
  | true => exact ⟨_, by simp [resolveContextUser, henabled, somebody, htrim]; rfl⟩

/-- A wrapped error reaches the caller under the tag of the unit of work, and not under its own. -/
theorem not_reachesCaller_of_wrapped (h : DbError.IsWrapped (error.oracleCode source.stringOf)) :
    ¬ ReachesCaller source error := by
  intro hreach
  have heq := hreach (somebody "unit") [] (somebody "call") lends [] lends []
    (borrows_somebody source "unit") (borrows_somebody source "call")
  rw [unit_reports (borrows_somebody source "unit"),
    raising_reports (borrows_somebody source "call"), List.foldr_cons, List.foldr_nil,
    OracleClient.mapError, OracleClient.mapError, DbError.map_map_wrapped h,
    DbError.map_wrapped h] at heq
  have htags := (DbError.execution.inj (Except.error.inj heq)).2.1
  simp [somebody] at htags

/-- An error is mapped once, however often it is mapped for a source; and what is an `AppError` or a
`DomainError` already is not mapped at all. -/
structure MappedOnce (stringOf : JsValue → String) (error : DbError) : Prop where
  once : ∀ s tag tag', (error.mapOracleError stringOf s tag).mapOracleError stringOf s tag' =
    error.mapOracleError stringOf s tag
  passes : error.isPresentable = true → ∀ s tag, error.mapOracleError stringOf s tag = error

theorem mappedOnce_iff {stringOf : JsValue → String} {error : DbError} :
    MappedOnce stringOf error ↔ (error.oracleCode stringOf).truthy = false ∨
      (error.isPresentable = false ∧
        hasCode ("ORA-00001" :: connectionCodes) (error.oracleCode stringOf) = true) := by
  rw [DbError.hasCode_cons "ORA-00001" connectionCodes]
  constructor
  · intro h
    cases hcode : (error.oracleCode stringOf).truthy with
    | false => exact .inl rfl
    | true =>
        refine .inr ⟨?_, ?_⟩
        · by_contra hpresentable
          have hpasses := h.passes (Bool.not_eq_false _ ▸ hpresentable) "" none
          exact DbError.map_ne_of_truthy hcode "" none hpasses
        · by_contra hlisted
          rw [Bool.not_eq_true, Bool.or_eq_false_iff] at hlisted
          exact DbError.map_map_iff.mp h.once ⟨hcode, hlisted⟩
  · intro h
    rcases h with hcode | ⟨hpresentable, hlisted⟩
    · refine ⟨fun s tag tag' => ?_, fun _ s tag => DbError.map_falsy hcode s tag⟩
      rw [DbError.map_falsy hcode, DbError.map_falsy hcode]
    · refine ⟨DbError.map_map_iff.mpr fun hwrapped => ?_, fun h => ?_⟩
      · rw [hwrapped.2.1, hwrapped.2.2] at hlisted
        cases hlisted
      · rw [hpresentable] at h
        cases h

/-- **Errors are mapped once**, and reach the caller of a unit of work as they would outside one,
unless they are wrapped in a `DatabaseExecutionError`: its `code` makes the mapper take it for an
error of the driver.  An `AppError` with a code of its own does not pass the mapper either. -/
theorem mapped_once_iff (source : OracleSource) (error : DbError) :
    (MappedOnce source.stringOf error ↔ (error.oracleCode source.stringOf).truthy = false ∨
      (error.isPresentable = false ∧
        hasCode ("ORA-00001" :: connectionCodes) (error.oracleCode source.stringOf) = true)) ∧
    (ReachesCaller source error ↔ (error.oracleCode source.stringOf).truthy = false ∨
      hasCode ("ORA-00001" :: connectionCodes) (error.oracleCode source.stringOf) = true) := by
  refine ⟨mappedOnce_iff, ?_⟩
  rw [← DbError.not_isWrapped]
  exact ⟨fun hreach hwrapped => not_reachesCaller_of_wrapped hwrapped hreach,
    reachesCaller_of_not_wrapped⟩

/-- A driver's error that a trigger raised, -/
def raisedByTrigger : DbError := .driver "ORA-20101" "account is locked"

/-- and what a call that is aborted is rejected with. -/
def aborted : DbError :=
  .value (.object [("name", .string "AbortError"), ("code", .number (.finite 20))])

theorem mapped_twice_of_wrapped (h : DbError.IsWrapped (error.oracleCode source.stringOf)) :
    ¬ MappedOnce source.stringOf error ∧ ¬ ReachesCaller source error :=
  ⟨fun hmapped => DbError.map_map_iff.mp hmapped.once h, not_reachesCaller_of_wrapped h⟩

/-- Both are mapped twice, and reach the caller under the wrong tag. -/
theorem mapped_twice :
    (¬ MappedOnce plainString raisedByTrigger ∧ ¬ ReachesCaller .main raisedByTrigger) ∧
      ¬ MappedOnce plainString aborted ∧ ¬ ReachesCaller .main aborted :=
  ⟨@mapped_twice_of_wrapped .main raisedByTrigger ⟨rfl, rfl, rfl⟩,
    @mapped_twice_of_wrapped .main aborted ⟨rfl, rfl, rfl⟩⟩

end NestDdd.Database

import NestDdd.Idempotency.Interceptor

/-!
# Idempotency — the in-memory store

`InMemoryIdempotencyStore`
(`src/infrastructure/database/idempotency/in-memory-idempotency.store.ts`): a map from keys to
claim records.  Each method runs without an `await`, so it is one function of the map and of what
`Date.now()` reads.

* `claim_cases`: a claim either opens a record over a vacant one, or leaves the map as it is.
* `serve_other`, `serve_none`: `complete` and `release` touch only their own key, and only a
  record that is there.  Neither asks who made it.
-/

namespace NestDdd.Idempotency

/-- The two times of `idempotencySchema`, which lets no other through. -/
structure IdempotencyConfig where
  ttlMs : Int
  inProgressTtlMs : Int
  ttlMs_pos : 1 ≤ ttlMs
  inProgressTtlMs_pos : 1 ≤ inProgressTtlMs

/-- What `idempotencySchema` defaults to: a day, and a minute. -/
def IdempotencyConfig.defaults : IdempotencyConfig :=
  ⟨86400000, 60000, by decide, by decide⟩

inductive RecordState where
  | inProgress
  | completed
  deriving DecidableEq

structure ClaimRecord where
  fingerprint : String
  state : RecordState
  claimedAt : Int
  expiresAt : Int
  status : Option Int
  body : JsValue

abbrev Records := String → Option ClaimRecord

namespace InMemoryIdempotencyStore

variable (config : IdempotencyConfig) (records : Records) (now : Int) (key fingerprint : String)

/-- The record a successful claim sets. -/
def opened : ClaimRecord where
  fingerprint := fingerprint
  state := .inProgress
  claimedAt := now
  expiresAt := now + config.ttlMs
  status := none
  body := .undefined

/-- The record with the handler's outcome in it. -/
def closed (existing : ClaimRecord) (status : Int) (body : JsValue) : ClaimRecord :=
  { existing with state := .completed, status := some status, body := body }

def claim : ClaimOutcome × Records :=
  let claimed := (.claimed, Function.update records key (some (opened config now fingerprint)))
  match records key with
  | none => claimed
  | some existing =>
      if existing.expiresAt ≤ now then claimed
      else if existing.fingerprint ≠ fingerprint then (.mismatch, records)
      else
        match existing.state with
        | .inProgress =>
            if now - existing.claimedAt > config.inProgressTtlMs then claimed
            else (.inProgress, records)
        | .completed => (.replay (existing.status.getD 200) existing.body, records)

def complete (status : Int) (body : JsValue) : Records :=
  match records key with
  | none => records
  | some existing => Function.update records key (some (closed existing status body))

def release : Records := Function.update records key none

/-- What a store call does to the map. -/
def serve : Call → Records
  | .complete key status body => complete records key status body
  | .release key => release records key
  | _ => records

/-! ### When a claim succeeds -/

/-- The record no longer stands in the way of a claim that carries `fingerprint`. -/
def Vacant (existing : ClaimRecord) : Prop :=
  existing.expiresAt ≤ now ∨ (existing.fingerprint = fingerprint ∧ existing.state = .inProgress ∧
    now - existing.claimedAt > config.inProgressTtlMs)

variable {config records now key fingerprint}

theorem claim_none (h : records key = none) :
    claim config records now key fingerprint =
      (.claimed, Function.update records key (some (opened config now fingerprint))) := by
  simp only [claim, h]

/-- Under a record that is neither expired nor abandoned, the record decides. -/
theorem claim_some {existing : ClaimRecord} (h : records key = some existing)
    (hv : ¬ Vacant config now fingerprint existing) :
    claim config records now key fingerprint =
      (if existing.fingerprint ≠ fingerprint then .mismatch
        else if existing.state = .inProgress then .inProgress
        else .replay (existing.status.getD 200) existing.body, records) := by
  obtain ⟨hexp, hold⟩ := not_or.mp hv
  simp only [claim, h, if_neg hexp]
  by_cases hf : existing.fingerprint = fingerprint
  · cases hs : existing.state with
    | completed => simp [hf]
    | inProgress =>
        rw [if_neg (not_not.mpr hf), if_neg (not_not.mpr hf), if_pos rfl,
          if_neg fun hlate => hold ⟨hf, hs, hlate⟩]
  · rw [if_pos hf, if_pos hf]

/-- **What a claim does.**  It opens a record where there was none or a vacant one; otherwise it
answers something else and changes nothing. -/
theorem claim_cases :
    (claim config records now key fingerprint =
        (.claimed, Function.update records key (some (opened config now fingerprint))) ∧
      ∀ existing, records key = some existing → Vacant config now fingerprint existing) ∨
    (∃ existing, records key = some existing ∧ ¬ Vacant config now fingerprint existing ∧
      (claim config records now key fingerprint).1 ≠ .claimed ∧
      (claim config records now key fingerprint).2 = records) := by
  cases h : records key with
  | none => exact .inl ⟨claim_none h, by simp⟩
  | some existing =>
      by_cases hv : Vacant config now fingerprint existing
      · refine .inl ⟨?_, by simpa using hv⟩
        rcases hv with hexp | ⟨hf, hs, hlate⟩
        · simp only [claim, h, if_pos hexp]
        · simp only [claim, h, hf, hs, hlate, ne_eq, not_true_eq_false, if_true, if_false, ite_self]
      · refine .inr ⟨existing, rfl, hv, ?_, by rw [claim_some h hv]⟩
        rw [claim_some h hv]
        split_ifs <;> simp

/-! ### What `complete` and `release` touch -/

@[simp] theorem release_self : release records key key = none := by simp [release]

theorem complete_some {existing : ClaimRecord} (h : records key = some existing) (status : Int)
    (body : JsValue) :
    complete records key status body key = some (closed existing status body) := by
  simp [complete, h]

/-- A store call leaves every key but its own alone. -/
theorem serve_other {pipe : Pipe} {call : Call} (hc : pipe.storeCall key = some call)
    {other : String} (hne : other ≠ key) : serve records call other = records other := by
  cases pipe with
  | completing res =>
      obtain rfl := Option.some.inj hc
      simp only [serve, complete]
      cases records key with
      | none => rfl
      | some existing => exact Function.update_of_ne hne ..
  | releasing res | rethrowing e =>
      obtain rfl := Option.some.inj hc
      exact Function.update_of_ne hne ..
  | handling | emitted res | errored e => cases hc

/-- A store call makes no record. -/
theorem serve_none {pipe : Pipe} {call : Call} (hc : pipe.storeCall key = some call)
    (h : records key = none) : serve records call key = none := by
  cases pipe with
  | completing res =>
      obtain rfl := Option.some.inj hc
      simp only [serve, complete, h]
  | releasing res | rethrowing e =>
      obtain rfl := Option.some.inj hc
      exact release_self
  | handling | emitted res | errored e => cases hc

end InMemoryIdempotencyStore

end NestDdd.Idempotency

import NestDdd.Idempotency.InMemoryStore
import NestDdd.Runs.Machine

/-!
# Idempotency — requests over the in-memory store

Any number of requests on idempotent routes backed by one `InMemoryIdempotencyStore`: each claims
its key, runs its handler if the claim succeeded, and completes or releases the key.  A step is one
of these of one request, or time passing; requests interleave in any way.

`Prompt` is the promise that a claimed request settles its claim strictly before either TTL has
passed since the claim.

* `Inv`: while a request is pending its key holds the record its claim opened, and once it has
  succeeded, until the TTL, that record closed with its response.
* `at_most_once`: on prompt runs one request at a time is in flight for a key; after a success
  every claim in the TTL is a replay or a mismatch; after a failure the next claim succeeds.
-/

namespace NestDdd.Idempotency

open Runs JsValue
open InMemoryIdempotencyStore (opened closed serve Vacant)

/-- How far `intercept` has come. -/
inductive Phase where
  | waiting
  | answered (outcome : ClaimOutcome)
  | claimed (since : Int) (pipe : Pipe)

/-- `holder k` is no part of the program: it is the request whose claim of `k` succeeded last. -/
structure State where
  now : Int
  records : Records
  phase : Nat → Phase
  holder : String → Option Nat

inductive Label where
  | tick (ms : Nat)
  | claim (r : Nat)
  | handlerEnd (r : Nat) (settled : Except Thrown Response)
  | settle (r : Nat)

/-- A process that has just started. -/
def State.fresh (now : Int) : State where
  now := now
  records := fun _ => none
  phase := fun _ => .waiting
  holder := fun _ => none

section

variable (config : IdempotencyConfig) (reqs : Requests)

/-- `await this.store.claim(key, fingerprint)`, up to the handler's start or the answer. -/
def State.claimedBy (s : State) (r : Nat) : State :=
  match InMemoryIdempotencyStore.claim config s.records s.now (reqs.key r) (reqs.fingerprint r) with
  | (.claimed, records) =>
      { s with
        records := records
        phase := Function.update s.phase r (.claimed s.now .handling)
        holder := Function.update s.holder (reqs.key r) (some r) }
  | (outcome, records) =>
      { s with
        records := records
        phase := Function.update s.phase r (.answered outcome) }

def step (s : State) : Label → Option State
  | .tick ms => some { s with now := s.now + ms }
  | .claim r =>
      match s.phase r with
      | .waiting => some (s.claimedBy config reqs r)
      | _ => none
  | .handlerEnd r settled =>
      match s.phase r with
      | .claimed since .handling =>
          some { s with
            phase := Function.update s.phase r (.claimed since (.onHandler settled)) }
      | _ => none
  | .settle r =>
      match s.phase r with
      | .claimed since pipe =>
          (pipe.storeCall (reqs.key r)).map fun call =>
            { s with
              records := serve s.records call
              phase := Function.update s.phase r (.claimed since (pipe.onStore (.ok ()))) }
      | _ => none

def system : Machine State Label := ⟨step config reqs⟩

end

variable {config : IdempotencyConfig} {reqs : Requests} {s s' : State} {r : Nat}

/-! ### What a step does -/

theorem step_claim (h : (system config reqs).step s (.claim r) = some s') :
    s.phase r = .waiting ∧ ((∀ existing, s.records (reqs.key r) = some existing →
          Vacant config s.now (reqs.fingerprint r) existing) ∧
        s' = { s with
          records := Function.update s.records (reqs.key r)
            (some (opened config s.now (reqs.fingerprint r)))
          phase := Function.update s.phase r (.claimed s.now .handling)
          holder := Function.update s.holder (reqs.key r) (some r) } ∨
      ∃ outcome existing, s.records (reqs.key r) = some existing ∧
        ¬ Vacant config s.now (reqs.fingerprint r) existing ∧
        (InMemoryIdempotencyStore.claim config s.records s.now (reqs.key r)
          (reqs.fingerprint r)).1 = outcome ∧
        s' = { s with phase := Function.update s.phase r (.answered outcome) }) := by
  simp only [system, step] at h
  split at h
  next hw =>
    obtain rfl := Option.some.inj h
    refine ⟨hw, ?_⟩
    rcases @InMemoryIdempotencyStore.claim_cases config s.records s.now (reqs.key r)
      (reqs.fingerprint r) with ⟨hc, hv⟩ | ⟨existing, he, hv, hne, hrec⟩
    · exact .inl ⟨hv, by rw [State.claimedBy, hc]⟩
    · refine .inr ⟨_, existing, he, hv, rfl, ?_⟩
      rw [State.claimedBy]
      split
      next hc => exact absurd (congrArg Prod.fst hc) hne
      next outcome records _ hc =>
        rw [hc] at hrec
        obtain rfl : records = s.records := hrec
        rw [hc]
  next => cases h

theorem step_handlerEnd {settled : Except Thrown Response}
    (h : (system config reqs).step s (.handlerEnd r settled) = some s') :
    ∃ since, s.phase r = .claimed since .handling ∧
      s' = { s with phase := Function.update s.phase r (.claimed since (.onHandler settled)) } := by
  simp only [system, step] at h
  split at h
  next since hp => exact ⟨since, hp, (Option.some.inj h).symm⟩
  next => cases h

theorem step_settle (h : (system config reqs).step s (.settle r) = some s') :
    ∃ since pipe call, s.phase r = .claimed since pipe ∧
      pipe.storeCall (reqs.key r) = some call ∧
      s' = { s with
        records := serve s.records call
        phase := Function.update s.phase r (.claimed since (pipe.onStore (.ok ()))) } := by
  simp only [system, step] at h
  split at h
  next since pipe hp =>
    obtain ⟨call, hc, rfl⟩ := Option.map_eq_some_iff.mp h
    exact ⟨since, pipe, call, hp, hc, rfl⟩
  next => cases h

/-! ### Where a pipe stands -/

/-- A pipe completes a response that is no failed `Result`, and releases for one that is. -/
def Pipe.Sound : Pipe → Prop
  | .completing res => isFailedResult res.body = false
  | .releasing res => isFailedResult res.body = true
  | _ => True

/-- The handler has failed, and the key is about to be released. -/
def Pipe.freeing : Pipe → Bool
  | .releasing _ | .rethrowing _ => true
  | _ => false

theorem Pipe.onHandler_sound (settled : Except Thrown Response) :
    (Pipe.onHandler settled).Sound := by
  cases settled with
  | error e => trivial
  | ok res =>
      rw [Pipe.onHandler]
      split
      next h => exact h
      next h => exact Bool.eq_false_iff.mpr h

theorem Pipe.onHandler_pending (settled : Except Thrown Response) :
    (Pipe.onHandler settled).pending = true := by
  cases settled with
  | error e => rfl
  | ok res => rw [Pipe.onHandler]; split <;> rfl

/-- A pipe at a store call goes one of three ways when the call succeeds. -/
theorem Pipe.storeCall_cases {pipe : Pipe} {key : String} {call : Call}
    (h : pipe.storeCall key = some call) :
    pipe.pending = true ∧
      ((∃ res, pipe = .completing res ∧ call = .complete key res.statusCode res.body ∧
          pipe.onStore (.ok ()) = .emitted res) ∨
        (∃ res, pipe = .releasing res ∧ call = .release key ∧
          pipe.onStore (.ok ()) = .emitted res) ∨
        ∃ e, pipe = .rethrowing e ∧ call = .release key ∧
          pipe.onStore (.ok ()) = .errored e) := by
  cases pipe with
  | completing res => exact ⟨rfl, .inl ⟨res, rfl, (Option.some.inj h).symm, rfl⟩⟩
  | releasing res => exact ⟨rfl, .inr (.inl ⟨res, rfl, (Option.some.inj h).symm, rfl⟩)⟩
  | rethrowing e => exact ⟨rfl, .inr (.inr ⟨e, rfl, (Option.some.inj h).symm, rfl⟩)⟩
  | handling | emitted res | errored e => cases h

theorem Pipe.onStore_settled {pipe : Pipe} {key : String} {call : Call}
    (h : pipe.storeCall key = some call) : (pipe.onStore (.ok ())).pending = false := by
  obtain ⟨-, ⟨res, -, -, hp⟩ | ⟨res, -, -, hp⟩ | ⟨e, -, -, hp⟩⟩ := Pipe.storeCall_cases h <;>
    rw [hp] <;> rfl

theorem Pipe.onStore_sound {pipe : Pipe} {key : String} {call : Call}
    (h : pipe.storeCall key = some call) : (pipe.onStore (.ok ())).Sound := by
  obtain ⟨-, ⟨res, -, -, hp⟩ | ⟨res, -, -, hp⟩ | ⟨e, -, -, hp⟩⟩ := Pipe.storeCall_cases h <;>
    rw [hp] <;> trivial

/-- `r` claimed at `since`, and has not yet settled its claim. -/
def State.InFlight (s : State) (r : Nat) (since : Int) : Prop :=
  ∃ pipe, s.phase r = .claimed since pipe ∧ pipe.pending = true

/-- `r` claimed at `since`, its handler answered `res`, and `res` is stored. -/
def State.Succeeded (s : State) (r : Nat) (since : Int) (res : Response) : Prop :=
  s.phase r = .claimed since (.emitted res) ∧ isFailedResult res.body = false

/-! ### Prompt runs -/

section

variable (config : IdempotencyConfig) (reqs : Requests) (k : String)

/-- Every claimed request for `k` ends its handler and settles its claim strictly before either
TTL has passed since the claim. -/
def Prompt (_ : State) (_ : Label) (s' : State) : Prop :=
  ∀ r since, reqs.key r = k → s'.InFlight r since →
    s'.now < since + min config.ttlMs config.inProgressTtlMs

/-- What the record of `k` says about the requests for it. -/
structure Inv (s : State) : Prop where
  sound : ∀ r since pipe, s.phase r = .claimed since pipe → pipe.Sound
  alone : ∀ r₁ r₂ t₁ t₂, reqs.key r₁ = k → reqs.key r₂ = k → s.InFlight r₁ t₁ →
    s.InFlight r₂ t₂ → r₁ = r₂
  running : ∀ r since, reqs.key r = k → s.InFlight r since →
    s.records k = some (opened config since (reqs.fingerprint r))
  stored : ∀ r since res, reqs.key r = k → s.Succeeded r since res →
    s.now < since + config.ttlMs →
    s.records k =
      some (closed (opened config since (reqs.fingerprint r)) res.statusCode res.body)

end

variable {k : String} {now₀ : Int}

/-! #### Phases after an update -/

theorem inFlight_update {phase : Phase} {r' : Nat} {since : Int} {records : Records}
    {holder : String → Option Nat} :
    State.InFlight ⟨s.now, records, Function.update s.phase r phase, holder⟩ r' since ↔
      (r' = r ∧ ∃ pipe, phase = .claimed since pipe ∧ pipe.pending = true) ∨
        (r' ≠ r ∧ s.InFlight r' since) := by
  by_cases h : r' = r
  · subst h; simp [State.InFlight]
  · simp [State.InFlight, h]

theorem succeeded_update {phase : Phase} {r' : Nat} {since : Int} {res : Response}
    {records : Records} {holder : String → Option Nat} :
    State.Succeeded ⟨s.now, records, Function.update s.phase r phase, holder⟩ r' since res ↔
      (r' = r ∧ phase = .claimed since (.emitted res) ∧ isFailedResult res.body = false) ∨
        (r' ≠ r ∧ s.Succeeded r' since res) := by
  by_cases h : r' = r
  · subst h; simp [State.Succeeded]
  · simp [State.Succeeded, h]

/-! #### One step -/

/-- The record of a request in flight, not yet past either TTL, stands in the way of any claim. -/
theorem not_vacant_opened {since : Int} {f f' : String}
    (h : s.now < since + min config.ttlMs config.inProgressTtlMs) :
    ¬ Vacant config s.now f (opened config since f') := by
  rintro (hexp | ⟨-, -, hlate⟩)
  · have : since + config.ttlMs ≤ s.now := hexp
    omega
  · have : s.now - since > config.inProgressTtlMs := hlate
    omega

/-- A stored response stands in the way of any claim until the TTL has passed. -/
theorem not_vacant_closed {since status : Int} {f f' : String} {body : JsValue}
    (h : s.now < since + config.ttlMs) :
    ¬ Vacant config s.now f (closed (opened config since f') status body) := by
  rintro (hexp | ⟨-, hs, -⟩)
  · have : since + config.ttlMs ≤ s.now := hexp
    omega
  · cases hs

/-- Steps that touch neither the record of `k` nor the requests for it. -/
theorem Inv.of_eq (hi : Inv config reqs k s) (hnow : s.now ≤ s'.now)
    (hrec : s'.records k = s.records k)
    (hsound : ∀ r since pipe, s'.phase r = .claimed since pipe → pipe.Sound)
    (hfl : ∀ r since, reqs.key r = k → s'.InFlight r since → s.InFlight r since)
    (hsucc : ∀ r since res, reqs.key r = k → s'.Succeeded r since res →
      s.Succeeded r since res) : Inv config reqs k s' where
  sound := hsound
  alone r₁ r₂ t₁ t₂ h₁ h₂ f₁ f₂ :=
    hi.alone r₁ r₂ t₁ t₂ h₁ h₂ (hfl r₁ t₁ h₁ f₁) (hfl r₂ t₂ h₂ f₂)
  running r since hr hf := hrec.trans (hi.running r since hr (hfl r since hr hf))
  stored r since res hr hs hlt :=
    hrec.trans (hi.stored r since res hr (hsucc r since res hr hs) (Int.lt_of_le_of_lt hnow hlt))

theorem sound_update (hi : Inv config reqs k s) {phase : Phase}
    (hp : ∀ since pipe, phase = .claimed since pipe → pipe.Sound) :
    ∀ r' since pipe, Function.update s.phase r phase r' = .claimed since pipe → pipe.Sound := by
  intro r' since pipe h
  by_cases hr : r' = r
  · subst hr; exact hp since pipe (by simpa using h)
  · exact hi.sound r' since pipe (by simpa [hr] using h)

theorem Inv.claim (hi : Inv config reqs k s) (hg : Prompt config reqs k s (.claim r) s')
    (h : (system config reqs).step s (.claim r) = some s') : Inv config reqs k s' := by
  obtain ⟨hw, ⟨hv, rfl⟩ | ⟨outcome, existing, -, -, -, rfl⟩⟩ := step_claim h
  · by_cases hk : reqs.key r = k
    · -- the record that lets the claim through belongs to nobody in flight, and to no success
      subst hk
      have hidle : ∀ r' since, reqs.key r' = reqs.key r → ¬ s.InFlight r' since := by
        intro r' since hr hf
        refine not_vacant_opened (hg r' since hr (inFlight_update.mpr (.inr ⟨?_, hf⟩)))
          (hv _ (hi.running r' since hr hf))
        rintro rfl
        obtain ⟨pipe, hp, -⟩ := hf
        rw [hw] at hp; cases hp
      refine ⟨sound_update hi (by rintro _ _ ⟨⟩; trivial), ?_, ?_, ?_⟩
      · intro r₁ r₂ t₁ t₂ h₁ h₂ f₁ f₂
        rcases inFlight_update.mp f₁ with ⟨rfl, -⟩ | ⟨-, f₁⟩
        · rcases inFlight_update.mp f₂ with ⟨rfl, -⟩ | ⟨-, f₂⟩
          · rfl
          · exact absurd f₂ (hidle r₂ t₂ h₂)
        · exact absurd f₁ (hidle r₁ t₁ h₁)
      · intro r' since hr hf
        rcases inFlight_update.mp hf with ⟨rfl, pipe, hp, -⟩ | ⟨-, hf⟩
        · cases hp; simp
        · exact absurd hf (hidle r' since hr)
      · intro r' since res hr hs hlt
        rcases succeeded_update.mp hs with ⟨rfl, hp, -⟩ | ⟨-, hs⟩
        · cases hp
        · exact absurd (hv _ (hi.stored r' since res hr hs hlt)) (not_vacant_closed hlt)
    · refine hi.of_eq (Int.le_refl _) (Function.update_of_ne (Ne.symm hk) ..)
        (sound_update hi (by rintro _ _ ⟨⟩; trivial)) (fun r' since hr hf => ?_)
        fun r' since res hr hs => ?_
      · rcases inFlight_update.mp hf with ⟨rfl, -⟩ | ⟨-, hf⟩
        · exact absurd hr hk
        · exact hf
      · rcases succeeded_update.mp hs with ⟨rfl, -⟩ | ⟨-, hs⟩
        · exact absurd hr hk
        · exact hs
  · refine hi.of_eq (Int.le_refl _) rfl (sound_update hi (by rintro _ _ ⟨⟩))
      (fun r' since _ hf => ?_)
      fun r' since res _ hs => ?_
    · rcases inFlight_update.mp hf with ⟨-, pipe, hp, -⟩ | ⟨-, hf⟩
      · cases hp
      · exact hf
    · rcases succeeded_update.mp hs with ⟨-, hp, -⟩ | ⟨-, hs⟩
      · cases hp
      · exact hs

theorem Inv.handlerEnd (hi : Inv config reqs k s) {settled : Except Thrown Response}
    (h : (system config reqs).step s (.handlerEnd r settled) = some s') : Inv config reqs k s' := by
  obtain ⟨since, hp, rfl⟩ := step_handlerEnd h
  refine hi.of_eq (Int.le_refl _) rfl
    (sound_update hi (by rintro _ _ ⟨⟩; exact Pipe.onHandler_sound settled))
    (fun r' since' _ hf => ?_) fun r' since' res _ hs => ?_
  · rcases inFlight_update.mp hf with ⟨rfl, pipe, ⟨⟩, -⟩ | ⟨-, hf⟩
    · exact ⟨.handling, hp, rfl⟩
    · exact hf
  · rcases succeeded_update.mp hs with ⟨-, hq, -⟩ | ⟨-, hs⟩
    · -- after its handler a request still has to settle its claim
      have hpend := Pipe.onHandler_pending settled
      rw [(Phase.claimed.inj hq).2] at hpend
      cases hpend
    · exact hs

theorem Inv.settle (hi : Inv config reqs k s)
    (h : (system config reqs).step s (.settle r) = some s') :
    Inv config reqs k s' := by
  obtain ⟨since, pipe, call, hp, hc, rfl⟩ := step_settle h
  have hpend : s.InFlight r since := ⟨pipe, hp, (Pipe.storeCall_cases hc).1⟩
  have hsound := @sound_update _ _ _ r k hi (.claimed since (pipe.onStore (.ok ())))
    (by rintro _ _ ⟨⟩; exact Pipe.onStore_sound hc)
  have hfl : ∀ {r' since' records holder}, State.InFlight ⟨s.now, records, Function.update s.phase r
      (.claimed since (pipe.onStore (.ok ()))), holder⟩ r' since' →
        r' ≠ r ∧ s.InFlight r' since' := by
    intro r' since' _ _ hf
    rcases inFlight_update.mp hf with ⟨-, _, ⟨⟩, hq⟩ | hf
    · rw [Pipe.onStore_settled hc] at hq; cases hq
    · exact hf
  by_cases hk : reqs.key r = k
  · -- `r` is the only request for `k` in flight, so its record is the one that is settled
    subst hk
    have hrun := hi.running r since rfl hpend
    have hidle : ∀ r' since', reqs.key r' = reqs.key r → r' ≠ r → ¬ s.InFlight r' since' :=
      fun r' since' hr hne hf => hne (hi.alone _ _ _ _ hr rfl hf hpend)
    refine ⟨hsound, ?_, ?_, ?_⟩
    · intro r₁ _ t₁ _ h₁ _ f₁ _
      exact absurd (hfl f₁).2 (hidle r₁ t₁ h₁ (hfl f₁).1)
    · intro r' since' hr hf
      exact absurd (hfl hf).2 (hidle r' since' hr (hfl hf).1)
    · intro r' since' res hr hs hlt
      rcases succeeded_update.mp hs with ⟨rfl, hq, hf⟩ | ⟨-, hs⟩
      · obtain ⟨rfl, ho'⟩ := Phase.claimed.inj hq
        obtain ⟨-, ⟨res', rfl, rfl, ho⟩ | ⟨res', rfl, -, ho⟩ | ⟨e, rfl, -, ho⟩⟩ :=
          Pipe.storeCall_cases hc
        · obtain rfl := Pipe.emitted.inj (ho.symm.trans ho')
          exact InMemoryIdempotencyStore.complete_some hrun _ _
        · obtain rfl := Pipe.emitted.inj (ho.symm.trans ho')
          have hfail : isFailedResult res'.body = true := hi.sound _ _ _ hp
          rw [hf] at hfail; cases hfail
        · cases ho.symm.trans ho'
      · have := (hi.stored r' since' res hr hs hlt).symm.trans hrun
        cases congrArg ClaimRecord.state (Option.some.inj this)
  · refine hi.of_eq (Int.le_refl _) (InMemoryIdempotencyStore.serve_other hc (Ne.symm hk)) hsound
      (fun r' since' _ hf => (hfl hf).2) fun r' since' res hr hs => ?_
    rcases succeeded_update.mp hs with ⟨rfl, -⟩ | ⟨-, hs⟩
    · exact absurd hr hk
    · exact hs

/-- One step of a prompt run keeps `Inv`. -/
theorem Inv.step (s : State) (l : Label) (s' : State) (hi : Inv config reqs k s)
    (h : (system config reqs).step s l = some s') (hg : Prompt config reqs k s l s') :
    Inv config reqs k s' := by
  cases l with
  | tick ms =>
      obtain rfl := Option.some.inj h
      have hle : s.now ≤ s.now + ms := by omega
      exact hi.of_eq hle rfl hi.sound (fun _ _ _ hf => hf) fun _ _ _ _ hs => hs
  | claim r => exact hi.claim hg h
  | handlerEnd r settled => exact hi.handlerEnd h
  | settle r => exact hi.settle h

theorem Inv.fresh : Inv config reqs k (State.fresh now₀) := by
  refine ⟨?_, ?_, ?_, ?_⟩ <;> simp [State.fresh, State.InFlight, State.Succeeded]

/-! ### At most once -/

/-- A record that is not vacant answers the claim. -/
theorem step_claim_refused {existing : ClaimRecord} (hk : reqs.key r = k)
    (he : s.records k = some existing) (hv : ¬ Vacant config s.now (reqs.fingerprint r) existing)
    (h : (system config reqs).step s (.claim r) = some s') :
    s'.phase r = .answered
      (if existing.fingerprint ≠ reqs.fingerprint r then .mismatch
        else if existing.state = .inProgress then .inProgress
        else .replay (existing.status.getD 200) existing.body) := by
  subst hk
  obtain ⟨-, ⟨hvac, -⟩ | ⟨outcome, _, -, -, ho, rfl⟩⟩ := step_claim h
  · exact absurd (hvac existing he) hv
  · rw [InMemoryIdempotencyStore.claim_some he hv] at ho
    rw [← ho]
    exact Function.update_self ..

/-- A claim of a key without a record starts the handler. -/
theorem step_claim_granted (hk : reqs.key r = k) (he : s.records k = none)
    (h : (system config reqs).step s (.claim r) = some s') :
    s'.phase r = .claimed s.now .handling := by
  subst hk
  obtain ⟨-, ⟨-, rfl⟩ | ⟨_, existing, hsome, -⟩⟩ := step_claim h
  · exact Function.update_self ..
  · rw [he] at hsome; cases hsome

/-- Nobody holds `k`: it has no record, and no request for it is in flight. -/
def Idle (reqs : Requests) (k : String) (s : State) : Prop :=
  s.records k = none ∧ ∀ r since, reqs.key r = k → ¬ s.InFlight r since

/-- Nothing is claimed under `k`. -/
def NoClaim (reqs : Requests) (k : String) (_ : State) (l : Label) (_ : State) : Prop :=
  ∀ r, l = .claim r → reqs.key r ≠ k

/-- A request whose handler failed leaves its key idle. -/
theorem Inv.idle (hi : Inv config reqs k s) (hk : reqs.key r = k) {since : Int} {pipe : Pipe}
    (hp : s.phase r = .claimed since pipe) (hf : pipe.freeing = true)
    (h : (system config reqs).step s (.settle r) = some s') : Idle reqs k s' := by
  subst hk
  obtain ⟨since', pipe', call, hp', hc, rfl⟩ := step_settle h
  obtain ⟨rfl, rfl⟩ := Phase.claimed.inj (hp.symm.trans hp')
  obtain ⟨hpend, hcases⟩ := Pipe.storeCall_cases hc
  refine ⟨?_, fun r' t hr hfl => ?_⟩
  · rcases hcases with ⟨res, rfl, -⟩ | ⟨res, -, rfl, -⟩ | ⟨e, -, rfl, -⟩
    · cases hf
    · exact InMemoryIdempotencyStore.release_self
    · exact InMemoryIdempotencyStore.release_self
  · rcases inFlight_update.mp hfl with ⟨-, _, ⟨⟩, hq⟩ | ⟨hne, hfl⟩
    · rw [Pipe.onStore_settled hc] at hq; cases hq
    · exact hne (hi.alone _ _ _ _ hr rfl hfl ⟨pipe, hp, hpend⟩)

/-- An idle key stays idle until it is claimed. -/
theorem Idle.step (s : State) (l : Label) (s' : State) (hi : Idle reqs k s)
    (h : (system config reqs).step s l = some s') (hg : NoClaim reqs k s l s') :
    Idle reqs k s' := by
  obtain ⟨hrec, hidle⟩ := hi
  cases l with
  | tick ms =>
      obtain rfl := Option.some.inj h
      exact ⟨hrec, hidle⟩
  | claim r =>
      have hk : reqs.key r ≠ k := hg r rfl
      obtain ⟨-, ⟨-, rfl⟩ | ⟨outcome, existing, -, -, -, rfl⟩⟩ := step_claim h
      · refine ⟨(Function.update_of_ne (Ne.symm hk) ..).trans hrec, fun r' since hr hf => ?_⟩
        rcases inFlight_update.mp hf with ⟨rfl, -⟩ | ⟨-, hf⟩
        · exact hk hr
        · exact hidle r' since hr hf
      · refine ⟨hrec, fun r' since hr hf => ?_⟩
        rcases inFlight_update.mp hf with ⟨-, pipe, hp, -⟩ | ⟨-, hf⟩
        · cases hp
        · exact hidle r' since hr hf
  | handlerEnd r settled =>
      obtain ⟨since, hp, rfl⟩ := step_handlerEnd h
      refine ⟨hrec, fun r' since' hr hf => ?_⟩
      rcases inFlight_update.mp hf with ⟨rfl, -⟩ | ⟨-, hf⟩
      · exact hidle r' since hr ⟨.handling, hp, rfl⟩
      · exact hidle r' since' hr hf
  | settle r =>
      obtain ⟨since, pipe, call, hp, hc, rfl⟩ := step_settle h
      have hk : reqs.key r ≠ k := fun hr =>
        hidle r since hr ⟨pipe, hp, (Pipe.storeCall_cases hc).1⟩
      refine ⟨(InMemoryIdempotencyStore.serve_other hc (Ne.symm hk)).trans hrec,
        fun r' since' hr hf => ?_⟩
      rcases inFlight_update.mp hf with ⟨rfl, -⟩ | ⟨-, hf⟩
      · exact hk hr
      · exact hidle r' since' hr hf

/-- A state in which only request 0 has claimed, and no time has passed. -/
theorem prompt_alone {l : Label} (hnow : s'.now = 0) (hp : ∃ pipe, s'.phase 0 = .claimed 0 pipe)
    (hw : ∀ r, r ≠ 0 → s'.phase r = .waiting) :
    Prompt .defaults .retries "key-1" s l s' := by
  rintro r since - ⟨pipe, hr, -⟩
  by_cases h0 : r = 0
  · subst h0
    obtain ⟨pipe', hp⟩ := hp
    obtain ⟨rfl, -⟩ := Phase.claimed.inj (hp.symm.trans hr)
    rw [hnow]
    decide
  · cases (hw r h0).symm.trans hr

end NestDdd.Idempotency

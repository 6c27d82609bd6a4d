import NestDdd.Idempotency.System
import NestDdd.Idempotency.OracleStore

/-!
# Idempotency — superseded claims

A claim that has outlived a TTL is superseded: another request claims the key while the first is
still on its way to `complete` or `release`.  Both go by the key alone, so when they arrive they
reach the record of the newer claim.

`OwnRecord` and `OwnRow` are the promise that they do not: a `complete` or `release` finds no
record, or the one of its own claim, or one that a `complete` leaves exactly as it is.

* `Attributed`, `OracleAttributed`: then the record of a key is what its own claimant made of it,
  and a replay answers with what a handler of the same key and fingerprint produced.
* `superseded_harmless`: and no store call of a superseded request changes a record.
* `superseded_disturbs`: without the promise, a late `complete` answers another fingerprint.
-/

namespace NestDdd.Idempotency

open Runs JsValue OracleIdempotencyStore
open InMemoryIdempotencyStore (opened closed serve Vacant)

/-! ### In memory -/

/-- What a request that claimed at `since` has made of its record. -/
def Pipe.record (config : IdempotencyConfig) (since : Int) (fingerprint : String) :
    Pipe → Option ClaimRecord
  | .emitted res =>
      if isFailedResult res.body then none
      else some (closed (opened config since fingerprint) res.statusCode res.body)
  | .errored _ => none
  | _ => some (opened config since fingerprint)

section

variable (config : IdempotencyConfig) (reqs : Requests)

/-- A request settles its claim while its key has no record, or while no later claim has
succeeded, or by completing a record that already says the same. -/
def OwnRecord (s : State) (l : Label) (_ : State) : Prop :=
  ∀ r since pipe existing, l = .settle r → s.phase r = .claimed since pipe →
    s.records (reqs.key r) = some existing → s.holder (reqs.key r) = some r ∨
      ∃ res, pipe = .completing res ∧ closed existing res.statusCode res.body = existing

/-- Every record is what the claimant that holds the key has made of it, and every replay answers
with what a handler of that key and fingerprint produced. -/
structure Attributed (s : State) : Prop where
  sound : ∀ r since pipe, s.phase r = .claimed since pipe → pipe.Sound
  held : ∀ k r, s.holder k = some r → reqs.key r = k ∧ ∃ since pipe,
    s.phase r = .claimed since pipe ∧ s.records k = pipe.record config since (reqs.fingerprint r)
  vacant : ∀ k, s.holder k = none → s.records k = none
  replayed : ∀ r' status body, s.phase r' = .answered (.replay status body) →
    ∃ r since res, reqs.key r = reqs.key r' ∧ reqs.fingerprint r = reqs.fingerprint r' ∧
      s.Succeeded r since res ∧ status = res.statusCode ∧ body = res.body

end

variable {config : IdempotencyConfig} {reqs : Requests} {s s' : State} {r : Nat}

/-- A superseded request leaves every record as it is exactly when `OwnRecord` says so. -/
theorem superseded_settle_iff (h : (system config reqs).step s (.settle r) = some s')
    (hs : s.holder (reqs.key r) ≠ some r) :
    s'.records = s.records ↔ OwnRecord reqs s (.settle r) s' := by
  obtain ⟨since, pipe, call, hp, hc, rfl⟩ := step_settle h
  constructor
  · rintro heq r' since' pipe' existing he hp' hrec
    obtain rfl := Label.settle.inj he
    obtain ⟨rfl, rfl⟩ := Phase.claimed.inj (hp.symm.trans hp')
    have hkey := congrFun heq (reqs.key r)
    obtain ⟨-, ⟨res, rfl, rfl, -⟩ | ⟨res, -, rfl, -⟩ | ⟨e, -, rfl, -⟩⟩ := Pipe.storeCall_cases hc
    · have hclosed : some (closed existing res.statusCode res.body) = some existing :=
        (InMemoryIdempotencyStore.complete_some hrec _ _).symm.trans (hkey.trans hrec)
      exact .inr ⟨res, rfl, Option.some.inj hclosed⟩
    all_goals
      have hnone : s.records (reqs.key r) = none :=
        hkey.symm.trans InMemoryIdempotencyStore.release_self
      rw [hrec] at hnone
      cases hnone
  · intro hown
    funext k
    by_cases hk : k = reqs.key r
    · subst hk
      cases hrec : s.records (reqs.key r) with
      | none => exact InMemoryIdempotencyStore.serve_none hc hrec
      | some existing =>
          obtain hh | ⟨res, rfl, heq⟩ := hown r since pipe existing rfl hp hrec
          · exact absurd hh hs
          · obtain rfl := Option.some.inj hc
            exact (InMemoryIdempotencyStore.complete_some hrec _ _).trans (congrArg some heq)
    · exact InMemoryIdempotencyStore.serve_other hc hk

/-- While a request has not settled its claim, its record is the one it opened. -/
theorem Pipe.record_pending {pipe : Pipe} (h : pipe.pending = true) (since : Int) (f : String) :
    pipe.record config since f = some (opened config since f) := by
  cases pipe <;> first | rfl | cases h

/-- Settling the claim turns the record from what it was into what it is to be. -/
theorem Pipe.record_settled {pipe : Pipe} {key : String} {call : Call} {records : Records}
    {since : Int} {f : String} (hs : pipe.Sound) (hc : pipe.storeCall key = some call)
    (h : records key = pipe.record config since f) :
    serve records call key = (pipe.onStore (.ok ())).record config since f := by
  obtain ⟨hpend, ⟨res, rfl, rfl, ho⟩ | ⟨res, rfl, rfl, ho⟩ | ⟨e, rfl, rfl, ho⟩⟩ :=
    Pipe.storeCall_cases hc
  · have hf : isFailedResult res.body = false := hs
    rw [ho, Pipe.record, hf, if_neg Bool.false_ne_true]
    exact InMemoryIdempotencyStore.complete_some h _ _
  · have hf : isFailedResult res.body = true := hs
    rw [ho, Pipe.record, if_pos hf]
    exact InMemoryIdempotencyStore.release_self
  · rw [ho]
    exact InMemoryIdempotencyStore.release_self

/-- What a step of `r` has to show: the keys that others hold are left alone. -/
theorem Attributed.acted (hi : Attributed config reqs s)
    (hphase : ∀ r', r' ≠ r → s'.phase r' = s.phase r')
    (hsucc : ∀ since res, s.Succeeded r since res → s'.Succeeded r since res)
    (hothers : ∀ k r', r' ≠ r → s'.holder k = some r' →
      s.holder k = some r' ∧ s'.records k = s.records k)
    (hsound : ∀ since pipe, s'.phase r = .claimed since pipe → pipe.Sound)
    (hheld : ∀ k, s'.holder k = some r → reqs.key r = k ∧ ∃ since pipe,
      s'.phase r = .claimed since pipe ∧
        s'.records k = pipe.record config since (reqs.fingerprint r))
    (hvacant : ∀ k, s'.holder k = none → s'.records k = none)
    (hreplay : ∀ status body, s'.phase r = .answered (.replay status body) →
      ∃ r' since res, reqs.key r' = reqs.key r ∧ reqs.fingerprint r' = reqs.fingerprint r ∧
        s.Succeeded r' since res ∧ status = res.statusCode ∧ body = res.body) :
    Attributed config reqs s' := by
  have keep : ∀ {r' since res}, s.Succeeded r' since res → s'.Succeeded r' since res := by
    intro r' since res hs
    by_cases hr : r' = r
    · subst hr; exact hsucc since res hs
    · exact ⟨(hphase r' hr).trans hs.1, hs.2⟩
  refine ⟨fun r' since pipe hp => ?_, fun k r' hh => ?_, hvacant, fun r' status body hp => ?_⟩
  · by_cases hr : r' = r
    · subst hr; exact hsound since pipe hp
    · exact hi.sound r' since pipe ((hphase r' hr).symm.trans hp)
  · by_cases hr : r' = r
    · subst hr; exact hheld k hh
    · obtain ⟨hh', hrec⟩ := hothers k r' hr hh
      obtain ⟨hk, since, pipe, hp, hrec'⟩ := hi.held k r' hh'
      exact ⟨hk, since, pipe, (hphase r' hr).trans hp, hrec.trans hrec'⟩
  · by_cases hr : r' = r
    · subst hr
      obtain ⟨r₁, since, res, hk, hf, hs, hst, hb⟩ := hreplay status body hp
      exact ⟨r₁, since, res, hk, hf, keep hs, hst, hb⟩
    · obtain ⟨r₁, since, res, hk, hf, hs, hst, hb⟩ :=
        hi.replayed r' status body ((hphase r' hr).symm.trans hp)
      exact ⟨r₁, since, res, hk, hf, keep hs, hst, hb⟩

/-- A record that does not let a claim through, and is not in progress, is the stored response of
the request that holds the key. -/
theorem Attributed.stored (hi : Attributed config reqs s) {k : String} {existing : ClaimRecord}
    (he : s.records k = some existing) (hc : existing.state = .completed) :
    ∃ r since res, reqs.key r = k ∧ reqs.fingerprint r = existing.fingerprint ∧
      s.Succeeded r since res ∧ existing.status = some res.statusCode ∧
        existing.body = res.body := by
  cases hh : s.holder k with
  | none => rw [hi.vacant k hh] at he; cases he
  | some r =>
      obtain ⟨hk, since, pipe, hp, hrec⟩ := hi.held k r hh
      rw [he] at hrec
      cases pipe with
      | emitted res =>
          rw [Pipe.record] at hrec
          split at hrec
          next => cases hrec
          next hf =>
            obtain rfl := Option.some.inj hrec
            exact ⟨r, since, res, hk, rfl, ⟨hp, Bool.eq_false_iff.mpr hf⟩, rfl, rfl⟩
      | errored e => cases hrec
      | handling | completing res | releasing res | rethrowing e =>
          obtain rfl := Option.some.inj hrec
          cases hc

theorem Attributed.claim (hi : Attributed config reqs s)
    (h : (system config reqs).step s (.claim r) = some s') : Attributed config reqs s' := by
  obtain ⟨hw, hcase⟩ := step_claim h
  have hidle : ∀ k, s.holder k ≠ some r := by
    intro k hh
    obtain ⟨-, since, pipe, hp, -⟩ := hi.held k r hh
    rw [hw] at hp
    cases hp
  have hfresh : ∀ since res, ¬ s.Succeeded r since res := by
    intro since res hs
    rw [State.Succeeded, hw] at hs
    cases hs.1
  obtain ⟨-, rfl⟩ | ⟨outcome, existing, he, hv, ho, rfl⟩ := hcase
  · refine hi.acted (fun r' hr => Function.update_of_ne hr ..)
      (fun since res hs => absurd hs (hfresh since res)) (fun k r' hr hh => ?_)
      (fun since pipe hp => ?_) (fun k hh => ?_) (fun k hh => ?_) fun status body hp => ?_
    · have hk : k ≠ reqs.key r := by
        rintro rfl
        have hself : r = r' := by simpa using hh
        exact hr hself.symm
      exact ⟨(Function.update_of_ne hk ..).symm.trans hh, Function.update_of_ne hk ..⟩
    · obtain ⟨-, rfl⟩ := Phase.claimed.inj ((Function.update_self ..).symm.trans hp)
      trivial
    · by_cases hk : k = reqs.key r
      · subst hk
        exact ⟨rfl, s.now, .handling, Function.update_self .., Function.update_self ..⟩
      · exact absurd ((Function.update_of_ne hk ..).symm.trans hh) (hidle k)
    · by_cases hk : k = reqs.key r
      · subst hk; cases (Function.update_self ..).symm.trans hh
      · exact (Function.update_of_ne hk ..).trans
          (hi.vacant k ((Function.update_of_ne hk ..).symm.trans hh))
    · cases (Function.update_self ..).symm.trans hp
  · refine hi.acted (fun r' hr => Function.update_of_ne hr ..)
      (fun since res hs => absurd hs (hfresh since res)) (fun k r' _ hh => ⟨hh, rfl⟩)
      (fun since pipe hp => ?_) (fun k hh => absurd hh (hidle k)) hi.vacant fun status body hp => ?_
    · cases (Function.update_self ..).symm.trans hp
    · -- a replay comes from a completed record of the same fingerprint
      have hans := Phase.answered.inj ((Function.update_self ..).symm.trans hp)
      rw [← ho, InMemoryIdempotencyStore.claim_some he hv] at hans
      simp only at hans
      split_ifs at hans with hf hst
      have hdone : existing.state = .completed := by
        cases hs : existing.state with
        | inProgress => exact absurd hs hst
        | completed => rfl
      obtain ⟨r', since, res, hk, hfp, hsucc, hstatus, hbody⟩ := hi.stored he hdone
      obtain ⟨rfl, rfl⟩ := ClaimOutcome.replay.inj hans
      exact ⟨r', since, res, hk, hfp.trans (not_not.mp hf), hsucc, by rw [hstatus]; rfl, hbody⟩

theorem Attributed.settle (hi : Attributed config reqs s)
    (h : (system config reqs).step s (.settle r) = some s')
    (hg : OwnRecord reqs s (.settle r) s') : Attributed config reqs s' := by
  have hiff := superseded_settle_iff h
  obtain ⟨since, pipe, call, hp, hc, rfl⟩ := step_settle h
  have hphase : ∀ r', r' ≠ r → Function.update s.phase r
      (.claimed since (pipe.onStore (.ok ()))) r' = s.phase r' :=
    fun r' hr => Function.update_of_ne hr ..
  have hfresh : ∀ since res, ¬ s.Succeeded r since res := by
    rintro t res ⟨hp', -⟩
    obtain ⟨-, rfl⟩ := Phase.claimed.inj (hp.symm.trans hp')
    cases hc
  have hsound : ∀ t p, Function.update s.phase r (.claimed since (pipe.onStore (.ok ()))) r =
      .claimed t p → p.Sound := by
    intro t p hq
    obtain ⟨-, rfl⟩ := Phase.claimed.inj ((Function.update_self ..).symm.trans hq)
    exact Pipe.onStore_sound hc
  have hreplay : ∀ status body, Function.update s.phase r
      (.claimed since (pipe.onStore (.ok ()))) r ≠ .answered (.replay status body) := by
    intro status body hq
    cases (Function.update_self ..).symm.trans hq
  by_cases hh : s.holder (reqs.key r) = some r
  · refine hi.acted hphase (fun t res hs => absurd hs (hfresh t res)) (fun k r' hr hk => ⟨hk, ?_⟩)
      hsound (fun k hk => ?_) (fun k hk => ?_) fun status body hq => absurd hq (hreplay status body)
    · refine InMemoryIdempotencyStore.serve_other hc ?_
      rintro rfl
      exact hr (Option.some.inj (hh.symm.trans hk)).symm
    · obtain ⟨rfl, since', pipe', hp', hrec⟩ := hi.held k r hk
      obtain ⟨rfl, rfl⟩ := Phase.claimed.inj (hp.symm.trans hp')
      exact ⟨rfl, since, _, Function.update_self ..,
        Pipe.record_settled (hi.sound r since pipe hp) hc hrec⟩
    · refine (InMemoryIdempotencyStore.serve_other hc ?_).trans (hi.vacant k hk)
      rintro rfl
      rw [hh] at hk
      cases hk
  · -- superseded, so nothing changes but the phase of `r`
    have hrecords := (hiff hh).mpr hg
    refine hi.acted hphase (fun t res hs => absurd hs (hfresh t res))
      (fun k r' _ hk => ⟨hk, congrFun hrecords k⟩) hsound (fun k hk => ?_)
      (fun k hk => (congrFun hrecords k).trans (hi.vacant k hk))
      fun status body hq => absurd hq (hreplay status body)
    obtain ⟨rfl, -⟩ := hi.held k r hk
    exact absurd hk hh

/-- One step of a run that meets `OwnRecord` keeps `Attributed`. -/
theorem Attributed.step (s : State) (l : Label) (s' : State) (hi : Attributed config reqs s)
    (h : (system config reqs).step s l = some s') (hg : OwnRecord reqs s l s') :
    Attributed config reqs s' := by
  cases l with
  | tick ms =>
      obtain rfl := Option.some.inj h
      exact ⟨hi.sound, hi.held, hi.vacant, hi.replayed⟩
  | claim r => exact hi.claim h
  | handlerEnd r settled =>
      obtain ⟨since, hp, rfl⟩ := step_handlerEnd h
      refine hi.acted (fun r' hr => Function.update_of_ne hr ..) (fun t res hs => ?_)
        (fun k r' _ hh => ⟨hh, rfl⟩) (fun t p hq => ?_) (fun k hh => ?_) hi.vacant
        fun status body hq => ?_
      · cases hp.symm.trans hs.1
      · obtain ⟨-, rfl⟩ := Phase.claimed.inj ((Function.update_self ..).symm.trans hq)
        exact Pipe.onHandler_sound settled
      · obtain ⟨hk, t, p, hp', hrec⟩ := hi.held k r hh
        obtain ⟨rfl, rfl⟩ := Phase.claimed.inj (hp.symm.trans hp')
        refine ⟨hk, since, _, Function.update_self .., hrec.trans ?_⟩
        rw [Pipe.record_pending (Pipe.onHandler_pending settled)]
        rfl
      · cases (Function.update_self ..).symm.trans hq
  | settle r => exact hi.settle h hg

theorem Attributed.fresh (now : Int) : Attributed config reqs (State.fresh now) := by
  refine ⟨?_, ?_, ?_, ?_⟩ <;> simp [State.fresh]

/-! ### In Oracle -/

section

variable (json : JsonCodec) (reqs : Requests)

/-- The handler of `r` has resolved with `res`. -/
def OracleState.Produced (s : OracleState) (r : Nat) (res : Response) : Prop :=
  ∃ pipe executed, s.phase r = .claimed (some (.ok res)) pipe executed

/-- A statement that settles a claim finds no row, or the row of that claim, or completes a row
that already says the same. -/
def OwnRow (s : OracleState) (l : OracleLabel) (_ : OracleState) : Prop :=
  ∀ r handled pipe row, l = .settle r → s.phase r = .claimed handled pipe false →
    (s.table (reqs.key r)).view r = some row → row.writer = r ∨
      ∃ res, pipe = .completing res ∧ (completed json res.statusCode res.body row).1 = some row

/-- The row is what the claim that wrote it has made of it. -/
structure RowOk (s : OracleState) (k : String) (row : ClaimRow) : Prop where
  key : reqs.key row.writer = k
  fingerprint : row.fingerprint = reqs.fingerprint row.writer
  completed : row.state = .completed → ∃ res, s.Produced row.writer res ∧
    isFailedResult res.body = false ∧ row.status = some res.statusCode ∧
    row.responseBody = json.encode res.body

/-- `r` answers, or is about to answer, with a replay. -/
def OracleState.Replays (s : OracleState) (r : Nat) (status : Int) (body : JsValue) : Prop :=
  s.phase r = .answered (.replay status body) ∨ s.phase r = .claiming (.done (.replay status body))

/-- A handler of the key and fingerprint of `r'` produced the response, and the body has been
through JSON. -/
def OracleState.Genuine (s : OracleState) (r' : Nat) (status : Int) (body : JsValue) : Prop :=
  ∃ r res, reqs.key r = reqs.key r' ∧ reqs.fingerprint r = reqs.fingerprint r' ∧
    s.Produced r res ∧ isFailedResult res.body = false ∧ status = res.statusCode ∧
    json.decode (json.encode res.body) = some body

/-- What a pipe knows of its handler. -/
def Pipe.Knows (handled : Option (Except Thrown Response)) : Pipe → Prop
  | .handling => handled = none
  | .completing res => handled = some (.ok res) ∧ isFailedResult res.body = false
  | _ => True

/-- Every version of every row is what the claim that wrote it has made of it, and every replay is
genuine. -/
structure OracleAttributed (s : OracleState) : Prop where
  knows : ∀ r handled pipe executed, s.phase r = .claimed handled pipe executed →
    pipe.Knows handled
  rows : ∀ k row, (s.table k).Holds row → RowOk json reqs s k row
  replayed : ∀ r status body, s.Replays r status body → s.Genuine json reqs r status body

end

section

variable {json : JsonCodec} {s s' : OracleState}

/-- A superseded request leaves the row as it sees it exactly when `OwnRow` says so. -/
theorem superseded_statement_iff (h : (oracle config json reqs).step s (.settle r) = some s')
    {row : ClaimRow} (hv : (s.table (reqs.key r)).view r = some row) (hw : row.writer ≠ r) :
    (s'.table (reqs.key r)).view r = some row ↔ OwnRow json reqs s (.settle r) s' := by
  obtain ⟨handled, pipe, call, f, hp, hc, hset, ⟨hnone, -⟩ | ⟨row', hv', -, rfl⟩⟩ :=
    oracle_settle h
  · rw [hv] at hnone; cases hnone
  · obtain rfl := Option.some.inj (hv.symm.trans hv')
    rw [OracleState.exec_table, Cell.view_write]
    constructor
    · rintro heq r' handled' pipe' row' he hp' hrow
      obtain rfl := OracleLabel.settle.inj he
      obtain ⟨rfl, rfl, -⟩ := OraclePhase.claimed.inj (hp.symm.trans hp')
      obtain rfl := Option.some.inj (hv.symm.trans hrow)
      rcases settling_cases hc hset with ⟨res, rfl, rfl⟩ | ⟨rfl, -⟩
      · exact .inr ⟨res, rfl, heq⟩
      · cases heq
    · intro hown
      obtain hown | ⟨res, rfl, heq⟩ := hown r handled pipe row rfl hp hv
      · exact absurd hown hw
      · obtain rfl := Option.some.inj hc
        obtain rfl := Option.some.inj hset
        exact heq

theorem Pipe.onHandler_knows (settled : Except Thrown Response) :
    (Pipe.onHandler settled).Knows (some settled) := by
  cases settled with
  | error e => trivial
  | ok res =>
      rw [Pipe.onHandler]
      split
      next => trivial
      next h => exact ⟨rfl, Bool.eq_false_iff.mpr h⟩

theorem Pipe.onStore_knows {pipe : Pipe} {handled : Option (Except Thrown Response)}
    (h : pipe.Knows handled) (a : Except Thrown Unit) : (pipe.onStore a).Knows handled := by
  cases pipe with
  | handling => exact h
  | completing res | releasing res | rethrowing e => cases a <;> trivial
  | emitted res | errored e => trivial

/-- What is said of a row stands as long as its handler's response does. -/
theorem RowOk.mono {k : String} {row : ClaimRow} (h : RowOk json reqs s k row)
    (hp : ∀ r res, s.Produced r res → s'.Produced r res) : RowOk json reqs s' k row := by
  refine ⟨h.key, h.fingerprint, fun hc => ?_⟩
  obtain ⟨res, hprod, hrest⟩ := h.completed hc
  exact ⟨res, hp _ _ hprod, hrest⟩

/-- What a step of `r` has to show. -/
theorem OracleAttributed.acted (hi : OracleAttributed json reqs s) (hact : s.ActedBy r s')
    (hprod : ∀ res, s.Produced r res → s'.Produced r res)
    (hknows : ∀ handled pipe executed, s'.phase r = .claimed handled pipe executed →
      pipe.Knows handled)
    (hrows : ∀ k row, (s'.table k).Holds row → (s.table k).Holds row ∨ RowOk json reqs s' k row)
    (hreplay : ∀ status body, s'.Replays r status body → s.Genuine json reqs r status body) :
    OracleAttributed json reqs s' := by
  have keep : ∀ r' res, s.Produced r' res → s'.Produced r' res := by
    intro r' res h
    by_cases hr : r' = r
    · subst hr; exact hprod res h
    · obtain ⟨pipe, executed, hp⟩ := h
      exact ⟨pipe, executed, (hact.phases r' hr).trans hp⟩
  refine ⟨fun r' handled pipe executed hp => ?_, fun k row hrow => ?_,
    fun r' status body hrep => ?_⟩
  · by_cases hr : r' = r
    · subst hr; exact hknows handled pipe executed hp
    · exact hi.knows r' handled pipe executed ((hact.phases r' hr).symm.trans hp)
  · rcases hrows k row hrow with h | h
    · exact (hi.rows k row h).mono keep
    · exact h
  · have hgen : s.Genuine json reqs r' status body := by
      by_cases hr : r' = r
      · subst hr; exact hreplay status body hrep
      · rw [OracleState.Replays, hact.phases r' hr] at hrep
        exact hi.replayed r' status body hrep
    obtain ⟨r₁, res, hk, hf, hp, hrest⟩ := hgen
    exact ⟨r₁, res, hk, hf, keep r₁ res hp, hrest⟩

theorem holds_exec {k k' : String} {v : Option ClaimRow} {ms : List Move} {phase : OraclePhase}
    {row : ClaimRow} (h : ((s.exec r k ((s.table k).write r v ms) phase).table k').Holds row) :
    (s.table k').Holds row ∨ (k' = k ∧ v = some row) := by
  by_cases hk : k' = k
  · subst hk
    rw [OracleState.exec_table] at h
    exact (Cell.holds_write h).imp_right fun hv => ⟨rfl, hv⟩
  · refine .inl ?_
    simpa [OracleState.exec, hk] using h

/-- A step of a claim transaction. -/
theorem OracleAttributed.claiming (hi : OracleAttributed json reqs s) (hact : s.ActedBy r s')
    {stage : ClaimAt} (hp : ∀ handled pipe executed, s.phase r ≠ .claimed handled pipe executed)
    (hp' : s'.phase r = .claiming stage)
    (hrows : ∀ k row, (s'.table k).Holds row → (s.table k).Holds row ∨ RowOk json reqs s' k row)
    (hreplay : ∀ status body, stage = .done (.replay status body) →
      s.Genuine json reqs r status body) : OracleAttributed json reqs s' := by
  refine hi.acted hact (fun res h => ?_) (fun handled pipe executed hq => ?_) hrows
    fun status body hrep => ?_
  · obtain ⟨pipe, executed, hq⟩ := h
    exact (hp _ _ _ hq).elim
  · rw [hp'] at hq; cases hq
  · rcases hrep with hq | hq
    · rw [hp'] at hq; cases hq
    · exact hreplay status body (OraclePhase.claiming.inj (hp'.symm.trans hq))

/-- A step of a request past its handler. -/
theorem OracleAttributed.claimed (hi : OracleAttributed json reqs s) (hact : s.ActedBy r s')
    {handled : Option (Except Thrown Response)} {pipe pipe' : Pipe} {executed executed' : Bool}
    (hp : s.phase r = .claimed handled pipe executed)
    (hp' : s'.phase r = .claimed handled pipe' executed') (hknows : pipe'.Knows handled)
    (hrows : ∀ k row, (s'.table k).Holds row →
      (s.table k).Holds row ∨ RowOk json reqs s' k row) : OracleAttributed json reqs s' := by
  refine hi.acted hact (fun res hprod => ?_) (fun h p x hq => ?_) hrows fun status body hrep => ?_
  · obtain ⟨_, _, hq⟩ := hprod
    obtain ⟨rfl, -, -⟩ := OraclePhase.claimed.inj (hp.symm.trans hq)
    exact ⟨_, _, hp'⟩
  · obtain ⟨rfl, rfl, -⟩ := OraclePhase.claimed.inj (hp'.symm.trans hq)
    exact hknows
  · rw [OracleState.Replays, hp'] at hrep
    rcases hrep with hq | hq <;> cases hq

/-- A claim that writes its row. -/
theorem OracleAttributed.opened (hi : OracleAttributed json reqs s)
    (hf : (s.table (reqs.key r)).free r = true) {now : Int} {ms : List Move} {stage : ClaimAt}
    (hp : s.phase r = .claiming stage) :
    OracleAttributed json reqs (s.exec r (reqs.key r) ((s.table (reqs.key r)).write r
      (some (openedRow config r (reqs.fingerprint r) now)) ms) (.claiming (.done .claimed))) := by
  refine hi.claiming (acted_write hf ..) (by simp [hp]) OracleState.exec_phase
    (fun k row hrow => (holds_exec hrow).imp_right ?_) (by simp)
  rintro ⟨rfl, hv⟩
  obtain rfl := Option.some.inj hv
  exact ⟨rfl, rfl, fun h => nomatch h⟩

/-- A replay that a `SELECT` leads to is genuine. -/
theorem OracleAttributed.genuine (hi : OracleAttributed json reqs s) {now dateNow status : Int}
    {body : JsValue} (h : afterSelect config json (reqs.fingerprint r) now dateNow
      ((s.table (reqs.key r)).view r) = some (.done (.replay status body))) :
    s.Genuine json reqs r status body := by
  cases hv : (s.table (reqs.key r)).view r with
  | none => rw [hv] at h; cases h
  | some row =>
      rw [hv] at h
      simp only [afterSelect] at h
      split at h
      next => cases h
      next hf =>
        split at h
        next => split at h <;> cases h
        next hs =>
          obtain ⟨text, hdec, heq⟩ := Option.map_eq_some_iff.mp h
          obtain ⟨rfl, rfl⟩ := ClaimOutcome.replay.inj (ClaimAt.done.inj heq)
          -- the row is completed, and of the fingerprint that asks
          obtain ⟨hk, hfp, hdone⟩ := hi.rows _ row (Cell.holds_of_view hv)
          obtain ⟨res, hprod, hok, hst, hbody⟩ := hdone hs
          exact ⟨row.writer, res, hk, hfp.symm.trans (not_not.mp hf), hprod, hok,
            by rw [hst]; rfl, hbody ▸ hdec⟩

theorem OracleAttributed.commit (hi : OracleAttributed json reqs s) {answer : Except Thrown Unit}
    (h : (oracle config json reqs).step s (.commit r answer) = some s') :
    OracleAttributed json reqs s' := by
  obtain ⟨outcome, hp, rfl⟩ | ⟨handled, pipe, hp, rfl⟩ := oracle_commit h
  · refine hi.acted (acted_commit _) (fun res hprod => ?_) (fun handled pipe executed hq => ?_)
      (fun k row hrow => .inl (Cell.holds_commit hrow)) fun status body hrep => ?_
    · obtain ⟨_, _, hq⟩ := hprod
      rw [hp] at hq; cases hq
    · rw [OracleState.finish_phase] at hq
      cases answer <;> cases outcome <;> cases hq
      rfl
    · refine hi.replayed r status body (.inr (hp.trans ?_))
      rw [OracleState.Replays, OracleState.finish_phase] at hrep
      cases answer <;> cases outcome <;> simp_all [OraclePhase.returned]
  · exact hi.claimed (acted_commit _) hp OracleState.finish_phase
      (Pipe.onStore_knows (hi.knows r _ pipe _ hp) answer)
      fun k row hrow => .inl (Cell.holds_commit hrow)

theorem OracleAttributed.abort (hi : OracleAttributed json reqs s) {error : Thrown}
    (h : (oracle config json reqs).step s (.abort r error) = some s') :
    OracleAttributed json reqs s' := by
  obtain ⟨stage, hp, rfl⟩ | ⟨handled, pipe, executed, call, hp, -, rfl⟩ := oracle_abort h
  · refine hi.acted (acted_abort _) (fun res hprod => ?_) (fun handled pipe executed hq => ?_)
      (fun k row hrow => .inl (Cell.holds_abort hrow)) fun status body hrep => ?_
    · obtain ⟨_, _, hq⟩ := hprod
      rw [hp] at hq; cases hq
    · rw [OracleState.finish_phase] at hq; cases hq
    · rw [OracleState.Replays, OracleState.finish_phase] at hrep
      rcases hrep with hq | hq <;> cases hq
  · exact hi.claimed (acted_abort _) hp OracleState.finish_phase
      (Pipe.onStore_knows (hi.knows r _ pipe _ hp) _)
      fun k row hrow => .inl (Cell.holds_abort hrow)

theorem OracleAttributed.settle (hi : OracleAttributed json reqs s)
    (h : (oracle config json reqs).step s (.settle r) = some s')
    (hg : OwnRow json reqs s (.settle r) s') : OracleAttributed json reqs s' := by
  obtain ⟨handled, pipe, call, f, hp, hc, hset, ⟨-, rfl⟩ | ⟨row, hv, hf, rfl⟩⟩ := oracle_settle h
  · exact hi.claimed (acted_goto _) hp OracleState.goto_phase (hi.knows r _ pipe _ hp)
      fun k row hrow => .inl hrow
  · have hknows := hi.knows r _ pipe _ hp
    have hrow := hi.rows _ row (Cell.holds_of_view hv)
    refine hi.claimed (acted_write hf ..) hp OracleState.exec_phase hknows
      fun k row' hrow' => (holds_exec hrow').elim .inl ?_
    rintro ⟨rfl, hv'⟩
    rcases settling_cases hc hset with ⟨res, rfl, rfl⟩ | ⟨rfl, -⟩
    · obtain ⟨rfl, hok⟩ := hknows
      -- a `complete`: the guard says whose row it reaches
      rcases hg r _ _ row rfl hp hv with hw | ⟨res', hres, heq⟩
      · -- the row of its own claim, with the response of its own handler
        obtain rfl := Option.some.inj hv'
        subst hw
        exact .inr ⟨hrow.key, hrow.fingerprint,
          fun _ => ⟨res, ⟨_, _, OracleState.exec_phase⟩, hok, rfl, rfl⟩⟩
      · -- a foreign row that already says the same is left as it is
        obtain rfl := Pipe.completing.inj hres
        obtain rfl := Option.some.inj (heq.symm.trans hv')
        exact .inl (Cell.holds_of_view hv)
    · cases hv'

/-- One step of a run that meets `OwnRow` keeps `OracleAttributed`. -/
theorem OracleAttributed.step (s : OracleState) (l : OracleLabel) (s' : OracleState)
    (hi : OracleAttributed json reqs s) (h : (oracle config json reqs).step s l = some s')
    (hg : OwnRow json reqs s l s') : OracleAttributed json reqs s' := by
  cases l with
  | begin r =>
      obtain ⟨hp, rfl⟩ := oracle_begin h
      exact hi.claiming (acted_goto _) (by simp [hp]) OracleState.goto_phase
        (fun _ _ hrow => .inl hrow) (by simp)
  | purge r k sysNow =>
      obtain ⟨n, row, hp, -, -, hf, rfl⟩ := oracle_purge h
      refine hi.claiming (acted_write hf ..) (by simp [hp]) OracleState.exec_phase
        (fun k' row' hrow => (holds_exec hrow).imp_right ?_) (by simp)
      rintro ⟨-, hv⟩
      cases hv
  | insert r now =>
      obtain ⟨n, hp, ⟨-, hf, rfl⟩ | rfl⟩ := oracle_insert h
      · exact hi.opened hf hp
      · exact hi.claiming (acted_goto _) (by simp [hp]) OracleState.goto_phase
          (fun _ _ hrow => .inl hrow) (by simp)
  | select r dateNow =>
      obtain ⟨now, stage, hp, hs, rfl⟩ := oracle_select h
      refine hi.claiming (acted_goto _) (by simp [hp]) OracleState.goto_phase
        (fun _ _ hrow => .inl hrow) ?_
      rintro status body rfl
      exact hi.genuine hs
  | insertAgain r =>
      obtain ⟨now, hp, -, hf, rfl⟩ := oracle_insertAgain h
      exact hi.opened hf hp
  | takeOver r =>
      obtain ⟨now, seen, dateNow, hp, ⟨-, rfl⟩ | ⟨row, -, hf, rfl⟩⟩ := oracle_takeOver h
      · exact hi.claiming (acted_goto _) (by simp [hp]) OracleState.goto_phase
          (fun _ _ hrow => .inl hrow) (by simp)
      · exact hi.opened hf hp
  | commit r answer => exact hi.commit h
  | abort r error => exact hi.abort h
  | handlerEnd r settled =>
      obtain ⟨handled, executed, hp, rfl⟩ := oracle_handlerEnd h
      refine hi.acted (acted_goto _) (fun res hprod => ?_) (fun h p x hq => ?_)
        (fun _ _ hrow => .inl hrow) fun status body hrep => ?_
      · -- the handler has not produced anything before it ends
        obtain rfl : handled = none := hi.knows r _ _ _ hp
        obtain ⟨_, _, hq⟩ := hprod
        cases hp.symm.trans hq
      · obtain ⟨rfl, rfl, -⟩ := OraclePhase.claimed.inj (OracleState.goto_phase.symm.trans hq)
        exact Pipe.onHandler_knows settled
      · rw [OracleState.Replays, OracleState.goto_phase] at hrep
        rcases hrep with hq | hq <;> cases hq
  | settle r => exact hi.settle h hg

theorem OracleAttributed.fresh : OracleAttributed json reqs .fresh := by
  refine ⟨fun _ _ _ _ h => (nomatch h), fun k row h => ?_, fun r status body h => ?_⟩
  · rcases h with h | ⟨d, h, -⟩ <;> cases h
  · rcases h with h | h <;> cases h

end

/-! ### Superseded claims -/

/-- **A superseded claim is harmless, if it finds no record or its own.**  On every run over either
store in which each `complete` and `release` does, each record is what its own claimant has made
of it, and every replay answers with what a handler of the same key and fingerprint produced; and
the `complete` or `release` of a superseded request leaves the record of the newer claimant as it
is, so that no release frees the key of another, exactly when it meets the promise. -/
theorem superseded_harmless (config : IdempotencyConfig) (json : JsonCodec) (reqs : Requests) :
    (∀ now₀ ls s, Run (system config reqs) (OwnRecord reqs) (State.fresh now₀) ls s →
      Attributed config reqs s ∧
      ∀ r s', (system config reqs).step s (.settle r) = some s' →
        s.holder (reqs.key r) ≠ some r →
        (s'.records = s.records ↔ OwnRecord reqs s (.settle r) s')) ∧
    (∀ ls s, Run (oracle config json reqs) (OwnRow json reqs) .fresh ls s →
      OracleAttributed json reqs s ∧
      ∀ r s' row, (oracle config json reqs).step s (.settle r) = some s' →
        (s.table (reqs.key r)).view r = some row → row.writer ≠ r →
        ((s'.table (reqs.key r)).view r = some row ↔ OwnRow json reqs s (.settle r) s')) :=
  ⟨fun now₀ _ _ hrun => ⟨hrun.invariant (.fresh now₀) Attributed.step,
      fun _ _ => superseded_settle_iff⟩,
    fun _ _ hrun => ⟨hrun.invariant .fresh OracleAttributed.step,
      fun _ _ _ h => superseded_statement_iff h⟩⟩

/-- One key for two operations: request 0 is the first, all others are the second. -/
def Requests.reused : Requests := ⟨fun _ => "key-1", fun r => if r = 0 then "fp-a" else "fp-b"⟩

/-- Request 0 outlives the TTL of its claim, and its `complete` overwrites the record of request 1,
which is in progress; request 2, with the fingerprint of request 1, is answered with the response of
request 0. -/
theorem superseded_disturbs :
    (∃ s s' s'' : State, Run (system .defaults .reused) Free (State.fresh 0)
        [.claim 0, .tick 86400000, .claim 1, .handlerEnd 0 (.ok ⟨201, .string "order-1"⟩)] s ∧
      s.holder "key-1" = some 1 ∧ (system .defaults .reused).step s (.settle 0) = some s' ∧
      s'.records "key-1" ≠ s.records "key-1" ∧
      (system .defaults .reused).step s' (.claim 2) = some s'' ∧
      s''.phase 2 = .answered (.replay 201 (.string "order-1")) ∧
      ∀ r since res, Requests.reused.fingerprint r = Requests.reused.fingerprint 2 →
        ¬ s''.Succeeded r since res) ∧
    ∃ s s' s'' : OracleState, Run (oracle .defaults .order .reused) Free .fresh
        [.begin 0, .insert 0 0, .commit 0 (.ok ()), .begin 1, .purge 1 "key-1" 86400001,
          .insert 1 86400001, .commit 1 (.ok ()),
          .handlerEnd 0 (.ok ⟨201, .string "order-1"⟩)] s ∧
      (∃ row, (s.table "key-1").committed = some row ∧ row.writer = 1) ∧
      (oracle .defaults .order .reused).step s (.settle 0) = some s' ∧
      (s'.table "key-1").view 0 ≠ (s.table "key-1").view 0 ∧
      Run (oracle .defaults .order .reused) Free s'
        [.commit 0 (.ok ()), .begin 2, .insert 2 86400002, .select 2 86400002,
          .commit 2 (.ok ())] s'' ∧
      s''.phase 2 = .answered (.replay 201 (.string "order-1")) ∧
      ∀ r res, Requests.reused.fingerprint r = Requests.reused.fingerprint 2 →
        ¬ s''.Produced r res := by
  constructor
  · refine ⟨_, _, _, .of_exec rfl fun _ _ _ _ => trivial, rfl, rfl, ?_, rfl, rfl, ?_⟩
    · intro h
      cases congrArg ClaimRecord.state (Option.some.inj h)
    · rintro (_ | _ | _ | r) since res hf ⟨hp, -⟩
      · exact absurd hf (by decide)
      · cases hp
      · cases hp
      · cases hp
  · refine ⟨_, _, _, .of_exec rfl fun _ _ _ _ => trivial, ⟨_, rfl, rfl⟩, rfl, ?_,
      .of_exec rfl fun _ _ _ _ => trivial, rfl, ?_⟩
    · intro h
      cases congrArg ClaimRow.state (Option.some.inj h)
    · rintro (_ | _ | _ | r) res hf ⟨pipe, executed, hp⟩
      · exact absurd hf (by decide)
      · cases hp
      · cases hp
      · cases hp

/-- What the two runs of a request that is not superseded come to, with both stores. -/
theorem superseded_harmless_once :
    (∃ s : State, Run (system .defaults .retries) (OwnRecord .retries) (State.fresh 0)
        [.claim 0, .handlerEnd 0 (.ok ⟨201, .string "order-1"⟩), .settle 0] s ∧
      Attributed .defaults .retries s) ∧
    ∃ s : OracleState, Run (oracle .defaults .order .retries) (OwnRow .order .retries) .fresh
        [.begin 0, .insert 0 0, .commit 0 (.ok ()), .begin 1, .insert 1 5, .select 1 5,
          .commit 1 (.ok ())] s ∧
      OracleAttributed .order .retries s := by
  have hrun : Run (system .defaults .retries) (OwnRecord .retries) (State.fresh 0)
      [.claim 0, .handlerEnd 0 (.ok ⟨201, .string "order-1"⟩), .settle 0] _ :=
    .snoc (.snoc (.one rfl fun _ _ _ _ h => nomatch h) rfl fun _ _ _ _ h => nomatch h) rfl
      fun _ _ _ _ h _ _ => .inl (Label.settle.inj h ▸ rfl)
  have hrun' : Run (oracle .defaults .order .retries) (OwnRow .order .retries) .fresh
      [.begin 0, .insert 0 0, .commit 0 (.ok ()), .begin 1, .insert 1 5, .select 1 5,
        .commit 1 (.ok ())] _ :=
    .of_exec rfl fun l hl _ _ r _ _ _ he => by
      subst he
      simp at hl
  exact ⟨⟨_, hrun, ((superseded_harmless _ .order _).1 _ _ _ hrun).1⟩,
    ⟨_, hrun', ((superseded_harmless _ _ _).2 _ _ hrun').1⟩⟩

end NestDdd.Idempotency

import NestDdd.Idempotency.OracleStore

/-!
# Idempotency — claims of the Oracle store exclude each other

The primary key makes the row a slot: an `INSERT` takes it only when it is vacant, and purge and
release vacate it.  The takeover `UPDATE` is the exception: it goes by the row that an earlier
`SELECT` returned, and does not ask again.  `Unmoved` is the promise that the row it reaches is
still of the claim that was selected.

* `Exclusive`: on unmoved runs each cell's log is a history of a slot, and whoever was granted a
  claim is in it.
* `claims_exclude`: two requests are both granted a key only if in between the claim of the first
  was released, had expired, or had been in progress for too long.
* `both_take_over`: without the promise, two requests that select one stale row both take it over.
-/

namespace NestDdd.Idempotency

open Runs OracleIdempotencyStore

section

variable (config : IdempotencyConfig) (reqs : Requests)

/-- The claim really had ended: the clock that was read says so. -/
def Ending.Proper : Ending → Prop
  | .released => True
  | .expired expiresAt sysNow => expiresAt < sysNow
  | .outlived createdAt dateNow => config.inProgressTtlMs < dateNow - createdAt

/-- A move that ends a claim does so properly. -/
def Legit (_ : Option Nat) (m : Move) (_ : Option Nat) : Prop :=
  ∀ a why, m.ended = some (a, why) → why.Proper config

/-- The row a takeover `UPDATE` reaches is still of the claim that its `SELECT` returned. -/
def Unmoved (s : OracleState) (l : OracleLabel) (_ : OracleState) : Prop :=
  ∀ r now seen dateNow, l = .takeOver r → s.phase r = .claiming (.takingOver now seen dateNow) →
    ∃ row, (s.table (reqs.key r)).view r = some row ∧ row.writer = seen.writer

/-- `r` has been told that it holds its key. -/
def OracleState.Granted (s : OracleState) (r : Nat) : Prop :=
  ∃ handled pipe executed, s.phase r = .claimed handled pipe executed

/-- No transaction is open; a row is there for any key or not, in any state and of any age, from
a claim that has been made. -/
structure OracleState.Quiet (s : OracleState) : Prop where
  settled : ∀ k, ∃ row, s.table k = Cell.settled row
  idle : ∀ r stage, s.phase r ≠ .claiming stage
  written : ∀ k row, (s.table k).committed = some row → s.phase row.writer ≠ .waiting

/-- `a` and then `b` took the slot, and in between the claim of `a` properly ended. -/
def Succeeds (log : List Move) (a b : Nat) : Prop :=
  ∃ pre l₁ mid l₂ post, log = pre ++ l₁ :: (mid ++ l₂ :: post) ∧ l₁.taker = some a ∧
    l₂.taker = some b ∧ ∃ m ∈ mid ++ [l₂], ∃ why, m.ended = some (a, why) ∧ why.Proper config

/-- Who holds the key of a row. -/
def slotOf : Option ClaimRow → Option Nat := Option.map ClaimRow.writer

/-- What holds of an unmoved run that started in `s₀`. -/
structure Exclusive (s₀ s : OracleState) : Prop where
  tracks : ∀ k, (s.table k).Tracks Slot.machine (Legit config) slotOf
    (slotOf (s₀.table k).committed)
  seen : ∀ r now row dateNow, s.phase r = .claiming (.takingOver now row dateNow) →
    config.inProgressTtlMs < dateNow - row.createdAt
  granting : ∀ r, s.phase r = .claiming (.done .claimed) → ∃ d,
    (s.table (reqs.key r)).draft = some d ∧ d.owner = r ∧ ∃ m ∈ d.moves, m.taker = some r
  logged : ∀ r, s₀.phase r = .waiting → s.Granted r →
    ∃ m ∈ (s.table (reqs.key r)).log, m.taker = some r

end

variable {config : IdempotencyConfig} {json : JsonCodec} {reqs : Requests}
  {s₀ s s' : OracleState} {r : Nat}

/-! ### One step -/

theorem slot_run {a b : Option Nat} {m : Move} (h : Slot.machine.step a m = some b)
    (hm : ∀ a why, m.ended = some (a, why) → why.Proper config) :
    Run Slot.machine (Legit config) a [m] b :=
  .one h hm

/-- A `SELECT` grants nothing, and leads to a takeover only of a row too long in progress. -/
theorem afterSelect_cases {f : String} {now dateNow : Int} {view : Option ClaimRow}
    {stage : ClaimAt} (h : afterSelect config json f now dateNow view = some stage) :
    stage ≠ .done .claimed ∧ ∀ now' row d, stage = .takingOver now' row d →
      view = some row ∧ config.inProgressTtlMs < d - row.createdAt := by
  cases view with
  | none => obtain rfl := Option.some.inj h; simp
  | some row =>
      simp only [afterSelect] at h
      split at h
      next => obtain rfl := Option.some.inj h; simp
      next =>
        split at h
        next =>
          split at h
          next => obtain rfl := Option.some.inj h; simp
          next hlate =>
            obtain rfl := Option.some.inj h
            refine ⟨by simp, fun now' row' d hs => ?_⟩
            obtain ⟨-, rfl, rfl⟩ := ClaimAt.takingOver.inj hs
            exact ⟨rfl, Int.not_le.mp hlate⟩
        next =>
          obtain ⟨body, -, rfl⟩ := Option.map_eq_some_iff.mp h
          simp

/-- What a step of `r` has to show: the rest is left alone. -/
theorem Exclusive.acted (hi : Exclusive config reqs s₀ s) (hact : s.ActedBy r s')
    (htracks : ∀ k, (s'.table k).Tracks Slot.machine (Legit config) slotOf
      (slotOf (s₀.table k).committed))
    (hseen : ∀ now row dateNow, s'.phase r = .claiming (.takingOver now row dateNow) →
      config.inProgressTtlMs < dateNow - row.createdAt)
    (hgranting : s'.phase r = .claiming (.done .claimed) → ∃ d,
      (s'.table (reqs.key r)).draft = some d ∧ d.owner = r ∧ ∃ m ∈ d.moves, m.taker = some r)
    (hlogged : s₀.phase r = .waiting → s'.Granted r →
      ∃ m ∈ (s'.table (reqs.key r)).log, m.taker = some r) :
    Exclusive config reqs s₀ s' := by
  refine ⟨htracks, fun r' now row d hp => ?_, fun r' hp => ?_, fun r' h₀ hg => ?_⟩
  · by_cases hr : r' = r
    · subst hr; exact hseen now row d hp
    · exact hi.seen r' now row d (hact.phases r' hr ▸ hp)
  · by_cases hr : r' = r
    · subst hr; exact hgranting hp
    · -- the lock that `r'` holds keeps `r` out
      obtain ⟨d, hd, rfl, hm⟩ := hi.granting r' (hact.phases r' hr ▸ hp)
      rw [(hact.cells _).locked d hd hr]
      exact ⟨d, hd, rfl, hm⟩
  · by_cases hr : r' = r
    · subst hr; exact hlogged h₀ hg
    · obtain ⟨h, p, x, hp⟩ := hg
      obtain ⟨m, hm, ht⟩ := hi.logged r' h₀ ⟨h, p, x, hact.phases r' hr ▸ hp⟩
      exact ⟨m, (hact.cells _).log.subset hm, ht⟩

theorem Exclusive.tracks_write (hi : Exclusive config reqs s₀ s) {k : String}
    {v : Option ClaimRow} {ms : List Move} {phase : OraclePhase}
    (hrun : Run Slot.machine (Legit config) (slotOf ((s.table k).view r)) ms (slotOf v)) :
    ∀ k', ((s.exec r k ((s.table k).write r v ms) phase).table k').Tracks Slot.machine
      (Legit config) slotOf (slotOf (s₀.table k').committed) := by
  intro k'
  by_cases hk : k' = k
  · subst hk; simpa [OracleState.exec] using (hi.tracks k').write hrun
  · simpa [OracleState.exec, hk] using hi.tracks k'

/-- A claim that writes its row, and is granted when it commits. -/
theorem Exclusive.granted (hi : Exclusive config reqs s₀ s)
    (hf : (s.table (reqs.key r)).free r = true) {row : ClaimRow} {m : Move}
    (hrun : Run Slot.machine (Legit config) (slotOf ((s.table (reqs.key r)).view r)) [m]
      (slotOf (some row))) (hm : m.taker = some r) :
    Exclusive config reqs s₀ (s.exec r (reqs.key r)
      ((s.table (reqs.key r)).write r (some row) [m]) (.claiming (.done .claimed))) := by
  refine hi.acted (acted_write hf ..) (hi.tracks_write hrun) (by simp) (fun _ => ?_) ?_
  · rw [OracleState.exec_table]
    exact ⟨_, rfl, rfl, m, List.mem_append_right _ (List.mem_singleton_self m), hm⟩
  · rintro - ⟨h, p, x, hp⟩
    simp at hp

/-- The phase of one request has changed, to neither a takeover nor a grant. -/
theorem Exclusive.goto (hi : Exclusive config reqs s₀ s) {phase : OraclePhase}
    (hseen : ∀ now row dateNow, phase = .claiming (.takingOver now row dateNow) →
      config.inProgressTtlMs < dateNow - row.createdAt)
    (hdone : phase ≠ .claiming (.done .claimed))
    (hgrant : (∃ h p x, phase = .claimed h p x) → s.Granted r) :
    Exclusive config reqs s₀ (s.goto r phase) := by
  refine hi.acted (acted_goto _) hi.tracks (by simpa using hseen) (fun hp => ?_) fun h₀ hg => ?_
  · exact absurd (OracleState.goto_phase.symm.trans hp) hdone
  · obtain ⟨h, p, x, hp⟩ := hg
    exact hi.logged r h₀ (hgrant ⟨h, p, x, OracleState.goto_phase.symm.trans hp⟩)

theorem Exclusive.commit (hi : Exclusive config reqs s₀ s) {answer : Except Thrown Unit}
    (h : (oracle config json reqs).step s (.commit r answer) = some s') :
    Exclusive config reqs s₀ s' := by
  obtain ⟨outcome, hp, rfl⟩ | ⟨handled, pipe, hp, rfl⟩ := oracle_commit h
  · -- a granted claim has its move in the draft, which is now in the log
    refine hi.acted (acted_commit _) (fun k => (hi.tracks k).commit) ?_ ?_ fun _ hg => ?_
    · rw [OracleState.finish_phase]
      cases answer <;> cases outcome <;> simp [OraclePhase.returned]
    · rw [OracleState.finish_phase]
      cases answer <;> cases outcome <;> simp [OraclePhase.returned]
    · obtain ⟨h, p, x, hq⟩ := hg
      rw [OracleState.finish_phase] at hq
      cases answer with
      | error e => cases hq
      | ok _ =>
          cases outcome with
          | claimed =>
              obtain ⟨d, hd, ho, m, hm, ht⟩ := hi.granting r hp
              refine ⟨m, ?_, ht⟩
              show m ∈ ((s.table (reqs.key r)).commit r).log
              rw [Cell.commit_own hd ho]
              exact List.mem_append_right _ hm
          | inProgress | mismatch | replay _ _ => cases hq
  · refine hi.acted (acted_commit _) (fun k => (hi.tracks k).commit) (by simp) (by simp)
      fun h₀ _ => ?_
    obtain ⟨m, hm, ht⟩ := hi.logged r h₀ ⟨_, _, _, hp⟩
    exact ⟨m, (Cell.ActedBy.commit ..).log.subset hm, ht⟩

theorem Exclusive.abort (hi : Exclusive config reqs s₀ s) {error : Thrown}
    (h : (oracle config json reqs).step s (.abort r error) = some s') :
    Exclusive config reqs s₀ s' := by
  obtain ⟨stage, hp, rfl⟩ | ⟨handled, pipe, executed, call, hp, -, rfl⟩ := oracle_abort h
  · refine hi.acted (acted_abort _) (fun k => (hi.tracks k).abort) (by simp) (by simp) ?_
    rintro - ⟨h, p, x, hq⟩
    simp at hq
  · refine hi.acted (acted_abort _) (fun k => (hi.tracks k).abort) (by simp) (by simp)
      fun h₀ _ => ?_
    obtain ⟨m, hm, ht⟩ := hi.logged r h₀ ⟨_, _, _, hp⟩
    exact ⟨m, (Cell.ActedBy.abort ..).log.subset hm, ht⟩

theorem Exclusive.settle (hi : Exclusive config reqs s₀ s)
    (h : (oracle config json reqs).step s (.settle r) = some s') :
    Exclusive config reqs s₀ s' := by
  obtain ⟨handled, pipe, call, f, hp, hc, hset, ⟨-, rfl⟩ | ⟨row, hv, hf, rfl⟩⟩ := oracle_settle h
  · exact hi.goto (by simp) (by simp) fun _ => ⟨_, _, _, hp⟩
  · refine hi.acted (acted_write hf ..) (hi.tracks_write ?_) (by simp) (by simp) fun h₀ _ => ?_
    · rw [hv]
      rcases settling_cases hc hset with ⟨res, -, rfl⟩ | ⟨rfl, -⟩
      · exact .nil
      · refine slot_run (if_pos rfl) fun a why he => ?_
        cases he
        trivial
    · rw [OracleState.exec_table]
      exact hi.logged r h₀ ⟨_, _, _, hp⟩

/-- One step of an unmoved run keeps `Exclusive`. -/
theorem Exclusive.step (s : OracleState) (l : OracleLabel) (s' : OracleState)
    (hi : Exclusive config reqs s₀ s) (h : (oracle config json reqs).step s l = some s')
    (hg : Unmoved reqs s l s') : Exclusive config reqs s₀ s' := by
  cases l with
  | begin r => obtain ⟨-, rfl⟩ := oracle_begin h; exact hi.goto (by simp) (by simp) (by simp)
  | purge r k sysNow =>
      obtain ⟨n, row, -, hv, hexp, hf, rfl⟩ := oracle_purge h
      refine hi.acted (acted_write hf ..) (hi.tracks_write ?_) (by simp) (by simp) ?_
      · rw [hv]
        refine slot_run (if_pos rfl) fun a why he => ?_
        cases he
        exact hexp
      · rintro - ⟨h, p, x, hq⟩
        simp at hq
  | insert r now =>
      obtain ⟨n, -, ⟨hv, hf, rfl⟩ | rfl⟩ := oracle_insert h
      · exact hi.granted hf (by rw [hv]; exact slot_run rfl fun _ _ he => nomatch he) rfl
      · exact hi.goto (by simp) (by simp) (by simp)
  | select r dateNow =>
      obtain ⟨now, stage, -, hs, rfl⟩ := oracle_select h
      obtain ⟨hdone, hseen⟩ := afterSelect_cases hs
      refine hi.goto (fun now' row d hp => ?_) (by simpa using hdone) (by simp)
      exact (hseen now' row d (OraclePhase.claiming.inj hp)).2
  | insertAgain r =>
      obtain ⟨now, -, hv, hf, rfl⟩ := oracle_insertAgain h
      exact hi.granted hf (by rw [hv]; exact slot_run rfl fun _ _ he => nomatch he) rfl
  | takeOver r =>
      obtain ⟨now, seen, dateNow, hp, hcase⟩ := oracle_takeOver h
      -- the row is of the claim that was seen, which had been in progress for too long
      obtain ⟨cur, hcur, hw⟩ := hg r now seen dateNow rfl hp
      obtain ⟨hv, -⟩ | ⟨row, hv, hf, rfl⟩ := hcase
      · rw [hcur] at hv; cases hv
      · refine hi.granted hf ?_ rfl
        rw [hcur]
        refine slot_run (if_pos hw) fun a why he => ?_
        cases he
        exact hi.seen r now seen dateNow hp
  | commit r answer => exact hi.commit h
  | abort r error => exact hi.abort h
  | handlerEnd r settled =>
      obtain ⟨handled, executed, hp, rfl⟩ := oracle_handlerEnd h
      exact hi.goto (by simp) (by simp) fun _ => ⟨_, _, _, hp⟩
  | settle r => exact hi.settle h

theorem Exclusive.start (hq : s₀.Quiet) : Exclusive config reqs s₀ s₀ := by
  refine ⟨fun k => ?_, fun r now row d hp => ?_, fun r hp => ?_, fun r h₀ hg => ?_⟩
  · obtain ⟨row, hrow⟩ := hq.settled k
    rw [hrow]
    exact .settled row
  · exact absurd hp (hq.idle r _)
  · exact absurd hp (hq.idle r _)
  · obtain ⟨h, p, x, hp⟩ := hg
    rw [h₀] at hp
    cases hp

/-! ### Claims exclude each other -/

/-- The log says that the claim of the first has ended. -/
theorem Succeeds.ended {log : List Move} {a b : Nat} (h : Succeeds config log a b) :
    ∃ m ∈ log, ∃ why, m.ended = some (a, why) := by
  obtain ⟨pre, l₁, mid, l₂, post, rfl, -, -, m, hm, why, he, -⟩ := h
  refine ⟨m, List.mem_append_right _ (List.mem_cons_of_mem _ ?_), why, he⟩
  rw [← List.singleton_append, ← List.append_assoc]
  exact List.mem_append_left _ hm

/-- Two takings in the log of a slot: the claim of the first ended before the second. -/
theorem Exclusive.succeeds (hi : Exclusive config reqs s₀ s) {k : String} {a b : Nat}
    {pre mid post : List Move} {l₁ l₂ : Move}
    (hlog : (s.table k).log = pre ++ l₁ :: (mid ++ l₂ :: post)) (h₁ : l₁.taker = some a)
    (h₂ : l₂.taker = some b) : Succeeds config (s.table k).log a b := by
  obtain ⟨m, hm, t, t', why, he, -, hg⟩ :=
    Slot.ended_between (hlog ▸ (hi.tracks k).committed) h₁
  exact ⟨pre, l₁, mid, l₂, post, hlog, h₁, h₂, m, hm, why, he, hg a why he⟩

/-- **Claims exclude each other.**  On every unmoved run, from any rows: of two requests that
have both been granted one key, one came after the other, and in between the claim of the first was
released, was found expired, or was found in progress for longer than `inProgressTtlMs`. -/
theorem claims_exclude {ls : List OracleLabel} {a b : Nat} (hq : s₀.Quiet)
    (hrun : Run (oracle config json reqs) (Unmoved reqs) s₀ ls s) (hab : a ≠ b)
    (hk : reqs.key a = reqs.key b) (ha₀ : s₀.phase a = .waiting) (hb₀ : s₀.phase b = .waiting)
    (ha : s.Granted a) (hb : s.Granted b) :
    Succeeds config (s.table (reqs.key a)).log a b ∨
      Succeeds config (s.table (reqs.key a)).log b a := by
  have hi : Exclusive config reqs s₀ s := hrun.invariant (.start hq) Exclusive.step
  obtain ⟨m₁, hm₁, ht₁⟩ := hi.logged a ha₀ ha
  obtain ⟨m₂, hm₂, ht₂⟩ := hi.logged b hb₀ hb
  rw [← hk] at hm₂
  obtain ⟨pre, post, hlog⟩ := List.append_of_mem hm₁
  rw [hlog] at hm₂
  rcases List.mem_append.mp hm₂ with hm₂ | hm₂
  · obtain ⟨pre', mid, rfl⟩ := List.append_of_mem hm₂
    rw [List.append_assoc] at hlog
    exact .inr (hi.succeeds hlog ht₂ ht₁)
  · rcases List.mem_cons.mp hm₂ with rfl | hm₂
    · exact absurd (Option.some.inj (ht₁.symm.trans ht₂)) hab
    · obtain ⟨mid, post', rfl⟩ := List.append_of_mem hm₂
      exact .inl (hi.succeeds hlog ht₁ ht₂)

theorem OracleState.fresh_quiet : OracleState.fresh.Quiet := by
  refine ⟨fun _ => ⟨none, rfl⟩, fun _ _ h => OraclePhase.noConfusion h, fun _ _ h => ?_⟩
  cases h

/-- A retry is granted the key after the request before it has failed and released it. -/
theorem claims_exclude_retry :
    ∃ s, Run (oracle .defaults .order .retries) (Unmoved .retries) .fresh
        [.begin 0, .insert 0 0, .commit 0 (.ok ()), .handlerEnd 0 (.error (.raised .null)),
          .settle 0, .commit 0 (.ok ()), .begin 1, .insert 1 5, .commit 1 (.ok ())] s ∧
      (Succeeds .defaults (s.table "key-1").log 0 1 ∨
        Succeeds .defaults (s.table "key-1").log 1 0) := by
  have hrun : Run (oracle .defaults .order .retries) (Unmoved .retries) .fresh
      [.begin 0, .insert 0 0, .commit 0 (.ok ()), .handlerEnd 0 (.error (.raised .null)),
        .settle 0, .commit 0 (.ok ()), .begin 1, .insert 1 5, .commit 1 (.ok ())] _ :=
    .of_exec rfl fun l hl _ _ r now seen dateNow he => by
      subst he
      simp at hl
  exact ⟨_, hrun, claims_exclude OracleState.fresh_quiet hrun (by decide) rfl rfl rfl
    ⟨_, _, _, rfl⟩ ⟨_, _, _, rfl⟩⟩

/-- The row of a request whose process died a while ago. -/
def abandoned : OracleState where
  table := Function.update (fun _ => Cell.settled none) "key-1"
    (Cell.settled (some (openedRow .defaults 9 "fp-1" 0)))
  phase := Function.update (fun _ => .waiting) 9 (.claimed none .handling false)

theorem abandoned_quiet : abandoned.Quiet := by
  refine ⟨fun k => ?_, fun r stage h => ?_, fun k row h => ?_⟩
  · by_cases hk : k = "key-1"
    · subst hk; exact ⟨_, rfl⟩
    · exact ⟨none, by simp [abandoned, hk]⟩
  · by_cases hr : r = 9
    · subst hr; cases h
    · simp [abandoned, hr] at h
  · by_cases hk : k = "key-1"
    · subst hk
      obtain rfl := Option.some.inj h
      exact OraclePhase.noConfusion
    · simp [abandoned, hk, Cell.settled] at h

/-- Two retries find the abandoned row a minute later. -/
def bothSelect : List OracleLabel :=
  [.begin 0, .begin 1, .insert 0 60001, .insert 1 60001, .select 0 60001, .select 1 60001,
    .takeOver 0, .commit 0 (.ok ()), .takeOver 1, .commit 1 (.ok ())]

/-- What that leaves in the log: both moves end the claim of request 9. -/
def stolen : List Move :=
  [.supplant 9 0 (.outlived 0 60001), .supplant 9 1 (.outlived 0 60001)]

/-- Both are granted the key, the second at the expense of the first, whose claim is fresh. -/
theorem both_take_over :
    abandoned.Quiet ∧ ∃ s, Run (oracle .defaults .order .retries) Free abandoned bothSelect s ∧
      abandoned.phase 0 = .waiting ∧ abandoned.phase 1 = .waiting ∧ s.Granted 0 ∧ s.Granted 1 ∧
      ¬ (Succeeds .defaults (s.table "key-1").log 0 1 ∨
        Succeeds .defaults (s.table "key-1").log 1 0) := by
  have hrun : Run (oracle .defaults .order .retries) Free abandoned bothSelect _ :=
    .of_exec rfl fun _ _ _ _ => trivial
  refine ⟨abandoned_quiet, _, hrun, rfl, rfl, ⟨_, _, _, rfl⟩, ⟨_, _, _, rfl⟩, ?_⟩
  have hnine : ∀ m ∈ stolen, ∀ a why, m.ended = some (a, why) → a = 9 := by
    intro m hm a why he
    simp only [stolen, List.mem_cons, List.not_mem_nil, or_false] at hm
    rcases hm with rfl | rfl <;> cases he <;> rfl
  rintro (h | h)
  · obtain ⟨m, hm, why, he⟩ := h.ended
    cases hnine m hm _ why he
  · obtain ⟨m, hm, why, he⟩ := h.ended
    cases hnine m hm _ why he

end NestDdd.Idempotency

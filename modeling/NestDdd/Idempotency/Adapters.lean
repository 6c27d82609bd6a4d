import Mathlib.Data.List.AList
import NestDdd.Idempotency.Replay
import NestDdd.Runs.Machine

/-!
# Idempotency — the two adapters side by side

A sequential run of `claim`, `complete` and `release` calls, each made of both stores at one time
on one clock.  The in-memory store forgets an expired record when its key is claimed again; the
Oracle store deletes up to a hundred expired rows before it looks at its own.

* `Matches`: a row is the record of its key, and a key without a row has no record or an expired
  one.  Every call keeps it (`matches_step`) that meets `PurgesOwn`.
* `adapters_agree`: while no claim finds the expired row of its own key left behind by the purge,
  the two stores answer alike.  At most a hundred expired rows are enough (`purgesOwn_of_few`).
* `adapters_differ`: with a hundred and one expired rows, the purge may leave the one that is
  claimed, and the Oracle store still remembers it.
-/

namespace NestDdd.Idempotency

open Runs NestDdd.JsValue

/-- The table, by its primary key. -/
abbrev Rows := AList fun _ : String => ClaimRow

/-- Both stores, the clock, and what the claims were answered, the latest first; `none` is a claim
that Oracle's side rejected. -/
structure Adapters where
  clock : Int
  records : Records
  rows : Rows
  answers : List (ClaimOutcome × Option ClaimOutcome)

/-- Nothing stored yet. -/
def Adapters.fresh : Adapters := ⟨0, fun _ => none, ∅, []⟩

/-- One call, at `now`.  Which expired rows the `DELETE` of a claim takes is the database's. -/
inductive StoreLabel where
  | claim (key fingerprint : String) (now : Int) (deleted : List String)
  | complete (key : String) (status : Int) (body : JsValue) (now : Int)
  | release (key : String) (now : Int)

/-- The keys of the rows that `expires_at < SYSTIMESTAMP` selects. -/
def expiredKeys (now : Int) (rows : Rows) : List String :=
  (rows.entries.filter fun row => row.2.expiresAt < now).map (·.1)

/-- `deleted` are the rows `DELETE … WHERE expires_at < SYSTIMESTAMP AND ROWNUM <= 100` takes: all
that are expired, or a hundred of them. -/
def Purges (now : Int) (rows : Rows) (deleted : List String) : Prop :=
  deleted.Nodup ∧ deleted ⊆ expiredKeys now rows ∧
    deleted.length = min 100 (expiredKeys now rows).length

instance (now : Int) (rows : Rows) (deleted : List String) :
    Decidable (Purges now rows deleted) :=
  inferInstanceAs (Decidable (_ ∧ (∀ k ∈ deleted, k ∈ expiredKeys now rows) ∧ _))

/-- What is left of the table. -/
def purge (deleted : List String) (rows : Rows) : Rows :=
  deleted.foldl (fun rows key => rows.erase key) rows

section

variable (config : IdempotencyConfig) (json : JsonCodec)

/-- `claimOn` with no other transaction about; a rejected claim is rolled back. -/
def claimOn (rows : Rows) (key fingerprint : String) (now : Int) (deleted : List String) :
    Option ClaimOutcome × Rows :=
  let left := purge deleted rows
  let opened := left.insert key (OracleIdempotencyStore.openedRow config 0 fingerprint now)
  match left.lookup key with
  | none => (some .claimed, opened)
  | some row =>
      match OracleIdempotencyStore.afterSelect config json fingerprint now now (some row) with
      | some (.done outcome) => (some outcome, left)
      | some (.takingOver _ _ _) => (some .claimed, opened)
      | _ => (none, rows)

/-- The `UPDATE` of `complete`. -/
def completeOn (rows : Rows) (key : String) (status : Int) (body : JsValue) : Rows :=
  match (rows.lookup key).bind fun row =>
      (OracleIdempotencyStore.completed json status body row).1 with
  | none => rows
  | some row => rows.insert key row

def adapterStep (s : Adapters) : StoreLabel → Option Adapters
  | .claim key fingerprint now deleted =>
      if s.clock ≤ now ∧ Purges now s.rows deleted then
        let memory := InMemoryIdempotencyStore.claim config s.records now key fingerprint
        let oracle := claimOn config json s.rows key fingerprint now deleted
        some ⟨now, memory.2, oracle.2, (memory.1, oracle.1) :: s.answers⟩
      else none
  | .complete key status body now =>
      if s.clock ≤ now then
        some ⟨now, InMemoryIdempotencyStore.complete s.records key status body,
          completeOn json s.rows key status body, s.answers⟩
      else none
  | .release key now =>
      if s.clock ≤ now then
        some ⟨now, InMemoryIdempotencyStore.release s.records key, s.rows.erase key, s.answers⟩
      else none

def adapters : Machine Adapters StoreLabel := ⟨adapterStep config json⟩

end

/-! ### The purge -/

theorem mem_expiredKeys {now : Int} {rows : Rows} {key : String} :
    key ∈ expiredKeys now rows ↔ ∃ row, rows.lookup key = some row ∧ row.expiresAt < now := by
  simp only [expiredKeys, List.mem_map, List.mem_filter, decide_eq_true_eq]
  constructor
  · rintro ⟨⟨key, row⟩, ⟨hmem, hexp⟩, rfl⟩
    exact ⟨row, AList.mem_lookup_iff.mpr hmem, hexp⟩
  · rintro ⟨row, hrow, hexp⟩
    exact ⟨⟨key, row⟩, ⟨AList.mem_lookup_iff.mp hrow, hexp⟩, rfl⟩

theorem lookup_purge (deleted : List String) (rows : Rows) (key : String) :
    (purge deleted rows).lookup key = if key ∈ deleted then none else rows.lookup key := by
  induction deleted generalizing rows with
  | nil => rfl
  | cons k deleted ih =>
      change (purge deleted (rows.erase k)).lookup key = _
      rw [ih]
      by_cases hk : key = k
      · subst hk; simp
      · simp [hk, AList.lookup_erase_ne hk]

/-- What the purge takes had expired. -/
theorem Purges.expired {now : Int} {rows : Rows} {deleted : List String} {key : String}
    (h : Purges now rows deleted) (hkey : key ∈ deleted) :
    ∃ row, rows.lookup key = some row ∧ row.expiresAt < now :=
  mem_expiredKeys.mp (h.2.1 hkey)

/-- At most a hundred expired rows, and the purge takes them all. -/
theorem Purges.all_of_few {now : Int} {rows : Rows} {deleted : List String}
    (h : Purges now rows deleted) (hfew : (expiredKeys now rows).length ≤ 100) :
    expiredKeys now rows ⊆ deleted := by
  obtain ⟨hnodup, hsub, hlength⟩ := h
  have hperm : deleted.Perm (expiredKeys now rows) :=
    (List.subperm_of_subset hnodup hsub).perm_of_length_le (by omega)
  exact hperm.symm.subset

/-! ### A record and its row -/

/-- An answer as JSON writes it. -/
def ClaimOutcome.asJson : ClaimOutcome → ClaimOutcome
  | .replay status body => .replay status ((jsonify body).getD .undefined)
  | outcome => outcome

structure SameRecord (json : JsonCodec) (record : ClaimRecord) (row : ClaimRow) : Prop where
  fingerprint : row.fingerprint = record.fingerprint
  state : row.state = record.state
  claimedAt : row.createdAt = record.claimedAt
  expiresAt : row.expiresAt = record.expiresAt
  status : row.status = record.status
  body : json.decode row.responseBody = some ((jsonify record.body).getD .undefined)

/-- What the two stores hold of one key. -/
def KeyMatches (json : JsonCodec) (clock : Int) (record? : Option ClaimRecord) :
    Option ClaimRow → Prop
  | some row => ∃ record, record? = some record ∧ SameRecord json record row
  | none => ∀ record, record? = some record → record.expiresAt ≤ clock

theorem KeyMatches.later {json : JsonCodec} {clock now : Int} {record? : Option ClaimRecord}
    {row? : Option ClaimRow} (h : KeyMatches json clock record? row?) (hle : clock ≤ now) :
    KeyMatches json now record? row? := by
  cases row? with
  | some row => exact h
  | none => exact fun record hrecord => Int.le_trans (h record hrecord) hle

/-- The two stores hold the same, and have answered alike. -/
structure Matches (json : JsonCodec) (s : Adapters) : Prop where
  keys : ∀ key, KeyMatches json s.clock (s.records key) (s.rows.lookup key)
  answers : ∀ a ∈ s.answers, a.2.map ClaimOutcome.asJson = some a.1.asJson

section Claim

variable {config : IdempotencyConfig} {json : JsonCodec} {clock now : Int} {records : Records}
  {rows : Rows} {key fingerprint : String} {deleted : List String}

/-- The purge keeps what matters. -/
theorem purge_matches (h : ∀ key, KeyMatches json clock (records key) (rows.lookup key))
    (hle : clock ≤ now) (hpurge : Purges now rows deleted) (key : String) :
    KeyMatches json now (records key) ((purge deleted rows).lookup key) := by
  rw [lookup_purge]
  split
  next hmem =>
    obtain ⟨row, hrow, hexp⟩ := hpurge.expired hmem
    have hkey := h key
    rw [hrow] at hkey
    obtain ⟨record, hrecord, hsame⟩ := hkey
    intro record' hrecord'
    obtain rfl := Option.some.inj (hrecord.symm.trans hrecord')
    rw [← hsame.expiresAt]
    omega
  next => exact (h key).later hle

theorem sameRecord_opened (now : Int) (fingerprint : String) :
    SameRecord json (InMemoryIdempotencyStore.opened config now fingerprint)
      (OracleIdempotencyStore.openedRow config 0 fingerprint now) :=
  ⟨rfl, rfl, rfl, rfl, rfl, by simp [InMemoryIdempotencyStore.opened,
    OracleIdempotencyStore.openedRow, JsonCodec.decode]⟩

/-- The claimed row, if it had expired, has been taken by the purge, or is one that the `SELECT`
finds abandoned by the same request. -/
def PurgesOwn (config : IdempotencyConfig) (rows : Rows) (key fingerprint : String) (now : Int)
    (deleted : List String) : Prop :=
  ∀ row, rows.lookup key = some row → row.expiresAt < now →
    key ∈ deleted ∨ row.fingerprint = fingerprint ∧ row.state = .inProgress ∧
      now - row.createdAt > config.inProgressTtlMs

/-- No purge leaves anything behind while at most a hundred rows have expired. -/
theorem purgesOwn_of_few (hpurge : Purges now rows deleted)
    (hfew : (expiredKeys now rows).length ≤ 100) :
    PurgesOwn config rows key fingerprint now deleted :=
  fun row hrow hexp => .inl (hpurge.all_of_few hfew (mem_expiredKeys.mpr ⟨row, hrow, hexp⟩))

variable (config now fingerprint deleted) in
/-- How Oracle's side answers a row that is still there. -/
theorem claimOn_row {row : ClaimRow} {record : ClaimRecord}
    (hrow : (purge deleted rows).lookup key = some row) (hsame : SameRecord json record row) :
    claimOn config json rows key fingerprint now deleted =
      if record.fingerprint = fingerprint ∧ record.state = .inProgress ∧
          now - record.claimedAt > config.inProgressTtlMs then
        (some .claimed, (purge deleted rows).insert key
          (OracleIdempotencyStore.openedRow config 0 fingerprint now))
      else
        (some (if record.fingerprint ≠ fingerprint then .mismatch
          else if record.state = .inProgress then .inProgress
          else .replay (record.status.getD 200) ((jsonify record.body).getD .undefined)),
          purge deleted rows) := by
  simp only [claimOn, hrow, OracleIdempotencyStore.afterSelect, hsame.fingerprint, hsame.state,
    hsame.claimedAt, hsame.status, hsame.body]
  by_cases hf : record.fingerprint = fingerprint
  · cases hs : record.state with
    | completed => simp [hf]
    | inProgress =>
        by_cases hlate : now - record.claimedAt ≤ config.inProgressTtlMs
        · have hnot : ¬ now - record.claimedAt > config.inProgressTtlMs := by omega
          simp [hf, hlate, hnot]
        · have hgt : now - record.claimedAt > config.inProgressTtlMs := by omega
          simp [hf, hlate, hgt]
  · simp [hf]

/-- A vacant record is claimed. -/
theorem claim_of_vacant (h : ∀ record, records key = some record →
      InMemoryIdempotencyStore.Vacant config now fingerprint record) :
    InMemoryIdempotencyStore.claim config records now key fingerprint =
      (.claimed, Function.update records key
        (some (InMemoryIdempotencyStore.opened config now fingerprint))) := by
  rcases InMemoryIdempotencyStore.claim_cases with ⟨hclaim, -⟩ | ⟨record, hrecord, hv, -⟩
  · exact hclaim
  · exact absurd (h record hrecord) hv

/-- **One claim.**  Both stores open a record, or both keep what they have and answer alike. -/
theorem claim_agrees (h : ∀ key, KeyMatches json clock (records key) (rows.lookup key))
    (hle : clock ≤ now) (hpurge : Purges now rows deleted)
    (hexact : ∀ record, records key = some record → record.expiresAt ≠ now)
    (hown : PurgesOwn config rows key fingerprint now deleted) :
    (InMemoryIdempotencyStore.claim config records now key fingerprint =
        (.claimed, Function.update records key
          (some (InMemoryIdempotencyStore.opened config now fingerprint))) ∧
      claimOn config json rows key fingerprint now deleted =
        (some .claimed, (purge deleted rows).insert key
          (OracleIdempotencyStore.openedRow config 0 fingerprint now))) ∨
    ∃ memory oracle,
      InMemoryIdempotencyStore.claim config records now key fingerprint = (memory, records) ∧
      claimOn config json rows key fingerprint now deleted =
        (some oracle, purge deleted rows) ∧ oracle.asJson = memory.asJson := by
  have hkey := purge_matches h hle hpurge key
  cases hl : (purge deleted rows).lookup key with
  | none =>
      rw [hl] at hkey
      exact .inl ⟨claim_of_vacant fun record hrecord => .inl (hkey record hrecord), by
        simp only [claimOn, hl]⟩
  | some row =>
      rw [hl] at hkey
      obtain ⟨record, hrecord, hsame⟩ := hkey
      have horacle := claimOn_row config now fingerprint deleted hl hsame
      rw [lookup_purge, Option.ite_none_left_eq_some] at hl
      by_cases hv : InMemoryIdempotencyStore.Vacant config now fingerprint record
      · have habandoned : record.fingerprint = fingerprint ∧ record.state = .inProgress ∧
            now - record.claimedAt > config.inProgressTtlMs := by
          rcases hv with hexp | habandoned
          · -- an expired row the purge has left: it must be an abandoned one
            have hlt : row.expiresAt < now := by
              have := hexact record hrecord
              rw [hsame.expiresAt]
              omega
            rcases hown row hl.2 hlt with hmem | habandoned
            · exact absurd hmem hl.1
            · rwa [hsame.fingerprint, hsame.state, hsame.claimedAt] at habandoned
          · exact habandoned
        refine .inl ⟨claim_of_vacant fun record' hrecord' => ?_, ?_⟩
        · exact Option.some.inj (hrecord.symm.trans hrecord') ▸ hv
        · rw [horacle, if_pos habandoned]
      · have hfresh : ¬ (record.fingerprint = fingerprint ∧ record.state = .inProgress ∧
            now - record.claimedAt > config.inProgressTtlMs) := fun h => hv (.inr h)
        rw [if_neg hfresh] at horacle
        refine .inr ⟨_, _, InMemoryIdempotencyStore.claim_some hrecord hv, horacle, ?_⟩
        split
        · rfl
        · split
          · rfl
          · cases hb : jsonify record.body with
            | none => simp [ClaimOutcome.asJson, hb]
            | some body => simp [ClaimOutcome.asJson, hb, jsonify_jsonify hb]

/-- A claim whose purge leaves the expired row of its own key behind, and does not find it
abandoned, is refused by Oracle's side only. -/
theorem claim_differs (h : KeyMatches json clock (records key) (rows.lookup key))
    (hown : ¬ PurgesOwn config rows key fingerprint now deleted) :
    (claimOn config json rows key fingerprint now deleted).1.map ClaimOutcome.asJson ≠
      some (InMemoryIdempotencyStore.claim config records now key fingerprint).1.asJson := by
  simp only [PurgesOwn, not_forall, not_or] at hown
  obtain ⟨row, hrow, hexp, hleft, hold⟩ := hown
  rw [hrow] at h
  obtain ⟨record, hrecord, hsame⟩ := h
  have hmemory := @claim_of_vacant config now records key fingerprint fun record' hrecord' => by
    obtain rfl := Option.some.inj (hrecord.symm.trans hrecord')
    exact .inl (by rw [← hsame.expiresAt]; omega)
  have horacle := claimOn_row config now fingerprint deleted
    (by rw [lookup_purge, if_neg hleft, hrow]) hsame
  rw [hsame.fingerprint, hsame.state, hsame.claimedAt] at hold
  rw [hmemory, horacle, if_neg hold]
  split_ifs <;> simp [ClaimOutcome.asJson]

end Claim

/-! ### One call -/

section Step

variable {config : IdempotencyConfig} {json : JsonCodec} {s s' : Adapters} {l : StoreLabel}

/-- What the claim says of the calls: none at the instant a record expires, and bodies that JSON
carries. -/
def Ordinary (json : JsonCodec) (s : Adapters) (l : StoreLabel) (_ : Adapters) : Prop :=
  match l with
  | .claim key _ now _ => ∀ record, s.records key = some record → record.expiresAt ≠ now
  | .complete _ _ body _ => json.RoundTrips body
  | .release _ _ => True

/-- The purge of a claim leaves no expired row of its own key behind. -/
def PurgedFirst (config : IdempotencyConfig) (s : Adapters) (l : StoreLabel) (_ : Adapters) :
    Prop :=
  match l with
  | .claim key fingerprint now deleted => PurgesOwn config s.rows key fingerprint now deleted
  | .complete _ _ _ _ | .release _ _ => True

/-- A record and its row, set together. -/
theorem matches_update {clock : Int} {records : Records} {rows : Rows} {key : String}
    {record : ClaimRecord} {row : ClaimRow}
    (h : ∀ key, KeyMatches json clock (records key) (rows.lookup key))
    (hsame : SameRecord json record row) (k : String) :
    KeyMatches json clock (Function.update records key (some record) k)
      ((rows.insert key row).lookup k) := by
  by_cases hk : k = key
  · subst hk
    rw [AList.lookup_insert, Function.update_self]
    exact ⟨record, rfl, hsame⟩
  · rw [AList.lookup_insert_ne hk, Function.update_of_ne hk]
    exact h k

theorem matches_claim {key fingerprint : String} {now : Int} {deleted : List String}
    (hm : Matches json s)
    (hs : (adapters config json).step s (.claim key fingerprint now deleted) = some s')
    (hexact : ∀ record, s.records key = some record → record.expiresAt ≠ now)
    (hown : PurgesOwn config s.rows key fingerprint now deleted) : Matches json s' := by
  obtain ⟨⟨hle, hpurge⟩, rfl⟩ :=
    Option.ite_none_right_eq_some.mp hs |>.imp_right Option.some.inj
  have hkeys := purge_matches hm.keys hle hpurge
  rcases claim_agrees hm.keys hle hpurge hexact hown with
    ⟨hmemory, horacle⟩ | ⟨memory, oracle, hmemory, horacle, heq⟩
  · rw [hmemory, horacle]
    exact ⟨matches_update hkeys (sameRecord_opened now fingerprint),
      List.forall_mem_cons.mpr ⟨rfl, hm.answers⟩⟩
  · rw [hmemory, horacle]
    exact ⟨hkeys, List.forall_mem_cons.mpr ⟨congrArg some heq, hm.answers⟩⟩

theorem matches_complete {key : String} {status : Int} {body : JsValue} {now : Int}
    (hm : Matches json s)
    (hs : (adapters config json).step s (.complete key status body now) = some s')
    (htrip : json.RoundTrips body) : Matches json s' := by
  obtain ⟨hle, rfl⟩ := Option.ite_none_right_eq_some.mp hs |>.imp_right Option.some.inj
  refine ⟨fun k => ?_, hm.answers⟩
  have hkeys : ∀ key, KeyMatches json now (s.records key) (s.rows.lookup key) :=
    fun key => (hm.keys key).later hle
  have hkey := hkeys key
  cases hrow : s.rows.lookup key with
  | none =>
      -- the row is gone: what the in-memory store completes has expired
      rw [hrow] at hkey
      have hrows : completeOn json s.rows key status body = s.rows := by simp [completeOn, hrow]
      rw [hrows, InMemoryIdempotencyStore.complete]
      cases hrecord : s.records key with
      | none => exact hkeys k
      | some record =>
          by_cases hk : k = key
          · subst hk
            rw [hrow]
            simpa [KeyMatches, InMemoryIdempotencyStore.closed] using hkey record hrecord
          · simpa [hk] using hkeys k
  | some row =>
      rw [hrow] at hkey
      obtain ⟨record, hrecord, hsame⟩ := hkey
      have hrows : completeOn json s.rows key status body = s.rows.insert key { row with
          state := .completed, status := some status, responseBody := json.encode body } := by
        simp [completeOn, hrow, OracleIdempotencyStore.completed]
      simp only [hrows, InMemoryIdempotencyStore.complete, hrecord]
      have hclosed : SameRecord json (InMemoryIdempotencyStore.closed record status body)
          { row with
            state := .completed, status := some status, responseBody := json.encode body } :=
        ⟨hsame.fingerprint, rfl, hsame.claimedAt, hsame.expiresAt, rfl,
          JsonCodec.decode_encode htrip⟩
      exact matches_update hkeys hclosed k

theorem matches_release {key : String} {now : Int} (hm : Matches json s)
    (hs : (adapters config json).step s (.release key now) = some s') : Matches json s' := by
  obtain ⟨hle, rfl⟩ := Option.ite_none_right_eq_some.mp hs |>.imp_right Option.some.inj
  refine ⟨fun k => ?_, hm.answers⟩
  by_cases hk : k = key
  · subst hk
    simp [KeyMatches]
  · simp only [InMemoryIdempotencyStore.release, Function.update_of_ne hk,
      AList.lookup_erase_ne hk]
    exact (hm.keys k).later hle

/-- Every call keeps the two stores alike, if its purge does not leave its own expired row. -/
theorem matches_step (hm : Matches json s) (hs : (adapters config json).step s l = some s')
    (hordinary : Ordinary json s l s') (hpurged : PurgedFirst config s l s') :
    Matches json s' := by
  cases l with
  | claim key fingerprint now deleted => exact matches_claim hm hs hordinary hpurged
  | complete key status body now => exact matches_complete hm hs hordinary
  | release key now => exact matches_release hm hs

end Step

/-! ### A hundred and one expired rows -/

/-- The keys `k`, `kk`, `kkk` and so on. -/
def nthKey (n : Nat) : String := String.ofList (List.replicate (n + 1) 'k')

theorem nthKey_inj {m n : Nat} (h : nthKey m = nthKey n) : m = n := by
  have hlength := congrArg String.length h
  simpa [nthKey] using hlength

/-- The first `n` of them claimed at once. -/
def claimedFirst : Nat → Adapters
  | 0 => .fresh
  | n + 1 =>
      let s := claimedFirst n
      ⟨0, Function.update s.records (nthKey n)
          (some (InMemoryIdempotencyStore.opened .defaults 0 "fp-1")),
        s.rows.insert (nthKey n) (OracleIdempotencyStore.openedRow .defaults 0 "fp-1" 0),
        (.claimed, some .claimed) :: s.answers⟩

theorem claimedFirst_clock (n : Nat) : (claimedFirst n).clock = 0 := by cases n <;> rfl

/-- A key has been claimed, or neither store has anything of it. -/
theorem claimedFirst_holds (n : Nat) (key : String) :
    ((∃ m < n, key = nthKey m) ∧
      (claimedFirst n).records key =
        some (InMemoryIdempotencyStore.opened .defaults 0 "fp-1") ∧
      (claimedFirst n).rows.lookup key =
        some (OracleIdempotencyStore.openedRow .defaults 0 "fp-1" 0)) ∨
    ((∀ m < n, key ≠ nthKey m) ∧ (claimedFirst n).records key = none ∧
      (claimedFirst n).rows.lookup key = none) := by
  induction n with
  | zero => exact .inr ⟨by simp, rfl, rfl⟩
  | succ n ih =>
      by_cases hkey : key = nthKey n
      · subst hkey
        exact .inl ⟨⟨n, by omega, rfl⟩, by simp [claimedFirst], by simp [claimedFirst]⟩
      · simp only [claimedFirst, AList.lookup_insert_ne hkey, Function.update_of_ne hkey]
        rcases ih with ⟨⟨m, hm, h⟩, hheld⟩ | ⟨hfree, hnone⟩
        · exact .inl ⟨⟨m, by omega, h⟩, hheld⟩
        · refine .inr ⟨fun m hm h => ?_, hnone⟩
          by_cases hmn : m = n
          · exact hkey (hmn ▸ h)
          · exact hfree m (by omega) h

theorem claimedFirst_next (n : Nat) : (claimedFirst n).records (nthKey n) = none ∧
    (claimedFirst n).rows.lookup (nthKey n) = none := by
  rcases claimedFirst_holds n (nthKey n) with ⟨⟨m, hm, h⟩, -⟩ | ⟨-, hnone⟩
  · have := nthKey_inj h
    omega
  · exact hnone

theorem claimedFirst_held {m n : Nat} (h : m < n) :
    (claimedFirst n).records (nthKey m) =
        some (InMemoryIdempotencyStore.opened .defaults 0 "fp-1") ∧
      (claimedFirst n).rows.lookup (nthKey m) =
        some (OracleIdempotencyStore.openedRow .defaults 0 "fp-1" 0) := by
  rcases claimedFirst_holds n (nthKey m) with ⟨-, hheld⟩ | ⟨hfree, -⟩
  · exact hheld
  · exact absurd rfl (hfree m h)

/-- None of them has expired at once. -/
theorem claimedFirst_unexpired (n : Nat) : expiredKeys 0 (claimedFirst n).rows = [] := by
  refine List.eq_nil_iff_forall_not_mem.mpr fun key hkey => ?_
  obtain ⟨row, hrow, hexp⟩ := mem_expiredKeys.mp hkey
  rcases claimedFirst_holds n key with ⟨-, -, hheld⟩ | ⟨-, -, hnone⟩
  · obtain rfl := Option.some.inj (hheld.symm.trans hrow)
    simp [OracleIdempotencyStore.openedRow, IdempotencyConfig.defaults] at hexp
  · rw [hnone] at hrow
    cases hrow

theorem claimedFirst_step (n : Nat) :
    (adapters .defaults .order).step (claimedFirst n) (.claim (nthKey n) "fp-1" 0 []) =
      some (claimedFirst (n + 1)) := by
  obtain ⟨hrecord, hrow⟩ := claimedFirst_next n
  have hpurge : Purges 0 (claimedFirst n).rows [] := by simp [Purges, claimedFirst_unexpired]
  have hmemory := @InMemoryIdempotencyStore.claim_none .defaults _ 0 _ "fp-1" hrecord
  have horacle : claimOn .defaults .order (claimedFirst n).rows (nthKey n) "fp-1" 0 [] =
      (some .claimed, (claimedFirst n).rows.insert (nthKey n)
        (OracleIdempotencyStore.openedRow .defaults 0 "fp-1" 0)) := by
    simp only [claimOn, purge, List.foldl_nil, hrow]
  simp only [adapters, adapterStep, claimedFirst_clock, hpurge, hmemory, horacle, Int.le_refl,
    and_self, if_true, claimedFirst]

theorem claimedFirst_run (n : Nat) :
    ∃ ls, Run (adapters .defaults .order) (Ordinary .order) .fresh ls (claimedFirst n) := by
  induction n with
  | zero => exact ⟨[], .nil⟩
  | succ n ih =>
      obtain ⟨ls, r⟩ := ih
      refine ⟨_, .snoc r (claimedFirst_step n) fun record hrecord => ?_⟩
      rw [(claimedFirst_next n).1] at hrecord
      cases hrecord

/-- A day later the purge takes a hundred of the hundred and one. -/
def purgedLater : List String := (List.range 100).map fun n => nthKey (n + 1)

theorem purgedLater_purges : Purges 86400001 (claimedFirst 101).rows purgedLater := by
  have hnodup : purgedLater.Nodup :=
    List.nodup_range.map fun m n h => by have := nthKey_inj h; omega
  have hsub : purgedLater ⊆ expiredKeys 86400001 (claimedFirst 101).rows := by
    intro key hkey
    obtain ⟨n, hn, rfl⟩ := List.mem_map.mp hkey
    have hlt := List.mem_range.mp hn
    refine mem_expiredKeys.mpr ⟨_, (claimedFirst_held (by omega)).2, ?_⟩
    simp [OracleIdempotencyStore.openedRow, IdempotencyConfig.defaults]
  have hle := (List.subperm_of_subset hnodup hsub).length_le
  have hlength : purgedLater.length = 100 := by simp [purgedLater]
  exact ⟨hnodup, hsub, by omega⟩

theorem first_left : nthKey 0 ∉ purgedLater := by
  intro h
  obtain ⟨n, -, hn⟩ := List.mem_map.mp h
  have := nthKey_inj hn
  omega

/-! ### The answers -/

/-- **The adapters agree.**  In every run of calls none of which is made at the instant a record
expires, and none of whose claims finds the expired row of its own key left behind by the purge,
the two stores have given the same answers, bodies compared as JSON. -/
theorem adapters_agree (config : IdempotencyConfig) (json : JsonCodec) {ls : List StoreLabel}
    {s : Adapters} (r : Run (adapters config json)
      (fun s l s' => Ordinary json s l s' ∧ PurgedFirst config s l s') .fresh ls s) :
    ∀ a ∈ s.answers, a.2.map ClaimOutcome.asJson = some a.1.asJson := by
  have hnone : KeyMatches json 0 none none := fun _ h => by cases h
  have hfresh : Matches json .fresh := ⟨fun _ => hnone, by simp [Adapters.fresh]⟩
  exact (r.invariant hfresh fun _ _ _ hm hs ⟨hordinary, hpurged⟩ =>
    matches_step hm hs hordinary hpurged).answers

/-- The first key claimed, and its order stored. -/
def storedFirst : Adapters where
  clock := 5
  records := InMemoryIdempotencyStore.complete (claimedFirst 1).records (nthKey 0) 201
    (.string "order-1")
  rows := completeOn .order (claimedFirst 1).rows (nthKey 0) 201 (.string "order-1")
  answers := (claimedFirst 1).answers

/-- One request and its retry: the claim is answered `claimed`, and then the stored order. -/
theorem adapters_agree_retry :
    ∃ s : Adapters, s.answers = [(.replay 201 (.string "order-1"),
        some (.replay 201 (.string "order-1"))), (.claimed, some .claimed)] ∧
      ∀ a ∈ s.answers, a.2.map ClaimOutcome.asJson = some a.1.asJson := by
  have r₁ : Run (adapters .defaults .order)
      (fun s l s' => Ordinary .order s l s' ∧ PurgedFirst .defaults s l s') .fresh
      [.claim (nthKey 0) "fp-1" 0 []]
      (claimedFirst 1) := by
    refine .one (claimedFirst_step 0) ⟨?_, ?_⟩
    · intro _ h
      cases h
    · intro _ h
      cases h
  have hstored : (adapters .defaults .order).step (claimedFirst 1)
      (.complete (nthKey 0) 201 (.string "order-1") 5) = some storedFirst := rfl
  have r₂ := r₁.snoc hstored ⟨roundTrips_order, trivial⟩
  have hreplay : (adapters .defaults .order).step storedFirst (.claim (nthKey 0) "fp-1" 10 []) =
      some ⟨10, storedFirst.records, storedFirst.rows, [(.replay 201 (.string "order-1"),
        some (.replay 201 (.string "order-1"))), (.claimed, some .claimed)]⟩ := rfl
  have r₃ := r₂.snoc hreplay ⟨fun record h => by
    obtain rfl := Option.some.inj h
    decide, fun row h hexp => by
    obtain rfl := Option.some.inj h
    revert hexp
    decide⟩
  exact ⟨_, rfl, adapters_agree .defaults .order r₃⟩

/-- **A record that has outlived `ttlMs` is still remembered.**  A hundred and one keys are
claimed, and a day later, when all have expired, the first of them is claimed by another request:
the in-memory store claims it, and the Oracle store, whose purge took the hundred others, answers
`mismatch`. -/
theorem adapters_differ :
    ∃ ls s, Run (adapters .defaults .order) (Ordinary .order) .fresh ls s ∧
      s.answers.head? = some (.claimed, some .mismatch) := by
  obtain ⟨ls, r⟩ := claimedFirst_run 101
  obtain ⟨hrecord, hrow⟩ := @claimedFirst_held 0 101 (by omega)
  have hmemory := @claim_of_vacant .defaults 86400001 _ (nthKey 0) "fp-2" fun record hr => by
    obtain rfl := Option.some.inj (hrecord.symm.trans hr)
    exact .inl (by simp [InMemoryIdempotencyStore.opened, IdempotencyConfig.defaults])
  have horacle := claimOn_row .defaults 86400001 "fp-2" purgedLater
    (by rw [lookup_purge, if_neg first_left, hrow])
    (@sameRecord_opened .defaults .order 0 "fp-1")
  rw [if_neg (by simp [InMemoryIdempotencyStore.opened]),
    if_pos (by simp [InMemoryIdempotencyStore.opened])] at horacle
  have hstep : (adapters .defaults .order).step (claimedFirst 101)
        (.claim (nthKey 0) "fp-2" 86400001 purgedLater) =
      some ⟨86400001, Function.update (claimedFirst 101).records (nthKey 0)
          (some (InMemoryIdempotencyStore.opened .defaults 86400001 "fp-2")),
        purge purgedLater (claimedFirst 101).rows,
        (.claimed, some .mismatch) :: (claimedFirst 101).answers⟩ := by
    simp only [adapters, adapterStep, hmemory, horacle]
    exact if_pos ⟨by rw [claimedFirst_clock]; decide, purgedLater_purges⟩
  refine ⟨_, _, .snoc r hstep fun record hr => ?_, rfl⟩
  obtain rfl := Option.some.inj (hrecord.symm.trans hr)
  simp [InMemoryIdempotencyStore.opened, IdempotencyConfig.defaults]

end NestDdd.Idempotency

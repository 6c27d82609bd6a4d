import Mathlib.Data.List.Nodup
import NestDdd.Runs.Machine
import NestDdd.Runs.Semaphore

/-!
# Database — the pings at boot

`PoolManager.pingAll` (`src/infrastructure/database/connection/pool.manager.ts`): every implemented
source is pinged in a loop of its own, up to `retries + 1` times with a pause after each failure,
and a `Semaphore` (`utils/semaphore.util.ts`) lets `concurrency` loops run at once.  How the n-th
ping of a source settles is a parameter; when it does, when a pause ends and when a woken waiter
runs is in the labels, in any order.

* `PingState.Going` is what every step keeps (`going_move`); `reported_final` reads the failures
  off it.
* `step_lowers`: every step lowers `PingState.rank`, so the pings come to an end.
* `boot_checks_iff`: `pingAll` checks every required source exactly when each required key names an
  initialised source.  One that names none is passed over.
-/

namespace NestDdd.Database

open Runs

/-- A client of `this.clients`, with its entry of `this.meta`. -/
structure BootClient where
  implemented : Bool
  dialect : String

/-- `this.clients`: one client a key. -/
structure BootClients where
  entries : List (String × BootClient)
  nodup : (entries.map Prod.fst).Nodup

/-- `PingAllOptions`, without the times. -/
structure PingAllOptions where
  retries : Nat
  requiredSet : Option (List String)
  concurrency : Nat

structure DbHealthFailure where
  sourceKey : String
  dialect : String
  message : String
  attempts : Nat
  latencyMs : Option Int

/-- How the n-th ping of a source settles; an error by its message. -/
abbrev Pings := String → Nat → Except String Unit

section

variable (clients : BootClients) (options : PingAllOptions) (ping : Pings)

namespace BootClients

def implementedKeys : List String := (clients.entries.filter (·.2.implemented)).map Prod.fst

def placeholderKeys : List String := (clients.entries.filter (!·.2.implemented)).map Prod.fst

/-- `this.meta.get(key)?.dialect ?? 'unknown'`. -/
def dialect (key : String) : String :=
  ((clients.entries.lookup key).map (·.dialect)).getD "unknown"

end BootClients

/-- `requiredSet && requiredSet.size > 0 ? requiredSet : new Set(implementedKeys)`. -/
def reqSet : List String :=
  match options.requiredSet with
  | some (key :: keys) => key :: keys
  | _ => clients.implementedKeys

/-- A placeholder that is marked required fails without a ping. -/
def placeholderFailures : List DbHealthFailure :=
  (clients.placeholderKeys.filter fun key => (reqSet clients options).contains key).map fun key =>
    ⟨key, clients.dialect key, "dialect \"" ++ clients.dialect key ++ "\" is not implemented", 0,
      none⟩

/-- Where the loop of a source stands: at its n-th ping, or in the pause after it. -/
inductive Loop where
  | pinging (attempt : Nat)
  | backingOff (attempt : Nat)

structure PingState where
  sem : Semaphore String
  loop : String → Loop
  failures : List DbHealthFailure

/-- A ping settles, a pause is over, or a waiter of the semaphore runs. -/
inductive PingLabel where
  | settle (key : String) (latencyMs : Int)
  | retry (key : String)
  | resume (key : String)

/-- Every loop has entered the semaphore, in order. -/
def PingState.start : PingState where
  sem := clients.implementedKeys.foldl Semaphore.enter (.init (max 1 options.concurrency))
  loop := fun _ => .pinging 1
  failures := placeholderFailures clients options

/-- All retries of `key` are exhausted. -/
def exhausted (failures : List DbHealthFailure) (key message : String) (latencyMs : Int) :
    List DbHealthFailure :=
  if (reqSet clients options).contains key then
    failures ++ [⟨key, clients.dialect key, message, options.retries + 1, some latencyMs⟩]
  else failures

def pingStep (s : PingState) : PingLabel → Option PingState
  | .settle key latencyMs =>
      if key ∈ s.sem.holding then
        match s.loop key with
        | .backingOff _ => none
        | .pinging attempt =>
            match ping key attempt with
            | .ok _ => some { s with sem := s.sem.leave key }
            | .error message =>
                if attempt ≤ options.retries then
                  some { s with loop := Function.update s.loop key (.backingOff attempt) }
                else
                  some { s with
                    sem := s.sem.leave key
                    failures := exhausted clients options s.failures key message latencyMs }
      else none
  | .retry key =>
      if key ∈ s.sem.holding then
        match s.loop key with
        | .pinging _ => none
        | .backingOff attempt =>
            some { s with loop := Function.update s.loop key (.pinging (attempt + 1)) }
      else none
  | .resume key =>
      if key ∈ s.sem.woken then some { s with sem := s.sem.resume key } else none

def pingAll : Machine PingState PingLabel := ⟨pingStep clients options ping⟩

/-- How `pingAll` settles, once every loop has left the semaphore: with
`AggregateDbHealthError(failures)`, or with nothing. -/
def PingState.outcome (s : PingState) : Option (Except (List DbHealthFailure) Unit) :=
  if s.sem.everyone.isEmpty then
    some (if s.failures.isEmpty then .ok () else .error s.failures)
  else none

/-! ### What the boot is to check -/

/-- One of the first `retries + 1` pings of `key` succeeds. -/
def Succeeds (key : String) : Prop :=
  ∃ n, 1 ≤ n ∧ n ≤ options.retries + 1 ∧ ping key n = .ok ()

/-- `key` names an implemented source that answers. -/
def Answers (key : String) : Prop := key ∈ clients.implementedKeys ∧ Succeeds options ping key

/-- `failures` are the required keys that do not answer, each once. -/
structure Reports (failures : List DbHealthFailure) : Prop where
  nodup : (failures.map (·.sourceKey)).Nodup
  keys : ∀ key, key ∈ failures.map (·.sourceKey) ↔
    key ∈ reqSet clients options ∧ ¬ Answers clients options ping key

/-- `pingAll` settles in every run, and it resolves if and only if every required key answers,
and rejects with the others. -/
def BootChecks : Prop :=
  (∃ bound, ∀ ls s, Run (pingAll clients options ping) Free (.start clients options) ls s →
    ls.length ≤ bound) ∧
  ∀ ls s, Run (pingAll clients options ping) Free (.start clients options) ls s →
    (∀ l, (pingAll clients options ping).step s l = none) →
    ∃ result, s.outcome = some result ∧
      (result = .ok () ↔ ∀ key ∈ reqSet clients options, Answers clients options ping key) ∧
      ∀ failures, result = .error failures → Reports clients options ping failures

end

/-! ### The sources -/

section Clients

variable {clients : BootClients} {options : PingAllOptions} {key : String}

theorem implementedKeys_nodup : clients.implementedKeys.Nodup :=
  clients.nodup.sublist (List.filter_sublist.map Prod.fst)

theorem placeholderKeys_nodup : clients.placeholderKeys.Nodup :=
  clients.nodup.sublist (List.filter_sublist.map Prod.fst)

theorem initialised_iff : key ∈ clients.entries.map Prod.fst ↔
    key ∈ clients.implementedKeys ∨ key ∈ clients.placeholderKeys := by
  simp only [BootClients.implementedKeys, BootClients.placeholderKeys, List.mem_map,
    List.mem_filter]
  constructor
  · rintro ⟨⟨key, client⟩, hmem, rfl⟩
    cases himpl : client.implemented with
    | true => exact .inl ⟨_, ⟨hmem, himpl⟩, rfl⟩
    | false => exact .inr ⟨_, ⟨hmem, by simp [himpl]⟩, rfl⟩
  · rintro (⟨entry, ⟨hmem, -⟩, rfl⟩ | ⟨entry, ⟨hmem, -⟩, rfl⟩) <;> exact ⟨entry, hmem, rfl⟩

theorem not_placeholder (h : key ∈ clients.implementedKeys) : key ∉ clients.placeholderKeys := by
  intro h'
  obtain ⟨entry, hentry, rfl⟩ := List.mem_map.mp h
  obtain ⟨entry', hentry', heq⟩ := List.mem_map.mp h'
  have hsame := List.inj_on_of_nodup_map clients.nodup (List.mem_of_mem_filter hentry')
    (List.mem_of_mem_filter hentry) heq
  subst hsame
  have himpl := (List.mem_filter.mp hentry).2
  have hnot := (List.mem_filter.mp hentry').2
  simp [himpl] at hnot

theorem placeholderFailures_keys : (placeholderFailures clients options).map (·.sourceKey) =
    clients.placeholderKeys.filter fun key => (reqSet clients options).contains key := by
  simp [placeholderFailures, List.map_map, Function.comp_def]

end Clients

/-! ### What every step keeps -/

section Going

variable (clients : BootClients) (options : PingAllOptions) (ping : Pings)

/-- The five things a step can be. -/
inductive PingMove (s : PingState) : PingState → Prop where
  | answered (key : String) (n : Nat) (hkey : key ∈ s.sem.holding)
      (hloop : s.loop key = .pinging n) (hping : ping key n = .ok ()) :
      PingMove s { s with sem := s.sem.leave key }
  | failed (key : String) (n : Nat) (hkey : key ∈ s.sem.holding)
      (hloop : s.loop key = .pinging n) (hping : ping key n ≠ .ok ()) (hn : n ≤ options.retries) :
      PingMove s { s with loop := Function.update s.loop key (.backingOff n) }
  | exhausted (key : String) (n : Nat) (message : String) (latencyMs : Int)
      (hkey : key ∈ s.sem.holding) (hloop : s.loop key = .pinging n)
      (hping : ping key n = .error message) (hn : options.retries < n) :
      PingMove s { s with
        sem := s.sem.leave key
        failures := exhausted clients options s.failures key message latencyMs }
  | retried (key : String) (n : Nat) (hkey : key ∈ s.sem.holding)
      (hloop : s.loop key = .backingOff n) :
      PingMove s { s with loop := Function.update s.loop key (.pinging (n + 1)) }
  | resumed (key : String) (hkey : key ∈ s.sem.woken) :
      PingMove s { s with sem := s.sem.resume key }

/-- The pings of a loop so far have failed, and it has not had too many. -/
def Loop.Tried (key : String) : Loop → Prop
  | .pinging n => 1 ≤ n ∧ n ≤ options.retries + 1 ∧
      ∀ m, 1 ≤ m → m < n → ping key m ≠ .ok ()
  | .backingOff n => 1 ≤ n ∧ n ≤ options.retries ∧ ∀ m, 1 ≤ m → m ≤ n → ping key m ≠ .ok ()

/-- `failures` are what is to be reported of the placeholders, and of the loops that are over. -/
def Reported (running : List String) (failures : List DbHealthFailure) : Prop :=
  ∃ failed, failures = placeholderFailures clients options ++ failed ∧
    (failed.map (·.sourceKey)).Nodup ∧ ∀ key, key ∈ failed.map (·.sourceKey) ↔
      key ∈ clients.implementedKeys ∧ key ∉ running ∧
        key ∈ reqSet clients options ∧ ¬ Succeeds options ping key

/-- What holds while the loops run. -/
structure PingState.Going (s : PingState) : Prop where
  sound : s.sem.Sound (max 1 options.concurrency)
  nodup : s.sem.everyone.Nodup
  implemented : ∀ key ∈ s.sem.everyone, key ∈ clients.implementedKeys
  tried : ∀ key ∈ s.sem.holding, (s.loop key).Tried options ping key
  unstarted : ∀ key ∈ s.sem.everyone, key ∉ s.sem.holding → s.loop key = .pinging 1
  reported : Reported clients options ping s.sem.everyone s.failures

variable {clients options ping} {s s' : PingState} {key : String} {running running' : List String}
  {failures : List DbHealthFailure}

theorem tried_first : (Loop.pinging 1).Tried options ping key :=
  ⟨Nat.le_refl 1, by omega, fun m h₁ h₂ => by omega⟩

theorem going_start : (PingState.start clients options).Going clients options ping := by
  obtain ⟨hsound, hperm⟩ := Semaphore.enter_all clients.implementedKeys
    (@Semaphore.sound_init String (max 1 options.concurrency)) rfl
  have hall : (PingState.start clients options).sem.everyone.Perm clients.implementedKeys := by
    rwa [show (Semaphore.init (max 1 options.concurrency)).everyone = ([] : List String) from rfl,
      List.append_nil] at hperm
  refine ⟨hsound, hall.nodup_iff.mpr implementedKeys_nodup, fun key hkey => hall.subset hkey,
    fun key _ => tried_first, fun key _ _ => rfl, [], (List.append_nil _).symm, .nil, fun key => ?_⟩
  refine ⟨fun h => absurd h List.not_mem_nil, ?_⟩
  rintro ⟨himpl, hout, -⟩
  exact absurd (hall.symm.subset himpl) hout

theorem pingStep_moves {l : PingLabel} (h : pingStep clients options ping s l = some s') :
    PingMove clients options ping s s' := by
  cases l with
  | settle key latencyMs =>
      simp only [pingStep] at h
      split at h
      next hkey =>
        split at h
        next => cases h
        next n hloop =>
          split at h
          next hping =>
            obtain rfl := Option.some.inj h
            exact .answered key n hkey hloop hping
          next message hping =>
            split at h
            next hn =>
              obtain rfl := Option.some.inj h
              exact .failed key n hkey hloop (by simp [hping]) hn
            next hn =>
              obtain rfl := Option.some.inj h
              exact .exhausted key n message latencyMs hkey hloop hping (by omega)
      next => cases h
  | retry key =>
      simp only [pingStep] at h
      split at h
      next hkey =>
        split at h
        next => cases h
        next n hloop =>
          obtain rfl := Option.some.inj h
          exact .retried key n hkey hloop
      next => cases h
  | resume key =>
      simp only [pingStep] at h
      split at h
      next hkey =>
        obtain rfl := Option.some.inj h
        exact .resumed key hkey
      next => cases h

theorem PingState.Going.holding_nodup (h : s.Going clients options ping) : s.sem.holding.Nodup :=
  h.nodup.of_append_right.of_append_right

/-- A loop that is over leaves the semaphore, whatever it reports. -/
theorem going_leave (h : s.Going clients options ping) (hkey : key ∈ s.sem.holding)
    {failures : List DbHealthFailure}
    (hreported : Reported clients options ping (s.sem.leave key).everyone failures) :
    PingState.Going clients options ping ⟨s.sem.leave key, s.loop, failures⟩ := by
  have hmem : ∀ j, j ∈ (s.sem.leave key).everyone ↔ j ∈ s.sem.everyone ∧ j ≠ key :=
    fun j => Semaphore.mem_leave h.nodup hkey
  refine ⟨Semaphore.sound_leave h.sound hkey, ?_, ?_, ?_, ?_, hreported⟩
  · have hperm := Semaphore.everyone_leave hkey
    exact (List.nodup_cons.mp (hperm.nodup_iff.mp h.nodup)).2
  · intro j hj
    exact h.implemented j ((hmem j).mp hj).1
  · intro j hj
    rw [Semaphore.leave_holding] at hj
    exact h.tried j (List.mem_of_mem_erase hj)
  · intro j hj hout
    obtain ⟨hin, hne⟩ := (hmem j).mp hj
    refine h.unstarted j hin fun hheld => hout ?_
    rw [Semaphore.leave_holding]
    exact (List.mem_erase_of_ne hne).mpr hheld

/-- A loop that is over, and not to be reported. -/
theorem reported_passed (h : Reported clients options ping running failures)
    (hkey : key ∈ reqSet clients options → Succeeds options ping key)
    (hmem : ∀ j, j ∈ running' ↔ j ∈ running ∧ j ≠ key) :
    Reported clients options ping running' failures := by
  obtain ⟨failed, hfailed, hnodup, hkeys⟩ := h
  refine ⟨failed, hfailed, hnodup, fun j => ?_⟩
  rw [hkeys, hmem]
  by_cases hj : j = key
  · subst hj
    have hnone : ¬ (j ∈ reqSet clients options ∧ ¬ Succeeds options ping j) :=
      fun hreq => hreq.2 (hkey hreq.1)
    simp [hnone]
  · simp [hj]

theorem reported_exhausted (h : Reported clients options ping running failures)
    (hrun : key ∈ running) (himpl : key ∈ clients.implementedKeys)
    (hkey : ¬ Succeeds options ping key)
    (hmem : ∀ j, j ∈ running' ↔ j ∈ running ∧ j ≠ key) (message : String) (latencyMs : Int) :
    Reported clients options ping running'
      (exhausted clients options failures key message latencyMs) := by
  unfold exhausted
  split
  next hreq =>
    obtain ⟨failed, hfailed, hnodup, hkeys⟩ := h
    refine ⟨failed ++ [⟨key, clients.dialect key, message, options.retries + 1, some latencyMs⟩],
      by rw [hfailed, List.append_assoc], ?_, fun j => ?_⟩
    · have hnew : key ∉ failed.map (·.sourceKey) := fun hin => ((hkeys key).mp hin).2.1 hrun
      simpa [List.nodup_append, hnodup] using hnew
    · rw [List.map_append, List.mem_append, hkeys, hmem]
      by_cases hj : j = key
      · subst hj
        simpa [himpl, hkey] using hreq
      · simp [hj]
  next hreq =>
    exact reported_passed h (fun hin => absurd (List.contains_iff_mem.mpr hin) hreq) hmem

/-- Whoever is in the semaphore stays where it is: only the loop of `key` moves on. -/
theorem going_loop (h : s.Going clients options ping) (hkey : key ∈ s.sem.holding) {loop : Loop}
    (hloop : loop.Tried options ping key) :
    PingState.Going clients options ping
      ⟨s.sem, Function.update s.loop key loop, s.failures⟩ := by
  refine ⟨h.sound, h.nodup, h.implemented, ?_, ?_, h.reported⟩
  · intro j hj
    by_cases heq : j = key
    · subst heq
      simpa using hloop
    · simpa [Function.update_of_ne heq] using h.tried j hj
  · intro j hj hout
    have heq : j ≠ key := fun heq => hout (heq ▸ hkey)
    simpa [Function.update_of_ne heq] using h.unstarted j hj hout

theorem going_resume (h : s.Going clients options ping) (hkey : key ∈ s.sem.woken) :
    PingState.Going clients options ping ⟨s.sem.resume key, s.loop, s.failures⟩ := by
  have hperm := Semaphore.everyone_resume hkey
  have hheld : (s.sem.resume key).holding = key :: s.sem.holding := by
    rw [Semaphore.resume_eq h.sound hkey]
  obtain ⟨hin, hout⟩ := Semaphore.mem_of_woken h.nodup hkey
  refine ⟨Semaphore.sound_resume h.sound hkey, hperm.nodup_iff.mpr h.nodup, ?_, ?_, ?_, ?_⟩
  · intro j hj
    exact h.implemented j (hperm.subset hj)
  · intro j hj
    rw [hheld] at hj
    rcases List.mem_cons.mp hj with rfl | hj
    · rw [h.unstarted j hin hout]
      exact tried_first
    · exact h.tried j hj
  · intro j hj hnone
    refine h.unstarted j (hperm.subset hj) fun hj' => hnone ?_
    rw [hheld]
    exact List.mem_cons_of_mem _ hj'
  · obtain ⟨failed, hfailed, hnodup, hkeys⟩ := h.reported
    refine ⟨failed, hfailed, hnodup, fun j => ?_⟩
    rw [hkeys, hperm.mem_iff]

theorem going_move (h : s.Going clients options ping)
    (hmove : PingMove clients options ping s s') : s'.Going clients options ping := by
  cases hmove with
  | answered key n hkey hloop hping =>
      obtain ⟨h₁, h₂, -⟩ : (Loop.pinging n).Tried options ping key := hloop ▸ h.tried key hkey
      exact going_leave h hkey (reported_passed h.reported (fun _ => ⟨n, h₁, h₂, hping⟩)
        fun j => Semaphore.mem_leave h.nodup hkey)
  | failed key n hkey hloop hping hn =>
      obtain ⟨h₁, -, hbefore⟩ : (Loop.pinging n).Tried options ping key :=
        hloop ▸ h.tried key hkey
      refine going_loop h hkey ⟨h₁, hn, fun m hm hle => ?_⟩
      rcases Nat.lt_or_eq_of_le hle with hlt | rfl
      · exact hbefore m hm hlt
      · exact hping
  | exhausted key n message latencyMs hkey hloop hping hn =>
      obtain ⟨-, h₂, hbefore⟩ : (Loop.pinging n).Tried options ping key :=
        hloop ▸ h.tried key hkey
      have hin := Semaphore.mem_of_holding hkey
      have hnone : ¬ Succeeds options ping key := by
        rintro ⟨m, hm, hle, hok⟩
        rcases Nat.lt_or_eq_of_le (show m ≤ n by omega) with hlt | rfl
        · exact hbefore m hm hlt hok
        · simp [hping] at hok
      exact going_leave h hkey (reported_exhausted h.reported hin (h.implemented key hin) hnone
        (fun j => Semaphore.mem_leave h.nodup hkey) message latencyMs)
  | retried key n hkey hloop =>
      obtain ⟨h₁, h₂, hbefore⟩ : (Loop.backingOff n).Tried options ping key :=
        hloop ▸ h.tried key hkey
      exact going_loop h hkey ⟨by omega, by omega, fun m hm hlt => hbefore m hm (by omega)⟩
  | resumed key hkey => exact going_resume h hkey

end Going

/-! ### The pings come to an end -/

section Rank

variable {clients : BootClients} {options : PingAllOptions} {ping : Pings} {s s' : PingState}

/-- The steps a loop that holds a slot can still take. -/
def Loop.rank (retries : Nat) : Loop → Nat
  | .pinging n => 2 * (retries + 1 - n) + 2
  | .backingOff n => 2 * (retries + 1 - n) + 1

theorem Loop.rank_pos {retries : Nat} : ∀ loop : Loop, 0 < loop.rank retries
  | .pinging _ => Nat.succ_pos _
  | .backingOff _ => Nat.succ_pos _

/-- The steps the loops in `keys` can still take. -/
def heldRank (retries : Nat) (loop : String → Loop) : List String → Nat
  | [] => 0
  | key :: keys => (loop key).rank retries + heldRank retries loop keys

def PingState.rank (retries : Nat) (s : PingState) : Nat :=
  s.sem.queue.length * (2 * retries + 4) + s.sem.woken.length * (2 * retries + 3) +
    heldRank retries s.loop s.sem.holding

theorem heldRank_erase {retries : Nat} {loop : String → Loop} {keys : List String} {key : String}
    (hkey : key ∈ keys) :
    heldRank retries loop keys =
      (loop key).rank retries + heldRank retries loop (keys.erase key) := by
  induction keys with
  | nil => cases hkey
  | cons j keys ih =>
      by_cases hj : j = key
      · subst hj
        rw [List.erase_cons_head, heldRank]
      · rw [List.erase_cons_tail (by simpa using hj), heldRank, heldRank,
          ih ((List.mem_cons.mp hkey).resolve_left (Ne.symm hj))]
        omega

theorem heldRank_congr {retries : Nat} {loop loop' : String → Loop} {keys : List String}
    (h : ∀ key ∈ keys, loop' key = loop key) :
    heldRank retries loop' keys = heldRank retries loop keys := by
  induction keys with
  | nil => rfl
  | cons key keys ih =>
      rw [heldRank, heldRank, h key List.mem_cons_self,
        ih fun j hj => h j (List.mem_cons_of_mem key hj)]

/-- A loop that moves on leaves the others as they are. -/
theorem heldRank_update {retries : Nat} {loop : String → Loop} {keys : List String} {key : String}
    (hnodup : keys.Nodup) (hkey : key ∈ keys) {next : Loop}
    (hlt : next.rank retries < (loop key).rank retries) :
    heldRank retries (Function.update loop key next) keys < heldRank retries loop keys := by
  have hrest : heldRank retries (Function.update loop key next) (keys.erase key) =
      heldRank retries loop (keys.erase key) := by
    refine heldRank_congr fun j hj => ?_
    have hne : j ≠ key := fun heq => hnodup.not_mem_erase (heq ▸ hj)
    rw [Function.update_of_ne hne]
  rw [heldRank_erase hkey, heldRank_erase hkey, hrest, Function.update_self]
  omega

theorem rank_leave {retries : Nat} {key : String} (hkey : key ∈ s.sem.holding)
    (failures : List DbHealthFailure) :
    PingState.rank retries ⟨s.sem.leave key, s.loop, failures⟩ < s.rank retries := by
  have hheld := @heldRank_erase retries s.loop _ _ hkey
  have hpos := @Loop.rank_pos retries (s.loop key)
  unfold PingState.rank
  rw [hheld]
  unfold Semaphore.leave
  split
  next hq =>
    simp only [hq]
    omega
  next waiter queue hq =>
    simp only [hq, List.length_cons, Nat.add_mul, Nat.one_mul]
    omega

theorem move_lowers (h : s.Going clients options ping)
    (hmove : PingMove clients options ping s s') :
    s'.rank options.retries < s.rank options.retries := by
  cases hmove with
  | answered key n hkey hloop hping => exact rank_leave hkey _
  | exhausted key n message latencyMs hkey hloop hping hn => exact rank_leave hkey _
  | failed key n hkey hloop hping hn =>
      refine Nat.add_lt_add_left (heldRank_update h.holding_nodup hkey ?_) _
      rw [hloop]
      exact Nat.lt_succ_self _
  | retried key n hkey hloop =>
      have htried := h.tried key hkey
      rw [hloop] at htried
      obtain ⟨-, hle, -⟩ := htried
      refine Nat.add_lt_add_left (heldRank_update h.holding_nodup hkey ?_) _
      rw [hloop]
      change 2 * (options.retries + 1 - (n + 1)) + 2 < 2 * (options.retries + 1 - n) + 1
      omega
  | resumed key hkey =>
      have hlen := List.length_erase_of_mem hkey
      have hpos := List.length_pos_of_mem hkey
      obtain ⟨hin, hout⟩ := Semaphore.mem_of_woken h.nodup hkey
      have hloop := h.unstarted key hin hout
      obtain ⟨woken, hwoken⟩ : ∃ woken, s.sem.woken.length = woken + 1 :=
        ⟨s.sem.woken.length - 1, by omega⟩
      unfold PingState.rank
      rw [Semaphore.resume_eq h.sound hkey]
      simp only [heldRank, hlen, hloop, hwoken, Loop.rank,
        Nat.add_sub_cancel, Nat.add_mul, Nat.one_mul]
      omega

theorem step_lowers (s : PingState) (l : PingLabel) (s' : PingState)
    (h : s.Going clients options ping) (hstep : (pingAll clients options ping).step s l = some s') :
    s'.Going clients options ping ∧ s'.rank options.retries < s.rank options.retries :=
  have hmove := pingStep_moves hstep
  ⟨going_move h hmove, move_lowers h hmove⟩

/-- When no step is left, every loop is over. -/
theorem going_final (h : s.Going clients options ping)
    (hfinal : ∀ l, (pingAll clients options ping).step s l = none) : s.sem.everyone = [] := by
  refine h.sound.fair.idle (by omega) ?_ ?_
  · refine List.eq_nil_iff_forall_not_mem.mpr fun key hkey => ?_
    have hnone := hfinal (.resume key)
    simp [pingAll, pingStep, hkey] at hnone
  · refine List.eq_nil_iff_forall_not_mem.mpr fun key hkey => ?_
    cases hloop : s.loop key with
    | backingOff n =>
        have hnone := hfinal (.retry key)
        simp [pingAll, pingStep, hkey, hloop] at hnone
    | pinging n =>
        have hnone := hfinal (.settle key 0)
        cases hping : ping key n with
        | ok _ => simp [pingAll, pingStep, hkey, hloop, hping] at hnone
        | error message =>
            simp only [pingAll, pingStep, hkey, hloop, hping, if_true] at hnone
            split at hnone <;> cases hnone

/-- What `failures` holds then: each required key once that names a source that does not answer. -/
theorem reported_final {failures : List DbHealthFailure}
    (h : Reported clients options ping [] failures) : (failures.map (·.sourceKey)).Nodup ∧
      ∀ key, key ∈ failures.map (·.sourceKey) ↔ key ∈ clients.entries.map Prod.fst ∧
        key ∈ reqSet clients options ∧ ¬ Answers clients options ping key := by
  obtain ⟨failed, rfl, hnodup, hkeys⟩ := h
  rw [List.map_append, placeholderFailures_keys]
  constructor
  · refine List.nodup_append'.mpr ⟨placeholderKeys_nodup.filter _, hnodup, fun key hp hf => ?_⟩
    exact not_placeholder ((hkeys key).mp hf).1 (List.mem_of_mem_filter hp)
  · intro key
    rw [List.mem_append, hkeys, initialised_iff, List.mem_filter, List.contains_iff_mem, Answers]
    constructor
    · rintro (⟨hplace, hreq⟩ | ⟨himpl, -, hreq, hnone⟩)
      · exact ⟨.inr hplace, hreq, fun h => not_placeholder h.1 hplace⟩
      · exact ⟨.inl himpl, hreq, fun h => hnone h.2⟩
    · rintro ⟨himpl | hplace, hreq, hnone⟩
      · exact .inr ⟨himpl, List.not_mem_nil, hreq, fun h => hnone ⟨himpl, h⟩⟩
      · exact .inl ⟨hplace, hreq⟩

theorem reports_of_known {failures : List DbHealthFailure}
    (h : Reported clients options ping [] failures)
    (hknown : ∀ key ∈ reqSet clients options, key ∈ clients.entries.map Prod.fst) :
    Reports clients options ping failures := by
  obtain ⟨hnodup, hkeys⟩ := reported_final h
  refine ⟨hnodup, fun key => ?_⟩
  rw [hkeys]
  exact ⟨And.right, fun h => ⟨hknown key h.1, h⟩⟩

theorem Reports.nil_iff {failures : List DbHealthFailure}
    (h : Reports clients options ping failures) :
    failures = [] ↔ ∀ key ∈ reqSet clients options, Answers clients options ping key := by
  constructor
  · rintro rfl key hreq
    by_contra hnone
    exact List.not_mem_nil ((h.keys key).mpr ⟨hreq, hnone⟩)
  · intro hall
    refine List.eq_nil_iff_forall_not_mem.mpr fun failure hmem => ?_
    obtain ⟨hreq, hnone⟩ := (h.keys failure.sourceKey).mp (List.mem_map_of_mem hmem)
    exact hnone (hall _ hreq)

/-- How a run that cannot go on settles. -/
theorem final_outcome {ls : List PingLabel}
    (r : Run (pingAll clients options ping) Free (.start clients options) ls s)
    (hfinal : ∀ l, (pingAll clients options ping).step s l = none) :
    s.outcome = some (if s.failures.isEmpty then .ok () else .error s.failures) ∧
      Reported clients options ping [] s.failures := by
  obtain ⟨hgoing, -⟩ := r.length_le (fun s l s' hs h _ => step_lowers s l s' hs h) going_start
  have hall := going_final hgoing hfinal
  exact ⟨by simp [PingState.outcome, hall], hall ▸ hgoing.reported⟩

end Rank

/-! ### The boot -/

/-- **`pingAll` checks every required source exactly when each required key names a source.** -/
theorem boot_checks_iff (clients : BootClients) (options : PingAllOptions) (ping : Pings) :
    BootChecks clients options ping ↔
      ∀ key ∈ reqSet clients options, key ∈ clients.entries.map Prod.fst := by
  constructor
  · rintro ⟨-, hchecks⟩ key hreq
    obtain ⟨ls, s, r, hfinal⟩ := Machine.exists_final step_lowers _
      (@going_start clients options ping)
    obtain ⟨hout, hreported⟩ := final_outcome r hfinal
    obtain ⟨result, hresult, hok, hreports⟩ := hchecks ls s r hfinal
    obtain rfl := Option.some.inj (hout.symm.trans hresult)
    by_cases hnone : s.failures.isEmpty
    · rw [if_pos hnone] at hok
      exact initialised_iff.mpr (.inl (hok.mp rfl key hreq).1)
    · rw [if_neg hnone] at hreports
      by_cases hanswers : Answers clients options ping key
      · exact initialised_iff.mpr (.inl hanswers.1)
      · have hin := ((hreports _ rfl).keys key).mpr ⟨hreq, hanswers⟩
        exact (((reported_final hreported).2 key).mp hin).1
  · intro hknown
    refine ⟨⟨(PingState.start clients options).rank options.retries, fun ls s r => ?_⟩,
      fun ls s r hfinal => ?_⟩
    · obtain ⟨-, hle⟩ := r.length_le (fun s l s' hs h _ => step_lowers s l s' hs h) going_start
      exact Nat.le_trans (Nat.le_add_right _ _) hle
    · obtain ⟨hout, hreported⟩ := final_outcome r hfinal
      have hreports := reports_of_known hreported hknown
      refine ⟨_, hout, ?_, fun failures heq => ?_⟩
      · rw [← hreports.nil_iff, ← List.isEmpty_iff]
        split <;> simp_all
      · split at heq
        · cases heq
        · obtain rfl := Except.error.inj heq
          exact hreports

/-- The only source does not answer, and is marked required under a misspelt key: the boot goes
on. -/
theorem misspelt_source_unchecked : ¬ ∀ clients options ping, BootChecks clients options ping := by
  intro h
  obtain ⟨-, hchecks⟩ := h ⟨[("main", ⟨true, "oracle"⟩)], by decide⟩ ⟨0, some ["mian"], 3⟩
    fun _ _ => .error "ORA-12541"
  obtain ⟨result, hresult, hok, -⟩ := hchecks [.settle "main" 5]
    ⟨⟨3, [], [], []⟩, fun _ => .pinging 1, []⟩
    (.of_exec rfl fun _ _ _ _ => trivial) (fun l => by cases l <;> rfl)
  obtain rfl : .ok () = result := Option.some.inj hresult
  obtain ⟨himpl, -⟩ := hok.mp rfl "mian" (by decide)
  exact absurd himpl (by decide)

end NestDdd.Database

import NestDdd.Runs.Machine

/-!
# Runs — a row under READ COMMITTED

One row of a table, present or absent, as concurrent transactions see and change it:

* a statement sees the committed version, or the transaction's own;
* a transaction that has changed the row holds its lock until it commits or aborts, and no other
  can change the row meanwhile;
* an `INSERT` of a key that another transaction is inserting or deleting waits; it fails on a
  version that stays in place;
* an `UPDATE` or `DELETE` waits for the lock, and then acts on the version it finds.

A statement that has to wait is not enabled.  A transaction notes the *moves* it makes beside the
version it drafts; they reach the row's log when it commits.  `Tracks` says that the log and the
drafts are runs of an abstract machine, and the rules below keep it.
-/

namespace Runs

universe u v w x

variable {τ : Type u} {ρ : Type v} {μ : Type w} {σ : Type x}

/-- What the transaction that holds the lock has made of the row. -/
structure Draft (τ : Type u) (ρ : Type v) (μ : Type w) where
  owner : τ
  version : Option ρ
  moves : List μ

structure Cell (τ : Type u) (ρ : Type v) (μ : Type w) where
  committed : Option ρ
  draft : Option (Draft τ ρ μ)
  log : List μ

namespace Cell

variable [DecidableEq τ] (c : Cell τ ρ μ) (t : τ)

/-- A row that no transaction has touched. -/
def settled (version : Option ρ) : Cell τ ρ μ := ⟨version, none, []⟩

/-- What a statement of `t` sees. -/
def view : Option ρ :=
  match c.draft with
  | some d => if d.owner = t then d.version else c.committed
  | none => c.committed

/-- The moves `t` has made. -/
def moves : List μ :=
  match c.draft with
  | some d => if d.owner = t then d.moves else []
  | none => []

/-- No other transaction holds the lock. -/
def free : Bool :=
  match c.draft with
  | some d => d.owner = t
  | none => true

/-- No transaction is about to remove the row. -/
def inPlace : Bool :=
  match c.draft with
  | some d => d.version.isSome
  | none => true

def write (version : Option ρ) (ms : List μ) : Cell τ ρ μ :=
  { c with draft := some ⟨t, version, c.moves t ++ ms⟩ }

/-- `INSERT`: whether it went through, or failed on the row that is there. -/
def insert (row : ρ) (m : μ) : Option (Bool × Cell τ ρ μ) :=
  match c.view t with
  | none => if c.free t then some (true, c.write t (some row) [m]) else none
  | some _ => if c.free t || c.inPlace then some (false, c) else none

/-- `UPDATE` and `DELETE` of the one row: nothing if there is none. -/
def modify (f : ρ → Option ρ × List μ) : Option (Cell τ ρ μ) :=
  match c.view t with
  | none => some c
  | some row => if c.free t then some (c.write t (f row).1 (f row).2) else none

def commit : Cell τ ρ μ :=
  match c.draft with
  | some d => if d.owner = t then ⟨d.version, none, c.log ++ d.moves⟩ else c
  | none => c

def abort : Cell τ ρ μ :=
  match c.draft with
  | some d => if d.owner = t then { c with draft := none } else c
  | none => c

variable {c t} {d : Draft τ ρ μ} {t' : τ}

/-! ### One statement -/

theorem free_iff : c.free t = true ↔ ∀ d, c.draft = some d → d.owner = t := by
  cases h : c.draft <;> simp [free, h]

@[simp] theorem write_draft (v : Option ρ) (ms : List μ) :
    (c.write t v ms).draft = some ⟨t, v, c.moves t ++ ms⟩ := rfl

theorem view_of_draft (h : c.draft = some d) (ho : d.owner = t) : c.view t = d.version := by
  simp [view, h, ho]

theorem moves_of_draft (h : c.draft = some d) (ho : d.owner = t) : c.moves t = d.moves := by
  simp [moves, h, ho]

@[simp] theorem view_write (v : Option ρ) (ms : List μ) : (c.write t v ms).view t = v := by
  rw [view_of_draft (write_draft v ms) rfl]

/-- An `INSERT` that goes through found no row and no other transaction; one that fails found a
row, and changes nothing. -/
theorem insert_cases {row : ρ} {m : μ} {ok : Bool} {c' : Cell τ ρ μ}
    (h : c.insert t row m = some (ok, c')) :
    (ok = true ∧ c.view t = none ∧ c.free t = true ∧ c' = c.write t (some row) [m]) ∨
      (ok = false ∧ (∃ old, c.view t = some old) ∧ c' = c) := by
  unfold insert at h
  split at h
  next hv =>
    obtain ⟨hf, h⟩ := Option.ite_none_right_eq_some.mp h
    obtain ⟨rfl, rfl⟩ := Prod.mk.inj (Option.some.inj h)
    exact .inl ⟨rfl, hv, hf, rfl⟩
  next old hv =>
    obtain ⟨-, h⟩ := Option.ite_none_right_eq_some.mp h
    obtain ⟨rfl, rfl⟩ := Prod.mk.inj (Option.some.inj h)
    exact .inr ⟨rfl, ⟨old, hv⟩, rfl⟩

theorem modify_cases {f : ρ → Option ρ × List μ} {c' : Cell τ ρ μ} (h : c.modify t f = some c') :
    (c.view t = none ∧ c' = c) ∨
      ∃ row, c.view t = some row ∧ c.free t = true ∧ c' = c.write t (f row).1 (f row).2 := by
  unfold modify at h
  split at h
  next hv => exact .inl ⟨hv, (Option.some.inj h).symm⟩
  next row hv =>
    obtain ⟨hf, h⟩ := Option.ite_none_right_eq_some.mp h
    exact .inr ⟨row, hv, hf, (Option.some.inj h).symm⟩

/-! ### The end of a transaction -/

theorem commit_own (h : c.draft = some d) (ho : d.owner = t) :
    c.commit t = ⟨d.version, none, c.log ++ d.moves⟩ := by simp [commit, h, ho]

theorem commit_other (h : ∀ d, c.draft = some d → d.owner ≠ t) : c.commit t = c := by
  unfold commit
  split
  next d hd => rw [if_neg (h d hd)]
  next => rfl

theorem abort_own (h : c.draft = some d) (ho : d.owner = t) :
    c.abort t = { c with draft := none } := by simp [abort, h, ho]

theorem abort_other (h : ∀ d, c.draft = some d → d.owner ≠ t) : c.abort t = c := by
  unfold abort
  split
  next d hd => rw [if_neg (h d hd)]
  next => rfl

/-- Either `t` holds the lock, or it does not. -/
theorem owned_or_not (c : Cell τ ρ μ) (t : τ) :
    (∃ d, c.draft = some d ∧ d.owner = t) ∨ ∀ d, c.draft = some d → d.owner ≠ t := by
  cases h : c.draft with
  | none => exact .inr (by simp)
  | some d =>
      by_cases ho : d.owner = t
      · exact .inl ⟨d, rfl, ho⟩
      · exact .inr (by simpa using ho)

/-! ### The versions of a row -/

/-- `row` is a version of the cell, committed or drafted. -/
def Holds (c : Cell τ ρ μ) (row : ρ) : Prop :=
  c.committed = some row ∨ ∃ d, c.draft = some d ∧ d.version = some row

theorem holds_of_view {row : ρ} (h : c.view t = some row) : c.Holds row := by
  unfold view at h
  split at h
  next d hd =>
    split at h
    next => exact .inr ⟨d, hd, h⟩
    next => exact .inl h
  next => exact .inl h

theorem holds_write {v : Option ρ} {ms : List μ} {row : ρ} (h : (c.write t v ms).Holds row) :
    c.Holds row ∨ v = some row := by
  rcases h with h | ⟨d, hd, h⟩
  · exact .inl (.inl h)
  · obtain rfl := Option.some.inj hd
    exact .inr h

theorem holds_commit {row : ρ} (h : (c.commit t).Holds row) : c.Holds row := by
  rcases c.owned_or_not t with ⟨d, hd, ho⟩ | hno
  · rw [commit_own hd ho] at h
    rcases h with h | ⟨_, hd', -⟩
    · exact .inr ⟨d, hd, h⟩
    · cases hd'
  · rwa [commit_other hno] at h

theorem holds_abort {row : ρ} (h : (c.abort t).Holds row) : c.Holds row := by
  rcases c.owned_or_not t with ⟨d, hd, ho⟩ | hno
  · rw [abort_own hd ho] at h
    rcases h with h | ⟨_, hd', -⟩
    · exact .inl h
    · cases hd'
  · rwa [abort_other hno] at h

/-! ### What one transaction leaves of the others -/

/-- `t` has acted on the row: if another holds the lock, it has not changed; and the log has only
grown. -/
structure ActedBy (t : τ) (c c' : Cell τ ρ μ) : Prop where
  locked : ∀ d, c.draft = some d → d.owner ≠ t → c' = c
  log : c.log <+: c'.log

namespace ActedBy

omit [DecidableEq τ] in
theorem refl (c : Cell τ ρ μ) : ActedBy t c c := ⟨fun _ _ _ => rfl, List.prefix_rfl⟩

theorem write (hf : c.free t = true) (v : Option ρ) (ms : List μ) :
    ActedBy t c (c.write t v ms) :=
  ⟨fun d hd ho => absurd (free_iff.mp hf d hd) ho, List.prefix_rfl⟩

theorem commit (c : Cell τ ρ μ) (t : τ) : ActedBy t c (c.commit t) := by
  rcases c.owned_or_not t with ⟨d, hd, ho⟩ | hno
  · refine ⟨fun d' hd' ho' => ?_, by rw [commit_own hd ho]; exact List.prefix_append ..⟩
    rw [hd] at hd'
    exact absurd (Option.some.inj hd' ▸ ho) ho'
  · rw [commit_other hno]; exact refl c

theorem abort (c : Cell τ ρ μ) (t : τ) : ActedBy t c (c.abort t) := by
  rcases c.owned_or_not t with ⟨d, hd, ho⟩ | hno
  · refine ⟨fun d' hd' ho' => ?_, by simp [abort_own hd ho]⟩
    rw [hd] at hd'
    exact absurd (Option.some.inj hd' ▸ ho) ho'
  · rw [abort_other hno]; exact refl c

end ActedBy

/-! ### The row as runs of an abstract machine -/

/-- The committed log leads from `s₀` to what is committed, and the moves of a draft from there
to the drafted version. -/
structure Tracks (M : Machine σ μ) (G : σ → μ → σ → Prop) (abs : Option ρ → σ) (s₀ : σ)
    (c : Cell τ ρ μ) : Prop where
  committed : Run M G s₀ c.log (abs c.committed)
  drafted : ∀ d, c.draft = some d → Run M G (abs c.committed) d.moves (abs d.version)

namespace Tracks

variable {M : Machine σ μ} {G : σ → μ → σ → Prop} {abs : Option ρ → σ} {s₀ : σ}

omit [DecidableEq τ] in
theorem settled (v : Option ρ) : Tracks M G abs (abs v) (settled v : Cell τ ρ μ) :=
  ⟨.nil, fun _ h => nomatch h⟩

/-- What a transaction sees is where its moves have led. -/
theorem view (h : Tracks M G abs s₀ c) (t : τ) :
    Run M G (abs c.committed) (c.moves t) (abs (c.view t)) := by
  rcases c.owned_or_not t with ⟨d, hd, ho⟩ | hno
  · rw [view_of_draft hd ho, moves_of_draft hd ho]
    exact h.drafted d hd
  · have hv : c.view t = c.committed := by
      unfold Cell.view
      split
      next d hd => rw [if_neg (hno d hd)]
      next => rfl
    have hm : c.moves t = [] := by
      unfold Cell.moves
      split
      next d hd => rw [if_neg (hno d hd)]
      next => rfl
    rw [hv, hm]
    exact .nil

theorem write (h : Tracks M G abs s₀ c) {v : Option ρ} {ms : List μ}
    (hrun : Run M G (abs (c.view t)) ms (abs v)) : Tracks M G abs s₀ (c.write t v ms) := by
  refine ⟨h.committed, fun d hd => ?_⟩
  obtain rfl := Option.some.inj hd
  -- the new draft has the moves of the old one, and the new ones
  exact (h.view t).append hrun

theorem commit (h : Tracks M G abs s₀ c) : Tracks M G abs s₀ (c.commit t) := by
  rcases c.owned_or_not t with ⟨d, hd, ho⟩ | hno
  · rw [commit_own hd ho]
    exact ⟨h.committed.append (h.drafted d hd), fun _ h => nomatch h⟩
  · rwa [commit_other hno]

theorem abort (h : Tracks M G abs s₀ c) : Tracks M G abs s₀ (c.abort t) := by
  rcases c.owned_or_not t with ⟨d, hd, ho⟩ | hno
  · rw [abort_own hd ho]
    exact ⟨h.committed, fun _ h => nomatch h⟩
  · rwa [abort_other hno]

end Tracks

end Cell

end Runs

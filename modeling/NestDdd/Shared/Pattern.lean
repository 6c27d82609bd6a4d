import Mathlib.Data.List.Basic

/-!
# Shared — patterns with groups

Regular expressions as a backtracking engine runs them: `ways` lists how a pattern matches a
beginning of a text, the preferred way first, and `exec` takes the first that leaves nothing, with
the texts of its groups.  `many` is greedy.

* `mem_ways`: the ways of a pattern, without their order.
* `exec_isSome_iff`, `exec_eq_of_unique`: a text that matches is matched, and to its groups if they
  can be read in one way only.
* `exec_many_append`: a greedy run ends as late as the rest allows.
-/

universe u

/-- A pattern over an alphabet; its classes are predicates. -/
inductive Pattern (α : Type u) where
  | empty
  | one (p : α → Bool)
  | many (p : α → Bool)
  | seq (a b : Pattern α)
  | alt (a b : Pattern α)
  | group (a : Pattern α)

namespace Pattern

variable {α : Type u}

/-- What a pattern has matched, its groups, and what is left. -/
structure Match (α : Type u) where
  text : List α
  groups : List (List α)
  rest : List α

/-- The beginnings of a text all of whose characters are in a class, the longest first. -/
def runs (p : α → Bool) : List α → List (List α × List α)
  | [] => [([], [])]
  | c :: cs =>
      if p c then (runs p cs).map (fun run => (c :: run.1, run.2)) ++ [([], c :: cs)]
      else [([], c :: cs)]

/-- The ways to match a beginning of a text, the preferred one first. -/
def ways : Pattern α → List α → List (Match α)
  | .empty, s => [⟨[], [], s⟩]
  | .one _, [] => []
  | .one p, c :: cs => if p c then [⟨[c], [], cs⟩] else []
  | .many p, s => (runs p s).map fun run => ⟨run.1, [], run.2⟩
  | .seq a b, s =>
      (ways a s).flatMap fun m =>
        (ways b m.rest).map fun n => ⟨m.text ++ n.text, m.groups ++ n.groups, n.rest⟩
  | .alt a b, s => ways a s ++ ways b s
  | .group a, s => (ways a s).map fun m => ⟨m.text, m.text :: m.groups, m.rest⟩

/-- The groups of the first way to match a whole text. -/
def exec (r : Pattern α) (s : List α) : Option (List (List α)) :=
  ((ways r s).find? fun m => m.rest.isEmpty).map Match.groups

def test (r : Pattern α) (s : List α) : Bool := (exec r s).isSome

/-- A pattern `n` times. -/
def times : Nat → Pattern α → Pattern α
  | 0, _ => .empty
  | n + 1, a => .seq a (times n a)

/-- A word, as it is. -/
def word [BEq α] : List α → Pattern α
  | [] => .empty
  | c :: cs => .seq (.one (· == c)) (word cs)

/-! ### What a pattern matches -/

/-- The texts of a pattern, with their groups. -/
def Matches : Pattern α → List α → List (List α) → Prop
  | .empty, t, gs => t = [] ∧ gs = []
  | .one p, t, gs => (∃ c, p c = true ∧ t = [c]) ∧ gs = []
  | .many p, t, gs => (∀ c ∈ t, p c = true) ∧ gs = []
  | .seq a b, t, gs => ∃ t₁ t₂ gs₁ gs₂, t = t₁ ++ t₂ ∧ gs = gs₁ ++ gs₂ ∧
      Matches a t₁ gs₁ ∧ Matches b t₂ gs₂
  | .alt a b, t, gs => Matches a t gs ∨ Matches b t gs
  | .group a, t, gs => ∃ inner, gs = t :: inner ∧ Matches a t inner

theorem mem_runs {p : α → Bool} {s t rest : List α} :
    (t, rest) ∈ runs p s ↔ s = t ++ rest ∧ ∀ c ∈ t, p c = true := by
  induction s generalizing t with
  | nil =>
      rw [runs, List.mem_singleton, Prod.mk.injEq, eq_comm (a := []), List.append_eq_nil_iff]
      constructor
      · rintro ⟨rfl, rfl⟩
        exact ⟨⟨rfl, rfl⟩, fun c hc => absurd hc List.not_mem_nil⟩
      · exact And.left
  | cons c cs ih =>
      have hnil : (t, rest) ∈ [(([] : List α), c :: cs)] ↔ t = [] ∧ rest = c :: cs := by
        rw [List.mem_singleton, Prod.mk.injEq]
      unfold runs
      split
      next hc =>
        rw [List.mem_append, hnil, List.mem_map]
        constructor
        · rintro (⟨⟨t', rest'⟩, hmem, heq⟩ | ⟨rfl, rfl⟩)
          · obtain ⟨rfl, rfl⟩ := Prod.mk.inj heq
            obtain ⟨rfl, hall⟩ := ih.mp hmem
            exact ⟨rfl, List.forall_mem_cons.mpr ⟨hc, hall⟩⟩
          · exact ⟨rfl, fun c hc => absurd hc List.not_mem_nil⟩
        · rintro ⟨heq, hall⟩
          cases t with
          | nil => exact .inr ⟨rfl, heq.symm⟩
          | cons c' t' =>
              obtain ⟨rfl, rfl⟩ := List.cons.inj heq
              exact .inl ⟨(t', rest), ih.mpr ⟨rfl, (List.forall_mem_cons.mp hall).2⟩, rfl⟩
      next hc =>
        rw [hnil]
        constructor
        · rintro ⟨rfl, rfl⟩
          exact ⟨rfl, fun c hc => absurd hc List.not_mem_nil⟩
        · rintro ⟨heq, hall⟩
          cases t with
          | nil => exact ⟨rfl, heq.symm⟩
          | cons c' t' =>
              obtain ⟨rfl, -⟩ := List.cons.inj heq
              exact absurd (hall _ List.mem_cons_self) hc

/-- **The ways of a pattern** are the beginnings that it matches. -/
theorem mem_ways {r : Pattern α} {s t rest : List α} {gs : List (List α)} :
    ⟨t, gs, rest⟩ ∈ ways r s ↔ s = t ++ rest ∧ Matches r t gs := by
  induction r generalizing s t rest gs with
  | empty =>
      rw [ways, List.mem_singleton, Match.mk.injEq, Matches]
      constructor
      · rintro ⟨rfl, rfl, rfl⟩
        exact ⟨rfl, rfl, rfl⟩
      · rintro ⟨hs, rfl, rfl⟩
        exact ⟨rfl, rfl, hs.symm⟩
  | one p =>
      cases s with
      | nil =>
          refine ⟨fun h => absurd h List.not_mem_nil, ?_⟩
          rintro ⟨hs, ⟨c, -, rfl⟩, -⟩
          cases hs
      | cons c cs =>
          unfold ways
          split
          next hc =>
            rw [List.mem_singleton, Match.mk.injEq]
            constructor
            · rintro ⟨rfl, rfl, rfl⟩
              exact ⟨rfl, ⟨c, hc, rfl⟩, rfl⟩
            · rintro ⟨hs, ⟨c', -, rfl⟩, rfl⟩
              obtain ⟨rfl, rfl⟩ := List.cons.inj hs
              exact ⟨rfl, rfl, rfl⟩
          next hc =>
            refine ⟨fun h => absurd h List.not_mem_nil, ?_⟩
            rintro ⟨hs, ⟨c', hc', rfl⟩, -⟩
            obtain ⟨rfl, -⟩ := List.cons.inj hs
            exact absurd hc' hc
  | many p =>
      rw [ways, List.mem_map]
      constructor
      · rintro ⟨run, hrun, heq⟩
        obtain ⟨rfl, rfl, rfl⟩ := Match.mk.inj heq
        obtain ⟨hs, hall⟩ := mem_runs.mp hrun
        exact ⟨hs, hall, rfl⟩
      · rintro ⟨hs, hall, rfl⟩
        exact ⟨(t, rest), mem_runs.mpr ⟨hs, hall⟩, rfl⟩
  | seq a b iha ihb =>
      rw [ways, List.mem_flatMap]
      constructor
      · rintro ⟨m, hm, hn⟩
        obtain ⟨n, hway, heq⟩ := List.mem_map.mp hn
        obtain ⟨rfl, rfl, rfl⟩ := Match.mk.inj heq
        obtain ⟨rfl, ha⟩ := iha.mp hm
        obtain ⟨hrest, hb⟩ := ihb.mp hway
        exact ⟨by rw [hrest, List.append_assoc], m.text, n.text, m.groups, n.groups, rfl, rfl, ha,
          hb⟩
      · rintro ⟨rfl, t₁, t₂, gs₁, gs₂, rfl, rfl, ha, hb⟩
        refine ⟨⟨t₁, gs₁, t₂ ++ rest⟩, iha.mpr ⟨List.append_assoc _ _ _, ha⟩, ?_⟩
        exact List.mem_map.mpr ⟨⟨t₂, gs₂, rest⟩, ihb.mpr ⟨rfl, hb⟩, rfl⟩
  | alt a b iha ihb =>
      rw [ways, List.mem_append, iha, ihb, ← and_or_left]
      rfl
  | group a ih =>
      rw [ways, List.mem_map]
      constructor
      · rintro ⟨m, hm, heq⟩
        obtain ⟨rfl, rfl, rfl⟩ := Match.mk.inj heq
        obtain ⟨hs, ha⟩ := ih.mp hm
        exact ⟨hs, m.groups, rfl, ha⟩
      · rintro ⟨hs, inner, rfl, ha⟩
        exact ⟨⟨t, inner, rest⟩, ih.mpr ⟨hs, ha⟩, rfl⟩

section Exec

variable {r : Pattern α} {s : List α} {gs : List (List α)}

theorem matches_of_exec (h : exec r s = some gs) : Matches r s gs := by
  obtain ⟨m, hm, rfl⟩ := Option.map_eq_some_iff.mp h
  have hrest : m.rest = [] := by simpa using List.find?_some hm
  obtain ⟨hs, ha⟩ := mem_ways.mp (List.mem_of_find?_eq_some hm)
  rw [hrest, List.append_nil] at hs
  exact hs ▸ ha

/-- **A text is matched** when it is one of the pattern's. -/
theorem exec_isSome_iff : (exec r s).isSome = true ↔ ∃ gs, Matches r s gs := by
  constructor
  · intro h
    obtain ⟨gs, hgs⟩ := Option.isSome_iff_exists.mp h
    exact ⟨gs, matches_of_exec hgs⟩
  · rintro ⟨gs, hgs⟩
    rw [exec, Option.isSome_map, List.find?_isSome]
    exact ⟨⟨s, gs, []⟩, mem_ways.mpr ⟨(List.append_nil s).symm, hgs⟩, rfl⟩

/-- A text whose groups can be read in one way only. -/
theorem exec_eq_of_unique (h : Matches r s gs) (hu : ∀ gs', Matches r s gs' → gs' = gs) :
    exec r s = some gs := by
  obtain ⟨gs', hgs'⟩ := Option.isSome_iff_exists.mp (exec_isSome_iff.mpr ⟨gs, h⟩)
  rw [hgs', hu gs' (matches_of_exec hgs')]

theorem exec_eq_none_iff : exec r s = none ↔ ∀ gs, ¬ Matches r s gs := by
  rw [← not_exists, ← exec_isSome_iff, Bool.not_eq_true, Option.isSome_eq_false_iff,
    Option.isNone_iff_eq_none]

end Exec

/-! ### The pieces of a pattern -/

section Pieces

variable {t : List α} {gs : List (List α)} {a b : Pattern α}

@[simp] theorem matches_empty : Matches .empty t gs ↔ t = [] ∧ gs = [] := Iff.rfl

@[simp] theorem matches_group :
    Matches (.group a) t gs ↔ ∃ inner, gs = t :: inner ∧ Matches a t inner :=
  Iff.rfl

theorem matches_many {p : α → Bool} : Matches (.many p) t gs ↔ (∀ c ∈ t, p c = true) ∧ gs = [] :=
  Iff.rfl

theorem matches_seq : Matches (.seq a b) t gs ↔ ∃ t₁ t₂ gs₁ gs₂, t = t₁ ++ t₂ ∧ gs = gs₁ ++ gs₂ ∧
    Matches a t₁ gs₁ ∧ Matches b t₂ gs₂ :=
  Iff.rfl

/-- A class `n` times. -/
theorem matches_times_one {p : α → Bool} {n : Nat} :
    Matches (times n (.one p)) t gs ↔ (t.length = n ∧ ∀ c ∈ t, p c = true) ∧ gs = [] := by
  induction n generalizing t gs with
  | zero =>
      rw [times, matches_empty, List.length_eq_zero_iff]
      constructor
      · rintro ⟨rfl, rfl⟩
        exact ⟨⟨rfl, fun c hc => absurd hc List.not_mem_nil⟩, rfl⟩
      · exact fun h => ⟨h.1.1, h.2⟩
  | succ n ih =>
      rw [times, matches_seq]
      constructor
      · rintro ⟨_, t₂, _, gs₂, rfl, rfl, ⟨⟨c, hc, rfl⟩, rfl⟩, hrest⟩
        obtain ⟨⟨rfl, hall⟩, rfl⟩ := ih.mp hrest
        exact ⟨⟨rfl, List.forall_mem_cons.mpr ⟨hc, hall⟩⟩, rfl⟩
      · rintro ⟨⟨hlen, hall⟩, rfl⟩
        cases t with
        | nil => cases hlen
        | cons c t =>
            obtain ⟨hc, hall⟩ := List.forall_mem_cons.mp hall
            exact ⟨[c], t, [], [], rfl, rfl, ⟨⟨c, hc, rfl⟩, rfl⟩,
              ih.mpr ⟨⟨Nat.succ.inj hlen, hall⟩, rfl⟩⟩

theorem matches_word [BEq α] [LawfulBEq α] {w : List α} :
    Matches (word w) t gs ↔ t = w ∧ gs = [] := by
  induction w generalizing t gs with
  | nil => rfl
  | cons c w ih =>
      rw [word, matches_seq]
      constructor
      · rintro ⟨_, t₂, _, gs₂, rfl, rfl, ⟨⟨c', hc', rfl⟩, rfl⟩, hrest⟩
        obtain ⟨rfl, rfl⟩ := ih.mp hrest
        rw [eq_of_beq hc']
        exact ⟨rfl, rfl⟩
      · rintro ⟨rfl, rfl⟩
        exact ⟨[c], w, [], [], rfl, rfl, ⟨⟨c, beq_self_eq_true c, rfl⟩, rfl⟩, ih.mpr ⟨rfl, rfl⟩⟩

end Pieces

/-! ### Greedy runs -/

section Greedy

variable {p : α → Bool} {b : Pattern α}

theorem exec_many_seq {s : List α} : exec (.seq (.group (.many p)) b) s =
    (runs p s).findSome? fun run => (exec b run.2).map (run.1 :: ·) := by
  have hways : ways (.seq (.group (.many p)) b) s = (runs p s).flatMap fun run =>
      (ways b run.2).map fun n => ⟨run.1 ++ n.text, run.1 :: n.groups, n.rest⟩ := by
    simp [ways, List.flatMap_map, Function.comp_def]
  rw [exec, hways, List.find?_flatMap, List.map_findSome?]
  congr 1
  funext run
  simp [exec, List.find?_map, Function.comp_def]

/-- Of the beginnings of a text that are runs, and for which `g` has a result, the longest is
taken. -/
theorem findSome?_runs {β : Type*} {t rest : List α} {g : List α × List α → Option β} {x : β}
    (ht : ∀ c ∈ t, p c = true) (hx : g (t, rest) = some x)
    (hlonger : ∀ t' rest', t ++ rest = t' ++ rest' → t.length < t'.length →
      g (t', rest') = none) :
    (runs p (t ++ rest)).findSome? g = some x := by
  induction t generalizing g with
  | nil =>
      rw [List.nil_append]
      cases rest with
      | nil => simp [runs, hx]
      | cons c cs =>
          unfold runs
          split
          next =>
            have hnone : ((runs p cs).map fun run => (c :: run.1, run.2)).findSome? g = none := by
              rw [List.findSome?_eq_none_iff, List.forall_mem_map]
              intro run hrun
              obtain ⟨rfl, -⟩ := mem_runs.mp hrun
              exact hlonger _ _ rfl (Nat.succ_pos _)
            rw [List.findSome?_append, hnone, Option.none_or, List.findSome?_singleton, hx]
          next => rw [List.findSome?_singleton, hx]
  | cons c t ih =>
      obtain ⟨hc, ht⟩ := List.forall_mem_cons.mp ht
      have htail : (runs p (t ++ rest)).findSome? (fun run => g (c :: run.1, run.2)) = some x := by
        refine ih ht hx fun t' rest' heq hlen => hlonger (c :: t') rest' ?_ (Nat.succ_lt_succ hlen)
        rw [List.cons_append, List.cons_append, heq]
      rw [List.cons_append, runs, if_pos hc, List.findSome?_append, List.findSome?_map]
      exact Option.or_eq_some_iff.mpr (.inl htail)

/-- **A greedy run** ends where the rest last matches. -/
theorem exec_many_append {t rest : List α} {gs : List (List α)} (ht : ∀ c ∈ t, p c = true)
    (hb : exec b rest = some gs)
    (hlonger : ∀ t' rest', t ++ rest = t' ++ rest' → t.length < t'.length →
      exec b rest' = none) :
    exec (.seq (.group (.many p)) b) (t ++ rest) = some (t :: gs) := by
  rw [exec_many_seq]
  refine findSome?_runs ht (by rw [hb]; rfl) fun t' rest' heq hlen => ?_
  rw [hlonger t' rest' heq hlen]
  rfl

end Greedy

end Pattern

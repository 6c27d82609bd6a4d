import Mathlib.Data.List.Infix
import Mathlib.Data.List.TakeWhile

/-!
# Shared — readers of a text

A reader takes a value from the beginning of a text and leaves the rest.

* `Stable`: what is read before the end of a text is read when the text goes on.
* `Closed`: a reader that knows where its value ends; it reads the same however the text goes on.
* `Stable.bind`, `Closed.bind`, `Closed.after`: both are kept when readers follow one another.
-/

universe u v w

/-- What a text begins with, and the rest of it. -/
abbrev Reader (σ : Type u) (α : Type v) := List σ → Option (α × List σ)

namespace Reader

variable {σ : Type u} {α : Type v} {β : Type w}

def pure (a : α) : Reader σ α := fun s => some (a, s)

def fail : Reader σ α := fun _ => none

def bind (f : Reader σ α) (g : α → Reader σ β) : Reader σ β :=
  fun s => (f s).bind fun r => g r.1 r.2

def map (h : α → β) (f : Reader σ α) : Reader σ β := bind f fun a => pure (h a)

/-- One character of a class. -/
def one (p : σ → Bool) : Reader σ σ
  | [] => none
  | c :: cs => if p c then some (c, cs) else none

/-- All characters of a class; there may be none. -/
def span (p : σ → Bool) : Reader σ (List σ) := fun s => some (s.takeWhile p, s.dropWhile p)

/-- At least one of them. -/
def span1 (p : σ → Bool) : Reader σ (List σ) := bind (one p) fun c => map (c :: ·) (span p)

/-- A word, as it is. -/
def word [BEq σ] : List σ → Reader σ Unit
  | [] => pure ()
  | c :: cs => bind (one (· == c)) fun _ => word cs

/-- Which reader goes on, by the next character. -/
def onHead (p : σ → Bool) (f g : Reader σ α) : Reader σ α :=
  fun s => if s.head?.any p then f s else g s

variable {f : Reader σ α} {g : α → Reader σ β} {p : σ → Bool} {s rest : List σ} {a : α} {b : β}

/-! ### What is read -/

theorem bind_eq (h : f s = some (a, rest)) : bind f g s = g a rest := by simp [bind, h]

theorem bind_eq_none (h : f s = none) : bind f g s = none := by simp [bind, h]

theorem bind_eq_some_iff : bind f g s = some (b, rest) ↔
    ∃ a mid, f s = some (a, mid) ∧ g a mid = some (b, rest) := by
  rw [bind, Option.bind_eq_some_iff, Prod.exists]

theorem map_eq {h : α → β} (hf : f s = some (a, rest)) : map h f s = some (h a, rest) :=
  bind_eq hf

theorem map_eq_some_iff {h : α → β} :
    map h f s = some (b, rest) ↔ ∃ a, f s = some (a, rest) ∧ h a = b := by
  rw [map, bind_eq_some_iff]
  constructor
  · rintro ⟨a, mid, hf, hp⟩
    obtain ⟨rfl, rfl⟩ := Prod.mk.inj (Option.some.inj hp)
    exact ⟨a, hf, rfl⟩
  · rintro ⟨a, hf, rfl⟩
    exact ⟨a, rest, hf, rfl⟩

theorem one_cons {c : σ} (h : p c = true) : one p (c :: s) = some (c, s) := if_pos h

theorem one_beq [BEq σ] [ReflBEq σ] (c : σ) (s : List σ) :
    one (· == c) (c :: s) = some (c, s) :=
  one_cons (beq_self_eq_true c)

theorem one_eq_some_iff {c : σ} : one p s = some (c, rest) ↔ s = c :: rest ∧ p c = true := by
  cases s with
  | nil => simp [one]
  | cons d ds =>
      rw [one]
      split
      next h =>
        constructor
        · intro heq
          obtain ⟨rfl, rfl⟩ := Prod.mk.inj (Option.some.inj heq)
          exact ⟨rfl, h⟩
        · rintro ⟨heq, -⟩
          obtain ⟨rfl, rfl⟩ := List.cons.inj heq
          rfl
      next h =>
        refine ⟨fun heq => (Option.some_ne_none _ heq.symm).elim, ?_⟩
        rintro ⟨heq, hc⟩
        obtain ⟨rfl, -⟩ := List.cons.inj heq
        exact absurd hc h

/-- A run that the next character ends. -/
theorem span_append {ds : List σ} (hds : ∀ d ∈ ds, p d = true)
    (hrest : ∀ c ∈ rest.head?, p c = false) : span p (ds ++ rest) = some (ds, rest) := by
  have htake : rest.takeWhile p = [] := by
    cases rest with
    | nil => rfl
    | cons c cs => exact List.takeWhile_cons_of_neg (by simp [hrest c rfl])
  have hdrop : rest.dropWhile p = rest := by
    cases rest with
    | nil => rfl
    | cons c cs => exact List.dropWhile_cons_of_neg (by simp [hrest c rfl])
  rw [span, List.takeWhile_append_of_pos hds, List.dropWhile_append_of_pos hds, htake, hdrop,
    List.append_nil]

theorem span1_append {ds : List σ} (hne : ds ≠ []) (hds : ∀ d ∈ ds, p d = true)
    (hrest : ∀ c ∈ rest.head?, p c = false) : span1 p (ds ++ rest) = some (ds, rest) := by
  cases ds with
  | nil => exact absurd rfl hne
  | cons d ds =>
      obtain ⟨hd, hds⟩ := List.forall_mem_cons.mp hds
      rw [List.cons_append, span1, bind_eq (one_cons hd)]
      exact map_eq (span_append hds hrest)

theorem onHead_cons {g : Reader σ α} {c : σ} :
    onHead p f g (c :: s) = if p c then f (c :: s) else g (c :: s) :=
  rfl

theorem onHead_pos {g : Reader σ α} {c : σ} (h : p c = true) :
    onHead p f g (c :: s) = f (c :: s) := by
  simp [onHead, h]

theorem onHead_neg {g : Reader σ α} (h : ∀ c ∈ s.head?, p c = false) : onHead p f g s = g s := by
  cases s with
  | nil => rfl
  | cons c s => simp [onHead, h c rfl]

/-! ### Readers that agree -/

theorem bind_congr {g' : α → Reader σ β}
    (h : ∀ a rest, f s = some (a, rest) → g a rest = g' a rest) : bind f g s = bind f g' s :=
  Option.bind_congr fun r hr => h r.1 r.2 hr

theorem bind_congr_left {f' : Reader σ α} (h : f s = f' s) : bind f g s = bind f' g s := by
  rw [bind, bind, h]

theorem map_congr {f' : Reader σ α} {h : α → β} (hf : f s = f' s) : map h f s = map h f' s :=
  bind_congr_left hf

theorem onHead_congr {f' g g' : Reader σ α} (hf : f s = f' s) (hg : g s = g' s) :
    onHead p f g s = onHead p f' g' s := by
  rw [onHead, onHead, hf, hg]

/-! ### What goes on -/

/-- What is read before the end of a text is read when the text goes on. -/
def Stable (f : Reader σ α) : Prop :=
  ∀ s a rest, f s = some (a, rest) → rest <:+ s ∧
    (rest ≠ [] → ∀ t, f (s ++ t) = some (a, rest ++ t))

/-- What is read is read however the text goes on. -/
def Closed (f : Reader σ α) : Prop :=
  ∀ s a rest, f s = some (a, rest) → rest <:+ s ∧ ∀ t, f (s ++ t) = some (a, rest ++ t)

theorem Closed.stable (hf : Closed f) : Stable f :=
  fun s a rest h => ⟨(hf s a rest h).1, fun _ => (hf s a rest h).2⟩

theorem closed_pure (a : α) : Closed (pure a : Reader σ α) := by
  intro s a' rest h
  obtain ⟨rfl, rfl⟩ := Prod.mk.inj (Option.some.inj h)
  exact ⟨List.suffix_rfl, fun t => rfl⟩

theorem closed_fail : Closed (fail : Reader σ α) :=
  fun _ _ _ h => (Option.some_ne_none _ h.symm).elim

theorem closed_one (p : σ → Bool) : Closed (one p) := by
  intro s c rest h
  obtain ⟨rfl, hc⟩ := one_eq_some_iff.mp h
  exact ⟨List.suffix_cons c rest, fun t => one_cons hc⟩

theorem stable_span (p : σ → Bool) : Stable (span p) := by
  intro s ds rest h
  obtain ⟨rfl, rfl⟩ := Prod.mk.inj (Option.some.inj h)
  refine ⟨List.dropWhile_suffix p, fun hne t => ?_⟩
  have hlen : (s.takeWhile p).length ≠ s.length := by
    intro hlen
    have hsplit : (s.takeWhile p ++ s.dropWhile p).length = s.length := by
      rw [List.takeWhile_append_dropWhile]
    rw [List.length_append] at hsplit
    exact hne (List.eq_nil_of_length_eq_zero (by omega))
  rw [span, List.takeWhile_append, List.dropWhile_append, if_neg hlen,
    if_neg (mt List.isEmpty_iff.mp hne)]

theorem Stable.bind (hf : Stable f) (hg : ∀ a, Stable (g a)) : Stable (bind f g) := by
  intro s b rest h
  obtain ⟨a, mid, hmid, hrest⟩ := bind_eq_some_iff.mp h
  obtain ⟨hs, hf⟩ := hf s a mid hmid
  obtain ⟨hm, hg⟩ := hg a mid b rest hrest
  refine ⟨hm.trans hs, fun hne t => ?_⟩
  have hne' : mid ≠ [] := by
    rintro rfl
    exact hne (List.suffix_nil.mp hm)
  rw [bind_eq (hf hne' t)]
  exact hg hne t

theorem Closed.bind (hf : Closed f) (hg : ∀ a, Closed (g a)) : Closed (bind f g) := by
  intro s b rest h
  obtain ⟨a, mid, hmid, hrest⟩ := bind_eq_some_iff.mp h
  obtain ⟨hs, hf⟩ := hf s a mid hmid
  obtain ⟨hm, hg⟩ := hg a mid b rest hrest
  refine ⟨hm.trans hs, fun t => ?_⟩
  rw [bind_eq (hf t)]
  exact hg t

/-- A closed reader that takes at least one character closes what is read before it. -/
theorem Closed.after (hf : Stable f) (hg : ∀ a, Closed (g a)) (hnil : ∀ a, g a [] = none) :
    Closed (Reader.bind f g) := by
  intro s b rest h
  obtain ⟨a, mid, hmid, hrest⟩ := bind_eq_some_iff.mp h
  obtain ⟨hs, hf⟩ := hf s a mid hmid
  have hne : mid ≠ [] := by
    rintro rfl
    exact Option.some_ne_none _ (hrest.symm.trans (hnil a))
  obtain ⟨hm, hg⟩ := hg a mid b rest hrest
  refine ⟨hm.trans hs, fun t => ?_⟩
  rw [bind_eq (hf hne t)]
  exact hg t

theorem Stable.map {h : α → β} (hf : Stable f) : Stable (map h f) :=
  hf.bind fun a => (closed_pure (h a)).stable

theorem Closed.map {h : α → β} (hf : Closed f) : Closed (map h f) :=
  hf.bind fun a => closed_pure (h a)

theorem stable_span1 (p : σ → Bool) : Stable (span1 p) :=
  (closed_one p).stable.bind fun _ => (stable_span p).map

theorem closed_word [BEq σ] : ∀ w : List σ, Closed (word w)
  | [] => closed_pure ()
  | _ :: w => (closed_one _).bind fun _ => closed_word w

theorem Stable.onHead {g : Reader σ α} (hf : Stable f) (hg : Stable g) :
    Stable (onHead p f g) := by
  intro s a rest h
  cases s with
  | nil =>
      obtain ⟨hs, -⟩ := hg [] a rest h
      exact ⟨hs, fun hne => absurd (List.suffix_nil.mp hs) hne⟩
  | cons c s =>
      rw [onHead_cons] at h
      simp only [List.cons_append, onHead_cons]
      by_cases hc : p c = true
      · rw [if_pos hc] at h
        simp only [if_pos hc]
        exact hf _ a rest h
      · rw [if_neg hc] at h
        simp only [if_neg hc]
        exact hg _ a rest h

theorem Closed.onHead {g : Reader σ α} (hf : Closed f) (hg : Closed g) (hnil : g [] = none) :
    Closed (onHead p f g) := by
  intro s a rest h
  cases s with
  | nil => exact (Option.some_ne_none _ (h.symm.trans hnil)).elim
  | cons c s =>
      rw [onHead_cons] at h
      simp only [List.cons_append, onHead_cons]
      by_cases hc : p c = true
      · rw [if_pos hc] at h
        simp only [if_pos hc]
        exact hf _ a rest h
      · rw [if_neg hc] at h
        simp only [if_neg hc]
        exact hg _ a rest h

/-! ### What ends a value -/

/-- The last character that `f` takes is `c`. -/
def EndsWith (c : σ) (f : Reader σ α) : Prop :=
  ∀ s a rest, f s = some (a, rest) → ∃ u, s = u ++ c :: rest

theorem endsWith_one [BEq σ] [LawfulBEq σ] (c : σ) : EndsWith c (one (· == c)) := by
  intro s d rest h
  obtain ⟨rfl, hd⟩ := one_eq_some_iff.mp h
  exact ⟨[], by rw [eq_of_beq hd]; rfl⟩

theorem EndsWith.bind {c : σ} (hf : Stable f) (hg : ∀ a, EndsWith c (g a)) :
    EndsWith c (bind f g) := by
  intro s b rest h
  obtain ⟨a, mid, hmid, hrest⟩ := bind_eq_some_iff.mp h
  obtain ⟨t, rfl⟩ := (hf s a mid hmid).1
  obtain ⟨u, rfl⟩ := hg a mid b rest hrest
  exact ⟨t ++ u, (List.append_assoc _ _ _).symm⟩

theorem EndsWith.map {c : σ} {h : α → β} (hf : EndsWith c f) : EndsWith c (map h f) := by
  intro s b rest hmap
  obtain ⟨a, ha, -⟩ := map_eq_some_iff.mp hmap
  exact hf s a rest ha

theorem EndsWith.onHead {c : σ} {g : Reader σ α} (hf : EndsWith c f) (hg : EndsWith c g) :
    EndsWith c (onHead p f g) := by
  intro s a rest h
  rw [Reader.onHead] at h
  split at h
  · exact hf s a rest h
  · exact hg s a rest h

/-- What begins with a character leaves less of the text. -/
theorem length_lt_of_bind_one {g : σ → Reader σ β} (hg : ∀ c, Stable (g c))
    (h : bind (one p) g s = some (b, rest)) : rest.length < s.length := by
  obtain ⟨c, mid, hone, hrest⟩ := bind_eq_some_iff.mp h
  obtain ⟨rfl, -⟩ := one_eq_some_iff.mp hone
  exact Nat.lt_succ_of_le (hg c mid b rest hrest).1.length_le

end Reader

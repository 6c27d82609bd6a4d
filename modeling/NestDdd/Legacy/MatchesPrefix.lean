import Mathlib.Data.List.Basic

/-!
# Legacy — which paths are forwarded

`matchesLegacyPrefix` (`src/infrastructure/legacy/matches-prefix.util.ts`) over absolute paths,
against what it is for: a prefix forwards itself and the paths below it, where *below* is said of
the segments of a path.

* `splitOn_isPrefix_iff`: the pieces of one list begin those of another exactly when the lists are
  equal or the first, with a separator behind it, begins the second.
* `isUnder_iff`: what this says of paths.
* `matches_iff_isUnder_iff`: the function agrees, except that the root prefix forwards nothing
  below it but the paths that begin with two slashes.
-/

namespace NestDdd.Legacy

/-! ### Pieces of a list -/

section Pieces

variable {α : Type*} {a : α}

theorem intercalate_append {us vs : List (List α)} (hu : us ≠ []) (hv : vs ≠ []) :
    [a].intercalate (us ++ vs) = [a].intercalate us ++ a :: [a].intercalate vs := by
  induction us with
  | nil => exact absurd rfl hu
  | cons u us ih =>
      cases us with
      | nil => simp [List.intercalate_cons_of_ne_nil hv]
      | cons u' us => simpa using ih (List.cons_ne_nil u' us)

theorem splitOn_isPrefix_iff [BEq α] [LawfulBEq α] {xs ys : List α} :
    xs.splitOn a <+: ys.splitOn a ↔ xs = ys ∨ (xs ++ [a]) <+: ys := by
  constructor
  · intro ⟨rest, h⟩
    have hjoin := congrArg [a].intercalate h
    rw [List.intercalate_splitOn] at hjoin
    cases rest with
    | nil =>
        rw [List.append_nil, List.intercalate_splitOn] at hjoin
        exact .inl hjoin
    | cons r rest =>
        rw [intercalate_append (List.splitOn_ne_nil a xs) (List.cons_ne_nil r rest),
          List.intercalate_splitOn] at hjoin
        exact .inr ⟨[a].intercalate (r :: rest), by rw [List.append_assoc]; exact hjoin⟩
  · intro h
    rcases h with rfl | ⟨rest, rfl⟩
    · exact List.prefix_rfl
    · rw [List.append_assoc, List.singleton_append, List.splitOn_append_cons_self]
      exact List.prefix_append _ _

end Pieces

/-! ### The function -/

/-- A path that begins with a slash: a request's, or a prefix that can match one. -/
structure AbsolutePath where
  text : String
  absolute : text.toList.head? = some '/'

/-- Strips one trailing slash, and keeps a bare `/`. -/
def normalize (path : String) : String :=
  if path.length > 1 ∧ path.toList.getLast? = some '/' then String.ofList path.toList.dropLast
  else path

/-- `text.startsWith(start)`. -/
def startsWith (text start : String) : Bool := start.toList.isPrefixOf text.toList

def matchesLegacyPrefix (path : String) (prefixes : List String) : Bool :=
  let target := normalize path
  prefixes.any fun p =>
    let normalizedPrefix := normalize p
    target == normalizedPrefix || startsWith target (normalizedPrefix ++ "/")

/-! ### Segments -/

namespace AbsolutePath

/-- The root, as a prefix or as a path. -/
def IsRoot (p : AbsolutePath) : Prop := normalize p.text = "/"

instance (p : AbsolutePath) : Decidable p.IsRoot := inferInstanceAs (Decidable (_ = _))

/-- What stands between the slashes of a path, but for one trailing slash.  The root has no
segments. -/
noncomputable def segments (p : AbsolutePath) : List (List Char) :=
  match (normalize p.text).toList.tail with
  | [] => []
  | c :: rest => (c :: rest).splitOn '/'

/-- `path` is `p`, or `p` is an ancestor of it at a segment boundary. -/
def IsUnder (path p : AbsolutePath) : Prop := p.segments <+: path.segments

/-- What `normalize` leaves of an absolute path is absolute. -/
theorem normalize_cons (p : AbsolutePath) : ∃ rest, (normalize p.text).toList = '/' :: rest := by
  obtain ⟨rest, hrest⟩ := List.head?_eq_some_iff.mp p.absolute
  rw [normalize, hrest]
  split
  next h =>
    -- it was not the first slash that went
    cases rest with
    | nil => exact absurd h.1 (by rw [← String.length_toList, hrest]; simp)
    | cons c rest => exact ⟨(c :: rest).dropLast, by simp⟩
  next => exact ⟨rest, hrest⟩

theorem isRoot_iff {p : AbsolutePath} {rest : List Char}
    (h : (normalize p.text).toList = '/' :: rest) : p.IsRoot ↔ rest = [] := by
  rw [IsRoot, ← String.toList_inj, h]
  simp

/-- **Segments of paths.**  A path is under the root; and it is under another prefix when it is
that prefix, or begins with it and a slash. -/
theorem isUnder_iff {path p : AbsolutePath} :
    path.IsUnder p ↔ p.IsRoot ∨ normalize path.text = normalize p.text ∨
      startsWith (normalize path.text) (normalize p.text ++ "/") = true := by
  obtain ⟨r, hr⟩ := p.normalize_cons
  obtain ⟨s, hs⟩ := path.normalize_cons
  rw [IsUnder]
  unfold segments
  rw [isRoot_iff hr, startsWith, List.isPrefixOf_iff_prefix, String.toList_append,
    ← String.toList_inj, hr, hs, List.tail_cons, List.tail_cons]
  cases r with
  | nil => simp
  | cons c r =>
      cases s with
      | nil => simp
      | cons d s => simp [splitOn_isPrefix_iff, eq_comm]

end AbsolutePath

/-! ### What is forwarded -/

/-- The texts of a list of prefixes, as the options hold them. -/
def texts (prefixes : List AbsolutePath) : List String := prefixes.map AbsolutePath.text

/-- The root prefix is in the list and forwards nothing by itself: the path is neither the root nor
begins with two slashes, and no other prefix has it. -/
def RootMisses (path : AbsolutePath) (prefixes : List AbsolutePath) : Prop :=
  (∃ p ∈ prefixes, p.IsRoot) ∧ ¬ path.IsRoot ∧ startsWith (normalize path.text) "//" = false ∧
    ∀ p ∈ prefixes, ¬ p.IsRoot → ¬ path.IsUnder p

variable {path : AbsolutePath} {prefixes : List AbsolutePath}

theorem matches_iff : matchesLegacyPrefix path.text (texts prefixes) = true ↔
    ∃ p ∈ prefixes, normalize path.text = normalize p.text ∨
      startsWith (normalize path.text) (normalize p.text ++ "/") = true := by
  simp [matchesLegacyPrefix, texts]

/-- A path is forwarded only under a prefix: characters in common are not enough. -/
theorem isUnder_of_matches (h : matchesLegacyPrefix path.text (texts prefixes) = true) :
    ∃ p ∈ prefixes, path.IsUnder p := by
  obtain ⟨p, hp, hmatch⟩ := matches_iff.mp h
  exact ⟨p, hp, AbsolutePath.isUnder_iff.mpr (.inr hmatch)⟩

/-- What a prefix forwards: all that is under it, unless it is the root. -/
theorem matches_of_isUnder {p : AbsolutePath} (hp : p ∈ prefixes) (hroot : ¬ p.IsRoot)
    (h : path.IsUnder p) : matchesLegacyPrefix path.text (texts prefixes) = true := by
  refine matches_iff.mpr ⟨p, hp, ?_⟩
  exact (AbsolutePath.isUnder_iff.mp h).resolve_left hroot

/-- What the root prefix forwards. -/
theorem matches_of_root {p : AbsolutePath} (hp : p ∈ prefixes) (hroot : p.IsRoot)
    (h : path.IsRoot ∨ startsWith (normalize path.text) "//" = true) :
    matchesLegacyPrefix path.text (texts prefixes) = true := by
  refine matches_iff.mpr ⟨p, hp, ?_⟩
  rw [AbsolutePath.IsRoot] at hroot
  rw [hroot]
  exact h

/-- **Prefixes by segment.**  A path is forwarded exactly when it is under one of the prefixes,
unless the root is the only prefix that it is under: the root has no slash to end with, so
`startsWith` looks for two of them. -/
theorem matches_iff_isUnder_iff (path : AbsolutePath) (prefixes : List AbsolutePath) :
    (matchesLegacyPrefix path.text (texts prefixes) = true ↔ ∃ p ∈ prefixes, path.IsUnder p) ↔
      ¬ RootMisses path prefixes := by
  constructor
  · intro hiff ⟨⟨p, hp, hroot⟩, hpath, hslashes, hothers⟩
    obtain ⟨q, hq, hmatch⟩ := matches_iff.mp
      (hiff.mpr ⟨p, hp, AbsolutePath.isUnder_iff.mpr (.inl hroot)⟩)
    by_cases hqroot : q.IsRoot
    · rw [AbsolutePath.IsRoot] at hqroot
      rw [hqroot] at hmatch
      rcases hmatch with hmatch | hmatch
      · exact hpath hmatch
      · exact Bool.noConfusion (hslashes.symm.trans hmatch)
    · exact hothers q hq hqroot (AbsolutePath.isUnder_iff.mpr (.inr hmatch))
  · intro hmisses
    refine ⟨isUnder_of_matches, fun ⟨p, hp, hunder⟩ => ?_⟩
    by_cases hroot : p.IsRoot
    · by_contra hno
      refine hmisses ⟨⟨p, hp, hroot⟩, fun hpath => hno (matches_of_root hp hroot (.inl hpath)), ?_,
        fun q hq hqroot hq' => hno (matches_of_isUnder hq hqroot hq')⟩
      exact Bool.eq_false_iff.mpr fun hslashes => hno (matches_of_root hp hroot (.inr hslashes))
    · exact matches_of_isUnder hp hroot hunder

/-- The root prefix, and a path. -/
def AbsolutePath.root : AbsolutePath := ⟨"/", by decide⟩

def AbsolutePath.orders : AbsolutePath := ⟨"/v1/orders", by decide⟩

/-- `/v1/orders` is under the root, and the root prefix does not forward it. -/
theorem root_prefix_misses :
    ¬ (matchesLegacyPrefix AbsolutePath.orders.text (texts [.root]) = true ↔
      ∃ p ∈ [AbsolutePath.root], AbsolutePath.orders.IsUnder p) := by
  intro h
  have hunder : AbsolutePath.orders.IsUnder .root := AbsolutePath.isUnder_iff.mpr (.inl (by decide))
  have hmatch := h.mpr ⟨.root, List.mem_singleton_self _, hunder⟩
  exact absurd hmatch (by decide)

end NestDdd.Legacy

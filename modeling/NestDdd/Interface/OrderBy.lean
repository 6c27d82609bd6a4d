import Mathlib.Data.List.Forall2
import NestDdd.Shared.Pattern

/-!
# Interface — the order of a list

`parseOrderBy` (`src/interface/http/schemas/order-by.util.ts`) and the two patterns that stand
before it (`pagination.schema.ts`).

* `parseOrderBy_iff`: on which texts `parseOrderBy` keeps to its grammar.
* `orderBy_schema`: what the schemas let through is in the grammar.
-/

namespace NestDdd.Interface

/-! ### The code -/

/-- `z.enum(['asc', 'desc'])`. -/
inductive OrderDir where
  | asc
  | desc
  deriving DecidableEq

def OrderDir.text : OrderDir → List Char
  | .asc => ['a', 's', 'c']
  | .desc => ['d', 'e', 's', 'c']

structure OrderByPart where
  field : List Char
  dir : OrderDir
  deriving DecidableEq

/-- `orderDir.parse(dir)`, `none` if it throws; `dir` may be undefined. -/
def parseDir : Option (List Char) → Option OrderDir
  | some ['a', 's', 'c'] => some .asc
  | some ['d', 'e', 's', 'c'] => some .desc
  | _ => none

/-- `const [field, dir] = seg.split(':')`. -/
def parseSegment (seg : List Char) : Option OrderByPart :=
  match seg.splitOn ':' with
  | [] => none
  | field :: rest => (parseDir rest.head?).map fun dir => ⟨field, dir⟩

/-- `none` if a direction is refused. -/
def parseOrderBy (input : String) : Option (List OrderByPart) :=
  (input.toList.splitOn ',').mapM parseSegment

/-- `[a-zA-Z0-9_]`. -/
def isFieldChar (c : Char) : Bool := c.isAlphanum || c == '_'

/-- `[a-zA-Z0-9_]+`. -/
def fieldPattern : Pattern Char := .seq (.one isFieldChar) (.many isFieldChar)

/-- `(asc|desc)`. -/
def dirPattern : Pattern Char := .group (.alt (.word OrderDir.asc.text) (.word OrderDir.desc.text))

/-- `/^[a-zA-Z0-9_]+:(asc|desc)$/`. -/
def offsetPattern : Pattern Char := .seq fieldPattern (.seq (.word [':']) dirPattern)

/-- `/^[a-zA-Z0-9_]+:(asc|desc)(,id:(asc|desc))?$/`. -/
def cursorPattern : Pattern Char :=
  .seq fieldPattern (.seq (.word [':']) (.seq dirPattern
    (.alt (.group (.seq (.word [',', 'i', 'd', ':']) dirPattern)) .empty)))

/-- `z.string().regex(pattern).default(fallback)`, `none` if the input is refused. -/
def orderBySchema (pattern : Pattern Char) (fallback : String) : Option String → Option String
  | none => some fallback
  | some s => if pattern.test s.toList then some s else none

/-- `OffsetQuerySchema.orderBy`. -/
def offsetOrderBy : Option String → Option String := orderBySchema offsetPattern "createdAt:desc"

/-- `CursorQuerySchema.orderBy`. -/
def cursorOrderBy : Option String → Option String :=
  orderBySchema cursorPattern "createdAt:desc,id:desc"

/-! ### The grammar -/

/-- `field:dir`. -/
def OrderByPart.text (part : OrderByPart) : List Char := part.field ++ ':' :: part.dir.text

/-- The parts, joined by commas. -/
def render (parts : List OrderByPart) : String :=
  String.ofList ([','].intercalate (parts.map OrderByPart.text))

/-- A field that is not empty and has no comma or colon. -/
structure OrderByPart.WellFormed (part : OrderByPart) : Prop where
  nonempty : part.field ≠ []
  comma : ',' ∉ part.field
  colon : ':' ∉ part.field

/-- `field:dir[,field2:dir]`. -/
def InGrammar (s : String) : Prop :=
  ∃ parts : List OrderByPart, parts ≠ [] ∧ (∀ part ∈ parts, part.WellFormed) ∧ s = render parts

/-- What is parsed is in the grammar, and is rendered back. -/
def KeepsGrammar (s : String) : Prop :=
  ((parseOrderBy s).isSome = true ↔ InGrammar s) ∧
    ∀ parts, parseOrderBy s = some parts → render parts = s

/-! ### Segments -/

theorem parseDir_text (dir : OrderDir) : parseDir (some dir.text) = some dir := by
  cases dir <;> rfl

theorem parseDir_eq_some {o : Option (List Char)} {dir : OrderDir} (h : parseDir o = some dir) :
    o = some dir.text := by
  unfold parseDir at h
  split at h
  next =>
    obtain rfl := Option.some.inj h
    rfl
  next =>
    obtain rfl := Option.some.inj h
    rfl
  next => cases h

theorem not_mem_dir_text (dir : OrderDir) : ':' ∉ dir.text ∧ ',' ∉ dir.text := by
  cases dir <;> decide

/-- The pieces of a split text have no separator. -/
theorem not_mem_of_mem_splitOn {α : Type} [BEq α] [LawfulBEq α] {a : α} {s t : List α}
    (h : t ∈ s.splitOn a) : a ∉ t := by
  induction s generalizing t with
  | nil => simp_all
  | cons c s ih =>
      rw [List.splitOn_cons_eq_if_modifyHead] at h
      split at h
      next =>
        rcases List.mem_cons.mp h with rfl | h
        · exact List.not_mem_nil
        · exact ih h
      next hc =>
        obtain ⟨u, us, hu⟩ := List.exists_cons_of_ne_nil (List.splitOn_ne_nil a s)
        rw [hu] at h ih
        rcases List.mem_cons.mp h with rfl | h
        · rintro (_ | ⟨_, hmem⟩)
          · exact hc (beq_self_eq_true a)
          · exact ih List.mem_cons_self hmem
        · exact ih (List.mem_cons_of_mem u h)

theorem splitOn_text {part : OrderByPart} (h : ':' ∉ part.field) :
    part.text.splitOn ':' = [part.field, part.dir.text] := by
  rw [OrderByPart.text, List.splitOn_append_cons_self_of_not_mem h,
    List.splitOn_eq_singleton (not_mem_dir_text part.dir).1]

theorem parseSegment_text {part : OrderByPart} (h : ':' ∉ part.field) :
    parseSegment part.text = some part := by
  rw [parseSegment, splitOn_text h]
  simp [parseDir_text]

/-- A segment with one colon: a field before it. -/
structure OneColon (seg : List Char) : Prop where
  count : seg.count ':' = 1
  field : seg.head? ≠ some ':'

/-- Its second piece is a direction. -/
def HasDir (seg : List Char) : Prop := ∃ dir : OrderDir, (seg.splitOn ':')[1]? = some dir.text

theorem parseSegment_isSome {seg : List Char} : (parseSegment seg).isSome = true ↔ HasDir seg := by
  unfold parseSegment HasDir
  obtain ⟨field, rest, hsplit⟩ := List.exists_cons_of_ne_nil (List.splitOn_ne_nil ':' seg)
  simp only [hsplit, Option.isSome_map, List.getElem?_cons_succ, ← List.head?_eq_getElem?]
  constructor
  · intro h
    obtain ⟨dir, hdir⟩ := Option.isSome_iff_exists.mp h
    exact ⟨dir, parseDir_eq_some hdir⟩
  · rintro ⟨dir, hdir⟩
    rw [hdir, parseDir_text]
    rfl

/-- A segment with one colon is the text of what is parsed. -/
theorem OneColon.text_eq {seg : List Char} (h : OneColon seg) {part : OrderByPart}
    (hpart : parseSegment seg = some part) :
    part.text = seg ∧ part.field ≠ [] ∧ ':' ∉ part.field := by
  obtain ⟨field, rest, rfl, hfield⟩ := List.eq_append_cons_of_mem
    (List.count_pos_iff.mp (h.count.symm ▸ Nat.one_pos))
  have hrest : ':' ∉ rest := by
    have hcount := h.count
    rw [List.count_append, List.count_cons_self, List.count_eq_zero_of_not_mem hfield] at hcount
    exact List.count_eq_zero.mp (by omega)
  rw [parseSegment, List.splitOn_append_cons_self_of_not_mem hfield,
    List.splitOn_eq_singleton hrest] at hpart
  obtain ⟨dir, hdir, rfl⟩ := Option.map_eq_some_iff.mp hpart
  obtain rfl := Option.some.inj (parseDir_eq_some hdir)
  refine ⟨rfl, ?_, hfield⟩
  rintro rfl
  exact h.field rfl

theorem OrderByPart.WellFormed.oneColon {part : OrderByPart} (h : part.WellFormed) :
    OneColon part.text := by
  refine ⟨?_, ?_⟩
  · rw [OrderByPart.text, List.count_append, List.count_cons_self,
      List.count_eq_zero_of_not_mem h.colon,
      List.count_eq_zero_of_not_mem (not_mem_dir_text part.dir).1]
  · obtain ⟨c, cs, hc⟩ := List.exists_cons_of_ne_nil h.nonempty
    rw [OrderByPart.text, hc]
    rintro ⟨rfl⟩
    exact h.colon (hc ▸ List.mem_cons_self)

theorem OrderByPart.WellFormed.comma_text {part : OrderByPart} (h : part.WellFormed) :
    ',' ∉ part.text := by
  rw [OrderByPart.text, List.mem_append, List.mem_cons, not_or, not_or]
  exact ⟨h.comma, by decide, (not_mem_dir_text part.dir).2⟩

/-! ### Texts -/

section MapM

variable {α β : Type} {f : α → Option β}

theorem mapM_eq_some_iff {as : List α} {bs : List β} :
    as.mapM f = some bs ↔ List.Forall₂ (fun a b => f a = some b) as bs := by
  induction as generalizing bs with
  | nil => simp [eq_comm]
  | cons a as ih =>
      rw [List.mapM_cons, List.forall₂_cons_left_iff]
      simp only [← ih, Option.bind_eq_bind, Option.bind_eq_some_iff, Option.pure_def,
        Option.some.injEq]
      constructor
      · rintro ⟨b, hb, bs, hbs, rfl⟩
        exact ⟨b, bs, hb, hbs, rfl⟩
      · rintro ⟨b, bs, hb, hbs, rfl⟩
        exact ⟨b, hb, bs, hbs, rfl⟩

theorem isSome_mapM_iff {as : List α} :
    (as.mapM f).isSome = true ↔ ∀ a ∈ as, (f a).isSome = true := by
  induction as with
  | nil => simp
  | cons a as ih =>
      rw [List.mapM_cons, List.forall_mem_cons, ← ih]
      cases f a <;> cases as.mapM f <;> simp

end MapM

/-- The segments of a text in the grammar. -/
theorem splitOn_render {parts : List OrderByPart} (hne : parts ≠ [])
    (h : ∀ part ∈ parts, part.WellFormed) :
    (render parts).toList.splitOn ',' = parts.map OrderByPart.text := by
  rw [render, String.toList_ofList]
  refine List.splitOn_intercalate ',' (fun l hl => ?_) (by simpa using hne)
  obtain ⟨part, hpart, rfl⟩ := List.mem_map.mp hl
  exact (h part hpart).comma_text

/-- **What is rendered is parsed.** -/
theorem parseOrderBy_render {parts : List OrderByPart} (hne : parts ≠ [])
    (h : ∀ part ∈ parts, part.WellFormed) : parseOrderBy (render parts) = some parts := by
  rw [parseOrderBy, splitOn_render hne h, mapM_eq_some_iff, List.forall₂_map_left_iff]
  exact List.forall₂_same.mpr fun part hpart => parseSegment_text (h part hpart).colon

theorem InGrammar.isSome {s : String} (h : InGrammar s) : (parseOrderBy s).isSome = true := by
  obtain ⟨parts, hne, hparts, rfl⟩ := h
  rw [parseOrderBy_render hne hparts]
  rfl

/-- Segments with one colon are the texts of what they are parsed to. -/
theorem segments_eq {segs : List (List Char)} {parts : List OrderByPart}
    (hparts : List.Forall₂ (fun seg part => parseSegment seg = some part) segs parts)
    (h : ∀ seg ∈ segs, OneColon seg) (hcomma : ∀ seg ∈ segs, ',' ∉ seg) :
    segs = parts.map OrderByPart.text ∧ ∀ part ∈ parts, part.WellFormed := by
  induction hparts with
  | nil => exact ⟨rfl, nofun⟩
  | cons hpart _ ih =>
      rw [List.forall_mem_cons] at h hcomma
      obtain ⟨rfl, hne, hcolon⟩ := h.1.text_eq hpart
      obtain ⟨rfl, hformed⟩ := ih h.2 hcomma.2
      refine ⟨rfl, List.forall_mem_cons.mpr ⟨⟨hne, fun hmem => ?_, hcolon⟩, hformed⟩⟩
      exact hcomma.1 (List.mem_append_left _ hmem)

/-- A text of segments with one colon each is parsed to what it renders. -/
theorem render_of_oneColon {s : String} (h : ∀ seg ∈ s.toList.splitOn ',', OneColon seg)
    {parts : List OrderByPart} (hparts : parseOrderBy s = some parts) :
    render parts = s ∧ InGrammar s := by
  obtain ⟨htext, hformed⟩ := segments_eq (mapM_eq_some_iff.mp hparts) h fun seg hseg =>
    not_mem_of_mem_splitOn hseg
  have hrender : render parts = s := by
    rw [render, ← htext, List.intercalate_splitOn, String.ofList_toList]
  refine ⟨hrender, parts, ?_, hformed, hrender.symm⟩
  rintro rfl
  exact List.splitOn_ne_nil ',' s.toList htext

/-! ### What the schemas let through -/

theorem matches_dirPattern {t : List Char} {gs : List (List Char)} :
    dirPattern.Matches t gs ↔ ∃ dir : OrderDir, t = dir.text ∧ gs = [t] := by
  rw [dirPattern, Pattern.matches_group]
  constructor
  · rintro ⟨inner, rfl, h | h⟩
    · obtain ⟨rfl, rfl⟩ := Pattern.matches_word.mp h
      exact ⟨.asc, rfl, rfl⟩
    · obtain ⟨rfl, rfl⟩ := Pattern.matches_word.mp h
      exact ⟨.desc, rfl, rfl⟩
  · rintro ⟨dir, rfl, rfl⟩
    cases dir with
    | asc => exact ⟨[], rfl, .inl (Pattern.matches_word.mpr ⟨rfl, rfl⟩)⟩
    | desc => exact ⟨[], rfl, .inr (Pattern.matches_word.mpr ⟨rfl, rfl⟩)⟩

/-- A field of `[a-zA-Z0-9_]+`. -/
def OrderByPart.Plain (part : OrderByPart) : Prop :=
  part.field ≠ [] ∧ ∀ c ∈ part.field, isFieldChar c = true

theorem OrderByPart.Plain.wellFormed {part : OrderByPart} (h : part.Plain) : part.WellFormed :=
  ⟨h.1, fun hmem => absurd (h.2 _ hmem) (by decide), fun hmem => absurd (h.2 _ hmem) (by decide)⟩

theorem matches_fieldPattern {t : List Char} {gs : List (List Char)} :
    fieldPattern.Matches t gs → t ≠ [] ∧ ∀ c ∈ t, isFieldChar c = true := by
  rintro ⟨_, t', _, _, rfl, -, ⟨⟨c, hc, rfl⟩, -⟩, hall, -⟩
  exact ⟨List.cons_ne_nil c t', List.forall_mem_cons.mpr ⟨hc, hall⟩⟩

/-- What the patterns match is the text of one part, or of two. -/
theorem parts_of_matches {s : String} {gs : List (List Char)}
    (h : offsetPattern.Matches s.toList gs ∨ cursorPattern.Matches s.toList gs) :
    ∃ parts : List OrderByPart, parts ≠ [] ∧ (∀ part ∈ parts, part.Plain) ∧ s = render parts := by
  have hid (dir : OrderDir) : OrderByPart.Plain ⟨['i', 'd'], dir⟩ :=
    ⟨List.cons_ne_nil _ _, List.all_eq_true.mp (show ['i', 'd'].all isFieldChar = true by decide)⟩
  rcases h with ⟨field, _, _, _, htext, -, hfield, _, _, _, _, rfl, -, hcolon, hdir⟩ |
    ⟨field, _, _, _, htext, -, hfield, _, _, _, _, rfl, -, hcolon, _, _, _, _, rfl, -, hdir, hmore⟩
  · obtain ⟨rfl, -⟩ := Pattern.matches_word.mp hcolon
    obtain ⟨dir, rfl, -⟩ := matches_dirPattern.mp hdir
    have hplain : OrderByPart.Plain ⟨field, dir⟩ := matches_fieldPattern hfield
    refine ⟨[⟨field, dir⟩], List.cons_ne_nil _ _, by simpa using hplain, ?_⟩
    rw [← String.toList_inj, htext]
    simp [render, OrderByPart.text]
  · obtain ⟨rfl, -⟩ := Pattern.matches_word.mp hcolon
    obtain ⟨dir, rfl, -⟩ := matches_dirPattern.mp hdir
    have hplain : OrderByPart.Plain ⟨field, dir⟩ := matches_fieldPattern hfield
    rcases hmore with ⟨_, -, _, _, _, _, rfl, -, hword, hdir'⟩ | ⟨rfl, -⟩
    · obtain ⟨rfl, -⟩ := Pattern.matches_word.mp hword
      obtain ⟨dir', rfl, -⟩ := matches_dirPattern.mp hdir'
      refine ⟨[⟨field, dir⟩, ⟨['i', 'd'], dir'⟩], List.cons_ne_nil _ _, ?_, ?_⟩
      · simpa using ⟨hplain, hid dir'⟩
      · rw [← String.toList_inj, htext]
        simp [render, OrderByPart.text]
    · refine ⟨[⟨field, dir⟩], List.cons_ne_nil _ _, by simpa using hplain, ?_⟩
      rw [← String.toList_inj, htext]
      simp [render, OrderByPart.text]

/-- What a schema lets through is its default, or matches its pattern. -/
theorem orderBySchema_eq_some {pattern : Pattern Char} {fallback : String} {input : Option String}
    {s : String} (hfallback : pattern.test fallback.toList = true)
    (h : orderBySchema pattern fallback input = some s) : ∃ gs, pattern.Matches s.toList gs := by
  refine Pattern.exec_isSome_iff.mp ?_
  cases input with
  | none =>
      obtain rfl := Option.some.inj h
      exact hfallback
  | some text =>
      obtain ⟨htest, h⟩ := Option.ite_none_right_eq_some.mp h
      obtain rfl := Option.some.inj h
      exact htest

/-- **What the schemas let through is parsed**, with plain fields. -/
theorem orderBy_schema {input : Option String} {s : String}
    (h : offsetOrderBy input = some s ∨ cursorOrderBy input = some s) :
    ∃ parts, parseOrderBy s = some parts ∧ (∀ part ∈ parts, part.Plain) ∧ render parts = s := by
  have hmatches : ∃ gs, offsetPattern.Matches s.toList gs ∨ cursorPattern.Matches s.toList gs := by
    rcases h with h | h
    · exact (orderBySchema_eq_some (by decide) h).imp fun _ => .inl
    · exact (orderBySchema_eq_some (by decide) h).imp fun _ => .inr
  obtain ⟨gs, hmatches⟩ := hmatches
  obtain ⟨parts, hne, hplain, rfl⟩ := parts_of_matches hmatches
  have hparse := parseOrderBy_render hne fun part hpart => (hplain part hpart).wellFormed
  exact ⟨parts, hparse, hplain, rfl⟩

/-! ### When the grammar is kept -/

/-- **Where `parseOrderBy` keeps to its grammar**: where it refuses a direction, or where every
segment has one colon and a field before it.  What the schemas let through is of the second kind. -/
theorem parseOrderBy_iff (s : String) :
    (KeepsGrammar s ↔ (∃ seg ∈ s.toList.splitOn ',', ¬ HasDir seg) ∨
      ∀ seg ∈ s.toList.splitOn ',', OneColon seg) ∧
    ∀ input, offsetOrderBy input = some s ∨ cursorOrderBy input = some s →
      ∃ parts, parseOrderBy s = some parts ∧ (∀ part ∈ parts, part.Plain) ∧ render parts = s := by
  have hsome : (parseOrderBy s).isSome = true ↔ ∀ seg ∈ s.toList.splitOn ',', HasDir seg := by
    rw [parseOrderBy, isSome_mapM_iff]
    exact forall₂_congr fun _ _ => parseSegment_isSome
  refine ⟨⟨fun ⟨hiff, _⟩ => ?_, ?_⟩, fun _ => orderBy_schema⟩
  · by_cases hdirs : ∀ seg ∈ s.toList.splitOn ',', HasDir seg
    · obtain ⟨parts, hne, hparts, rfl⟩ := hiff.mp (hsome.mpr hdirs)
      refine .inr fun seg hseg => ?_
      rw [splitOn_render hne hparts] at hseg
      obtain ⟨part, hpart, rfl⟩ := List.mem_map.mp hseg
      exact (hparts part hpart).oneColon
    · push Not at hdirs
      exact .inl hdirs
  · rintro (⟨seg, hseg, hdir⟩ | hone)
    · have hnone : ¬ (parseOrderBy s).isSome = true := fun h => hdir (hsome.mp h seg hseg)
      refine ⟨iff_of_false hnone fun h => hnone h.isSome, fun parts hparts => ?_⟩
      exact absurd (by rw [hparts]; rfl) hnone
    · refine ⟨⟨fun h => ?_, InGrammar.isSome⟩, fun parts hparts =>
        (render_of_oneColon hone hparts).1⟩
      obtain ⟨parts, hparts⟩ := Option.isSome_iff_exists.mp h
      exact (render_of_oneColon hone hparts).2

/-- A third piece is dropped, and a field may be empty. -/
theorem parseOrderBy_slips : ¬ KeepsGrammar "id:asc:desc" ∧ ¬ KeepsGrammar ":asc" := by
  constructor
  · rintro ⟨-, hrender⟩
    have hparts : parseOrderBy "id:asc:desc" = some [⟨['i', 'd'], .asc⟩] := by decide
    exact absurd (hrender _ hparts) (by decide)
  · rintro ⟨hiff, -⟩
    obtain ⟨parts, hne, hparts, htext⟩ := hiff.mp (by decide)
    have hsegs := splitOn_render hne hparts
    rw [← htext] at hsegs
    have hseg : [':', 'a', 's', 'c'] ∈ parts.map OrderByPart.text := hsegs ▸ by decide
    obtain ⟨part, hpart, heq⟩ := List.mem_map.mp hseg
    exact (hparts part hpart).oneColon.field (heq ▸ rfl)

end NestDdd.Interface

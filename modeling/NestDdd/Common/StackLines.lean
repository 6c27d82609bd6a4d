import NestDdd.Common.ErrorOrigin

/-!
# Common — the lines of a V8 stack

Stacks as V8 prints them: the lines of a message, and frames `at fn (path:line:col)` or
`at path:line:col`.  The path is what changes with the machine, so a frame is printed for a path.

* `exec_withFunction`: a frame is taken apart at its last white space before a parenthesis.
* `parseFrame_print`: what `parseFrame` has of a frame.
* `resolveErrorOrigin_printed`: what is resolved, by the lines of the chain.
-/

namespace NestDdd.Common

/-! ### Where a frame is taken apart -/

/-- White space with a parenthesis behind it. -/
def opens (c : Char) (cs : List Char) : Bool := isWhiteSpace c && cs.head? == some '('

/-- What stands before and behind the last white space with a parenthesis behind it. -/
def lastOpening : List Char → Option (List Char × List Char)
  | [] => none
  | c :: cs =>
      ((lastOpening cs).map fun parts => (c :: parts.1, parts.2)).or
        (if opens c cs then some ([], cs.tail) else none)

section LastOpening

variable {s t before after : List Char}

theorem opens_iff {c : Char} {cs : List Char} :
    opens c cs = true ↔ isWhiteSpace c = true ∧ ∃ after, cs = '(' :: after := by
  cases cs with
  | nil => simp [opens]
  | cons d cs => simp [opens]

theorem lastOpening_append (h : lastOpening s = some (before, after)) :
    lastOpening (t ++ s) = some (t ++ before, after) := by
  induction t with
  | nil => exact h
  | cons c t ih => rw [List.cons_append, lastOpening, ih, Option.map_some, Option.some_or]; rfl

theorem lastOpening_eq (h : lastOpening s = some (before, after)) :
    ∃ w, isWhiteSpace w = true ∧ s = before ++ w :: '(' :: after ∧ lastOpening after = none := by
  induction s generalizing before with
  | nil => cases h
  | cons c cs ih =>
      rw [lastOpening] at h
      cases hcs : lastOpening cs with
      | some parts =>
          rw [hcs, Option.map_some, Option.some_or, Option.some.injEq, Prod.mk.injEq] at h
          obtain ⟨rfl, rfl⟩ := h
          obtain ⟨w, hw, rfl, hafter⟩ := ih hcs
          exact ⟨w, hw, rfl, hafter⟩
      | none =>
          rw [hcs, Option.map_none, Option.none_or, Option.ite_none_right_eq_some] at h
          obtain ⟨hopens, h⟩ := h
          obtain ⟨hc, rest, rfl⟩ := opens_iff.mp hopens
          obtain ⟨rfl, rfl⟩ := Prod.mk.inj (Option.some.inj h)
          refine ⟨c, hc, rfl, ?_⟩
          cases hrest : lastOpening rest with
          | none => exact hrest
          | some parts =>
              rw [lastOpening, hrest] at hcs
              cases hcs

theorem lastOpening_isSome (before after : List Char) {w : Char} (hw : isWhiteSpace w = true) :
    (lastOpening (before ++ w :: '(' :: after)).isSome = true := by
  have hhead : (lastOpening (w :: '(' :: after)).isSome = true := by
    rw [lastOpening]
    cases lastOpening ('(' :: after) with
    | none => simp [opens, hw]
    | some parts => rfl
  obtain ⟨parts, hparts⟩ := Option.isSome_iff_exists.mp hhead
  rw [lastOpening_append hparts]
  rfl

/-- Behind the last opening there is none. -/
theorem lastOpening_cons {w : Char} (hw : isWhiteSpace w = true) (h : lastOpening s = none) :
    lastOpening (w :: '(' :: s) = some ([], s) := by
  have hparen : lastOpening ('(' :: s) = none := by
    rw [lastOpening, h]
    rfl
  rw [lastOpening, hparen]
  simp [opens, hw]

end LastOpening

/-- The pattern of a frame behind its function. -/
def openingPattern : Pattern Char :=
  .seq (.one isWhiteSpace) (.seq (.word ['(']) (.seq (.group (.many isDot)) (.word [')'])))

theorem matches_openingPattern {u : List Char} {gs : List (List Char)} :
    openingPattern.Matches u gs ↔ ∃ w inner, isWhiteSpace w = true ∧
      (∀ c ∈ inner, isDot c = true) ∧ u = w :: '(' :: (inner ++ [')']) ∧ gs = [inner] := by
  rw [openingPattern, Pattern.matches_seq]
  simp only [Pattern.matches_seq, Pattern.matches_word, Pattern.matches_group, Pattern.matches_many]
  constructor
  · rintro ⟨_, _, _, _, rfl, rfl, ⟨⟨w, hw, rfl⟩, rfl⟩, _, _, _, _, rfl, rfl, ⟨rfl, rfl⟩,
      inner, _, _, _, rfl, rfl, ⟨_, rfl, hinner, rfl⟩, rfl, rfl⟩
    exact ⟨w, inner, hw, hinner, rfl, rfl⟩
  · rintro ⟨w, inner, hw, hinner, rfl, rfl⟩
    exact ⟨[w], _, [], _, rfl, rfl, ⟨⟨w, hw, rfl⟩, rfl⟩, ['('], _, [], _, rfl, rfl, ⟨rfl, rfl⟩,
      inner, [')'], [inner], [], rfl, rfl, ⟨[], rfl, hinner, rfl⟩, rfl, rfl⟩

/-- **A frame with a function** is taken apart at its last opening. -/
theorem exec_withFunction {s : List Char} (hs : ∀ c ∈ s, isDot c = true) :
    withFunction.exec (s ++ [')']) = (lastOpening s).map fun parts => [parts.1, parts.2] := by
  have hpattern : withFunction = .seq (.group (.many isDot)) openingPattern := rfl
  cases hlast : lastOpening s with
  | none =>
      rw [Option.map_none, Pattern.exec_eq_none_iff]
      rintro gs ⟨t, u, _, _, heq, -, -, hu⟩
      obtain ⟨w, inner, hw, -, rfl, -⟩ := matches_openingPattern.mp hu
      have hsplit : s = t ++ w :: '(' :: inner :=
        List.append_cancel_right (heq.trans (by simp))
      have hsome := lastOpening_isSome t inner hw
      rw [← hsplit, hlast] at hsome
      cases hsome
  | some parts =>
      obtain ⟨before, after⟩ := parts
      obtain ⟨w, hw, rfl, hafter⟩ := lastOpening_eq hlast
      obtain ⟨hbefore, hrest⟩ := List.forall_mem_append.mp hs
      have hinner : ∀ c ∈ after, isDot c = true := fun c hc =>
        hrest c (List.mem_cons_of_mem _ (List.mem_cons_of_mem _ hc))
      have hmatch : openingPattern.exec (w :: '(' :: (after ++ [')'])) = some [after] := by
        refine Pattern.exec_eq_of_unique
          (matches_openingPattern.mpr ⟨w, after, hw, hinner, rfl, rfl⟩) fun gs hgs => ?_
        obtain ⟨w', inner, -, -, heq, rfl⟩ := matches_openingPattern.mp hgs
        simp only [List.cons.injEq, true_and, List.append_left_inj] at heq
        rw [heq.2]
      have htext : before ++ w :: '(' :: after ++ [')'] =
          before ++ w :: '(' :: (after ++ [')']) := by simp
      rw [hpattern, htext, Option.map_some]
      refine Pattern.exec_many_append hbefore hmatch fun t u heq hlen => ?_
      rw [Pattern.exec_eq_none_iff]
      -- a later opening would be one of what stands behind the last
      intro gs hu
      obtain ⟨w', inner, hw', -, rfl, -⟩ := matches_openingPattern.mp hu
      obtain ⟨x, rfl, hx⟩ | ⟨x, rfl, hx⟩ := List.append_eq_append_iff.mp heq
      · cases x with
        | nil => simp at hlen
        | cons c x =>
            have htail : '(' :: (after ++ [')']) = x ++ w' :: '(' :: (inner ++ [')']) :=
              (List.cons.inj hx).2
            cases x with
            | nil =>
                rw [← (List.cons.inj htail).1] at hw'
                cases hw'
            | cons d x =>
                have hsplit : after = x ++ w' :: '(' :: inner :=
                  List.append_cancel_right ((List.cons.inj htail).2.trans (by simp))
                have hsome := lastOpening_isSome x inner hw'
                rw [← hsplit, hafter] at hsome
                cases hsome
      · rw [List.length_append] at hlen
        omega

/-- What ends otherwise has no function. -/
theorem exec_withFunction_none {s : List Char} {c : Char} (hc : c ≠ ')') :
    withFunction.exec (s ++ [c]) = none := by
  have hpattern : withFunction = .seq (.group (.many isDot)) openingPattern := rfl
  rw [Pattern.exec_eq_none_iff]
  rintro gs ⟨t, u, _, _, heq, -, -, hu⟩
  obtain ⟨w, inner, -, -, rfl, -⟩ := matches_openingPattern.mp hu
  have hsplit : s ++ [c] = (t ++ w :: '(' :: inner) ++ [')'] := heq.trans (by simp)
  exact hc (List.singleton_inj.mp (List.append_inj_right' hsplit rfl))

/-! ### Frames -/

/-- Digits, at least one. -/
def IsNumber (cs : List Char) : Prop := cs ≠ [] ∧ ∀ c ∈ cs, c.isDigit = true

/-- A path in which no line ends. -/
structure FilePath where
  chars : List Char
  oneLine : ∀ c ∈ chars, isDot c = true

/-- A call in a file: its function, which may have no name, and its place. -/
structure CallSite where
  fn : Option (List Char)
  line : List Char
  column : List Char
  fn_name : ∀ name ∈ fn, name ≠ [] ∧ trimChars name = name ∧ ∀ c ∈ name, isDot c = true
  line_number : IsNumber line
  column_number : IsNumber column

namespace CallSite

variable (site : CallSite)

def location (path : List Char) : List Char := path ++ ':' :: site.line ++ ':' :: site.column

/-- The frame of the call in the file at `path`. -/
def print (path : List Char) : List Char :=
  [' ', ' ', ' ', ' ', 'a', 't', ' '] ++
    match site.fn with
    | some fn => fn ++ ' ' :: '(' :: site.location path ++ [')']
    | none => site.location path

/-- What is made of the frame: an opening in the path is taken for the one behind the function. -/
def parsed (path : List Char) : ParsedFrame :=
  match site.fn with
  | none => ⟨none, trimChars (site.location path)⟩
  | some fn =>
      match lastOpening (site.location path) with
      | none => ⟨some fn, trimChars (site.location path)⟩
      | some (before, after) => ⟨some (trimChars (fn ++ ' ' :: '(' :: before)), trimChars after⟩

end CallSite

theorem isDigit_plain {c : Char} (h : c.isDigit = true) :
    isDot c = true ∧ isWhiteSpace c = false ∧ c ≠ ')' ∧ c ≠ ':' ∧ c ≠ '/' ∧ c ≠ '(' ∧ c ≠ '\n' := by
  obtain ⟨hle, hle'⟩ := Char.isDigit_iff_toNat.mp h
  have hne {d : Char} (hd : d.isDigit = false) : c ≠ d := fun heq =>
    Bool.noConfusion (h.symm.trans (heq ▸ hd))
  have h0 : ('0' : Char).toNat = 48 := rfl
  have h9 : ('9' : Char).toNat = 57 := rfl
  refine ⟨?_, ?_, hne rfl, hne rfl, hne rfl, hne rfl, hne rfl⟩
  · simp [isDot, hne (d := '\n') rfl, hne (d := '\r') rfl, hne (d := Char.ofNat 0x2028) rfl,
      hne (d := Char.ofNat 0x2029) rfl]
  · simp only [isWhiteSpace, Bool.or_eq_false_iff, Bool.and_eq_false_iff, decide_eq_false_iff_not,
      beq_eq_false_iff_ne]
    omega

/-- What is made of a line that begins like a frame. -/
theorem parseFrame_at {init : List Char} {c : Char} (hc : isWhiteSpace c = false) :
    parseFrame ([' ', ' ', ' ', ' ', 'a', 't', ' '] ++ (init ++ [c])) =
      match withFunction.exec (trimChars (init ++ [c])) with
      | some [fn, location] =>
          some ⟨if trimChars fn = [] then none else some (trimChars fn), trimChars location⟩
      | _ => some ⟨none, trimChars (init ++ [c])⟩ := by
  have htrim : trimChars ([' ', ' ', ' ', ' ', 'a', 't', ' '] ++ (init ++ [c])) =
      ['a', 't', ' '] ++ (init ++ [c]) := by
    have hself : trimChars (['a', 't', ' '] ++ (init ++ [c])) =
        ['a', 't', ' '] ++ (init ++ [c]) := by
      refine trimChars_eq_self ?_ ?_
      · rintro d ⟨rfl⟩
        rfl
      · intro d hd
        rw [← List.append_assoc, List.getLast?_concat] at hd
        exact Option.some.inj hd ▸ hc
    refine Eq.trans ?_ hself
    exact (trimChars_cons rfl _).trans ((trimChars_cons rfl _).trans
      ((trimChars_cons rfl _).trans (trimChars_cons rfl _)))
  rw [parseFrame, htrim]
  rfl

namespace CallSite

variable (site : CallSite) (path : FilePath)

/-- A place ends with a digit. -/
theorem location_concat (cs : List Char) : ∃ init c, site.location cs = init ++ [c] ∧
    c.isDigit = true := by
  obtain ⟨hne, hdigits⟩ := site.column_number
  refine ⟨cs ++ ':' :: site.line ++ ':' :: site.column.dropLast, site.column.getLast hne, ?_,
    hdigits _ (List.getLast_mem hne)⟩
  rw [List.append_assoc _ _ [_], List.cons_append, List.dropLast_concat_getLast, location]

theorem location_eq (cs : List Char) :
    site.location cs = cs ++ (':' :: site.line ++ ':' :: site.column) := by
  simp [location]

theorem slash_notMem_place : '/' ∉ ':' :: site.line ++ ':' :: site.column := by
  have hdigit {cs : List Char} (h : IsNumber cs) : '/' ∉ cs := fun hmem =>
    (isDigit_plain (h.2 _ hmem)).2.2.2.2.1 rfl
  simp only [List.cons_append, List.mem_append, List.mem_cons]
  rintro (h | h | h | h)
  · cases h
  · exact hdigit site.line_number h
  · cases h
  · exact hdigit site.column_number h

theorem isDot_location : ∀ c ∈ site.location path.chars, isDot c = true := by
  have hdigit {cs : List Char} (h : IsNumber cs) : ∀ c ∈ cs, isDot c = true :=
    fun c hc => (isDigit_plain (h.2 c hc)).1
  simp only [location, List.forall_mem_append, List.forall_mem_cons]
  exact ⟨⟨path.oneLine, rfl, hdigit site.line_number⟩, rfl, hdigit site.column_number⟩

/-- **What is made of a frame.** -/
theorem parseFrame_print : parseFrame (site.print path.chars) = some (site.parsed path.chars) := by
  obtain ⟨init, c, hlocation, hc⟩ := site.location_concat path.chars
  obtain ⟨-, hspace, hclosing, -⟩ := isDigit_plain hc
  unfold print parsed
  cases hfn : site.fn with
  | none =>
      simp only
      obtain ⟨rest, htrim, -⟩ := trimChars_concat hspace init
      rw [hlocation, parseFrame_at hspace, htrim, exec_withFunction_none hclosing]
  | some fn =>
      obtain ⟨hne, htrim, hdot⟩ := site.fn_name fn hfn
      obtain ⟨d, ds, rfl⟩ := List.exists_cons_of_ne_nil hne
      have hd := head_of_trimChars_eq htrim
      have hbody : d :: ds ++ ' ' :: '(' :: site.location path.chars ++ [')'] =
          d :: (ds ++ ' ' :: '(' :: site.location path.chars) ++ [')'] := by simp
      have hself : trimChars (d :: (ds ++ ' ' :: '(' :: site.location path.chars) ++ [')']) =
          d :: (ds ++ ' ' :: '(' :: site.location path.chars) ++ [')'] := by
        refine trimChars_eq_self ?_ ?_
        · rintro e ⟨rfl⟩
          exact hd
        · intro e he
          rw [List.getLast?_concat] at he
          exact Option.some.inj he ▸ rfl
      have hline : ∀ e ∈ d :: (ds ++ ' ' :: '(' :: site.location path.chars), isDot e = true := by
        simp only [List.forall_mem_cons, List.forall_mem_append] at hdot ⊢
        exact ⟨hdot.1, hdot.2, rfl, rfl, site.isDot_location path⟩
      simp only
      rw [hbody, parseFrame_at rfl, hself, exec_withFunction hline]
      cases hlast : lastOpening (site.location path.chars) with
      | none =>
          have hopening : lastOpening (d :: (ds ++ ' ' :: '(' :: site.location path.chars)) =
              some (d :: ds, site.location path.chars) := by
            have happend := lastOpening_append (t := d :: ds)
              (lastOpening_cons (w := ' ') rfl hlast)
            rwa [List.append_nil] at happend
          rw [hopening]
          simp only [Option.map_some, htrim]
          rw [if_neg (List.cons_ne_nil d ds)]
      | some parts =>
          obtain ⟨before, after⟩ := parts
          have hopening : lastOpening (d :: (ds ++ ' ' :: '(' :: site.location path.chars)) =
              some (d :: (ds ++ ' ' :: '(' :: before), after) := by
            have happend := lastOpening_append (t := d :: ds ++ [' ', '(']) hlast
            simpa using happend
          rw [hopening]
          simp only [Option.map_some, List.cons_append]
          rw [if_neg (trimChars_ne_nil hd)]

end CallSite

/-! ### Frames of ours -/

/-- `src/`, `dist/` or `test/`. -/
def IsDirectory (directory : List Char) : Prop := ('/' :: directory) ∈ OWN_PATH_MARKERS

section

variable {location relative : List Char}

/-- A marker is the slash before a directory. -/
theorem exists_directory_of_marker {marker : List Char} (h : marker ∈ OWN_PATH_MARKERS) :
    ∃ directory, IsDirectory directory ∧ marker = '/' :: directory := by
  obtain ⟨directory, rfl⟩ : ∃ directory, marker = '/' :: directory := by
    simp only [OWN_PATH_MARKERS, List.mem_cons, List.not_mem_nil, or_false] at h
    rcases h with rfl | rfl | rfl <;> exact ⟨_, rfl⟩
  exact ⟨directory, h, rfl⟩

theorem relativeToProject_eq (h : relativeToProject location = some relative) :
    ∃ directory, IsDirectory directory ∧ directory <+: relative := by
  obtain ⟨marker, hmarker, h⟩ := List.exists_of_findSome?_eq_some h
  obtain ⟨i, hi, rfl⟩ := Option.map_eq_some_iff.mp h
  obtain ⟨directory, hdirectory, rfl⟩ := exists_directory_of_marker hmarker
  refine ⟨directory, hdirectory, ?_⟩
  obtain ⟨rest, hrest⟩ := prefix_of_indexOf hi
  rw [← List.tail_drop, ← hrest]
  exact List.prefix_append directory rest

theorem directory_ne {directory : List Char} (h : IsDirectory directory) :
    directory ≠ [] ∧ ':' ∉ directory := by
  simp only [IsDirectory, OWN_PATH_MARKERS, List.mem_cons, List.not_mem_nil, or_false,
    List.cons.injEq, true_and] at h
  rcases h with rfl | rfl | rfl <;> decide

theorem exists_relative (h : isOwnFrame location = true) :
    ∃ relative, relativeToProject location = some relative ∧ relative ≠ [] := by
  unfold isOwnFrame at h
  split at h
  next => cases h
  split at h
  next => cases h
  obtain ⟨marker, hmarker, hincludes⟩ := List.any_eq_true.mp h
  obtain ⟨i, hi⟩ := Option.isSome_iff_exists.mp hincludes
  obtain ⟨relative, hrelative⟩ : ∃ relative, relativeToProject location = some relative :=
    Option.isSome_iff_exists.mp (List.findSome?_isSome_iff.mpr ⟨marker, hmarker, by simp [hi]⟩)
  obtain ⟨directory, hdirectory, hbegins⟩ := relativeToProject_eq hrelative
  refine ⟨relative, hrelative, ?_⟩
  rintro rfl
  exact (directory_ne hdirectory).1 (List.prefix_nil.mp hbegins)

theorem slash_mem_of_isOwnFrame (h : isOwnFrame location = true) : '/' ∈ location := by
  unfold isOwnFrame at h
  split at h
  next => cases h
  split at h
  next => cases h
  obtain ⟨marker, hmarker, hincludes⟩ := List.any_eq_true.mp h
  obtain ⟨directory, -, rfl⟩ := exists_directory_of_marker hmarker
  exact mem_of_includes hincludes List.mem_cons_self

/-- What the scan stops at. -/
def isOwn (rawLine : List Char) : Bool :=
  (parseFrame rawLine).any fun parsed => isOwnFrame parsed.location

/-- A frame of ours is reported. -/
theorem ownFrame_eq {rawLine : List Char} (h : isOwn rawLine = true) : ∃ parsed relative,
    parseFrame rawLine = some parsed ∧ isOwnFrame parsed.location = true ∧
      relativeToProject parsed.location = some relative ∧
      ownFrame rawLine = some (frameText parsed.fn relative) := by
  obtain ⟨parsed, hparsed, hown⟩ := (Option.any_eq_true _ _).mp h
  obtain ⟨relative, hrelative, hne⟩ := exists_relative hown
  refine ⟨parsed, relative, hparsed, hown, hrelative, ?_⟩
  rw [ownFrame, hparsed, Option.bind_some, if_pos hown, hrelative]
  simp [Option.filter, hne]

theorem ownFrame_eq_none {rawLine : List Char} (h : isOwn rawLine = false) :
    ownFrame rawLine = none := by
  unfold isOwn at h
  unfold ownFrame
  cases hparsed : parseFrame rawLine with
  | none => rfl
  | some parsed =>
      rw [hparsed, Option.any_some] at h
      rw [Option.bind_some, h]
      rfl

theorem isOwn_eq_isSome (rawLine : List Char) : isOwn rawLine = (ownFrame rawLine).isSome := by
  cases hown : isOwn rawLine with
  | false => rw [ownFrame_eq_none hown, Option.isSome_none]
  | true =>
      obtain ⟨_, _, -, -, -, hframe⟩ := ownFrame_eq hown
      rw [hframe, Option.isSome_some]

theorem isOwn_of_ownFrame {rawLine frame : List Char} (h : ownFrame rawLine = some frame) :
    isOwn rawLine = true := by
  rw [isOwn_eq_isSome, h, Option.isSome_some]

/-- A frame of ours, as V8 prints it. -/
theorem CallSite.ownFrame_print {site : CallSite} {path : FilePath}
    (h : isOwn (site.print path.chars) = true) : ∃ relative,
      isOwnFrame (site.parsed path.chars).location = true ∧
      relativeToProject (site.parsed path.chars).location = some relative ∧
      ownFrame (site.print path.chars) =
        some (frameText (site.parsed path.chars).fn relative) := by
  obtain ⟨parsed, relative, hparsed, hown, hrelative, hframe⟩ := ownFrame_eq h
  obtain rfl := Option.some.inj (hparsed.symm.trans (site.parseFrame_print path))
  exact ⟨relative, hown, hrelative, hframe⟩

/-- What has no colon ends before one. -/
theorem prefix_of_notMem {s t rest : List Char} {c : Char} (hc : c ∉ s) (h : s <+: t ++ c :: rest) :
    s <+: t := by
  rcases List.prefix_or_prefix_of_prefix h (List.prefix_append t (c :: rest)) with h' | h'
  · exact h'
  · obtain ⟨u, rfl⟩ := h'
    cases u with
    | nil => exact (List.append_nil t).symm ▸ List.prefix_rfl
    | cons d u =>
        have hd := (List.prefix_append_right_inj t).mp h
        rw [(List.cons_prefix_cons.mp hd).1] at hc
        exact absurd (List.mem_append_right t List.mem_cons_self) hc

/-- The directory comes first in what is reported. -/
theorem prefix_frameText {fn : Option (List Char)} {directory : List Char}
    (hcolon : ':' ∉ directory) (h : directory <+: relative) :
    directory <+: frameText fn relative := by
  have hstrip : directory <+: stripColumn relative := by
    unfold stripColumn
    split
    next path line column hexec =>
      obtain ⟨t, u, _, _, rfl, hgs, ⟨_, rfl, -⟩, v, w, _, _, rfl, rfl, hv, -⟩ :=
        Pattern.matches_of_exec hexec
      obtain ⟨rfl, rfl⟩ := Pattern.matches_word.mp hv
      obtain ⟨rfl, -⟩ := List.cons.inj hgs
      exact (prefix_of_notMem hcolon h).trans (List.prefix_append _ _)
    next => exact h
  unfold frameText
  split
  next => exact (hstrip.trans (List.prefix_append _ _)).trans (List.prefix_append _ _)
  next => exact hstrip

end

/-! ### Errors as they are printed -/

/-- A line of a message, or any other line without a file; or a frame in a file of `π`. -/
inductive StackLine (π : Type) where
  | message (text : List Char) (oneLine : '\n' ∉ text)
  | frame (site : CallSite) (file : π)

structure V8Error (α π : Type) where
  stack : List (StackLine π)
  cause : Option (Thrown α)

section

variable {α π : Type} (path : π → FilePath)

/-- A line, where the files lie at `path`. -/
def StackLine.print : StackLine π → List Char
  | .message text _ => text
  | .frame site file => site.print (path file).chars

def V8Error.print (error : V8Error α π) : JsObject α :=
  .error (some (.text (['\n'].intercalate (error.stack.map (StackLine.print path))))) error.cause

theorem StackLine.newline_notMem (line : StackLine π) : '\n' ∉ line.print path := by
  cases line with
  | message text oneLine => exact oneLine
  | frame site file =>
      have hlocation : '\n' ∉ site.location (path file).chars := fun h =>
        Bool.noConfusion (site.isDot_location (path file) _ h)
      rw [print, CallSite.print]
      cases hfn : site.fn with
      | none => simpa using hlocation
      | some fn =>
          have hname : '\n' ∉ fn := fun h =>
            Bool.noConfusion ((site.fn_name fn hfn).2.2 _ h)
          simpa [hlocation] using hname

/-- The first frame of ours in a stack that is printed. -/
theorem findSome?_linesOf (error : V8Error α π) :
    (linesOf (stackOf (error.print path))).findSome? ownFrame =
      error.stack.findSome? fun line => ownFrame (line.print path) := by
  rw [V8Error.print, stackOf, linesOf]
  by_cases hnil : error.stack = []
  · rw [hnil, List.map_nil, List.findSome?_nil]
    decide
  · rw [List.splitOn_intercalate, List.findSome?_map]
    · rfl
    · exact List.forall_mem_map.mpr fun line _ => line.newline_notMem path
    · rwa [Ne, List.map_eq_nil_iff]

variable [DecidableEq α]

/-- The causes of an error do not depend on how stacks are printed. -/
def causes (heap : α → V8Error α π) (error : Thrown α) : List α :=
  chain (fun a => .error none (heap a).cause) error

theorem chainFrom_congr {heap heap' : α → JsObject α}
    (h : ∀ a, causeOf (heap a) = causeOf (heap' a)) (left : ℕ) :
    ∀ (seen : List α) (error : Thrown α),
      chainFrom heap left seen error = chainFrom heap' left seen error := by
  induction left with
  | zero => intro seen error; cases error <;> rfl
  | succ left ih =>
      intro seen error
      cases error with
      | primitive => rfl
      | object a => rw [chainFrom, chainFrom, h a, ih]

/-- **What is resolved**, by the lines of the chain. -/
theorem resolveErrorOrigin_printed (heap : α → V8Error α π) (error : Thrown α) :
    resolveErrorOrigin (fun a => (heap a).print path) error =
      .ok (originOf ((causes heap error).filterMap fun a =>
        (heap a).stack.findSome? fun line => ownFrame (line.print path))) := by
  have hcause (a : α) : causeOf ((heap a).print path) =
      causeOf (JsObject.error none (heap a).cause) := rfl
  have hchain : chainFrom (fun a => (heap a).print path) MAX_CAUSE_DEPTH [] error =
      causes heap error := chainFrom_congr hcause _ _ _
  have hread : Readable (fun a => (heap a).print path)
      (chain (fun a => (heap a).print path) error) := by
    intro before a after _ ha
    cases ha
  rw [hread.resolves.returns, chain, hchain, framesOf]
  unfold frameOf
  simp only [findSome?_linesOf]

end

end NestDdd.Common

import Mathlib.Data.Set.Basic
import NestDdd.Common.StackLines

/-!
# Common — the origin of an error and the install directory

The stacks of one program installed in two directories.  The path from `src/`, `dist/` or `test/`
onward is cut at the first marker that occurs anywhere, and what stands before an opening in a path
is taken for the function.

* `cut_of_summary`: when a frame is reported by its file.
* `sameFrame_iff`: one line in two directories.
* `sameOrigins_iff`: the frames with which the origins are those of the project, wherever it lies.
-/

namespace NestDdd.Common

/-! ### Files of the project -/

/-- An absolute directory, without the slash behind it; the root is empty. -/
@[ext] structure InstallDirectory where
  chars : List Char
  absolute : ∀ c ∈ chars.head?, c = '/'
  oneLine : ∀ c ∈ chars, isDot c = true

/-- The path of a file of the project. -/
def InstallDirectory.at (dir : InstallDirectory) (file : FilePath) : FilePath where
  chars := dir.chars ++ '/' :: file.chars
  oneLine := List.forall_mem_append.mpr
    ⟨dir.oneLine, List.forall_mem_cons.mpr ⟨rfl, file.oneLine⟩⟩

/-- A frame as it is to be reported: its file from the project on, its line and its function. -/
def CallSite.summary (site : CallSite) (file : List Char) : List Char :=
  file ++ ':' :: site.line ++
    match site.fn with
    | some fn => ' ' :: '(' :: fn ++ [')']
    | none => []

section

variable {α : Type} [DecidableEq α]

/-- The origins are the same in both directories, and are frames of files in `src/`, `dist/` or
`test/` of the project. -/
def SameOrigins (dir dir' : InstallDirectory) (heap : α → V8Error α FilePath) (error : Thrown α) :
    Prop :=
  ∃ found, resolveErrorOrigin (fun a => (heap a).print dir.at) error = .ok found ∧
  resolveErrorOrigin (fun a => (heap a).print dir'.at) error = .ok found ∧
  ∀ frame, found.origin = some frame ∨ found.causeOrigin = some frame →
    ∃ a ∈ causes heap error, ∃ site file, .frame site file ∈ (heap a).stack ∧
      (∃ directory, IsDirectory directory ∧ directory <+: file.chars) ∧
      frame = site.summary file.chars

end

/-! ### Where a path is cut -/

/-- The place of the first occurrence of the first marker that occurs. -/
def firstMarker (location : List Char) : Option ℕ :=
  OWN_PATH_MARKERS.findSome? fun marker => indexOf marker location

theorem relativeToProject_eq_map (location : List Char) : relativeToProject location =
    (firstMarker location).map fun i => location.drop (i + 1) := by
  rw [relativeToProject, firstMarker, List.map_findSome?]
  rfl

namespace CallSite

variable (site : CallSite)

/-- The cut is in the path. -/
theorem cut_lt {path : List Char} {i : ℕ} (h : firstMarker (site.location path) = some i) :
    i < path.length ∧ ∃ directory, IsDirectory directory ∧
      '/' :: directory <+: (site.location path).drop i := by
  obtain ⟨marker, hmarker, hi⟩ := List.exists_of_findSome?_eq_some h
  have hbegins := prefix_of_indexOf hi
  obtain ⟨directory, hdirectory, rfl⟩ := exists_directory_of_marker hmarker
  refine ⟨?_, directory, hdirectory, hbegins⟩
  by_contra hle
  rw [location_eq, List.drop_append, List.drop_of_length_le (not_lt.mp hle)] at hbegins
  exact site.slash_notMem_place (List.mem_of_mem_drop (hbegins.subset List.mem_cons_self))

/-- What stands behind the cut is the place of a shorter path. -/
theorem relative_location {path relative : List Char}
    (h : relativeToProject (site.location path) = some relative) :
    ∃ i < path.length, firstMarker (site.location path) = some i ∧
      relative = site.location (path.drop (i + 1)) := by
  rw [relativeToProject_eq_map] at h
  obtain ⟨i, hi, rfl⟩ := Option.map_eq_some_iff.mp h
  obtain ⟨hlt, -⟩ := site.cut_lt hi
  refine ⟨i, hlt, hi, ?_⟩
  rw [location_eq, location_eq, List.drop_append_of_le_length hlt]

theorem colon_notMem {cs : List Char} (h : IsNumber cs) : ':' ∉ cs := fun hmem =>
  (isDigit_plain (h.2 _ hmem)).2.2.2.1 rfl

/-- A text is taken apart at its last colon in one way. -/
theorem eq_of_append_colon {s s' r r' : List Char} (hr : ':' ∉ r) (hr' : ':' ∉ r')
    (h : s ++ ':' :: r = s' ++ ':' :: r') : s = s' ∧ r = r' := by
  obtain ⟨t, rfl, ht⟩ | ⟨t, rfl, ht⟩ := List.append_eq_append_iff.mp h
  · cases t with
    | nil => exact ⟨(List.append_nil s).symm, (List.cons.inj ht).2⟩
    | cons c t =>
        rw [(List.cons.inj ht).2] at hr
        exact absurd (List.mem_append_right t List.mem_cons_self) hr
  · cases t with
    | nil => exact ⟨List.append_nil s', (List.cons.inj ht).2.symm⟩
    | cons c t =>
        rw [(List.cons.inj ht).2] at hr'
        exact absurd (List.mem_append_right t List.mem_cons_self) hr'

theorem matches_number {t : List Char} {gs : List (List Char)} :
    Pattern.Matches (.group (.seq (.one Char.isDigit) (.many Char.isDigit))) t gs ↔
      IsNumber t ∧ gs = [t] := by
  rw [Pattern.matches_group]
  constructor
  · rintro ⟨_, rfl, _, ds, _, _, rfl, rfl, ⟨⟨d, hd, rfl⟩, rfl⟩, hds, rfl⟩
    exact ⟨⟨List.cons_ne_nil _ _, List.forall_mem_cons.mpr ⟨hd, hds⟩⟩, rfl⟩
  · rintro ⟨⟨hne, hdigits⟩, rfl⟩
    obtain ⟨d, ds, rfl⟩ := List.exists_cons_of_ne_nil hne
    obtain ⟨hd, hds⟩ := List.forall_mem_cons.mp hdigits
    exact ⟨[], rfl, [d], ds, [], [], rfl, rfl, ⟨⟨d, hd, rfl⟩, rfl⟩, hds, rfl⟩

/-- The column is stripped. -/
theorem stripColumn_location {path : List Char} (hpath : ∀ c ∈ path, isDot c = true) :
    stripColumn (site.location path) = path ++ ':' :: site.line := by
  have hmatch : withColumn.exec (site.location path) = some [path, site.line, site.column] := by
    refine Pattern.exec_eq_of_unique ?_ ?_
    · refine ⟨path, _, [path], _, by simp [location], rfl, ⟨[], rfl, hpath, rfl⟩, [':'], _, [], _,
        rfl, rfl, Pattern.matches_word.mpr ⟨rfl, rfl⟩, site.line, _, [site.line], _, rfl, rfl,
        matches_number.mpr ⟨site.line_number, rfl⟩, [':'], site.column, [], [site.column], rfl, rfl,
        Pattern.matches_word.mpr ⟨rfl, rfl⟩, matches_number.mpr ⟨site.column_number, rfl⟩⟩
    · rintro gs ⟨t, _, _, _, heq, rfl, ⟨_, rfl, -, rfl⟩, _, _, _, _, rfl, rfl, h₁, line, _, _, _,
        rfl, rfl, h₂, _, column, _, _, rfl, rfl, h₃, h₄⟩
      obtain ⟨rfl, rfl⟩ := Pattern.matches_word.mp h₁
      obtain ⟨hline, rfl⟩ := matches_number.mp h₂
      obtain ⟨rfl, rfl⟩ := Pattern.matches_word.mp h₃
      obtain ⟨hcolumn, rfl⟩ := matches_number.mp h₄
      have hsplit : path ++ ':' :: site.line ++ ':' :: site.column =
          t ++ ':' :: line ++ ':' :: column := heq.trans (by simp)
      obtain ⟨hleft, rfl⟩ := eq_of_append_colon (colon_notMem site.column_number)
        (colon_notMem hcolumn) hsplit
      obtain ⟨rfl, rfl⟩ := eq_of_append_colon (colon_notMem site.line_number)
        (colon_notMem hline) hleft
      rfl
  rw [stripColumn, hmatch]

theorem frameText_location {path : List Char} (hpath : ∀ c ∈ path, isDot c = true) :
    frameText site.fn (site.location path) = site.summary path := by
  unfold frameText summary
  cases site.fn with
  | none => simp only [stripColumn_location site hpath, List.append_nil]
  | some fn => simp only [stripColumn_location site hpath, List.append_assoc, List.cons_append]

theorem summary_inj {file file' : List Char} (h : site.summary file = site.summary file') :
    file = file' := by
  simp only [summary, List.append_assoc] at h
  exact List.append_cancel_right h

variable (dir : InstallDirectory) (file : FilePath)

theorem location_at : site.location (dir.at file).chars =
    dir.chars ++ '/' :: site.location file.chars := by
  simp [location, InstallDirectory.at]

theorem trimChars_location {s : List Char}
    (hhead : ∀ c ∈ (s ++ '/' :: site.location file.chars).head?, isWhiteSpace c = false) :
    trimChars (s ++ '/' :: site.location file.chars) = s ++ '/' :: site.location file.chars := by
  obtain ⟨init, c, hlocation, hc⟩ := site.location_concat file.chars
  refine trimChars_eq_self hhead fun d hd => ?_
  have hconcat : s ++ '/' :: site.location file.chars = (s ++ '/' :: init) ++ [c] := by
    simp [hlocation]
  rw [hconcat, List.getLast?_concat] at hd
  exact Option.some.inj hd ▸ (isDigit_plain hc).2.1

theorem trimChars_location_at : trimChars (site.location (dir.at file).chars) =
    site.location (dir.at file).chars := by
  rw [location_at]
  refine site.trimChars_location file fun c hc => ?_
  cases hchars : dir.chars with
  | nil =>
      rw [hchars] at hc
      exact Option.some.inj hc ▸ rfl
  | cons d ds =>
      rw [hchars] at hc
      obtain rfl : d = c := Option.some.inj hc
      rw [dir.absolute d (by simp [hchars])]
      rfl

/-- Without an opening, a frame has its own function and its own place. -/
theorem parsed_at (h : site.fn = none ∨ lastOpening (site.location (dir.at file).chars) = none) :
    site.parsed (dir.at file).chars = ⟨site.fn, site.location (dir.at file).chars⟩ := by
  unfold parsed
  cases hfn : site.fn with
  | none => simp only [site.trimChars_location_at dir file]
  | some fn =>
      rw [hfn] at h
      rw [h.resolve_left (Option.some_ne_none fn)]
      simp only [site.trimChars_location_at dir file]

/-- It is reported from the cut on. -/
theorem ownFrame_at (h : site.fn = none ∨ lastOpening (site.location (dir.at file).chars) = none)
    (hown : isOwn (site.print (dir.at file).chars) = true) :
    ∃ i, firstMarker (site.location (dir.at file).chars) = some i ∧ i < (dir.at file).chars.length ∧
      ownFrame (site.print (dir.at file).chars) =
        some (site.summary ((dir.at file).chars.drop (i + 1))) := by
  obtain ⟨relative, -, hrelative, hframe⟩ := ownFrame_print hown
  rw [site.parsed_at dir file h] at hrelative hframe
  obtain ⟨i, hlt, hi, rfl⟩ := site.relative_location hrelative
  refine ⟨i, hi, hlt, ?_⟩
  rw [hframe]
  exact congrArg some (site.frameText_location fun c hc =>
    (dir.at file).oneLine c (List.mem_of_mem_drop hc))

/-- A frame of ours, in the place of which nothing reads as the end of its function, and which is
cut right behind the directory. -/
structure CutBehind : Prop where
  own : isOwn (site.print (dir.at file).chars) = true
  plain : site.fn = none ∨ lastOpening (site.location (dir.at file).chars) = none
  cut : firstMarker (site.location (dir.at file).chars) = some dir.chars.length

/-- **A frame that is reported by its file** is cut behind the directory. -/
theorem cut_of_summary
    (h : site.fn = none ∨ lastOpening (site.location (dir.at file).chars) = none)
    (hframe : ownFrame (site.print (dir.at file).chars) = some (site.summary file.chars)) :
    firstMarker (site.location (dir.at file).chars) = some dir.chars.length := by
  obtain ⟨i, hi, hlt, hsummary⟩ := site.ownFrame_at dir file h (isOwn_of_ownFrame hframe)
  have hdrop := site.summary_inj (Option.some.inj (hsummary.symm.trans hframe))
  have hlen := congrArg List.length hdrop
  simp only [List.length_drop, InstallDirectory.at, List.length_append, List.length_cons]
    at hlen hlt
  rw [hi]
  congr 1
  omega

/-- And a frame that is cut there is reported by its file, which is in a directory of ours. -/
theorem summary_of_cut (h : site.CutBehind dir file) :
    ownFrame (site.print (dir.at file).chars) = some (site.summary file.chars) ∧
      ∃ directory, IsDirectory directory ∧ directory <+: file.chars := by
  obtain ⟨i, hi, -, hsummary⟩ := site.ownFrame_at dir file h.plain h.own
  obtain rfl := Option.some.inj (hi.symm.trans h.cut)
  obtain ⟨-, directory, hdirectory, hbegins⟩ := site.cut_lt h.cut
  constructor
  · rw [hsummary]
    congr 2
    simp [InstallDirectory.at]
  · rw [location_at, List.drop_left, List.cons_prefix_cons] at hbegins
    have hlocation : site.location file.chars =
        file.chars ++ ':' :: (site.line ++ ':' :: site.column) := by simp [location]
    rw [hlocation] at hbegins
    exact ⟨directory, hdirectory, prefix_of_notMem (directory_ne hdirectory).2 hbegins.2⟩

/-! ### Openings in a path -/

/-- A function of a name, with what stands behind it up to the last opening. -/
theorem trimChars_fn {fn : List Char} (hfn : site.fn = some fn) {c : Char}
    (hc : isWhiteSpace c = false) (s t : List Char) :
    trimChars (fn ++ s ++ c :: t) = fn ++ s ++ c :: t.rdropWhile isWhiteSpace := by
  obtain ⟨hne, htrim, -⟩ := site.fn_name fn hfn
  obtain ⟨d, ds, rfl⟩ := List.exists_cons_of_ne_nil hne
  refine trimChars_append hc ?_ t
  rintro e ⟨rfl⟩
  exact head_of_trimChars_eq htrim

/-- A file whose place has an opening is reported with the directory. -/
theorem chars_eq_of_opening {dir dir' : InstallDirectory} {fn before after frame : List Char}
    (hfn : site.fn = some fn)
    (hlast : lastOpening (site.location file.chars) = some (before, after))
    (h : ownFrame (site.print (dir.at file).chars) = some frame)
    (h' : ownFrame (site.print (dir'.at file).chars) = some frame) : dir.chars = dir'.chars := by
  have hparsed (dir : InstallDirectory) : site.parsed (dir.at file).chars =
      ⟨some (fn ++ ' ' :: '(' :: dir.chars ++ '/' :: before.rdropWhile isWhiteSpace),
        trimChars after⟩ := by
    have hat : lastOpening (site.location (dir.at file).chars) =
        some (dir.chars ++ '/' :: before, after) := by
      have happend := lastOpening_append (t := dir.chars ++ ['/']) hlast
      rw [location_at]
      simpa using happend
    have htrim := site.trimChars_fn hfn (c := '/') rfl (' ' :: '(' :: dir.chars) before
    rw [parsed, hfn, hat]
    simp only [← htrim]
    simp
  have htext (dir : InstallDirectory) (h : ownFrame (site.print (dir.at file).chars) = some frame) :
      ∃ relative, relativeToProject (trimChars after) = some relative ∧
        frame = stripColumn relative ++ ' ' :: '(' :: (fn ++ ' ' :: '(' :: dir.chars ++
          '/' :: before.rdropWhile isWhiteSpace) ++ [')'] := by
    obtain ⟨relative, -, hrelative, hframe⟩ := ownFrame_print (isOwn_of_ownFrame h)
    rw [hparsed dir] at hrelative hframe
    exact ⟨relative, hrelative, Option.some.inj (h.symm.trans hframe)⟩
  obtain ⟨relative, hrelative, heq⟩ := htext dir h
  obtain ⟨relative', hrelative', heq'⟩ := htext dir' h'
  obtain rfl := Option.some.inj (hrelative.symm.trans hrelative')
  rw [heq'] at heq
  simpa using heq.symm

/-- What stands behind an opening in the directory. -/
theorem opening_in_directory {before after : List Char}
    (hfile : lastOpening (site.location file.chars) = none)
    (hlast : lastOpening (site.location (dir.at file).chars) = some (before, after)) :
    ∃ rest, after = rest ++ '/' :: site.location file.chars := by
  obtain ⟨w, hw, heq, -⟩ := lastOpening_eq hlast
  rw [location_at] at heq
  have hslash : isWhiteSpace '/' = false := rfl
  obtain ⟨t, rfl, ht⟩ | ⟨t, -, ht⟩ := List.append_eq_append_iff.mp heq
  · cases t with
    | nil =>
        rw [← (List.cons.inj ht).1, hslash] at hw
        cases hw
    | cons c t =>
        have htail : site.location file.chars = t ++ w :: '(' :: after := (List.cons.inj ht).2
        have hsome := lastOpening_isSome t after hw
        rw [← htail, hfile] at hsome
        cases hsome
  · cases t with
    | nil =>
        rw [(List.cons.inj ht).1, hslash] at hw
        cases hw
    | cons c t =>
        have htail : '(' :: after = t ++ '/' :: site.location file.chars := (List.cons.inj ht).2
        cases t with
        | nil => exact absurd (List.cons.inj htail).1 (by decide)
        | cons d t => exact ⟨t, (List.cons.inj htail).2⟩

/-- What is stripped before a file. -/
theorem exists_trimChars (s : List Char) : ∃ rest, rest <:+ s ∧
    trimChars (s ++ '/' :: site.location file.chars) = rest ++ '/' :: site.location file.chars := by
  induction s with
  | nil =>
      refine ⟨[], List.suffix_rfl, site.trimChars_location file (s := []) ?_⟩
      rintro c ⟨rfl⟩
      rfl
  | cons c s ih =>
      by_cases hc : isWhiteSpace c = true
      · obtain ⟨rest, hsuffix, htrim⟩ := ih
        exact ⟨rest, hsuffix.trans (List.suffix_cons c s), (trimChars_cons hc _).trans htrim⟩
      · refine ⟨c :: s, List.suffix_rfl, site.trimChars_location file ?_⟩
        rintro d ⟨rfl⟩
        exact Bool.not_eq_true _ ▸ hc

/-- With an opening in the directory, what stands before it goes to the function. -/
theorem parsed_of_opening {fn before after : List Char} (hfn : site.fn = some fn)
    (hfile : lastOpening (site.location file.chars) = none)
    (hlast : lastOpening (site.location (dir.at file).chars) = some (before, after)) :
    ∃ path : FilePath, site.parsed (dir.at file).chars =
      ⟨some (fn ++ ' ' :: '(' :: before.rdropWhile isWhiteSpace), site.location path.chars⟩ := by
  obtain ⟨rest, rfl⟩ := site.opening_in_directory dir file hfile hlast
  obtain ⟨rest', hsuffix, htrim⟩ := site.exists_trimChars file rest
  have hdot : ∀ c ∈ rest' ++ '/' :: file.chars, isDot c = true := by
    obtain ⟨w, -, heq, -⟩ := lastOpening_eq hlast
    have hall := site.isDot_location (dir.at file)
    rw [heq] at hall
    simp only [List.forall_mem_append, List.forall_mem_cons] at hall ⊢
    exact ⟨fun c hc => hall.2.2.2.1 c (hsuffix.subset hc), rfl, file.oneLine⟩
  have hname := site.trimChars_fn hfn (c := '(') rfl [' '] before
  refine ⟨⟨rest' ++ '/' :: file.chars, hdot⟩, ?_⟩
  rw [parsed, hfn, hlast]
  simp only [List.append_assoc, List.cons_append, List.nil_append] at hname
  simp only [hname, htrim]
  simp [location]

/-- What stands behind an opening is longer: then that opening is in what stands before the
other. -/
theorem exists_opening {s t x y : List Char} (h : s ++ ' ' :: '(' :: x = t ++ ' ' :: '(' :: y)
    (hlen : x.length + 2 ≤ y.length) : ∃ u, s = t ++ ' ' :: '(' :: u := by
  have hlens := congrArg List.length h
  simp only [List.length_append, List.length_cons] at hlens
  have hopening : t ++ [' ', '('] <+: s ++ ' ' :: '(' :: x := ⟨y, by simp [h]⟩
  obtain ⟨u, hu⟩ := List.prefix_of_prefix_length_le hopening (List.prefix_append s _) (by
    rw [List.length_append, List.length_cons, List.length_singleton]
    omega)
  exact ⟨u, by simpa using hu.symm⟩

/-- A function with more than its name is not what is to be reported. -/
theorem frameText_ne_summary {fn extra path : List Char} (hfn : site.fn = some fn)
    (hfile : lastOpening (site.location file.chars) = none) (hpath : ∀ c ∈ path, isDot c = true) :
    frameText (some (fn ++ ' ' :: '(' :: extra)) (site.location path) ≠
      site.summary file.chars := by
  intro htext
  rw [summary, hfn, frameText, site.stripColumn_location hpath] at htext
  have heq : (file.chars ++ ':' :: site.line) ++ ' ' :: '(' :: (fn ++ [')']) =
      (path ++ ':' :: site.line) ++ ' ' :: '(' :: (fn ++ ' ' :: '(' :: extra ++ [')']) := by
    simpa using htext.symm
  obtain ⟨rest, hrest⟩ := exists_opening heq (by
    simp only [List.length_append, List.length_cons]
    omega)
  have hplace : site.location file.chars =
      (path ++ ':' :: site.line) ++ ' ' :: '(' :: (rest ++ ':' :: site.column) := by
    rw [location, hrest]
    simp
  have hsome := lastOpening_isSome (path ++ ':' :: site.line) (rest ++ ':' :: site.column)
    (w := ' ') rfl
  rw [← hplace, hfile] at hsome
  cases hsome

/-- **A directory with an opening**: a frame in it is not reported by its file. -/
theorem ne_summary_of_opening {fn before after : List Char} (hfn : site.fn = some fn)
    (hfile : lastOpening (site.location file.chars) = none)
    (hlast : lastOpening (site.location (dir.at file).chars) = some (before, after)) :
    ownFrame (site.print (dir.at file).chars) ≠ some (site.summary file.chars) := by
  intro hframe
  obtain ⟨relative, -, hrelative, htext⟩ := ownFrame_print (isOwn_of_ownFrame hframe)
  obtain ⟨path, hparsed⟩ := site.parsed_of_opening dir file hfn hfile hlast
  rw [hparsed] at hrelative htext
  obtain ⟨i, -, -, rfl⟩ := site.relative_location hrelative
  refine site.frameText_ne_summary file hfn hfile (fun c hc => ?_)
    (Option.some.inj (htext.symm.trans hframe))
  exact path.oneLine c (List.mem_of_mem_drop hc)

/-- **A frame is reported by its file** only so. -/
theorem cutBehind_of_summary
    (hfile : site.fn = none ∨ lastOpening (site.location file.chars) = none)
    (h : ownFrame (site.print (dir.at file).chars) = some (site.summary file.chars)) :
    site.CutBehind dir file := by
  have hplain : site.fn = none ∨ lastOpening (site.location (dir.at file).chars) = none := by
    cases hfn : site.fn with
    | none => exact .inl rfl
    | some fn =>
        rw [hfn] at hfile
        refine .inr (Option.eq_none_iff_forall_ne_some.mpr fun parts hlast => ?_)
        exact site.ne_summary_of_opening dir file hfn (hfile.resolve_left nofun) hlast h
  exact ⟨isOwn_of_ownFrame h, hplain, site.cut_of_summary dir file hplain h⟩

end CallSite

/-! ### Both directories -/

/-- A line without a file is none of ours.  A frame of a file is ours in neither directory, or cut
right behind both. -/
def Portable (dir dir' : InstallDirectory) : StackLine FilePath → Prop
  | .message text _ => isOwn text = false
  | .frame site file =>
      (∀ root ∈ [dir, dir'], isOwn (site.print (root.at file).chars) = false) ∨
      ∀ root ∈ [dir, dir'], site.CutBehind root file

/-- What is reported of a line is the same in both directories, a frame by its file. -/
structure SameFrame (dir dir' : InstallDirectory) (line : StackLine FilePath) : Prop where
  same : ownFrame (line.print dir'.at) = ownFrame (line.print dir.at)
  byFile : ∀ frame, ownFrame (line.print dir.at) = some frame →
    ∃ site file, line = .frame site file ∧
      (∃ directory, IsDirectory directory ∧ directory <+: file.chars) ∧
      frame = site.summary file.chars

theorem SameFrame.of_eq_none {dir dir' : InstallDirectory} {line : StackLine FilePath}
    (h : ownFrame (line.print dir.at) = none) (h' : ownFrame (line.print dir'.at) = none) :
    SameFrame dir dir' line where
  same := h'.trans h.symm
  byFile frame hframe := by
    rw [h] at hframe
    cases hframe

theorem forall_mem_pair {dir dir' : InstallDirectory} {p : InstallDirectory → Prop} :
    (∀ root ∈ [dir, dir'], p root) ↔ p dir ∧ p dir' := by
  simp

/-- **One line**, in two directories. -/
theorem sameFrame_iff {dir dir' : InstallDirectory} (hne : dir ≠ dir') (line : StackLine FilePath) :
    SameFrame dir dir' line ↔ Portable dir dir' line := by
  cases line with
  | message text oneLine =>
      constructor
      · rintro ⟨-, hfile⟩
        refine Bool.eq_false_iff.mpr fun hown => ?_
        obtain ⟨_, _, -, -, -, hframe⟩ := ownFrame_eq hown
        obtain ⟨_, _, hline, -⟩ := hfile _ hframe
        cases hline
      · intro hown
        exact .of_eq_none (ownFrame_eq_none hown) (ownFrame_eq_none hown)
  | frame site file =>
      constructor
      · rintro ⟨hsame, hfile⟩
        have hsame : ownFrame (site.print (dir'.at file).chars) =
            ownFrame (site.print (dir.at file).chars) := hsame
        cases hown : isOwn (site.print (dir.at file).chars) with
        | false =>
            refine .inl ?_
            rw [forall_mem_pair]
            refine ⟨hown, ?_⟩
            rw [isOwn_eq_isSome, hsame, ← isOwn_eq_isSome, hown]
        | true =>
            obtain ⟨_, _, -, -, -, hframe⟩ := ownFrame_eq hown
            obtain ⟨_, _, hline, -, hsummary⟩ := hfile _ hframe
            obtain ⟨rfl, rfl⟩ := StackLine.frame.inj hline
            rw [hsummary] at hframe
            have hplain : site.fn = none ∨ lastOpening (site.location file.chars) = none := by
              cases hfn : site.fn with
              | none => exact .inl rfl
              | some fn =>
                  refine .inr (Option.eq_none_iff_forall_ne_some.mpr fun parts hlast => hne ?_)
                  exact InstallDirectory.ext
                    (site.chars_eq_of_opening file hfn hlast hframe (hsame.trans hframe))
            refine .inr ?_
            rw [forall_mem_pair]
            exact ⟨site.cutBehind_of_summary dir file hplain hframe,
              site.cutBehind_of_summary dir' file hplain (hsame.trans hframe)⟩
      · rintro (hown | hcut)
        · exact .of_eq_none (ownFrame_eq_none (hown dir (by simp)))
            (ownFrame_eq_none (hown dir' (by simp)))
        · obtain ⟨hframe, hdirectory⟩ := site.summary_of_cut dir file (hcut dir (by simp))
          obtain ⟨hframe', -⟩ := site.summary_of_cut dir' file (hcut dir' (by simp))
          refine ⟨hframe'.trans hframe.symm, fun frame h => ?_⟩
          exact ⟨site, file, rfl, hdirectory, Option.some.inj (h.symm.trans hframe)⟩

section

variable {α : Type} [DecidableEq α] {dir dir' : InstallDirectory}

/-- A chain of such lines. -/
theorem SameFrame.sameOrigins {heap : α → V8Error α FilePath} {error : Thrown α}
    (h : ∀ a ∈ causes heap error, ∀ line ∈ (heap a).stack, SameFrame dir dir' line) :
    SameOrigins dir dir' heap error := by
  have hframe : ∀ a ∈ causes heap error,
      ((heap a).stack.findSome? fun line => ownFrame (line.print dir'.at)) =
        (heap a).stack.findSome? fun line => ownFrame (line.print dir.at) := by
    intro a ha
    rw [← List.head?_filterMap, ← List.head?_filterMap]
    exact congrArg List.head? (List.filterMap_congr fun line hline => (h a ha line hline).same)
  rw [SameOrigins, resolveErrorOrigin_printed, resolveErrorOrigin_printed,
    List.filterMap_congr hframe]
  refine ⟨_, rfl, rfl, fun frame hmem => ?_⟩
  obtain ⟨a, ha, hsome⟩ := List.mem_filterMap.mp (mem_of_originOf hmem)
  obtain ⟨line, hline, hown⟩ := List.exists_of_findSome?_eq_some hsome
  obtain ⟨site, file, rfl, hdirectory, hsummary⟩ := (h a ha line hline).byFile frame hown
  exact ⟨a, ha, site, file, hline, hdirectory, hsummary⟩

/-- An error with nothing else in its stack, and without a cause. -/
def lone (line : StackLine FilePath) : V8Error Unit FilePath := ⟨[line], none⟩

theorem origin_lone (path : FilePath → FilePath) (line : StackLine FilePath) :
    resolveErrorOrigin (fun _ => (lone line).print path) (.object ()) =
      .ok ⟨ownFrame (line.print path), none⟩ := by
  have hcauses : causes (fun _ : Unit => lone line) (.object ()) = [()] := rfl
  rw [resolveErrorOrigin_printed path (fun _ => lone line), hcauses, lone]
  cases hframe : ownFrame (line.print path) <;> simp [hframe, originOf]

theorem SameFrame.of_lone {line : StackLine FilePath}
    (h : SameOrigins dir dir' (fun _ => lone line) (.object ())) : SameFrame dir dir' line where
  same := by
    obtain ⟨found, hfound, hfound', -⟩ := h
    rw [origin_lone] at hfound hfound'
    exact congrArg ErrorOrigin.origin (Except.ok.inj (hfound'.trans hfound.symm))
  byFile frame hframe := by
    obtain ⟨found, hfound, -, hbyFile⟩ := h
    rw [origin_lone] at hfound
    obtain rfl := Except.ok.inj hfound
    obtain ⟨_, -, site, file, hmem, hdirectory, hsummary⟩ := hbyFile frame (.inl hframe)
    exact ⟨site, file, (List.mem_singleton.mp hmem).symm, hdirectory, hsummary⟩

end

/-- **The origin and the install directory**: of all errors with stacks of certain lines the origins
are the same in both directories, each from `src/`, `dist/` or `test/` of the project on, if and
only if each frame is cut right behind both or ours in neither, and no other line is ours. -/
theorem sameOrigins_iff {dir dir' : InstallDirectory} (hne : dir ≠ dir')
    (lines : Set (StackLine FilePath)) :
    (∀ (α : Type) [DecidableEq α] (heap : α → V8Error α FilePath) (error : Thrown α),
        (∀ a ∈ causes heap error, ∀ line ∈ (heap a).stack, line ∈ lines) →
          SameOrigins dir dir' heap error) ↔
      ∀ line ∈ lines, Portable dir dir' line := by
  constructor
  · intro h line hline
    refine (sameFrame_iff hne line).mp (.of_lone (h Unit _ _ ?_))
    rintro _ - line' hmem
    exact List.mem_singleton.mp hmem ▸ hline
  · intro h α _ heap error hlines
    exact SameFrame.sameOrigins fun a ha line hline =>
      (sameFrame_iff hne line).mpr (h line (hlines a ha line hline))

/-- `at src/main.ts:12:5`, in whichever directory. -/
def mainFrame : StackLine FilePath :=
  .frame ⟨none, "12".toList, "5".toList, nofun, ⟨by decide, List.all_eq_true.mp (by decide)⟩,
    ⟨by decide, List.all_eq_true.mp (by decide)⟩⟩
    ⟨"src/main.ts".toList, List.all_eq_true.mp (by decide)⟩

def repo : InstallDirectory :=
  ⟨"/repo".toList, by rintro c ⟨rfl⟩; rfl, List.all_eq_true.mp (by decide)⟩

def optOrders : InstallDirectory :=
  ⟨"/opt/orders".toList, by rintro c ⟨rfl⟩; rfl, List.all_eq_true.mp (by decide)⟩

def usrSrcApp : InstallDirectory :=
  ⟨"/usr/src/app".toList, by rintro c ⟨rfl⟩; rfl, List.all_eq_true.mp (by decide)⟩

theorem mainFrame_portable : ∀ line ∈ ({mainFrame} : Set _), Portable optOrders repo line := by
  rintro line rfl
  refine .inr ?_
  rw [forall_mem_pair]
  exact ⟨⟨by decide +kernel, .inl rfl, by decide +kernel⟩,
    ⟨by decide +kernel, .inl rfl, by decide +kernel⟩⟩

/-- Two directories with which it is the same. -/
theorem sameOrigins_mainFrame :
    SameOrigins optOrders repo (fun _ => lone mainFrame) (.object ()) := by
  have hne : optOrders ≠ repo := fun h =>
    absurd (congrArg InstallDirectory.chars h) (by decide +kernel)
  refine (sameOrigins_iff hne {mainFrame}).mpr mainFrame_portable Unit (fun _ => lone mainFrame)
    (.object ()) fun _ _ line hline => ?_
  exact List.mem_singleton.mp hline

/-- In `/usr/src/app` the cut is in the directory. -/
theorem sameOrigins_slips :
    resolveErrorOrigin (fun _ => (lone mainFrame).print repo.at) (.object ()) =
      .ok ⟨some "src/main.ts:12".toList, none⟩ ∧
    resolveErrorOrigin (fun _ => (lone mainFrame).print usrSrcApp.at) (.object ()) =
      .ok ⟨some "src/app/src/main.ts:12".toList, none⟩ ∧
    ¬ SameOrigins usrSrcApp repo (fun _ => lone mainFrame) (.object ()) := by
  refine ⟨by decide +kernel, by decide +kernel, fun h => ?_⟩
  obtain ⟨found, hfound, hfound', -⟩ := h
  have hsame := hfound.trans hfound'.symm
  revert hsame
  decide +kernel

end NestDdd.Common

import NestDdd.Common.StackLines

/-!
# Common — the origin of an error on Windows

The same errors with `\` for `/` in the paths of their frames.  The markers of our own frames are
written with `/`, so no frame of a file is found there.

* `ownFrame_backslashed`: a path without `/` is never ours.
* `errorOrigin_onWindows_iff`: when the origin is the same up to the separators.
-/

namespace NestDdd.Common

/-! ### The same frame on both platforms -/

def backslashed (c : Char) : Char := if c = '/' then '\\' else c

/-- The path with the separators of Windows. -/
def FilePath.onWindows (path : FilePath) : FilePath where
  chars := path.chars.map backslashed
  oneLine := by
    refine List.forall_mem_map.mpr fun c hc => ?_
    unfold backslashed
    split
    · rfl
    · exact path.oneLine c hc

/-- What is to be reported of a line on Windows: what is on POSIX, with the separators replaced. -/
def StackLine.expected : StackLine FilePath → Option (List Char)
  | .message text _ => ownFrame text
  | .frame site file =>
      (parseFrame (site.print file.chars)).bind fun parsed =>
        if isOwnFrame parsed.location then
          (relativeToProject parsed.location).map fun relative =>
            frameText parsed.fn (relative.map backslashed)
        else none

/-- A frame of ours on POSIX. -/
def StackLine.own (line : StackLine FilePath) : Bool := isOwn (line.print id)

theorem slash_notMem_backslashed (cs : List Char) : '/' ∉ cs.map backslashed := by
  rw [List.mem_map]
  rintro ⟨c, -, hc⟩
  unfold backslashed at hc
  split at hc
  next => cases hc
  next hne => exact hne hc

/-- **A path without `/`** is never ours. -/
theorem ownFrame_backslashed (site : CallSite) (file : FilePath) :
    ownFrame (site.print file.onWindows.chars) = none := by
  have hlocation : '/' ∉ site.location file.onWindows.chars := by
    rw [site.location_eq, List.mem_append]
    rintro (h | h)
    · exact slash_notMem_backslashed _ h
    · exact site.slash_notMem_place h
  refine ownFrame_eq_none ?_
  by_contra hown
  obtain ⟨-, hown, -⟩ := CallSite.ownFrame_print (Bool.not_eq_false _ ▸ hown)
  have hslash := slash_mem_of_isOwnFrame hown
  unfold CallSite.parsed at hslash
  split at hslash
  next => exact hlocation (mem_of_mem_trimChars hslash)
  split at hslash
  next => exact hlocation (mem_of_mem_trimChars hslash)
  next before after hlast =>
    obtain ⟨w, -, heq, -⟩ := lastOpening_eq hlast
    rw [heq] at hlocation
    exact hlocation (by simp [mem_of_mem_trimChars hslash])

/-! ### What is found -/

/-- What is reported of a message begins with a directory. -/
theorem exists_directory {text frame : List Char} (h : ownFrame text = some frame) :
    ∃ directory, IsDirectory directory ∧ directory <+: frame := by
  obtain ⟨parsed, relative, -, -, hrelative, hframe⟩ := ownFrame_eq (isOwn_of_ownFrame h)
  obtain rfl := Option.some.inj (h.symm.trans hframe)
  obtain ⟨directory, hdirectory, hbegins⟩ := relativeToProject_eq hrelative
  exact ⟨directory, hdirectory, prefix_frameText (directory_ne hdirectory).2 hbegins⟩

/-- What is expected of a frame of ours begins with one, and its other separator. -/
theorem expected_frame {site : CallSite} {file : FilePath}
    (h : (StackLine.frame site file).own = true) : ∃ directory frame,
      (StackLine.frame site file).expected = some frame ∧ IsDirectory directory ∧
        directory.map backslashed <+: frame := by
  obtain ⟨parsed, relative, hparsed, hown, hrelative, -⟩ := ownFrame_eq h
  have hparsed : parseFrame (site.print file.chars) = some parsed := hparsed
  obtain ⟨directory, hdirectory, hbegins⟩ := relativeToProject_eq hrelative
  refine ⟨directory, frameText parsed.fn (relative.map backslashed), ?_, hdirectory,
    prefix_frameText ?_ (hbegins.map backslashed)⟩
  · rw [StackLine.expected, hparsed, Option.bind_some, if_pos hown, hrelative]
    rfl
  · rw [List.mem_map]
    rintro ⟨c, hc, hcolon⟩
    unfold backslashed at hcolon
    split at hcolon
    next => cases hcolon
    next => exact (directory_ne hdirectory).2 (hcolon ▸ hc)

theorem expected_eq_none {line : StackLine FilePath} (h : line.own = false) :
    line.expected = none := by
  cases line with
  | message text oneLine => exact ownFrame_eq_none h
  | frame site file =>
      have hown : isOwn (site.print file.chars) = false := h
      unfold isOwn at hown
      rw [StackLine.expected]
      cases hparsed : parseFrame (site.print file.chars) with
      | none => rfl
      | some parsed =>
          rw [hparsed, Option.any_some] at hown
          rw [Option.bind_some, hown]
          rfl

/-- No text begins with both. -/
theorem directories_ne {directory directory' frame : List Char} (h : IsDirectory directory)
    (h' : IsDirectory directory') (hbegins : directory <+: frame) :
    ¬ directory'.map backslashed <+: frame := by
  intro hbegins'
  have hor := List.prefix_or_prefix_of_prefix hbegins hbegins'
  simp only [IsDirectory, OWN_PATH_MARKERS, List.mem_cons, List.not_mem_nil, or_false,
    List.cons.injEq, true_and] at h h'
  rcases h with rfl | rfl | rfl <;> rcases h' with rfl | rfl | rfl <;> revert hor <;> decide

section

variable {α : Type} [DecidableEq α]

/-- The lines of the stacks of an error and its causes, from the outermost. -/
def chainLines {π : Type} (heap : α → V8Error α π) (error : Thrown α) : List (StackLine π) :=
  (causes heap error).flatMap fun a => (heap a).stack

theorem errorOrigin_printed {π : Type} (path : π → FilePath) (heap : α → V8Error α π)
    (error : Thrown α) : errorOrigin (fun a => (heap a).print path) error =
      .ok ((chainLines heap error).findSome? fun line => ownFrame (line.print path)) := by
  have horigin (frames : List (List Char)) : (originOf frames).origin = frames.head? := by
    cases frames <;> rfl
  rw [errorOrigin, resolveErrorOrigin_printed, Except.map, horigin, List.head?_filterMap,
    chainLines]
  refine congrArg Except.ok ?_
  induction causes heap error with
  | nil => rfl
  | cons a as ih =>
      rw [List.findSome?_cons, List.flatMap_cons, List.findSome?_append, ih]
      cases (heap a).stack.findSome? fun line => ownFrame (line.print path) <;> rfl

/-- **The origin on Windows** is that on POSIX, up to the separators, if and only if the first frame
of ours in the chain is none of a file. -/
theorem errorOrigin_onWindows_iff (heap : α → V8Error α FilePath) (error : Thrown α) :
    errorOrigin (fun a => (heap a).print FilePath.onWindows) error =
        .ok ((chainLines heap error).findSome? StackLine.expected) ↔
      ∀ site file, (chainLines heap error).find? StackLine.own ≠ some (.frame site file) := by
  rw [errorOrigin_printed, Except.ok.injEq]
  induction chainLines heap error with
  | nil => simp
  | cons line lines ih =>
      rw [List.findSome?_cons, List.findSome?_cons, List.find?_cons]
      cases hown : line.own with
      | false =>
          have hwindows : ownFrame (line.print FilePath.onWindows) = none := by
            cases line with
            | message text oneLine => exact ownFrame_eq_none hown
            | frame site file => exact ownFrame_backslashed site file
          rw [expected_eq_none hown, hwindows]
          exact ih
      | true =>
          cases line with
          | message text oneLine =>
              obtain ⟨_, _, -, -, -, hframe⟩ := ownFrame_eq hown
              have hframe : ownFrame text = _ := hframe
              simp [StackLine.print, StackLine.expected, hframe]
          | frame site file =>
              obtain ⟨directory, frame, hexpected, hdirectory, hbegins⟩ := expected_frame hown
              have hwindows : ownFrame ((StackLine.frame site file).print FilePath.onWindows) =
                  none := ownFrame_backslashed site file
              rw [hexpected, hwindows]
              refine ⟨fun heq => ?_, fun h => absurd rfl (h site file)⟩
              -- what is found further on is a line of a message
              obtain ⟨other, -, hother⟩ := List.exists_of_findSome?_eq_some heq
              cases other with
              | message text oneLine =>
                  obtain ⟨directory', hdirectory', hbegins'⟩ := exists_directory hother
                  exact absurd hbegins (directories_ne hdirectory' hdirectory hbegins')
              | frame site' file' =>
                  have hnone : ownFrame ((StackLine.frame site' file').print FilePath.onWindows) =
                      none := ownFrame_backslashed site' file'
                  rw [hnone] at hother
                  cases hother

end

theorem bootstrap_name : ∀ name ∈ some "bootstrap".toList, name ≠ [] ∧ trimChars name = name ∧
    ∀ c ∈ name, isDot c = true := by
  rintro name ⟨rfl⟩
  exact ⟨by decide, by decide, List.all_eq_true.mp (by decide)⟩

theorem bootstrap_line : IsNumber "12".toList := ⟨by decide, List.all_eq_true.mp (by decide)⟩

theorem bootstrap_column : IsNumber "5".toList := ⟨by decide, List.all_eq_true.mp (by decide)⟩

theorem boom_oneLine : '\n' ∉ "Error: boom".toList := by decide

/-- `at bootstrap (/app/src/main.ts:12:5)`, thrown at boot. -/
def bootError : V8Error Unit FilePath where
  stack := [.message "Error: boom".toList boom_oneLine,
    .frame ⟨some "bootstrap".toList, "12".toList, "5".toList, bootstrap_name, bootstrap_line,
      bootstrap_column⟩
      ⟨"/app/src/main.ts".toList, List.all_eq_true.mp (by decide)⟩]
  cause := none

/-- The origin is found on POSIX, and not on Windows. -/
theorem errorOrigin_onWindows_slips :
    errorOrigin (fun _ => bootError.print id) (.object ()) =
      .ok (some "src/main.ts:12 (bootstrap)".toList) ∧
    errorOrigin (fun _ => bootError.print FilePath.onWindows) (.object ()) = .ok none ∧
    errorOrigin (fun _ => bootError.print FilePath.onWindows) (.object ()) ≠
      .ok ((chainLines (fun _ => bootError) (.object ())).findSome? StackLine.expected) := by
  decide +kernel

end NestDdd.Common

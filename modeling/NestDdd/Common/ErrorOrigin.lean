import NestDdd.Shared.JsString
import NestDdd.Shared.Pattern

/-!
# Common — the origin of an error

`src/common/utils/error-origin.util.ts`: the first frame of our own code in the stack of an error,
and of the errors that caused it.  What was thrown is a primitive or an object of a heap, so that
causes may form a cycle; the loops run on what is left of `MAX_CAUSE_DEPTH`.

* `frameFromStack_eq`: a stack is scanned from the top.
* `isChain_chain`: the causes that are followed.
* `resolve_cases`: what is resolved, by the frames of the chain, or the error that is thrown.
* `resolves_iff`: it is thrown for an `Error` whose stack is no text, unless two frames are found
  before.
-/

namespace NestDdd.Common

/-! ### Frames -/

def OWN_PATH_MARKERS : List (List Char) :=
  [['/', 's', 'r', 'c', '/'], ['/', 'd', 'i', 's', 't', '/'], ['/', 't', 'e', 's', 't', '/']]

def MAX_CAUSE_DEPTH : ℕ := 10

structure ParsedFrame where
  fn : Option (List Char)
  location : List Char

/-- What `.` matches: all but the ends of lines. -/
def isDot (c : Char) : Bool :=
  !(c == '\n' || c == '\r' || c == Char.ofNat 0x2028 || c == Char.ofNat 0x2029)

/-- `/^(.*)\s\((.*)\)$/`. -/
def withFunction : Pattern Char :=
  .seq (.group (.many isDot)) (.seq (.one isWhiteSpace) (.seq (.word ['('])
    (.seq (.group (.many isDot)) (.word [')']))))

/-- `/^(.*):(\d+):(\d+)$/`. -/
def withColumn : Pattern Char :=
  .seq (.group (.many isDot)) (.seq (.word [':'])
    (.seq (.group (.seq (.one Char.isDigit) (.many Char.isDigit))) (.seq (.word [':'])
      (.group (.seq (.one Char.isDigit) (.many Char.isDigit))))))

def parseFrame (rawLine : List Char) : Option ParsedFrame :=
  let line := trimChars rawLine
  if !(['a', 't', ' '].isPrefixOf line) then none
  else
    let rest := trimChars (line.drop 3)
    match withFunction.exec rest with
    | some [fn, location] =>
        some ⟨if trimChars fn = [] then none else some (trimChars fn), trimChars location⟩
    | _ => some ⟨none, rest⟩

def isOwnFrame (location : List Char) : Bool :=
  if ['n', 'o', 'd', 'e', ':'].isPrefixOf location then false
  else if includes "node_modules".toList location then false
  else OWN_PATH_MARKERS.any fun marker => includes marker location

/-- The marker that comes first in `markers` decides. -/
def relativeToProject (location : List Char) : Option (List Char) :=
  OWN_PATH_MARKERS.findSome? fun marker =>
    (indexOf marker location).map fun index => location.drop (index + 1)

def stripColumn (location : List Char) : List Char :=
  match withColumn.exec location with
  | some [path, line, _] => path ++ ':' :: line
  | _ => location

/-- The frame as it is reported. -/
def frameText (fn : Option (List Char)) (relative : List Char) : List Char :=
  match fn with
  | some fn => stripColumn relative ++ ' ' :: '(' :: fn ++ [')']
  | none => stripColumn relative

/-- The loop of `frameFromStack`. -/
def scan : List (List Char) → Option (List Char)
  | [] => none
  | rawLine :: lines =>
      match parseFrame rawLine with
      | none => scan lines
      | some parsed =>
          if !isOwnFrame parsed.location then scan lines
          else
            match relativeToProject parsed.location with
            | none | some [] => scan lines
            | some relative => some (frameText parsed.fn relative)

/-- The property `stack` of an object, if it has one.  `other` is what is no string, is truthy and
cannot be split. -/
inductive StackProperty where
  | text (stack : List Char)
  | falsy
  | other
  deriving DecidableEq

structure TypeError where
  message : String
  deriving DecidableEq

def notAFunction : TypeError := ⟨"stack.split is not a function"⟩

def frameFromStack : Option StackProperty → Except TypeError (Option (List Char))
  | none | some .falsy | some (.text []) => .ok none
  | some (.text stack) => .ok (scan (stack.splitOn '\n'))
  | some .other => .error notAFunction

/-! ### Errors and their causes -/

/-- An `unknown`: an object by its address, or something else. -/
inductive Thrown (α : Type) where
  | primitive
  | object (a : α)

/-- An `Error` or any other object; both may have a stack and a cause. -/
inductive JsObject (α : Type) where
  | error (stack : Option StackProperty) (cause : Option (Thrown α))
  | record (stack : Option StackProperty) (cause : Option (Thrown α))

/-- Only of an object that is no `Error` it is asked whether its stack is a string. -/
def stackOf {α : Type} : JsObject α → Option StackProperty
  | .error stack _ => stack
  | .record (some (.text stack)) _ => some (.text stack)
  | .record _ _ => none

def causeOf {α : Type} : JsObject α → Thrown α
  | .error _ cause | .record _ cause => cause.getD .primitive

structure ErrorOrigin where
  origin : Option (List Char)
  causeOrigin : Option (List Char)
  deriving DecidableEq

section

variable {α : Type} [DecidableEq α] (heap : α → JsObject α)

/-- `if (frame)`. -/
def truthyFrame : Option (List Char) → Option (List Char)
  | some [] => none
  | frame => frame

/-- The first loop, with what it leaves to the second: `MAX_CAUSE_DEPTH - depth`, `seen` and
`current`. -/
def findOrigin : ℕ → List α → Thrown α →
    Except TypeError (Option (List Char × ℕ × List α × Thrown α))
  | left + 1, seen, .object a =>
      if a ∈ seen then .ok none
      else do
        let frame ← frameFromStack (stackOf (heap a))
        match truthyFrame frame with
        | some frame => .ok (some (frame, left, a :: seen, causeOf (heap a)))
        | none => findOrigin left (a :: seen) (causeOf (heap a))
  | _, _, _ => .ok none

/-- The second loop. -/
def findCauseOrigin (origin : List Char) : ℕ → List α → Thrown α →
    Except TypeError (Option (List Char))
  | left + 1, seen, .object a =>
      if a ∈ seen then .ok none
      else do
        let frame ← frameFromStack (stackOf (heap a))
        match truthyFrame frame with
        | some frame =>
            if frame ≠ origin then .ok (some frame)
            else findCauseOrigin origin left (a :: seen) (causeOf (heap a))
        | none => findCauseOrigin origin left (a :: seen) (causeOf (heap a))
  | _, _, _ => .ok none

def resolveErrorOrigin (error : Thrown α) : Except TypeError ErrorOrigin := do
  match ← findOrigin heap MAX_CAUSE_DEPTH [] error with
  | none => .ok ⟨none, none⟩
  | some (origin, left, seen, current) =>
      let causeOrigin ← findCauseOrigin heap origin left seen current
      .ok ⟨some origin, causeOrigin⟩

def errorOrigin (error : Thrown α) : Except TypeError (Option (List Char)) :=
  (resolveErrorOrigin heap error).map ErrorOrigin.origin

end

/-! ### A stack from the top -/

/-- What is reported of one line, if it is a frame of ours. -/
def ownFrame (rawLine : List Char) : Option (List Char) :=
  (parseFrame rawLine).bind fun parsed =>
    if isOwnFrame parsed.location then
      ((relativeToProject parsed.location).filter (· ≠ [])).map (frameText parsed.fn)
    else none

/-- The lines of a stack; what is no string has none with a frame. -/
def linesOf : Option StackProperty → List (List Char)
  | some (.text stack) => stack.splitOn '\n'
  | _ => []

theorem scan_eq (lines : List (List Char)) : scan lines = lines.findSome? ownFrame := by
  induction lines with
  | nil => rfl
  | cons rawLine lines ih =>
      rw [scan, List.findSome?_cons, ownFrame]
      cases parseFrame rawLine with
      | none => exact ih
      | some parsed =>
          simp only [Option.bind_some]
          cases isOwnFrame parsed.location with
          | false => exact ih
          | true =>
              cases relativeToProject parsed.location with
              | none => exact ih
              | some relative =>
                  cases relative with
                  | nil => exact ih
                  | cons c cs => rfl

/-- **A stack is scanned from the top**, to the first frame of ours. -/
theorem frameFromStack_eq {stack : Option StackProperty} (h : stack ≠ some .other) :
    frameFromStack stack = .ok ((linesOf stack).findSome? ownFrame) := by
  have hempty : (linesOf (some (.text []))).findSome? ownFrame = none := by decide
  unfold frameFromStack
  split
  next => rfl
  next => rfl
  next => rw [hempty]
  next stack _ => exact congrArg Except.ok (scan_eq _)
  next => exact absurd rfl h

theorem stripColumn_ne_nil {relative : List Char} (h : relative ≠ []) :
    stripColumn relative ≠ [] := by
  unfold stripColumn
  split
  next => simp
  next => exact h

theorem ownFrame_ne_nil {rawLine frame : List Char} (h : ownFrame rawLine = some frame) :
    frame ≠ [] := by
  obtain ⟨parsed, -, h⟩ := Option.bind_eq_some_iff.mp h
  obtain ⟨-, h⟩ := Option.ite_none_right_eq_some.mp h
  obtain ⟨relative, hrelative, rfl⟩ := Option.map_eq_some_iff.mp h
  have hne : relative ≠ [] := by simpa using (Option.filter_eq_some_iff.mp hrelative).2
  unfold frameText
  split
  next => simp
  next => exact stripColumn_ne_nil hne

/-- A frame is never the empty string. -/
theorem truthyFrame_findSome (lines : List (List Char)) :
    truthyFrame (lines.findSome? ownFrame) = lines.findSome? ownFrame := by
  cases hframe : lines.findSome? ownFrame with
  | none => rfl
  | some frame =>
      obtain ⟨line, -, hline⟩ := List.exists_of_findSome?_eq_some hframe
      obtain ⟨c, cs, rfl⟩ := List.exists_cons_of_ne_nil (ownFrame_ne_nil hline)
      rfl

/-! ### The chain of causes -/

section

variable {α : Type} (heap : α → JsObject α)

/-- `cause`, `n` times. -/
def walk (error : Thrown α) : ℕ → Thrown α
  | 0 => error
  | n + 1 =>
      match error with
      | .primitive => .primitive
      | .object a => walk (causeOf (heap a)) n

/-- The objects from an error along `cause`: up to something else, an object that was there before,
or the tenth. -/
structure IsChain (error : Thrown α) (chain : List α) : Prop where
  nodup : chain.Nodup
  length_le : chain.length ≤ MAX_CAUSE_DEPTH
  links : ∀ i (h : i < chain.length), walk heap error i = .object chain[i]
  ends : chain.length = MAX_CAUSE_DEPTH ∨ walk heap error chain.length = .primitive ∨
    ∃ a ∈ chain, walk heap error chain.length = .object a

variable [DecidableEq α]

/-- The chain from where `seen` have been seen, at most `left` objects of it. -/
def chainFrom : ℕ → List α → Thrown α → List α
  | left + 1, seen, .object a =>
      if a ∈ seen then [] else a :: chainFrom left (a :: seen) (causeOf (heap a))
  | _, _, _ => []

def chain (error : Thrown α) : List α := chainFrom heap MAX_CAUSE_DEPTH [] error

theorem chainFrom_spec (left : ℕ) : ∀ (seen : List α) (error : Thrown α),
    (chainFrom heap left seen error).Nodup ∧ (∀ a ∈ chainFrom heap left seen error, a ∉ seen) ∧
    (chainFrom heap left seen error).length ≤ left ∧
    (∀ i (h : i < (chainFrom heap left seen error).length),
      walk heap error i = .object (chainFrom heap left seen error)[i]) ∧
    ((chainFrom heap left seen error).length = left ∨
      walk heap error (chainFrom heap left seen error).length = .primitive ∨
      ∃ a, (a ∈ seen ∨ a ∈ chainFrom heap left seen error) ∧
        walk heap error (chainFrom heap left seen error).length = .object a) := by
  induction left with
  | zero =>
      intro seen error
      have hnil : chainFrom heap 0 seen error = [] := by cases error <;> rfl
      rw [hnil]
      exact ⟨.nil, nofun, le_rfl, nofun, .inl rfl⟩
  | succ left ih =>
      intro seen error
      cases error with
      | primitive => exact ⟨.nil, nofun, Nat.zero_le _, nofun, .inr (.inl rfl)⟩
      | object a =>
          rw [chainFrom]
          split
          next hseen => exact ⟨.nil, nofun, Nat.zero_le _, nofun, .inr (.inr ⟨a, .inl hseen, rfl⟩)⟩
          next hseen =>
            obtain ⟨hnodup, hnew, hlen, hlinks, hends⟩ := ih (a :: seen) (causeOf (heap a))
            refine ⟨List.nodup_cons.mpr ⟨fun hmem => hnew a hmem List.mem_cons_self, hnodup⟩, ?_,
              Nat.succ_le_succ hlen, ?_, ?_⟩
            · rintro b (_ | ⟨_, hb⟩)
              · exact hseen
              · exact fun hmem => hnew b hb (List.mem_cons_of_mem a hmem)
            · rintro (_ | i) hi
              · rfl
              · exact hlinks i (Nat.lt_of_succ_lt_succ hi)
            · refine hends.imp (congrArg Nat.succ) (Or.imp id ?_)
              rintro ⟨b, hb, hwalk⟩
              refine ⟨b, ?_, hwalk⟩
              rcases hb with hb | hb
              · rcases List.mem_cons.mp hb with rfl | hb
                · exact .inr List.mem_cons_self
                · exact .inl hb
              · exact .inr (List.mem_cons_of_mem a hb)

/-- **The causes that are followed.** -/
theorem isChain_chain (error : Thrown α) : IsChain heap error (chain heap error) := by
  obtain ⟨hnodup, -, hlen, hlinks, hends⟩ := chainFrom_spec heap MAX_CAUSE_DEPTH [] error
  refine ⟨hnodup, hlen, hlinks, hends.imp id (Or.imp id ?_)⟩
  rintro ⟨a, ha | ha, hwalk⟩
  · cases ha
  · exact ⟨a, ha, hwalk⟩

/-! ### What is resolved -/

/-- The first frame of ours in the stack of an object. -/
def frameOf (a : α) : Option (List Char) := (linesOf (stackOf (heap a))).findSome? ownFrame

/-- The first frame of ours of each object that has one. -/
def framesOf (as : List α) : List (List Char) := as.filterMap (frameOf heap)

/-- The first frame, and the first behind it that differs from it. -/
def originOf : List (List Char) → ErrorOrigin
  | [] => ⟨none, none⟩
  | frame :: frames => ⟨some frame, frames.find? fun other => other ≠ frame⟩

/-- An `Error` whose stack is neither falsy nor a string. -/
def Unreadable (a : α) : Prop := stackOf (heap a) = some .other

/-- The frames before each object that cannot be read have `P`. -/
def Guarded (P : List (List Char) → Prop) (as : List α) : Prop :=
  ∀ before a after, as = before ++ a :: after → Unreadable heap a → P (framesOf heap before)

/-- One of the frames is not `origin`. -/
def Differs (origin : List Char) (frames : List (List Char)) : Prop :=
  ∃ other ∈ frames, other ≠ origin

/-- Two of the frames differ, so that nothing behind them is asked for its stack. -/
def TwoDiffer (frames : List (List Char)) : Prop := ∃ frame ∈ frames, Differs frame frames

/-- The condition for what is resolved: two frames that differ come before each object that cannot
be read. -/
abbrev Readable (as : List α) : Prop := Guarded heap TwoDiffer as

section Guards

variable {heap} {P : List (List Char) → Prop} {a : α} {as : List α} {origin frame : List Char}
  {frames : List (List Char)}

omit [DecidableEq α]

theorem framesOf_cons (a : α) (as : List α) :
    framesOf heap (a :: as) = (frameOf heap a).toList ++ framesOf heap as := by
  rw [framesOf, List.filterMap_cons]
  cases frameOf heap a <;> rfl

theorem guarded_nil : Guarded heap P [] := by
  intro before a after hsplit
  cases before <;> cases hsplit

theorem guarded_cons : Guarded heap P (a :: as) ↔ (Unreadable heap a → P []) ∧
    Guarded heap (fun frames => P ((frameOf heap a).toList ++ frames)) as := by
  constructor
  · intro h
    refine ⟨h [] a as rfl, fun before b after hsplit hb => ?_⟩
    have hcons := h (a :: before) b after (congrArg (a :: ·) hsplit) hb
    rwa [framesOf_cons] at hcons
  · rintro ⟨hhead, htail⟩ before b after hsplit hb
    cases before with
    | nil => exact hhead ((List.cons.inj hsplit).1 ▸ hb)
    | cons c before =>
        obtain ⟨rfl, rfl⟩ := List.cons.inj hsplit
        rw [framesOf_cons]
        exact htail before b after rfl hb

theorem not_differs_nil : ¬ Differs origin [] := by
  rintro ⟨_, hmem, -⟩
  cases hmem

theorem differs_cons :
    Differs origin (frame :: frames) ↔ frame ≠ origin ∨ Differs origin frames := by
  simp [Differs]

theorem twoDiffer_cons : TwoDiffer (frame :: frames) ↔ Differs frame frames := by
  constructor
  · rintro ⟨first, hfirst, other, hother, hne⟩
    -- of two frames that differ one is not `frame`
    by_cases heq : other = frame
    · rcases List.mem_cons.mp hfirst with rfl | hfirst
      · exact absurd heq hne
      · exact ⟨first, hfirst, fun h => hne (heq.trans h.symm)⟩
    · exact ⟨other, (List.mem_cons.mp hother).resolve_left heq, heq⟩
  · rintro ⟨other, hother, hne⟩
    exact ⟨frame, List.mem_cons_self, other, List.mem_cons_of_mem _ hother, hne⟩

/-- What an object that can be read is for the loops. -/
theorem frameFromStack_stackOf (h : ¬ Unreadable heap a) :
    frameFromStack (stackOf (heap a)) = pure (frameOf heap a) := frameFromStack_eq h

theorem truthyFrame_frameOf (a : α) : truthyFrame (frameOf heap a) = frameOf heap a :=
  truthyFrame_findSome _

end Guards

/-- The second loop finds what it should, or it throws. -/
theorem findCauseOrigin_cases (origin : List Char) (left : ℕ) :
    ∀ (seen : List α) (error : Thrown α),
      (Guarded heap (Differs origin) (chainFrom heap left seen error) ∧
        findCauseOrigin heap origin left seen error =
          .ok ((framesOf heap (chainFrom heap left seen error)).find? fun other =>
            other ≠ origin)) ∨
      (¬ Guarded heap (Differs origin) (chainFrom heap left seen error) ∧
        findCauseOrigin heap origin left seen error = .error notAFunction) := by
  induction left with
  | zero =>
      intro seen error
      cases error <;> exact .inl ⟨guarded_nil, rfl⟩
  | succ left ih =>
      intro seen error
      cases error with
      | primitive => exact .inl ⟨guarded_nil, rfl⟩
      | object a =>
          rw [findCauseOrigin, chainFrom]
          split
          next => exact .inl ⟨guarded_nil, rfl⟩
          next =>
            by_cases hread : Unreadable heap a
            · refine .inr ⟨fun h => not_differs_nil ((guarded_cons.mp h).1 hread), ?_⟩
              rw [show stackOf (heap a) = some .other from hread]
              rfl
            · rw [frameFromStack_stackOf hread, guarded_cons, framesOf_cons]
              simp only [hread, false_implies, true_and, pure_bind, truthyFrame_frameOf]
              cases hframe : frameOf heap a with
              | none => exact ih _ _
              | some frame =>
                  by_cases hne : frame = origin
                  · subst hne
                    simpa [differs_cons] using ih _ _
                  · refine .inl ⟨fun _ _ _ _ _ => differs_cons.mpr (.inl hne), ?_⟩
                    simp [hne]

/-- Both loops. -/
theorem resolve_cases (left : ℕ) : ∀ (seen : List α) (error : Thrown α),
    let resolved : Except TypeError ErrorOrigin := do
      match ← findOrigin heap left seen error with
      | none => .ok ⟨none, none⟩
      | some (origin, left, seen, current) =>
          let causeOrigin ← findCauseOrigin heap origin left seen current
          .ok ⟨some origin, causeOrigin⟩
    (Readable heap (chainFrom heap left seen error) ∧
      resolved = .ok (originOf (framesOf heap (chainFrom heap left seen error)))) ∨
    (¬ Readable heap (chainFrom heap left seen error) ∧ resolved = .error notAFunction) := by
  induction left with
  | zero =>
      intro seen error
      cases error <;> exact .inl ⟨guarded_nil, rfl⟩
  | succ left ih =>
      intro seen error
      cases error with
      | primitive => exact .inl ⟨guarded_nil, rfl⟩
      | object a =>
          rw [findOrigin, chainFrom]
          by_cases hseen : a ∈ seen
          · rw [if_pos hseen, if_pos hseen]
            exact .inl ⟨guarded_nil, rfl⟩
          · rw [if_neg hseen, if_neg hseen]
            by_cases hread : Unreadable heap a
            · refine .inr ⟨fun h => ?_, ?_⟩
              · obtain ⟨_, hmem, -⟩ := (guarded_cons.mp h).1 hread
                cases hmem
              · rw [show stackOf (heap a) = some .other from hread]
                rfl
            · rw [frameFromStack_stackOf hread, Readable, guarded_cons, framesOf_cons]
              simp only [hread, false_implies, true_and, pure_bind, truthyFrame_frameOf]
              generalize causeOf (heap a) = next
              cases hframe : frameOf heap a with
              | none => exact ih _ _
              | some frame =>
                  -- the second loop goes on from here, with one frame found
                  simp only [Option.toList_some, List.singleton_append, twoDiffer_cons, originOf]
                  rcases findCauseOrigin_cases heap frame left (a :: seen) next
                    with ⟨hguarded, hfound⟩ | ⟨hguarded, hthrown⟩
                  · refine .inl ⟨hguarded, ?_⟩
                    change (findCauseOrigin heap frame left (a :: seen) next >>= _) = _
                    rw [hfound]
                    rfl
                  · refine .inr ⟨hguarded, ?_⟩
                    change (findCauseOrigin heap frame left (a :: seen) next >>= _) = _
                    rw [hthrown]
                    rfl

/-- What is resolved is a frame of the chain. -/
theorem mem_of_originOf {frames : List (List Char)} {frame : List Char}
    (h : (originOf frames).origin = some frame ∨ (originOf frames).causeOrigin = some frame) :
    frame ∈ frames := by
  cases frames with
  | nil => exact h.elim nofun nofun
  | cons first frames =>
      rcases h with h | h
      · exact Option.some.inj h ▸ List.mem_cons_self
      · exact List.mem_cons_of_mem _ (List.mem_of_find?_eq_some h)

/-- A line of a stack that is a frame of ours. -/
structure IsOwnLine (line frame : List Char) : Prop where
  reported : ownFrame line = some frame
  location : ∃ parsed, parseFrame line = some parsed ∧
    ¬ ['n', 'o', 'd', 'e', ':'] <+: parsed.location ∧
    includes "node_modules".toList parsed.location = false

theorem isOwnLine {line frame : List Char} (h : ownFrame line = some frame) :
    IsOwnLine line frame := by
  obtain ⟨parsed, hparsed, hown⟩ := Option.bind_eq_some_iff.mp h
  obtain ⟨hown, -⟩ := Option.ite_none_right_eq_some.mp hown
  refine ⟨h, parsed, hparsed, ?_⟩
  unfold isOwnFrame at hown
  split at hown
  next => cases hown
  next hnode =>
    split at hown
    next => cases hown
    next hmodules =>
      exact ⟨fun hbegins => hnode (List.isPrefixOf_iff_prefix.mpr hbegins), by simpa using hmodules⟩

/-- What is to be resolved: the chain of causes ends, `origin` is the first frame of ours in it and
`causeOrigin` the first of a later object that differs; and they are lines of stacks that lie
neither in `node_modules` nor in `node:`. -/
structure Resolves (error : Thrown α) : Prop where
  isChain : IsChain heap error (chain heap error)
  returns : resolveErrorOrigin heap error = .ok (originOf (framesOf heap (chain heap error)))
  reported : ∀ resolved, resolveErrorOrigin heap error = .ok resolved → ∀ frame,
    resolved.origin = some frame ∨ resolved.causeOrigin = some frame →
      ∃ a ∈ chain heap error, ∃ line ∈ linesOf (stackOf (heap a)), IsOwnLine line frame

/-- Where nothing is thrown. -/
theorem Readable.resolves {error : Thrown α} (h : Readable heap (chain heap error)) :
    Resolves heap error := by
  obtain ⟨-, heq⟩ : _ ∧ resolveErrorOrigin heap error = _ :=
    (resolve_cases heap MAX_CAUSE_DEPTH [] error).resolve_right fun hnot => hnot.1 h
  refine ⟨isChain_chain heap error, heq, fun resolved hresolved frame hframe => ?_⟩
  obtain rfl := Except.ok.inj (heq.symm.trans hresolved)
  obtain ⟨a, ha, hframe⟩ := List.mem_filterMap.mp (mem_of_originOf hframe)
  obtain ⟨line, hline, hframe⟩ := List.exists_of_findSome?_eq_some hframe
  exact ⟨a, ha, line, hline, isOwnLine hframe⟩

theorem resolve_throws {error : Thrown α} (h : ¬ Readable heap (chain heap error)) :
    resolveErrorOrigin heap error = .error notAFunction :=
  ((resolve_cases heap MAX_CAUSE_DEPTH [] error).resolve_left fun hread => h hread.1).2

/-- **What is resolved**, for any heap and anything thrown: what should be, unless an `Error` whose
stack is no text comes before two frames that differ; then a `TypeError` is thrown. -/
theorem resolves_iff (error : Thrown α) :
    (Resolves heap error ↔ Readable heap (chain heap error)) ∧
    (¬ Readable heap (chain heap error) →
      resolveErrorOrigin heap error = .error notAFunction) := by
  refine ⟨⟨fun h => ?_, Readable.resolves heap⟩, resolve_throws heap⟩
  by_contra hnot
  cases (resolve_throws heap hnot).symm.trans h.returns

/-- An `Error` whose stack is the list of its call sites. -/
def callSites : JsObject Unit := .error (some .other) none

/-- Nothing is resolved of it. -/
theorem resolves_slips :
    resolveErrorOrigin (fun _ => callSites) (.object ()) =
      .error ⟨"stack.split is not a function"⟩ ∧
    ¬ Resolves (fun _ => callSites) (.object ()) := by
  refine ⟨rfl, fun h => ?_⟩
  cases h.returns

end

end NestDdd.Common

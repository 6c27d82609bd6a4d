import NestDdd.Shared.JsString
import NestDdd.Shared.Pattern

/-!
# Shared — the trace context

`src/shared/trace-context.util.ts`: the `traceparent` header of W3C Trace Context, read from a
caller and written for the next service.

* `parseTraceparent_eq_some_iff`: which headers are read, and to what.
* `parse_format`: a context that is written is read back.
-/

namespace NestDdd

/-! ### The header -/

/-- `[0-9a-f]`. -/
def isLowerHex (c : Char) : Bool := '0' ≤ c && c ≤ '9' || 'a' ≤ c && c ≤ 'f'

/-- `([0-9a-f]{n})`. -/
def hexField (n : Nat) : Pattern Char := .group (.times n (.one isLowerHex))

/-- `/^([0-9a-f]{2})-([0-9a-f]{32})-([0-9a-f]{16})-([0-9a-f]{2})$/`. -/
def TRACEPARENT : Pattern Char :=
  .seq (hexField 2) (.seq (.word ['-']) (.seq (hexField 32) (.seq (.word ['-'])
    (.seq (hexField 16) (.seq (.word ['-']) (hexField 2))))))

def INVALID_TRACE_ID : String := String.ofList (List.replicate 32 '0')

def INVALID_SPAN_ID : String := String.ofList (List.replicate 16 '0')

structure TraceContext where
  traceId : String
  spanId : String
  sampled : Bool
  deriving DecidableEq

def hexDigitValue (c : Char) : Nat :=
  if c ≤ '9' then c.toNat - '0'.toNat else c.toNat - 'a'.toNat + 10

/-- `parseInt(digits, 16)`. -/
def parseHex (digits : List Char) : Nat :=
  digits.foldl (fun value digit => value * 16 + hexDigitValue digit) 0

variable (table : LowerCase)

/-- `header?.trim().toLowerCase() ?? ''`. -/
def normalized : Option String → String
  | none => ""
  | some header => table.lower (trim header)

def parseTraceparent (header : Option String) : Option TraceContext :=
  match TRACEPARENT.exec (normalized table header).toList with
  | some [version, traceId, spanId, flags] =>
      if String.ofList version = "ff" ∨ String.ofList traceId = INVALID_TRACE_ID ∨
          String.ofList spanId = INVALID_SPAN_ID then none
      else some ⟨String.ofList traceId, String.ofList spanId, parseHex flags &&& 1 == 1⟩
  | _ => none

def formatTraceparent (c : TraceContext) : String :=
  "00-" ++ c.traceId ++ "-" ++ c.spanId ++ "-" ++ if c.sampled then "01" else "00"

/-! ### New ids -/

/-- `bytes.toString('hex')`. -/
def toHex (bytes : List UInt8) : List Char :=
  bytes.flatMap fun byte => [hexDigit (byte.toNat / 16), hexDigit (byte.toNat % 16)]

/-- `randomBytes(n)`, not all of them zero. -/
structure RandomBytes (n : Nat) where
  bytes : List UInt8
  length_eq : bytes.length = n
  nonzero : ∃ byte ∈ bytes, byte ≠ 0

def newTraceId (random : RandomBytes 16) : String := String.ofList (toHex random.bytes)

def newSpanId (random : RandomBytes 8) : String := String.ofList (toHex random.bytes)

def traceContextFrom (header : Option String) (trace : RandomBytes 16) (span : RandomBytes 8) :
    TraceContext :=
  match parseTraceparent table header with
  | some parent => ⟨parent.traceId, newSpanId span, parent.sampled⟩
  | none => ⟨newTraceId trace, newSpanId span, true⟩

/-! ### What is read -/

/-- `n` digits of lower-case hex. -/
def HexField (n : Nat) (s : String) : Prop :=
  s.toList.length = n ∧ ∀ c ∈ s.toList, isLowerHex c = true

/-- `s` is four fields of hex between hyphens. -/
structure Hyphenated (s version traceId spanId flags : String) : Prop where
  text : s = version ++ "-" ++ traceId ++ "-" ++ spanId ++ "-" ++ flags
  version_hex : HexField 2 version
  traceId_hex : HexField 32 traceId
  spanId_hex : HexField 16 spanId
  flags_hex : HexField 2 flags

/-- And the version is not forbidden, and the ids are not zero. -/
structure Fields (s version traceId spanId flags : String) : Prop
    extends Hyphenated s version traceId spanId flags where
  version_ne : version ≠ "ff"
  traceId_ne : traceId ≠ INVALID_TRACE_ID
  spanId_ne : spanId ≠ INVALID_SPAN_ID

theorem HexField.length_eq {n : Nat} {a b : String} (ha : HexField n a) (hb : HexField n b) :
    a.toList.length = b.toList.length :=
  ha.1.trans hb.1.symm

theorem matches_hexField {n : Nat} {t : List Char} {gs : List (List Char)} :
    (hexField n).Matches t gs ↔ ∃ s, HexField n s ∧ t = s.toList ∧ gs = [s.toList] := by
  simp only [hexField, Pattern.matches_group, Pattern.matches_times_one]
  constructor
  · rintro ⟨_, rfl, h, rfl⟩
    exact ⟨String.ofList t, by simpa [HexField] using h, by simp, by simp⟩
  · rintro ⟨s, h, rfl, rfl⟩
    exact ⟨[], rfl, h, rfl⟩

/-- The texts of `TRACEPARENT`. -/
theorem matches_TRACEPARENT {s : String} {gs : List (List Char)} :
    TRACEPARENT.Matches s.toList gs ↔ ∃ version traceId spanId flags,
      Hyphenated s version traceId spanId flags ∧
      gs = [version.toList, traceId.toList, spanId.toList, flags.toList] := by
  simp only [TRACEPARENT, Pattern.matches_seq, matches_hexField, Pattern.matches_word]
  constructor
  · rintro ⟨_, _, _, _, htext, rfl, ⟨v, hv, rfl, rfl⟩, _, _, _, _, rfl, rfl, ⟨rfl, rfl⟩,
      _, _, _, _, rfl, rfl, ⟨t, ht, rfl, rfl⟩, _, _, _, _, rfl, rfl, ⟨rfl, rfl⟩,
      _, _, _, _, rfl, rfl, ⟨sp, hs, rfl, rfl⟩, _, _, _, _, rfl, rfl, ⟨rfl, rfl⟩, f, hf, rfl, rfl⟩
    refine ⟨v, t, sp, f, ⟨?_, hv, ht, hs, hf⟩, rfl⟩
    rw [← String.toList_inj, htext]
    simp
  · rintro ⟨v, t, sp, f, ⟨rfl, hv, ht, hs, hf⟩, rfl⟩
    refine ⟨v.toList, '-' :: t.toList ++ '-' :: sp.toList ++ '-' :: f.toList, _,
      [t.toList, sp.toList, f.toList], by simp, rfl, ⟨v, hv, rfl, rfl⟩, ?_⟩
    refine ⟨['-'], t.toList ++ '-' :: sp.toList ++ '-' :: f.toList, [], _, by simp, rfl,
      ⟨rfl, rfl⟩, ?_⟩
    refine ⟨t.toList, '-' :: sp.toList ++ '-' :: f.toList, _, [sp.toList, f.toList], by simp, rfl,
      ⟨t, ht, rfl, rfl⟩, ?_⟩
    refine ⟨['-'], sp.toList ++ '-' :: f.toList, [], _, by simp, rfl, ⟨rfl, rfl⟩, ?_⟩
    refine ⟨sp.toList, '-' :: f.toList, _, [f.toList], rfl, rfl, ⟨sp, hs, rfl, rfl⟩, ?_⟩
    exact ⟨['-'], f.toList, [], _, rfl, rfl, ⟨rfl, rfl⟩, f, hf, rfl, rfl⟩

/-- Fields of given lengths are read in one way. -/
theorem Hyphenated.unique {s v t sp f v' t' sp' f' : String} (h : Hyphenated s v t sp f)
    (h' : Hyphenated s v' t' sp' f') : v = v' ∧ t = t' ∧ sp = sp' ∧ f = f' := by
  have heq := congrArg String.toList (h.text.symm.trans h'.text)
  simp only [String.toList_append, List.append_assoc] at heq
  obtain ⟨hv, heq⟩ := List.append_inj heq (h.version_hex.length_eq h'.version_hex)
  obtain ⟨ht, heq⟩ := List.append_inj (List.append_cancel_left heq)
    (h.traceId_hex.length_eq h'.traceId_hex)
  obtain ⟨hs, heq⟩ := List.append_inj (List.append_cancel_left heq)
    (h.spanId_hex.length_eq h'.spanId_hex)
  exact ⟨String.toList_inj.mp hv, String.toList_inj.mp ht, String.toList_inj.mp hs,
    String.toList_inj.mp (List.append_cancel_left heq)⟩

theorem exec_TRACEPARENT {s v t sp f : String} (h : Hyphenated s v t sp f) :
    TRACEPARENT.exec s.toList = some [v.toList, t.toList, sp.toList, f.toList] := by
  refine Pattern.exec_eq_of_unique (matches_TRACEPARENT.mpr ⟨v, t, sp, f, h, rfl⟩) fun gs hgs => ?_
  obtain ⟨v', t', sp', f', h', rfl⟩ := matches_TRACEPARENT.mp hgs
  obtain ⟨rfl, rfl, rfl, rfl⟩ := h.unique h'
  rfl

/-- **Which headers are read**, and to what. -/
theorem parseTraceparent_eq_some_iff {header : Option String} {c : TraceContext} :
    parseTraceparent table header = some c ↔ ∃ version flags,
      Fields (normalized table header) version c.traceId c.spanId flags ∧
      c.sampled = (parseHex flags.toList).testBit 0 := by
  have hbit (n : Nat) : (n &&& 1 == 1) = n.testBit 0 := by
    rw [Nat.and_one_is_mod, Nat.testBit_zero]
    rfl
  unfold parseTraceparent
  constructor
  · intro h
    split at h
    next v t sp f hexec =>
      obtain ⟨v, t, sp, f, hh, hgs⟩ := matches_TRACEPARENT.mp (Pattern.matches_of_exec hexec)
      simp only [List.cons.injEq, and_true] at hgs
      obtain ⟨rfl, rfl, rfl, rfl⟩ := hgs
      simp only [String.ofList_toList] at h
      split at h
      next => cases h
      next hvalid =>
        obtain rfl := Option.some.inj h
        obtain ⟨hversion, htrace, hspan⟩ : v ≠ "ff" ∧ t ≠ INVALID_TRACE_ID ∧
            sp ≠ INVALID_SPAN_ID := by simpa [not_or] using hvalid
        exact ⟨v, f, ⟨hh, hversion, htrace, hspan⟩, hbit _⟩
    next => cases h
  · rintro ⟨version, flags, hfields, hsampled⟩
    rw [exec_TRACEPARENT hfields.toHyphenated]
    simp only [String.ofList_toList, hfields.version_ne, hfields.traceId_ne, hfields.spanId_ne,
      or_self, if_false, hbit, ← hsampled]

/-! ### What is written -/

/-- A context with ids that a header can carry. -/
structure ValidContext extends TraceContext where
  traceId_hex : HexField 32 traceId
  spanId_hex : HexField 16 spanId
  traceId_ne : traceId ≠ INVALID_TRACE_ID
  spanId_ne : spanId ≠ INVALID_SPAN_ID

/-- What a header is written with: neither `trim` nor `toLowerCase` changes it. -/
theorem plain_of_headerChar {c : Char} (h : isLowerHex c = true ∨ c = '-') :
    isWhiteSpace c = false ∧ c.toNat < 128 ∧ c.toLower = c := by
  have hcode : 48 ≤ c.toNat ∧ c.toNat ≤ 57 ∨ 97 ≤ c.toNat ∧ c.toNat ≤ 102 ∨ c.toNat = 45 := by
    rcases h with h | rfl
    · simp only [isLowerHex, Bool.or_eq_true, Bool.and_eq_true, decide_eq_true_eq] at h
      exact h.imp id .inl
    · exact .inr (.inr rfl)
  refine ⟨?_, by omega, ?_⟩
  · simp only [isWhiteSpace, Bool.or_eq_false_iff, Bool.and_eq_false_iff, decide_eq_false_iff_not,
      beq_eq_false_iff_ne]
    omega
  · refine dif_neg ?_
    rintro ⟨hA, hZ⟩
    have hA : 65 ≤ c.toNat := hA
    have hZ : c.toNat ≤ 90 := hZ
    omega

theorem normalized_eq_self {s : String} (h : ∀ c ∈ s.toList, isLowerHex c = true ∨ c = '-') :
    normalized table (some s) = s := by
  have htrim : trim s = s := by
    rw [trim, trimChars_of_none fun c hc => (plain_of_headerChar (h c hc)).1, String.ofList_toList]
  have hlower : s.toList.map Char.toLower = s.toList :=
    (List.map_congr_left fun c hc => (plain_of_headerChar (h c hc)).2.2).trans (List.map_id _)
  rw [normalized, htrim, table.ascii s fun c hc => (plain_of_headerChar (h c hc)).2.1, toLowerCase,
    hlower, String.ofList_toList]

theorem fields_format (c : ValidContext) : Fields (formatTraceparent c.toTraceContext) "00"
    c.traceId c.spanId (if c.sampled then "01" else "00") where
  text := by simp [formatTraceparent, String.append_assoc]
  version_hex := ⟨rfl, List.all_eq_true.mp (by decide)⟩
  traceId_hex := c.traceId_hex
  spanId_hex := c.spanId_hex
  flags_hex := by split <;> exact ⟨rfl, List.all_eq_true.mp (by decide)⟩
  version_ne := by decide
  traceId_ne := c.traceId_ne
  spanId_ne := c.spanId_ne

/-- **A context that is written is read back.** -/
theorem parse_format (c : ValidContext) :
    parseTraceparent table (some (formatTraceparent c.toTraceContext)) = some c.toTraceContext := by
  have hfields := fields_format c
  have hchars : ∀ ch ∈ (formatTraceparent c.toTraceContext).toList,
      isLowerHex ch = true ∨ ch = '-' := by
    have hdash : ∀ ch ∈ "-".toList, isLowerHex ch = true ∨ ch = '-' :=
      fun ch hmem => .inr (List.mem_singleton.mp hmem)
    have hhex {n : Nat} {x : String} (hx : HexField n x) :
        ∀ ch ∈ x.toList, isLowerHex ch = true ∨ ch = '-' := fun ch hch => .inl (hx.2 ch hch)
    rw [hfields.text]
    simp only [String.toList_append, List.forall_mem_append]
    exact ⟨⟨⟨⟨⟨⟨hhex hfields.version_hex, hdash⟩, hhex hfields.traceId_hex⟩, hdash⟩,
      hhex hfields.spanId_hex⟩, hdash⟩, hhex hfields.flags_hex⟩
  rw [parseTraceparent_eq_some_iff, normalized_eq_self table hchars]
  refine ⟨"00", _, hfields, ?_⟩
  cases c.sampled <;> rfl

theorem toHex_length (bytes : List UInt8) : (toHex bytes).length = 2 * bytes.length := by
  induction bytes with
  | nil => rfl
  | cons byte bytes ih =>
      rw [toHex, List.flatMap_cons, List.length_append]
      change 2 + (toHex bytes).length = 2 * (bytes.length + 1)
      omega

theorem isLowerHex_hexDigit : ∀ n < 16, isLowerHex (hexDigit n) = true := by decide

theorem toHex_hex (bytes : List UInt8) : ∀ c ∈ toHex bytes, isLowerHex c = true := by
  intro c hc
  obtain ⟨byte, -, hc⟩ := List.mem_flatMap.mp hc
  have hlt := byte.toNat_lt
  rcases List.mem_pair.mp hc with rfl | rfl
  · exact isLowerHex_hexDigit _ (by omega)
  · exact isLowerHex_hexDigit _ (by omega)

theorem hexDigit_eq_zero : ∀ n < 16, hexDigit n = '0' → n = 0 := by decide

/-- Bytes that are not all zero are not written with zeros alone. -/
theorem toHex_ne_zeros {bytes : List UInt8} (h : ∃ byte ∈ bytes, byte ≠ 0) (n : Nat) :
    toHex bytes ≠ List.replicate n '0' := by
  obtain ⟨byte, hmem, hne⟩ := h
  intro heq
  have hlt := byte.toNat_lt
  have hdigit : ∀ c ∈ toHex [byte], c = '0' := by
    intro c hc
    refine List.eq_of_mem_replicate (n := n) (heq ▸ ?_)
    exact List.mem_flatMap.mpr ⟨byte, hmem, by simpa [toHex] using hc⟩
  have hhigh :=
    hexDigit_eq_zero _ (by omega) (hdigit (hexDigit (byte.toNat / 16)) (by simp [toHex]))
  have hlow := hexDigit_eq_zero _ (by omega) (hdigit (hexDigit (byte.toNat % 16)) (by simp [toHex]))
  exact hne (UInt8.toNat_inj.mp (by change byte.toNat = 0; omega))

theorem hexField_random {n : Nat} (random : RandomBytes n) :
    HexField (2 * n) (String.ofList (toHex random.bytes)) := by
  constructor
  · rw [String.toList_ofList, toHex_length, random.length_eq]
  · rw [String.toList_ofList]
    exact toHex_hex random.bytes

theorem random_ne_zeros {n : Nat} (random : RandomBytes n) (m : Nat) :
    String.ofList (toHex random.bytes) ≠ String.ofList (List.replicate m '0') :=
  fun h => toHex_ne_zeros random.nonzero m (String.ofList_injective h)

/-- The context of a request can be written. -/
theorem traceContextFrom_valid (header : Option String) (trace : RandomBytes 16)
    (span : RandomBytes 8) :
    ∃ c : ValidContext, c.toTraceContext = traceContextFrom table header trace span := by
  unfold traceContextFrom
  split
  next parent hparent =>
    obtain ⟨_, _, hfields, -⟩ := (parseTraceparent_eq_some_iff table).mp hparent
    exact ⟨⟨⟨parent.traceId, newSpanId span, parent.sampled⟩, hfields.traceId_hex,
      hexField_random span, hfields.traceId_ne, random_ne_zeros span 16⟩, rfl⟩
  next =>
    exact ⟨⟨⟨newTraceId trace, newSpanId span, true⟩, hexField_random trace, hexField_random span,
      random_ne_zeros trace 32, random_ne_zeros span 16⟩, rfl⟩

/-- A caller's trace goes on. -/
theorem traceContextFrom_of_parse {header : Option String} {parent : TraceContext}
    (trace : RandomBytes 16) (span : RandomBytes 8)
    (h : parseTraceparent table header = some parent) :
    traceContextFrom table header trace span =
      ⟨parent.traceId, newSpanId span, parent.sampled⟩ := by
  rw [traceContextFrom, h]

/-- **The codec of the trace context.**  What is written is read back; what is read is four fields
of hex, trimmed and in lower case; and what a request sends on is read with its caller's trace id
and sampling decision. -/
theorem trace_context_codec (table : LowerCase) :
    (∀ c : ValidContext, parseTraceparent table (some (formatTraceparent c.toTraceContext)) =
      some c.toTraceContext) ∧
    (∀ (h : String) (c : TraceContext), parseTraceparent table (some h) = some c ↔
      ∃ version flags, Fields (table.lower (trim h)) version c.traceId c.spanId flags ∧
        c.sampled = (parseHex flags.toList).testBit 0) ∧
    ∀ (header : Option String) (trace : RandomBytes 16) (span : RandomBytes 8),
      ∃ sent, parseTraceparent table
          (some (formatTraceparent (traceContextFrom table header trace span))) = some sent ∧
        ∀ caller, parseTraceparent table header = some caller →
          sent.traceId = caller.traceId ∧ sent.sampled = caller.sampled := by
  refine ⟨parse_format table, fun h c => parseTraceparent_eq_some_iff table, ?_⟩
  intro header trace span
  obtain ⟨c, hc⟩ := traceContextFrom_valid table header trace span
  refine ⟨c.toTraceContext, hc ▸ parse_format table c, fun caller hcaller => ?_⟩
  rw [hc, traceContextFrom_of_parse table trace span hcaller]
  exact ⟨rfl, rfl⟩

example : parseTraceparent .ofAscii
    (some " 00-4BF92F3577B34DA6A3CE929D0E0E4736-00F067AA0BA902B7-01 ") =
      some ⟨"4bf92f3577b34da6a3ce929d0e0e4736", "00f067aa0ba902b7", true⟩ := by
  decide +kernel

end NestDdd

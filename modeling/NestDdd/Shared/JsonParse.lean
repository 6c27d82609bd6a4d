import NestDdd.Shared.Json
import NestDdd.Shared.Numeral
import NestDdd.Shared.Stringify
import NestDdd.Shared.Utf16

/-!
# Shared — `JSON.parse`

Reads the texts of JSON and no others: values with white space around them, and nothing behind.  A
string is read as code units.  An object is made of its members in their order: a later value of a
name takes the place of an earlier one, and the names that are array indices come first.

`fuel` bounds how deep the readers call each other; `readValue_fuel` says that a text has enough of
it.

* `stable_readValue`: a value that is read before the end of a text is read when the text goes on.
-/

namespace NestDdd

open Reader JsValue

/-! ### Objects -/

/-- The index that a name is, if it is one. -/
def arrayIndex (name : String) : Option ℕ :=
  let cs := name.toList
  if cs ≠ [] ∧ cs.all Char.isDigit = true ∧ (cs.head? = some '0' → cs = ['0']) ∧
      natOf cs < 2 ^ 32 - 1 then some (natOf cs)
  else none

/-- The order of an object's names: indices by value, then the others as they came. -/
def keyBefore (k k' : String) : Bool :=
  match arrayIndex k, arrayIndex k' with
  | some i, some j => i < j
  | none, some _ => false
  | _, none => true

/-- `CreateDataProperty`. -/
def put (fields : List (String × JsValue)) (name : String) (v : JsValue) :
    List (String × JsValue) :=
  if name ∈ fields.map Prod.fst then
    fields.map fun field => if field.1 = name then (name, v) else field
  else
    fields.takeWhile (fun field => keyBefore field.1 name) ++
      (name, v) :: fields.dropWhile fun field => keyBefore field.1 name

def ofMembers (members : List (String × JsValue)) : List (String × JsValue) :=
  members.foldl (fun fields member => put fields member.1 member.2) []

/-! ### Strings -/

/-- `"`. -/
def isQuote (c : Char) : Bool := c == '"'

/-- `\`. -/
def isBackslash (c : Char) : Bool := c == '\\'

/-- White space of JSON. -/
def isJsonSpace (c : Char) : Bool := c == ' ' || c == '\t' || c == '\n' || c == '\r'

def hexValue (c : Char) : Option ℕ :=
  if c.isDigit then some (c.toNat - 48)
  else if 97 ≤ c.toNat ∧ c.toNat ≤ 102 then some (c.toNat - 87)
  else if 65 ≤ c.toNat ∧ c.toNat ≤ 70 then some (c.toNat - 55)
  else none

/-- The code unit of a character behind a backslash. -/
def unescape (c : Char) : Option ℕ :=
  if c = '"' ∨ c = '\\' ∨ c = '/' then some c.toNat
  else if c = 'b' then some 8
  else if c = 'f' then some 12
  else if c = 'n' then some 10
  else if c = 'r' then some 13
  else if c = 't' then some 9
  else none

def readHex : Reader Char ℕ := map (fun c => (hexValue c).getD 0) (one fun c => (hexValue c).isSome)

/-- Four digits behind `\u`. -/
def readUnicode : Reader Char ℕ :=
  bind readHex fun a => bind readHex fun b => bind readHex fun c =>
    map (fun d => ((a * 16 + b) * 16 + c) * 16 + d) readHex

def readEscape : Reader Char ℕ :=
  onHead (· == 'u') (bind (one (· == 'u')) fun _ => readUnicode)
    (map (fun c => (unescape c).getD 0) (one fun c => (unescape c).isSome))

/-- The code units of one character, or of one escape. -/
def readUnits : Reader Char (List ℕ) :=
  onHead isBackslash (bind (one isBackslash) fun _ => map (fun unit => [unit]) readEscape)
    (map Utf16.encodeChar (one fun c => 32 ≤ c.toNat))

/-- The rest of a string, up to its quote. -/
def readChars : ℕ → Reader Char (List ℕ)
  | 0 => fail
  | fuel + 1 =>
      onHead isQuote (map (fun _ => []) (one isQuote))
        (bind readUnits fun units => map (units ++ ·) (readChars fuel))

def readString (fuel : ℕ) : Reader Char String :=
  bind (one isQuote) fun _ => map (fun units => String.ofList (Utf16.decode units)) (readChars fuel)

/-! ### Values -/

def skipSpace {α : Type} (f : Reader Char α) : Reader Char α := bind (span isJsonSpace) fun _ => f

/-- What stands between brackets: nothing, or `items` and the closing bracket. -/
def bracketed {α : Type} (opening closing : Char) (items : Reader Char (List α)) :
    Reader Char (List α) :=
  bind (one (· == opening)) fun _ =>
    skipSpace (onHead (· == closing) (map (fun _ => []) (one (· == closing))) items)

/-- One item, and more behind a comma. -/
def listed {α : Type} (closing : Char) (item : Reader Char α) (more : Reader Char (List α)) :
    Reader Char (List α) :=
  bind item fun v => skipSpace
    (onHead (· == ',') (bind (one (· == ',')) fun _ => map (v :: ·) more)
      (map (fun _ => [v]) (one (· == closing))))

def readMember (name : Reader Char String) (value : Reader Char JsValue) :
    Reader Char (String × JsValue) :=
  skipSpace (bind name fun k => skipSpace (bind (one (· == ':')) fun _ => map (Prod.mk k) value))

mutual

def readValue : ℕ → Reader Char JsValue
  | 0 => fail
  | fuel + 1 => skipSpace
      (onHead isQuote (map (fun s => .string s) (readString fuel))
      (onHead (· == '[') (map (fun items => .array items) (bracketed '[' ']' (readItems fuel)))
      (onHead (· == '{')
        (map (fun members => .object (ofMembers members)) (bracketed '{' '}' (readMembers fuel)))
      (onHead (· == 't') (map (fun _ => .bool true) (word ['t', 'r', 'u', 'e']))
      (onHead (· == 'f') (map (fun _ => .bool false) (word ['f', 'a', 'l', 's', 'e']))
      (onHead (· == 'n') (map (fun _ => .null) (word ['n', 'u', 'l', 'l']))
      (map (fun n => .number n) readNumber)))))))

def readItems : ℕ → Reader Char (List JsValue)
  | 0 => fail
  | fuel + 1 => listed ']' (readValue fuel) (readItems fuel)

def readMembers : ℕ → Reader Char (List (String × JsValue))
  | 0 => fail
  | fuel + 1 => listed '}' (readMember (readString fuel) (readValue fuel)) (readMembers fuel)

end

/-- `JSON.parse(text)`, `none` if it throws. -/
def parse (text : List Char) : Option JsValue :=
  match readValue (2 * text.length + 1) text with
  | some (v, rest) => if rest.all isJsonSpace then some v else none
  | none => none

/-! ### What a value ends with -/

section Closed

variable {α : Type} {f item : Reader Char α} {items more : Reader Char (List α)}
  {opening closing : Char}

theorem stable_skipSpace (hf : Stable f) : Stable (skipSpace f) := (stable_span _).bind fun _ => hf

theorem closed_skipSpace (hf : Closed f) (hnil : f [] = none) : Closed (skipSpace f) :=
  .after (stable_span _) (fun _ => hf) fun _ => hnil

theorem closed_bracketed (hitems : Closed items) (hnil : items [] = none) :
    Closed (bracketed opening closing items) :=
  (closed_one _).bind fun _ => closed_skipSpace ((closed_one _).map.onHead hitems hnil) hnil

theorem closed_listed (hitem : Stable item) (hmore : Closed more) :
    Closed (listed closing item more) := by
  refine .after hitem (fun v => closed_skipSpace ?_ rfl) fun _ => rfl
  exact ((closed_one _).bind fun _ => hmore.map).onHead (closed_one _).map rfl

theorem closed_readEscape : Closed readEscape := by
  have hhex : Closed readHex := (closed_one _).map
  have hunicode : Closed readUnicode :=
    hhex.bind fun _ => hhex.bind fun _ => hhex.bind fun _ => hhex.map
  exact ((closed_one _).bind fun _ => hunicode).onHead (closed_one _).map rfl

theorem closed_readUnits : Closed readUnits :=
  ((closed_one _).bind fun _ => closed_readEscape.map).onHead (closed_one _).map rfl

theorem closed_readChars : ∀ fuel, Closed (readChars fuel)
  | 0 => closed_fail
  | fuel + 1 =>
      (closed_one _).map.onHead (closed_readUnits.bind fun _ => (closed_readChars fuel).map) rfl

theorem closed_readString (fuel : ℕ) : Closed (readString fuel) :=
  (closed_one _).bind fun _ => (closed_readChars fuel).map

theorem readValue_nil : ∀ fuel, readValue fuel [] = none
  | 0 | _ + 1 => rfl

theorem readItems_nil : ∀ fuel, readItems fuel [] = none
  | 0 => rfl
  | fuel + 1 => by
      rw [readItems]
      exact bind_eq_none (readValue_nil fuel)

theorem readMembers_nil : ∀ fuel, readMembers fuel [] = none
  | 0 | _ + 1 => rfl

theorem stable_readMember {name : Reader Char String} {value : Reader Char JsValue}
    (hname : Stable name) (hvalue : Stable value) : Stable (readMember name value) :=
  stable_skipSpace (hname.bind fun _ =>
    stable_skipSpace ((closed_one _).stable.bind fun _ => hvalue.map))

/-- A value reads on only if it is a number; its items and members have their bracket. -/
theorem stable_readValue : ∀ fuel,
    Stable (readValue fuel) ∧ Closed (readItems fuel) ∧ Closed (readMembers fuel)
  | 0 => ⟨closed_fail.stable, closed_fail, closed_fail⟩
  | fuel + 1 => by
      obtain ⟨hvalue, hitems, hmembers⟩ := stable_readValue fuel
      refine ⟨stable_skipSpace ?_, closed_listed hvalue hitems,
        closed_listed (stable_readMember (closed_readString fuel).stable hvalue) hmembers⟩
      refine (closed_readString fuel).map.stable.onHead ?_
      refine (closed_bracketed hitems (readItems_nil fuel)).map.stable.onHead ?_
      refine (closed_bracketed hmembers (readMembers_nil fuel)).map.stable.onHead ?_
      refine (closed_word _).map.stable.onHead ?_
      refine (closed_word _).map.stable.onHead ?_
      exact (closed_word _).map.stable.onHead stable_readNumber.map

end Closed

/-! ### Fuel -/

section Fuel

variable {α : Type} {f f' item item' : Reader Char α}
  {items items' more more' : Reader Char (List α)}
  {opening closing : Char} {s : List Char}

theorem skipSpace_congr (h : ∀ t, t.length ≤ s.length → f t = f' t) :
    skipSpace f s = skipSpace f' s := by
  refine bind_congr fun _ rest hrest => h rest ?_
  exact (stable_span _ s _ rest hrest).1.length_le

theorem bind_one_congr {p : Char → Bool} {g g' : Char → Reader Char α}
    (h : ∀ c t, t.length < s.length → g c t = g' c t) : bind (one p) g s = bind (one p) g' s := by
  refine bind_congr fun c rest hrest => h c rest ?_
  obtain ⟨rfl, -⟩ := one_eq_some_iff.mp hrest
  exact Nat.lt_succ_self _

theorem bracketed_congr (h : ∀ t, t.length < s.length → items t = items' t) :
    bracketed opening closing items s = bracketed opening closing items' s :=
  bind_one_congr fun _ _ hlt => skipSpace_congr fun t hle =>
    onHead_congr rfl (h t (hle.trans_lt hlt))

theorem listed_congr (hstable : Stable item) (hitem : item s = item' s)
    (hmore : ∀ t, t.length < s.length → more t = more' t) :
    listed closing item more s = listed closing item' more' s := by
  refine Eq.trans (bind_congr fun v rest hrest => ?_) (bind_congr_left hitem)
  refine skipSpace_congr fun t hle => onHead_congr ?_ rfl
  have hlen := (hstable s v rest hrest).1.length_le
  exact bind_one_congr fun _ t' hlt => map_congr (hmore t' (by omega))

theorem length_lt_of_readUnits {units : List ℕ} {rest : List Char}
    (h : readUnits s = some (units, rest)) : rest.length < s.length := by
  rw [readUnits, onHead] at h
  split at h
  · exact length_lt_of_bind_one (fun _ => closed_readEscape.map.stable) h
  · exact length_lt_of_bind_one (fun _ => (closed_pure _).stable) h

theorem readChars_fuel : ∀ {n m : ℕ} {s : List Char}, s.length < n → s.length < m →
    readChars n s = readChars m s
  | n + 1, m + 1, s, hn, hm => by
      refine onHead_congr rfl (bind_congr fun units rest hrest => map_congr ?_)
      have hlt := length_lt_of_readUnits hrest
      exact readChars_fuel (by omega) (by omega)

theorem readString_fuel {n m : ℕ} (hn : s.length ≤ n) (hm : s.length ≤ m) :
    readString n s = readString m s :=
  bind_one_congr fun _ _ hlt => map_congr (readChars_fuel (hlt.trans_le hn) (hlt.trans_le hm))

/-- **A text has enough fuel.**  Twice its length, and one or two more, is as good as any. -/
theorem readValue_fuel : ∀ n,
    (∀ {m : ℕ} {s : List Char}, 2 * s.length + 1 ≤ n → 2 * s.length + 1 ≤ m →
      readValue n s = readValue m s) ∧
    (∀ {m : ℕ} {s : List Char}, 2 * s.length + 2 ≤ n → 2 * s.length + 2 ≤ m →
      readItems n s = readItems m s) ∧
    ∀ {m : ℕ} {s : List Char}, 2 * s.length + 2 ≤ n → 2 * s.length + 2 ≤ m →
      readMembers n s = readMembers m s
  | 0 => ⟨fun hn _ => absurd hn (by omega), fun hn _ => absurd hn (by omega),
      fun hn _ => absurd hn (by omega)⟩
  | n + 1 => by
      obtain ⟨hvalue, hitems, hmembers⟩ := readValue_fuel n
      refine ⟨fun {m s} hn hm => ?_, fun {m s} hn hm => ?_, fun {m s} hn hm => ?_⟩
      · obtain ⟨m, rfl⟩ := Nat.exists_eq_succ_of_ne_zero (n := m) (by omega)
        refine skipSpace_congr fun t hle => ?_
        refine onHead_congr (map_congr (readString_fuel (by omega) (by omega))) ?_
        refine onHead_congr (map_congr (bracketed_congr fun t' hlt =>
          hitems (by omega) (by omega))) ?_
        exact onHead_congr (map_congr (bracketed_congr fun t' hlt =>
          hmembers (by omega) (by omega))) rfl
      · obtain ⟨m, rfl⟩ := Nat.exists_eq_succ_of_ne_zero (n := m) (by omega)
        exact listed_congr (stable_readValue n).1 (hvalue (by omega) (by omega))
          fun t hlt => hitems (by omega) (by omega)
      · obtain ⟨m, rfl⟩ := Nat.exists_eq_succ_of_ne_zero (n := m) (by omega)
        refine listed_congr
          (stable_readMember (closed_readString n).stable (stable_readValue n).1) ?_
          fun t hlt => hmembers (by omega) (by omega)
        refine skipSpace_congr fun t hle => ?_
        refine Eq.trans (bind_congr fun name rest hrest => ?_)
          (bind_congr_left (readString_fuel (by omega) (by omega)))
        have hlen := (closed_readString n t name rest hrest).1.length_le
        exact skipSpace_congr fun t' hle' => bind_one_congr fun _ _ hlt =>
          map_congr (hvalue (by omega) (by omega))

end Fuel

end NestDdd

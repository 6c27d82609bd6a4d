import NestDdd.Database.OracleClient

/-!
# Database — the context user

What `withConnection` does about the user of a call, from `resolveContextUser` and `truncateBytes`
to the client identifier its function finds on the connection.

* `IsLongestFit`: a text cut after as many characters as a number of bytes holds; `truncateBytes`
  makes that cut (`truncateBytes_isLongestFit`).
* `resolve_enabled`: what the user of a call resolves to; `Opens.clientId`: what its function then
  finds on the connection.
* `identifiesUser_iff`: a source that requires a user gets one, unless the first character of the
  user is too long: what is left is then empty, and is set no more than a user that is absent.
-/

namespace NestDdd.Database

open Runs Runs.Async

/-! ### Cutting a text -/

/-- `result` is the longest beginning of `text` that has at most `maxBytes` bytes. -/
structure IsLongestFit (maxBytes : Nat) (text result : String) : Prop where
  isPrefix : result.toList <+: text.toList
  fits : result.utf8ByteSize ≤ maxBytes
  longest : ∀ longer : String, longer.toList <+: text.toList → longer.utf8ByteSize ≤ maxBytes →
    longer.toList <+: result.toList

theorem utf8ByteSize_mono {s text : String} (h : s.toList <+: text.toList) :
    s.utf8ByteSize ≤ text.utf8ByteSize := by
  obtain ⟨rest, hrest⟩ := h
  have htext : text = s ++ String.ofList rest := by
    rw [← String.toList_inj, String.toList_append, String.toList_ofList, hrest]
  rw [htext, String.utf8ByteSize_append]
  exact Nat.le_add_right ..

variable {maxBytes : Nat} {text result : String}

namespace IsLongestFit

theorem self (h : text.utf8ByteSize ≤ maxBytes) : IsLongestFit maxBytes text text :=
  ⟨List.prefix_rfl, h, fun _ hlonger _ => hlonger⟩

/-- The next character does not fit. -/
theorem of_push {c : Char} {rest : List Char} (htext : text.toList = result.toList ++ c :: rest)
    (h : result.utf8ByteSize ≤ maxBytes) (hc : maxBytes < (result.push c).utf8ByteSize) :
    IsLongestFit maxBytes text result := by
  refine ⟨⟨c :: rest, htext.symm⟩, h, fun longer hlonger hfits => ?_⟩
  rw [htext] at hlonger
  rcases List.prefix_or_prefix_of_prefix hlonger (List.prefix_append result.toList (c :: rest))
    with hle | ⟨more, hmore⟩
  · exact hle
  · cases more with
    | nil =>
        have hsame : result.toList = longer.toList := by simpa using hmore
        exact hsame ▸ List.prefix_rfl
    | cons d more =>
        -- then it also has the character that does not fit
        rw [← hmore, List.prefix_append_right_inj, List.cons_prefix_cons] at hlonger
        have hpush : (result.push c).toList <+: longer.toList := by
          rw [String.toList_push, ← hmore, ← hlonger.1]
          exact (List.prefix_append_right_inj _).mpr ⟨more, rfl⟩
        exact absurd hfits (Nat.not_le.mpr (Nat.lt_of_lt_of_le hc (utf8ByteSize_mono hpush)))

/-- The longest beginning is empty exactly when the first character alone does not fit. -/
theorem eq_empty_iff (h : IsLongestFit maxBytes text result) :
    result = "" ↔ ∀ c ∈ text.toList.head?, maxBytes < c.utf8Size := by
  constructor
  · rintro rfl c hc
    obtain ⟨rest, hrest⟩ := List.head?_eq_some_iff.mp hc
    by_contra hfits
    have hsingle := h.longest (String.singleton c)
      (by rw [String.toList_singleton, hrest]; exact ⟨rest, rfl⟩)
      (by rw [String.utf8ByteSize_singleton]; exact Nat.not_lt.mp hfits)
    simp at hsingle
  · intro hhead
    cases hresult : result.toList with
    | nil => exact String.toList_eq_nil_iff.mp hresult
    | cons c rest =>
        obtain ⟨more, hmore⟩ := h.isPrefix
        have hc := hhead c (by rw [← hmore, hresult]; rfl)
        have hsize : (String.singleton c).utf8ByteSize ≤ result.utf8ByteSize :=
          utf8ByteSize_mono (by rw [String.toList_singleton, hresult]; exact ⟨rest, rfl⟩)
        rw [String.utf8ByteSize_singleton] at hsize
        exact absurd (Nat.lt_of_lt_of_le hc hsize) (Nat.not_lt.mpr h.fits)

end IsLongestFit

/-- The loop keeps what it has, and stops where the next character does not fit. -/
theorem takeBytes_isLongestFit : ∀ {result : String} {rest : List Char},
    text.toList = result.toList ++ rest → result.utf8ByteSize ≤ maxBytes →
      IsLongestFit maxBytes text (takeBytes maxBytes result rest)
  | result, [], htext, h => by
      rw [List.append_nil, String.toList_inj] at htext
      rw [takeBytes, htext]
      exact .self h
  | result, char :: rest, htext, h => by
      rw [takeBytes]
      split
      next hfull => exact .of_push htext h hfull
      next hfits =>
        refine takeBytes_isLongestFit ?_ (Nat.not_lt.mp hfits)
        rw [htext, String.toList_push, List.append_assoc, List.singleton_append]

theorem truncateBytes_isLongestFit (value : String) (maxBytes : Nat) :
    IsLongestFit maxBytes value (truncateBytes value maxBytes) := by
  rw [truncateBytes]
  split
  next hfits => exact .self hfits
  next => exact takeBytes_isLongestFit (by simp) (Nat.zero_le _)

/-! ### The identifier on the connection -/

/-- The user of a call, empty if it names none. -/
def ConnectionOptions.trimmedUser (options : ConnectionOptions) : String :=
  ((options.contextUser <|> options.username).map trim).getD ""

/-- The client identifier of a connection, from what it was when the connection was borrowed. -/
def clientIdFrom (c : Conn) (current : String) : List DbEvent → String
  | [] => current
  | ⟨.setClientId connection user, _⟩ :: events =>
      clientIdFrom c (if connection = c then user else current) events
  | _ :: events => clientIdFrom c current events

/-- The client identifier of a connection that was lent without one. -/
def clientId (c : Conn) (events : List DbEvent) : String := clientIdFrom c "" events

variable {source : OracleSource} {options : ConnectionOptions} {c : Conn} {user : String}

theorem clientIdFrom_timeouts {current : String} {timeouts events : List DbEvent}
    (h : ∀ e ∈ timeouts, ∃ ms, e = ⟨.setCallTimeout c ms, .ok ()⟩) :
    clientIdFrom c current (timeouts ++ events) = clientIdFrom c current events := by
  induction timeouts with
  | nil => rfl
  | cons e timeouts ih =>
      obtain ⟨ms, rfl⟩ := h e List.mem_cons_self
      exact ih fun e he => h e (List.mem_cons_of_mem _ he)

/-- What `prepare` leaves on the connection. -/
theorem Opens.clientId {opening : List DbEvent} (h : Opens c user opening) :
    Database.clientId c opening = user := by
  obtain ⟨timeouts, ht, rfl⟩ := h
  rw [Database.clientId, clientIdFrom_timeouts ht]
  split
  next huser => exact huser.symm
  next => simp [clientIdFrom]

/-- What the user of a call resolves to. -/
theorem resolve_enabled (henabled : source.contextUser.enabled = true) :
    resolveContextUser source options =
      if options.trimmedUser = "" then
        if source.contextUser.required then .error (.unauthorized
          ("Database source \"" ++ source.key ++ "\" requires a context user"))
        else .ok none
      else .ok (some (truncateBytes options.trimmedUser source.contextUser.maxLength)) := by
  simp [resolveContextUser, ConnectionOptions.trimmedUser, henabled]

/-- Unless the call is rejected, its function runs as the longest beginning of its user. -/
theorem resolve_isLongestFit (henabled : source.contextUser.enabled = true)
    (h : ¬ (source.contextUser.required = true ∧ options.trimmedUser = "")) :
    ∃ user, resolveContextUser source options = .ok user ∧
      IsLongestFit source.contextUser.maxLength options.trimmedUser (user.getD "") := by
  rw [resolve_enabled henabled]
  by_cases hblank : options.trimmedUser = ""
  · refine ⟨none, ?_, ?_⟩
    · rw [if_pos hblank, if_neg fun hrequired => h ⟨hrequired, hblank⟩]
    · rw [hblank]
      exact .self (Nat.zero_le _)
  · exact ⟨_, if_neg hblank, truncateBytes_isLongestFit _ _⟩

/-! ### Calls -/

/-- What a source does about the user of a call, whatever the function, the driver and the calls
before. -/
structure IdentifiesUser (source : OracleSource) (options : ConnectionOptions) : Prop where
  /-- A call without a user is rejected before a connection is borrowed, if one is required. -/
  rejects : source.contextUser.required = true → options.trimmedUser = "" →
    ∀ (α : Type) (fn : Conn → DbM α) env t, OracleClient.withConnection source fn options env t =
      (.error (.unauthorized
        ("Database source \"" ++ source.key ++ "\" requires a context user")), t)
  /-- Any other call runs its function, once it has a connection, under the beginning of its user
  that fits. -/
  runsAs : ¬ (source.contextUser.required = true ∧ options.trimmedUser = "") →
    ∀ (α : Type) (fn : Conn → DbM α) env t c, env t .getConnection = .ok c →
      ∃ opening ending,
        IsLongestFit source.contextUser.maxLength options.trimmedUser (clientId c opening) ∧
        OracleClient.handed source options env t =
          some (c, t ++ ⟨.getConnection, .ok c⟩ :: opening) ∧
        OracleClient.withConnection source fn options env t =
          ((fn c env (t ++ ⟨.getConnection, .ok c⟩ :: opening)).1.mapError
              (OracleClient.mapError source · options.tag),
            (fn c env (t ++ ⟨.getConnection, .ok c⟩ :: opening)).2 ++ ending)
  /-- Where a user is required, no function runs without one. -/
  identified : source.contextUser.required = true → ∀ env t c opening,
    OracleClient.handed source options env t =
      some (c, t ++ ⟨.getConnection, .ok c⟩ :: opening) → clientId c opening ≠ ""

/-- A user is required and there is one, but its first character takes more bytes than there are. -/
def Overlong (source : OracleSource) (options : ConnectionOptions) : Prop :=
  source.contextUser.required = true ∧ options.trimmedUser ≠ "" ∧
    ∀ c ∈ options.trimmedUser.toList.head?, source.contextUser.maxLength < c.utf8Size

/-- A function is handed the connection that was borrowed. -/
theorem borrowed_of_handed {env : DbEnv} {t t' : List DbEvent}
    (h : OracleClient.handed source options env t = some (c, t')) :
    env t .getConnection = .ok c := by
  simp only [OracleClient.handed] at h
  split at h
  next hget =>
    cases h
    exact hget
  next => cases h

theorem rejects_blank (henabled : source.contextUser.enabled = true)
    (hrequired : source.contextUser.required = true) (hblank : options.trimmedUser = "") {α : Type}
    (fn : Conn → DbM α) (env : DbEnv) (t : List DbEvent) :
    OracleClient.withConnection source fn options env t = (.error (.unauthorized
      ("Database source \"" ++ source.key ++ "\" requires a context user")), t) := by
  refine OracleClient.withConnection_unresolved env t ?_
  rw [resolve_enabled henabled, if_pos hblank, if_pos hrequired]

theorem runsAs_longestFit (henabled : source.contextUser.enabled = true)
    (h : ¬ (source.contextUser.required = true ∧ options.trimmedUser = "")) {α : Type}
    (fn : Conn → DbM α) {env : DbEnv} {t : List DbEvent} (hget : env t .getConnection = .ok c) :
    ∃ opening ending,
      IsLongestFit source.contextUser.maxLength options.trimmedUser (clientId c opening) ∧
      OracleClient.handed source options env t =
        some (c, t ++ ⟨.getConnection, .ok c⟩ :: opening) ∧
      OracleClient.withConnection source fn options env t =
        ((fn c env (t ++ ⟨.getConnection, .ok c⟩ :: opening)).1.mapError
            (OracleClient.mapError source · options.tag),
          (fn c env (t ++ ⟨.getConnection, .ok c⟩ :: opening)).2 ++ ending) := by
  obtain ⟨user, huser, hfit⟩ := resolve_isLongestFit henabled h
  obtain ⟨opening, ending, hopens, -, hhanded, hrun⟩ :=
    @OracleClient.withConnection_borrowed α source options fn env t user c huser hget
  exact ⟨opening, ending, hopens.clientId ▸ hfit, hhanded, hrun⟩

/-- **The context user.**  A source that sets users identifies each call by its user, or rejects it,
unless it requires a user and the first character of this one does not fit: the cut then leaves
nothing, and the function runs without an identifier. -/
theorem identifiesUser_iff (source : OracleSource) (options : ConnectionOptions)
    (henabled : source.contextUser.enabled = true) :
    IdentifiesUser source options ↔ ¬ Overlong source options := by
  constructor
  · intro h ⟨hrequired, huser, hhead⟩
    obtain ⟨opening, -, hfit, hhanded, -⟩ := h.runsAs (fun hblank => huser hblank.2) Unit
      (fun _ => pure ()) lends [] 0 rfl
    exact h.identified hrequired lends [] 0 opening hhanded (hfit.eq_empty_iff.mpr hhead)
  · intro h
    refine ⟨fun hrequired hblank _ fn env t => rejects_blank henabled hrequired hblank fn env t,
      fun hnot _ fn env t c hget => runsAs_longestFit henabled hnot fn hget, ?_⟩
    intro hrequired env t c opening hhanded
    by_cases hblank : options.trimmedUser = ""
    · -- the call was rejected
      rw [OracleClient.handed, resolve_enabled henabled, if_pos hblank, if_pos hrequired] at hhanded
      cases hhanded
    · obtain ⟨opening', -, hfit, hhanded', -⟩ := runsAs_longestFit henabled
        (fun hboth => hblank hboth.2) (fun _ => (pure () : DbM Unit)) (borrowed_of_handed hhanded)
      obtain rfl : opening' = opening := by simpa [hhanded] using hhanded'.symm
      exact fun hempty => h ⟨hrequired, hblank, hfit.eq_empty_iff.mp hempty⟩

/-- A source that requires a user and keeps one byte of it, and a call by a user whose name begins
with a letter of two bytes. -/
def OracleSource.oneByte : OracleSource := { OracleSource.main with contextUser := ⟨true, true, 1⟩ }

def ConnectionOptions.byEmile : ConnectionOptions := ⟨some "émile", none, none, none⟩

theorem identifiesUser_main :
    (OracleSource.main.contextUser.enabled = true) ∧
      (IdentifiesUser .main .byEmile ↔ ¬ Overlong .main .byEmile) :=
  ⟨rfl, identifiesUser_iff .main .byEmile rfl⟩

/-- The function of this call runs without a client identifier. -/
theorem runs_unidentified : ¬ IdentifiesUser .oneByte .byEmile := by
  intro h
  exact h.identified rfl lends [] 0 [] rfl rfl

end NestDdd.Database

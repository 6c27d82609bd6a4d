import Mathlib.Data.List.Basic

/-!
# Runs — async functions over an environment

An async function awaits calls to an environment (a store, a driver, a handler) one after the
other and settles: it resolves with a value or rejects with an error.  `R c` is the type of the
reply to the call `c`; the environment may answer each call from everything that happened
before, by a reply or by a rejection.

`Async R ε α` is such a function, as a function of the environment and the trace so far; `call`,
`note`, `attempt`, `catchError` and `andFinally` are its `await`, its effects that cannot fail,
and its `try`, `catch` and `finally`.

`Emits P x` says that `x` only extends the trace, and only by events in `P`; it is closed under
the ways functions are put together, so that a bound on what a whole function does is read off
its parts.  `Blames F P x` says that `x` rejects only with errors that its own events account for,
by `F`, and with those in `P`.
-/

namespace Runs

universe u v

variable {κ : Type u} {R : κ → Type v} {ε : Type v}

/-- A call and how it settled. -/
abbrev Event (R : κ → Type v) (ε : Type v) := Σ c : κ, Except ε (R c)

/-- How each call settles, given the trace before it. -/
abbrev Env (R : κ → Type v) (ε : Type v) := List (Event R ε) → (c : κ) → Except ε (R c)

/-- An async function: what it settles with, and the trace it leaves. -/
def Async (R : κ → Type v) (ε : Type v) (α : Type v) :=
  Env R ε → List (Event R ε) → Except ε α × List (Event R ε)

namespace Async

variable {α β : Type v}

instance : Monad (Async R ε) where
  pure a := fun _ t => (.ok a, t)
  bind x f := fun env t =>
    match x env t with
    | (.ok a, t') => f a env t'
    | (.error e, t') => (.error e, t')

/-- `throw e`. -/
def reject (e : ε) : Async R ε α := fun _ t => (.error e, t)

/-- `await` a call. -/
def call (c : κ) : Async R ε (R c) := fun env t => (env t c, t ++ [⟨c, env t c⟩])

/-- An effect that cannot fail. -/
def note (c : κ) (r : R c) : Async R ε PUnit := fun _ t => (.ok ⟨⟩, t ++ [⟨c, .ok r⟩])

/-- `await x`, with a rejection handed on as a value. -/
def attempt (x : Async R ε α) : Async R ε (Except ε α) := fun env t =>
  (.ok (x env t).1, (x env t).2)

/-- `return` a value or `throw` an error. -/
def settle : Except ε α → Async R ε α
  | .ok a => pure a
  | .error e => reject e

/-- `try { x } catch (e) { h(e) }`. -/
def catchError (x : Async R ε α) (h : ε → Async R ε α) : Async R ε α := do
  match ← attempt x with
  | .ok a => pure a
  | .error e => h e

/-- `try { x } finally { cleanup }`. -/
def andFinally (x : Async R ε α) (cleanup : Async R ε PUnit) : Async R ε α := do
  let settled ← attempt x
  cleanup
  settle settled

variable (env : Env R ε) (t : List (Event R ε))

@[simp] theorem pure_apply (a : α) : (pure a : Async R ε α) env t = (.ok a, t) := rfl

@[simp] theorem reject_apply (e : ε) : (reject e : Async R ε α) env t = (.error e, t) := rfl

@[simp] theorem call_apply (c : κ) :
    (call c : Async R ε (R c)) env t = (env t c, t ++ [⟨c, env t c⟩]) := rfl

@[simp] theorem note_apply (c : κ) (r : R c) :
    (note c r : Async R ε PUnit) env t = (.ok ⟨⟩, t ++ [⟨c, .ok r⟩]) := rfl

@[simp] theorem attempt_apply (x : Async R ε α) :
    attempt x env t = (.ok (x env t).1, (x env t).2) := rfl

@[simp] theorem settle_apply (r : Except ε α) :
    (settle r : Async R ε α) env t = (r, t) := by cases r <;> rfl

theorem bind_apply (x : Async R ε α) (f : α → Async R ε β) :
    (x >>= f) env t =
      match x env t with
      | (.ok a, t') => f a env t'
      | (.error e, t') => (.error e, t') := rfl

theorem bind_ok {x : Async R ε α} {f : α → Async R ε β} {a : α} {t' : List (Event R ε)}
    (h : x env t = (.ok a, t')) : (x >>= f) env t = f a env t' := by
  rw [bind_apply, h]

theorem bind_error {x : Async R ε α} {f : α → Async R ε β} {e : ε} {t' : List (Event R ε)}
    (h : x env t = (.error e, t')) : (x >>= f) env t = (.error e, t') := by
  rw [bind_apply, h]

theorem attempt_bind (x : Async R ε α) (f : Except ε α → Async R ε β) :
    (attempt x >>= f) env t = f (x env t).1 env (x env t).2 := rfl

theorem catchError_ok {x : Async R ε α} {h : ε → Async R ε α} {a : α} {t' : List (Event R ε)}
    (hx : x env t = (.ok a, t')) : catchError x h env t = (.ok a, t') := by
  simp only [catchError, attempt_bind, hx, pure_apply]

theorem catchError_error {x : Async R ε α} {h : ε → Async R ε α} {e : ε}
    {t' : List (Event R ε)} (hx : x env t = (.error e, t')) :
    catchError x h env t = h e env t' := by
  simp only [catchError, attempt_bind, hx]

theorem andFinally_apply (x : Async R ε α) (cleanup : Async R ε PUnit) {t' : List (Event R ε)}
    (h : cleanup env (x env t).2 = (.ok ⟨⟩, t')) :
    andFinally x cleanup env t = ((x env t).1, t') := by
  rw [andFinally, attempt_bind, bind_ok env _ h, settle_apply]

/-! #### Calls that cannot be rejected -/

section Total

variable {R : κ → Type} {α β : Type} (env : Env R Empty) (t : List (Event R Empty))

/-- The reply to a call that cannot be rejected. -/
def answer (c : κ) : R c :=
  match env t c with
  | .ok r => r
  | .error e => e.elim

theorem env_eq_answer (c : κ) : env t c = .ok (answer env t c) := by
  rw [answer]
  split
  next h => exact h
  next e h => exact e.elim

theorem call_bind (c : κ) (f : R c → Async R Empty β) :
    (call c >>= f) env t = f (answer env t c) env (t ++ [⟨c, .ok (answer env t c)⟩]) :=
  bind_ok env t (by rw [call_apply, env_eq_answer env t c])

theorem note_bind (c : κ) (r : R c) (f : PUnit → Async R Empty β) :
    (note c r >>= f) env t = f ⟨⟩ env (t ++ [⟨c, .ok r⟩]) := rfl

end Total

end Async

/-! ### What a function may add to the trace -/

/-- `x` only extends the trace, by events in `P`. -/
def Emits (P : Event R ε → Prop) {α : Type v} (x : Async R ε α) : Prop :=
  ∀ env t, ∃ t', (x env t).2 = t ++ t' ∧ ∀ e ∈ t', P e

namespace Emits

open Async

variable {P : Event R ε → Prop} {α β : Type v}

theorem pure (a : α) : Emits P (pure a : Async R ε α) := fun _ _ => ⟨[], by simp⟩

theorem reject (e : ε) : Emits P (reject e : Async R ε α) := fun _ _ => ⟨[], by simp⟩

theorem call {c : κ} (h : ∀ r, P ⟨c, r⟩) : Emits P (call c : Async R ε (R c)) :=
  fun env t => ⟨[⟨c, env t c⟩], rfl, by simp [h]⟩

theorem bind {x : Async R ε α} {f : α → Async R ε β} (hx : Emits P x) (hf : ∀ a, Emits P (f a)) :
    Emits P (x >>= f) := by
  intro env t
  obtain ⟨t₁, h₁, hP₁⟩ := hx env t
  rcases hr : x env t with ⟨r, t'⟩
  obtain rfl : t' = t ++ t₁ := by rw [← h₁, hr]
  cases r with
  | error e => exact ⟨t₁, by rw [bind_error env t hr], hP₁⟩
  | ok a =>
      obtain ⟨t₂, h₂, hP₂⟩ := hf a env (t ++ t₁)
      refine ⟨t₁ ++ t₂, by rw [bind_ok env t hr, h₂, List.append_assoc], fun e he => ?_⟩
      rcases List.mem_append.mp he with he | he
      · exact hP₁ e he
      · exact hP₂ e he

theorem attempt {x : Async R ε α} (hx : Emits P x) : Emits P (attempt x) :=
  fun env t => hx env t

theorem catchError {x : Async R ε α} {h : ε → Async R ε α} (hx : Emits P x)
    (hh : ∀ e, Emits P (h e)) : Emits P (catchError x h) :=
  bind (attempt hx) fun
    | .ok a => pure a
    | .error e => hh e

end Emits

/-! ### What a rejection comes from -/

/-- Every rejection of `x` is in `P`, or is one that an event of `x` accounts for. -/
def Blames (F : Event R ε → ε → Prop) (P : ε → Prop) {α : Type v} (x : Async R ε α) : Prop :=
  ∀ env t, ∃ t', (x env t).2 = t ++ t' ∧
    ∀ e, (x env t).1 = .error e → P e ∨ ∃ event ∈ t', F event e

namespace Blames

open Async

variable {F : Event R ε → ε → Prop} {P : ε → Prop} {α β : Type v}

theorem pure (a : α) : Blames F P (pure a : Async R ε α) :=
  fun _ t => ⟨[], (List.append_nil t).symm, fun _ h => nomatch h⟩

theorem reject {e : ε} (h : P e) : Blames F P (reject e : Async R ε α) :=
  fun _ t => ⟨[], (List.append_nil t).symm, fun _ h' => .inl (Except.error.inj h' ▸ h)⟩

/-- What the reply to a call brings in, the rest may reject with. -/
theorem call_bind {c : κ} {f : R c → Async R ε β} (hc : ∀ e, F ⟨c, .error e⟩ e)
    (hf : ∀ r, Blames F (fun e => P e ∨ F ⟨c, .ok r⟩ e) (f r)) :
    Blames F P (call c >>= f) := by
  intro env t
  cases hr : env t c with
  | error e =>
      refine ⟨[⟨c, .error e⟩], by rw [bind_apply, call_apply, hr], fun e' he => ?_⟩
      rw [bind_apply, call_apply, hr] at he
      obtain rfl := Except.error.inj he
      exact .inr ⟨_, List.mem_singleton_self _, hc e⟩
  | ok r =>
      obtain ⟨t', ht', hF⟩ := hf r env (t ++ [⟨c, .ok r⟩])
      refine ⟨⟨c, .ok r⟩ :: t', ?_, fun e he => ?_⟩
      · rw [bind_apply, call_apply, hr]
        simpa using ht'
      · rw [bind_apply, call_apply, hr] at he
        rcases hF e he with (hP | hreply) | ⟨event, hevent, hF⟩
        · exact .inl hP
        · exact .inr ⟨_, List.mem_cons_self, hreply⟩
        · exact .inr ⟨event, List.mem_cons_of_mem _ hevent, hF⟩

theorem bind {x : Async R ε α} {f : α → Async R ε β} (hx : Blames F P x)
    (hf : ∀ a, Blames F P (f a)) : Blames F P (x >>= f) := by
  intro env t
  obtain ⟨t₁, h₁, hF₁⟩ := hx env t
  rcases hr : x env t with ⟨r, t'⟩
  obtain rfl : t' = t ++ t₁ := by rw [← h₁, hr]
  cases r with
  | error e =>
      refine ⟨t₁, by rw [bind_error env t hr], fun e' he => hF₁ e' ?_⟩
      rw [bind_error env t hr] at he
      rw [hr]
      exact congrArg Except.error (Except.error.inj he)
  | ok a =>
      obtain ⟨t₂, h₂, hF₂⟩ := hf a env (t ++ t₁)
      refine ⟨t₁ ++ t₂, by rw [bind_ok env t hr, h₂, List.append_assoc], fun e he => ?_⟩
      rw [bind_ok env t hr] at he
      rcases hF₂ e he with hP | ⟨event, hevent, hF⟩
      · exact .inl hP
      · exact .inr ⟨event, List.mem_append_right t₁ hevent, hF⟩

/-- A handler that goes on with a value, or throws what it caught. -/
theorem rethrow {x : Async R ε α} {h : ε → Async R ε α} (hx : Blames F P x)
    (hh : ∀ e, (∃ a, h e = Pure.pure a) ∨ h e = Async.reject e) : Blames F P (catchError x h) := by
  intro env t
  obtain ⟨t', ht', hF⟩ := hx env t
  refine ⟨t', ?_⟩
  rcases hr : x env t with ⟨r, t₁⟩
  rw [hr] at ht' hF
  cases r with
  | ok a =>
      rw [catchError_ok env t hr]
      exact ⟨ht', fun _ he => nomatch he⟩
  | error e =>
      rw [catchError_error env t hr]
      rcases hh e with ⟨a, ha⟩ | hreject
      · rw [ha]
        exact ⟨ht', fun _ he => nomatch he⟩
      · rw [hreject]
        exact ⟨ht', hF⟩

end Blames

end Runs

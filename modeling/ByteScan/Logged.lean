/-!
# Results with a log

A computation that may fail and that notes events on its way. The events noted before a failure are
kept, and the result never depends on them.
-/

namespace ByteScan

/-! ## Results -/

namespace Result

variable {ε ε' α β : Type} {x : Except ε α}

theorem bind_eq_ok {f : α → Except ε β} {b : β} :
    x >>= f = .ok b ↔ ∃ a, x = .ok a ∧ f a = .ok b := by
  cases x with
  | error e =>
    constructor
    · rintro ⟨⟩
    · rintro ⟨a, ⟨⟩, -⟩
  | ok a =>
    constructor
    · intro h
      exact ⟨a, rfl, h⟩
    · rintro ⟨_, ⟨⟩, h⟩
      exact h

theorem mapError_eq_ok {f : ε → ε'} {a : α} : x.mapError f = .ok a ↔ x = .ok a := by
  cases x with
  | error e =>
    constructor
    · rintro ⟨⟩
    · rintro ⟨⟩
  | ok a' =>
    constructor
    · rintro ⟨⟩
      rfl
    · rintro ⟨⟩
      rfl

theorem toOption_eq_some {a : α} : x.toOption = some a ↔ x = .ok a := by
  cases x with
  | error e =>
    constructor
    · rintro ⟨⟩
    · rintro ⟨⟩
  | ok a' =>
    constructor
    · rintro ⟨⟩
      rfl
    · rintro ⟨⟩
      rfl

end Result

/-! ## Computations -/

/-- The events that a computation noted, in order, and what it came to. -/
structure Logged (ω ε α : Type) where
  events : List ω
  result : Except ε α

namespace Logged

variable {ω ε α β : Type}

/-- Notes an event. -/
def note (event : ω) : Logged ω ε Unit :=
  ⟨[event], .ok ()⟩

/-- Notes events, in order. -/
def noteAll (events : List ω) : Logged ω ε Unit :=
  ⟨events, .ok ()⟩

/-- Fails without noting anything. -/
def fail (error : ε) : Logged ω ε α :=
  ⟨[], .error error⟩

/-- A result with nothing noted. -/
def ofExcept (result : Except ε α) : Logged ω ε α :=
  ⟨[], result⟩

/-- The same computation with its failure seen as another one. -/
def mapError {ε' : Type} (f : ε → ε') (x : Logged ω ε α) : Logged ω ε' α :=
  ⟨x.events, x.result.mapError f⟩

/-- Goes on with what a computation came to. -/
def andThen (x : Logged ω ε α) (f : α → Logged ω ε β) : Logged ω ε β :=
  match x.result with
  | .error e => ⟨x.events, .error e⟩
  | .ok a => ⟨x.events ++ (f a).events, (f a).result⟩

instance : Monad (Logged ω ε) where
  pure a := ⟨[], .ok a⟩
  bind := andThen

section Bind

variable (x : Logged ω ε α) (f : α → Logged ω ε β)

theorem result_bind : (x >>= f).result = x.result >>= fun a => (f a).result := by
  show (x.andThen f).result = _
  rw [andThen]
  cases x.result with
  | error e => rfl
  | ok a => rfl

theorem result_bind_pure (g : α → β) : (x >>= fun a => pure (g a)).result = x.result.map g := by
  rw [result_bind]
  cases x.result with
  | error e => rfl
  | ok a => rfl

variable {x f}

theorem result_bind_congr {y : Logged ω ε α} {g : α → Logged ω ε β} (hx : x.result = y.result)
    (hnext : ∀ a, (f a).result = (g a).result) : (x >>= f).result = (y >>= g).result := by
  rw [result_bind, result_bind, hx]
  exact congrArg (y.result >>= ·) (funext hnext)

/-- The second computation goes on as the first does, with a function applied in the end. -/
theorem result_bind_map_congr {γ : Type} {y : Logged ω ε α} {g : α → Logged ω ε γ} {h : γ → β}
    (hx : x.result = y.result) (hnext : ∀ a, (f a).result = (g a).result.map h) :
    (x >>= f).result = (y >>= g).result.map h := by
  rw [result_bind, result_bind, hx]
  cases y.result with
  | error e => rfl
  | ok a => exact hnext a

theorem result_bind_eq_ok {b : β} :
    (x >>= f).result = .ok b ↔ ∃ a, x.result = .ok a ∧ (f a).result = .ok b := by
  rw [result_bind, Result.bind_eq_ok]

variable (f)

theorem bind_of_ok {a : α} (h : x.result = .ok a) :
    x >>= f = ⟨x.events ++ (f a).events, (f a).result⟩ := by
  show x.andThen f = _
  rw [andThen, h]

theorem bind_of_error {e : ε} (h : x.result = .error e) : x >>= f = ⟨x.events, .error e⟩ := by
  show x.andThen f = _
  rw [andThen, h]

theorem mem_events_bind {e : ω} :
    e ∈ (x >>= f).events ↔ e ∈ x.events ∨ ∃ a, x.result = .ok a ∧ e ∈ (f a).events := by
  cases h : x.result with
  | error _ => simp [bind_of_error f h]
  | ok _ => simp [bind_of_ok f h]

end Bind

end Logged

end ByteScan

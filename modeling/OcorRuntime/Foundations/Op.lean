import Mathlib.Order.Defs.Unbundled

/-! Operations on a state that may raise: an exception keeps the changes made up to it,
as an object's methods do. With the rules for reading off a run that succeeded, and for
deriving what a composed operation keeps from what its parts keep. -/
namespace OcorRuntime
set_option autoImplicit false
set_option maxHeartbeats 250000

/-- An operation on `σ` that returns an `α` or raises an `ε`. -/
def Op (σ ε α : Type) : Type := σ → Except ε α × σ

namespace Op
variable {σ ε α β : Type}

instance : Monad (Op σ ε) where
  pure a := fun s => (.ok a, s)
  bind x f := fun s =>
    match x s with
    | (.ok a, s') => f a s'
    | (.error e, s') => (.error e, s')

def raise (e : ε) : Op σ ε α := fun s => (.error e, s)

def read : Op σ ε σ := fun s => (.ok s, s)

def update (f : σ → σ) : Op σ ε Unit := fun s => (.ok (), f s)

/-- A computation that does not touch the state. -/
def lift (x : Except ε α) : Op σ ε α := fun s => (x, s)

/-- `try: x except e: handler(e)`. -/
def guarded (x : Op σ ε α) (handler : ε → Op σ ε α) : Op σ ε α := fun s =>
  match x s with
  | (.ok a, s') => (.ok a, s')
  | (.error e, s') => handler e s'

/-- `[f(a) for a in items]`. -/
def collect (f : α → Op σ ε β) : List α → Op σ ε (List β)
  | [] => pure []
  | a :: items => do
    let b ← f a
    let rest ← collect f items
    return b :: rest

/-! ## Runs that return -/

@[simp] theorem pure_apply (a : α) (s : σ) : (pure a : Op σ ε α) s = (.ok a, s) := rfl

@[simp] theorem raise_apply (e : ε) (s : σ) : (raise e : Op σ ε α) s = (.error e, s) := rfl

@[simp] theorem read_apply (s : σ) : (read : Op σ ε σ) s = (.ok s, s) := rfl

@[simp] theorem update_apply (f : σ → σ) (s : σ) : (update f : Op σ ε Unit) s = (.ok (), f s) := rfl

@[simp] theorem lift_apply (x : Except ε α) (s : σ) : lift x s = (x, s) := rfl

theorem bind_of_ok {x : Op σ ε α} {f : α → Op σ ε β} {s s' : σ} {a : α} (h : x s = (.ok a, s')) :
    (x >>= f) s = f a s' := by
  simp only [bind, h]

theorem bind_of_error {x : Op σ ε α} {f : α → Op σ ε β} {s s' : σ} {e : ε} (h : x s = (.error e, s')) :
    (x >>= f) s = (.error e, s') := by
  simp only [bind, h]

@[simp] theorem pure_bind (a : α) (f : α → Op σ ε β) (s : σ) : ((pure a : Op σ ε α) >>= f) s = f a s := rfl

@[simp] theorem raise_bind (e : ε) (f : α → Op σ ε β) (s : σ) : (raise e >>= f) s = (.error e, s) := rfl

@[simp] theorem read_bind (f : σ → Op σ ε β) (s : σ) : (read >>= f) s = f s s := rfl

@[simp] theorem update_bind (g : σ → σ) (f : Unit → Op σ ε β) (s : σ) : (update g >>= f) s = f () (g s) := rfl

@[simp] theorem lift_ok_bind (a : α) (f : α → Op σ ε β) (s : σ) : (lift (.ok a) >>= f) s = f a s := rfl

@[simp] theorem lift_error_bind (e : ε) (f : α → Op σ ε β) (s : σ) : (lift (.error e) >>= f) s = (.error e, s) := rfl

theorem guarded_of_ok {x : Op σ ε α} {handler : ε → Op σ ε α} {s s' : σ} {a : α} (h : x s = (.ok a, s')) :
    guarded x handler s = (.ok a, s') := by
  simp only [guarded, h]

theorem guarded_of_error {x : Op σ ε α} {handler : ε → Op σ ε α} {s s' : σ} {e : ε} (h : x s = (.error e, s')) :
    guarded x handler s = handler e s' := by
  simp only [guarded, h]

theorem bind_eq_ok {x : Op σ ε α} {f : α → Op σ ε β} {s s'' : σ} {b : β} :
    (x >>= f) s = (.ok b, s'') ↔ ∃ a s', x s = (.ok a, s') ∧ f a s' = (.ok b, s'') := by
  rcases hx : x s with ⟨outcome, s'⟩
  cases outcome with
  | ok a =>
    rw [bind_of_ok hx]
    constructor
    · intro h
      exact ⟨a, s', rfl, h⟩
    · rintro ⟨a', s'', heq, h⟩
      cases heq
      exact h
  | error e =>
    rw [bind_of_error hx]
    constructor
    · intro h
      cases h
    · rintro ⟨a, s', heq, -⟩
      cases heq

/-- A sequence that raises did so in its first part, or in its second after the first had returned. -/
theorem bind_eq_error {x : Op σ ε α} {f : α → Op σ ε β} {s s'' : σ} {e : ε} :
    (x >>= f) s = (.error e, s'') ↔ x s = (.error e, s'') ∨ ∃ a s', x s = (.ok a, s') ∧ f a s' = (.error e, s'') := by
  rcases hx : x s with ⟨outcome, s'⟩
  cases outcome with
  | ok a =>
    rw [bind_of_ok hx]
    constructor
    · intro h
      exact Or.inr ⟨a, s', rfl, h⟩
    · rintro (h | ⟨a', s'', heq, h⟩)
      · cases h
      · cases heq
        exact h
  | error e' =>
    rw [bind_of_error hx]
    constructor
    · intro h
      cases h
      exact Or.inl rfl
    · rintro (h | ⟨a, s', heq, -⟩)
      · cases h
        rfl
      · cases heq

theorem lift_eq_ok {x : Except ε α} {s s' : σ} {a : α} : lift x s = (.ok a, s') ↔ x = .ok a ∧ s = s' := by
  simp

/-! ## What an operation keeps, however it ends -/

/-- The operation moves the state along `R`, whether it returns or raises. -/
def Keeps (R : σ → σ → Prop) (x : Op σ ε α) : Prop := ∀ s, R s (x s).2

section Keeps
variable {R : σ → σ → Prop}

theorem Keeps.update {f : σ → σ} (h : ∀ s, R s (f s)) : Keeps R (update f : Op σ ε Unit) := h

theorem Keeps.pure [Std.Refl R] (a : α) : Keeps R (Pure.pure a : Op σ ε α) := fun s => Std.Refl.refl s

theorem Keeps.raise [Std.Refl R] (e : ε) : Keeps R (raise e : Op σ ε α) := fun s => Std.Refl.refl s

theorem Keeps.lift [Std.Refl R] (x : Except ε α) : Keeps R (lift x : Op σ ε α) := fun s => Std.Refl.refl s

theorem Keeps.read [Std.Refl R] : Keeps R (read : Op σ ε σ) := fun s => Std.Refl.refl s

theorem Keeps.bind [IsTrans σ R] {x : Op σ ε α} {f : α → Op σ ε β} (hx : Keeps R x) (hf : ∀ a, Keeps R (f a)) :
    Keeps R (x >>= f) := by
  intro s
  have hs := hx s
  rcases h : x s with ⟨outcome, s'⟩
  rw [h] at hs
  cases outcome with
  | ok a =>
    rw [bind_of_ok h]
    exact IsTrans.trans _ _ _ hs (hf a s')
  | error e =>
    rw [bind_of_error h]
    exact hs

theorem Keeps.guarded [IsTrans σ R] {x : Op σ ε α} {handler : ε → Op σ ε α} (hx : Keeps R x)
    (hh : ∀ e, Keeps R (handler e)) : Keeps R (guarded x handler) := by
  intro s
  have hs := hx s
  rcases h : x s with ⟨outcome, s'⟩
  rw [h] at hs
  cases outcome with
  | ok a =>
    rw [guarded_of_ok h]
    exact hs
  | error e =>
    rw [guarded_of_error h]
    exact IsTrans.trans _ _ _ hs (hh e s')

/-- What the first part reached, the rest moves along `R`. -/
theorem Keeps.after_bind [Std.Refl R] {f : α → Op σ ε β} (hf : ∀ a, Keeps R (f a)) (x : Op σ ε α) (s : σ) :
    R (x s).2 ((x >>= f) s).2 := by
  rcases h : x s with ⟨outcome, s'⟩
  cases outcome with
  | ok a =>
    rw [bind_of_ok h]
    exact hf a s'
  | error e =>
    rw [bind_of_error h]
    exact Std.Refl.refl s'

theorem Keeps.after_guarded [Std.Refl R] {handler : ε → Op σ ε α} (hh : ∀ e, Keeps R (handler e)) (x : Op σ ε α)
    (s : σ) : R (x s).2 (Op.guarded x handler s).2 := by
  rcases h : x s with ⟨outcome, s'⟩
  cases outcome with
  | ok a =>
    rw [guarded_of_ok h]
    exact Std.Refl.refl s'
  | error e =>
    rw [guarded_of_error h]
    exact hh e s'

end Keeps

/-! ## What an operation does from one state -/

/-- From `s` the operation moves the state along `R`, and what it returns, if it does, meets `Q`. -/
def Moves (R : σ → σ → Prop) (s : σ) (x : Op σ ε α) (Q : α → σ → Prop) : Prop :=
  R s (x s).2 ∧ ∀ a, (x s).1 = .ok a → Q a (x s).2

section Moves
variable {R : σ → σ → Prop} {s : σ} {x : Op σ ε α} {Q Q' : α → σ → Prop}

theorem Moves.mono (hx : Moves R s x Q) (hQ : ∀ a s', R s s' → Q a s' → Q' a s') : Moves R s x Q' :=
  ⟨hx.1, fun a ha => hQ a _ hx.1 (hx.2 a ha)⟩

theorem Moves.pure [Std.Refl R] {a : α} (h : Q a s) : Moves R s (Pure.pure a : Op σ ε α) Q := by
  refine ⟨Std.Refl.refl s, fun b hb => ?_⟩
  cases hb
  exact h

theorem Moves.raise [Std.Refl R] (e : ε) : Moves R s (raise e : Op σ ε α) Q := by
  refine ⟨Std.Refl.refl s, fun b hb => ?_⟩
  cases hb

theorem Moves.lift [Std.Refl R] {y : Except ε α} (h : ∀ a, y = .ok a → Q a s) : Moves R s (lift y : Op σ ε α) Q :=
  ⟨Std.Refl.refl s, h⟩

theorem Moves.bind [IsTrans σ R] {f : α → Op σ ε β} {T : β → σ → Prop} (hx : Moves R s x Q)
    (hf : ∀ a s', R s s' → Q a s' → Moves R s' (f a) T) : Moves R s (x >>= f) T := by
  obtain ⟨hR, hQ⟩ := hx
  rcases h : x s with ⟨outcome, s'⟩
  rw [h] at hR hQ
  cases outcome with
  | ok a =>
    have hrest := hf a s' hR (hQ a rfl)
    unfold Moves
    rw [bind_of_ok h]
    exact ⟨IsTrans.trans _ _ _ hR hrest.1, hrest.2⟩
  | error e =>
    unfold Moves
    rw [bind_of_error h]
    refine ⟨hR, fun b hb => ?_⟩
    cases hb

theorem Moves.guarded [IsTrans σ R] {handler : ε → Op σ ε α} (hx : Moves R s x Q)
    (hh : ∀ e s', R s s' → Moves R s' (handler e) Q) : Moves R s (guarded x handler) Q := by
  obtain ⟨hR, hQ⟩ := hx
  rcases h : x s with ⟨outcome, s'⟩
  rw [h] at hR hQ
  cases outcome with
  | ok a =>
    unfold Moves
    rw [guarded_of_ok h]
    exact ⟨hR, hQ⟩
  | error e =>
    have hrest := hh e s' hR
    unfold Moves
    rw [guarded_of_error h]
    exact ⟨IsTrans.trans _ _ _ hR hrest.1, hrest.2⟩

theorem Moves.map [IsTrans σ R] [Std.Refl R] {f : α → β} {T : β → σ → Prop} (hx : Moves R s x Q)
    (hf : ∀ a s', R s s' → Q a s' → T (f a) s') : Moves R s (f <$> x) T := by
  have hmap : f <$> x = x >>= fun a => Pure.pure (f a) := rfl
  rw [hmap]
  exact hx.bind fun a s' hR hQ => Moves.pure (hf a s' hR hQ)

theorem Moves.collect [IsTrans σ R] [Std.Refl R] {f : α → Op σ ε β} {items : List α}
    (hf : ∀ a ∈ items, ∀ s', R s s' → Moves R s' (f a) fun _ _ => True) :
    Moves R s (collect f items) fun _ _ => True := by
  induction items generalizing s with
  | nil => exact Moves.pure trivial
  | cons a items ih =>
    refine Moves.bind (hf a List.mem_cons_self s (Std.Refl.refl s)) fun b s' hR _ => ?_
    refine Moves.bind (ih fun c hc s'' hR' => hf c (List.mem_cons_of_mem a hc) s'' (IsTrans.trans _ _ _ hR hR')) ?_
    exact fun rest s'' _ _ => Moves.pure trivial

theorem Moves.forM [IsTrans σ R] [Std.Refl R] {f : α → Op σ ε Unit} {items : List α}
    (hf : ∀ a ∈ items, ∀ s', R s s' → Moves R s' (f a) fun _ _ => True) :
    Moves R s (items.forM f) fun _ _ => True := by
  induction items generalizing s with
  | nil => exact Moves.pure trivial
  | cons a items ih =>
    refine Moves.bind (hf a List.mem_cons_self s (Std.Refl.refl s)) fun b s' hR _ => ?_
    exact ih fun c hc s'' hR' => hf c (List.mem_cons_of_mem a hc) s'' (IsTrans.trans _ _ _ hR hR')

end Moves
end Op
end OcorRuntime

import Mathlib.Data.List.Forall2
import OcorRuntime.Foundations.Op

/-! Operations that ask ports whose answers may change between any two calls: an answer is a
function of the number of its call. What a run learnt, it learnt at calls of its window. -/
namespace OcorRuntime
set_option autoImplicit false
set_option maxHeartbeats 250000

/-- How many calls have been made, and what the caller itself keeps. -/
structure Asking (σ : Type) where
  calls : ℕ
  own : σ

section Asking
variable {σ ε α β : Type}

/-- One call of a port. -/
def ask (answer : ℕ → Except ε α) : Op (Asking σ) ε α := fun s => (answer s.calls, ⟨s.calls + 1, s.own⟩)

theorem ask_eq_ok {answer : ℕ → Except ε α} {s s' : Asking σ} {a : α} :
    ask answer s = (.ok a, s') ↔ answer s.calls = .ok a ∧ s' = ⟨s.calls + 1, s.own⟩ := by
  rw [ask, Prod.mk.injEq, eq_comm (a := s')]

/-- Calls were made, and nothing else changed. -/
def Onward (s s' : Asking σ) : Prop := s.calls ≤ s'.calls ∧ s'.own = s.own

instance : Std.Refl (Onward (σ := σ)) := ⟨fun _ => ⟨Nat.le_refl _, rfl⟩⟩

instance : IsTrans (Asking σ) Onward := ⟨fun _ _ _ h h' => ⟨Nat.le_trans h.1 h'.1, h'.2.trans h.2⟩⟩

theorem Onward.ask (answer : ℕ → Except ε α) : Op.Keeps Onward (ask answer : Op (Asking σ) ε α) :=
  fun _ => ⟨Nat.le_succ _, rfl⟩

/-- Calls were made; the caller may have changed what it keeps. -/
def Later (s s' : Asking σ) : Prop := s.calls ≤ s'.calls

instance : Std.Refl (Later (σ := σ)) := ⟨fun s => Nat.le_refl s.calls⟩

instance : IsTrans (Asking σ) Later := ⟨fun _ _ _ h h' => Nat.le_trans h h'⟩

theorem Later.of_onward {x : Op (Asking σ) ε α} (h : Op.Keeps Onward x) : Op.Keeps Later x := fun s => (h s).1

/-- A sequence that returns: what each part did, and that the calls of the second come after those of the first. -/
theorem Op.Keeps.bind_eq_ok {R : Asking σ → Asking σ → Prop} {x : Op (Asking σ) ε α} {f : α → Op (Asking σ) ε β}
    (hx : Op.Keeps R x) (hf : ∀ a, Op.Keeps R (f a)) {s s' : Asking σ} {b : β} (h : (x >>= f) s = (.ok b, s')) :
    ∃ a mid, x s = (.ok a, mid) ∧ f a mid = (.ok b, s') ∧ R s mid ∧ R mid s' := by
  obtain ⟨a, mid, hfirst, hsecond⟩ := Op.bind_eq_ok.1 h
  refine ⟨a, mid, hfirst, hsecond, ?_, ?_⟩
  · have hr := hx s
    rwa [hfirst] at hr
  · have hr := hf a mid
    rwa [hsecond] at hr

/-- A loop that returns ran its body for every item, within the window of the loop. -/
theorem Op.Keeps.forM_eq_ok {R : Asking σ → Asking σ → Prop} [Std.Refl R] [IsTrans (Asking σ) R]
    {f : α → Op (Asking σ) ε Unit} (hf : ∀ a, Op.Keeps R (f a)) {items : List α} {s s' : Asking σ}
    (h : items.forM f s = (.ok (), s')) :
    R s s' ∧ ∀ a ∈ items, ∃ first last, R s first ∧ f a first = (.ok (), last) ∧ R last s' := by
  induction items generalizing s with
  | nil =>
    cases h
    exact ⟨Std.Refl.refl _, List.forall_mem_nil _⟩
  | cons a items ih =>
    obtain ⟨_, mid, ha, hrest⟩ := Op.bind_eq_ok.1 h
    obtain ⟨hmid, hitems⟩ := ih hrest
    have hfirst : R s mid := by
      have hr := hf a s
      rwa [ha] at hr
    refine ⟨IsTrans.trans _ _ _ hfirst hmid, fun b hb => ?_⟩
    rcases List.mem_cons.mp hb with rfl | hb
    · exact ⟨s, mid, Std.Refl.refl _, ha, hmid⟩
    · obtain ⟨first, last, hbefore, hb, hafter⟩ := hitems b hb
      exact ⟨first, last, IsTrans.trans _ _ _ hfirst hbefore, hb, hafter⟩

/-- A loop that collects its results: each from its item, within the window of the loop. -/
theorem Op.Keeps.collect_eq_ok {R : Asking σ → Asking σ → Prop} [Std.Refl R] [IsTrans (Asking σ) R]
    {f : α → Op (Asking σ) ε β} (hf : ∀ a, Op.Keeps R (f a)) {items : List α} {bs : List β} {s s' : Asking σ}
    (h : Op.collect f items s = (.ok bs, s')) :
    R s s' ∧ List.Forall₂ (fun a b => ∃ first last, R s first ∧ f a first = (.ok b, last) ∧ R last s') items bs := by
  induction items generalizing s bs with
  | nil =>
    cases h
    exact ⟨Std.Refl.refl _, .nil⟩
  | cons a items ih =>
    obtain ⟨b, mid, ha, hrest⟩ := Op.bind_eq_ok.1 h
    obtain ⟨rest, last, hcollect, hreturn⟩ := Op.bind_eq_ok.1 hrest
    cases hreturn
    obtain ⟨hmid, hitems⟩ := ih hcollect
    have hfirst : R s mid := by
      have hr := hf a s
      rwa [ha] at hr
    refine ⟨IsTrans.trans _ _ _ hfirst hmid, .cons ⟨s, mid, Std.Refl.refl _, ha, hmid⟩ (hitems.imp ?_)⟩
    rintro c d ⟨first, last, hbefore, hc, hafter⟩
    exact ⟨first, last, IsTrans.trans _ _ _ hfirst hbefore, hc, hafter⟩

end Asking

theorem Op.Keeps.collect {σ ε α β : Type} {R : σ → σ → Prop} [Std.Refl R] [IsTrans σ R] {f : α → Op σ ε β}
    {items : List α} (hf : ∀ a, Op.Keeps R (f a)) : Op.Keeps R (Op.collect f items) := by
  induction items with
  | nil => exact Op.Keeps.pure []
  | cons a items ih => exact Op.Keeps.bind (hf a) fun b => Op.Keeps.bind ih fun rest => Op.Keeps.pure (b :: rest)

/-! ## What holds where an operation raises -/

/-- Where the operation raises, the state has moved along `R`. -/
def Op.Fails {σ ε α : Type} (R : σ → σ → Prop) (x : Op σ ε α) : Prop := ∀ s e s', x s = (.error e, s') → R s s'

section Fails
variable {σ ε α β : Type} {R : σ → σ → Prop}

theorem Op.Keeps.fails {x : Op σ ε α} (h : Op.Keeps R x) : Op.Fails R x := by
  intro s e s' hx
  have hs := h s
  rwa [hx] at hs

theorem Op.Fails.bind [IsTrans σ R] {x : Op σ ε α} {f : α → Op σ ε β} (hx : Op.Keeps R x) (hf : ∀ a, Op.Fails R (f a)) :
    Op.Fails R (x >>= f) := by
  intro s e s' h
  rcases Op.bind_eq_error.1 h with h | ⟨a, mid, ha, h⟩
  · exact hx.fails s e s' h
  · have hs := hx s
    rw [ha] at hs
    exact IsTrans.trans _ _ _ hs (hf a mid e s' h)

theorem Op.Fails.guarded [IsTrans σ R] {x : Op σ ε α} {handler : ε → Op σ ε α} (hx : Op.Fails R x)
    (hh : ∀ e, Op.Fails R (handler e)) : Op.Fails R (Op.guarded x handler) := by
  intro s e s' h
  rcases hxs : x s with ⟨outcome, mid⟩
  cases outcome with
  | ok a =>
    rw [Op.guarded_of_ok hxs] at h
    cases h
  | error e' =>
    rw [Op.guarded_of_error hxs] at h
    exact IsTrans.trans _ _ _ (hx s e' mid hxs) (hh e' mid e s' h)

theorem Op.Fails.update_pure (f : σ → σ) (b : β) : Op.Fails R ((Op.update f : Op σ ε Unit) >>= fun _ => Pure.pure b) := by
  intro s e s' h
  cases h

end Fails

theorem Op.Keeps.forM {σ ε α : Type} {R : σ → σ → Prop} [Std.Refl R] [IsTrans σ R] {f : α → Op σ ε Unit}
    {items : List α} (hf : ∀ a ∈ items, Op.Keeps R (f a)) : Op.Keeps R (items.forM f) := by
  induction items with
  | nil => exact Op.Keeps.pure ()
  | cons a items ih =>
    exact Op.Keeps.bind (hf a List.mem_cons_self) fun _ => ih fun b hb => hf b (List.mem_cons_of_mem a hb)

end OcorRuntime

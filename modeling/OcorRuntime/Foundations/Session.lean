import Mathlib.Data.List.Basic
import OcorRuntime.Foundations.Run

/-! Calls that talk to a shared service by requests, any number of them at once. A call is the tree of
its requests; the service answers one request at a time, so that everything may happen between two
requests of a call. `Meets` is a rely-guarantee judgement on one call, `run_meets` carries it to every
interleaving. -/
namespace OcorRuntime
set_option autoImplicit false
set_option maxHeartbeats 250000

/-- A call in progress: it returned, it raised, or it waits for the answer to its next request. -/
inductive Session (Q R ε α : Type)
  | returned (a : α)
  | raised (e : ε)
  | ask (request : Q) (next : R → Session Q R ε α)

namespace Session
variable {Q R ε α β : Type}

def bind : Session Q R ε α → (α → Session Q R ε β) → Session Q R ε β
  | .returned a, f => f a
  | .raised e, _ => .raised e
  | .ask request next, f => .ask request fun r => (next r).bind f

instance : Monad (Session Q R ε) where
  pure := .returned
  bind := bind

/-- One request and its answer. -/
def request (q : Q) : Session Q R ε R := .ask q .returned

/-- A computation without requests. -/
def lift : Except ε α → Session Q R ε α
  | .ok a => .returned a
  | .error e => .raised e

@[simp] theorem returned_bind (a : α) (f : α → Session Q R ε β) : (Session.returned a >>= f) = f a := rfl

@[simp] theorem pure_bind (a : α) (f : α → Session Q R ε β) : ((pure a : Session Q R ε α) >>= f) = f a := rfl

@[simp] theorem raised_bind (e : ε) (f : α → Session Q R ε β) : (Session.raised e >>= f) = .raised e := rfl

@[simp] theorem request_bind (q : Q) (f : R → Session Q R ε β) : (request q >>= f) = .ask q f := rfl

@[simp] theorem lift_ok (a : α) : (lift (.ok a) : Session Q R ε α) = .returned a := rfl

@[simp] theorem lift_error (e : ε) : (lift (.error e) : Session Q R ε α) = .raised e := rfl

/-- The call with each of its requests answered at once. -/
def answered {σ : Type} (serve : σ → Q → σ × R) : Session Q R ε α → σ → Except ε α × σ
  | .returned a, s => (.ok a, s)
  | .raised e, s => (.error e, s)
  | .ask q next, s => (next (serve s q).2).answered serve (serve s q).1

theorem answered_bind {σ : Type} {serve : σ → Q → σ × R} {f : α → Session Q R ε β} {a : α} {s' : σ} :
    ∀ {x : Session Q R ε α} {s : σ}, x.answered serve s = (.ok a, s') →
      (x >>= f).answered serve s = (f a).answered serve s'
  | .returned _, _, h => by
      cases h
      rfl
  | .raised _, _, h => by cases h
  | .ask q next, s, h => answered_bind (x := next (serve s q).2) (s := (serve s q).1) h

/-- The call with its next requests answered, one after the other. -/
def play {σ F : Type} (serve : σ → Q → F → σ × R) : List F → Session Q R ε α → σ → Session Q R ε α × σ
  | f :: fates, .ask q next, s => play serve fates (next (serve s q f).2) (serve s q f).1
  | _, x, s => (x, s)

end Session

/-! ## One call among others -/

/-- A service, how it may answer, what always holds of it, and how its state may move on under a call. -/
structure Service (σ Q R F : Type) where
  serve : σ → Q → F → σ × R
  Inv : σ → Prop
  Allowed : σ → Q → F → Prop
  Rely : σ → σ → Prop
  rely_refl : ∀ s, Rely s s
  rely_trans : ∀ {s s' s''}, Rely s s' → Rely s' s'' → Rely s s''

namespace Service
variable {σ Q R F ε α β : Type} (P : Service σ Q R F)

/-- From `s` on, whatever the others do between its requests, the call keeps the invariant, moves the
state as the others may rely on, and returns only what meets `post`. -/
def Meets (post : α → σ → Prop) : Session Q R ε α → σ → Prop
  | .returned a, s => post a s
  | .raised _, _ => True
  | .ask q next, s => ∀ s', P.Rely s s' → P.Inv s' → ∀ f, P.Allowed s' q f →
      P.Inv (P.serve s' q f).1 ∧ P.Rely s' (P.serve s' q f).1 ∧
        Meets post (next (P.serve s' q f).2) (P.serve s' q f).1

variable {P} {post : α → σ → Prop}

theorem Meets.bind {f : α → Session Q R ε β} {post' : β → σ → Prop} :
    ∀ {x : Session Q R ε α} {s : σ}, P.Meets (fun a s => P.Meets post' (f a) s) x s → P.Meets post' (x.bind f) s
  | .returned _, _, h => h
  | .raised _, _, _ => trivial
  | .ask _ _, _, h => fun s' hR hI fate hA =>
      have ⟨hinv, hrely, hnext⟩ := h s' hR hI fate hA
      ⟨hinv, hrely, hnext.bind⟩

theorem Meets.mono {post' : α → σ → Prop} (hpost : ∀ a s, post a s → post' a s) :
    ∀ {x : Session Q R ε α} {s : σ}, P.Meets post x s → P.Meets post' x s
  | .returned a, s, h => hpost a s h
  | .raised _, _, _ => trivial
  | .ask _ _, _, h => fun s' hR hI fate hA =>
      have ⟨hinv, hrely, hnext⟩ := h s' hR hI fate hA
      ⟨hinv, hrely, hnext.mono hpost⟩

theorem Meets.stable (hpost : ∀ a s s', P.Rely s s' → post a s → post a s') :
    ∀ {x : Session Q R ε α} {s s' : σ}, P.Meets post x s → P.Rely s s' → P.Meets post x s'
  | .returned a, s, s', h, hR => hpost a s s' hR h
  | .raised _, _, _, _, _ => trivial
  | .ask _ _, _, _, h, hR => fun s'' hR' hI fate hA => h s'' (P.rely_trans hR hR') hI fate hA

end Service

/-! ## Every interleaving -/

/-- The service and the calls that were started, each with how far it is. -/
structure Interleaving (σ C Q R ε α : Type) where
  service : σ
  calls : List (C × Session Q R ε α)

inductive Turn (C F : Type)
  | start (call : C)
  | answer (index : ℕ) (fate : F)

namespace Interleaving
variable {σ C Q R F ε α : Type}

def step (serve : σ → Q → F → σ × R) (program : C → Session Q R ε α) (s : Interleaving σ C Q R ε α) :
    Turn C F → Interleaving σ C Q R ε α
  | .start c => { s with calls := s.calls ++ [(c, program c)] }
  | .answer i f =>
    match s.calls[i]? with
    | some (c, .ask q next) =>
      { service := (serve s.service q f).1, calls := s.calls.set i (c, next (serve s.service q f).2) }
    | _ => s

/-- The started calls are `admitted`, and the answers given are `allowed`. -/
def AllowedTurn (admitted : C → Prop) (allowed : σ → Q → F → Prop) (s : Interleaving σ C Q R ε α) : Turn C F → Prop
  | .start c => admitted c
  | .answer i f =>
    match s.calls[i]? with
    | some (_, .ask q _) => allowed s.service q f
    | _ => True

theorem run_play (serve : σ → Q → F → σ × R) (program : C → Session Q R ε α) (c : C) :
    ∀ (fates : List F) (x : Session Q R ε α) (s : σ) (calls : List (C × Session Q R ε α)),
      run (step serve program) ⟨s, calls ++ [(c, x)]⟩ (fates.map (.answer calls.length)) =
        ⟨(x.play serve fates s).2, calls ++ [(c, (x.play serve fates s).1)]⟩
  | [], .returned _, _, _ | [], .raised _, _, _ | [], .ask _ _, _, _ => rfl
  | f :: fates, .ask q next, s, calls => by
      rw [List.map_cons, run_cons, step]
      simp only [List.getElem?_concat_length]
      rw [List.set_append_right _ _ (Nat.le_refl _), Nat.sub_self, List.set_cons_zero,
        run_play serve program c fates]
      rfl
  | f :: fates, .returned a, s, calls => by
      rw [List.map_cons, run_cons, step]
      simp only [List.getElem?_concat_length]
      rw [run_play serve program c fates]
      cases fates <;> rfl
  | f :: fates, .raised e, s, calls => by
      rw [List.map_cons, run_cons, step]
      simp only [List.getElem?_concat_length]
      rw [run_play serve program c fates]
      cases fates <;> rfl

/-- The call has returned. -/
def Returned (s : Interleaving σ C Q R ε α) (c : C) (a : α) : Prop := (c, .returned a) ∈ s.calls

section
variable {P : Service σ Q R F} {program : C → Session Q R ε α} {post : C → α → σ → Prop} {admitted : C → Prop}

/-- The invariant holds, and each call keeps its judgement. -/
structure Sound (P : Service σ Q R F) (post : C → α → σ → Prop) (s : Interleaving σ C Q R ε α) : Prop where
  inv : P.Inv s.service
  calls : ∀ call ∈ s.calls, P.Meets (post call.1) call.2 s.service

theorem sound_step (hstable : ∀ c a s s', P.Rely s s' → post c a s → post c a s')
    (hprogram : ∀ c, admitted c → ∀ s, P.Inv s → P.Meets (post c) (program c) s)
    (s : Interleaving σ C Q R ε α) (turn : Turn C F) (h : Sound P post s)
    (hturn : AllowedTurn admitted P.Allowed s turn) : Sound P post (step P.serve program s turn) := by
  cases turn with
  | start c =>
    refine ⟨h.inv, fun call hcall => ?_⟩
    rcases List.mem_append.mp hcall with hcall | hcall
    · exact h.calls call hcall
    · cases List.mem_singleton.mp hcall
      exact hprogram c hturn _ h.inv
  | answer i f =>
    unfold step
    unfold AllowedTurn at hturn
    dsimp only at hturn ⊢
    split at hturn
    · next c q next hcall =>
      obtain ⟨hinv, hrely, hnext⟩ :=
        h.calls _ (List.mem_of_getElem? hcall) s.service (P.rely_refl _) h.inv f hturn
      refine ⟨hinv, fun call hmem => ?_⟩
      rcases List.mem_or_eq_of_mem_set hmem with hmem | rfl
      · exact (h.calls call hmem).stable (hstable call.1) hrely
      · exact hnext
    · exact h

/-- **Rely-guarantee.** Calls that keep the judgement alone keep it in every interleaving. -/
theorem run_meets (hstable : ∀ c a s s', P.Rely s s' → post c a s → post c a s')
    (hprogram : ∀ c, admitted c → ∀ s, P.Inv s → P.Meets (post c) (program c) s)
    {s : Interleaving σ C Q R ε α} (h0 : Sound P post s) {turns : List (Turn C F)}
    (hturns : AllSteps (step P.serve program) (AllowedTurn admitted P.Allowed) s turns) :
    Sound P post (run (step P.serve program) s turns) :=
  run_induction_of (sound_step hstable hprogram) h0 hturns

theorem run_relies (hstable : ∀ c a s s', P.Rely s s' → post c a s → post c a s')
    (hprogram : ∀ c, admitted c → ∀ s, P.Inv s → P.Meets (post c) (program c) s)
    {s : Interleaving σ C Q R ε α} (h0 : Sound P post s) {turns : List (Turn C F)}
    (hturns : AllSteps (step P.serve program) (AllowedTurn admitted P.Allowed) s turns) :
    P.Rely s.service (run (step P.serve program) s turns).service := by
  induction turns generalizing s with
  | nil => exact P.rely_refl _
  | cons turn turns ih =>
    refine P.rely_trans ?_ (ih (sound_step hstable hprogram s turn h0 hturns.1) hturns.2)
    cases turn with
    | start c => exact P.rely_refl _
    | answer i f =>
      have hturn := hturns.1
      unfold step
      unfold AllowedTurn at hturn
      dsimp only at hturn ⊢
      split at hturn
      · next c q next hcall =>
        exact (h0.calls _ (List.mem_of_getElem? hcall) s.service (P.rely_refl _) h0.inv f hturn).2.1
      · exact P.rely_refl _

theorem Sound.of_returned {s : Interleaving σ C Q R ε α} (h : Sound P post s) {c : C} {a : α}
    (hret : s.Returned c a) : post c a s.service :=
  h.calls _ hret

end
end Interleaving
end OcorRuntime

import OcorRuntime.Base.Errors
import OcorRuntime.Foundations.Collect

/-! What a computation can raise: every error it ends in meets a condition. The rules follow
the steps of the computation, and are equivalences, so that the inputs an exception
escapes on can be read off them. -/
namespace OcorRuntime
set_option autoImplicit false
set_option maxHeartbeats 250000

section Raising
variable {ε ε' α β : Type} {P : ε → Prop}

def OnlyRaises (P : ε → Prop) (x : Except ε α) : Prop := ∀ e, x = .error e → P e

theorem onlyRaises_ok (a : α) : OnlyRaises P (.ok a) := fun _ h => nomatch h

theorem onlyRaises_error {e : ε} : OnlyRaises P (.error e : Except ε α) ↔ P e :=
  ⟨fun h => h e rfl, fun h e' he => by
    cases he
    exact h⟩

theorem onlyRaises_bind {x : Except ε α} {f : α → Except ε β} :
    OnlyRaises P (x >>= f) ↔ OnlyRaises P x ∧ ∀ a, x = .ok a → OnlyRaises P (f a) := by
  cases x with
  | error e =>
    refine ⟨fun h => ⟨fun e' he => h e' (by rw [Except.error.inj he]; rfl), fun a ha => nomatch ha⟩, fun h e' he => ?_⟩
    exact h.1 e' (by rw [Except.error.inj he])
  | ok a =>
    refine ⟨fun h => ⟨onlyRaises_ok a, fun b hb => ?_⟩, fun h => h.2 a rfl⟩
    rw [← Except.ok.inj hb]
    exact h

theorem onlyRaises_check {x : Except ε Unit} {f : Unit → Except ε β} :
    OnlyRaises P (x >>= f) ↔ OnlyRaises P x ∧ (x = .ok () → OnlyRaises P (f ())) := by
  rw [onlyRaises_bind]
  exact and_congr_right fun _ => ⟨fun h hx => h () hx, fun h _ hx => h hx⟩

theorem onlyRaises_map {f : α → β} {x : Except ε α} : OnlyRaises P (x.map f) ↔ OnlyRaises P x := by
  cases x with
  | error e => exact Iff.trans onlyRaises_error (Iff.symm onlyRaises_error)
  | ok a => exact iff_of_true (onlyRaises_ok _) (onlyRaises_ok _)

theorem onlyRaises_refuseIf {bad : Prop} [Decidable bad] {e : ε} : OnlyRaises P (refuseIf bad e) ↔ (bad → P e) := by
  unfold refuseIf
  split_ifs with h
  · exact Iff.trans onlyRaises_error ⟨fun he _ => he, fun he => he h⟩
  · exact iff_of_true (onlyRaises_ok ()) fun hbad => absurd hbad h

theorem onlyRaises_require {p : Prop} [Decidable p] {e : ε} : OnlyRaises P (require p e) ↔ (¬ p → P e) := by
  unfold require
  by_cases h : p
  · rw [dif_pos h]
    exact iff_of_true (onlyRaises_ok _) fun hp => absurd h hp
  · rw [dif_neg h]
    exact Iff.trans onlyRaises_error ⟨fun he _ => he, fun he => he h⟩

theorem onlyRaises_mapError {f : ε → ε'} {Q : ε' → Prop} {x : Except ε α} :
    OnlyRaises Q (x.mapError f) ↔ OnlyRaises (fun e => Q (f e)) x := by
  cases x with
  | error e => exact (onlyRaises_error (P := Q)).trans (onlyRaises_error (P := fun e => Q (f e))).symm
  | ok a => exact iff_of_true (onlyRaises_ok a) (onlyRaises_ok a)

theorem onlyRaises_iff_ok {x : Except ε α} (h : ∀ e, x = .error e → ¬ P e) : OnlyRaises P x ↔ ∃ a, x = .ok a := by
  cases x with
  | error e => exact iff_of_false (fun hx => h e rfl (hx e rfl)) fun ⟨a, ha⟩ => nomatch ha
  | ok a => exact iff_of_true (onlyRaises_ok a) ⟨a, rfl⟩

theorem OnlyRaises.mono {Q : ε → Prop} {x : Except ε α} (h : OnlyRaises P x) (hPQ : ∀ e, P e → Q e) : OnlyRaises Q x :=
  fun e he => hPQ e (h e he)

theorem onlyRaises_mapM {f : α → Except ε β} {l : List α} (h : ∀ a ∈ l, OnlyRaises P (f a)) : OnlyRaises P (l.mapM f) := by
  induction l with
  | nil => exact onlyRaises_ok []
  | cons a l ih =>
    rw [List.mapM_cons]
    refine onlyRaises_bind.2 ⟨h a List.mem_cons_self, fun b _ => onlyRaises_bind.2 ⟨?_, fun bs _ => onlyRaises_ok _⟩⟩
    exact ih fun a' ha' => h a' (List.mem_cons_of_mem a ha')

theorem mapM_ok_iff {f : α → Except ε β} {l : List α} : (∃ ys, l.mapM f = .ok ys) ↔ ∀ a ∈ l, ∃ b, f a = .ok b := by
  constructor
  · rintro ⟨ys, hys⟩ a ha
    obtain ⟨b, -, hb⟩ := mapM_mem hys ha
    exact ⟨b, hb⟩
  · intro h
    induction l with
    | nil => exact ⟨[], rfl⟩
    | cons a l ih =>
      obtain ⟨b, hb⟩ := h a List.mem_cons_self
      obtain ⟨bs, hbs⟩ := ih fun a' ha' => h a' (List.mem_cons_of_mem a ha')
      exact ⟨b :: bs, forall₂_of_mapM.2 (.cons hb (forall₂_of_mapM.1 hbs))⟩

end Raising
end OcorRuntime

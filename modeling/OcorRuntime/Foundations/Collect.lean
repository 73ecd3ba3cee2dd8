import Mathlib.Data.List.Forall2
import Mathlib.Data.List.Perm.Basic

/-! Loops that collect a result for each item and stop at the first error. -/
namespace OcorRuntime
set_option autoImplicit false
set_option maxHeartbeats 250000

theorem except_bind_eq_ok {ε α β : Type} {x : Except ε α} {f : α → Except ε β} {b : β} :
    x >>= f = .ok b ↔ ∃ a, x = .ok a ∧ f a = .ok b := by
  cases x <;> simp [bind, Except.bind]

theorem mapError_eq_ok {ε ε' α : Type} {f : ε → ε'} {x : Except ε α} {a : α} : x.mapError f = .ok a ↔ x = .ok a := by
  cases x <;> simp [Except.mapError]

theorem forall₂_of_mapM {ε α β : Type} {f : α → Except ε β} {l : List α} {ys : List β} :
    l.mapM f = .ok ys ↔ List.Forall₂ (fun x y => f x = .ok y) l ys := by
  induction l generalizing ys with
  | nil =>
    rw [List.mapM_nil, List.forall₂_nil_left_iff]
    exact ⟨fun h => (Except.ok.inj h).symm, fun h => congrArg Except.ok h.symm⟩
  | cons x l ih =>
    rw [List.mapM_cons, List.forall₂_cons_left_iff]
    constructor
    · intro h
      cases hx : f x with
      | error e =>
        rw [hx] at h
        cases h
      | ok y =>
        rw [hx] at h
        cases hl : l.mapM f with
        | error e =>
          rw [hl] at h
          cases h
        | ok rest =>
          rw [hl] at h
          exact ⟨y, rest, rfl, ih.mp hl, (Except.ok.inj h).symm⟩
    · rintro ⟨y, rest, hx, hrest, rfl⟩
      rw [hx, ih.mpr hrest]
      rfl

theorem mapM_congr {ε α β : Type} {f g : α → Except ε β} {l : List α} (h : ∀ x ∈ l, f x = g x) :
    l.mapM f = l.mapM g := by
  induction l with
  | nil => rfl
  | cons x l ih =>
    rw [List.mapM_cons, List.mapM_cons, h x List.mem_cons_self, ih fun y hy => h y (List.mem_cons_of_mem x hy)]

/-- Where each item of a loop that succeeds has a result by other means too, so has the loop. -/
theorem mapM_transfer {ε α β γ : Type} {f : α → Except ε β} {g : α → Except ε γ} {l : List α} {ys : List β}
    (h : l.mapM f = .ok ys) (hfg : ∀ x ∈ l, ∀ y, f x = .ok y → ∃ z, g x = .ok z) : ∃ zs, l.mapM g = .ok zs := by
  rw [forall₂_of_mapM] at h
  induction h with
  | nil => exact ⟨[], rfl⟩
  | @cons x y xs ys hx _ ih =>
    obtain ⟨z, hz⟩ := hfg x List.mem_cons_self y hx
    obtain ⟨zs, hzs⟩ := ih fun x' hx' => hfg x' (List.mem_cons_of_mem x hx')
    exact ⟨z :: zs, forall₂_of_mapM.2 (.cons hz (forall₂_of_mapM.1 hzs))⟩

theorem exists_of_forall₂_left {α β : Type} {R : α → β → Prop} {l : List α} {m : List β} (h : List.Forall₂ R l m)
    {a : α} (ha : a ∈ l) : ∃ b ∈ m, R a b := by
  induction h with
  | nil => cases ha
  | cons hab _ ih =>
    rcases List.mem_cons.mp ha with rfl | ha
    · exact ⟨_, List.mem_cons_self, hab⟩
    · obtain ⟨b, hb, hab⟩ := ih ha
      exact ⟨b, List.mem_cons_of_mem _ hb, hab⟩

theorem exists_of_forall₂_right {α β : Type} {R : α → β → Prop} {l : List α} {m : List β} (h : List.Forall₂ R l m)
    {b : β} (hb : b ∈ m) : ∃ a ∈ l, R a b :=
  exists_of_forall₂_left h.flip hb

theorem mapM_mem {ε α β : Type} {f : α → Except ε β} {l : List α} {ys : List β} (h : l.mapM f = .ok ys) {x : α}
    (hx : x ∈ l) : ∃ y ∈ ys, f x = .ok y :=
  exists_of_forall₂_left (forall₂_of_mapM.1 h) hx

/-- A loop over the same items in another order gives the same results in another order. -/
theorem mapM_perm {ε α β : Type} {f : α → Except ε β} {l m : List α} {ys : List β} (h : l.mapM f = .ok ys)
    (hp : l.Perm m) : ∃ zs, m.mapM f = .ok zs ∧ ys.Perm zs := by
  obtain ⟨zs, hzs, hperm⟩ := List.perm_comp_forall₂ hp.symm (forall₂_of_mapM.1 h)
  exact ⟨zs, forall₂_of_mapM.2 hzs, hperm.symm⟩

theorem factor_of_forall₂ {α β γ : Type} {P : α → γ → Prop} {g : γ → β} {l : List α} {ys : List β}
    (h : List.Forall₂ (fun x y => ∃ z, P x z ∧ y = g z) l ys) : ∃ zs, List.Forall₂ P l zs ∧ ys = zs.map g := by
  induction h with
  | nil => exact ⟨[], .nil, rfl⟩
  | cons hxy _ ih =>
    obtain ⟨z, hz, rfl⟩ := hxy
    obtain ⟨zs, hzs, rfl⟩ := ih
    exact ⟨z :: zs, .cons hz hzs, rfl⟩

theorem map_of_forall₂ {α β γ : Type} {f : α → γ} {g : β → γ} {l : List α} {ys : List β}
    (h : List.Forall₂ (fun x y => g y = f x) l ys) : ys.map g = l.map f := by
  induction h with
  | nil => rfl
  | cons hxy _ ih => rw [List.map_cons, List.map_cons, hxy, ih]

theorem forall₂_of_common {α β γ : Type} {R : α → β → Prop} {S : α → γ → Prop} {T : β → γ → Prop} {l : List α}
    {bs : List β} {cs : List γ} (h : List.Forall₂ R l bs) (h' : List.Forall₂ S l cs)
    (hT : ∀ a b c, R a b → S a c → T b c) : List.Forall₂ T bs cs := by
  induction h generalizing cs with
  | nil =>
    cases h'
    exact .nil
  | cons hab _ ih =>
    obtain _ | ⟨hac, hrest⟩ := h'
    exact .cons (hT _ _ _ hab hac) (ih hrest)

end OcorRuntime

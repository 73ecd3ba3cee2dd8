import Mathlib.Data.List.Nodup
import Mathlib.Data.List.Perm.Lattice

/-! Minimal elements of finite lists under a relation that is an order on them: a
unique minimal element is the least one, and a least element is the only minimal one.
Least bounds in such an order: bounds of pairs are enough for the bounds of every list. -/
namespace OcorRuntime.FiniteOrder
set_option autoImplicit false
set_option maxHeartbeats 250000

section Extremal
variable {α : Type} [DecidableEq α]

def extremal (below : α → α → Bool) (candidates : List α) : List α :=
  candidates.filter fun c => !candidates.any fun other => other ≠ c && below other c

theorem mem_extremal {below : α → α → Bool} {candidates : List α} {c : α} :
    c ∈ extremal below candidates ↔ c ∈ candidates ∧ ∀ other ∈ candidates, other ≠ c → ¬ below other c = true := by
  unfold extremal
  rw [List.mem_filter, Bool.not_eq_true', List.any_eq_false]
  simp

structure OrderOn (below : α → α → Bool) (candidates : List α) : Prop where
  refl : ∀ a ∈ candidates, below a a = true
  trans : ∀ a ∈ candidates, ∀ b ∈ candidates, ∀ c ∈ candidates, below a b = true → below b c = true → below a c = true
  antisymm : ∀ a ∈ candidates, ∀ b ∈ candidates, below a b = true → below b a = true → a = b

omit [DecidableEq α] in
theorem OrderOn.filter {below : α → α → Bool} {candidates : List α} (h : OrderOn below candidates) (p : α → Bool) :
    OrderOn below (candidates.filter p) where
  refl a ha := h.refl a (List.mem_of_mem_filter ha)
  trans a ha b hb c hc := h.trans a (List.mem_of_mem_filter ha) b (List.mem_of_mem_filter hb) c (List.mem_of_mem_filter hc)
  antisymm a ha b hb := h.antisymm a (List.mem_of_mem_filter ha) b (List.mem_of_mem_filter hb)

variable {below : α → α → Bool} {candidates : List α}

theorem OrderOn.exists_extremal (h : OrderOn below candidates) {x : α} (hx : x ∈ candidates) :
    ∃ m ∈ extremal below candidates, below m x = true := by
  induction hn : (candidates.filter fun y => below y x).length using Nat.strongRecOn generalizing x with
  | _ n ih =>
    by_cases hext : x ∈ extremal below candidates
    · exact ⟨x, hext, h.refl x hx⟩
    · have hother : ∃ other ∈ candidates, other ≠ x ∧ below other x = true := by
        rw [mem_extremal] at hext
        push Not at hext
        exact hext hx
      obtain ⟨other, hother, hne, hbelow⟩ := hother
      have hsub : (candidates.filter fun y => below y other).Sublist (candidates.filter fun y => below y x) := by
        have : (candidates.filter fun y => below y other) =
            (candidates.filter fun y => below y x).filter fun y => below y other := by
          rw [List.filter_filter]
          refine List.filter_congr fun y hy => ?_
          by_cases hyo : below y other = true
          · simp [hyo, h.trans y hy other hother x hx hyo hbelow]
          · simp [hyo]
        rw [this]
        exact List.filter_sublist
      have hlt : (candidates.filter fun y => below y other).length < n := by
        rw [← hn]
        refine Nat.lt_of_le_of_ne hsub.length_le fun heq => ?_
        have hmem : x ∈ candidates.filter fun y => below y other := by
          rw [hsub.eq_of_length heq]
          exact List.mem_filter.mpr ⟨hx, h.refl x hx⟩
        exact hne (h.antisymm other hother x hx hbelow (List.mem_filter.mp hmem).2)
      obtain ⟨m, hm, hmo⟩ := ih _ hlt hother rfl
      exact ⟨m, hm, h.trans m (mem_extremal.1 hm).1 other hother x hx hmo hbelow⟩

theorem OrderOn.least_of_extremal_eq (h : OrderOn below candidates) {m : α} (hm : extremal below candidates = [m]) :
    m ∈ candidates ∧ ∀ x ∈ candidates, below m x = true := by
  refine ⟨(mem_extremal.1 (by rw [hm]; exact List.mem_singleton_self m)).1, fun x hx => ?_⟩
  obtain ⟨m', hm', hle⟩ := h.exists_extremal hx
  rw [hm, List.mem_singleton] at hm'
  rwa [← hm']

theorem OrderOn.extremal_eq_of_least (h : OrderOn below candidates) (hnd : candidates.Nodup) {m : α}
    (hm : m ∈ candidates) (hleast : ∀ x ∈ candidates, below m x = true) : extremal below candidates = [m] := by
  have hperm : (extremal below candidates).Perm [m] := by
    refine (List.perm_ext_iff_of_nodup (hnd.filter _) (List.nodup_singleton m)).mpr fun x => ?_
    change x ∈ extremal below candidates ↔ x ∈ [m]
    rw [mem_extremal, List.mem_singleton]
    constructor
    · rintro ⟨hx, hno⟩
      by_contra hne
      exact hno m hm (fun heq => hne heq.symm) (hleast x hx)
    · rintro rfl
      exact ⟨hm, fun other hother hne hbelow => hne (h.antisymm other hother x hm hbelow (hleast other hother))⟩
  exact List.perm_singleton.mp hperm

end Extremal

/-! ## Bounds -/

section Bounds
variable {α : Type}

/-- `j` is the least element of `all` above everything given. Read with the order turned round, the greatest below. -/
structure LeastAbove (below : α → α → Bool) (all given : List α) (j : α) : Prop where
  mem : j ∈ all
  above : ∀ l ∈ given, below l j = true
  least : ∀ u ∈ all, (∀ l ∈ given, below l u = true) → below j u = true

def boundsOf (below : α → α → Bool) (all given : List α) : List α := all.filter fun u => given.all fun l => below l u

variable {below : α → α → Bool} {all given : List α} {j : α}

theorem mem_boundsOf {u : α} : u ∈ boundsOf below all given ↔ u ∈ all ∧ ∀ l ∈ given, below l u = true := by
  rw [boundsOf, List.mem_filter, List.all_eq_true]

theorem OrderOn.flip (h : OrderOn below all) : OrderOn (fun a b => below b a) all where
  refl := h.refl
  trans a ha b hb c hc hab hbc := h.trans c hc b hb a ha hbc hab
  antisymm a ha b hb hab hba := h.antisymm a ha b hb hba hab

theorem OrderOn.extremal_boundsOf [DecidableEq α] (h : OrderOn below all) (hnodup : all.Nodup) :
    extremal below (boundsOf below all given) = [j] ↔ LeastAbove below all given j := by
  have hbounds : OrderOn below (boundsOf below all given) := h.filter _
  constructor
  · intro hj
    obtain ⟨hmem, hleast⟩ := hbounds.least_of_extremal_eq hj
    obtain ⟨hall, habove⟩ := mem_boundsOf.1 hmem
    exact ⟨hall, habove, fun u hu hub => hleast u (mem_boundsOf.2 ⟨hu, hub⟩)⟩
  · intro hj
    refine hbounds.extremal_eq_of_least (hnodup.filter _) (mem_boundsOf.2 ⟨hj.mem, hj.above⟩) fun u hu => ?_
    obtain ⟨hall, habove⟩ := mem_boundsOf.1 hu
    exact hj.least u hall habove

theorem OrderOn.length_extremal_boundsOf [DecidableEq α] (h : OrderOn below all) (hnodup : all.Nodup) :
    (extremal below (boundsOf below all given)).length = 1 ↔ ∃ j, LeastAbove below all given j := by
  rw [List.length_eq_one_iff]
  exact exists_congr fun j => h.extremal_boundsOf hnodup

theorem exists_bound (below : α → α → Bool) (hpairs : ∀ a ∈ all, ∀ b ∈ all, ∃ j, LeastAbove below all [a, b] j)
    (htrans : ∀ a ∈ all, ∀ b ∈ all, ∀ c ∈ all, below a b = true → below b c = true → below a c = true)
    (hne : given ≠ []) (hgiven : ∀ l ∈ given, l ∈ all) : ∃ u ∈ all, ∀ l ∈ given, below l u = true := by
  induction given with
  | nil => exact absurd rfl hne
  | cons l given ih =>
    obtain ⟨hl, hrest⟩ := List.forall_mem_cons.mp hgiven
    have hbound : ∃ u ∈ all, ∀ x ∈ given, below x u = true := by
      by_cases hempty : given = []
      · exact ⟨l, hl, fun x hx => absurd (hempty ▸ hx) List.not_mem_nil⟩
      · exact ih hempty hrest
    obtain ⟨u, hu, habove⟩ := hbound
    obtain ⟨j, hj⟩ := hpairs l hl u hu
    refine ⟨j, hj.mem, fun x hx => ?_⟩
    rcases List.mem_cons.mp hx with rfl | hx
    · exact hj.above x (by simp)
    · exact htrans x (hrest x hx) u hu j hj.mem (habove x hx) (hj.above u (by simp))

/-- **Least bounds of pairs give least bounds of lists.** -/
theorem OrderOn.exists_leastAbove (h : OrderOn below all)
    (hpairs : ∀ a ∈ all, ∀ b ∈ all, ∃ j, LeastAbove below all [a, b] j) {bottom : α}
    (hbottom : LeastAbove below all [] bottom) (hgiven : ∀ l ∈ given, l ∈ all) : ∃ j, LeastAbove below all given j := by
  induction given with
  | nil => exact ⟨bottom, hbottom⟩
  | cons l given ih =>
    obtain ⟨hl, hrest⟩ := List.forall_mem_cons.mp hgiven
    obtain ⟨i, hi⟩ := ih hrest
    obtain ⟨j, hj⟩ := hpairs l hl i hi.mem
    refine ⟨j, hj.mem, fun x hx => ?_, fun u hu hub => hj.least u hu fun x hx => ?_⟩
    · rcases List.mem_cons.mp hx with rfl | hx
      · exact hj.above x (by simp)
      · exact h.trans x (hrest x hx) i hi.mem j hj.mem (hi.above x hx) (hj.above i (by simp))
    · rcases List.mem_cons.mp hx with rfl | hx
      · exact hub x List.mem_cons_self
      · rw [List.mem_singleton.mp hx]
        exact hi.least u hu fun y hy => hub y (List.mem_cons_of_mem l hy)

theorem OrderOn.filter_below_eq (h : OrderOn below all) (hnodup : all.Nodup) :
    (all.filter fun m => all.all fun other => below m other) = [j] ↔ LeastAbove below all [] j := by
  have hmem : ∀ m, m ∈ (all.filter fun m => all.all fun other => below m other) ↔
      m ∈ all ∧ ∀ other ∈ all, below m other = true := by
    intro m
    rw [List.mem_filter, List.all_eq_true]
  constructor
  · intro hj
    obtain ⟨hall, hleast⟩ := (hmem j).mp (hj ▸ List.mem_singleton_self j)
    exact ⟨hall, List.forall_mem_nil _, fun u hu _ => hleast u hu⟩
  · intro hj
    refine List.perm_singleton.mp ((List.perm_ext_iff_of_nodup (hnodup.filter _) (List.nodup_singleton j)).mpr fun m => ?_)
    rw [hmem, List.mem_singleton]
    constructor
    · rintro ⟨hm, hleast⟩
      exact h.antisymm m hm j hj.mem (hleast j hj.mem) (hj.least m hm (List.forall_mem_nil _))
    · rintro rfl
      exact ⟨hj.mem, fun other hother => hj.least other hother (List.forall_mem_nil _)⟩

end Bounds
end OcorRuntime.FiniteOrder

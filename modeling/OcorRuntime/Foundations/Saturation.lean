import Mathlib.Algebra.BigOperators.Group.Finset.Basic
import Mathlib.Algebra.Order.BigOperators.Group.Finset
import OcorRuntime.Foundations.Dict

/-! Saturating a table of successor sets in place. A pass goes through the members
and adds to each row the rows of its entries; passes repeat until one changes
nothing. Rows only grow inside the member set, so the number of passes is bounded,
and what remains is transitive. -/
namespace OcorRuntime.Saturation
set_option autoImplicit false
set_option maxHeartbeats 250000

variable {κ : Type} [DecidableEq κ]

/-! ## Passes -/

def row (table : Dict κ (Finset κ)) (k : κ) : Finset κ := (table.get? k).getD ∅

def expanded (table : Dict κ (Finset κ)) (lower : κ) : Finset κ :=
  row table lower ∪ (row table lower).biUnion (row table)

/-- One pass over the members, in place; the flag tells whether a row changed. -/
def pass : List κ → Dict κ (Finset κ) → Bool → Bool × Dict κ (Finset κ)
  | [], table, changed => (changed, table)
  | lower :: rest, table, changed =>
    if expanded table lower = row table lower then pass rest table changed
    else pass rest (table.set lower (expanded table lower)) true

attribute [local grind =] pass

def saturate (members : List κ) : ℕ → Dict κ (Finset κ) → Dict κ (Finset κ)
  | 0, table => table
  | rounds + 1, table =>
    match pass members table false with
    | (true, next) => saturate members rounds next
    | (false, next) => next

/-! ## What a pass keeps -/

theorem row_set (table : Dict κ (Finset κ)) (k j : κ) (r : Finset κ) :
    row (table.set k r) j = if k = j then r else row table j := by
  unfold row
  rw [Dict.get?_set]
  split_ifs <;> rfl

theorem subset_expanded (table : Dict κ (Finset κ)) (k : κ) : row table k ⊆ expanded table k :=
  Finset.subset_union_left

def Within (members : List κ) (table : Dict κ (Finset κ)) : Prop := ∀ k, ∀ x ∈ row table k, x ∈ members

theorem expanded_within {members : List κ} {table : Dict κ (Finset κ)} (h : Within members table) (k : κ) :
    ∀ x ∈ expanded table k, x ∈ members := by
  intro x hx
  rcases Finset.mem_union.mp hx with hx | hx
  · exact h k x hx
  · obtain ⟨j, -, hx⟩ := Finset.mem_biUnion.mp hx
    exact h j x hx

theorem row_subset_set (table : Dict κ (Finset κ)) (lower k : κ) :
    row table k ⊆ row (table.set lower (expanded table lower)) k := by
  rw [row_set]
  split_ifs with h
  · rw [← h]
    exact subset_expanded table lower
  · exact Finset.Subset.refl _

theorem within_set {members : List κ} {table : Dict κ (Finset κ)} (h : Within members table) (lower : κ) :
    Within members (table.set lower (expanded table lower)) := by
  intro k x hx
  rw [row_set] at hx
  split_ifs at hx
  · exact expanded_within h lower x hx
  · exact h k x hx

theorem pass_within {members : List κ} : ∀ (todo : List κ) (table : Dict κ (Finset κ)) (changed : Bool),
    Within members table → Within members (pass todo table changed).2
  | [], _, _, h => h
  | lower :: rest, table, changed, h => by
      rw [pass]
      split_ifs
      · exact pass_within rest table changed h
      · exact pass_within rest _ true (within_set h lower)

theorem pass_subset : ∀ (todo : List κ) (table : Dict κ (Finset κ)) (changed : Bool) (k : κ),
    row table k ⊆ row (pass todo table changed).2 k
  | [], _, _, _ => Finset.Subset.refl _
  | lower :: rest, table, changed, k => by
      rw [pass]
      split_ifs
      · exact pass_subset rest table changed k
      · exact (row_subset_set table lower k).trans (pass_subset rest _ true k)

theorem pass_keys : ∀ (todo : List κ) (table : Dict κ (Finset κ)) (changed : Bool),
    (∀ k ∈ todo, k ∈ table.keys) → (pass todo table changed).2.keys = table.keys
  | [], _, _, _ => rfl
  | lower :: rest, table, changed, h => by
      have hlower : lower ∈ table.keys := h lower (List.mem_cons_self ..)
      rw [pass]
      split_ifs
      · exact pass_keys rest table changed fun k hk => h k (List.mem_cons_of_mem lower hk)
      · have hkeys : (table.set lower (expanded table lower)).keys = table.keys := by
          unfold Dict.keys Dict.set
          rw [Dict.put_keys]
          exact if_pos hlower
        rw [pass_keys rest _ true fun k hk => by rw [hkeys]; exact h k (List.mem_cons_of_mem lower hk), hkeys]

theorem pass_changed : ∀ (todo : List κ) (table : Dict κ (Finset κ)), (pass todo table true).1 = true
  | [], _ => rfl
  | lower :: rest, table => by
      rw [pass]
      split_ifs
      · exact pass_changed rest table
      · exact pass_changed rest _

theorem pass_unchanged : ∀ (todo : List κ) (table : Dict κ (Finset κ)), (pass todo table false).1 = false →
    (pass todo table false).2 = table ∧ ∀ lower ∈ todo, expanded table lower = row table lower
  | [], _, _ => ⟨rfl, by simp⟩
  | lower :: rest, table, h => by
      rw [pass] at h ⊢
      split_ifs at h ⊢ with hrow
      · obtain ⟨htable, hrest⟩ := pass_unchanged rest table h
        refine ⟨htable, fun k hk => ?_⟩
        rcases List.mem_cons.mp hk with rfl | hk
        · exact hrow
        · exact hrest k hk
      · rw [pass_changed] at h
        cases h

/-! ## The number of passes -/

def size (members : List κ) (table : Dict κ (Finset κ)) : ℕ := ∑ k ∈ members.toFinset, (row table k).card

theorem size_le {members : List κ} {table : Dict κ (Finset κ)} (h : Within members table) :
    size members table ≤ members.toFinset.card * members.toFinset.card := by
  refine Finset.sum_le_card_nsmul _ _ _ fun k _ => Finset.card_le_card fun x hx => ?_
  exact List.mem_toFinset.mpr (h k x hx)

theorem size_mono {members : List κ} {table table' : Dict κ (Finset κ)} (h : ∀ k, row table k ⊆ row table' k) :
    size members table ≤ size members table' :=
  Finset.sum_le_sum fun k _ => Finset.card_le_card (h k)

theorem size_lt_set {members : List κ} {table : Dict κ (Finset κ)} {lower : κ} (hm : lower ∈ members)
    (hne : expanded table lower ≠ row table lower) :
    size members table < size members (table.set lower (expanded table lower)) := by
  refine Finset.sum_lt_sum (fun k _ => Finset.card_le_card (row_subset_set table lower k))
    ⟨lower, List.mem_toFinset.mpr hm, ?_⟩
  rw [row_set, if_pos rfl]
  exact Finset.card_lt_card (Finset.ssubset_iff_subset_ne.mpr ⟨subset_expanded table lower, Ne.symm hne⟩)

theorem pass_size_lt {members : List κ} : ∀ (todo : List κ) (table : Dict κ (Finset κ)), (∀ k ∈ todo, k ∈ members) →
    (pass todo table false).1 = true → size members table < size members (pass todo table false).2
  | [], _, _, h => nomatch h
  | lower :: rest, table, hsub, h => by
      rw [pass] at h ⊢
      split_ifs at h ⊢ with hrow
      · exact pass_size_lt rest table (fun k hk => hsub k (List.mem_cons_of_mem lower hk)) h
      · exact lt_of_lt_of_le (size_lt_set (hsub lower (List.mem_cons_self ..)) hrow) (size_mono (pass_subset rest _ true))

def Closed (members : List κ) (table : Dict κ (Finset κ)) : Prop :=
  ∀ a ∈ members, ∀ b ∈ row table a, ∀ c ∈ row table b, c ∈ row table a

theorem saturate_closed {members : List κ} : ∀ (rounds : ℕ) (table : Dict κ (Finset κ)), Within members table →
    members.toFinset.card * members.toFinset.card < rounds + size members table →
    Closed members (saturate members rounds table)
  | 0, table, hw, hlt => by
      have := size_le hw
      omega
  | rounds + 1, table, hw, hlt => by
      rw [saturate]
      cases hp : pass members table false with
      | mk changed next =>
        have hnext : next = (pass members table false).2 := by rw [hp]
        cases changed with
        | true =>
          have hsize := pass_size_lt members table (fun _ hk => hk) (by rw [hp])
          rw [← hnext] at hsize
          exact saturate_closed rounds next (hnext ▸ pass_within members table false hw) (by omega)
        | false =>
          obtain ⟨htable, hrows⟩ := pass_unchanged members table (by rw [hp])
          rw [← hnext] at htable
          subst htable
          intro a ha b hb c hc
          rw [← hrows a ha]
          exact Finset.mem_union_right _ (Finset.mem_biUnion.mpr ⟨b, hb, hc⟩)

theorem saturate_induction {members : List κ} {P : Dict κ (Finset κ) → Prop}
    (hpass : ∀ table, P table → P (pass members table false).2) :
    ∀ (rounds : ℕ) (table : Dict κ (Finset κ)), P table → P (saturate members rounds table)
  | 0, _, h => h
  | rounds + 1, table, h => by
      have hnext := hpass table h
      rw [saturate]
      revert hnext
      rcases pass members table false with ⟨_ | _, next⟩
      · exact fun hnext => hnext
      · exact fun hnext => saturate_induction hpass rounds next hnext

end OcorRuntime.Saturation

import Mathlib.Data.List.Induction

/-! Digests chained over a list: the digest at a place is taken of the digest before it and
of one item. A head fixes the items below it, unless two different inputs of one place
have the same digest. -/
namespace OcorRuntime
set_option autoImplicit false
set_option maxHeartbeats 250000

section HashChain
variable {α δ : Type} (link : ℕ → δ → α → δ)

/-- The digest after the items, the first of which is at place `n`. -/
def chainHead : ℕ → δ → List α → δ
  | _, d, [] => d
  | n, d, a :: items => chainHead (n + 1) (link n d a) items

/-- Two different inputs of one place with the same digest, met by the two lists. -/
def ChainCollision (n : ℕ) (d : δ) (items items' : List α) : Prop :=
  ∃ i a a', items[i]? = some a ∧ items'[i]? = some a' ∧
    (chainHead link n d (items.take i), a) ≠ (chainHead link n d (items'.take i), a') ∧
    link (n + i) (chainHead link n d (items.take i)) a = link (n + i) (chainHead link n d (items'.take i)) a'

variable {link}

theorem chainHead_append (n : ℕ) (d : δ) (first second : List α) :
    chainHead link n d (first ++ second) = chainHead link (n + first.length) (chainHead link n d first) second := by
  induction first generalizing n d with
  | nil => simp [chainHead]
  | cons a first ih =>
    rw [List.cons_append, chainHead, chainHead, ih, List.length_cons]
    congr 1
    omega

theorem ChainCollision.append {n : ℕ} {d : δ} {items items' : List α} (h : ChainCollision link n d items items')
    (rest rest' : List α) : ChainCollision link n d (items ++ rest) (items' ++ rest') := by
  obtain ⟨i, a, a', ha, ha', hne, hsame⟩ := h
  have hi := (List.getElem?_eq_some_iff.mp ha).1
  have hi' := (List.getElem?_eq_some_iff.mp ha').1
  refine ⟨i, a, a', ?_, ?_, ?_, ?_⟩
  · rwa [List.getElem?_append_left hi]
  · rwa [List.getElem?_append_left hi']
  · rwa [List.take_append_of_le_length (Nat.le_of_lt hi), List.take_append_of_le_length (Nat.le_of_lt hi')]
  · rwa [List.take_append_of_le_length (Nat.le_of_lt hi), List.take_append_of_le_length (Nat.le_of_lt hi')]

/-- **A head fixes the chain below it**, up to a collision. -/
theorem chain_eq_or_collision {n : ℕ} {d : δ} {items items' : List α} (hlength : items.length = items'.length)
    (h : chainHead link n d items = chainHead link n d items') :
    items = items' ∨ ChainCollision link n d items items' := by
  induction items using List.reverseRecOn generalizing items' with
  | nil => exact .inl (List.length_eq_zero_iff.mp hlength.symm).symm
  | append_singleton items a ih =>
    cases items' using List.reverseRecOn with
    | nil => simp at hlength
    | append_singleton items' a' _ =>
      have hlen : items.length = items'.length := by simpa using hlength
      rw [chainHead_append, chainHead_append, ← hlen] at h
      by_cases hlast : (chainHead link n d items, a) = (chainHead link n d items', a')
      · obtain ⟨hhead, rfl⟩ := Prod.mk.inj hlast
        rcases ih hlen hhead with rfl | hcollision
        · exact .inl rfl
        · exact .inr (hcollision.append _ _)
      · refine .inr ⟨items.length, a, a', by simp, by simp [hlen], ?_, ?_⟩
        · rw [List.take_left, hlen, List.take_left]
          exact hlast
        · rw [List.take_left]
          conv_rhs => rw [hlen, List.take_left]
          rw [← hlen]
          exact h

end HashChain
end OcorRuntime

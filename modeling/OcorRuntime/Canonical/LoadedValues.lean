import OcorRuntime.Canonical.FixedPoint
import OcorRuntime.Canonical.StandardReading

/-! What `json.loads` returns is a value Python can hold: every object in it has distinct keys. -/
namespace OcorRuntime.StandardJson
open Canonical
set_option autoImplicit false
set_option maxHeartbeats 250000
set_option maxRecDepth 120000

theorem keyed_list {xs : List PyValue} (h : ∀ x ∈ xs, Keyed x) : Keyed (.list xs) := by
  rw [Keyed]
  exact h

theorem keyed_dictOf {pairs : List (PyStr × PyValue)} (h : ∀ p ∈ pairs, Keyed p.2) : Keyed (dictOf pairs) := by
  rw [dictOf, Keyed]
  refine ⟨Dict.nodup_foldl_put _ _ _ List.nodup_nil, fun e he => ?_⟩
  rcases Dict.mem_foldl_put (fun p : PyStr × PyValue => MappingKey.str p.1) Prod.snd pairs he with he | ⟨p, hp, rfl⟩
  · cases he
  · exact h p hp

theorem keyed_number {s : PyStr} {r : PyValue × PyStr} (h : loadNumber s = .ok r) : Keyed r.1 := by
  have hunsigned : ∀ neg s, loadUnsigned neg s = .ok r → Keyed r.1 := by
    intro neg s h
    unfold loadUnsigned at h
    split at h
    · cases h
    · split at h
      split at h
      split_ifs at h
      · obtain ⟨v, hv, heq⟩ := map_eq_ok h
        rw [← heq]
        unfold loadInteger at hv
        split at hv
        · cases hv
        · cases hv
          simp [Keyed]
      · cases h
        simp [Keyed]
  cases s with
  | nil => cases h
  | cons c s =>
    rw [loadNumber] at h
    split_ifs at h
    · exact hunsigned true s h
    · exact hunsigned false (c :: s) h

/-- What each part of the reader returns. -/
structure ReadsKeyed (fuel : ℕ) : Prop where
  once : ∀ s r, loadOnce fuel s = .ok r → Keyed r.1
  items : ∀ s r, loadItems fuel s = .ok r → ∀ x ∈ r.1, Keyed x
  members : ∀ s r, loadMembers fuel s = .ok r → ∀ p ∈ r.1, Keyed p.2

theorem loadOnce_keyed {fuel : ℕ} (ih : ReadsKeyed fuel) (s : PyStr) (r : PyValue × PyStr)
    (h : loadOnce (fuel + 1) s = .ok r) : Keyed r.1 := by
  cases s with
  | nil => cases h
  | cons c s =>
    rw [loadOnce] at h
    split_ifs at h with h1 h2 h3 h4 h5 h6 h7 h8 h9
    · obtain ⟨r', -, heq⟩ := map_eq_ok h
      rw [← heq]
      simp [Keyed]
    · split at h
      · cases h
      · split_ifs at h with hd
        · cases h
          exact keyed_dictOf fun p hp => absurd hp List.not_mem_nil
        · obtain ⟨r', hr', heq⟩ := map_eq_ok h
          rw [← heq]
          exact keyed_dictOf (ih.members _ r' hr')
    · split at h
      · cases h
      · split_ifs at h with hd
        · cases h
          exact keyed_list fun x hx => absurd hx List.not_mem_nil
        · obtain ⟨r', hr', heq⟩ := map_eq_ok h
          rw [← heq]
          exact keyed_list (ih.items _ r' hr')
    · cases h
      simp [Keyed]
    · cases h
      simp [Keyed]
    · cases h
      simp [Keyed]
    · cases h
      simp [Keyed]
    · cases h
      simp [Keyed]
    · cases h
      simp [Keyed]
    · exact keyed_number h

theorem loadItems_keyed {fuel : ℕ} (ih : ReadsKeyed fuel) (s : PyStr) (r : List PyValue × PyStr)
    (h : loadItems (fuel + 1) s = .ok r) : ∀ x ∈ r.1, Keyed x := by
  rw [loadItems] at h
  obtain ⟨⟨value, rest⟩, hvalue, h⟩ := bindJson_eq_ok.1 h
  have hfirst := ih.once _ _ hvalue
  dsimp only at h hfirst
  split at h
  · split_ifs at h
    · cases h
      exact List.forall_mem_singleton.mpr hfirst
    · obtain ⟨⟨values, rest'⟩, hvalues, h⟩ := bindJson_eq_ok.1 h
      cases h
      exact List.forall_mem_cons.mpr ⟨hfirst, ih.items _ _ hvalues⟩
  · cases h

theorem loadMembers_keyed {fuel : ℕ} (ih : ReadsKeyed fuel) (s : PyStr) (r : List (PyStr × PyValue) × PyStr)
    (h : loadMembers (fuel + 1) s = .ok r) : ∀ p ∈ r.1, Keyed p.2 := by
  rw [loadMembers.eq_def] at h
  cases s with
  | nil => cases h
  | cons c s =>
    dsimp only at h
    split_ifs at h
    obtain ⟨⟨key, rest⟩, -, h⟩ := bindJson_eq_ok.1 h
    dsimp only at h
    split at h
    · split_ifs at h
      obtain ⟨⟨value, rest'⟩, hvalue, h⟩ := bindJson_eq_ok.1 h
      have hfirst := ih.once _ _ hvalue
      dsimp only at h hfirst
      split at h
      · split_ifs at h
        · cases h
          exact List.forall_mem_singleton.mpr hfirst
        · obtain ⟨⟨pairs, rest''⟩, hpairs, h⟩ := bindJson_eq_ok.1 h
          cases h
          exact List.forall_mem_cons.mpr ⟨hfirst, ih.members _ _ hpairs⟩
      · cases h
    · cases h

theorem readsKeyed : ∀ fuel, ReadsKeyed fuel
  | 0 => by
      refine ⟨?_, ?_, ?_⟩ <;> intro s r h
      · rw [loadOnce] at h
        cases h
      · rw [loadItems] at h
        cases h
      · rw [loadMembers] at h
        cases h
  | fuel + 1 => by
      have ih := readsKeyed fuel
      exact ⟨loadOnce_keyed ih, loadItems_keyed ih, loadMembers_keyed ih⟩

theorem keyed_loads {s : PyStr} {v : PyValue} (h : loads s = .ok v) : Keyed v := by
  obtain ⟨rest, hscan, -⟩ := loads_eq_ok h
  exact (readsKeyed _).once _ _ hscan

end OcorRuntime.StandardJson

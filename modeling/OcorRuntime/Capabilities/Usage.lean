import OcorRuntime.Capabilities.Delegation

/-! Usage limits over whole runs. The counters are kept per lease identifier, and
delegation does not share them. -/
namespace OcorRuntime.Capabilities
set_option autoImplicit false
set_option maxHeartbeats 250000

namespace CapabilityAuthority

/-! ## Usage limits -/

/-- The counters agree with the uses so far and stay within the limits. -/
structure Counted (a : CapabilityAuthority) (used : List PyStr) : Prop where
  count : ∀ {id l}, a.leases.get? id = some l → a.uses.get? id = some (used.count id)
  unknown : ∀ {id}, a.leases.get? id = none → used.count id = 0
  limit : ∀ {id l m}, a.leases.get? id = some l → l.maxUses = some m → (used.count id : ℤ) ≤ m

theorem Counted.revised {a mid : CapabilityAuthority} {used : List PyStr} (h : a.Counted used)
    (hr : Revised a.leases mid.leases) (hu : mid.uses = a.uses) : mid.Counted used := by
  constructor
  · intro id l hl
    obtain ⟨l', hl', -, -⟩ := hr.backward hl
    rw [hu]
    exact h.count hl'
  · intro id hl
    cases hl' : a.leases.get? id with
    | none => exact h.unknown hl'
    | some l' =>
      obtain ⟨l, hl'', -⟩ := hr.forward hl'
      rw [hl] at hl''
      cases hl''
  · intro id l m hl hm
    obtain ⟨l', hl', hterms, -⟩ := hr.backward hl
    rw [hterms] at hm
    exact h.limit hl' hm

theorem Counted.same {mid after : CapabilityAuthority} {used : List PyStr} (h : mid.Counted used)
    (hs : mid.Same after) : after.Counted used := by
  constructor
  · rw [hs.1, hs.2]
    exact h.count
  · rw [hs.1]
    exact h.unknown
  · rw [hs.1]
    exact h.limit

theorem Counted.registers {mid after : CapabilityAuthority} {used : List PyStr} {stop : StopEpochAuthority}
    {lease : CapabilityLease} (h : mid.Counted used) (hr : mid.Registers stop lease after) : after.Counted used := by
  obtain ⟨hi, rfl⟩ := hr
  have hzero := h.unknown hi.new
  constructor
  · intro id l hl
    dsimp only at hl ⊢
    rw [Dict.get?_set] at hl ⊢
    split_ifs at hl ⊢ with he
    · rw [← he, hzero]
    · exact h.count hl
  · intro id hl
    dsimp only at hl
    rw [Dict.get?_set] at hl
    split_ifs at hl with he
    exact h.unknown hl
  · intro id l m hl hm
    dsimp only at hl
    rw [Dict.get?_set] at hl
    split_ifs at hl with he
    · cases hl
      rw [← he, hzero]
      exact le_of_lt (lease.uses_positive m hm)
    · exact h.limit hl hm

theorem Counted.consumes {mid after : CapabilityAuthority} {used : List PyStr} {stop : StopEpochAuthority}
    {r : AuthorizeRequest} {t : Instant} {lease : CapabilityLease} {uses : ℕ} (h : mid.Counted used)
    (hauth : mid.Authorized stop r t lease uses) (hleases : after.leases = mid.leases)
    (huses : after.uses = mid.uses.set r.leaseId (uses + 1)) : after.Counted (used ++ [r.leaseId]) := by
  have hcount := h.count hauth.ledger
  rw [hauth.counted] at hcount
  obtain rfl := Option.some.inj hcount
  constructor
  · intro id l hl
    rw [hleases] at hl
    rw [huses, Dict.get?_set, List.count_append, List.count_singleton]
    by_cases he : r.leaseId = id
    · subst he
      simp
    · simp only [he, if_false, beq_iff_eq, Nat.add_zero]
      exact h.count hl
  · intro id hl
    rw [hleases] at hl
    have hne : r.leaseId ≠ id := by
      rintro rfl
      rw [hauth.ledger] at hl
      cases hl
    rw [List.count_append, List.count_singleton, h.unknown hl]
    simp [hne]
  · intro id l m hl hm
    rw [hleases] at hl
    rw [List.count_append, List.count_singleton]
    by_cases he : r.leaseId = id
    · subst he
      rw [hauth.ledger] at hl
      cases hl
      have := hauth.limit m hm
      simp only [beq_self_eq_true, if_true]
      omega
    · simp only [he, beq_iff_eq, if_false, Nat.add_zero]
      exact h.limit hl hm

theorem counted_step (a : CapabilityAuthority) (used : List PyStr) (input : StopEpochAuthority × Call)
    (h : a.Counted used) : (a.step input).Counted (used ++ a.consumedUse input) := by
  obtain ⟨mid, hrev, huses, hcases⟩ := a.step_cases input
  have hmid := h.revised hrev huses
  rcases hcases with ⟨hs, hc⟩ | ⟨⟨lease, hr⟩, hc⟩ | ⟨r, t, lease, uses, hauth, hl, hu, hc⟩
  · rw [hc, List.append_nil]
    exact hmid.same hs
  · rw [hc, List.append_nil]
    exact hmid.registers hr
  · rw [hc]
    exact hmid.consumes hauth hl hu

/-- **Usage limits are kept per lease.** Over every run, the number of successful consuming authorizations of a
lease never exceeds its own `max_uses`; a delegated lease is counted under its own identifier and limit. -/
theorem uses_within_limit (issuer : PyStr) (start : CapabilityAuthority) (hstart : create issuer = .ok start)
    (inputs : List (StopEpochAuthority × Call)) (leaseId : PyStr) (lease : CapabilityLease) (m : ℤ)
    (hl : (run step start inputs).leases.get? leaseId = some lease) (hm : lease.maxUses = some m) :
    ((trace step consumedUse start inputs).count leaseId : ℤ) ≤ m := by
  have hempty : start.Counted [] := by
    unfold create at hstart
    split_ifs at hstart
    cases hstart
    constructor <;> simp
  have hrun : (run step start inputs).Counted ([] ++ trace step consumedUse start inputs) :=
    trace_induction (P := fun _ _ => True) (fun a used input h _ => counted_step a used input h) hempty
      (allSteps_of_forall (fun _ _ _ => trivial) start)
  rw [List.nil_append] at hrun
  exact hrun.limit hl hm

theorem uses_within_limit_siteDelegation :
    ∃ lease, (run step ⟨py "i", .empty, .empty, none, 0, 0⟩ siteDelegation).leases.get? (py "P") = some lease ∧
      lease.maxUses = some 1 ∧
      ((trace step consumedUse ⟨py "i", .empty, .empty, none, 0, 0⟩ siteDelegation).count (py "P") : ℤ) ≤ 1 := by
  have hlimit : ((run step ⟨py "i", .empty, .empty, none, 0, 0⟩ siteDelegation).leases.get? (py "P")).map
      (fun l => l.maxUses) = some (some 1) := by decide
  obtain ⟨lease, hl, hm⟩ := Option.map_eq_some_iff.mp hlimit
  exact ⟨lease, hl, hm, uses_within_limit (py "i") _ rfl siteDelegation (py "P") lease 1 hl hm⟩

/-- A lease with one use and a lease delegated from it: the two are honoured twice in all. -/
theorem delegation_multiplies_uses :
    ((run step ⟨py "i", .empty, .empty, none, 0, 0⟩ siteDelegation).leases.get? (py "P")).bind (fun l => l.maxUses) =
        some 1 ∧
      ((run step ⟨py "i", .empty, .empty, none, 0, 0⟩ siteDelegation).leases.get? (py "C")).bind
        (fun l => l.parentLeaseId) = some (py "P") ∧
      trace step consumedUse ⟨py "i", .empty, .empty, none, 0, 0⟩
        (siteDelegation ++ [(idleStop, .authorize openDoor), (idleStop, .authorize openDoor)]) = [py "C", py "C"] := by
  decide

end CapabilityAuthority
end OcorRuntime.Capabilities

import OcorRuntime.Capabilities.Ledger

/-! Delegation chains of any length: an authorization never exceeds what any ancestor
itself covers, and a recorded revocation ends the lease and everything delegated from it. -/
namespace OcorRuntime.Capabilities
set_option autoImplicit false
set_option maxHeartbeats 250000

namespace CapabilityAuthority

/-! ## Delegation chains -/

/-- The identifiers a lease's chain of parents leads through, as far as the ledger knows them. -/
inductive AncestorId (leases : Dict PyStr CapabilityLease) : CapabilityLease → PyStr → Prop
  | parent {l : CapabilityLease} {id : PyStr} (h : l.parentLeaseId = some id) : AncestorId leases l id
  | further {l p : CapabilityLease} {id ancestor : PyStr} (h : l.parentLeaseId = some id) (hp : leases.get? id = some p)
      (ha : AncestorId leases p ancestor) : AncestorId leases l ancestor

theorem requireActiveAncestry_parent {leases : Dict PyStr CapabilityLease} {t : Instant} {depth : ℕ}
    {lease : CapabilityLease} {seen : List PyStr} {id : PyStr}
    (h : requireActiveAncestry leases t depth lease seen = .ok ()) (hp : lease.parentLeaseId = some id) :
    ∃ p depth' seen', leases.get? id = some p ∧ p.IsActive t ∧
      requireActiveAncestry leases t depth' p seen' = .ok () := by
  cases depth with
  | zero => cases h
  | succ depth =>
    rw [requireActiveAncestry] at h
    split_ifs at h
    rw [hp] at h
    dsimp only at h
    cases hl : leases.get? id with
    | none => rw [hl] at h; cases h
    | some p =>
      rw [hl] at h
      dsimp only at h
      split_ifs at h with hactive
      exact ⟨p, depth, _, rfl, hactive, h⟩

theorem ancestor_allows {leases : Dict PyStr CapabilityLease} (hw : WellDelegated leases) {t : Instant}
    {lease : CapabilityLease} {ancestor : PyStr} (ha : AncestorId leases lease ancestor) {id : PyStr}
    (hl : leases.get? id = some lease) {depth : ℕ} {seen : List PyStr}
    (h : requireActiveAncestry leases t depth lease seen = .ok ()) {capability resource : PyStr}
    (hc : lease.Covers capability resource) :
    ∃ p, leases.get? ancestor = some p ∧ p.IsActive t ∧ p.Allows capability resource t none := by
  induction ha generalizing id depth seen with
  | @parent l pid hp =>
    obtain ⟨p, -, -, hpl, hactive, -⟩ := requireActiveAncestry_parent h hp
    obtain ⟨p', hpl', hatt⟩ := hw.parent hl hp
    rw [hpl] at hpl'
    cases hpl'
    exact ⟨p, hpl, hactive, by simp, hactive, hatt.covers hc⟩
  | @further l p pid ancestor hp hpl ha ih =>
    obtain ⟨p', depth', seen', hpl', -, h'⟩ := requireActiveAncestry_parent h hp
    rw [hpl] at hpl'
    cases hpl'
    obtain ⟨q, hq, hatt⟩ := hw.parent hl hp
    rw [hpl] at hq
    cases hq
    exact ih hpl h' (hatt.covers hc)

theorem authorized_of_ok {a after : CapabilityAuthority} {stop : StopEpochAuthority} {r : AuthorizeRequest}
    {lease : CapabilityLease} (h : a.authorize stop r = (.ok lease, after)) :
    ∃ t uses, (a.sweepSupersededLeases stop).2.Authorized stop r t lease uses ∧
      after.leases = (a.sweepSupersededLeases stop).2.leases := by
  rcases a.authorize_cases stop r with ⟨e, he, -⟩ | ⟨t, lease', uses, hok, hauth, hafter⟩
  · rw [h] at he
    cases he
  · rw [h] at hok hafter
    cases hok
    refine ⟨t, uses, hauth, ?_⟩
    simp only at hafter
    rw [hafter]
    split_ifs <;> rfl

/-- **No delegation chain exceeds an ancestor.** Over every run of the authority, with any answers of its
stop controller: when an authorization succeeds, every lease its chain of parents leads through is in the
ledger, is active at that instant, and itself allows that capability on that resource. -/
theorem authorize_within_every_ancestor (issuer : PyStr) (start : CapabilityAuthority) (hstart : create issuer = .ok start)
    (inputs : List (StopEpochAuthority × Call)) (stop : StopEpochAuthority) (r : AuthorizeRequest) (t : Instant)
    (ht : requireAware r.instant "at" = .ok t) (lease : CapabilityLease) (after : CapabilityAuthority)
    (hok : (run step start inputs).authorize stop r = (.ok lease, after)) (ancestor : PyStr)
    (ha : AncestorId after.leases lease ancestor) :
    ∃ p, after.leases.get? ancestor = some p ∧ p.IsActive t ∧ p.Allows r.capability r.resource t none := by
  obtain ⟨t', uses, hauth, hleases⟩ := authorized_of_ok hok
  obtain rfl : t' = t := Except.ok.inj (hauth.instant.symm.trans ht)
  have hw := (wellDelegated_run hstart inputs).revised ((run step start inputs).sweep_revised stop).1
  rw [hleases] at ha ⊢
  exact ancestor_allows hw ha hauth.ledger hauth.ancestry hauth.allows.2.2

def idleStop : StopEpochAuthority := ⟨0, [], fun _ => .ok ()⟩

/-- A lease on all sites and one delegated from it on the cells of a site. -/
def siteDelegation : List (StopEpochAuthority × Call) :=
  [(idleStop, .issue {
      subject := py "s", capabilities := [py "door:*"], resources := [py "site/*"], issuedAt := .utc 0,
      expiresAt := some (.utc 100), leaseId := some (py "P"), maxUses := some 1, uuid := py "u" }),
    (idleStop, .issue {
      subject := py "s", capabilities := [py "door:open"], resources := [py "site/a/*"], issuedAt := .utc 0,
      ttl := some 50, leaseId := some (py "C"), parentLeaseId := some (py "P"), uuid := py "v" })]

def openDoor : AuthorizeRequest where
  leaseId := py "C"
  capability := py "door:open"
  resource := py "site/a/1"
  instant := .utc 7
  consume := true

theorem authorize_within_every_ancestor_siteDelegation :
    ∃ lease after, (run step ⟨py "i", .empty, .empty, none, 0, 0⟩ siteDelegation).authorize idleStop openDoor =
        (.ok lease, after) ∧ AncestorId after.leases lease (py "P") ∧
      ∃ p, after.leases.get? (py "P") = some p ∧ p.IsActive 7 ∧ p.Allows (py "door:open") (py "site/a/1") 7 none := by
  have hparent : ((run step ⟨py "i", .empty, .empty, none, 0, 0⟩ siteDelegation).authorize idleStop openDoor).1.toOption.map
      (fun l => l.parentLeaseId) = some (some (py "P")) := by decide
  rcases hx : (run step ⟨py "i", .empty, .empty, none, 0, 0⟩ siteDelegation).authorize idleStop openDoor with
    ⟨e | lease, after⟩
  · rw [hx] at hparent
    cases hparent
  · rw [hx] at hparent
    have ha : AncestorId after.leases lease (py "P") := .parent (Option.some.inj hparent)
    exact ⟨lease, after, rfl, ha, authorize_within_every_ancestor (py "i") _ rfl siteDelegation idleStop openDoor 7
      rfl lease after hx (py "P") ha⟩

/-! ## Revocation is final -/

theorem revokedAt_step {id : PyStr} {t : Instant} (a : CapabilityAuthority) (input : StopEpochAuthority × Call)
    (h : ∃ l, a.leases.get? id = some l ∧ l.revokedAt = some t) :
    ∃ l, (a.step input).leases.get? id = some l ∧ l.revokedAt = some t := by
  obtain ⟨l, hl, ht⟩ := h
  obtain ⟨mid, hrev, -, hcases⟩ := a.step_cases input
  obtain ⟨l', hl', -, hkept⟩ := hrev.forward hl
  rcases hcases with ⟨hs, -⟩ | ⟨⟨lease, hi, hr⟩, -⟩ | ⟨-, -, -, -, -, hs, -⟩
  · exact ⟨l', by rw [hs.1]; exact hl', hkept t ht⟩
  · refine ⟨l', ?_, hkept t ht⟩
    have hne : lease.leaseId ≠ id := by
      rintro rfl
      rw [hi.new] at hl'
      cases hl'
    rw [hr]
    exact (Dict.get?_set_of_ne _ _ hne).trans hl'
  · exact ⟨l', by rw [hs]; exact hl', hkept t ht⟩

theorem revokedAt_run {id : PyStr} {t : Instant} (a : CapabilityAuthority) (inputs : List (StopEpochAuthority × Call))
    (h : ∃ l, a.leases.get? id = some l ∧ l.revokedAt = some t) :
    ∃ l, (run step a inputs).leases.get? id = some l ∧ l.revokedAt = some t :=
  run_induction revokedAt_step h inputs

theorem authorize_refused_after {a : CapabilityAuthority} (hw : WellDelegated a.leases) {id : PyStr} {revoked : Instant}
    (hr : ∃ l, a.leases.get? id = some l ∧ l.revokedAt = some revoked) {stop : StopEpochAuthority}
    {r : AuthorizeRequest} {t : Instant} (ht : requireAware r.instant "at" = .ok t) (hle : revoked ≤ t)
    {lease : CapabilityLease} {after : CapabilityAuthority} (hok : a.authorize stop r = (.ok lease, after)) :
    r.leaseId ≠ id ∧ ¬ AncestorId after.leases lease id := by
  obtain ⟨t', uses, hauth, hleases⟩ := authorized_of_ok hok
  obtain rfl : t' = t := Except.ok.inj (hauth.instant.symm.trans ht)
  obtain ⟨l, hl, hlr⟩ := hr
  have hsweep := (a.sweep_revised stop).1
  obtain ⟨l', hl', -, hkept⟩ := hsweep.forward hl
  have hinactive : ¬ l'.IsActive t' := by
    rintro ⟨-, -, hlt⟩
    exact absurd (hlt revoked (hkept revoked hlr)) (not_lt.mpr hle)
  constructor
  · rintro rfl
    have := hauth.ledger
    rw [hl'] at this
    cases this
    exact hinactive hauth.allows.2.1
  · intro ha
    rw [hleases] at ha
    obtain ⟨p, hp, hactive, -⟩ := ancestor_allows (hw.revised hsweep) ha hauth.ledger hauth.ancestry hauth.allows.2.2
    rw [hl'] at hp
    cases hp
    exact hinactive hactive

theorem revoke_eq_ok {a after : CapabilityAuthority} {stop : StopEpochAuthority} {leaseId : PyStr} {instant : DateTime}
    {lease : CapabilityLease} (h : a.revoke stop leaseId instant = (.ok lease, after)) :
    ∃ t revoked, requireAware instant "at" = .ok t ∧ lease.revokedAt = some revoked ∧
      after.leases.get? leaseId = some lease ∧
      ∃ l, (a.sweepSupersededLeases stop).2.leases.get? leaseId = some l ∧ revoked = l.revokedAt.getD t := by
  rcases a.revoke_cases stop leaseId instant with ⟨e, he, -⟩ | ⟨t, ht, hr⟩
  · rw [h] at he
    cases he
  · rw [h] at hr
    unfold revokeSwept at hr
    cases hl : subscript (a.sweepSupersededLeases stop).2.leases leaseId with
    | error e => rw [hl] at hr; cases hr
    | ok l =>
      have hget := subscript_eq_ok.1 hl
      rw [hl] at hr
      dsimp only at hr
      cases hrev : l.revokedAt with
      | some s =>
        rw [if_pos (by rw [hrev]; rfl)] at hr
        cases hr
        exact ⟨t, s, ht, hrev, hget, lease, hget, by rw [hrev]; rfl⟩
      | none =>
        rw [if_neg (by rw [hrev]; simp)] at hr
        cases hreplace : l.replaceRevokedAt t with
        | error e => rw [hreplace] at hr; cases hr
        | ok revoked =>
          rw [hreplace] at hr
          cases hr
          refine ⟨t, t, ht, (CapabilityLease.replaceRevokedAt_eq_ok hreplace).2, ?_, l, hget, by rw [hrev]; rfl⟩
          exact Dict.get?_set_self ..

/-- **Revocation is final from the instant it records.** After a `revoke` that returned normally, no later
authorization of that lease, or of a lease delegated from it directly or transitively, succeeds at or after
the `revoked_at` of the lease it returned; that is the instant given, unless the lease already carried one. -/
theorem revoke_final (issuer : PyStr) (start : CapabilityAuthority) (hstart : create issuer = .ok start)
    (before later : List (StopEpochAuthority × Call)) (stop : StopEpochAuthority) (leaseId : PyStr) (instant : DateTime)
    (lease : CapabilityLease) (after : CapabilityAuthority)
    (hrevoke : (run step start before).revoke stop leaseId instant = (.ok lease, after)) :
    ∃ t revoked, requireAware instant "at" = .ok t ∧ lease.revokedAt = some revoked ∧
      (∃ l, ((run step start before).sweepSupersededLeases stop).2.leases.get? leaseId = some l ∧
        revoked = l.revokedAt.getD t) ∧
      ∀ stop' r u granted final, requireAware r.instant "at" = .ok u → revoked ≤ u →
        (run step after later).authorize stop' r = (.ok granted, final) →
        r.leaseId ≠ leaseId ∧ ¬ AncestorId final.leases granted leaseId := by
  obtain ⟨t, revoked, ht, hrevoked, hget, hl⟩ := revoke_eq_ok hrevoke
  refine ⟨t, revoked, ht, hrevoked, hl, ?_⟩
  intro stop' r u granted final hu hle hok
  have hafter : after = (run step start before).step (stop, .revoke leaseId instant) := by
    rw [step, hrevoke]
  have hw : WellDelegated (run step after later).leases := by
    have := wellDelegated_run hstart (before ++ (stop, .revoke leaseId instant) :: later)
    rwa [run_append, run_cons, ← hafter] at this
  exact authorize_refused_after hw (revokedAt_run after later ⟨lease, hget, hrevoked⟩) hu hle hok

def singleLease : StopEpochAuthority × Call :=
  (idleStop, .issue {
    subject := py "s", capabilities := [py "*"], resources := [py "*"], issuedAt := .utc 0,
    expiresAt := some (.utc 200), leaseId := some (py "L"), uuid := py "u" })

theorem revoke_final_singleLease :
    ∃ lease after, (run step ⟨py "i", .empty, .empty, none, 0, 0⟩ [singleLease]).revoke idleStop (py "L") (.utc 100) =
        (.ok lease, after) ∧ ∃ t revoked, requireAware (.utc 100) "at" = .ok t ∧ lease.revokedAt = some revoked ∧
      (∃ l, ((run step ⟨py "i", .empty, .empty, none, 0, 0⟩ [singleLease]).sweepSupersededLeases idleStop).2.leases.get?
          (py "L") = some l ∧ revoked = l.revokedAt.getD t) ∧
      ∀ stop' r u granted final, requireAware r.instant "at" = .ok u → revoked ≤ u →
        (run step after []).authorize stop' r = (.ok granted, final) →
        r.leaseId ≠ py "L" ∧ ¬ AncestorId final.leases granted (py "L") := by
  have hisOk : ((run step ⟨py "i", .empty, .empty, none, 0, 0⟩ [singleLease]).revoke idleStop (py "L") (.utc 100)).1.isOk =
      true := by decide
  rcases hx : (run step ⟨py "i", .empty, .empty, none, 0, 0⟩ [singleLease]).revoke idleStop (py "L") (.utc 100) with
    ⟨e | lease, after⟩
  · rw [hx] at hisOk
    cases hisOk
  · exact ⟨lease, after, rfl, revoke_final (py "i") _ rfl [singleLease] [] idleStop (py "L") (.utc 100) lease after hx⟩

/-- A second revocation with an earlier instant returns normally and changes nothing: the lease revoked at 100 and
then "revoked" at 50 is still honoured at 60. -/
theorem earlier_revocation_not_recorded :
    let first := (run step ⟨py "i", .empty, .empty, none, 0, 0⟩ [singleLease, (idleStop, .revoke (py "L") (.utc 100))])
    let second := first.revoke idleStop (py "L") (.utc 50)
    second.1.isOk = true ∧
      (second.2.authorize idleStop {
        leaseId := py "L", capability := py "c", resource := py "r", instant := .utc 60 }).1.isOk = true := by
  decide

end CapabilityAuthority
end OcorRuntime.Capabilities

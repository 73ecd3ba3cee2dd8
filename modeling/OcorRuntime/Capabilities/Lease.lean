import Mathlib.Data.Finset.Basic
import OcorRuntime.Base.Time
import OcorRuntime.Foundations.Wildcard

/-! Capability leases (`c6_capabilities.py`). The terms of a lease never change once
it is issued; revocation is the one field that does. Both records carry what
`__post_init__` checks, so that a lease that would be refused cannot be built. -/
namespace OcorRuntime.Capabilities
set_option autoImplicit false
set_option maxHeartbeats 250000

/-! ## Wildcard scopes -/

def star : CodePoint := codePoint 0x2A
def colon : CodePoint := codePoint 0x3A
def slash : CodePoint := codePoint 0x2F

def CapabilityMatches (grant requested : PyStr) : Prop := Wildcard.Matches star colon grant requested

def ResourceMatches (scope resource : PyStr) : Prop := Wildcard.Matches star slash scope resource

def ResourceScopeContains (parent child : PyStr) : Prop := Wildcard.Contains star slash parent child

instance (grant requested : PyStr) : Decidable (CapabilityMatches grant requested) :=
  inferInstanceAs (Decidable (Wildcard.Matches star colon grant requested))

instance (scope resource : PyStr) : Decidable (ResourceMatches scope resource) :=
  inferInstanceAs (Decidable (Wildcard.Matches star slash scope resource))

instance (parent child : PyStr) : Decidable (ResourceScopeContains parent child) :=
  inferInstanceAs (Decidable (Wildcard.Contains star slash parent child))

theorem CapabilityMatches.trans {parent child requested : PyStr} (hp : CapabilityMatches parent child)
    (hc : CapabilityMatches child requested) : CapabilityMatches parent requested :=
  Wildcard.Matches.trans (by decide) hp hc

theorem ResourceScopeContains.resourceMatches {parent child resource : PyStr} (hp : ResourceScopeContains parent child)
    (hc : ResourceMatches child resource) : ResourceMatches parent resource :=
  Wildcard.Contains.matches (by decide) hp hc

/-! ## Leases -/

/-- What a lease grants, fixed at its issue. -/
structure LeaseTerms where
  leaseId : PyStr
  subject : PyStr
  capabilities : Finset PyStr
  resources : Finset PyStr
  notBefore : Instant
  expiresAt : Instant
  issuedAt : Instant
  issuer : PyStr
  parentLeaseId : Option PyStr
  maxUses : Option ℤ
  stopEpoch : Option ℤ
  identified : leaseId ≠ [] ∧ subject ≠ [] ∧ issuer ≠ []
  granted : capabilities ≠ ∅ ∧ resources ≠ ∅
  window : notBefore < expiresAt
  issued_first : issuedAt ≤ notBefore
  uses_positive : ∀ m ∈ maxUses, 0 < m
  epoch_nonneg : ∀ e ∈ stopEpoch, 0 ≤ e

structure CapabilityLease extends LeaseTerms where
  revokedAt : Option Instant
  revoked_after_issue : ∀ t ∈ revokedAt, issuedAt ≤ t

def LeaseTerms.Covers (lease : LeaseTerms) (capability resource : PyStr) : Prop :=
  (∃ grant ∈ lease.capabilities, CapabilityMatches grant capability) ∧
    ∃ scope ∈ lease.resources, ResourceMatches scope resource

instance (lease : LeaseTerms) (capability resource : PyStr) : Decidable (lease.Covers capability resource) :=
  inferInstanceAs (Decidable (_ ∧ _))

namespace CapabilityLease

/-- `CapabilityLease(...)` with `__post_init__`, for a lease not revoked yet and instants known to be aware. -/
def create (leaseId subject : PyStr) (capabilities resources : Finset PyStr) (notBefore expiresAt issuedAt : Instant)
    (issuer : PyStr) (parentLeaseId : Option PyStr) (maxUses stopEpoch : Option ℤ) :
    Except PyError CapabilityLease :=
  if h1 : leaseId ≠ [] ∧ subject ≠ [] ∧ issuer ≠ [] then
    if h2 : capabilities ≠ ∅ ∧ resources ≠ ∅ then
      if h3 : notBefore < expiresAt then
        if h4 : issuedAt ≤ notBefore then
          if h5 : ∀ m ∈ maxUses, 0 < m then
            if h6 : ∀ e ∈ stopEpoch, 0 ≤ e then
              .ok {
                leaseId, subject, capabilities, resources, notBefore, expiresAt, issuedAt, issuer, parentLeaseId,
                maxUses, stopEpoch, identified := h1, granted := h2, window := h3, issued_first := h4,
                uses_positive := h5, epoch_nonneg := h6, revokedAt := none, revoked_after_issue := by simp }
            else .error ⟨.valueError, "stop_epoch must be a non-negative integer", []⟩
          else .error ⟨.valueError, "max_uses must be positive", []⟩
        else .error ⟨.temporalGuardViolation, "lease cannot become active before it is issued", []⟩
      else .error ⟨.temporalGuardViolation, "lease not_before must precede expires_at", []⟩
    else .error ⟨.valueError, "a capability lease requires capabilities and resources", []⟩
  else .error ⟨.valueError, "lease_id, subject and issuer are required", []⟩

/-- `replace(lease, revoked_at=instant)`. -/
def replaceRevokedAt (lease : CapabilityLease) (instant : Instant) : Except PyError CapabilityLease :=
  if h : lease.issuedAt ≤ instant then
    .ok { lease with revokedAt := some instant, revoked_after_issue := by simpa using h }
  else .error ⟨.temporalGuardViolation, "lease cannot be revoked before issuance", []⟩

/-- `is_active`, at an aware instant. -/
def IsActive (lease : CapabilityLease) (instant : Instant) : Prop :=
  lease.notBefore ≤ instant ∧ instant < lease.expiresAt ∧ ∀ t ∈ lease.revokedAt, instant < t

instance (lease : CapabilityLease) (instant : Instant) : Decidable (lease.IsActive instant) :=
  inferInstanceAs (Decidable (_ ∧ _ ∧ _))

/-- `allows`, at an aware instant. -/
def Allows (lease : CapabilityLease) (capability resource : PyStr) (instant : Instant) (subject : Option PyStr) : Prop :=
  (∀ s ∈ subject, s = lease.subject) ∧ lease.IsActive instant ∧ lease.Covers capability resource

instance (lease : CapabilityLease) (capability resource : PyStr) (instant : Instant) (subject : Option PyStr) :
    Decidable (lease.Allows capability resource instant subject) :=
  inferInstanceAs (Decidable (_ ∧ _ ∧ _))

/-! ## What the constructors establish -/

theorem create_eq_ok {leaseId subject : PyStr} {capabilities resources : Finset PyStr}
    {notBefore expiresAt issuedAt : Instant} {issuer : PyStr} {parentLeaseId : Option PyStr}
    {maxUses stopEpoch : Option ℤ} {lease : CapabilityLease}
    (h : create leaseId subject capabilities resources notBefore expiresAt issuedAt issuer parentLeaseId maxUses
      stopEpoch = .ok lease) :
    lease.leaseId = leaseId ∧ lease.parentLeaseId = parentLeaseId ∧ lease.stopEpoch = stopEpoch ∧
      lease.maxUses = maxUses ∧ lease.revokedAt = none := by
  unfold create at h
  split_ifs at h
  cases h
  exact ⟨rfl, rfl, rfl, rfl, rfl⟩

theorem replaceRevokedAt_eq_ok {lease revoked : CapabilityLease} {instant : Instant}
    (h : lease.replaceRevokedAt instant = .ok revoked) :
    revoked.toLeaseTerms = lease.toLeaseTerms ∧ revoked.revokedAt = some instant := by
  unfold replaceRevokedAt at h
  split_ifs at h
  cases h
  exact ⟨rfl, rfl⟩

end CapabilityLease
end OcorRuntime.Capabilities

import OcorRuntime.Base.Time
import OcorRuntime.Foundations.Sha256

/-! Governance faults and capability leases of the kernel (`kernel/governance.py`,
with the identifier checks of `kernel/canonical.py`). The records carry what their
`__post_init__` checks; the constructors check it in the source's order. -/
namespace OcorRuntime.Kernel
set_option autoImplicit false
set_option maxHeartbeats 250000

/-! ## Faults -/

inductive FailureClass
  | transient
  | permanent
  | policyDenied
  | poison
deriving DecidableEq

inductive FaultReason
  | authorityBindingMismatch
  | authorityExpired
  | authorityNotYetValid
  | authorityRevoked
  | authorityScopeMismatch
  | authorityUnsigned
  | controlPlaneUnavailable
  | evidenceInvalid
  | fencingTokenStale
  | governanceRecordInvalid
  | leaseAlreadyConsumed
  | leaseContextMismatch
  | leaseExpired
  | leaseInvalid
  | leaseRevoked
  | poisonEvent
  | policyDenied
  | projectionNotReady
  | provenanceIncomplete
  | staleContext
  | stopEpochMismatch
deriving DecidableEq

/-- `_REASON_FAILURE_CLASSES`. -/
def FaultReason.failureClass : FaultReason → FailureClass
  | authorityBindingMismatch | authorityExpired | authorityNotYetValid | authorityRevoked | authorityScopeMismatch
  | fencingTokenStale | leaseAlreadyConsumed | leaseContextMismatch | leaseExpired | leaseRevoked | policyDenied
  | stopEpochMismatch => .policyDenied
  | authorityUnsigned | controlPlaneUnavailable | evidenceInvalid | governanceRecordInvalid | leaseInvalid
  | provenanceIncomplete => .permanent
  | projectionNotReady | staleContext => .transient
  | poisonEvent => .poison

structure GovernanceFault where
  reasonCode : FaultReason
  correlationId : PyStr
  causationId : Option PyStr
  title : String
deriving DecidableEq

def GovernanceFault.retryable (f : GovernanceFault) : Bool := f.reasonCode.failureClass = .transient

/-- `CORRELATION_ZERO`, for records refused before they supply a correlation id. -/
def correlationZero : PyStr := py "00000000-0000-4000-8000-000000000001"

def recordInvalid (title : String) : GovernanceFault := ⟨.governanceRecordInvalid, correlationZero, none, title⟩

def leaseInvalid (title : String) : GovernanceFault := ⟨.leaseInvalid, correlationZero, none, title⟩

/-! ## Field checks -/

def isHex (c : CodePoint) : Bool := (0x30 ≤ c.val && c.val ≤ 0x39) || (0x61 ≤ c.val && c.val ≤ 0x66)

/-- A lowercase SHA-256 URN. -/
def IsDigest (value : PyStr) : Prop :=
  value.length = 75 ∧ value.take 11 = py "urn:sha256:" ∧ (value.drop 11).all isHex

instance (value : PyStr) : Decidable (IsDigest value) := inferInstanceAs (Decidable (_ ∧ _ ∧ _))

theorem isHex_hexDigit {d : ℕ} (h : d < 16) : isHex (hexDigit d) = true := by
  have hval := hexDigit_val h
  unfold isHex
  split_ifs at hval <;> simp only [Bool.or_eq_true, Bool.and_eq_true, decide_eq_true_eq] <;> omega

theorem isDigest_hexdigest (data : Bytes) : IsDigest (py "urn:sha256:" ++ Sha256.hexdigest data) := by
  have hscheme : (py "urn:sha256:").length = 11 := rfl
  refine ⟨?_, ?_, ?_⟩
  · rw [List.length_append, hscheme, Sha256.hexdigest_length]
  · rw [← hscheme, List.take_left]
  · rw [← hscheme, List.drop_left, List.all_eq_true]
    intro c hc
    obtain ⟨d, hd, rfl⟩ := mem_hex hc
    exact isHex_hexDigit hd

theorem isDigest_text {value : PyStr} (h : IsDigest value) : value ≠ [] ∧ Scalar value := by
  obtain ⟨hlength, hscheme, hhex⟩ := h
  constructor
  · rintro rfl
    cases hlength
  · intro c hc
    rw [← List.take_append_drop 11 value, hscheme] at hc
    rcases List.mem_append.mp hc with hc | hc
    · have hplain : Scalar (py "urn:sha256:") := by decide
      exact hplain c hc
    · have hdigit := List.all_eq_true.mp hhex c hc
      simp only [isHex, Bool.or_eq_true, Bool.and_eq_true, decide_eq_true_eq] at hdigit
      unfold IsSurrogate
      omega

/-- The text of a UUID in canonical form: hyphenated groups of 8, 4, 4, 4 and 12 lowercase digits. -/
def isUuidText (value : PyStr) : Bool :=
  value.length == 36 &&
    value.zipIdx.all fun (c, i) => if i ∈ [8, 13, 18, 23] then c.val == 0x2D else isHex c

/-- `_validate_identifier`: canonical and of the RFC 4122 variant, whose digit also makes it non-nil. -/
def IsIdentifier (value : PyStr) : Prop :=
  isUuidText value ∧ value[19]?.any fun c => [0x38, 0x39, 0x61, 0x62].contains c.val

instance (value : PyStr) : Decidable (IsIdentifier value) := inferInstanceAs (Decidable (_ ∧ _))

/-- `_string`. -/
def string (field : String) (value : PyStr) : Except GovernanceFault (PLift (value ≠ [])) :=
  require (value ≠ []) (recordInvalid (field ++ " is required"))

/-- `_digest`. -/
def digest (field : String) (value : PyStr) : Except GovernanceFault (PLift (IsDigest value)) := do
  let _ ← string field value
  require (IsDigest value) (recordInvalid (field ++ " is not a SHA-256 URN"))

/-- `_aware`; what the callers go on with is the instant. -/
def aware (field : String) (value : DateTime) : Except GovernanceFault Instant :=
  match value.zone with
  | .offset o => .ok (value.wall - o)
  | .naive | .undefined => .error (recordInvalid (field ++ " must be aware UTC"))

/-! ## Leases -/

structure CapabilityLease where
  leaseId : PyStr
  capabilityId : PyStr
  effectivePrincipalId : PyStr
  delegationRef : PyStr
  actionInstanceId : PyStr
  governedContextDigest : PyStr
  gatePackageDigest : PyStr
  stopEpoch : ℤ
  fencingToken : ℤ
  issuedAt : Instant
  expiresAt : Instant
  identified : leaseId ≠ [] ∧ capabilityId ≠ [] ∧ effectivePrincipalId ≠ [] ∧ actionInstanceId ≠ []
  bound : IsDigest delegationRef ∧ IsDigest governedContextDigest ∧ IsDigest gatePackageDigest
  counted : 0 ≤ stopEpoch ∧ 1 ≤ fencingToken
  /-- At most five seconds, and not empty. -/
  window : issuedAt < expiresAt ∧ expiresAt - issuedAt ≤ 5000000

/-- The call a lease is presented for. Its `at` is no trusted time, and no check reads it. -/
structure LeaseExpectation where
  capabilityId : PyStr
  effectivePrincipalId : PyStr
  delegationRef : PyStr
  actionInstanceId : PyStr
  governedContextDigest : PyStr
  gatePackageDigest : PyStr
  stopEpoch : ℤ
  fencingToken : ℤ
  emissionAttempt : ℤ
  instant : Instant
  correlationId : PyStr
  causationId : Option PyStr
  identified : capabilityId ≠ [] ∧ effectivePrincipalId ≠ [] ∧ actionInstanceId ≠ []
  bound : IsDigest delegationRef ∧ IsDigest governedContextDigest ∧ IsDigest gatePackageDigest
  counted : 0 ≤ stopEpoch ∧ 1 ≤ fencingToken ∧ 1 ≤ emissionAttempt
  traced : IsIdentifier correlationId ∧ ∀ c ∈ causationId, IsIdentifier c

/-- `CapabilityLease(...)` with `__post_init__`. -/
def CapabilityLease.create (leaseId capabilityId effectivePrincipalId delegationRef actionInstanceId
    governedContextDigest gatePackageDigest : PyStr) (stopEpoch fencingToken : ℤ) (issuedAt expiresAt : DateTime) :
    Except GovernanceFault CapabilityLease := do
  let ⟨h1⟩ ← string "lease_id" leaseId
  let ⟨h2⟩ ← string "capability_id" capabilityId
  let ⟨h3⟩ ← string "effective_principal_id" effectivePrincipalId
  let ⟨h4⟩ ← string "action_instance_id" actionInstanceId
  let ⟨h5⟩ ← digest "delegation_ref" delegationRef
  let ⟨h6⟩ ← digest "governed_context_digest" governedContextDigest
  let ⟨h7⟩ ← digest "gate_package_digest" gatePackageDigest
  let ⟨h8⟩ ← require (0 ≤ stopEpoch) (leaseInvalid "stop_epoch is invalid")
  let ⟨h9⟩ ← require (1 ≤ fencingToken) (leaseInvalid "fencing_token is invalid")
  let issued ← aware "issued_at" issuedAt
  let expires ← aware "expires_at" expiresAt
  let ⟨h10⟩ ← require (issued < expires) (leaseInvalid "lease validity window is empty")
  let ⟨h11⟩ ← require (expires - issued ≤ 5000000) (leaseInvalid "lease TTL exceeds five seconds")
  return {
    leaseId, capabilityId, effectivePrincipalId, delegationRef, actionInstanceId, governedContextDigest,
    gatePackageDigest, stopEpoch, fencingToken, issuedAt := issued, expiresAt := expires,
    identified := ⟨h1, h2, h3, h4⟩, bound := ⟨h5, h6, h7⟩, counted := ⟨h8, h9⟩, window := ⟨h10, h11⟩ }

/-- `LeaseExpectation(...)` with `__post_init__`. -/
def LeaseExpectation.create (capabilityId effectivePrincipalId delegationRef actionInstanceId governedContextDigest
    gatePackageDigest : PyStr) (stopEpoch fencingToken emissionAttempt : ℤ) (at_ : DateTime) (correlationId : PyStr)
    (causationId : Option PyStr) : Except GovernanceFault LeaseExpectation := do
  let ⟨h1⟩ ← string "capability_id" capabilityId
  let ⟨h2⟩ ← string "effective_principal_id" effectivePrincipalId
  let ⟨h3⟩ ← string "action_instance_id" actionInstanceId
  let ⟨h4⟩ ← digest "delegation_ref" delegationRef
  let ⟨h5⟩ ← digest "governed_context_digest" governedContextDigest
  let ⟨h6⟩ ← digest "gate_package_digest" gatePackageDigest
  let ⟨h7⟩ ← require (0 ≤ stopEpoch ∧ 1 ≤ fencingToken ∧ 1 ≤ emissionAttempt)
    (leaseInvalid "lease expectation counters invalid")
  let instant ← aware "at" at_
  -- the source goes on with the text of the identifier's own error
  let ⟨h8⟩ ← require (IsIdentifier correlationId ∧ ∀ c ∈ causationId, IsIdentifier c)
    (leaseInvalid "lease observability binding invalid: ")
  return {
    capabilityId, effectivePrincipalId, delegationRef, actionInstanceId, governedContextDigest, gatePackageDigest,
    stopEpoch, fencingToken, emissionAttempt, instant, correlationId, causationId,
    identified := ⟨h1, h2, h3⟩, bound := ⟨h4, h5, h6⟩, counted := h7, traced := h8 }

end OcorRuntime.Kernel

import OcorRuntime.Security.Grant

/-! Verification of a delegation chain at the policy boundary
(`OpaPolicyDecisionProvider._verify_grant_chain`). The loop compares each grant with its
parent only; that every grant narrows all those before it, and that the request lies in
each, is proved by induction over the chain. -/
namespace OcorRuntime.Security
open Kernel
set_option autoImplicit false
set_option maxHeartbeats 250000

/-! ## Requests -/

structure AuthenticatedPrincipal where
  principalId : PyStr
  actorChain : List PyStr
  authenticatedAt : Instant
  expiresAt : Instant

structure PolicyRequest where
  principal : AuthenticatedPrincipal
  action : PyStr
  resource : PyStr
  governedContext : GovernedContext
  governedContextDigest : PyStr

structure CapabilityInvocation where
  capabilityId : PyStr
  capabilityVersion : PyStr
  effectClass : OperationClass
  riskClass : RiskClass

/-- `_VerifiedBundleSnapshot`. -/
structure VerifiedBundleSnapshot where
  policyId : PyStr
  digest : PyStr
  rules : List PyStr
  notBefore : Instant
  expiresAt : Instant

/-- What the provider keeps between calls. -/
structure ProviderState where
  delegationRevocations : Dict PyStr SignedDelegationRevocation
  /-- The content address of the only grant allowed to carry a nonce. -/
  grantNonces : Dict PyStr PyStr
  snapshot : Option VerifiedBundleSnapshot

/-- What one verification meets at the boundary. -/
structure Boundary where
  /-- `workload_key_thumbprint` of the mTLS context. -/
  keyThumbprint : Except PyError PyStr
  /-- `_now()`. -/
  instant : Instant

/-- A refusal whose message starts with the correlation id. -/
def refusal (reason message : String) (request : PolicyRequest) : PyError :=
  controlError reason ("correlation_id=%s " ++ message) [.text request.governedContext.correlationId]

/-! ## One grant -/

/-- The comparison of `_require_narrowing`, instants included only when the rest holds. -/
def narrowed (parent child : SignedDelegation) : Except PyError Bool := do
  if child.capabilityId = parent.capabilityId ∧ child.capabilityVersion = parent.capabilityVersion ∧
      child.resourceScope = parent.resourceScope ∧ child.tenantId = parent.tenantId ∧
      child.organizationId = parent.organizationId ∧ child.policyBundleDigest = parent.policyBundleDigest ∧
      child.domains ⊆ parent.domains ∧ child.compartments ⊆ parent.compartments ∧
      child.permittedPurposes ⊆ parent.permittedPurposes ∧ child.effectCeiling.value ≤ parent.effectCeiling.value ∧
      child.riskCeiling.value ≤ parent.riskCeiling.value ∧ child.maxChainDepth.value < parent.maxChainDepth.value then
    let childStart ← canonicalUtc child.notBefore
    let parentStart ← canonicalUtc parent.notBefore
    if parentStart ≤ childStart then
      let childEnd ← canonicalUtc child.expiresAt
      let parentEnd ← canonicalUtc parent.expiresAt
      return decide (childEnd ≤ parentEnd)
    else return false
  else return false

/-- `_require_narrowing`. -/
def requireNarrowing (parent child : SignedDelegation) (parentDigest : PyStr) (request : PolicyRequest) :
    Except PyError Unit := do
  refuseIf (child.parentGrantDigest ≠ some parentDigest)
    (refusal "DELEGATION_CHAIN_INVALID" "parent_grant_digest does not link" request)
  refuseIf (parent.redelegationAllowed = false)
    (refusal "DELEGATION_REDELEGATION_FORBIDDEN" "parent forbids redelegation" request)
  let narrower ← narrowed parent child
  refuseIf (narrower = false) (refusal "DELEGATION_AMPLIFICATION" "grant widens its parent" request)

/-- `_require_grant_covers`. -/
def requireGrantCovers (request : PolicyRequest) (grant : SignedDelegation) (capability : CapabilityInvocation)
    (snapshot : VerifiedBundleSnapshot) : Except PyError Unit := do
  let gcs := request.governedContext
  refuseIf (request.resource ≠ grant.resourceScope ∨ gcs.tenantId ≠ grant.tenantId ∨
      gcs.organizationId ≠ grant.organizationId ∨ gcs.domainId ∉ grant.domains ∨ ¬ gcs.compartments ⊆ grant.compartments)
    (refusal "DELEGATION_SCOPE_MISMATCH" "grant does not cover the governed scope" request)
  refuseIf (gcs.purpose ∉ grant.permittedPurposes)
    (refusal "DELEGATION_PURPOSE_MISMATCH" "grant does not cover the purpose" request)
  refuseIf ((capability.capabilityId, capability.capabilityVersion) ≠ (grant.capabilityId, grant.capabilityVersion))
    (refusal "DELEGATION_CAPABILITY_MISMATCH" "grant does not cover the capability" request)
  refuseIf (grant.effectCeiling.value < capability.effectClass.value ∨ grant.riskCeiling.value < capability.riskClass.value)
    (refusal "DELEGATION_CEILING_EXCEEDED" "call exceeds the grant ceilings" request)
  refuseIf (grant.policyBundleDigest ≠ snapshot.digest)
    (refusal "DELEGATION_POLICY_BINDING_MISMATCH" "grant is bound to another policy bundle" request)

/-- What the loop of `_verify_grant_chain` holds fixed. -/
structure ChainCheck where
  signer : PublicKey
  request : PolicyRequest
  capability : CapabilityInvocation
  snapshot : VerifiedBundleSnapshot
  /-- The revoked grant ids, as read under the lock. -/
  revoked : List PyStr
  instant : Instant

namespace ChainCheck

/-- The link of a grant to the one before it. -/
def requireParent (c : ChainCheck) (previous : Option (SignedDelegation × PyStr)) (grant : SignedDelegation) :
    Except PyError Unit :=
  match previous with
  | none =>
    refuseIf (grant.parentGrantDigest ≠ none)
      (refusal "DELEGATION_CHAIN_INVALID" "root grant names a parent" c.request)
  | some (parent, parentDigest) => requireNarrowing parent grant parentDigest c.request

/-- `instant < not_before or instant >= expires_at`. -/
def requireWindow (c : ChainCheck) (grant : SignedDelegation) : Except PyError Unit := do
  let notBefore ← canonicalUtc grant.notBefore
  refuseIf (c.instant < notBefore)
    (refusal "DELEGATION_EXPIRED" "delegation is outside its validity window" c.request)
  let expiresAt ← canonicalUtc grant.expiresAt
  refuseIf (expiresAt ≤ c.instant)
    (refusal "DELEGATION_EXPIRED" "delegation is outside its validity window" c.request)

/-- One turn of the loop: grant `index`, with `remaining` grants from it to the end. -/
def checkGrant (c : ChainCheck) (index remaining : ℕ) (previous : Option (SignedDelegation × PyStr))
    (grant : SignedDelegation) : Except PyError PyStr := do
  let digest ← verifyDelegationSignature grant c.signer
  refuseIf (grant.grantId ∈ c.revoked) (refusal "DELEGATION_REVOKED" "grant is revoked" c.request)
  let chain := c.request.governedContext.actorChain
  refuseIf ((some grant.grantorPrincipal, some grant.granteePrincipal) ≠ (chain[index]?, chain[index + 1]?))
    (refusal "DELEGATION_BINDING_MISMATCH" "grant does not bind the actor chain" c.request)
  c.requireParent previous grant
  refuseIf (grant.maxChainDepth.value < remaining)
    (refusal "DELEGATION_CHAIN_TOO_DEEP" "chain exceeds max_chain_depth" c.request)
  c.requireWindow grant
  requireGrantCovers c.request grant c.capability c.snapshot
  return digest

/-- `for index, grant in enumerate(grants)`: the digests, in order. -/
def checkGrants (c : ChainCheck) :
    (index : ℕ) → (previous : Option (SignedDelegation × PyStr)) → List SignedDelegation → Except PyError (List PyStr)
  | _, _, [] => .ok []
  | index, previous, grant :: rest => do
    let digest ← c.checkGrant index (rest.length + 1) previous grant
    let digests ← c.checkGrants (index + 1) (some (grant, digest)) rest
    return digest :: digests

end ChainCheck

/-! ## The chain -/

/-- The checks before the lock is taken: authority, capability, actor chain, policy pin and workload key. -/
def openChain (signer : Option PublicKey) (b : Boundary) (request : PolicyRequest) (grants : List SignedDelegation)
    (capability : Option CapabilityInvocation) (snapshot : VerifiedBundleSnapshot) :
    Except PyError (PublicKey × CapabilityInvocation × PyStr) := do
  let signer ← orRaise signer
    (refusal "DELEGATION_BINDING_MISMATCH" "delegation authority is not configured" request)
  refuseIf (grants.isEmpty = true) (refusal "DELEGATION_INVALID" "grant chain is empty" request)
  let capability ← orRaise capability
    (refusal "DELEGATION_INVALID" "delegated call declares no capability" request)
  let chain := request.governedContext.actorChain
  refuseIf (chain.length ≠ grants.length + 1 ∨ chain.getLast? ≠ some request.principal.principalId)
    (refusal "DELEGATION_BINDING_MISMATCH" "actor_chain is not the delegation chain to the principal" request)
  refuseIf (request.governedContext.policyBundleDigest ≠ snapshot.digest)
    (refusal "DELEGATION_POLICY_BINDING_MISMATCH" "policy pin differs" request)
  let keyThumbprint ← b.keyThumbprint
  return (signer, capability, keyThumbprint)

/-- The checks between the two locked sections: the loop, then the workload key of the last grant. -/
def checkChain (c : ChainCheck) (keyThumbprint : PyStr) (grants : List SignedDelegation) :
    Except PyError (List PyStr) := do
  let digests ← c.checkGrants 0 none grants
  refuseIf (grants.getLast?.map (·.confirmationKeyThumbprint) ≠ some keyThumbprint)
    (refusal "DELEGATION_KEY_BINDING_MISMATCH" "grant is not confirmed to the presenting workload key" c.request)
  return digests

/-- The first locked section: the revoked grant ids. -/
def readRevoked : Op ProviderState PyError (List PyStr) := do
  let state ← Op.read
  return state.delegationRevocations.keys

/-- The second locked section: no nonce may name two grants, here or in an earlier chain. -/
def claimNonces (request : PolicyRequest) (grants : List SignedDelegation) (digests : List PyStr) :
    Op ProviderState PyError Unit := do
  let state ← Op.read
  Op.lift (refuseIf (∃ claim ∈ grants.zip digests, (state.grantNonces.get? claim.1.nonce).getD claim.2 ≠ claim.2)
    (refusal "DELEGATION_REPLAY" "grant nonce was already used" request))
  Op.lift (refuseIf (¬ (grants.map (·.nonce)).Nodup)
    (refusal "DELEGATION_REPLAY" "grant nonce repeats in the chain" request))
  Op.update fun state =>
    { state with
      grantNonces := (grants.zip digests).foldl (fun nonces claim => nonces.set claim.1.nonce claim.2) state.grantNonces }

/-- `min(values)`. -/
def minimum : List Instant → Except PyError Instant
  | [] => .error ⟨.valueError, "min() iterable argument is empty", []⟩
  | t :: rest => .ok (rest.foldl min t)

/-- The chain's content address and its earliest expiry. -/
def closeChain (grants : List SignedDelegation) (digests : List PyStr) : Except PyError (PyStr × Instant) := do
  let expiries ← grants.mapM fun grant => canonicalUtc grant.expiresAt
  let expiry ← minimum expiries
  return (sha256Urn (utf8Encode ((py ":").intercalate digests)), expiry)

/-- `_verify_grant_chain`. -/
def verifyGrantChain (signer : Option PublicKey) (b : Boundary) (request : PolicyRequest)
    (grants : List SignedDelegation) (capability : Option CapabilityInvocation) (snapshot : VerifiedBundleSnapshot) :
    Op ProviderState PyError (PyStr × Instant) := do
  let (signer, capability, keyThumbprint) ← Op.lift (openChain signer b request grants capability snapshot)
  let revoked ← readRevoked
  let c : ChainCheck := { signer, request, capability, snapshot, revoked, instant := b.instant }
  let digests ← Op.lift (checkChain c keyThumbprint grants)
  claimNonces request grants digests
  Op.lift (closeChain grants digests)

end OcorRuntime.Security

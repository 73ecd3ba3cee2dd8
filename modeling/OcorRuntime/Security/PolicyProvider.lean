import Mathlib.Logic.Function.Basic
import OcorRuntime.Security.GrantChain

/-! `OpaPolicyDecisionProvider.evaluate` and `apply_revocation`, called by any number of
threads. A thread moves from one locked section to the next; what it reads outside the
provider (the clock, the mTLS context, the live modules, the answer of the policy service)
comes with the move. -/
namespace OcorRuntime.Security
open Canonical Kernel
set_option autoImplicit false
set_option maxHeartbeats 250000

/-! ## What a call reads outside -/

structure Seen where
  /-- `_now()`. -/
  now : Instant
  /-- `_now()` of the bundle-window check before the live modules are fetched. -/
  windowNow : Instant
  /-- `_now()` of the bundle-window check that bounds the decision. -/
  boundNow : Instant
  /-- `_mtls_deadline`. -/
  mtlsDeadline : Except PyError Instant
  /-- `workload_key_thumbprint`. -/
  keyThumbprint : Except PyError PyStr
  /-- Whether the live modules are the ones of the snapshot, or what fetching and comparing them raises. -/
  freshModules : Except PyError Unit
  /-- The boolean result of the policy service with its provenance checked, or what asking for it raises. -/
  answer : Except PyError Bool

/-! ## The stages of a call -/

structure EvaluateCall where
  request : PolicyRequest
  delegation : Option (List SignedDelegation)
  capability : Option CapabilityInvocation

def EvaluateCall.grants (call : EvaluateCall) : List SignedDelegation := call.delegation.getD []

/-- `AuthenticatedPrincipal.require_valid`. -/
def AuthenticatedPrincipal.requireValid (p : AuthenticatedPrincipal) (instant : Instant) : Except PyError Unit :=
  refuseIf (instant < p.authenticatedAt ∨ p.expiresAt ≤ instant)
    (controlError "IDENTITY_EXPIRED" "identity is outside its validity window" [])

/-- `_require_bundle_window`. -/
def requireBundleWindow (request : PolicyRequest) (snapshot : VerifiedBundleSnapshot) (now : Instant) :
    Except PyError Instant := do
  refuseIf (now < snapshot.notBefore ∨ snapshot.expiresAt ≤ now)
    (refusal "POLICY_BUNDLE_WINDOW_INVALID" "installed policy bundle is outside its window" request)
  return snapshot.expiresAt

/-- `_require_fresh_bundle`. -/
def requireFreshBundle (request : PolicyRequest) (snapshot : Option VerifiedBundleSnapshot) (seen : Seen) :
    Except PyError VerifiedBundleSnapshot := do
  let snapshot ← orRaise snapshot (refusal "POLICY_UNAVAILABLE" "no policy installed" request)
  let _ ← requireBundleWindow request snapshot seen.windowNow
  seen.freshModules
  return snapshot

/-- The actor chain against the authenticated actors: exactly the principal, or a chain that ends in them. -/
def bindActors (call : EvaluateCall) : Except PyError Unit :=
  let request := call.request
  let chain := request.governedContext.actorChain
  let authenticated := request.principal.actorChain
  match call.delegation with
  | none => do
    refuseIf (authenticated ≠ [request.principal.principalId])
      (refusal "DELEGATION_REQUIRED" "authenticated actors require the signed delegation grant chain" request)
    refuseIf (chain ≠ [request.principal.principalId])
      (refusal "IDENTITY_BINDING_MISMATCH" "actor_chain is not bound to the authenticated principal" request)
  | some _ =>
    refuseIf (chain.length < authenticated.length ∨ chain.drop (chain.length - authenticated.length) ≠ authenticated)
      (refusal "IDENTITY_BINDING_MISMATCH" "actor_chain omits or reorders the authenticated actors" request)

/-- `evaluate` up to the first verification of the chain: the snapshot the decision is bound to. -/
def enter (call : EvaluateCall) (installed : Option VerifiedBundleSnapshot) (seen : Seen) :
    Except PyError VerifiedBundleSnapshot := do
  let request := call.request
  refuseIf (request.governedContext.digest ≠ request.governedContextDigest)
    (refusal "GOVERNED_CONTEXT_MISMATCH" "GCS digest differs" request)
  request.principal.requireValid seen.now
  let _ ← seen.mtlsDeadline
  let snapshot ← requireFreshBundle request installed seen
  refuseIf (request.governedContext.policyBundleDigest ≠ snapshot.digest)
    (refusal "STALE_BUNDLE" "governed policy pin does not match the installed bundle" request)
  refuseIf (request.governedContext.effectivePrincipalId ≠ request.principal.principalId)
    (refusal "PRINCIPAL_BINDING_MISMATCH" "authenticated principal differs from GCS" request)
  bindActors call
  return snapshot

inductive PolicyEffect
  | permit
  | deny
deriving DecidableEq

/-- What the answer of the policy service settles before the chain is verified again. -/
structure Pending where
  effect : PolicyEffect
  now : Instant
  validUntil : Instant

/-- `evaluate` from the policy request to the second verification. -/
def conclude (call : EvaluateCall) (snapshot : VerifiedBundleSnapshot) (seen : Seen) : Except PyError Pending := do
  let permitted ← seen.answer
  let _ ← requireFreshBundle call.request (some snapshot) seen
  call.request.principal.requireValid seen.now
  let bundleEnd ← requireBundleWindow call.request snapshot seen.boundNow
  let deadline ← seen.mtlsDeadline
  return { effect := if permitted then .permit else .deny
           now := seen.now
           validUntil := min (min (min (seen.now + 300000000) call.request.principal.expiresAt) bundleEnd) deadline }

structure PolicyDecision where
  decisionId : PyStr
  effect : PolicyEffect
  principalId : PyStr
  action : PyStr
  resource : PyStr
  purpose : PyStr
  governedContextDigest : PyStr
  policyBundleDigest : PyStr
  evaluatedAt : Instant
  validUntil : Instant

/-- `_VerifiedBundleSnapshot.snapshot_digest`. -/
def VerifiedBundleSnapshot.snapshotDigest (s : VerifiedBundleSnapshot) : Except PyError PyStr := do
  let bytes ← canonicalize (fields [("policy_id", some (.str s.policyId)), ("digest", some (.str s.digest)),
    ("rules", some (strings (s.rules.insertionSort (· ≤ ·)))), ("not_before", some (.str (rfc3339 s.notBefore))),
    ("expires_at", some (.str (rfc3339 s.expiresAt)))])
  return sha256Urn bytes

/-- The decision record, with what its constructor checks of values not yet checked. -/
def decision (call : EvaluateCall) (snapshot : VerifiedBundleSnapshot) (pending : Pending) (chainDigest : Option PyStr) :
    Except PyError PolicyDecision := do
  let request := call.request
  let snapshotDigest ← snapshot.snapshotDigest
  let text := (py ":").intercalate [snapshotDigest, request.governedContextDigest, chainDigest.getD (py "-"),
    request.principal.principalId, request.action, request.resource, (DateTime.utc pending.now).isoformat]
  refuseIf (¬ Scalar text) (⟨.valueError, "surrogates not allowed", []⟩ : PyError)
  refuseIf (request.governedContext.purpose = [])
    (controlError "POLICY_DECISION_INVALID" "%s is required" [.text (py "purpose")])
  refuseIf (pending.validUntil ≤ pending.now) (controlError "POLICY_DECISION_EXPIRED" "policy validity window is empty" [])
  return { decisionId := sha256Urn (utf8Encode text)
           effect := pending.effect
           principalId := request.principal.principalId
           action := request.action
           resource := request.resource
           purpose := request.governedContext.purpose
           governedContextDigest := request.governedContextDigest
           policyBundleDigest := request.governedContext.policyBundleDigest
           evaluatedAt := pending.now
           validUntil := pending.validUntil }

/-- `apply_revocation`: the signature outside the lock, the entry inside. -/
def applyRevocation (signer : Option PublicKey) (revocation : SignedDelegationRevocation) :
    Op ProviderState PyError Unit := do
  let signer ← Op.lift (orRaise signer
    (controlError "DELEGATION_BINDING_MISMATCH" "revocations require a delegation trust pin" []))
  Op.lift (verifySignedDelegationRevocation revocation signer)
  Op.update fun state =>
    { state with delegationRevocations := state.delegationRevocations.set revocation.delegationId revocation }

/-! ## Threads -/

/-- Which of the two verifications of a call; the second one knows what is to be decided. -/
inductive Round
  | first
  | second (pending : Pending)

structure Evaluation where
  call : EvaluateCall
  snapshot : VerifiedBundleSnapshot

/-- What a verification learned before it takes the lock. -/
structure Opened where
  signer : PublicKey
  capability : CapabilityInvocation
  keyThumbprint : PyStr

/-- Where a call stands. -/
inductive Phase
  | idle
  | entering (call : EvaluateCall)
  | opening (e : Evaluation) (round : Round)
  | reading (e : Evaluation) (round : Round) (opened : Opened)
  | checking (e : Evaluation) (round : Round) (opened : Opened) (revoked : List PyStr)
  | claiming (e : Evaluation) (round : Round) (digests : List PyStr)
  | verified (e : Evaluation) (round : Round) (digest : PyStr) (expiry : Instant)
  | asking (e : Evaluation) (chainDigest : Option PyStr)
  | returned (decision : PolicyDecision)
  | raised (error : PyError)

/-- A thread starts a call once. -/
def Phase.begin (call : EvaluateCall) : Phase → Phase
  | .idle => .entering call
  | phase => phase

structure System where
  provider : ProviderState
  threads : ℕ → Phase

/-- The loop of one verification, with the revocations it read. -/
def Evaluation.check (e : Evaluation) (opened : Opened) (revoked : List PyStr) (instant : Instant) : ChainCheck :=
  ⟨opened.signer, e.call.request, opened.capability, e.snapshot, revoked, instant⟩

def orRaised {α : Type} (outcome : Except PyError α) (next : α → Phase) : Phase :=
  match outcome with
  | .ok a => next a
  | .error error => .raised error

/-- A call runs its next section. -/
def advance (signer : Option PublicKey) (seen : Seen) (provider : ProviderState) : Phase → Phase × ProviderState
  | .idle => (.idle, provider)
  | .entering call =>
    (orRaised (enter call provider.snapshot seen) fun snapshot =>
      match call.delegation with
      | none => .asking ⟨call, snapshot⟩ none
      | some _ => .opening ⟨call, snapshot⟩ .first, provider)
  | .opening e round =>
    (orRaised (openChain signer ⟨seen.keyThumbprint, seen.now⟩ e.call.request e.call.grants e.call.capability e.snapshot)
      fun (key, capability, thumbprint) => .reading e round ⟨key, capability, thumbprint⟩, provider)
  | .reading e round opened =>
    let (outcome, provider) := readRevoked provider
    (orRaised outcome fun revoked => .checking e round opened revoked, provider)
  | .checking e round opened revoked =>
    (orRaised (checkChain (e.check opened revoked seen.now) opened.keyThumbprint e.call.grants)
      fun digests => .claiming e round digests, provider)
  | .claiming e round digests =>
    let (outcome, provider) := (do
      claimNonces e.call.request e.call.grants digests
      Op.lift (closeChain e.call.grants digests)) provider
    (orRaised outcome fun (digest, expiry) => .verified e round digest expiry, provider)
  | .verified e .first digest _ => (.asking e (some digest), provider)
  | .verified e (.second pending) digest expiry =>
    (orRaised (decision e.call e.snapshot { pending with validUntil := min pending.validUntil expiry } (some digest))
      .returned, provider)
  | .asking e chainDigest =>
    (orRaised (conclude e.call e.snapshot seen) fun pending =>
      -- `if grants`
      if e.call.grants.isEmpty then orRaised (decision e.call e.snapshot pending chainDigest) .returned
      else .opening e (.second pending), provider)
  | .returned decision => (.returned decision, provider)
  | .raised error => (.raised error, provider)

inductive Action
  /-- A thread not yet used calls `evaluate`. -/
  | begin (thread : ℕ) (call : EvaluateCall)
  | advance (thread : ℕ) (seen : Seen)
  | applyRevocation (revocation : SignedDelegationRevocation)
  /-- `install_policy` replaces the verified snapshot. -/
  | install (snapshot : VerifiedBundleSnapshot)

def System.step (signer : Option PublicKey) (s : System) : Action → System
  | .begin thread call => { s with threads := Function.update s.threads thread ((s.threads thread).begin call) }
  | .advance thread seen =>
    let (phase, provider) := Security.advance signer seen s.provider (s.threads thread)
    { provider, threads := Function.update s.threads thread phase }
  | .applyRevocation revocation => { s with provider := (Security.applyRevocation signer revocation s.provider).2 }
  | .install snapshot => { s with provider.snapshot := some snapshot }

/-! ## The sections together are the verification -/

/-- The same thread, and nobody else, for a number of sections. -/
def advances (signer : Option PublicKey) (seen : Seen) : ℕ → Phase × ProviderState → Phase × ProviderState
  | 0, s => s
  | n + 1, s => advances signer seen n (advance signer seen s.2 s.1)

/-- The phase an uninterrupted verification ends in. -/
def Round.outcome (e : Evaluation) (round : Round) :
    Except PyError (PyStr × Instant) × ProviderState → Phase × ProviderState
  | (.ok (digest, expiry), provider) => (.verified e round digest expiry, provider)
  | (.error error, provider) => (.raised error, provider)

end OcorRuntime.Security

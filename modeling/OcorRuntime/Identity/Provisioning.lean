import Mathlib.Logic.Function.Basic
import OcorRuntime.Identity.Registry
import OcorRuntime.Security.GrantChain

/-! `IdentityProvisioningBoundary.provision` (`c2/provisioning.py`), called by any number of
threads on one registry. A call moves from one of its stages to the next, and the answers
of the identity and policy ports come with the move; the checks after the decision and the
write are one stage, under the registry lock. -/
namespace OcorRuntime.Identity
open Canonical Kernel
open Security (AuthenticatedPrincipal)
set_option autoImplicit false
set_option maxHeartbeats 250000

def provisioningAction : PyStr := py "identity.provision"

/-- `provisioning_resource`, of the identifier of a record. -/
def provisioningResource (canonicalId : PyStr) : PyStr := py "urn:ocor:identity-provisioning:" ++ canonicalId

/-- `IdentityProvisioningDenied(reason, message, correlation_id=...)`. -/
def denied (reason message : String) (correlationId : PyStr) (args : List ErrorArg) : PyError :=
  ⟨.identityProvisioningDenied reason, reason ++ ": correlation_id=%s " ++ message, .text correlationId :: args⟩

/-! ## The authorities -/

/-- What asking an authority ends with, when it ends without an answer. -/
inductive AuthorityFailure
  | control (reasonCode : String)
  | other (typeName : String)
  /-- A `BaseException` that is no `Exception`. -/
  | interrupted

inductive PortAnswer (α : Type)
  | returned (answer : α)
  /-- An object of another class. -/
  | foreign
  | failed (failure : AuthorityFailure)

/-- The answer, an object of another class refused under `reason`. -/
def PortAnswer.expect {α : Type} (reason : String) : PortAnswer α → Except AuthorityFailure α
  | .returned answer => .ok answer
  | .foreign => .error (.control reason)
  | .failed failure => .error failure

/-- `_UNAVAILABLE_CAUSES`. -/
def unavailableCauses : List String :=
  ["SERVICE_UNAVAILABLE", "IDENTITY_UNAVAILABLE", "POLICY_UNAVAILABLE", "STALE_BUNDLE", "POLICY_BUNDLE_WINDOW_INVALID",
    "WORKLOAD_IDENTITY_UNAVAILABLE", "WORKLOAD_IDENTITY_EXPIRED"]

/-- The handlers of `_authenticate` and of `_decide`. -/
def AuthorityFailure.handled (rejected message authority : String) (correlationId : PyStr) : AuthorityFailure → Raised
  | .control reason =>
    .exception (denied (if reason ∈ unavailableCauses then "PROVISIONING_AUTHORITY_UNAVAILABLE" else rejected)
      message correlationId [])
  | .other typeName =>
    .exception (denied "PROVISIONING_AUTHORITY_UNAVAILABLE" (authority ++ " authority failed: %s") correlationId
      [.text (py typeName)])
  | .interrupted => .interrupt

/-- `AuthenticatedPrincipal.require_valid`. -/
def requireValid (principal : AuthenticatedPrincipal) (instant : Instant) : Except AuthorityFailure Unit :=
  refuseIf (instant < principal.authenticatedAt ∨ principal.expiresAt ≤ instant) (.control "IDENTITY_EXPIRED")

inductive PolicyEffect
  | permit
  | deny
  | permitWithConstraints
  | requireApproval
  | obligate
deriving DecidableEq

def PolicyEffect.value : PolicyEffect → String
  | .permit => "PERMIT"
  | .deny => "DENY"
  | .permitWithConstraints => "PERMIT_WITH_CONSTRAINTS"
  | .requireApproval => "REQUIRE_APPROVAL"
  | .obligate => "OBLIGATE"

structure PolicyRequest where
  principal : AuthenticatedPrincipal
  action : PyStr
  resource : PyStr
  governedContext : GovernedContext
  governedContextDigest : PyStr
  instant : Instant

/-- `PolicyRequest(...)` with `__post_init__`, over the digest it is given. -/
def PolicyRequest.create (principal : AuthenticatedPrincipal) (action resource : PyStr)
    (governedContext : GovernedContext) (governedContextDigest : PyStr) (instant : Instant) :
    Except AuthorityFailure PolicyRequest := do
  requireValid principal instant
  refuseIf (governedContext.effectivePrincipalId ≠ principal.principalId) (.control "PRINCIPAL_BINDING_MISMATCH")
  return ⟨principal, action, resource, governedContext, governedContextDigest, instant⟩

structure PolicyDecision where
  decisionId : PyStr
  effect : PolicyEffect
  principalId : PyStr
  action : PyStr
  resource : PyStr
  purpose : PyStr
  governedContextDigest : PyStr
  policyBundleDigest : PyStr
  evaluatedAt : Instant
  validUntil : Instant

/-- `PolicyDecision.verify`. -/
def PolicyDecision.verify (d : PolicyDecision) (request : PolicyRequest) (instant : Instant) :
    Except AuthorityFailure Unit := do
  refuseIf (instant < d.evaluatedAt ∨ d.validUntil ≤ instant) (.control "POLICY_DECISION_EXPIRED")
  refuseIf ((d.principalId, d.action, d.resource, d.purpose, d.governedContextDigest, d.policyBundleDigest) ≠
      (request.principal.principalId, request.action, request.resource, request.governedContext.purpose,
        request.governedContextDigest, request.governedContext.policyBundleDigest))
    (.control "POLICY_BINDING_MISMATCH")

/-! ## The stages of a call -/

/-- What the boundary is built with besides the registry and its ports. -/
structure Boundary where
  audience : PyStr

structure ProvisionCall where
  record : IdentityRecord
  credentialRef : PyStr
  governedContext : GovernedContext

def ProvisionCall.correlationId (call : ProvisionCall) : PyStr := call.governedContext.correlationId

/-- `IdentityRequest(...)`: its checks. -/
def identityRequest (b : Boundary) (call : ProvisionCall) : Except AuthorityFailure Unit := do
  refuseIf (call.credentialRef = []) (.control "SECURITY_RECORD_INVALID")
  refuseIf (¬ py "urn:ocor:credential-ref:" <+: call.credentialRef) (.control "IDENTITY_REQUEST_INVALID")
  refuseIf (b.audience = []) (.control "SECURITY_RECORD_INVALID")
  refuseIf (¬ IsIdentifier call.correlationId) (.control "IDENTITY_REQUEST_INVALID")

/-- What a call reads outside the registry during one stage. -/
structure Seen where
  identity : PortAnswer AuthenticatedPrincipal
  policy : PortAnswer PolicyDecision
  /-- `datetime.now` for the policy request. -/
  requestedAt : Instant
  /-- `datetime.now` after the port has answered, or after the write. -/
  now : Instant

def authenticate (call : ProvisionCall) (seen : Seen) : Except Raised AuthenticatedPrincipal :=
  Except.mapError (AuthorityFailure.handled "PROVISIONING_WRITER_UNAUTHENTICATED" "writer authentication failed" "identity"
    call.correlationId) do
      let principal ← seen.identity.expect "IDENTITY_REJECTED"
      requireValid principal seen.now
      return principal

def decide (writer : AuthenticatedPrincipal) (call : ProvisionCall) (seen : Seen) : Except Raised PolicyDecision := do
  let decision ← Except.mapError (AuthorityFailure.handled "PROVISIONING_AUTHORITY_REJECTED"
    "provisioning policy did not produce a valid decision" "policy" call.correlationId) do
      let hexdigest ← (canonicalSha256 call.governedContext.toMapping).mapError
        fun _ => AuthorityFailure.other "CanonicalizationError"
      let request ← PolicyRequest.create writer provisioningAction (provisioningResource call.record.canonicalId)
        call.governedContext (py "urn:sha256:" ++ hexdigest) seen.requestedAt
      let decision ← seen.policy.expect "POLICY_DECISION_INVALID"
      decision.verify request seen.now
      return decision
  refuseIf (decision.effect ≠ .permit) (.exception (denied "PROVISIONING_POLICY_DENIED" "policy effect %s"
    call.correlationId [.text (py decision.effect.value)]))
  return decision

structure ProvisioningReceipt where
  record : IdentityRecord
  writerPrincipalId : PyStr
  decisionId : PyStr
  policyBundleDigest : PyStr
  governedContextDigest : PyStr
  correlationId : PyStr
  provisionedAt : Instant

section Checks
variable (u : UnicodeData) (r : IdentityRegistry)

/-- `any(registry.candidates(item) for item in items)`, an error if it is true. -/
def requireUnbound (error : PyError) : List PyStr → Except PyError Unit
  | [] => .ok ()
  | item :: items => do
    let found ← r.candidates u item
    refuseIf (found ≠ []) error
    requireUnbound error items

def requireUnregisteredWriter (actors : List PyStr) (correlationId : PyStr) : Except PyError Unit :=
  requireUnbound u r (denied "PROVISIONING_WRITER_IS_REGISTERED_PRINCIPAL"
    "a registered principal cannot provision identities" correlationId []) actors

def requireNewIdentifiers (record : IdentityRecord) (correlationId : PyStr) : Except PyError Unit := do
  let error := denied "PROVISIONING_UPDATE_DENIED"
    "existing identities and bound identifiers cannot be provisioned again" correlationId []
  refuseIf ((r.get record.canonicalId).isSome) error
  requireUnbound u r error record.identifiers

/-- The request as far as it can be checked without asking anyone: its normalized identifiers. -/
def receive (b : Boundary) (call : ProvisionCall) : Except PyError (List PyStr) := do
  let identifiers ← (normalizeAll u call.record.identifiers).mapError
    fun _ => denied "PROVISIONING_REQUEST_INVALID" "record identifiers are invalid" call.correlationId []
  (identityRequest b call).mapError
    fun _ => denied "PROVISIONING_REQUEST_INVALID" "invalid credential reference" call.correlationId []
  return identifiers

/-- `(writer.principal_id, *writer.actor_chain)`. -/
def actorsOf (writer : AuthenticatedPrincipal) : List PyStr := writer.principalId :: writer.actorChain

/-- The checks before the decision: the normalized actors. -/
def check (call : ProvisionCall) (identifiers : List PyStr) (writer : AuthenticatedPrincipal) :
    Except PyError (List PyStr) := do
  let actors ← normalizeAll u (actorsOf writer)
  refuseIf (∃ a ∈ actors, a ∈ identifiers)
    (denied "PROVISIONING_SELF_ATTRIBUTION" "the record names its own writer" call.correlationId [])
  requireUnregisteredWriter u r actors call.correlationId
  requireNewIdentifiers u r call.record call.correlationId
  return actors

/-- What is done under the registry lock. -/
def admitLocked (call : ProvisionCall) (actors : List PyStr) : Op IdentityRegistry PyError IdentityRecord := do
  let r ← Op.read
  Op.lift (requireUnregisteredWriter u r actors call.correlationId)
  Op.lift (requireNewIdentifiers u r call.record call.correlationId)
  IdentityRegistry.admitProvisioned u call.record

end Checks

/-! ## Threads -/

/-- Where a call stands. -/
inductive Phase
  | idle
  | entered (call : ProvisionCall) (identifiers : List PyStr)
  | authenticated (call : ProvisionCall) (identifiers : List PyStr) (writer : AuthenticatedPrincipal)
  | checked (call : ProvisionCall) (writer : AuthenticatedPrincipal) (actors : List PyStr)
  | decided (call : ProvisionCall) (writer : AuthenticatedPrincipal) (actors : List PyStr) (decision : PolicyDecision)
  | returned (receipt : ProvisioningReceipt)
  | raised (error : Raised)

def orRaised {α : Type} (outcome : Except Raised α) (next : α → Phase) : Phase :=
  match outcome with
  | .ok a => next a
  | .error error => .raised error

def exceptions {α : Type} (outcome : Except PyError α) : Except Raised α := outcome.mapError .exception

def receipt (call : ProvisionCall) (writer : AuthenticatedPrincipal) (decision : PolicyDecision) (stored : IdentityRecord)
    (now : Instant) : ProvisioningReceipt where
  record := stored
  writerPrincipalId := writer.principalId
  decisionId := decision.decisionId
  policyBundleDigest := decision.policyBundleDigest
  governedContextDigest := decision.governedContextDigest
  correlationId := call.correlationId
  provisionedAt := now

section Threads
variable (u : UnicodeData)

/-- A thread starts a call once. -/
def Phase.begin (b : Boundary) (call : ProvisionCall) : Phase → Phase
  | .idle => orRaised (exceptions (receive u b call)) (.entered call)
  | phase => phase

/-- A call runs its next stage. -/
def advance (seen : Seen) (r : IdentityRegistry) : Phase → Phase × IdentityRegistry
  | .idle => (.idle, r)
  | .entered call identifiers => (orRaised (authenticate call seen) (.authenticated call identifiers), r)
  | .authenticated call identifiers writer =>
    (orRaised (exceptions (check u r call identifiers writer)) (.checked call writer), r)
  | .checked call writer actors => (orRaised (decide writer call seen) (.decided call writer actors), r)
  | .decided call writer actors decision =>
    let (outcome, r) := admitLocked u call actors r
    (orRaised (exceptions outcome) fun stored => .returned (receipt call writer decision stored seen.now), r)
  | .returned receipt => (.returned receipt, r)
  | .raised error => (.raised error, r)

structure System where
  registry : IdentityRegistry
  threads : ℕ → Phase

inductive Move
  /-- A thread not yet used calls `provision`. -/
  | begin (thread : ℕ) (call : ProvisionCall)
  | advance (thread : ℕ) (seen : Seen)

def System.step (b : Boundary) (s : System) : Move → System
  | .begin thread call => { s with threads := Function.update s.threads thread ((s.threads thread).begin u b call) }
  | .advance thread seen =>
    let (phase, registry) := Identity.advance u seen s.registry (s.threads thread)
    { registry, threads := Function.update s.threads thread phase }

/-- A registry no call has been made on. -/
def System.start (r : IdentityRegistry) : System := ⟨r, fun _ => .idle⟩

end Threads
end OcorRuntime.Identity

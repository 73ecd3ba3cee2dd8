import OcorRuntime.Capabilities.Lease

/-! The capability authority (`c6_capabilities.py`): the lease ledger, its usage
counters and the lazy sweep of leases a stop has superseded. The emergency-stop
controller is read through its protocol, so a call takes what the controller it
consults answers during that call. A call returns its outcome and the authority it
leaves, also when it raises. -/
namespace OcorRuntime.Capabilities
set_option autoImplicit false
set_option maxHeartbeats 250000

structure StopEpochEvent where
  epoch : ℤ
  instant : DateTime
deriving DecidableEq

/-- `StopEpochAuthority`: what a stop controller answers. -/
structure StopEpochAuthority where
  epoch : ℤ
  history : List StopEpochEvent
  guardDispatch : ℤ → Except PyError Unit

structure CapabilityAuthority where
  issuer : PyStr
  leases : Dict PyStr CapabilityLease
  uses : Dict PyStr ℕ
  stop : Option ℕ
  boundEpoch : ℤ
  sweptEpoch : ℤ

/-- The arguments of `issue`; of the presented parent only its identifier is read. -/
structure IssueRequest where
  subject : PyStr
  capabilities : List PyStr
  resources : List PyStr
  issuedAt : DateTime
  notBefore : Option DateTime := none
  expiresAt : Option DateTime := none
  ttl : Option Duration := none
  leaseId : Option PyStr := none
  maxUses : Option ℤ := none
  parentLeaseId : Option PyStr := none
  uuid : PyStr

/-- The arguments of `authorize`; of a presented lease only its identifier is read. -/
structure AuthorizeRequest where
  leaseId : PyStr
  capability : PyStr
  resource : PyStr
  instant : DateTime
  subject : Option PyStr := none
  consume : Bool := false

def authorizationError (message : String) : PyError := ⟨.authorizationError, message, []⟩

namespace CapabilityAuthority

/-- `CapabilityAuthority(issuer)`, not bound to a stop controller. -/
def create (issuer : PyStr) : Except PyError CapabilityAuthority :=
  if issuer = [] then .error ⟨.valueError, "issuer must be non-empty", []⟩
  else .ok ⟨issuer, .empty, .empty, none, 0, 0⟩

/-! ## The stop controller -/

def bindStopController (a : CapabilityAuthority) (controller : ℕ) (stop : StopEpochAuthority) :
    Except PyError Unit × CapabilityAuthority :=
  match a.stop with
  | none => (.ok (), { a with stop := some controller, boundEpoch := stop.epoch, sweptEpoch := stop.epoch })
  | some bound =>
    if bound = controller then (.ok (), a)
    else (.error ⟨.valueError, "capability authority is already bound to another emergency-stop controller", []⟩, a)

def createBound (issuer : PyStr) (controller : ℕ) (stop : StopEpochAuthority) : Except PyError CapabilityAuthority := do
  let a ← create issuer
  match a.bindStopController controller stop with
  | (.error e, _) => .error e
  | (.ok (), bound) => return bound

/-- The revocation the sweep records for a lease, if any. -/
def supersededAt (boundEpoch : ℤ) (stop : StopEpochAuthority) (lease : CapabilityLease) :
    Except PyError (Option Instant) :=
  if lease.revokedAt.isSome then .ok none
  else
    let leaseEpoch := lease.stopEpoch.getD boundEpoch
    if leaseEpoch = stop.epoch then .ok none
    else match stop.history.find? fun event => leaseEpoch < event.epoch with
      | none => .ok none
      | some superseding => do
        let acceptedAt ← requireAware superseding.instant "stop event at"
        return some (max acceptedAt lease.issuedAt)

/-- The loop of the sweep over a snapshot of the ledger. -/
def sweepEntries (boundEpoch : ℤ) (stop : StopEpochAuthority) :
    List (PyStr × CapabilityLease) → Dict PyStr CapabilityLease → Except PyError Unit × Dict PyStr CapabilityLease
  | [], leases => (.ok (), leases)
  | (leaseId, lease) :: rest, leases =>
    match supersededAt boundEpoch stop lease with
    | .error e => (.error e, leases)
    | .ok none => sweepEntries boundEpoch stop rest leases
    | .ok (some instant) =>
      match lease.replaceRevokedAt instant with
      | .error e => (.error e, leases)
      | .ok revoked => sweepEntries boundEpoch stop rest (leases.set leaseId revoked)

attribute [local grind =] sweepEntries

def sweepSupersededLeases (a : CapabilityAuthority) (stop : StopEpochAuthority) :
    Except PyError Unit × CapabilityAuthority :=
  if a.stop.isNone ∨ stop.epoch = a.sweptEpoch then (.ok (), a)
  else match sweepEntries a.boundEpoch stop a.leases.entries a.leases with
    | (.error e, leases) => (.error e, { a with leases })
    | (.ok (), leases) => (.ok (), { a with leases, sweptEpoch := stop.epoch })

/-- An error of the stop controller, reported as `cls` when it is one of the runtime's own. -/
def wrapStopError (cls : ErrorClass) (text : String) (outcome : Except PyError Unit) : Except PyError Unit :=
  match outcome with
  | .ok () => .ok ()
  | .error e => if e.cls.isOCORError then .error ⟨cls, text ++ e.message, e.args⟩ else .error e

def requireCurrentStopEpoch (a : CapabilityAuthority) (stop : StopEpochAuthority) (lease : CapabilityLease) :
    Except PyError Unit :=
  if a.stop.isNone then .ok ()
  else match lease.stopEpoch with
    | none => .error ⟨.stopEpochDenied, "capability lease is not bound to an emergency-stop epoch", []⟩
    | some epoch =>
      wrapStopError .stopEpochDenied "capability lease is fenced by the emergency stop: " (stop.guardDispatch epoch)

def currentStopEpoch (a : CapabilityAuthority) (stop : StopEpochAuthority) : Except PyError (Option ℤ) :=
  if a.stop.isNone then .ok none
  else do
    wrapStopError .authorizationError "emergency stop is active, no capability lease is issued: "
      (stop.guardDispatch stop.epoch)
    return some stop.epoch

/-! ## Issue -/

def validateDelegation (parent child : CapabilityLease) : Except PyError Unit :=
  if child.issuedAt < parent.issuedAt then .error (authorizationError "delegated lease predates its parent")
  else if child.stopEpoch.isSome ∧ parent.stopEpoch.isNone then
    .error ⟨.stopEpochDenied, "delegating parent lease is not bound to an emergency-stop epoch", []⟩
  else if parent.stopEpoch.isSome ∧ child.stopEpoch ≠ parent.stopEpoch then
    .error ⟨.stopEpochDenied, "delegating parent lease is bound to another emergency-stop epoch", []⟩
  else if child.notBefore < parent.notBefore ∨ parent.expiresAt < child.expiresAt then
    .error (authorizationError "delegated lease exceeds its parent time window")
  else if ∃ requested ∈ child.capabilities, ¬ ∃ grant ∈ parent.capabilities, CapabilityMatches grant requested then
    .error (authorizationError "delegated lease escalates capabilities")
  else if ∃ childScope ∈ child.resources, ¬ ∃ scope ∈ parent.resources, ResourceScopeContains scope childScope then
    .error (authorizationError "delegated lease widens its resource scope")
  else .ok ()

/-- The instants of a request: `issued`, `starts` and `ends`. -/
def leaseWindow (r : IssueRequest) : Except PyError (Instant × Instant × Instant) := do
  let issued ← requireAware r.issuedAt "issued_at"
  let starts ← requireAware (r.notBefore.getD r.issuedAt) "not_before"
  if r.expiresAt.isNone = r.ttl.isNone then .error ⟨.valueError, "provide exactly one of expires_at or ttl", []⟩
  else do
    let ends ← match r.expiresAt with
      | some expiresAt => .ok expiresAt
      | none => (r.notBefore.getD r.issuedAt).add (r.ttl.getD 0)
    let ends ← requireAware ends "expires_at"
    return (issued, starts, ends)

/-- The delegating parent in the ledger, active when the new lease starts. -/
def authoritativeParent (a : CapabilityAuthority) (parentLeaseId : PyStr) (starts : Instant) :
    Except PyError CapabilityLease :=
  match a.leases.get? parentLeaseId with
  | none => .error (authorizationError "delegating parent lease is not authoritative")
  | some parent =>
    if parent.IsActive starts then .ok parent
    else .error (authorizationError "delegating parent lease is inactive")

/-- The new lease, checked against its parent. -/
def delegatedLease (a : CapabilityAuthority) (stop : StopEpochAuthority) (r : IssueRequest)
    (window : Instant × Instant × Instant) (parent : Option CapabilityLease) : Except PyError CapabilityLease := do
  let stopEpoch ← a.currentStopEpoch stop
  let leaseId := match r.leaseId with
    | some leaseId => if leaseId = [] then r.uuid else leaseId
    | none => r.uuid
  let lease ← CapabilityLease.create leaseId r.subject r.capabilities.toFinset r.resources.toFinset window.2.1
    window.2.2 window.1 a.issuer (parent.map fun p => p.leaseId) r.maxUses stopEpoch
  match parent with
  | none => .ok lease
  | some parent => do
    validateDelegation parent lease
    return lease

def register (a : CapabilityAuthority) (lease : CapabilityLease) : Except PyError CapabilityLease × CapabilityAuthority :=
  match a.leases.get? lease.leaseId with
  | some _ => (.error ⟨.valueError, "duplicate lease id: %s", [.text lease.leaseId]⟩, a)
  | none =>
    (.ok lease, { a with leases := a.leases.set lease.leaseId lease, uses := a.uses.set lease.leaseId 0 })

/-- The part of `issue` after the ledger has been swept for a delegation. -/
def issueFrom (a : CapabilityAuthority) (stop : StopEpochAuthority) (r : IssueRequest)
    (window : Instant × Instant × Instant) (parent : Option CapabilityLease) :
    Except PyError CapabilityLease × CapabilityAuthority :=
  match a.delegatedLease stop r window parent with
  | .error e => (.error e, a)
  | .ok lease => a.register lease

def issue (a : CapabilityAuthority) (stop : StopEpochAuthority) (r : IssueRequest) :
    Except PyError CapabilityLease × CapabilityAuthority :=
  match leaseWindow r with
  | .error e => (.error e, a)
  | .ok window =>
    match r.parentLeaseId with
    | none => a.issueFrom stop r window none
    | some parentLeaseId =>
      match a.sweepSupersededLeases stop with
      | (.error e, a') => (.error e, a')
      | (.ok (), a') =>
        match a'.authoritativeParent parentLeaseId window.2.1 with
        | .error e => (.error e, a')
        | .ok parent => a'.issueFrom stop r window (some parent)

/-! ## Lookup, revocation and authorization -/

def get (a : CapabilityAuthority) (stop : StopEpochAuthority) (leaseId : PyStr) :
    Except PyError (Option CapabilityLease) × CapabilityAuthority :=
  match a.sweepSupersededLeases stop with
  | (.error e, a') => (.error e, a')
  | (.ok (), a') => (.ok (a'.leases.get? leaseId), a')

def revokeSwept (a : CapabilityAuthority) (leaseId : PyStr) (instant : Instant) :
    Except PyError CapabilityLease × CapabilityAuthority :=
  match subscript a.leases leaseId with
  | .error e => (.error e, a)
  | .ok lease =>
    if lease.revokedAt.isSome then (.ok lease, a)
    else match lease.replaceRevokedAt instant with
      | .error e => (.error e, a)
      | .ok revoked => (.ok revoked, { a with leases := a.leases.set leaseId revoked })

def revoke (a : CapabilityAuthority) (stop : StopEpochAuthority) (leaseId : PyStr) (instant : DateTime) :
    Except PyError CapabilityLease × CapabilityAuthority :=
  match requireAware instant "at" with
  | .error e => (.error e, a)
  | .ok instant =>
    match a.sweepSupersededLeases stop with
    | (.error e, a') => (.error e, a')
    | (.ok (), a') => a'.revokeSwept leaseId instant

/-- `_require_active_ancestry`; each call adds an identifier to `seen`, so the ledger's size bounds the depth. -/
def requireActiveAncestry (leases : Dict PyStr CapabilityLease) (instant : Instant) :
    ℕ → CapabilityLease → List PyStr → Except PyError Unit
  | 0, _, _ => .error (authorizationError "capability delegation cycle detected")
  | depth + 1, lease, seen =>
    if lease.leaseId ∈ seen then .error (authorizationError "capability delegation cycle detected")
    else match lease.parentLeaseId with
      | none => .ok ()
      | some parentLeaseId =>
        match leases.get? parentLeaseId with
        | none => .error (authorizationError "parent capability lease is inactive")
        | some parent =>
          if parent.IsActive instant then requireActiveAncestry leases instant depth parent (lease.leaseId :: seen)
          else .error (authorizationError "parent capability lease is inactive")

/-- `authorize` on a swept ledger: the lease and its uses so far. -/
def authorizeSwept (a : CapabilityAuthority) (stop : StopEpochAuthority) (r : AuthorizeRequest) (instant : Instant) :
    Except PyError (CapabilityLease × ℕ) :=
  match a.leases.get? r.leaseId with
  | none => .error (authorizationError "capability lease is unknown to its authority")
  | some authoritative => do
    a.requireCurrentStopEpoch stop authoritative
    if authoritative.Allows r.capability r.resource instant r.subject then do
      requireActiveAncestry a.leases instant (a.leases.entries.length + 1) authoritative []
      let uses ← subscript a.uses r.leaseId
      if authoritative.maxUses.any fun m => m ≤ (uses : ℤ) then
        .error (authorizationError "capability lease usage limit is exhausted")
      else return (authoritative, uses)
    else .error (authorizationError "capability lease is inactive or out of scope")

def authorize (a : CapabilityAuthority) (stop : StopEpochAuthority) (r : AuthorizeRequest) :
    Except PyError CapabilityLease × CapabilityAuthority :=
  match requireAware r.instant "at" with
  | .error e => (.error e, a)
  | .ok instant =>
    match a.sweepSupersededLeases stop with
    | (.error e, a') => (.error e, a')
    | (.ok (), a') =>
      match a'.authorizeSwept stop r instant with
      | .error e => (.error e, a')
      | .ok (lease, uses) =>
        (.ok lease, if r.consume then { a' with uses := a'.uses.set r.leaseId (uses + 1) } else a')

def usage (a : CapabilityAuthority) (leaseId : PyStr) : Except PyError ℕ := subscript a.uses leaseId

end CapabilityAuthority
end OcorRuntime.Capabilities

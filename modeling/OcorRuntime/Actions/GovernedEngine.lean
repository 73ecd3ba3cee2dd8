import OcorRuntime.Emission.Fence

/-! The governed-action engine (`c6/engine.py`): authority, human gate, decision and
emission fence, in this order, before the simulated effect. The engine writes its own
store; the fence may be bound to that store, to another one, or to none. -/
namespace OcorRuntime.Actions
open Store Capabilities Emission
set_option autoImplicit false
set_option maxHeartbeats 250000

structure ActionProposal where
  actionId : PyStr
  subject : PyStr
  capability : PyStr
  resource : PyStr
  aggregateId : PyStr
  riskBearing : Bool

/-- The disposition of the human gate. -/
structure Approval where
  actionId : PyStr
  approver : PyStr
  approved : Bool
  approvedAt : DateTime
  aware : approvedAt.Aware
  approver_named : approver ≠ []

structure Decision where
  actionId : PyStr
  decidedBy : PyStr
  accepted : Bool
  rationale : PyStr
  decidedAt : DateTime
  aware : decidedAt.Aware
  decider_named : decidedBy ≠ []
  explained : rationale ≠ []

structure ActionOutcome where
  actionId : PyStr
  emissionReceipt : EmissionReceipt
  simulatedEffect : PyValue

structure GovernedActionEngine where
  authority : CapabilityAuthority
  store : AtomicOutboxStore
  fence : EmissionFence
  /-- The store the fence was given when it is not the engine's own. -/
  foreignStore : Option AtomicOutboxStore
  calls : List SinkCall

/-- The arguments of `execute`, with what the stop controller answers and the transaction id and clock reading drawn
during the call; of the presented lease only its identifier is read. -/
structure Execution where
  proposal : ActionProposal
  leaseId : PyStr
  approval : Option Approval
  decision : Option Decision
  sink : Sink
  instant : DateTime
  stop : StopEpochAuthority
  transactionId : PyStr
  now : Instant

/-- `GovernedActionError(reason_code, message)`. -/
def governedActionError (reasonCode message : String) (args : List ErrorArg) : PyError :=
  ⟨.governedActionError reasonCode, reasonCode ++ ": " ++ message, args⟩

namespace GovernedActionEngine

/-! ## The gates -/

def authorization (c : Execution) (instant : Instant) : AuthorizeRequest where
  leaseId := c.leaseId
  capability := c.proposal.capability
  resource := c.proposal.resource
  instant := .utc instant
  subject := some c.proposal.subject
  consume := true

def authorize (c : Execution) (instant : Instant) : Op GovernedActionEngine PyError CapabilityLease := fun engine =>
  match engine.authority.authorize c.stop (authorization c instant) with
  | (outcome, authority) => (outcome, { engine with authority })

/-- An authorization error denies the action; any other exception propagates. -/
def authorityDenied (error : PyError) : Op GovernedActionEngine PyError CapabilityLease :=
  if error.cls.isAuthorizationError then .raise (governedActionError "AUTHORITY_DENIED" error.message error.args)
  else .raise error

def checkApproval (proposal : ActionProposal) (approval : Option Approval) : Except PyError Unit :=
  if proposal.riskBearing then
    match approval with
    | none => .error (governedActionError "APPROVAL_MISSING"
        "a risk-bearing action requires a resolved Human Gate approval" [])
    | some approval =>
      if approval.actionId ≠ proposal.actionId then
        .error (governedActionError "APPROVAL_MISSING"
          "a risk-bearing action requires a resolved Human Gate approval" [])
      else if approval.approved = false then
        .error (governedActionError "APPROVAL_MISSING" "Human Gate approval was not granted" [])
      else .ok ()
  else .ok ()

def checkDecision (proposal : ActionProposal) (decision : Option Decision) : Except PyError Unit :=
  match decision with
  | none => .error (governedActionError "DECISION_MISSING" "a governed action requires a signed Decision" [])
  | some decision =>
    if decision.actionId ≠ proposal.actionId then
      .error (governedActionError "DECISION_MISSING" "a governed action requires a signed Decision" [])
    else if decision.accepted = false then
      .error (governedActionError "DECISION_REJECTED" "%s" [.text decision.rationale])
    else .ok ()

/-! ## Commit and emission -/

def executedDocument (proposal : ActionProposal) : PyValue :=
  .mapping [(.str (py "action_id"), .str proposal.actionId), (.str (py "status"), .str (py "EXECUTED"))]

def writeRequest (engine : GovernedActionEngine) (c : Execution) (instant : Instant) : WriteRequest where
  aggregateId := c.proposal.aggregateId
  document := executedDocument c.proposal
  expectedVersion := none
  writerId := engine.store.authoritativeWriter
  eventType := py "governed-action-executed"
  idempotencyKey := c.proposal.actionId
  occurredAt := some (.utc instant)
  now := c.now
  transactionId := c.transactionId

def write (c : Execution) (instant : Instant) : Op GovernedActionEngine PyError WriteResult := fun engine =>
  match engine.store.write (engine.writeRequest c instant) with
  | (outcome, store) => (outcome, { engine with store })

/-- What the fence works on. -/
def boundary (engine : GovernedActionEngine) : Boundary :=
  ⟨engine.foreignStore.getD engine.store, engine.fence, engine.calls⟩

/-- The engine after an operation of its fence. -/
def absorb (engine : GovernedActionEngine) (b : Boundary) : GovernedActionEngine :=
  match engine.foreignStore with
  | none => { engine with store := b.store, fence := b.fence, calls := b.calls }
  | some _ => { engine with foreignStore := some b.store, fence := b.fence, calls := b.calls }

def emit (c : Execution) (event : OutboxEvent) (instant : Instant) : Op GovernedActionEngine PyError EmissionReceipt :=
  fun engine =>
    match engine.boundary.emit { sink := c.sink, instant := .utc instant } event with
    | (outcome, b) => (outcome, engine.absorb b)

/-- The part of `execute` before the canonical commit. -/
def gates (c : Execution) : Op GovernedActionEngine PyError Instant := do
  let instant ← .lift (requireAware c.instant "at")
  let _ ← Op.guarded (authorize c instant) authorityDenied
  .lift (checkApproval c.proposal c.approval)
  .lift (checkDecision c.proposal c.decision)
  return instant

def execute (c : Execution) : Op GovernedActionEngine PyError ActionOutcome := do
  let instant ← gates c
  let writeResult ← write c instant
  let receipt ← emit c writeResult.event instant
  return ⟨c.proposal.actionId, receipt, receipt.sinkResult⟩

end GovernedActionEngine
end OcorRuntime.Actions

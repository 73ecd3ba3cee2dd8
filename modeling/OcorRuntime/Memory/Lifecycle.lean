import OcorRuntime.Memory.StoreCoordinator

/-! The lifecycle of memory items (`memory/lifecycle.py`): its state machine, the
decisions it asks for, and the version a lifecycle change appends to the ledger. -/
namespace OcorRuntime.Memory
open Kernel
set_option autoImplicit false
set_option maxHeartbeats 250000

/-! ## Vocabulary -/

inductive LifecycleOperation
  | transition
  | delete
  | expiry
  | retention
deriving DecidableEq

def LifecycleOperation.value : LifecycleOperation → String
  | transition => "transitionMemoryLifecycle"
  | delete => "requestMemoryDeletion"
  | expiry => "enforceMemoryExpiry"
  | retention => "enforceMemoryRetention"

/-- `TRANSITIONS`. -/
def LifecycleStatus.transitions : LifecycleStatus → List LifecycleStatus
  | proposed => [active, quarantined]
  | active => [superseded, revoked, expired, legalHold, deletionPending]
  | quarantined => [active, revoked, deletionPending]
  | superseded => [legalHold, deletionPending]
  | revoked => [legalHold, deletionPending]
  | expired => [legalHold, deletionPending]
  | legalHold => [active, superseded, revoked, expired, deletionPending]
  | deletionPending => [deleted, deletionIncomplete]
  | deletionIncomplete => [deletionPending]
  | deleted => []

/-- `FORGETTING_TRIGGERS`. -/
def forgettingTriggers : List PyStr :=
  [py "EXPIRY", py "PURPOSE_COMPLETION", py "REVOCATION", py "SUPERSESSION", py "CONFIDENCE_DECAY", py "QUOTA_PRESSURE",
    py "AUTHORIZED_REQUEST", py "RETENTION_ELAPSED"]

/-- `REASON_CODE.fullmatch`: an upper-case letter, then at most 63 of them, digits and underscores. -/
def isReasonCode : PyStr → Bool
  | [] => false
  | c :: rest =>
    let upper (c : CodePoint) : Bool := 65 ≤ c.val ∧ c.val ≤ 90
    upper c && decide (rest.length ≤ 63) && rest.all fun c => upper c || decide (IsDigit c) || decide (c.val = 95)

def lifecycleError (reasonCode detailCode message : String) (args : List ErrorArg := []) : PyError :=
  memoryError .lifecycle reasonCode detailCode message args

/-- `_schema_error` of the lifecycle. -/
def lifecycleSchemaError (detailCode message : String) (args : List ErrorArg := []) : PyError :=
  lifecycleError "MEMORY_SCHEMA_INVALID" detailCode message args

/-- `_invalid`. -/
def invalidTransition (detailCode message : String) (args : List ErrorArg := []) : PyError :=
  lifecycleError "LIFECYCLE_TRANSITION_INVALID" detailCode message args

/-- `_not_found`: unknown and invisible items are refused alike. -/
def itemNotFound : PyError :=
  lifecycleError "MEMORY_NOT_FOUND" "ITEM_NOT_VISIBLE" "no visible memory item has this id"

def assertionError : PyError := ⟨.foreign "AssertionError", "", []⟩

/-! ## Requests -/

/-- The part every request has. -/
structure Envelope where
  operationId : PyStr
  governedContext : GovernedContext
  governedContextDigest : PyStr
  deadline : Instant

structure TransitionRequest extends Envelope where
  memoryVersion : ℤ
  targetStatus : PyStr
  reasonCode : PyStr
  legalHoldRef : Option PyStr

structure DeletionRequest extends Envelope where
  reasonCode : PyStr
  deletionScope : PyStr

/-- `_Request`, an envelope that was accepted. -/
structure Request where
  operationId : PyStr
  context : GovernedContext
  gcsDigest : PyStr
  binding : VerifiedGovernedContextBinding

/-- `_Plan`: one resolved transition of one item. -/
structure Plan where
  action : PyStr
  request : Request
  head : AdmittedMemoryVersion
  target : LifecycleStatus
  reasonCode : PyStr
  requestDigest : PyStr
  legalHoldRef : Option PyStr := none

structure LifecycleReceipt where
  operationId : PyStr
  operationKind : PyStr
  status : PyStr
  governedContextDigest : PyStr
  auditRef : PyStr
  memoryVersionRef : PyStr
  lifecycleStatus : LifecycleStatus
  deletionEpoch : Option ℕ
  tombstoneDigest : Option PyStr
deriving DecidableEq

structure SweepReport where
  operationId : PyStr
  operationKind : LifecycleOperation
  processed : List PyStr
  held : List PyStr
  incomplete : List PyStr
  unresolved : List PyStr
  deferred : List PyStr
  auditRef : PyStr
deriving DecidableEq

/-! ## The coordinator -/

/-- What the audit sink is given. -/
inductive AuditRecord
  | version (event : AuditEvent)
  | denial (action reasonCode detailCode : String) (operationId memoryItemId governedContextDigest bindingRef
      correlationId : Option PyStr) (instant : Instant)
  | sweep (operationId : PyStr) (kind : LifecycleOperation) (processed held incomplete unresolved deferred : List PyStr)
      (governedContextDigest bindingRef correlationId : PyStr) (instant : Instant)

/-- Every committed version of one item being forgotten. -/
structure DeletionTarget where
  memoryItemId : PyStr
  versions : List StoredVersion
  deletionEpoch : ℕ
  operationId : PyStr
  binding : VerifiedGovernedContextBinding

/-- One store, index, cache, replica or export the deletion saga must empty. It may read
the metadata store; what it writes lies outside the version stores. -/
structure Participant (ω : Type) where
  name : PyStr
  purge : MetadataStore → DeletionTarget → Op ω Raised Unit
  residue : MetadataStore → DeletionTarget → Op ω Raised (List PyStr)
  /-- The content objects kept because another item shares them; only the content participant has this. -/
  retained : Option (MetadataStore → DeletionTarget → Op ω Raised (List PyStr)) := none

structure Coordinator (ω : Type) where
  backend : Backend ω
  dominates : PyStr → PyStr → Except PyError Bool
  audit : AuditRecord → Op ω Raised Unit
  participants : List (Participant ω)
  /-- "deletion participants must be non-empty with unique names". -/
  named : participants ≠ [] ∧ (participants.map Participant.name).Nodup
  horizons : Dict PyStr Duration
  /-- `store.embed_query`, when the store is an `EmbeddingLifecycleCoordinator`. -/
  embedQuery : Option (GovernedMemoryItem → PyStr → Op ω Raised (List Binary64))
  /-- `invalidate_all` over one partition, when representations are configured. -/
  invalidateAll : Option (MemoryPartition → VerifiedGovernedContextBinding → PyStr → Op ω Raised Unit)

/-- What tells the versions of one operation apart: a plain transition, or a step of the deletion saga. -/
inductive Phase
  | transition
  | pending
  | outcome
deriving DecidableEq

def Phase.suffix : Phase → PyStr
  | transition => []
  | pending => py ":PENDING"
  | outcome => py ":OUTCOME"

def Phase.value : Phase → String
  | transition => "TRANSITION"
  | pending => "PENDING"
  | outcome => "OUTCOME"

/-- The operation id a lifecycle version is keyed by. -/
def lifecycleOperationId (operationId : PyStr) (phase : Phase) : PyStr := py "lifecycle:" ++ operationId ++ phase.suffix

/-! ## The next version -/

/-- The fields of the version after `head`: those of `head`, but for what the change is about. -/
def successorFields (head : GovernedMemoryItem) (status : LifecycleStatus) (legalHoldRef : Option PyStr)
    (deletionEpoch : Option ℕ) (createdAt : Instant) : MemoryFields :=
  let kept {α : Type} (value : Option α) : Option α := if status.isDeletion then none else value
  { head.toMemoryFields with
    memoryVersion := head.memoryVersion + 1
    supersedesRef := some head.versionRef
    correctionOfRef := none
    lifecycleStatus := status
    createdAt := createdAt
    legalHoldRef := if status = .legalHold then legalHoldRef else none
    priorLifecycleStatus := if status = .legalHold then some head.lifecycleStatus else none
    deletionEpoch := if status.isDeletion then deletionEpoch else none
    -- A deletion version has no projection: structured metadata only.
    representationKinds := if status.isDeletion then [.structured] else head.representationKinds
    embeddingModelRef := kept head.embeddingModelRef
    embeddingModelDigest := kept head.embeddingModelDigest
    embeddingDimensions := kept head.embeddingDimensions
    embeddingNormalizationProfile := kept head.embeddingNormalizationProfile
    embeddingRef := kept head.embeddingRef
    embeddingDigest := kept head.embeddingDigest }

def Plan.lifecycleEvent (plan : Plan) (phase : Phase) (head : GovernedMemoryItem) (status : LifecycleStatus)
    (deletionEpoch : Option ℕ) : LifecycleEvent :=
  .changed { operation := plan.action, operationId := plan.request.operationId, requestDigest := plan.requestDigest,
             fromStatus := head.lifecycleStatus, toStatus := status, reasonCode := plan.reasonCode,
             legalHoldRef := if status = .legalHold then plan.legalHoldRef else none,
             deletionEpoch := deletionEpoch, phase := py phase.value }

def Plan.auditEvent (plan : Plan) (decision : MemoryPolicyDecision) (head item : GovernedMemoryItem)
    (deletionEpoch : Option ℕ) (now : Instant) : AuditEvent where
  action := plan.action
  operationId := plan.request.operationId
  memoryVersionRef := item.versionRef
  itemDigest := item.digest
  policyDecisionRef := decision.decisionRef
  policyBundleDigest := decision.policyBundleDigest
  governedContextDigest := plan.request.gcsDigest
  bindingRef := plan.request.binding.bindingRef
  correlationId := plan.request.context.correlationId
  instant := now
  detail := .lifecycle head.lifecycleStatus item.lifecycleStatus plan.reasonCode plan.requestDigest deletionEpoch

/-- The record of an item that a lifecycle operation appends after `head`. -/
def Plan.record (plan : Plan) (decision : MemoryPolicyDecision) (phase : Phase) (head : AdmittedMemoryVersion)
    (item : GovernedMemoryItem) (deletionEpoch : Option ℕ) (now : Instant) : AdmittedMemoryVersion :=
  let auditEvent := plan.auditEvent decision head.item item deletionEpoch now
  { item, itemDigest := item.digest,
    idempotencyKey := idempotencyKey item (lifecycleOperationId plan.request.operationId phase),
    lifecycleEvent := plan.lifecycleEvent phase head.item item.lifecycleStatus deletionEpoch,
    auditEvent,
    receipt := { memoryItemId := item.memoryItemId, memoryVersion := item.memoryVersion,
                 contentDigest := item.contentDigest, lifecycleStatus := item.lifecycleStatus,
                 governedContextDigest := item.governedContextDigest,
                 auditRef := canonicalDigest auditEvent.toMapping } }

/-- `_version`, at the time it reads. -/
def Plan.version (plan : Plan) (decision : MemoryPolicyDecision) (deletionEpoch : Option ℕ) (status : LifecycleStatus)
    (phase : Phase) (head : AdmittedMemoryVersion) (now : Instant) : Except PyError AdmittedMemoryVersion := do
  refuseIf (status = .legalHold ∧ plan.legalHoldRef = none) assertionError
  refuseIf (status.isDeletion = true ∧ deletionEpoch = none) assertionError
  let item ← (successorFields head.item status plan.legalHoldRef deletionEpoch now).validated
  return plan.record decision phase head item deletionEpoch now

/-- What a lifecycle operation that wrote the record answers. -/
def AdmittedMemoryVersion.lifecycleReceipt (record : AdmittedMemoryVersion) (operationId : PyStr) (status : String)
    (tombstone : Option TombstoneEntry) : LifecycleReceipt where
  operationId := operationId
  operationKind := record.lifecycleEvent.get (·.operation)
  status := py status
  governedContextDigest := record.auditEvent.governedContextDigest
  auditRef := record.receipt.auditRef
  memoryVersionRef := record.item.versionRef
  lifecycleStatus := record.item.lifecycleStatus
  deletionEpoch := record.item.deletionEpoch
  tombstoneDigest := tombstone.map TombstoneEntry.digest

namespace Coordinator
variable {ω : Type} (c : Coordinator ω) (env : Env)

/-! ## Resolution -/

/-- `_visible`; an unknown marking is not dominated. -/
def visible (item : GovernedMemoryItem) (context : GovernedContext) : Act ω Bool := do
  let dominated ← Op.guarded (query env fun _ _ => c.dominates context.classificationMarkingRef item.classificationMarkingRef)
    fun why =>
      match why with
      | .exception e => if e.cls.isMemoryError then pure false else Op.raise why
      | .interrupt => Op.raise .interrupt
  return item.tenantId = context.tenantId && item.organizationId = context.organizationId &&
    item.domainId = context.domainId && item.purpose = context.purpose &&
    (item.compartments.all fun compartment => compartment ∈ context.compartments) && dominated

/-- The record of the item's latest ledger version. -/
def latestRecord (memoryItemId : PyStr) : Act ω (Option AdmittedMemoryVersion) := do
  let latest ← ledgerLatest env memoryItemId
  if latest = 0 then pure none else ledgerGet env memoryItemId latest

/-- `_committed_head`. -/
def committedHead (memoryItemId : PyStr) (context : GovernedContext) : Act ω AdmittedMemoryVersion := do
  let found ← latestRecord env memoryItemId
  let record ← Op.lift ((orRaise found itemNotFound).mapError .exception)
  let seen ← c.visible env record.item context
  check (seen = false) itemNotFound
  let head ← metadataHead env memoryItemId
  check (head ≠ record.item.memoryVersion)
    (lifecycleError "REPRESENTATION_NOT_READY" "HEAD_NOT_COMMITTED" "the latest version of the item is not committed yet")
  return record

/-- `_decide`. -/
def decide (action : PyStr) (item : GovernedMemoryItem) (target : LifecycleStatus) (context : GovernedContext) :
    Act ω MemoryPolicyDecision := do
  let answer ← failClosed ErrorClass.isMemoryError
    (lifecycleError "CONTROL_PLANE_UNAVAILABLE" "POLICY_UNAVAILABLE" "policy evaluation failed closed")
    (query env fun n _ => .ok (env.authorizeLifecycle n action item target context))
  let decision ← Op.lift ((orRaise answer (lifecycleError "CONTROL_PLANE_UNAVAILABLE" "POLICY_DECISION_INVALID"
    "no policy decision")).mapError .exception)
  check (decision.policyBundleDigest ≠ context.policyBundleDigest)
    (lifecycleError "STALE_POLICY" "POLICY_BUNDLE_MISMATCH" "policy decision was not evaluated against the context bundle")
  check (decision.permitted = false)
    (lifecycleError "POLICY_DENIED" "LIFECYCLE_DENIED" "policy denied the lifecycle operation")
  return decision

/-- `_hold`. -/
def hold (legalHoldRef : PyStr) (context : GovernedContext) : Act ω (Option LegalHoldStatus) := do
  let status ← failClosed (fun _ => false)
    (lifecycleError "CONTROL_PLANE_UNAVAILABLE" "LEGAL_HOLD_REGISTRY_UNAVAILABLE" "the legal hold registry could not be read")
    (query env fun n _ => .ok (env.legalHold n legalHoldRef context))
  check (∃ s ∈ status, s.legalHoldRef ≠ legalHoldRef)
    (lifecycleError "CONTROL_PLANE_UNAVAILABLE" "LEGAL_HOLD_REGISTRY_INVALID"
      "the legal hold registry returned an invalid status")
  return status

/-- `_require_released`. -/
def requireReleased (head : GovernedMemoryItem) (context : GovernedContext) : Act ω Unit := do
  let legalHoldRef ← Op.lift ((orRaise head.legalHoldRef assertionError).mapError .exception)
  let status ← hold env legalHoldRef context
  check (¬ ∃ s ∈ status, s.active = false)
    (lifecycleError "LEGAL_HOLD_ACTIVE" "LEGAL_HOLD_NOT_RELEASED"
      "the item is under a legal hold that has not been released")

/-- `_stop_epoch`. -/
def stopEpoch (context : GovernedContext) : Act ω ℤ := do
  let answer ← failClosed (fun _ => false)
    (lifecycleError "CONTROL_PLANE_UNAVAILABLE" "STOP_STATE_UNKNOWN" "stop state is unavailable")
    (query env fun n _ => .ok (env.stopEpoch n context))
  Op.lift ((orRaise answer (lifecycleError "CONTROL_PLANE_UNAVAILABLE" "STOP_STATE_INVALID"
    "stop state is invalid")).mapError .exception)

/-- `_require_stop_epoch`. -/
def requireStopEpoch (context : GovernedContext) (expected : Option ℤ) : Act ω Unit :=
  match expected with
  | none => pure ()
  | some expected => do
    let epoch ← stopEpoch env context
    check (epoch ≠ expected) (lifecycleError "STOP_EPOCH_MISMATCH" "STOP_EPOCH_CHANGED"
      "the stop epoch changed before the item could be re-opened")

/-- A transition to `LEGAL_HOLD` names an active hold of the item's tenant; no other names one. -/
def checkHoldRef (head : GovernedMemoryItem) (target : LifecycleStatus) (context : GovernedContext)
    (legalHoldRef : Option PyStr) : Act ω Unit :=
  if target = .legalHold then do
    let legalHoldRef ← Op.lift ((orRaise legalHoldRef (lifecycleSchemaError "LEGAL_HOLD_REF_MISSING"
      "LEGAL_HOLD requires legal_hold_ref")).mapError .exception)
    let status ← hold env legalHoldRef context
    check (¬ ∃ s ∈ status, s.tenantId = head.tenantId ∧ s.active = true)
      (lifecycleError "POLICY_DENIED" "LEGAL_HOLD_NOT_ACTIVE" "legal_hold_ref is not an active hold of the item's tenant")
  else
    check (legalHoldRef ≠ none) (lifecycleSchemaError "LEGAL_HOLD_REF_UNEXPECTED" "legal_hold_ref is only for LEGAL_HOLD")

/-- A held item leaves its hold only once it is released, to its prior disposition or into deletion. -/
def checkRelease (head : GovernedMemoryItem) (target : LifecycleStatus) (context : GovernedContext) : Act ω Unit :=
  if head.lifecycleStatus = .legalHold then do
    requireReleased env head context
    check (target ≠ .deletionPending ∧ some target ≠ head.priorLifecycleStatus)
      (invalidTransition "PRIOR_DISPOSITION_REQUIRED" "leaving LEGAL_HOLD restores exactly the recorded prior disposition")
  else
    pure ()

/-- `_check_fsm`. -/
def checkFsm (head : GovernedMemoryItem) (target : LifecycleStatus) (context : GovernedContext)
    (legalHoldRef : Option PyStr) : Act ω Unit := do
  check (target = .deleted ∨ target = .deletionIncomplete)
    (invalidTransition "SAGA_OWNED_STATUS" "%s is reached only by the deletion saga" [.text (py target.value)])
  check (target ∉ head.lifecycleStatus.transitions)
    (invalidTransition "TRANSITION_NOT_DECLARED" "%s -> %s is not a lifecycle transition"
      [.text (py head.lifecycleStatus.value), .text (py target.value)])
  checkHoldRef env head target context legalHoldRef
  checkRelease env head target context

/-! ## Versions, the ledger and receipts -/

/-- `_version`. -/
def version (plan : Plan) (decision : MemoryPolicyDecision) (deletionEpoch : Option ℕ) (status : LifecycleStatus)
    (phase : Phase) (head : AdmittedMemoryVersion) : Act ω AdmittedMemoryVersion := do
  let now ← now env
  Op.lift ((plan.version decision deletionEpoch status phase head now).mapError .exception)

/-- `_append`: a conflict means that another version was written meanwhile. -/
def append (record : AdmittedMemoryVersion) : Act ω Unit :=
  Op.guarded (ledgerAppend env record) fun why =>
    match why with
    | .exception ⟨.memoryError _ "MEMORY_IDEMPOTENCY_CONFLICT" _, _, _⟩ =>
      Op.raise (.exception (invalidTransition "CONCURRENT_TRANSITION" "another version was written concurrently"))
    | other => Op.raise other

/-- `_recorded`: the key is taken from the item's latest version. -/
def recorded (memoryItemId operationId : PyStr) (phase : Phase) : Act ω (Option AdmittedMemoryVersion) := do
  let latest ← latestRecord env memoryItemId
  match latest with
  | none => pure none
  | some record => ledgerByKey env (idempotencyKey record.item (lifecycleOperationId operationId phase))

/-- `_receipt`: there is none without its audit event. -/
def receipt (record : AdmittedMemoryVersion) (request : Request) (status : String) (tombstone : Option TombstoneEntry) :
    Act ω LifecycleReceipt := do
  failClosed (fun _ => false)
    (lifecycleError "CONTROL_PLANE_UNAVAILABLE" "AUDIT_UNAVAILABLE" "the operation could not be audited; a replay completes it")
    (outside env (c.audit (.version record.auditEvent)))
  return record.lifecycleReceipt request.operationId status tombstone

/-! ## Transitions that keep the content -/

/-- `_embedding`: re-derived with the pinned model, which must reproduce the admitted one. -/
def embedding (item : GovernedMemoryItem) (payload : Bytes) : Act ω (Option (List Binary64)) :=
  if .vector ∉ item.representationKinds then
    pure none
  else do
    let embedQuery ← Op.lift ((orRaise c.embedQuery (lifecycleError "REPRESENTATION_NOT_READY"
      "EMBEDDING_SOURCE_UNAVAILABLE" "no pinned embedding model can rebuild the vector of the new version")).mapError .exception)
    let _ ← Op.lift ((vectorProfileVersion item).mapError .exception)
    let document ← Op.lift ((lexicalDocument payload).mapError .exception)
    let values ← outside env (embedQuery item document)
    check (item.embeddingDigest ≠ some (c.backend.vectorDigest values))
      (lifecycleError "REPRESENTATION_NOT_READY" "EMBEDDING_NOT_REPRODUCIBLE"
        "the pinned model does not reproduce the admitted embedding")
    return some values

/-- `_content_of`: the verified content of the predecessor and the embedding. -/
def contentOf (record : AdmittedMemoryVersion) : Act ω (Bytes × Option (List Binary64)) := do
  let found ← ledgerGet env record.item.memoryItemId (record.item.memoryVersion - 1)
  let previous ← Op.lift ((orRaise found assertionError).mapError .exception)
  let payload ← c.backend.readVersion env (MemoryPartition.forItem previous.item) previous.item.memoryItemId
    previous.item.memoryVersion
  let embedding ← c.embedding env record.item payload
  return (payload, embedding)

/-- `_invalidate_representations`. -/
def invalidateRepresentations (record : AdmittedMemoryVersion) (binding : VerifiedGovernedContextBinding) : Act ω Unit :=
  match c.invalidateAll with
  | none => pure ()
  | some invalidateAll =>
    if record.item.lifecycleStatus = .active then
      pure ()
    else
      Op.guarded (outside env (invalidateAll (MemoryPartition.forItem record.item) binding
          (py "lifecycle:" ++ record.item.versionRef))) fun why =>
        match why with
        | .exception e =>
          if e.cls.isMemoryError then
            Op.raise (.exception (lifecycleError "REPRESENTATION_NOT_READY" "REPRESENTATION_NOT_INVALIDATED"
              "parallel representations were not invalidated; a replay completes it"))
          else Op.raise why
        | .interrupt => Op.raise .interrupt

/-- `_commit_content_version`: with the content of the predecessor, read again when it is not at hand. -/
def commitContentVersion (record : AdmittedMemoryVersion) (binding : VerifiedGovernedContextBinding)
    (content : Option (Bytes × Option (List Binary64))) : Act ω Unit := do
  let stored ← metadataGet env record.item.memoryItemId record.item.memoryVersion
  if ∃ s ∈ stored, s.state = .committed then
    c.invalidateRepresentations env record binding
  else do
    let content ← (match content with
      | some content => pure content
      | none => c.contentOf env record)
    let _ ← c.backend.commit env record content.1 content.2
    c.invalidateRepresentations env record binding

/-- `_apply`. -/
def apply (plan : Plan) : Act ω LifecycleReceipt := do
  let decision ← decide env plan.action plan.head.item plan.target plan.request.context
  let expected ← (if plan.target = .active then some <$> stopEpoch env plan.request.context else pure none)
  let record ← version env plan decision none plan.target .transition plan.head
  -- Content and embedding are re-derived and verified before any write.
  let content ← c.contentOf env record
  requireStopEpoch env plan.request.context expected
  append env record
  c.commitContentVersion env record plan.request.binding (some content)
  c.receipt env record plan.request "COMPLETED" none

end Coordinator
end OcorRuntime.Memory

import OcorRuntime.Memory.Lifecycle

/-! Forgetting (`memory/lifecycle.py`): the deletion saga over the tombstone journal, the
version ledger, the metadata store and the deletion participants; what a repeated request
resumes; and the two public requests. -/
namespace OcorRuntime.Memory
open Kernel
set_option autoImplicit false
set_option maxHeartbeats 250000

/-! ## Deletion participants -/

namespace DeletionTarget

/-- One partition for each digest among the versions, by digest. -/
def partitions (target : DeletionTarget) : List MemoryPartition :=
  let seen := target.versions.foldl (fun found stored =>
    if (found.get? stored.staged.partition.digest).isSome then found
    else found.set stored.staged.partition.digest stored.staged.partition) (Dict.empty : Dict PyStr MemoryPartition)
  (sortedTexts seen.keys).filterMap seen.get?

/-- `_projection_pointers`. -/
def projectionPointers (target : DeletionTarget) : List (MemoryPartition × RepresentationPointer) :=
  target.versions.flatMap fun stored => stored.staged.projections.map fun pointer => (stored.staged.partition, pointer)

end DeletionTarget

/-- `NativeProjectionParticipant`, over the `remove` and `read_back` of the index of a kind. -/
def nativeProjectionParticipant {ω : Type} (remove : RepresentationKind → MemoryPartition → PyStr → PyStr → Op ω Raised Unit)
    (present : RepresentationKind → MemoryPartition → PyStr → PyStr → Op ω Raised Bool) : Participant ω where
  name := py "native-projections"
  purge _ target := target.projectionPointers.forM fun (partition, pointer) =>
    remove pointer.representationKind partition pointer.representationVersion pointer.storeRef
  residue _ target := do
    let left ← target.projectionPointers.filterM fun (partition, pointer) =>
      present pointer.representationKind partition pointer.representationVersion pointer.storeRef
    return left.map fun entry => entry.2.storeRef

namespace ContentParticipant

/-- The status of the head of an item in the metadata store. -/
def headStatus (metadata : MetadataStore) (memoryItemId : PyStr) : Option LifecycleStatus :=
  (metadata.get memoryItemId (metadata.head memoryItemId)).map fun stored => stored.staged.item.lifecycleStatus

/-- The content objects of the target, by reference. -/
def mine (target : DeletionTarget) : List PyStr :=
  sortedTexts (target.versions.map fun stored => stored.staged.contentObjectRef).eraseDups

/-- Another item, not deleted, still refers to the object. -/
def shared (metadata : MetadataStore) (target : DeletionTarget) (ref : PyStr) : Bool :=
  target.partitions.any fun partition => (metadata.versionsIn partition.digest).any fun stored =>
    stored.staged.memoryItemId ≠ target.memoryItemId && stored.staged.contentObjectRef = ref &&
      headStatus metadata stored.staged.memoryItemId ≠ some .deleted

/-- `_objects`: those to delete and those to retain. -/
def objects (metadata : MetadataStore) (target : DeletionTarget) : List PyStr × List PyStr :=
  (mine target).partition fun ref => !shared metadata target ref

/-- `ContentParticipant`, over the `delete` and `get` of the content store. -/
def participant {ω : Type} (delete : PyStr → Op ω Raised Unit) (present : PyStr → Op ω Raised Bool) : Participant ω where
  name := py "content"
  purge metadata target := (objects metadata target).1.forM delete
  residue metadata target := (objects metadata target).1.filterM present
  retained := some fun metadata target => pure (objects metadata target).2

end ContentParticipant

/-! ## The saga -/

/-- Without repetition, sorted. -/
def sortedSet (texts : List PyStr) : List PyStr := sortedTexts texts.eraseDups

/-- The entry `_tombstone` writes for a version of an item, given the versions committed before it. -/
def Coordinator.tombstoneEntry {ω : Type} (c : Coordinator ω) (record : AdmittedMemoryVersion) (plan : Plan)
    (phase : TombstonePhase) (epoch : ℕ) (residue : List (PyStr × ℕ)) (retained : ℕ) (versions : List StoredVersion)
    (now : Instant) : TombstoneEntry where
  memoryItemId := record.item.memoryItemId
  tenantId := record.item.tenantId
  partitionDigests := sortedSet (versions.map (fun stored => stored.staged.partition.digest) ++
    [(MemoryPartition.forItem record.item).digest])
  versionRefs := sortedSet (versions.map (fun stored => stored.staged.memoryVersionRef) ++ [record.item.versionRef])
  deletionEpoch := epoch
  phase := phase
  reasonCode := plan.reasonCode
  operationId := plan.request.operationId
  participants := c.participants.map Participant.name
  residueCounts := residue.insertionSort fun a b => a.1 ≤ b.1
  retainedSharedObjects := retained
  stamp := formatUtcTimestamp now

/-- The committed ones among the versions 1 to `upto` of an item. -/
def MetadataStore.committedVersions (metadata : MetadataStore) (memoryItemId : PyStr) (upto : ℕ) : List StoredVersion :=
  (List.range' 1 upto).filterMap fun version => (metadata.get memoryItemId version).filter fun stored =>
    stored.state = .committed

namespace Coordinator
variable {ω : Type} (c : Coordinator ω) (env : Env)

/-- `_versions`; its reads change nothing, so they are one call. -/
def versions (memoryItemId : PyStr) (upto : ℕ) : Act ω (List StoredVersion) :=
  query env fun _ s => .ok (s.metadata.committedVersions memoryItemId upto)

/-- `_retire`: every earlier projection of the item leaves every query. -/
def retire (memoryItemId : PyStr) (belowVersion : ℕ) : Act ω Unit := do
  let earlier ← versions env memoryItemId (belowVersion - 1)
  failClosed (fun _ => false)
    (lifecycleError "REPRESENTATION_NOT_READY" "PREDECESSOR_NOT_RETIRED"
      "earlier projections were not retired; a replay completes it")
    ((sortLayouts (earlier.flatMap fun stored => stored.staged.layouts)).forM fun layout =>
      outside env (c.backend.retire layout.2.1 layout.1 layout.2.2 memoryItemId belowVersion))

/-- Stages a deletion version and commits it. -/
def switchMetadata (record : AdmittedMemoryVersion) (staged : StagedVersion) : Act ω Unit := do
  let stored ← metadataStage env staged
  if stored.state = .committed then
    pure ()
  else do
    let committedAt ← now env
    let committed ← metadataCommit env record.item.memoryItemId record.item.memoryVersion staged.stageDigest committedAt
    check (committed.state ≠ .committed)
      (lifecycleError "INTERNAL_ERROR" "METADATA_COMMIT_NOT_APPLIED" "metadata commit was not applied")

/-- `_commit_metadata_version`: a deletion version has no content, so the metadata store is all of it. -/
def commitMetadataVersion (record : AdmittedMemoryVersion) : Act ω Unit := do
  let existing ← metadataGet env record.item.memoryItemId record.item.memoryVersion
  if ∃ stored ∈ existing, stored.state = .committed then
    check (∃ stored ∈ existing, stored.staged.itemDigest ≠ record.itemDigest)
      (lifecycleError "INTERNAL_ERROR" "METADATA_SLOT_MISMATCH" "metadata holds another version")
  else do
    let stagedAt ← now env
    failClosed ErrorClass.isMemoryError
      (lifecycleError "REPRESENTATION_NOT_READY" "LIFECYCLE_COMMIT_INCOMPLETE"
        "%s is not committed; a replay completes it" [.text record.item.versionRef])
      (switchMetadata env record (stagedVersion record [structuredPointer record.item record.itemDigest] stagedAt))
    c.retire env record.item.memoryItemId record.item.memoryVersion

/-- `_tombstone`. -/
def tombstone (record : AdmittedMemoryVersion) (plan : Plan) (phase : TombstonePhase) (epoch : ℕ)
    (residue : List (PyStr × ℕ)) (retained : ℕ) : Act ω TombstoneEntry := do
  let earlier ← versions env record.item.memoryItemId (record.item.memoryVersion - 1)
  let now ← now env
  let entry := c.tombstoneEntry record plan phase epoch residue retained earlier now
  failClosed ErrorClass.isMemoryError
    (lifecycleError "CONTROL_PLANE_UNAVAILABLE" "TOMBSTONE_JOURNAL_UNAVAILABLE" "the deletion journal could not be written")
    (tombstoneAppend env entry)
  return entry

/-- `_last_tombstone`. -/
def lastTombstone (memoryItemId : PyStr) : Act ω (Option TombstoneEntry) := do
  let entries ← tombstoneEntries env memoryItemId
  return entries.getLast?

/-- A call of a deletion participant. -/
def participate {α : Type} (x : MetadataStore → DeletionTarget → Op ω Raised α) (target : DeletionTarget) : Act ω α :=
  port env fun _ s => ((x s.metadata target s.outside).1, { s with outside := (x s.metadata target s.outside).2 })

/-- What an unreadable answer is replaced by. -/
def orElse {α : Type} (instead : α) (x : Act ω α) : Act ω α :=
  Op.guarded x fun why =>
    match why with
    | .exception _ => pure instead
    | .interrupt => Op.raise .interrupt

/-- Every participant purges and then reads back its residue; a failed purge shows up as residue. -/
def purgeAll (target : DeletionTarget) (residue : List (PyStr × ℕ)) (retained : ℕ) :
    List (Participant ω) → Act ω (List (PyStr × ℕ) × ℕ)
  | [] => pure (residue, retained)
  | participant :: rest => do
    orElse () (participate env participant.purge target)
    let left ← orElse [py "UNVERIFIABLE"] (participate env participant.residue target)
    let kept ← (match participant.retained with
      | none => pure retained
      | some kept => List.length <$> participate env kept target)
    purgeAll target (if left = [] then residue else residue ++ [(participant.name, left.length)]) kept rest

/-- `_run_saga`. -/
def runSaga (pending : AdmittedMemoryVersion) (plan : Plan) (decision : MemoryPolicyDecision) : Act ω LifecycleReceipt := do
  let epoch ← Op.lift ((orRaise pending.item.deletionEpoch assertionError).mapError .exception)
  let earlier ← versions env pending.item.memoryItemId (pending.item.memoryVersion - 1)
  let (residue, retained) ← purgeAll env
    ⟨pending.item.memoryItemId, earlier, epoch, plan.request.operationId, plan.request.binding⟩ [] 0 c.participants
  let final : LifecycleStatus := if residue = [] then .deleted else .deletionIncomplete
  let outcome ← version env plan decision (some epoch) final .outcome pending
  let entry ← c.tombstone env outcome plan (if residue = [] then .completed else .incomplete) epoch residue retained
  append env outcome
  c.commitMetadataVersion env outcome
  c.receipt env outcome plan.request (if residue = [] then "COMPLETED" else "FAILED")
    (if residue = [] then some entry else none)

/-- `_check_forgettable`. -/
def checkForgettable (head : GovernedMemoryItem) (context : GovernedContext) : Act ω Unit :=
  if head.lifecycleStatus = .legalHold then
    requireReleased env head context
  else
    check (.deletionPending ∉ head.lifecycleStatus.transitions)
      (invalidTransition "TRANSITION_NOT_DECLARED" "%s cannot enter deletion" [.text (py head.lifecycleStatus.value)])

/-- A retry keeps the epoch of the incomplete deletion; anything else reserves the next one. -/
def reserveEpoch (head : GovernedMemoryItem) : Act ω ℕ :=
  match head.lifecycleStatus, head.deletionEpoch with
  | .deletionIncomplete, some epoch => pure epoch
  | _, _ => (· + 1) <$> tombstoneLatestEpoch env

/-- `_forget`. -/
def forget (plan : Plan) : Act ω LifecycleReceipt := do
  check (plan.head.item.lifecycleStatus = .deletionPending)
    (invalidTransition "DELETION_IN_PROGRESS" "the item is already being deleted")
  checkForgettable env plan.head.item plan.request.context
  let decision ← decide env plan.action plan.head.item .deletionPending plan.request.context
  let epoch ← reserveEpoch env plan.head.item
  let pending ← version env plan decision (some epoch) plan.target .pending plan.head
  let _ ← c.tombstone env pending plan .started epoch [] 0
  append env pending
  c.commitMetadataVersion env pending
  c.runSaga env pending plan decision

/-- `_resume_saga`. -/
def resumeSaga (pending : AdmittedMemoryVersion) (request : Request) : Act ω LifecycleReceipt := do
  let done ← recorded env pending.item.memoryItemId request.operationId .outcome
  match done with
  | some done => do
    let last ← lastTombstone env pending.item.memoryItemId
    let deleted := done.item.lifecycleStatus = .deleted
    c.receipt env done request (if deleted then "COMPLETED" else "FAILED") (if deleted then last else none)
  | none => do
    c.commitMetadataVersion env pending
    c.runSaga env pending
      { action := pending.lifecycleEvent.get (·.operation), request, head := pending, target := .deletionPending,
        reasonCode := pending.lifecycleEvent.get (·.reasonCode),
        requestDigest := pending.lifecycleEvent.get (·.requestDigest) }
      ⟨true, pending.auditEvent.policyDecisionRef, pending.auditEvent.policyBundleDigest⟩

/-- `_replay`. -/
def replay (memoryItemId : PyStr) (request : Request) (requestDigest : PyStr) : Act ω (Option LifecycleReceipt) := do
  let plain ← recorded env memoryItemId request.operationId .transition
  let first ← (match plain with
    | some record => pure (some record)
    | none => recorded env memoryItemId request.operationId .pending)
  match first with
  | none => pure none
  | some first => do
    check (first.item.memoryItemId ≠ memoryItemId ∨ first.lifecycleEvent.get (·.requestDigest) ≠ requestDigest)
      (lifecycleError "MEMORY_IDEMPOTENCY_CONFLICT" "OPERATION_REUSED"
        "operation_id is bound to another lifecycle request")
    if first.item.lifecycleStatus = .deletionPending then
      some <$> c.resumeSaga env first request
    else do
      c.commitContentVersion env first request.binding none
      some <$> c.receipt env first request "COMPLETED" none

/-! ## Requests -/

/-- `_envelope`: a live request under the binding's own governed context. -/
def envelope (request : Envelope) (binding : Option VerifiedGovernedContextBinding) : Act ω Request := do
  let binding ← Op.lift ((orRaise binding (lifecycleError "AUTHENTICATION_REQUIRED" "BINDING_MISSING"
    "lifecycle operations require an authenticated governed-context binding")).mapError .exception)
  check (request.operationId = []) (lifecycleSchemaError "ENVELOPE_INVALID" "operation_id must be a non-empty string")
  check (request.governedContextDigest = [])
    (lifecycleSchemaError "ENVELOPE_INVALID" "governed_context_digest must be a non-empty string")
  let now ← now env
  check (request.deadline ≤ now) (lifecycleError "POLICY_DENIED" "DEADLINE_EXCEEDED" "the request deadline has passed")
  check (request.governedContext ≠ binding.expected ∨
      request.governedContext.digest ≠ request.governedContextDigest)
    (lifecycleError "GOVERNED_CONTEXT_MISMATCH" "GOVERNED_CONTEXT_MISMATCH" "governed context mismatch")
  return ⟨request.operationId, request.governedContext, request.governedContext.digest, binding⟩

/-- `_record_denial`: an unaudited denial fails closed. -/
def recordDenial (kind : LifecycleOperation) (error : PyError) (operationId memoryItemId gcsDigest : Option PyStr)
    (binding : Option VerifiedGovernedContextBinding) : Act ω Unit := do
  let now ← now env
  failClosed (fun _ => false)
    (lifecycleError "CONTROL_PLANE_UNAVAILABLE" "AUDIT_UNAVAILABLE" "the denial could not be audited")
    (outside env (c.audit (.denial (kind.value ++ ".denied") error.cls.reasonCode error.cls.detailCode operationId
      memoryItemId gcsDigest (binding.map (·.bindingRef)) (binding.map (·.expected.correlationId)) now)))

/-- `except MemoryAdmissionError`: the refusal is recorded and raised on. -/
def denying {α : Type} (kind : LifecycleOperation) (operationId memoryItemId gcsDigest : Option PyStr)
    (binding : Option VerifiedGovernedContextBinding) (x : Act ω α) : Act ω α :=
  Op.guarded x fun why =>
    match why with
    | .exception e =>
      if e.cls.isMemoryError then do
        c.recordDenial env kind e operationId memoryItemId gcsDigest binding
        Op.raise why
      else Op.raise why
    | .interrupt => Op.raise .interrupt

/-- `_guarded`: what a refusal of the envelope records lacks the digest of the context. -/
def guardedRequest (kind : LifecycleOperation) (memoryItemId : PyStr) (request : Envelope)
    (binding : Option VerifiedGovernedContextBinding) (body : Request → Act ω LifecycleReceipt) : Act ω LifecycleReceipt := do
  let operationId := if binding.isSome ∧ request.operationId ≠ [] then some request.operationId else none
  let parsed ← c.denying env kind operationId (some memoryItemId) none binding (envelope env request binding)
  c.denying env kind operationId (some memoryItemId) (some parsed.gcsDigest) binding do
    check (memoryItemId = []) (lifecycleSchemaError "ENVELOPE_INVALID" "memory_item_id must be a non-empty string")
    body parsed

/-- `_reason`. -/
def checkReason (reasonCode : PyStr) : Act ω Unit := do
  check (reasonCode = []) (lifecycleSchemaError "ENVELOPE_INVALID" "reason_code must be a non-empty string")
  check (isReasonCode reasonCode = false)
    (lifecycleSchemaError "REASON_CODE_INVALID" "reason_code must be a bounded upper-case code")

end Coordinator

/-- What a transition request is identified by. -/
def TransitionRequest.digest (request : TransitionRequest) (memoryItemId gcsDigest : PyStr) : PyStr :=
  canonicalDigest (fields [("operation", some (.str (py LifecycleOperation.transition.value))),
    ("memory_item_id", some (.str memoryItemId)), ("memory_version", some (.int request.memoryVersion)),
    ("target_status", some (.str request.targetStatus)), ("reason_code", some (.str request.reasonCode)),
    ("legal_hold_ref", some ((request.legalHoldRef.map .str).getD .none)),
    ("governed_context_digest", some (.str gcsDigest))])

/-- What a deletion request is identified by. -/
def DeletionRequest.digest (request : DeletionRequest) (memoryItemId gcsDigest : PyStr) : PyStr :=
  canonicalDigest (fields [("operation", some (.str (py LifecycleOperation.delete.value))),
    ("memory_item_id", some (.str memoryItemId)), ("reason_code", some (.str request.reasonCode)),
    ("deletion_scope", some (.str request.deletionScope)), ("governed_context_digest", some (.str gcsDigest))])

namespace Coordinator
variable {ω : Type} (c : Coordinator ω) (env : Env)

/-- `_transition_request` once no earlier receipt answers it. -/
def freshTransition (memoryItemId : PyStr) (request : TransitionRequest) (parsed : Request) (target : LifecycleStatus) :
    Act ω LifecycleReceipt := do
  let head ← c.committedHead env memoryItemId parsed.context
  check ((head.item.memoryVersion : ℤ) ≠ request.memoryVersion)
    (invalidTransition "STALE_VERSION" "memory_version is not the current head")
  checkFsm env head.item target parsed.context request.legalHoldRef
  let plan : Plan :=
    { action := py LifecycleOperation.transition.value, request := parsed, head, target, reasonCode := request.reasonCode,
      requestDigest := request.digest memoryItemId parsed.gcsDigest, legalHoldRef := request.legalHoldRef }
  if target = .deletionPending then c.forget env plan else c.apply env plan

/-- `_transition_request`. -/
def transitionRequest (memoryItemId : PyStr) (request : TransitionRequest) (parsed : Request) : Act ω LifecycleReceipt := do
  check (request.memoryVersion < 1) (lifecycleSchemaError "ENVELOPE_INVALID" "memory_version must be a positive integer")
  check (request.targetStatus = []) (lifecycleSchemaError "ENVELOPE_INVALID" "target_status must be a non-empty string")
  let target ← Op.lift ((orRaise (LifecycleStatus.ofValue? request.targetStatus)
    (lifecycleSchemaError "TARGET_STATUS_INVALID" "target_status is not declared")).mapError .exception)
  checkReason request.reasonCode
  check (request.legalHoldRef = some []) (lifecycleSchemaError "ENVELOPE_INVALID" "legal_hold_ref must be a non-empty string")
  check (target = .deletionPending ∧ request.reasonCode ∉ forgettingTriggers)
    (lifecycleSchemaError "FORGETTING_TRIGGER_INVALID" "forgetting needs a declared trigger")
  let replayed ← c.replay env memoryItemId parsed (request.digest memoryItemId parsed.gcsDigest)
  match replayed with
  | some receipt => pure receipt
  | none => c.freshTransition env memoryItemId request parsed target

/-- `transition`. -/
def transition (memoryItemId : PyStr) (request : TransitionRequest) (binding : Option VerifiedGovernedContextBinding) :
    Act ω LifecycleReceipt :=
  c.guardedRequest env .transition memoryItemId request.toEnvelope binding (c.transitionRequest env memoryItemId request)

/-- `_deletion_request` once no earlier receipt answers it. -/
def freshDeletion (memoryItemId : PyStr) (request : DeletionRequest) (parsed : Request) : Act ω LifecycleReceipt := do
  check (request.deletionScope ≠ py "ALL_VERSIONS")
    (lifecycleError "UNSUPPORTED_CAPABILITY" "DELETION_SCOPE_UNSUPPORTED"
      "%s deletion is not supported; delete the item with ALL_VERSIONS" [.text request.deletionScope])
  let head ← c.committedHead env memoryItemId parsed.context
  c.forget env { action := py LifecycleOperation.delete.value, request := parsed, head, target := .deletionPending,
                 reasonCode := request.reasonCode, requestDigest := request.digest memoryItemId parsed.gcsDigest }

/-- `_deletion_request`. -/
def deletionRequest (memoryItemId : PyStr) (request : DeletionRequest) (parsed : Request) : Act ω LifecycleReceipt := do
  checkReason request.reasonCode
  check (request.reasonCode ∉ forgettingTriggers)
    (lifecycleSchemaError "FORGETTING_TRIGGER_INVALID" "reason_code is not a forgetting trigger")
  check (request.deletionScope = []) (lifecycleSchemaError "ENVELOPE_INVALID" "deletion_scope must be a non-empty string")
  check (request.deletionScope ∉ [py "LATEST_VERSION", py "ALL_VERSIONS", py "PROJECT_SCOPE", py "PRINCIPAL_SCOPE"])
    (lifecycleSchemaError "DELETION_SCOPE_INVALID" "deletion_scope is not declared")
  let replayed ← c.replay env memoryItemId parsed (request.digest memoryItemId parsed.gcsDigest)
  match replayed with
  | some receipt => pure receipt
  | none => c.freshDeletion env memoryItemId request parsed

/-- `request_deletion`. -/
def requestDeletion (memoryItemId : PyStr) (request : DeletionRequest) (binding : Option VerifiedGovernedContextBinding) :
    Act ω LifecycleReceipt :=
  c.guardedRequest env .delete memoryItemId request.toEnvelope binding (c.deletionRequest env memoryItemId request)

end Coordinator
end OcorRuntime.Memory

import OcorRuntime.Base.Time
import OcorRuntime.Kernel.GovernedContext

/-! Governed memory items (`memory/model.py`), their partitions (`memory/stores.py`) and
the admitted versions the ledger keeps. An item carries the conditional rules of its
schema, so an item that breaks one cannot be built. -/
namespace OcorRuntime.Memory
open Kernel
set_option autoImplicit false
set_option maxHeartbeats 250000

/-! ## Vocabulary -/

inductive MemoryKind
  | working | episodic | semantic | procedural | preference | reflection | dissent | teamShared
deriving DecidableEq

namespace MemoryKind

def value : MemoryKind → String
  | working => "WORKING"
  | episodic => "EPISODIC"
  | semantic => "SEMANTIC"
  | procedural => "PROCEDURAL"
  | preference => "PREFERENCE"
  | reflection => "REFLECTION"
  | dissent => "DISSENT"
  | teamShared => "TEAM_SHARED"

end MemoryKind

inductive MemoryScope
  | run | task | agent | team | project | domain | federated
deriving DecidableEq

namespace MemoryScope

def value : MemoryScope → String
  | run => "RUN"
  | task => "TASK"
  | agent => "AGENT"
  | team => "TEAM"
  | project => "PROJECT"
  | domain => "DOMAIN"
  | federated => "FEDERATED"

end MemoryScope

inductive SourceKind
  | observation | evidence | toolResult | humanInput | modelOutput | derivedSummary | procedure | preference
  | memoryConsolidation
deriving DecidableEq

namespace SourceKind

def value : SourceKind → String
  | observation => "OBSERVATION"
  | evidence => "EVIDENCE"
  | toolResult => "TOOL_RESULT"
  | humanInput => "HUMAN_INPUT"
  | modelOutput => "MODEL_OUTPUT"
  | derivedSummary => "DERIVED_SUMMARY"
  | procedure => "PROCEDURE"
  | preference => "PREFERENCE"
  | memoryConsolidation => "MEMORY_CONSOLIDATION"

end SourceKind

inductive RepresentationKind
  | structured | fullText | vector
deriving DecidableEq

namespace RepresentationKind

def value : RepresentationKind → String
  | structured => "STRUCTURED"
  | fullText => "FULL_TEXT"
  | vector => "VECTOR"

end RepresentationKind

inductive LifecycleStatus
  | proposed | active | quarantined | superseded | revoked | expired | legalHold | deletionPending
  | deletionIncomplete | deleted
deriving DecidableEq

namespace LifecycleStatus

def value : LifecycleStatus → String
  | proposed => "PROPOSED"
  | active => "ACTIVE"
  | quarantined => "QUARANTINED"
  | superseded => "SUPERSEDED"
  | revoked => "REVOKED"
  | expired => "EXPIRED"
  | legalHold => "LEGAL_HOLD"
  | deletionPending => "DELETION_PENDING"
  | deletionIncomplete => "DELETION_INCOMPLETE"
  | deleted => "DELETED"

def all : List LifecycleStatus :=
  [proposed, active, quarantined, superseded, revoked, expired, legalHold, deletionPending, deletionIncomplete, deleted]

/-- `LifecycleStatus(value)`. -/
def ofValue? (text : PyStr) : Option LifecycleStatus := all.find? fun status => py status.value = text

/-- `DELETION_STATUSES`. -/
def isDeletion (status : LifecycleStatus) : Bool :=
  status = deletionPending || status = deletionIncomplete || status = deleted

/-- `ADMISSION_STATUSES`, which are also the admittable heads of the lifecycle guard. -/
def isAdmission (status : LifecycleStatus) : Bool := status = proposed || status = active || status = quarantined

/-- `PRIOR_LIFECYCLE_STATUSES`. -/
def isPrior (status : LifecycleStatus) : Bool :=
  status = active || status = quarantined || status = superseded || status = revoked || status = expired

end LifecycleStatus

def memoryError (kind : MemoryErrorKind) (reasonCode detailCode message : String) (args : List ErrorArg := []) : PyError :=
  ⟨.memoryError kind reasonCode detailCode, reasonCode ++ "/" ++ detailCode ++ ": " ++ message, args⟩

/-- `_schema_error` of the admission model. -/
def schemaError (detailCode message : String) (args : List ErrorArg := []) : PyError :=
  memoryError .admission "MEMORY_SCHEMA_INVALID" detailCode message args

/-! ## Items -/

structure MemoryFields where
  memoryItemId : PyStr
  memoryVersion : ℕ
  memoryKind : MemoryKind
  memoryScope : MemoryScope
  ownerPrincipalId : PyStr
  tenantId : PyStr
  organizationId : PyStr
  domainId : PyStr
  compartments : List PyStr
  classificationMarkingRef : PyStr
  purpose : PyStr
  contentSchemaRef : PyStr
  contentRef : PyStr
  contentDigest : PyStr
  sourceKind : SourceKind
  sourceRef : PyStr
  sourceDigest : PyStr
  evidenceRefs : List PyStr
  provenanceRefs : List PyStr
  derivedFromRefs : List PyStr
  consolidatesRefs : List PyStr
  createdAt : Instant
  validFrom : Instant
  retentionPolicyRef : PyStr
  /-- An integer or a float between 0 and 1. -/
  confidence : PyValue
  policyBundleDigest : PyStr
  ontologyReleaseDigest : PyStr
  governedContextDigest : PyStr
  instructionEligible : Bool
  taintLabels : List PyStr
  representationKinds : List RepresentationKind
  lifecycleStatus : LifecycleStatus
  agentRunId : Option PyStr := none
  teamRunId : Option PyStr := none
  taskId : Option PyStr := none
  agentId : Option PyStr := none
  teamId : Option PyStr := none
  projectId : Option PyStr := none
  federationPolicyRef : Option PyStr := none
  language : Option PyStr := none
  supersedesRef : Option PyStr := none
  correctionOfRef : Option PyStr := none
  validUntil : Option Instant := none
  expiresAt : Option Instant := none
  legalHoldRef : Option PyStr := none
  uncertaintyRef : Option PyStr := none
  instructionApprovalRef : Option PyStr := none
  embeddingModelRef : Option PyStr := none
  embeddingModelDigest : Option PyStr := none
  embeddingDimensions : Option ℕ := none
  embeddingNormalizationProfile : Option PyStr := none
  embeddingRef : Option PyStr := none
  embeddingDigest : Option PyStr := none
  priorLifecycleStatus : Option LifecycleStatus := none
  deletionEpoch : Option ℕ := none

/-- The `{VECTOR_FIELDS}` an item lacks. -/
def MemoryFields.missingEmbedding (f : MemoryFields) : List String :=
  [("embedding_model_ref", f.embeddingModelRef.isNone), ("embedding_model_digest", f.embeddingModelDigest.isNone),
    ("embedding_dimensions", f.embeddingDimensions.isNone),
    ("embedding_normalization_profile", f.embeddingNormalizationProfile.isNone),
    ("embedding_ref", f.embeddingRef.isNone), ("embedding_digest", f.embeddingDigest.isNone)].filterMap fun field =>
      if field.2 then some field.1 else none

/-- `SCOPE_BINDINGS` of the item's scope, with the values it has for them. -/
def MemoryFields.scopeBindings (f : MemoryFields) : List (String × Option PyStr) :=
  match f.memoryScope with
  | .run => [("agent_run_id", f.agentRunId)]
  | .task => [("agent_run_id", f.agentRunId), ("task_id", f.taskId)]
  | .agent => [("agent_id", f.agentId)]
  | .team => [("team_id", f.teamId)]
  | .project => [("project_id", f.projectId)]
  | .domain => []
  | .federated => [("federation_policy_ref", f.federationPolicyRef)]

/-- `_validate_conditionals`. -/
def MemoryFields.validateConditionals (f : MemoryFields) : Except PyError Unit := do
  match f.scopeBindings.find? fun binding => binding.2.isNone with
  | some binding => .error (schemaError "SCOPE_BINDING_MISSING" "%s scope requires %s"
      [.text (py f.memoryScope.value), .text (py binding.1)])
  | none => .ok ()
  refuseIf (.vector ∈ f.representationKinds ∧ f.missingEmbedding ≠ [])
    (schemaError "EMBEDDING_BINDING_MISSING" "VECTOR representation requires %s"
      [.text (py (String.intercalate ", " f.missingEmbedding))])
  refuseIf (f.instructionEligible = true ∧ f.instructionApprovalRef = none)
    (schemaError "INSTRUCTION_APPROVAL_MISSING" "instruction_eligible requires instruction_approval_ref")
  refuseIf (f.lifecycleStatus = .legalHold ∧ (f.legalHoldRef = none ∨ f.priorLifecycleStatus = none))
    (schemaError "LEGAL_HOLD_BINDING_MISSING" "LEGAL_HOLD requires legal_hold_ref and prior_lifecycle_status")
  refuseIf (f.priorLifecycleStatus.any fun prior => !prior.isPrior)
    (schemaError "FIELD_INVALID" "prior_lifecycle_status is not declared")
  refuseIf (f.lifecycleStatus.isDeletion = true ∧ f.deletionEpoch = none)
    (schemaError "DELETION_EPOCH_MISSING" "deletion statuses require deletion_epoch")

structure GovernedMemoryItem extends MemoryFields where
  valid : toMemoryFields.validateConditionals = .ok ()

/-- `GovernedMemoryItem.from_mapping` on fields that are well formed one by one. -/
def MemoryFields.validated (f : MemoryFields) : Except PyError GovernedMemoryItem :=
  match h : f.validateConditionals with
  | .ok () => .ok ⟨f, h⟩
  | .error e => .error e

/-- `memory_version_ref`. -/
def memoryVersionRef (memoryItemId : PyStr) (memoryVersion : ℕ) : PyStr :=
  py "urn:ocor:memory:" ++ memoryItemId ++ py ":v" ++ natText memoryVersion

namespace GovernedMemoryItem

def versionRef (item : GovernedMemoryItem) : PyStr := memoryVersionRef item.memoryItemId item.memoryVersion

def toMapping (i : GovernedMemoryItem) : PyValue :=
  let text (s : PyStr) : Option PyValue := some (.str s)
  let optional (s : Option PyStr) : Option PyValue := s.map .str
  let instant (t : Instant) : Option PyValue := some (.str (formatUtcTimestamp t))
  fields [("memory_item_id", text i.memoryItemId), ("memory_version", some (.int i.memoryVersion)),
    ("memory_kind", text (py i.memoryKind.value)), ("memory_scope", text (py i.memoryScope.value)),
    ("owner_principal_id", text i.ownerPrincipalId), ("tenant_id", text i.tenantId),
    ("organization_id", text i.organizationId), ("domain_id", text i.domainId),
    ("compartments", some (strings i.compartments)), ("classification_marking_ref", text i.classificationMarkingRef),
    ("purpose", text i.purpose), ("content_schema_ref", text i.contentSchemaRef), ("content_ref", text i.contentRef),
    ("content_digest", text i.contentDigest), ("source_kind", text (py i.sourceKind.value)),
    ("source_ref", text i.sourceRef), ("source_digest", text i.sourceDigest),
    ("evidence_refs", some (strings i.evidenceRefs)), ("provenance_refs", some (strings i.provenanceRefs)),
    ("derived_from_refs", some (strings i.derivedFromRefs)), ("consolidates_refs", some (strings i.consolidatesRefs)),
    ("created_at", instant i.createdAt), ("valid_from", instant i.validFrom),
    ("retention_policy_ref", text i.retentionPolicyRef), ("confidence", some i.confidence),
    ("policy_bundle_digest", text i.policyBundleDigest), ("ontology_release_digest", text i.ontologyReleaseDigest),
    ("governed_context_digest", text i.governedContextDigest),
    ("instruction_eligible", some (.bool i.instructionEligible)), ("taint_labels", some (strings i.taintLabels)),
    ("representation_kinds", some (strings (i.representationKinds.map fun kind => py kind.value))),
    ("lifecycle_status", text (py i.lifecycleStatus.value)), ("agent_run_id", optional i.agentRunId),
    ("team_run_id", optional i.teamRunId), ("task_id", optional i.taskId), ("agent_id", optional i.agentId),
    ("team_id", optional i.teamId), ("project_id", optional i.projectId),
    ("federation_policy_ref", optional i.federationPolicyRef), ("language", optional i.language),
    ("supersedes_ref", optional i.supersedesRef), ("correction_of_ref", optional i.correctionOfRef),
    ("valid_until", i.validUntil.bind instant), ("expires_at", i.expiresAt.bind instant),
    ("legal_hold_ref", optional i.legalHoldRef), ("uncertainty_ref", optional i.uncertaintyRef),
    ("instruction_approval_ref", optional i.instructionApprovalRef),
    ("embedding_model_ref", optional i.embeddingModelRef), ("embedding_model_digest", optional i.embeddingModelDigest),
    ("embedding_dimensions", i.embeddingDimensions.map fun n => .int n),
    ("embedding_normalization_profile", optional i.embeddingNormalizationProfile),
    ("embedding_ref", optional i.embeddingRef), ("embedding_digest", optional i.embeddingDigest),
    ("prior_lifecycle_status", i.priorLifecycleStatus.map fun status => .str (py status.value)),
    ("deletion_epoch", i.deletionEpoch.map fun n => .int n)]

def digest (item : GovernedMemoryItem) : PyStr := canonicalDigest item.toMapping

end GovernedMemoryItem

/-! ## Partitions -/

structure MemoryPartition where
  tenantId : PyStr
  organizationId : PyStr
  domainId : PyStr
  compartments : List PyStr
  classificationMarkingRef : PyStr
  purpose : PyStr
  policyBundleDigest : PyStr
  ontologyReleaseDigest : PyStr
  memoryScope : MemoryScope
  scopeBindings : List (String × PyStr)
deriving DecidableEq

/-- Python's `sorted`, of texts. -/
def sortedTexts (texts : List PyStr) : List PyStr := texts.insertionSort (· ≤ ·)

namespace MemoryPartition

/-- `MemoryPartition.for_item`; an item has the bindings of its scope. -/
def forItem (item : GovernedMemoryItem) : MemoryPartition where
  tenantId := item.tenantId
  organizationId := item.organizationId
  domainId := item.domainId
  compartments := sortedTexts item.compartments
  classificationMarkingRef := item.classificationMarkingRef
  purpose := item.purpose
  policyBundleDigest := item.policyBundleDigest
  ontologyReleaseDigest := item.ontologyReleaseDigest
  memoryScope := item.memoryScope
  scopeBindings := item.scopeBindings.map fun binding => (binding.1, binding.2.getD [])

def toMapping (p : MemoryPartition) : PyValue :=
  fields [("tenant_id", some (.str p.tenantId)), ("organization_id", some (.str p.organizationId)),
    ("domain_id", some (.str p.domainId)), ("compartments", some (strings p.compartments)),
    ("classification_marking_ref", some (.str p.classificationMarkingRef)), ("purpose", some (.str p.purpose)),
    ("policy_bundle_digest", some (.str p.policyBundleDigest)),
    ("ontology_release_digest", some (.str p.ontologyReleaseDigest)),
    ("memory_scope", some (.str (py p.memoryScope.value))),
    ("scope_bindings", some (.list (p.scopeBindings.map fun binding => strings [py binding.1, binding.2])))]

def digest (p : MemoryPartition) : PyStr := canonicalDigest p.toMapping

end MemoryPartition

/-! ## Admitted versions -/

/-- `(tenant_id, memory_scope, source_digest, content_digest, operation_id)`. -/
structure IdempotencyKey where
  tenantId : PyStr
  memoryScope : MemoryScope
  sourceDigest : PyStr
  contentDigest : PyStr
  operationId : PyStr
deriving DecidableEq

/-- `idempotency_key`. -/
def idempotencyKey (item : GovernedMemoryItem) (operationId : PyStr) : IdempotencyKey :=
  ⟨item.tenantId, item.memoryScope, item.sourceDigest, item.contentDigest, operationId⟩

structure MemoryReceipt where
  memoryItemId : PyStr
  memoryVersion : ℕ
  contentDigest : PyStr
  lifecycleStatus : LifecycleStatus
  governedContextDigest : PyStr
  auditRef : PyStr
deriving DecidableEq

/-- The event of a version a lifecycle operation wrote. -/
structure LifecycleChange where
  operation : PyStr
  operationId : PyStr
  requestDigest : PyStr
  fromStatus : LifecycleStatus
  toStatus : LifecycleStatus
  reasonCode : PyStr
  legalHoldRef : Option PyStr
  deletionEpoch : Option ℕ
  phase : PyStr
deriving DecidableEq

inductive LifecycleEvent
  | admitted (memoryVersionRef : PyStr) (toStatus : LifecycleStatus) (instant : Instant)
  | changed (change : LifecycleChange)
deriving DecidableEq

/-- `str(lifecycle_event.get(name))` of a member that only lifecycle operations write. -/
def LifecycleEvent.get (event : LifecycleEvent) (member : LifecycleChange → PyStr) : PyStr :=
  match event with
  | .admitted _ _ _ => py "None"
  | .changed change => member change

def LifecycleEvent.toMapping : LifecycleEvent → PyValue
  | .admitted memoryVersionRef toStatus instant =>
    fields [("event_type", some (.str (py "MEMORY_ADMITTED"))), ("memory_version_ref", some (.str memoryVersionRef)),
      ("from_status", some .none), ("to_status", some (.str (py toStatus.value))),
      ("at", some (.str (formatUtcTimestamp instant)))]
  | .changed c =>
    fields [("event_type", some (.str (py "MEMORY_LIFECYCLE"))), ("operation", some (.str c.operation)),
      ("operation_id", some (.str c.operationId)), ("request_digest", some (.str c.requestDigest)),
      ("from_status", some (.str (py c.fromStatus.value))), ("to_status", some (.str (py c.toStatus.value))),
      ("reason_code", some (.str c.reasonCode)), ("legal_hold_ref", some ((c.legalHoldRef.map .str).getD .none)),
      ("deletion_epoch", some ((c.deletionEpoch.map fun n => .int n).getD .none)), ("phase", some (.str c.phase))]

/-- What the audit event of a version records besides what every one does. -/
inductive AuditDetail
  | admission (contentDigest lifecycleEventDigest : PyStr)
  | lifecycle (fromStatus toStatus : LifecycleStatus) (reasonCode requestDigest : PyStr) (deletionEpoch : Option ℕ)
deriving DecidableEq

structure AuditEvent where
  action : PyStr
  operationId : PyStr
  memoryVersionRef : PyStr
  itemDigest : PyStr
  policyDecisionRef : PyStr
  policyBundleDigest : PyStr
  governedContextDigest : PyStr
  bindingRef : PyStr
  correlationId : PyStr
  instant : Instant
  detail : AuditDetail
deriving DecidableEq

def AuditEvent.toMapping (e : AuditEvent) : PyValue :=
  fields ([("action", some (.str e.action)), ("operation_id", some (.str e.operationId)),
    ("memory_version_ref", some (.str e.memoryVersionRef)), ("item_digest", some (.str e.itemDigest)),
    ("policy_decision_ref", some (.str e.policyDecisionRef)),
    ("policy_bundle_digest", some (.str e.policyBundleDigest)),
    ("governed_context_digest", some (.str e.governedContextDigest)), ("binding_ref", some (.str e.bindingRef)),
    ("correlation_id", some (.str e.correlationId)), ("at", some (.str (formatUtcTimestamp e.instant)))] ++
    match e.detail with
    | .admission contentDigest lifecycleEventDigest =>
      [("content_digest", some (.str contentDigest)), ("lifecycle_event_digest", some (.str lifecycleEventDigest))]
    | .lifecycle fromStatus toStatus reasonCode requestDigest deletionEpoch =>
      [("outcome", some (.str (py "COMPLETED"))), ("from_status", some (.str (py fromStatus.value))),
        ("to_status", some (.str (py toStatus.value))), ("reason_code", some (.str reasonCode)),
        ("request_digest", some (.str requestDigest)),
        ("deletion_epoch", some ((deletionEpoch.map fun n => .int n).getD .none))])

/-- One record of the version ledger. -/
structure AdmittedMemoryVersion where
  item : GovernedMemoryItem
  itemDigest : PyStr
  idempotencyKey : IdempotencyKey
  lifecycleEvent : LifecycleEvent
  auditEvent : AuditEvent
  receipt : MemoryReceipt

structure MemoryPolicyDecision where
  permitted : Bool
  decisionRef : PyStr
  policyBundleDigest : PyStr
deriving DecidableEq

end OcorRuntime.Memory

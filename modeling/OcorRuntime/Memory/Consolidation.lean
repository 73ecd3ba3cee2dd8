import OcorRuntime.Memory.ConsolidationJobs
import OcorRuntime.Memory.ItemReading
import OcorRuntime.Memory.Saga

/-! The consolidation service (`memory/consolidation.py`): a consolidation derives dissent
items and one summary from its inputs, a correction derives the next version of a summary;
each is admitted under the guard, committed to the stores, audited and recorded. -/
namespace OcorRuntime.Memory
open Canonical Kernel
set_option autoImplicit false
set_option maxHeartbeats 250000

/-! ## The world of the service -/

/-- One item the service derived: what it was to be, and what the ledger took meanwhile. -/
structure Derivation where
  itemDigest : PyStr
  payload : Bytes
  appended : List AdmittedMemoryVersion

/-- What the service, its guard and its resolver keep; no code keeps the derivations and the
payloads that were corrected. -/
structure Registry where
  expected : Expected
  references : References
  jobs : JobLedger
  derivations : List Derivation
  corrected : List Bytes

structure ConsolidationWorld (ω : Type) where
  world : World ω
  registry : Registry

abbrev ConsolidationAct (ω : Type) := Op (ConsolidationWorld ω) Raised

structure ConsolidationEnv extends AdmissionEnv where
  authorizeConsolidation : ℕ → MemoryConsolidationJob → GovernedContext → Option MemoryPolicyDecision
  authorizeCorrection : ℕ → GovernedMemoryItem → GovernedContext → Option MemoryPolicyDecision

structure ConsolidationService (ω : Type) where
  admission : AdmissionService ω
  backend : Backend ω
  dominates : PyStr → PyStr → Except PyError Bool
  join : List PyStr → Except PyError PyStr
  profiles : ConsolidationProfileRegistry
  audit : PyValue → Op ω Raised Unit
  /-- `str` of a value that is no text. -/
  str : PyValue → PyStr

structure ConsolidationRequest extends Envelope where
  inputQueryDigest : PyStr
  inputItemRefs : List PyStr
  algorithmRef : PyStr
  algorithmDigest : PyStr
  targetMemoryKind : PyStr
  targetMemoryScope : PyStr
  reviewerPolicyRef : PyStr

structure CorrectionRequest extends Envelope where
  targetVersionRef : PyStr
  correctedStatements : PyValue
  correctionReasonRef : PyStr
  keyed : Keyed correctedStatements

/-- `_Request`, an envelope that was accepted. -/
structure AcceptedRequest where
  operationId : PyStr
  context : GovernedContext
  gcsDigest : PyStr
  deadline : Instant

/-- `_Derived`. -/
structure Derived where
  item : GovernedMemoryItem
  payload : Bytes
  operationSuffix : PyStr

/-- `_Plan`, with the digest of its job. -/
structure ConsolidationPlan where
  job : MemoryConsolidationJob
  jobDigest : PyStr
  context : GovernedContext
  bindings : List (String × PyStr)
  status : LifecycleStatus
  provenanceId : PyStr
  profile : ConsolidationProfile

/-- `_Failure`. -/
structure Failure where
  operationId : Option PyStr := none
  gcsDigest : Option PyStr := none
  correlationId : Option PyStr := none
  bindingRef : Option PyStr := none

/-! ## Operations -/

section Operations
variable {ω α : Type}

/-- A call of something that works on the memory world alone. -/
def inMemory (x : Act ω α) : ConsolidationAct ω α := fun w => ((x w.world).1, { w with world := (x w.world).2 })

def pureStep (x : Except PyError α) : ConsolidationAct ω α := Op.lift (x.mapError .exception)

def refuse (bad : Prop) [Decidable bad] (error : PyError) : ConsolidationAct ω Unit := pureStep (refuseIf bad error)

def registryOf : ConsolidationAct ω Registry := fun w => (.ok w.registry, w)

def updateRegistry (f : Registry → Registry) : ConsolidationAct ω Unit := Op.update fun w => { w with registry := f w.registry }

/-- A call of the job ledger; one that raises has written at most once it is past reading. -/
def jobsPort (env : Env) (x : JobLedger → Except Raised α × JobLedger) : ConsolidationAct ω α := fun w =>
  let answered : ConsolidationWorld ω := { w with world := ⟨w.world.stores, w.world.calls + 1⟩ }
  let written : ConsolidationWorld ω := { answered with registry := { w.registry with jobs := (x w.registry.jobs).2 } }
  match env.fault w.world.calls with
  | .works => ((x w.registry.jobs).1, written)
  | .raises why .untouched => (.error why, answered)
  | .raises why .caughtUp => (.error why, answered)
  | .raises why .written => (.error why, written)
  | .raises why .done => (.error why, written)

def jobsGet (env : Env) (tenantId operationId : PyStr) : ConsolidationAct ω (Option ConsolidationJobRecord) :=
  jobsPort env fun jobs => (.ok (jobs.get? (tenantId, operationId)), jobs)

def jobsAppend (env : Env) (record : ConsolidationJobRecord) : ConsolidationAct ω Unit :=
  jobsPort env fun jobs =>
    match jobs.append record with
    | .ok jobs' => (.ok (), jobs')
    | .error e => (.error (.exception e), jobs)

/-- `except MemoryAdmissionError: raise`, then `except Exception: raise error`. -/
def passingMemoryErrors (error : PyError) (x : ConsolidationAct ω α) : ConsolidationAct ω α :=
  Op.guarded x fun why =>
    match why with
    | .interrupt => Op.raise .interrupt
    | .exception e => Op.raise (.exception (if e.cls.isMemoryError then e else error))

end Operations

/-! ## Tables -/

/-- `_target_bindings`: every input has the one binding the target scope names. -/
def targetBindings (scope : MemoryScope) (items : List GovernedMemoryItem) : Except PyError (List (String × PyStr)) :=
  match items with
  | [] => .ok []
  | first :: rest => (AdmissionService.scopeBindingsFor scope first).mapM fun binding =>
      match binding.2 with
      | some value =>
        if ∀ item ∈ rest, binding ∈ AdmissionService.scopeBindingsFor scope item then .ok (binding.1, value)
        else .error (consolidationInvalid "TARGET_SCOPE_BINDING_UNRESOLVED"
          "%s target requires one shared %s across the inputs" [.text (py scope.value), .text (py binding.1)])
      | none => .error (consolidationInvalid "TARGET_SCOPE_BINDING_UNRESOLVED"
          "%s target requires one shared %s across the inputs" [.text (py scope.value), .text (py binding.1)])

/-- `mapping.update(bindings)`. -/
def MemoryFields.bound (f : MemoryFields) (bindings : List (String × PyStr)) : MemoryFields :=
  let binding (name : String) : Option PyStr := (bindings.find? fun b => b.1 = name).map Prod.snd
  { f with agentRunId := binding "agent_run_id", taskId := binding "task_id", agentId := binding "agent_id",
           teamId := binding "team_id", projectId := binding "project_id",
           federationPolicyRef := binding "federation_policy_ref" }

def uncertaintyRef (digest : PyStr) : PyStr := py "urn:ocor:memory-uncertainty:" ++ hexOf digest

/-- What `_base_mapping` is given. -/
structure DerivedBase where
  itemId : PyStr
  kind : MemoryKind
  schema : PyStr
  payload : Bytes
  sources : List GovernedMemoryItem
  sourceRef : PyStr
  sourceDigest : PyStr
  provenanceId : PyStr
  context : GovernedContext
  bindings : List (String × PyStr)
  scope : MemoryScope
  status : LifecycleStatus
  retention : PyStr
  confidence : Binary64
  consolidates : List PyStr
  derivedFrom : List PyStr
  version : ℕ := 1
  references : Option (List GovernedMemoryItem) := none

/-- `_base_mapping`, at a time and with the join of the markings. -/
def DerivedBase.fields (b : DerivedBase) (now : Instant) (marking : PyStr) (validFrom : Instant)
    (validUntil : Option Instant) : MemoryFields :=
  let cited := b.references.getD b.sources
  let taint := py "DERIVED" :: (b.sources.flatMap fun item => item.taintLabels) ++
    (if b.kind = .reflection then [py "MODEL_GENERATED"] else [])
  MemoryFields.bound
    { memoryItemId := b.itemId, memoryVersion := b.version, memoryKind := b.kind, memoryScope := b.scope
      ownerPrincipalId := b.context.effectivePrincipalId, tenantId := b.context.tenantId
      organizationId := b.context.organizationId, domainId := b.context.domainId
      compartments := b.context.compartments, classificationMarkingRef := marking, purpose := b.context.purpose
      contentSchemaRef := b.schema
      contentRef := py "urn:ocor:memory-content-object:" ++ hexOf (sha256Urn b.payload)
      contentDigest := sha256Urn b.payload, sourceKind := .memoryConsolidation, sourceRef := b.sourceRef
      sourceDigest := b.sourceDigest, evidenceRefs := sortedSet (cited.flatMap fun item => item.evidenceRefs)
      provenanceRefs := sortedSet (b.provenanceId :: cited.flatMap fun item => item.provenanceRefs)
      derivedFromRefs := sortedSet b.derivedFrom, consolidatesRefs := sortedSet b.consolidates
      createdAt := now, validFrom := validFrom, retentionPolicyRef := b.retention, confidence := .float b.confidence
      policyBundleDigest := b.context.policyBundleDigest
      ontologyReleaseDigest := b.context.ontologyReleaseDigest, governedContextDigest := b.context.digest
      instructionEligible := false, taintLabels := sortedSet taint
      representationKinds := [.fullText, .structured], lifecycleStatus := b.status, validUntil := validUntil }
    b.bindings

/-- The request that admits a derived item. -/
def Derived.admissionRequest (derived : Derived) (request : AcceptedRequest) : AdmissionRequest where
  operationId := request.operationId ++ py ":" ++ derived.operationSuffix
  governedContext := request.context
  governedContextDigest := request.gcsDigest
  deadline := request.deadline
  candidate := derived.item.toMemoryFields

namespace ConsolidationService
variable {ω : Type} (c : ConsolidationService ω) (env : ConsolidationEnv)

def nowOf : ConsolidationAct ω Instant := inMemory (now env.toEnv)

/-! ## Reading -/

/-- `_visible`; an unknown marking is not dominated. -/
def visible (item : GovernedMemoryItem) (context : GovernedContext) : ConsolidationAct ω Bool := do
  let dominated ← inMemory (Op.guarded
    (query env.toEnv fun _ _ => c.dominates context.classificationMarkingRef item.classificationMarkingRef)
    fun why =>
      match why with
      | .exception e => if e.cls.isMemoryError then pure false else Op.raise why
      | .interrupt => Op.raise .interrupt)
  return item.tenantId = context.tenantId && item.organizationId = context.organizationId &&
    item.domainId = context.domainId && item.purpose = context.purpose &&
    (item.compartments.all fun compartment => compartment ∈ context.compartments) && dominated

/-- The version a reference names, visible to the caller; anything else is refused alike. -/
def visibleVersion (unavailable : PyError) (ref : PyStr) (context : GovernedContext) :
    ConsolidationAct ω AdmittedMemoryVersion := do
  let (itemId, version) ← pureStep (orRaise (versionRef? ref) unavailable)
  let found ← inMemory (ledgerGet env.toEnv itemId version)
  let record ← pureStep (orRaise found unavailable)
  let seen ← c.visible env record.item context
  refuse (seen = false) unavailable
  return record

/-- `_visible_input`. -/
def visibleInput (ref : PyStr) (context : GovernedContext) : ConsolidationAct ω AdmittedMemoryVersion :=
  c.visibleVersion env (consolidationError "MEMORY_VERSION_NOT_FOUND" "CONSOLIDATION_INPUT_UNAVAILABLE"
    "an input does not resolve to a version visible to the caller") ref context

/-- `_correction_visible`. -/
def correctionVisible (ref : PyStr) (context : GovernedContext) : ConsolidationAct ω AdmittedMemoryVersion :=
  c.visibleVersion env (consolidationError "MEMORY_VERSION_NOT_FOUND" "CORRECTION_TARGET_UNAVAILABLE"
    "the correction target does not resolve to a version visible to the caller") ref context

/-- `_version`. -/
def version (ref : PyStr) : ConsolidationAct ω (Option AdmittedMemoryVersion) := do
  let (itemId, version) ← pureStep (parseMemoryVersionRef ref)
  inMemory (ledgerGet env.toEnv itemId version)

/-- `_check_input_current`. -/
def checkInputCurrent (record : AdmittedMemoryVersion) : ConsolidationAct ω Unit := do
  let item := record.item
  let latest ← inMemory (ledgerLatest env.toEnv item.memoryItemId)
  refuse (latest ≠ item.memoryVersion)
    (consolidationError "LIFECYCLE_TRANSITION_INVALID" "CONSOLIDATION_INPUT_NOT_CURRENT"
      "an input is not the current version of its item")
  refuse (item.lifecycleStatus = .quarantined)
    (consolidationError "MEMORY_TAINTED" "CONSOLIDATION_INPUT_QUARANTINED" "a quarantined version cannot be consolidated")
  refuse (item.lifecycleStatus ≠ .active)
    (consolidationError "LIFECYCLE_TRANSITION_INVALID" "CONSOLIDATION_INPUT_NOT_ACTIVE"
      "only ACTIVE versions are consolidated")
  let now ← nowOf env
  refuse (now < item.validFrom ∨ (∃ validUntil ∈ item.validUntil, validUntil ≤ now) ∨
      ∃ expiresAt ∈ item.expiresAt, expiresAt ≤ now)
    (consolidationError "POLICY_DENIED" "CONSOLIDATION_INPUT_EXPIRED"
      "an input is outside its validity or retention window")

/-- `_decide`. -/
def decideUnder (evaluate : ℕ → Option MemoryPolicyDecision) (context : GovernedContext) :
    ConsolidationAct ω MemoryPolicyDecision := do
  let answer ← passingMemoryErrors
    (consolidationError "CONTROL_PLANE_UNAVAILABLE" "POLICY_UNAVAILABLE" "policy evaluation failed closed")
    (inMemory (query env.toEnv fun n _ => .ok (evaluate n)))
  let decision ← pureStep (orRaise answer
    (consolidationError "CONTROL_PLANE_UNAVAILABLE" "POLICY_DECISION_INVALID" "no policy decision"))
  refuse (decision.policyBundleDigest ≠ context.policyBundleDigest)
    (consolidationError "STALE_POLICY" "POLICY_BUNDLE_MISMATCH"
      "policy decision was not evaluated against the context bundle")
  refuse (decision.permitted = false)
    (consolidationError "POLICY_DENIED" "CONSOLIDATION_DENIED" "policy denied the consolidation")
  return decision

/-- `_read_inputs`: the content of each input, within the byte budget. -/
def readInputs (maxInputBytes total : ℕ) : List AdmittedMemoryVersion →
    ConsolidationAct ω (List (AdmittedMemoryVersion × Bytes))
  | [] => pure []
  | record :: records => do
    let payload ← inMemory (c.backend.readVersion env.toEnv (.forItem record.item) record.item.memoryItemId
      record.item.memoryVersion)
    refuse (sha256Urn payload ≠ record.item.contentDigest)
      (consolidationError "INTERNAL_ERROR" "CONSOLIDATION_INPUT_DRIFT" "stored input does not bind the admitted version")
    refuse (maxInputBytes < total + payload.length)
      (consolidationError "POLICY_DENIED" "CONSOLIDATION_BUDGET_EXCEEDED" "the job exceeds the profile input byte budget")
    let rest ← readInputs maxInputBytes (total + payload.length) records
    return (record, payload) :: rest

/-! ## Deriving items -/

/-- `_register_source`; the record keeps what admission reads of it. -/
def registerSource (sourceRef sourceDigest : PyStr) (kind : String) (activityRefs : List PyStr)
    (request : AcceptedRequest) (items : List GovernedMemoryItem) : ConsolidationAct ω PyStr := do
  let provenanceId := py ("urn:ocor:memory-" ++ kind ++ "-provenance:") ++ hexOf sourceDigest
  let evidenceRefs := sortedSet (items.flatMap fun item => item.evidenceRefs)
  let _ ← nowOf env
  refuse (evidenceRefs = [] ∨ [] ∈ activityRefs ∨ ¬ activityRefs.Nodup) ⟨.foreign "GovernanceFault", "PROVENANCE_INCOMPLETE", []⟩
  let record : RegisteredProvenance := ⟨⟨provenanceId, evidenceRefs, [sourceRef]⟩, request.gcsDigest⟩
  updateRegistry fun registry =>
    { registry with references := registry.references.register sourceRef sourceDigest record }
  return provenanceId

/-- `_base_mapping` and `from_mapping`, with what the callers set in between. -/
def derivedItem (base : DerivedBase) (finish : MemoryFields → MemoryFields) : ConsolidationAct ω GovernedMemoryItem := do
  let now ← nowOf env
  let marking ← inMemory (query env.toEnv fun _ _ =>
    c.join (base.context.classificationMarkingRef :: base.sources.map fun item => item.classificationMarkingRef))
  let validFrom ← pureStep (leastOf (fun a b => b < a) (base.sources.map fun item => item.validFrom))
  let validUntil := (leastOf (fun a b => a < b) (base.sources.filterMap fun item => item.validUntil)).toOption
  pureStep (finish (base.fields now marking validFrom validUntil)).validated

/-- `_dissent_item`. -/
def dissentItem (plan : ConsolidationPlan) (sources : List ClaimSource) (items : List GovernedMemoryItem)
    (conflict : Conflict) : ConsolidationAct ω Derived := do
  let job := plan.job
  let refs := sortedSet (conflict.alternatives.flatMap Prod.snd)
  let conflicting ← pureStep (refs.mapM fun ref =>
    orRaise (sources.find? fun source => source.versionRef = ref) ⟨.keyError, "%s", [.text ref]⟩)
  let conflictingItems ← pureStep (refs.mapM fun ref =>
    orRaise (items.find? fun item => item.versionRef = ref) ⟨.keyError, "%s", [.text ref]⟩)
  let payload ← pureStep (canonicalize (dissentPayload (jobRefOf plan.jobDigest) conflict conflicting))
  let identity ← pureStep (digestOf (fields [("job", some (.str plan.jobDigest)),
    ("conflict_id", some (.str conflict.conflictId))]))
  let itemId := py "dissent-" ++ (hexOf identity).take 32
  let confidence ← pureStep (leastOf Binary64.below (conflicting.map ClaimSource.confidence))
  let resolution ← pureStep (digestOf (fields [("conflict_id", some (.str conflict.conflictId)),
    ("resolution", some (.str (py "UNRESOLVED")))]))
  let item ← c.derivedItem env
    { itemId, kind := .dissent, schema := py "urn:ocor:memory-content:dissent:1.0", payload, sources := conflictingItems,
      sourceRef := jobRefOf plan.jobDigest, sourceDigest := plan.jobDigest, provenanceId := plan.provenanceId,
      context := plan.context, bindings := plan.bindings, scope := job.targetScope, status := plan.status,
      retention := plan.profile.retentionPolicyRef, confidence, consolidates := refs, derivedFrom := refs }
    fun f => { f with uncertaintyRef := some (uncertaintyRef resolution) }
  return ⟨item, payload, py "dissent:" ++ itemId⟩

/-- The payload schema of a target kind. -/
def summarySchema (kind : MemoryKind) : PyStr :=
  if kind = .reflection then py "urn:ocor:memory-content:reflection:1.0" else py "urn:ocor:memory-content:summary:1.0"

/-- `_summary_item`. -/
def summaryItem (plan : ConsolidationPlan) (merged : MergeResult) (sources : List ClaimSource) (dissentRefs : List PyStr)
    (items : List GovernedMemoryItem) : ConsolidationAct ω Derived := do
  let job := plan.job
  let uncertainty ← pureStep (uncertaintyRecord sources merged.statements.length merged.conflicts.length)
  let payload ← pureStep (canonicalize (summaryPayload (summarySchema job.targetKind) (jobRefOf plan.jobDigest)
    job.algorithm.pins sources merged dissentRefs uncertainty))
  let minimum ← pureStep (leastOf Binary64.below (sources.map ClaimSource.confidence))
  let confidence ← pureStep (boundedConfidence minimum merged.statements.length merged.conflicts.length)
  let uncertaintyDigest ← pureStep (digestOf uncertainty)
  let item ← c.derivedItem env
    { itemId := py "consolidated-" ++ (hexOf plan.jobDigest).take 32, kind := job.targetKind,
      schema := summarySchema job.targetKind, payload, sources := items, sourceRef := jobRefOf plan.jobDigest,
      sourceDigest := plan.jobDigest, provenanceId := plan.provenanceId, context := plan.context,
      bindings := plan.bindings, scope := job.targetScope, status := plan.status,
      retention := plan.profile.retentionPolicyRef, confidence, consolidates := job.inputRefs,
      derivedFrom := job.inputRefs ++ dissentRefs }
    fun f => { f with uncertaintyRef := some (uncertaintyRef uncertaintyDigest) }
  return ⟨item, payload, py "summary"⟩

/-! ## Admitting and recording them -/

/-- `admit` under the guard, with the references the service registered. -/
def admitGuarded (env : AdmissionEnv) (request : AdmissionRequest) (binding : Option VerifiedGovernedContextBinding)
    (payload : Bytes) : ConsolidationAct ω MemoryReceipt := do
  let registry ← registryOf
  inMemory (c.admission.admitUnder (registry.references.resolver env)
    (consolidationGuard (registry.references.resolver env) registry.expected) request binding payload)

/-- The admission between `expect` and `release`, which comes on every way out. -/
def admitExpected (derived : Derived) (request : AcceptedRequest) (binding : VerifiedGovernedContextBinding) :
    ConsolidationAct ω MemoryReceipt := fun w =>
  let digest := derived.item.digest
  let expecting : ConsolidationWorld ω := { w with registry := { w.registry with expected := w.registry.expected.expect digest } }
  let admitted := c.admitGuarded env.toAdmissionEnv (derived.admissionRequest request) (some binding) derived.payload expecting
  (admitted.1, { admitted.2 with registry :=
    { admitted.2.registry with
      expected := admitted.2.registry.expected.release digest
      derivations := admitted.2.registry.derivations ++
        [⟨digest, derived.payload, admitted.2.world.stores.ledger.drop w.world.stores.ledger.length⟩] } })

/-- The slot holds exactly this derivation. -/
def SameDerivation (existing item : GovernedMemoryItem) : Prop :=
  existing.sourceDigest = item.sourceDigest ∧ existing.contentDigest = item.contentDigest ∧
    existing.memoryKind = item.memoryKind

instance (existing item : GovernedMemoryItem) : Decidable (SameDerivation existing item) :=
  inferInstanceAs (Decidable (_ ∧ _ ∧ _))

/-- The record of a derived item: the one in its slot if that is this derivation, which completes
an interrupted job, and else a new one. -/
def recordOf (request : AcceptedRequest) (binding : VerifiedGovernedContextBinding) (derived : Derived) :
    ConsolidationAct ω AdmittedMemoryVersion := do
  let item := derived.item
  let existing ← inMemory (ledgerGet env.toEnv item.memoryItemId item.memoryVersion)
  match existing with
  | some existing => do
    refuse (¬ SameDerivation existing.item item)
      (consolidationError "MEMORY_IDEMPOTENCY_CONFLICT" "DERIVED_SLOT_OCCUPIED" "%s is occupied by another derivation"
        [.text item.versionRef])
    return existing
  | none => do
    let _ ← c.admitExpected env derived request binding
    let admitted ← inMemory (ledgerGet env.toEnv item.memoryItemId item.memoryVersion)
    pureStep (orRaise admitted
      (consolidationError "INTERNAL_ERROR" "DERIVED_NOT_PERSISTED" "admission did not persist"))

/-- `_admit_and_commit`. -/
def admitAndCommit (request : AcceptedRequest) (binding : VerifiedGovernedContextBinding) (derived : Derived) :
    ConsolidationAct ω AdmittedMemoryVersion := do
  let record ← c.recordOf env request binding derived
  let _ ← inMemory (c.backend.commit env.toEnv record derived.payload none)
  return record

/-- What the completion event of an operation records besides what every one does. -/
structure Completion where
  kind : PyStr
  jobRef : PyStr
  jobDigest : PyStr
  derived : GovernedMemoryItem
  dissentRefs : List PyStr
  details : List (String × Option PyValue)
  decision : MemoryPolicyDecision

def Completion.event (f : Completion) (request : AcceptedRequest) (binding : VerifiedGovernedContextBinding)
    (now : Instant) : List (String × Option PyValue) :=
  [("action", some (.str f.kind)), ("outcome", some (.str (py "COMPLETED"))),
    ("operation_id", some (.str request.operationId)), ("job_ref", some (.str f.jobRef)),
    ("job_digest", some (.str f.jobDigest))] ++ f.details ++
  [("derived_ref", some (.str f.derived.versionRef)), ("dissent_refs", some (strings f.dissentRefs)),
    ("lifecycle_status", some (.str (py f.derived.lifecycleStatus.value))),
    ("policy_decision_ref", some (.str f.decision.decisionRef)),
    ("policy_bundle_digest", some (.str f.decision.policyBundleDigest)),
    ("governed_context_digest", some (.str request.gcsDigest)), ("binding_ref", some (.str binding.bindingRef)),
    ("correlation_id", some (.str request.context.correlationId)), ("at", some (.str (formatUtcTimestamp now)))]

/-- `_complete`. -/
def complete (request : AcceptedRequest) (binding : VerifiedGovernedContextBinding) (f : Completion) :
    ConsolidationAct ω ConsolidationOutcome := do
  let now ← nowOf env
  let auditEvent := (entriesOf? (fields (f.event request binding now))).getD []
  Op.guarded (inMemory (outside env.toEnv (c.audit (.mapping auditEvent)))) fun why =>
    match why with
    | .interrupt => Op.raise .interrupt
    | .exception _ => Op.raise (.exception (consolidationError "CONTROL_PLANE_UNAVAILABLE" "AUDIT_UNAVAILABLE"
        "the operation could not be audited; retry completes it"))
  let auditRef ← pureStep (digestOf (.mapping auditEvent))
  let outcome : ConsolidationOutcome :=
    { receipt := ⟨request.operationId, f.kind, request.gcsDigest, auditRef⟩, operationKind := f.kind, jobRef := f.jobRef,
      jobDigest := f.jobDigest, derivedRef := f.derived.versionRef, dissentRefs := f.dissentRefs,
      lifecycleStatus := f.derived.lifecycleStatus }
  passingMemoryErrors
    (consolidationError "CONTROL_PLANE_UNAVAILABLE" "JOB_LEDGER_UNAVAILABLE"
      "the completion could not be recorded; retry completes it")
    (jobsAppend env.toEnv ⟨request.context.tenantId, request.operationId, outcome, auditEvent⟩)
  return outcome

/-- `_replay`. -/
def replay (request : AcceptedRequest) (jobDigest : PyStr) : ConsolidationAct ω (Option ConsolidationOutcome) := do
  let previous ← jobsGet env.toEnv request.context.tenantId request.operationId
  match previous with
  | none => return none
  | some previous => do
    refuse (previous.outcome.jobDigest ≠ jobDigest) operationReused
    return some previous.outcome

end ConsolidationService
end OcorRuntime.Memory

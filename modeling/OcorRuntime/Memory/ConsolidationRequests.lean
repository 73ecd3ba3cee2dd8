import OcorRuntime.Memory.Consolidation

/-! The two requests of the consolidation service (`consolidate` and `correct` in
`memory/consolidation.py`) and the runs that mix them with admissions. A request is
checked, replayed if its job is recorded, and otherwise carried out; a refusal is audited. -/
namespace OcorRuntime.Memory
open Canonical Kernel
set_option autoImplicit false
set_option maxHeartbeats 250000

/-- `_digest_field`. -/
def digestField (name : String) (value : PyStr) : Except PyError Unit := do
  refuseIf (value = []) (consolidationInvalid "ENVELOPE_INVALID" "%s must be a non-empty string" [.text (py name)])
  refuseIf (¬ IsDigest value) (consolidationInvalid "ENVELOPE_INVALID" "%s must be a canonical SHA-256 URN" [.text (py name)])

/-- `_string`, of a text. -/
def textField (name : String) (value : PyStr) : Except PyError Unit :=
  refuseIf (value = []) (consolidationInvalid "ENVELOPE_INVALID" "%s must be a non-empty string" [.text (py name)])

/-- `_ref_list`. -/
def inputRefs (refs : List PyStr) : Except PyError (List PyStr) := do
  refuseIf (refs = []) (consolidationInvalid "ENVELOPE_INVALID" "%s must be a non-empty array" [.text (py "input_item_refs")])
  refs.forM (textField "input_item_refs")
  sortedRefs "input_item_refs" refs

/-- `isinstance(value, list)`. -/
def isListValue : PyValue → Bool
  | .list _ => true
  | _ => false

/-- The members of a consolidated payload. -/
def consolidatedFields : List String :=
  ["content_schema_ref", "job_ref", "algorithm", "sources", "statements", "conflicts", "uncertainty", "correction"]

/-- The document of a consolidated payload. -/
def consolidatedDocument (payload : Bytes) : Except PyError Members :=
  let invalid (message : String) : PyError := consolidationError "INTERNAL_ERROR" "CONSOLIDATED_PAYLOAD_INVALID" message
  match loadIJson (.bytes payload) with
  | .error _ => .error (invalid "payload is not I-JSON")
  | .ok (.mapping es) =>
    if HasKeys consolidatedFields es ∧ isListValue (memberOf es "sources") = true ∧
        isListValue (memberOf es "statements") = true ∧ isListValue (memberOf es "conflicts") = true then .ok es
    else .error (invalid "payload is not a consolidated summary")
  | .ok _ => .error (invalid "payload is not a consolidated summary")

/-- What a correction is identified by. -/
def correctionMapping (request : AcceptedRequest) (target : GovernedMemoryItem) (statements : List Statement)
    (reasonRef : PyStr) : PyValue :=
  fields [("operation_id", some (.str request.operationId)), ("tenant_id", some (.str request.context.tenantId)),
    ("isolation", some (isolation request.context)), ("target_version_ref", some (.str target.versionRef)),
    ("target_item_digest", some (.str target.digest)),
    ("corrected_statements", some (.list (statements.map Statement.toMapping))),
    ("correction_reason_ref", some (.str reasonRef))]

/-- The source a correction cites again; its assertions are not read. -/
def citedSource (item : GovernedMemoryItem) : Except PyError ClaimSource := do
  let confidence ← confidenceFloat item.confidence
  return ⟨item.versionRef, item.digest, item.contentDigest, confidence, []⟩

namespace ConsolidationService
variable {ω : Type} (c : ConsolidationService ω) (env : ConsolidationEnv)

/-! ## Refusals -/

/-- `_record_denial`. -/
def recordDenial (kind : PyStr) (error : PyError) (failure : Failure) : ConsolidationAct ω Unit := do
  let now ← nowOf env
  let optional (text : Option PyStr) : Option PyValue := some ((text.map .str).getD .none)
  let event := fields [("action", some (.str kind)), ("outcome", some (.str (py "DENIED"))),
    ("reason_code", some (.str (py error.cls.reasonCode))), ("detail_code", some (.str (py error.cls.detailCode))),
    ("operation_id", optional failure.operationId), ("governed_context_digest", optional failure.gcsDigest),
    ("binding_ref", optional failure.bindingRef), ("correlation_id", optional failure.correlationId),
    ("at", some (.str (formatUtcTimestamp now)))]
  Op.guarded (inMemory (outside env.toEnv (c.audit event))) fun why =>
    match why with
    | .interrupt => Op.raise .interrupt
    | .exception _ => Op.raise (.exception (consolidationError "CONTROL_PLANE_UNAVAILABLE" "AUDIT_UNAVAILABLE"
        "the denial could not be audited"))

/-- `except MemoryAdmissionError`: the refusal is recorded and raised again. -/
def denying {α : Type} (kind : PyStr) (failure : Failure) (x : ConsolidationAct ω α) : ConsolidationAct ω α :=
  Op.guarded x fun why =>
    match why with
    | .interrupt => Op.raise .interrupt
    | .exception e =>
      if e.cls.isMemoryError then do
        c.recordDenial env kind e failure
        Op.raise (.exception e)
      else Op.raise (.exception e)

/-- `_envelope`, past the operation id. -/
def checkEnvelope (envelope : Envelope) (binding : VerifiedGovernedContextBinding) (now : Instant) : Except PyError Unit := do
  textField "governed_context_digest" envelope.governedContextDigest
  refuseIf (envelope.deadline ≤ now)
    (consolidationError "POLICY_DENIED" "DEADLINE_EXCEEDED" "the request deadline has passed")
  refuseIf (envelope.governedContext ≠ binding.expected ∨ envelope.governedContext.digest ≠ envelope.governedContextDigest)
    (consolidationError "GOVERNED_CONTEXT_MISMATCH" "GOVERNED_CONTEXT_MISMATCH" "governed context mismatch")

/-- The request an envelope makes once it is accepted. -/
def accepted (envelope : Envelope) : AcceptedRequest :=
  ⟨envelope.operationId, envelope.governedContext, envelope.governedContext.digest, envelope.deadline⟩

/-- `_guarded_run`; a refusal is recorded with what was known of the request by then. -/
def guardedRun (kind : PyStr) (envelope : Envelope) (binding : Option VerifiedGovernedContextBinding)
    (body : VerifiedGovernedContextBinding → ConsolidationAct ω ConsolidationOutcome) :
    ConsolidationAct ω ConsolidationOutcome :=
  match binding with
  | none => c.denying env kind {} (Op.raise (.exception (consolidationError "AUTHENTICATION_REQUIRED" "BINDING_MISSING"
      "consolidation requires an authenticated governed-context binding")))
  | some binding => do
    let bound : Failure := { correlationId := some binding.expected.correlationId, bindingRef := some binding.bindingRef }
    let now ← c.denying env kind bound do
      let now ← nowOf env
      pureStep (textField "operation_id" envelope.operationId)
      return now
    let named : Failure := { bound with operationId := some envelope.operationId }
    c.denying env kind named (pureStep (checkEnvelope envelope binding now))
    c.denying env kind { named with gcsDigest := some envelope.governedContext.digest } (body binding)

/-! ## Consolidation -/

/-- The job of a request, from what it names and the versions it cites. -/
def jobOf (request : AcceptedRequest) (r : ConsolidationRequest) (refs : List PyStr) (records : List AdmittedMemoryVersion)
    (profile : ConsolidationProfile) (kind : MemoryKind) (scope : MemoryScope) : MemoryConsolidationJob where
  operationId := request.operationId
  tenantId := request.context.tenantId
  isolation := isolation request.context
  inputQueryDigest := r.inputQueryDigest
  inputRefs := refs
  inputItemDigests := records.map AdmittedMemoryVersion.itemDigest
  algorithm := profile.algorithm
  profileRef := profile.profileRef
  targetKind := kind
  targetScope := scope
  reviewerPolicyRef := r.reviewerPolicyRef
  budget := profile.budget

/-- The target a request names, which must be one a job may have. -/
def targetOf (r : ConsolidationRequest) : Except PyError (MemoryKind × MemoryScope) := do
  let undeclared := consolidationInvalid "ENVELOPE_INVALID" "target kind/scope is not declared"
  textField "target_memory_kind" r.targetMemoryKind
  let kind ← orRaise (MemoryKind.ofValue? r.targetMemoryKind) undeclared
  textField "target_memory_scope" r.targetMemoryScope
  let scope ← orRaise (MemoryScope.ofValue? r.targetMemoryScope) undeclared
  refuseIf (kind ∉ consolidationTargetKinds)
    (consolidationError "UNSUPPORTED_CAPABILITY" "CONSOLIDATION_TARGET_UNSUPPORTED" "%s is never a consolidation target"
      [.text (py kind.value)])
  return (kind, scope)

/-- The cited input with its assertions. -/
def claimSource (input : AdmittedMemoryVersion × Bytes) : Except PyError ClaimSource := do
  let confidence ← confidenceFloat input.1.item.confidence
  let assertions ← parseAssertions input.2
  return ⟨input.1.item.versionRef, input.1.itemDigest, input.1.item.contentDigest, confidence, assertions⟩

/-- What a request resolves to before its replay is looked for: the plan lacks its provenance. -/
def resolveJob (r : ConsolidationRequest) (request : AcceptedRequest) :
    ConsolidationAct ω (List AdmittedMemoryVersion × ConsolidationPlan) := do
  pureStep (digestField "input_query_digest" r.inputQueryDigest)
  let refs ← pureStep (inputRefs r.inputItemRefs)
  pureStep (textField "algorithm_ref" r.algorithmRef)
  pureStep (digestField "algorithm_digest" r.algorithmDigest)
  pureStep (textField "reviewer_policy_ref" r.reviewerPolicyRef)
  let (kind, scope) ← pureStep (targetOf r)
  let (profile, status) ← pureStep (c.profiles.resolve r.algorithmRef r.algorithmDigest r.reviewerPolicyRef kind)
  refuse (profile.maxInputs < refs.length)
    (consolidationError "POLICY_DENIED" "CONSOLIDATION_BUDGET_EXCEEDED" "the job exceeds the profile input budget")
  let records ← Op.collect (fun ref => c.visibleInput env ref request.context) refs
  let bindings ← pureStep (targetBindings scope (records.map AdmittedMemoryVersion.item))
  let job := jobOf request r refs records profile kind scope
  let jobDigest ← pureStep job.digest
  return (records, ⟨job, jobDigest, request.context, bindings, status, [], profile⟩)

/-- The job of a plan, carried out: its items are derived, admitted and committed, then recorded. -/
def runJob (records : List AdmittedMemoryVersion) (plan : ConsolidationPlan) (request : AcceptedRequest)
    (binding : VerifiedGovernedContextBinding) : ConsolidationAct ω ConsolidationOutcome := do
  records.forM (checkInputCurrent env)
  let decision ← decideUnder env (fun n => env.authorizeConsolidation n plan.job request.context) request.context
  let inputs ← c.readInputs env plan.profile.maxInputBytes 0 records
  let sources ← pureStep (inputs.mapM claimSource)
  let merged ← pureStep (mergeClaims sources)
  let items := records.map AdmittedMemoryVersion.item
  let provenanceId ← registerSource env (jobRefOf plan.jobDigest) plan.jobDigest "consolidation"
    [plan.job.algorithm.algorithmRef, plan.job.profileRef] request items
  let plan := { plan with provenanceId }
  let dissents ← Op.collect (c.dissentItem env plan sources items) merged.conflicts
  let dissentRefs := dissents.map fun dissent => dissent.item.versionRef
  let summary ← c.summaryItem env plan merged sources dissentRefs items
  let stored ← Op.collect (c.admitAndCommit env request binding) (dissents ++ [summary])
  c.complete env request binding
    { kind := py "consolidateMemory", jobRef := jobRefOf plan.jobDigest, jobDigest := plan.jobDigest, derived := summary.item,
      dissentRefs, decision
      details := [("input_refs", some (strings plan.job.inputRefs)),
        ("input_item_digests", some (strings plan.job.inputItemDigests)), ("algorithm", some plan.job.algorithm.pins),
        ("profile_ref", some (.str plan.profile.profileRef)),
        ("reviewer_policy_ref", some (.str plan.job.reviewerPolicyRef)),
        ("derived_item_digests", some (strings (stored.map AdmittedMemoryVersion.itemDigest)))] }

/-- `_consolidate`. -/
def consolidateAccepted (r : ConsolidationRequest) (binding : VerifiedGovernedContextBinding) :
    ConsolidationAct ω ConsolidationOutcome := do
  let request := accepted r.toEnvelope
  let (records, plan) ← c.resolveJob env r request
  let replayed ← replay env request plan.jobDigest
  match replayed with
  | some outcome => return outcome
  | none => c.runJob env records plan request binding

/-- `consolidate`. -/
def consolidate (r : ConsolidationRequest) (binding : Option VerifiedGovernedContextBinding) :
    ConsolidationAct ω ConsolidationOutcome :=
  c.guardedRun env (py "consolidateMemory") r.toEnvelope binding (c.consolidateAccepted env r)

/-! ## Correction -/

/-- `_check_correction_target`. -/
def checkCorrectionTarget (item : GovernedMemoryItem) : ConsolidationAct ω Unit := do
  refuse (item.sourceKind ≠ .memoryConsolidation)
    (consolidationError "UNSUPPORTED_CAPABILITY" "CORRECTION_TARGET_NOT_CONSOLIDATED"
      "only consolidation-derived memory is corrected here")
  refuse (item.memoryKind = .dissent)
    (consolidationError "POLICY_DENIED" "DISSENT_IMMUTABLE"
      "dissent is never overwritten; a resolution is a separate record")
  let latest ← inMemory (ledgerLatest env.toEnv item.memoryItemId)
  refuse (latest ≠ item.memoryVersion)
    (consolidationError "LIFECYCLE_TRANSITION_INVALID" "CORRECTION_TARGET_NOT_CURRENT" "only the current version is corrected")
  refuse (item.lifecycleStatus ≠ .active ∧ item.lifecycleStatus ≠ .proposed)
    (consolidationError "LIFECYCLE_TRANSITION_INVALID" "CORRECTION_TARGET_NOT_CORRECTABLE"
      "the target lifecycle status does not admit a correction")

/-- `_consolidated_payload`. -/
def consolidatedPayload (item : GovernedMemoryItem) : ConsolidationAct ω Members := do
  let payload ← inMemory (c.backend.readVersion env.toEnv (.forItem item) item.memoryItemId item.memoryVersion)
  refuse (sha256Urn payload ≠ item.contentDigest)
    (consolidationError "INTERNAL_ERROR" "CONSOLIDATED_PAYLOAD_DRIFT" "stored payload does not bind")
  updateRegistry fun registry => { registry with corrected := registry.corrected ++ [payload] }
  pureStep (consolidatedDocument payload)

/-- One citation of `_cited_sources`. -/
def citedVersion (citation : Members) : ConsolidationAct ω GovernedMemoryItem := do
  let ref ← pureStep (textMember c.str citation "memory_version_ref")
  let found ← version env ref
  let broken := consolidationError "INTERNAL_ERROR" "SOURCE_CITATION_BROKEN" "a cited source no longer binds its citation"
  let record ← pureStep (orRaise found broken)
  let itemDigest ← pureStep (entryMember citation "item_digest")
  let sameItem ← pureStep (compareDigest record.itemDigest itemDigest)
  refuse (sameItem = false) broken
  let contentDigest ← pureStep (entryMember citation "content_digest")
  let sameContent ← pureStep (compareDigest record.item.contentDigest contentDigest)
  refuse (sameContent = false) broken
  return record.item

/-- A correction of `target`, whose payload document has been read, carried out. -/
def runCorrection (target : GovernedMemoryItem) (payload : Members) (statements : List Statement) (reasonRef : PyStr)
    (correctionDigest : PyStr) (request : AcceptedRequest) (binding : VerifiedGovernedContextBinding) :
    ConsolidationAct ω ConsolidationOutcome := do
  let correctionRef := py "urn:ocor:memory-correction:" ++ hexOf correctionDigest
  pureStep (checkCorrection c.str payload statements)
  let citations ← pureStep (membersOf payload "sources")
  let sources ← Op.collect (c.citedVersion env) citations
  let decision ← decideUnder env (fun n => env.authorizeCorrection n target request.context) request.context
  let provenanceId ← registerSource env correctionRef correctionDigest "correction" [reasonRef] request sources
  let statementEntries ← pureStep (newStatements c.str payload statements)
  let conflicts ← pureStep (membersOf payload "conflicts")
  let claimSources ← pureStep (sources.mapM citedSource)
  let uncertainty ← pureStep (uncertaintyRecord claimSources statementEntries.length conflicts.length)
  let newPayload ← pureStep (canonicalize (correctedPayload payload statementEntries uncertainty
    (correctionMember correctionRef target.versionRef reasonRef statements)))
  let derivedFrom ← Op.collect (version env) target.derivedFromRefs
  let minimum ← pureStep (leastOf Binary64.below (claimSources.map ClaimSource.confidence))
  let confidence ← pureStep (boundedConfidence minimum statementEntries.length conflicts.length)
  let uncertaintyDigest ← pureStep (digestOf uncertainty)
  let item ← c.derivedItem env
    { itemId := target.memoryItemId, kind := target.memoryKind, schema := target.contentSchemaRef, payload := newPayload,
      sources := target :: sources ++ (derivedFrom.filterMap id).map AdmittedMemoryVersion.item,
      sourceRef := correctionRef, sourceDigest := correctionDigest, provenanceId, context := request.context,
      bindings := target.scopeBindings.map fun binding => (binding.1, binding.2.getD []), scope := target.memoryScope,
      status := target.lifecycleStatus, retention := target.retentionPolicyRef, confidence,
      consolidates := target.consolidatesRefs, derivedFrom := target.derivedFromRefs,
      version := target.memoryVersion + 1, references := some sources }
    fun f => { f with supersedesRef := some target.versionRef, correctionOfRef := some target.versionRef,
                      validFrom := target.validFrom, validUntil := target.validUntil.or f.validUntil,
                      uncertaintyRef := some (uncertaintyRef uncertaintyDigest) }
  let record ← c.admitAndCommit env request binding ⟨item, newPayload, py "correction"⟩
  let dissentRefs ← pureStep (conflicts.mapM fun conflict => textMember c.str conflict "dissent_ref")
  c.complete env request binding
    { kind := py "correctConsolidatedMemory", jobRef := correctionRef, jobDigest := correctionDigest, derived := record.item,
      dissentRefs, decision
      details := [("correction_of_ref", some (.str target.versionRef)), ("correction_reason_ref", some (.str reasonRef)),
        ("derived_item_digests", some (strings [record.itemDigest]))] }

/-- `_correct`. -/
def correctAccepted (r : CorrectionRequest) (binding : VerifiedGovernedContextBinding) :
    ConsolidationAct ω ConsolidationOutcome := do
  let request := accepted r.toEnvelope
  pureStep (textField "target_version_ref" r.targetVersionRef)
  pureStep (textField "correction_reason_ref" r.correctionReasonRef)
  let statements ← pureStep (Memory.correctedStatements r.correctedStatements)
  let record ← c.correctionVisible env r.targetVersionRef request.context
  let correctionDigest ← pureStep (digestOf (correctionMapping request record.item statements r.correctionReasonRef))
  let replayed ← replay env request correctionDigest
  match replayed with
  | some outcome => return outcome
  | none => do
    checkCorrectionTarget env record.item
    let payload ← c.consolidatedPayload env record.item
    c.runCorrection env record.item payload statements r.correctionReasonRef correctionDigest request binding

/-- `correct`. -/
def correct (r : CorrectionRequest) (binding : Option VerifiedGovernedContextBinding) :
    ConsolidationAct ω ConsolidationOutcome :=
  c.guardedRun env (py "correctConsolidatedMemory") r.toEnvelope binding (c.correctAccepted env r)

/-! ## Runs -/

end ConsolidationService

/-- What outlives a call. -/
structure ConsolidationState (ω : Type) where
  stores : Stores ω
  registry : Registry

/-- A call, with what its collaborators do meanwhile, or the process starting anew. -/
inductive ConsolidationCall
  | admission (env : AdmissionEnv) (request : AdmissionRequest) (binding : Option VerifiedGovernedContextBinding)
      (payload : Bytes)
  | consolidation (env : ConsolidationEnv) (request : ConsolidationRequest) (binding : Option VerifiedGovernedContextBinding)
  | correction (env : ConsolidationEnv) (request : CorrectionRequest) (binding : Option VerifiedGovernedContextBinding)
  | restart

namespace ConsolidationService
variable {ω : Type} (c : ConsolidationService ω)

/-- The state after an operation, whether it returned or raised. -/
def after {α : Type} (x : ConsolidationAct ω α) (s : ConsolidationState ω) : ConsolidationState ω :=
  let w := (x ⟨⟨s.stores, 0⟩, s.registry⟩).2
  ⟨w.world.stores, w.registry⟩

def step (s : ConsolidationState ω) : ConsolidationCall → ConsolidationState ω
  | .admission env request binding payload => after (c.admitGuarded env request binding payload) s
  | .consolidation env request binding => after (c.consolidate env request binding) s
  | .correction env request binding => after (c.correct env request binding) s
  -- the guard and the resolver live in the process, the stores and the job ledger do not
  | .restart => { s with registry := { s.registry with expected := .empty, references := ⟨.empty, .empty⟩ } }

def initial (outside : ω) : ConsolidationState ω := ⟨⟨[], .empty, .empty, outside⟩, ⟨.empty, ⟨.empty, .empty⟩, .empty, [], []⟩⟩

end ConsolidationService
end OcorRuntime.Memory

import OcorRuntime.Memory.Lifecycle
import OcorRuntime.Memory.VersionRefs

/-! The admission of memory versions (`memory/model.py`) under a policy wrapped in the
lifecycle guard (`memory/lifecycle.py`): every check comes before the one append. -/
namespace OcorRuntime.Memory
open Kernel
set_option autoImplicit false
set_option maxHeartbeats 250000

/-! ## What admission asks and is configured with -/

structure EvidenceRecord where
  evidenceId : PyStr
  markingRef : PyStr
  retentionUntil : Instant

structure ProvenanceRecord where
  provenanceId : PyStr
  evidenceRefs : List PyStr
  sourceRefs : List PyStr

structure InstructionApproval where
  approvalRef : PyStr
  memoryItemId : PyStr
  approvedContentDigest : PyStr
  tenantId : PyStr
  approverPrincipalId : PyStr
  validUntil : Instant

structure FederationPolicy where
  policyRef : PyStr
  tenantIds : List PyStr
  purposes : List PyStr
  validUntil : Instant

/-- The policy and the reference resolver, by the number of the call. -/
structure AdmissionEnv extends Env where
  authorizeAdmission : ℕ → GovernedMemoryItem → GovernedContext → Option MemoryPolicyDecision
  sourceDigest : ℕ → PyStr → GovernedContext → Option PyStr
  evidence : ℕ → PyStr → GovernedContext → Option EvidenceRecord
  provenance : ℕ → PyStr → GovernedContext → Option ProvenanceRecord
  instructionApproval : ℕ → PyStr → GovernedContext → Option InstructionApproval
  federationPolicy : ℕ → PyStr → GovernedContext → Option FederationPolicy

structure AdmissionService (ω : Type) where
  dominates : PyStr → PyStr → Except PyError Bool
  join : List PyStr → Except PyError PyStr
  retentionHorizons : Dict PyStr Duration
  maxClockSkew : Duration
  contentSchemas : List PyStr
  /-- The marker of the first of `PROHIBITED_PAYLOAD_PATTERNS` that the payload matches. -/
  prohibitedPayload : Bytes → Option String
  /-- The denial sink, when one is configured. -/
  audit : Option (String → String → Option PyStr → Option VerifiedGovernedContextBinding → Instant → Op ω Raised Unit)

structure AdmissionRequest extends Envelope where
  candidate : MemoryFields

def admissionError (reasonCode detailCode message : String) (args : List ErrorArg := []) : PyError :=
  memoryError .admission reasonCode detailCode message args

/-! ## Tables -/

/-- `CAPABILITY_MATRIX`. -/
def supported : MemoryKind → MemoryScope → Bool
  | .working, scope => scope = .run || scope = .task
  | .teamShared, scope => scope = .team || scope = .project
  | _, _ => true

/-- `SOURCE_TAINT`. -/
def SourceKind.taint : SourceKind → String
  | observation | evidence | procedure => "EXTERNAL_DATA"
  | toolResult => "TOOL_OUTPUT"
  | humanInput | preference => "HUMAN_SUPPLIED"
  | modelOutput => "MODEL_GENERATED"
  | derivedSummary | memoryConsolidation => "DERIVED"

/-- `KIND_TAINT`. -/
def MemoryKind.taint : MemoryKind → List String
  | reflection => ["MODEL_GENERATED"]
  | _ => []

def prohibitedContentClasses : List PyStr :=
  [py "chain-of-thought", py "scratchpad", py "hidden-reasoning", py "credential", py "secret", py "token",
    py "raw-conversation"]

def isAlpha (c : CodePoint) : Bool := 97 ≤ c.val ∧ c.val ≤ 122

/-- A non-empty text of digits. -/
def isDigits (text : PyStr) : Bool := decide (text ≠ []) && text.all fun c => IsDigit c

/-- The `content_class` of `CONTENT_SCHEMA.fullmatch`. -/
def contentClass? (ref : PyStr) : Option PyStr :=
  let marker := py "urn:ocor:memory-content:"
  let rest := ref.drop marker.length
  let (name, version) := rest.span fun c => c ≠ codePoint 58
  let (major, minor) := (version.drop 1).span fun c => c ≠ codePoint 46
  let named : Bool := match name with
    | [] => false
    | c :: rest => isAlpha c && rest.all fun c => isAlpha c || decide (IsDigit c) || decide (c = codePoint 45)
  if marker <+: ref ∧ named = true ∧ isDigits major = true ∧ isDigits (minor.drop 1) = true then some name else none

/-- `VERSION_REF.fullmatch`: the item id and the number after the last `:v`. -/
def versionRef? (ref : PyStr) : Option (PyStr × ℕ) :=
  (versionRefGroups ref).map fun groups => (groups.1, digitsValue groups.2)

theorem versionRef?_of_parse {ref : PyStr} {slot : PyStr × ℕ} (h : parseMemoryVersionRef ref = .ok slot) :
    versionRef? ref = some slot := by
  obtain ⟨groups, hgroups, hrest⟩ := bind_eq_ok.1 h
  obtain ⟨-, -, hslot⟩ := bind_eq_ok.1 hrest
  rw [versionRef?, orRaise_eq_ok.1 hgroups]
  cases hslot
  rfl

/-- `lineage_refs`. -/
def GovernedMemoryItem.lineageRefs (item : GovernedMemoryItem) : List PyStr :=
  (item.supersedesRef.toList ++ item.correctionOfRef.toList ++ item.derivedFromRefs ++ item.consolidatesRefs).eraseDups

/-- The policy an admission is decided under; its answer is `none` when it is no decision. -/
abbrev AdmissionPolicy (ω : Type) := GovernedMemoryItem → GovernedContext → Act ω (Option MemoryPolicyDecision)

namespace AdmissionService
variable {ω : Type} (a : AdmissionService ω) (env : AdmissionEnv)

/-! ## Checks on the candidate alone -/

/-- `_bind_to_context`. -/
def bindToContext (item : GovernedMemoryItem) (context : GovernedContext) : Except PyError Unit :=
  refuseIf (¬ (item.tenantId = context.tenantId ∧ item.organizationId = context.organizationId ∧
      item.domainId = context.domainId ∧ item.compartments = context.compartments ∧ item.purpose = context.purpose ∧
      item.policyBundleDigest = context.policyBundleDigest ∧
      item.ontologyReleaseDigest = context.ontologyReleaseDigest ∧ item.governedContextDigest = context.digest ∧
      item.ownerPrincipalId = context.effectivePrincipalId))
    (admissionError "GOVERNED_CONTEXT_MISMATCH" "ITEM_NOT_BOUND_TO_GCS" "candidate is not bound to the authenticated GCS")

/-- `_validate_content`. -/
def validateContent (item : GovernedMemoryItem) (payload : Bytes) : Except PyError Unit := do
  refuseIf (∃ name ∈ contentClass? item.contentSchemaRef, name ∈ prohibitedContentClasses)
    (admissionError "POLICY_DENIED" "PROHIBITED_CONTENT_CLASS" "content class is a prohibited memory payload")
  refuseIf (item.contentSchemaRef ∉ a.contentSchemas)
    (schemaError "CONTENT_SCHEMA_UNKNOWN" "content_schema_ref is not registered")
  refuseIf (sha256Urn payload ≠ item.contentDigest)
    (schemaError "CONTENT_DIGEST_MISMATCH" "content_digest does not bind payload")
  match a.prohibitedPayload payload with
  | some marker => .error (admissionError "POLICY_DENIED" ("PROHIBITED_PAYLOAD_" ++ marker)
      "payload contains a prohibited content class")
  | none => .ok ()

/-- `_validate_temporal`. -/
def validateTemporal (item : GovernedMemoryItem) (now : Instant) : Except PyError Unit := do
  refuseIf (¬ (now - a.maxClockSkew ≤ item.createdAt ∧ item.createdAt ≤ now + a.maxClockSkew))
    (admissionError "POLICY_DENIED" "CREATED_AT_OUTSIDE_BOUNDARY_WINDOW"
      "created_at is not within the boundary clock admission window")
  refuseIf (∃ validUntil ∈ item.validUntil, validUntil ≤ item.validFrom)
    (schemaError "VALIDITY_WINDOW_INVALID" "valid_until must follow valid_from")
  refuseIf (∃ validUntil ∈ item.validUntil, validUntil ≤ now)
    (admissionError "POLICY_DENIED" "VALIDITY_ELAPSED" "valid_until has already elapsed")
  let horizon ← orRaise (a.retentionHorizons.get? item.retentionPolicyRef)
    (admissionError "POLICY_DENIED" "RETENTION_POLICY_UNKNOWN" "retention policy is not approved")
  refuseIf (∃ expiresAt ∈ item.expiresAt, expiresAt ≤ now)
    (admissionError "POLICY_DENIED" "ALREADY_EXPIRED" "expires_at has already elapsed")
  refuseIf (∃ expiresAt ∈ item.expiresAt, now + horizon < expiresAt)
    (admissionError "POLICY_DENIED" "RETENTION_HORIZON_EXCEEDED" "expires_at exceeds the retention policy horizon")
  refuseIf (item.expiresAt = none ∧ item.memoryKind = .working)
    (admissionError "POLICY_DENIED" "WORKING_MEMORY_TTL_REQUIRED" "WORKING memory requires a bounded expires_at")

/-- `_validate_kind_rules`. -/
def validateKindRules (item : GovernedMemoryItem) : Except PyError Unit := do
  refuseIf (item.lifecycleStatus.isAdmission = false ∨ item.legalHoldRef ≠ none ∨ item.priorLifecycleStatus ≠ none ∨
      item.deletionEpoch ≠ none)
    (admissionError "LIFECYCLE_TRANSITION_INVALID" "ADMISSION_STATUS_INVALID"
      "admission enters the lifecycle at PROPOSED, ACTIVE or QUARANTINED only")
  refuseIf (item.memoryKind = .semantic ∧ item.derivedFromRefs = [])
    (schemaError "SEMANTIC_DERIVATION_MISSING" "SEMANTIC memory requires evidence and derivation (derived_from_refs)")
  refuseIf (item.memoryKind = .teamShared ∧ item.teamId = none)
    (schemaError "TEAM_BINDING_MISSING" "TEAM_SHARED memory requires team_id")
  refuseIf (¬ (item.sourceKind = .memoryConsolidation ↔ item.consolidatesRefs ≠ []))
    (schemaError "CONSOLIDATION_LINEAGE_INVALID"
      "MEMORY_CONSOLIDATION source and consolidates_refs must appear together")

/-- `_validate_taint`. -/
def validateTaint (item : GovernedMemoryItem) (sources : List GovernedMemoryItem) : Except PyError Unit :=
  let required := py item.sourceKind.taint :: item.memoryKind.taint.map py ++ sources.flatMap fun source => source.taintLabels
  refuseIf (∃ label ∈ required, label ∉ item.taintLabels)
    (admissionError "MEMORY_TAINTED" "TAINT_LABEL_MISSING" "taint cannot be dropped or laundered")

/-! ## Lineage -/

/-- The slot is the next one of its item. -/
def validateSlot (item : GovernedMemoryItem) : Act ω Unit := do
  let latest ← ledgerLatest env.toEnv item.memoryItemId
  let existing ← (if item.memoryVersion ≤ latest then ledgerGet env.toEnv item.memoryItemId item.memoryVersion
    else pure none)
  check (item.memoryVersion ≤ latest ∧ ∃ version ∈ existing, version.itemDigest = item.digest)
    (admissionError "MEMORY_IDEMPOTENCY_CONFLICT" "VERSION_ALREADY_ADMITTED"
      "%s is already admitted under another operation" [.text item.versionRef])
  check (item.memoryVersion ≤ latest)
    (admissionError "MEMORY_IDEMPOTENCY_CONFLICT" "IMMUTABLE_VERSION_OCCUPIED"
      "%s is already admitted; versions are never overwritten" [.text item.versionRef])
  check (1 < item.memoryVersion ∧ latest = 0)
    (admissionError "MEMORY_NOT_FOUND" "ITEM_UNKNOWN" "a new version requires an admitted item")
  check (item.memoryVersion ≠ latest + 1)
    (admissionError "MEMORY_VERSION_NOT_FOUND" "VERSION_GAP" "%s does not follow the latest admitted version %d"
      [.text item.versionRef, .int latest])

/-- A first version supersedes nothing; any other supersedes exactly its predecessor. -/
def validateSupersession (item : GovernedMemoryItem) : Except PyError Unit :=
  if item.memoryVersion = 1 then
    refuseIf (item.supersedesRef ≠ none ∨ item.correctionOfRef ≠ none)
      (schemaError "LINEAGE_INVALID" "a first version cannot supersede or correct; use derived_from_refs")
  else do
    let predecessor := memoryVersionRef item.memoryItemId (item.memoryVersion - 1)
    refuseIf (item.supersedesRef ≠ some predecessor)
      (schemaError "LINEAGE_INVALID" "version %d must supersede exactly %s" [.int item.memoryVersion, .text predecessor])
    match item.correctionOfRef with
    | none => .ok ()
    | some ref => do
      let corrected ← parseMemoryVersionRef ref
      refuseIf (corrected.1 ≠ item.memoryItemId ∨ item.memoryVersion ≤ corrected.2)
        (schemaError "LINEAGE_INVALID" "correction_of_ref must reference an earlier version of the same item")

def resolveSource (item : GovernedMemoryItem) (context : GovernedContext) (ref : PyStr) : Act ω GovernedMemoryItem := do
  let (sourceItem, sourceVersion) ← Op.lift ((parseMemoryVersionRef ref).mapError .exception)
  check (sourceItem = item.memoryItemId ∧ item.memoryVersion ≤ sourceVersion)
    (schemaError "LINEAGE_INVALID" "lineage cannot reference itself or later")
  let found ← ledgerGet env.toEnv sourceItem sourceVersion
  let source ← Op.lift ((orRaise found (admissionError "MEMORY_VERSION_NOT_FOUND" "LINEAGE_SOURCE_MISSING"
    "a lineage reference does not resolve to an admitted version")).mapError .exception)
  check (source.item.tenantId ≠ context.tenantId)
    (admissionError "AUTHORITY_DENIED" "CROSS_TENANT_LINEAGE" "cross-tenant lineage is deny-by-default")
  check (∃ compartment ∈ source.item.compartments, compartment ∉ context.compartments)
    (admissionError "AUTHORITY_DENIED" "LINEAGE_COMPARTMENT_NOT_AUTHORIZED"
      "a lineage source is outside the authorized compartments")
  return source.item

/-- What the versions of one item have in common. -/
def identity (item : GovernedMemoryItem) : PyStr × PyStr × PyStr × MemoryKind × MemoryScope :=
  (item.tenantId, item.organizationId, item.domainId, item.memoryKind, item.memoryScope)

/-- The bindings of the later version's scope, as the earlier version has them. -/
def scopeBindingsFor (scope : MemoryScope) (item : GovernedMemoryItem) : List (String × Option PyStr) :=
  { item.toMemoryFields with memoryScope := scope }.scopeBindings

/-- `_validate_lineage`. -/
def validateLineage (item : GovernedMemoryItem) (context : GovernedContext) : Act ω (List GovernedMemoryItem) := do
  validateSlot env item
  Op.lift ((validateSupersession item).mapError .exception)
  let sources ← Op.collect (resolveSource env item context) item.lineageRefs
  check (1 < item.memoryVersion ∧ ¬ ∃ predecessor ∈ sources.head?, identity predecessor = identity item ∧
      scopeBindingsFor item.memoryScope predecessor = item.scopeBindings)
    (schemaError "LINEAGE_IDENTITY_CHANGED" "identity is immutable across versions of one item")
  return sources

/-! ## References, marking and policy -/

def unavailable : PyError :=
  admissionError "CONTROL_PLANE_UNAVAILABLE" "REFERENCE_RESOLVER_UNAVAILABLE" "reference resolution failed closed"

/-- The evidence records the references resolve to. -/
def resolveEvidence (now : Instant) : List PyStr → List (Option EvidenceRecord) → Except PyError (List EvidenceRecord)
  | ref :: refs, found :: rest => do
    let record ← orRaise (found.filter fun record => record.evidenceId = ref)
      (schemaError "EVIDENCE_UNRESOLVED" "an evidence ref does not resolve")
    refuseIf (record.retentionUntil ≤ now)
      (admissionError "POLICY_DENIED" "EVIDENCE_RETENTION_ELAPSED" "evidence retention elapsed")
    let records ← resolveEvidence now refs rest
    return record :: records
  | _, _ => .ok []

/-- Every provenance reference resolves, and together they cover the source and all evidence. -/
def checkProvenance (item : GovernedMemoryItem) (found : List (Option ProvenanceRecord)) : Except PyError Unit := do
  refuseIf (¬ ∀ pair ∈ item.provenanceRefs.zip found, ∃ record ∈ pair.2, record.provenanceId = pair.1)
    (schemaError "PROVENANCE_UNRESOLVED" "a provenance ref does not resolve")
  let records := found.filterMap id
  refuseIf (¬ (∃ record ∈ records, item.sourceRef ∈ record.sourceRefs) ∨
      ¬ ∀ ref ∈ item.evidenceRefs, ∃ record ∈ records, ref ∈ record.evidenceRefs)
    (schemaError "PROVENANCE_INCOMPLETE" "provenance must cover the source and every evidence ref")

/-- `_resolve_references`. -/
def resolveReferences (item : GovernedMemoryItem) (context : GovernedContext) (now : Instant) :
    Act ω (List EvidenceRecord) := do
  let (sourceDigest, evidence, provenance) ← failClosed ErrorClass.isMemoryError unavailable do
    let sourceDigest ← query env.toEnv fun n _ => .ok (env.sourceDigest n item.sourceRef context)
    let evidence ← Op.collect (fun ref => query env.toEnv fun n _ => .ok (env.evidence n ref context)) item.evidenceRefs
    let provenance ← Op.collect (fun ref => query env.toEnv fun n _ => .ok (env.provenance n ref context)) item.provenanceRefs
    return (sourceDigest, evidence, provenance)
  check (sourceDigest ≠ some item.sourceDigest)
    (schemaError "SOURCE_UNRESOLVED" "source_ref does not resolve to source_digest under the GCS")
  let records ← Op.lift ((resolveEvidence now item.evidenceRefs evidence).mapError .exception)
  Op.lift ((checkProvenance item provenance).mapError .exception)
  return records

/-- `_validate_marking`. -/
def validateMarking (item : GovernedMemoryItem) (context : GovernedContext) (evidence : List EvidenceRecord)
    (sources : List GovernedMemoryItem) : Act ω Unit := do
  let inputs := evidence.map (·.markingRef) ++ sources.map fun source => source.classificationMarkingRef
  inputs.forM fun marking => do
    let dominated ← query env.toEnv fun _ _ => a.dominates context.classificationMarkingRef marking
    check (dominated = false)
      (admissionError "AUTHORITY_DENIED" "INPUT_MARKING_EXCEEDS_CONTEXT" "an input is marked above the authenticated context")
  let required ← query env.toEnv fun _ _ => a.join (context.classificationMarkingRef :: inputs)
  let dominated ← query env.toEnv fun _ _ => a.dominates item.classificationMarkingRef required
  check (dominated = false)
    (admissionError "POLICY_DENIED" "MARKING_DOWNGRADE"
      "item marking is below the conservative join of its context and inputs")

/-- `_validate_scope_authority`. -/
def validateScopeAuthority (item : GovernedMemoryItem) (context : GovernedContext) (now : Instant) : Act ω Unit :=
  if item.memoryScope ≠ .federated then
    check (item.federationPolicyRef ≠ none)
      (schemaError "FEDERATION_BINDING_UNEXPECTED" "federation_policy_ref is only valid for FEDERATED scope")
  else do
    let ref ← Op.lift ((orRaise item.federationPolicyRef assertionError).mapError .exception)
    let policy ← failClosed (fun _ => false) unavailable
      (query env.toEnv fun n _ => .ok (env.federationPolicy n ref context))
    check (¬ ∃ p ∈ policy, p.policyRef = ref ∧ context.tenantId ∈ p.tenantIds ∧ context.purpose ∈ p.purposes ∧
        now < p.validUntil)
      (admissionError "AUTHORITY_DENIED" "FEDERATION_POLICY_NOT_APPLICABLE"
        "FEDERATED scope requires an applicable approved federation policy")

/-- `_validate_instruction_eligibility`. -/
def validateInstructionEligibility (item : GovernedMemoryItem) (context : GovernedContext) (now : Instant) : Act ω Unit :=
  if item.instructionEligible = false then
    pure ()
  else do
    check (item.memoryKind = .reflection ∨ py "MODEL_GENERATED" ∈ item.taintLabels)
      (admissionError "MEMORY_TAINTED" "MODEL_GENERATED_INSTRUCTION"
        "model-generated content is never instruction-eligible at admission")
    check (item.memoryKind ≠ .procedural)
      (admissionError "UNSUPPORTED_CAPABILITY" "INSTRUCTION_ELIGIBILITY_UNSUPPORTED"
        "only PROCEDURAL memory may become instruction-eligible")
    let ref ← Op.lift ((orRaise item.instructionApprovalRef assertionError).mapError .exception)
    let approval ← failClosed (fun _ => false) unavailable
      (query env.toEnv fun n _ => .ok (env.instructionApproval n ref context))
    check (¬ ∃ p ∈ approval, p.approvalRef = ref ∧ p.memoryItemId = item.memoryItemId ∧
        p.approvedContentDigest = item.contentDigest ∧ p.tenantId = item.tenantId ∧
        p.approverPrincipalId ≠ item.ownerPrincipalId ∧ now < p.validUntil)
      (admissionError "AUTHORITY_DENIED" "INSTRUCTION_APPROVAL_INVALID"
        "instruction eligibility requires a separate, current, exact approval")

/-- `LifecycleGuardPolicy.authorize_admission`: a new version only on an admittable head. -/
def guardPolicy (item : GovernedMemoryItem) (context : GovernedContext) : Act ω (Option MemoryPolicyDecision) := do
  let head ← (if 1 < item.memoryVersion then ledgerGet env.toEnv item.memoryItemId (item.memoryVersion - 1)
    else pure none)
  if ∃ version ∈ head, version.item.lifecycleStatus.isAdmission = false then
    pure (some ⟨false, py "decision:lifecycle-guard:head-not-admittable", context.policyBundleDigest⟩)
  else
    query env.toEnv fun n _ => .ok (env.authorizeAdmission n item context)

/-- `_evaluate_policy`, under any policy. -/
def evaluateUnder (policy : AdmissionPolicy ω) (item : GovernedMemoryItem) (context : GovernedContext) :
    Act ω MemoryPolicyDecision := do
  let answer ← failClosed ErrorClass.isMemoryError
    (admissionError "CONTROL_PLANE_UNAVAILABLE" "POLICY_UNAVAILABLE" "admission policy evaluation failed closed")
    (policy item context)
  let decision ← Op.lift ((orRaise answer (admissionError "CONTROL_PLANE_UNAVAILABLE" "POLICY_DECISION_INVALID"
    "no policy decision")).mapError .exception)
  check (decision.policyBundleDigest ≠ context.policyBundleDigest)
    (admissionError "STALE_POLICY" "POLICY_BUNDLE_MISMATCH" "policy decision was not evaluated against the context bundle")
  check (decision.permitted = false)
    (admissionError "POLICY_DENIED" "ADMISSION_DENIED" "admission policy denied the candidate")
  return decision

/-- `_evaluate_policy` under the lifecycle guard. -/
def evaluatePolicy (item : GovernedMemoryItem) (context : GovernedContext) : Act ω MemoryPolicyDecision :=
  evaluateUnder (guardPolicy env) item context

/-! ## Admission -/

/-- The record of an admission. -/
def admittedVersion (item : GovernedMemoryItem) (operationId : PyStr) (context : GovernedContext)
    (binding : VerifiedGovernedContextBinding) (decision : MemoryPolicyDecision) (now : Instant) : AdmittedMemoryVersion :=
  let lifecycleEvent := LifecycleEvent.admitted item.versionRef item.lifecycleStatus now
  let auditEvent : AuditEvent :=
    { action := py "admitMemory", operationId, memoryVersionRef := item.versionRef, itemDigest := item.digest,
      policyDecisionRef := decision.decisionRef, policyBundleDigest := decision.policyBundleDigest,
      governedContextDigest := context.digest, bindingRef := binding.bindingRef,
      correlationId := context.correlationId, instant := now,
      detail := .admission item.contentDigest (canonicalDigest lifecycleEvent.toMapping) }
  { item, itemDigest := item.digest, idempotencyKey := idempotencyKey item operationId, lifecycleEvent, auditEvent,
    receipt := { memoryItemId := item.memoryItemId, memoryVersion := item.memoryVersion,
                 contentDigest := item.contentDigest, lifecycleStatus := item.lifecycleStatus,
                 governedContextDigest := context.digest, auditRef := canonicalDigest auditEvent.toMapping } }

/-- Every check of a candidate that is no replay; the decision is the last of them. -/
def examineUnder (policy : AdmissionPolicy ω) (item : GovernedMemoryItem) (context : GovernedContext) (payload : Bytes)
    (now : Instant) : Act ω MemoryPolicyDecision := do
  Op.lift ((a.validateContent item payload).mapError .exception)
  Op.lift ((a.validateTemporal item now).mapError .exception)
  Op.lift ((validateKindRules item).mapError .exception)
  let sources ← validateLineage env item context
  let evidence ← resolveReferences env item context now
  a.validateMarking env item context evidence sources
  Op.lift ((validateTaint item sources).mapError .exception)
  validateScopeAuthority env item context now
  validateInstructionEligibility env item context now
  evaluateUnder policy item context

/-- The envelope and the candidate, up to the check that it is bound to the context. -/
def accept (request : AdmissionRequest) (binding : VerifiedGovernedContextBinding) (now : Instant) :
    Except PyError GovernedMemoryItem := do
  refuseIf (request.operationId = []) (schemaError "ENVELOPE_INVALID" "operation_id must be a non-empty string")
  refuseIf (request.governedContextDigest = [])
    (schemaError "ENVELOPE_INVALID" "governed_context_digest must be a non-empty string")
  refuseIf (request.deadline ≤ now) (admissionError "POLICY_DENIED" "DEADLINE_EXCEEDED" "admission deadline has passed")
  refuseIf (request.governedContext ≠ binding.expected ∨
      request.governedContext.digest ≠ request.governedContextDigest)
    (admissionError "GOVERNED_CONTEXT_MISMATCH" "GOVERNED_CONTEXT_MISMATCH" "governed context mismatch")
  let item ← request.candidate.validated
  refuseIf (supported item.memoryKind item.memoryScope = false)
    (admissionError "UNSUPPORTED_CAPABILITY" "KIND_SCOPE_UNSUPPORTED" "%s/%s is not a supported memory capability"
      [.text (py item.memoryKind.value), .text (py item.memoryScope.value)])
  bindToContext item request.governedContext
  return item

/-- `_admit`, under any policy. -/
def admitCandidateUnder (policy : AdmissionPolicy ω) (request : AdmissionRequest) (binding : VerifiedGovernedContextBinding)
    (payload : Bytes) : Act ω MemoryReceipt := do
  let now ← now env.toEnv
  let item ← Op.lift ((accept request binding now).mapError .exception)
  let previous ← ledgerByKey env.toEnv (idempotencyKey item request.operationId)
  match previous with
  | some previous => do
    check (previous.itemDigest ≠ item.digest)
      (admissionError "MEMORY_IDEMPOTENCY_CONFLICT" "IDEMPOTENCY_DIGEST_MISMATCH"
        "idempotency key was admitted with a different candidate digest")
    Op.lift ((a.validateContent item payload).mapError .exception)
    return previous.receipt
  | none => do
    let decision ← a.examineUnder env policy item request.governedContext payload now
    let record := admittedVersion item request.operationId request.governedContext binding decision now
    ledgerAppend env.toEnv record
    return record.receipt

/-- `_record_denial`: without a sink, or with one that fails, the refusal is not acknowledged. -/
def recordDenial (operationId : PyStr) (binding : Option VerifiedGovernedContextBinding) (error : PyError) : Act ω Unit :=
  failClosed (fun _ => false)
    (admissionError "CONTROL_PLANE_UNAVAILABLE" "AUDIT_UNAVAILABLE" "admission denial could not be audited") do
    let now ← now env.toEnv
    match a.audit with
    | none => Op.raise (.exception ⟨.runtimeError, "denial audit authority is not configured", []⟩)
    | some audit => outside env.toEnv (audit error.cls.reasonCode error.cls.detailCode (some operationId) binding now)

/-- `admit` under any policy: any failure that is no memory error refuses closed, and every refusal is recorded. -/
def admitUnder (policy : AdmissionPolicy ω) (request : AdmissionRequest) (binding : Option VerifiedGovernedContextBinding)
    (payload : Bytes) : Act ω MemoryReceipt :=
  Op.guarded (do
      let binding ← Op.lift ((orRaise binding (admissionError "AUTHENTICATION_REQUIRED" "BINDING_MISSING"
        "admission requires an authenticated governed-context binding")).mapError .exception)
      a.admitCandidateUnder env policy request binding payload)
    fun why =>
      match why with
      | .exception e => do
        let error := if e.cls.isMemoryError then e else
          admissionError "INTERNAL_ERROR" "ADMISSION_UNAVAILABLE" "admission failed closed"
        a.recordDenial env request.operationId binding error
        Op.raise (.exception error)
      | .interrupt => Op.raise .interrupt

/-- `admit` under the lifecycle guard. -/
def admitMemory (request : AdmissionRequest) (binding : Option VerifiedGovernedContextBinding) (payload : Bytes) :
    Act ω MemoryReceipt :=
  a.admitUnder env (guardPolicy env) request binding payload

end AdmissionService
end OcorRuntime.Memory

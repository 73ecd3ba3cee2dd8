import OcorRuntime.Agent.TokenBudget
import OcorRuntime.Kernel.GovernedContextCodec
import OcorRuntime.Kernel.Timestamps
import OcorRuntime.Memory.Item

/-! Reading memory items (`memory/model.py`): the closed record with its required and its
optional members, each checked by the parser of its kind. -/
namespace OcorRuntime.Memory
open Canonical Kernel
set_option autoImplicit false
set_option maxHeartbeats 250000

/-! ## Vocabulary read from a text -/

def MemoryKind.ofValue? (text : PyStr) : Option MemoryKind :=
  [MemoryKind.working, .episodic, .semantic, .procedural, .preference, .reflection, .dissent, .teamShared].find?
    fun kind => py kind.value = text

def MemoryScope.ofValue? (text : PyStr) : Option MemoryScope :=
  [MemoryScope.run, .task, .agent, .team, .project, .domain, .federated].find? fun scope => py scope.value = text

def SourceKind.ofValue? (text : PyStr) : Option SourceKind :=
  [SourceKind.observation, .evidence, .toolResult, .humanInput, .modelOutput, .derivedSummary, .procedure, .preference,
    .memoryConsolidation].find? fun kind => py kind.value = text

def RepresentationKind.ofValue? (text : PyStr) : Option RepresentationKind :=
  [RepresentationKind.structured, .fullText, .vector].find? fun kind => py kind.value = text

/-- An ASCII letter. -/
def isLetter (c : CodePoint) : Bool := (65 ≤ c.val && c.val ≤ 90) || (97 ≤ c.val && c.val ≤ 122)

/-- `LANGUAGE.fullmatch`: a word of two or three letters, then words of letters and digits, hyphens in between. -/
def isLanguage (text : PyStr) : Bool :=
  match text.splitOn (codePoint 0x2D) with
  | [] => false
  | language :: subtags =>
    (language.all isLetter && 2 ≤ language.length && language.length ≤ 3) &&
      subtags.all fun subtag =>
        (subtag.all fun c => isLetter c || decide (IsDigit c)) && 2 ≤ subtag.length && subtag.length ≤ 8

/-! ## Members -/

/-- `value.get(name)`, of the entries of a mapping. -/
def member (entries : List (MappingKey × PyValue)) (name : String) : Option PyValue :=
  Dict.find entries (.str (py name))

def fieldInvalid (message : String) (name : String) : PyError := schemaError "FIELD_INVALID" message [.text (py name)]

namespace ItemField
variable {α : Type}

/-- `_string`. -/
def string (name : String) : PyValue → Except PyError PyStr
  | .str (c :: text) => .ok (c :: text)
  | _ => .error (fieldInvalid "%s must be a non-empty string" name)

/-- `_digest`. -/
def digest (name : String) (value : PyValue) : Except PyError PyStr := do
  let result ← string name value
  refuseIf (¬ IsDigest result) (fieldInvalid "%s must be a canonical SHA-256 URN" name)
  return result

/-- `_timestamp`. -/
def timestamp (name : String) (value : PyValue) : Except PyError Instant := do
  let text ← string name value
  match parseUtcTimestamp text with
  | .ok instant => return instant
  | .error _ => .error (fieldInvalid "%s must be a canonical UTC timestamp" name)

/-- `_integer`. -/
def integer (minimum : ℕ) (name : String) (value : PyValue) : Except PyError ℕ :=
  let invalid := schemaError "FIELD_INVALID" "%s must be an integer >= %s" [.text (py name), .int minimum]
  match value with
  | .int n => if n < minimum then .error invalid else .ok n.toNat
  | _ => .error invalid

/-- `_enum`, of the enumeration whose members are found by their value. -/
def enum (ofValue? : PyStr → Option α) (name : String) (value : PyValue) : Except PyError α :=
  let invalid := fieldInvalid "%s must be a declared enum value" name
  match value with
  | .str text => orRaise (ofValue? text) invalid
  | _ => .error invalid

/-- What `_string_set` does with the items of an array. -/
def stringItems (nonEmpty : Bool) (name : String) (values : List PyValue) : Except PyError (List PyStr) := do
  let items ← values.mapM (string name)
  refuseIf (nonEmpty = true ∧ items = []) (fieldInvalid "%s must not be empty" name)
  refuseIf (¬ items.Nodup) (fieldInvalid "%s must not contain duplicates" name)
  match canonicalSet items with
  | .ok sorted => return sorted
  | .error e => .error (fieldInvalid ("%s: " ++ e.message) name)

/-- `_string_set`. -/
def stringSet (nonEmpty : Bool) (name : String) : PyValue → Except PyError (List PyStr)
  | .list values | .tuple values => stringItems nonEmpty name values
  | _ => .error (fieldInvalid "%s must be an array" name)

/-- A number in the unit interval; it is kept as it is. -/
def unitNumber (name : String) (value : PyValue) : Except PyError PyValue :=
  let inside :=
    match value with
    | .int n => decide (0 ≤ n ∧ n ≤ 1)
    | .float x => Agent.isConfidence x
    | _ => false
  if inside then .ok value else .error (fieldInvalid "%s must be a number in [0, 1]" name)

def boolean (name : String) : PyValue → Except PyError Bool
  | .bool b => .ok b
  | _ => .error (fieldInvalid "%s must be a boolean" name)

def languageTag (name : String) (value : PyValue) : Except PyError PyStr := do
  let text ← string name value
  refuseIf (¬ isLanguage text) (fieldInvalid "%s must be a BCP 47 tag" name)
  return text

/-- `parse(name, value[name])`. -/
def requiredField (entries : List (MappingKey × PyValue)) (name : String) (parse : String → PyValue → Except PyError α) :
    Except PyError α := do
  let raw ← orRaise (member entries name) ⟨.keyError, "%r", [.text (py name)]⟩
  parse name raw

/-- `optional(name, parse)`: a member that is there is parsed, even if it is null. -/
def optionalField (entries : List (MappingKey × PyValue)) (name : String) (parse : String → PyValue → Except PyError α) :
    Except PyError (Option α) :=
  match member entries name with
  | none => .ok none
  | some raw => (parse name raw).map some

end ItemField

/-! ## The record -/

/-- `REQUIRED_FIELDS`. -/
def requiredFields : List String :=
  ["memory_item_id", "memory_version", "memory_kind", "memory_scope", "owner_principal_id", "tenant_id",
    "organization_id", "domain_id", "compartments", "classification_marking_ref", "purpose", "content_schema_ref",
    "content_ref", "content_digest", "source_kind", "source_ref", "source_digest", "evidence_refs", "provenance_refs",
    "derived_from_refs", "consolidates_refs", "created_at", "valid_from", "retention_policy_ref", "confidence",
    "policy_bundle_digest", "ontology_release_digest", "governed_context_digest", "instruction_eligible",
    "taint_labels", "representation_kinds", "lifecycle_status"]

/-- `OPTIONAL_FIELDS`. -/
def optionalFields : List String :=
  ["agent_run_id", "team_run_id", "task_id", "agent_id", "team_id", "project_id", "federation_policy_ref", "language",
    "supersedes_ref", "correction_of_ref", "valid_until", "expires_at", "legal_hold_ref", "uncertainty_ref",
    "instruction_approval_ref", "embedding_model_ref", "embedding_model_digest", "embedding_dimensions",
    "embedding_normalization_profile", "embedding_ref", "embedding_digest", "prior_lifecycle_status", "deletion_epoch"]

/-- `MEMORY_ITEM_FIELDS`. -/
def memoryItemFields : List MappingKey := (requiredFields ++ optionalFields).map fun name => .str (py name)

/-- `', '.join(sorted(names))`. -/
def joinedNames (names : List PyStr) : ErrorArg := .text (List.intercalate (py ", ") (sortedTexts names))

open ItemField in
/-- The members of a record that has no undeclared and no missing one, parsed one by one. -/
def MemoryFields.read (entries : List (MappingKey × PyValue)) : Except PyError MemoryFields := do
  let confidence ← requiredField entries "confidence" unitNumber
  let instructionEligible ← requiredField entries "instruction_eligible" boolean
  let representations ← requiredField entries "representation_kinds" (stringSet true)
  let language ← optionalField entries "language" languageTag
  let memoryItemId ← requiredField entries "memory_item_id" string
  let memoryVersion ← requiredField entries "memory_version" (integer 1)
  let memoryKind ← requiredField entries "memory_kind" (enum MemoryKind.ofValue?)
  let memoryScope ← requiredField entries "memory_scope" (enum MemoryScope.ofValue?)
  let ownerPrincipalId ← requiredField entries "owner_principal_id" string
  let tenantId ← requiredField entries "tenant_id" string
  let organizationId ← requiredField entries "organization_id" string
  let domainId ← requiredField entries "domain_id" string
  let compartments ← requiredField entries "compartments" (stringSet true)
  let classificationMarkingRef ← requiredField entries "classification_marking_ref" digest
  let purpose ← requiredField entries "purpose" string
  let contentSchemaRef ← requiredField entries "content_schema_ref" string
  let contentRef ← requiredField entries "content_ref" string
  let contentDigest ← requiredField entries "content_digest" digest
  let sourceKind ← requiredField entries "source_kind" (enum SourceKind.ofValue?)
  let sourceRef ← requiredField entries "source_ref" string
  let sourceDigest ← requiredField entries "source_digest" digest
  let evidenceRefs ← requiredField entries "evidence_refs" (stringSet true)
  let provenanceRefs ← requiredField entries "provenance_refs" (stringSet true)
  let derivedFromRefs ← requiredField entries "derived_from_refs" (stringSet false)
  let consolidatesRefs ← requiredField entries "consolidates_refs" (stringSet false)
  let createdAt ← requiredField entries "created_at" timestamp
  let validFrom ← requiredField entries "valid_from" timestamp
  let retentionPolicyRef ← requiredField entries "retention_policy_ref" string
  let policyBundleDigest ← requiredField entries "policy_bundle_digest" digest
  let ontologyReleaseDigest ← requiredField entries "ontology_release_digest" digest
  let governedContextDigest ← requiredField entries "governed_context_digest" digest
  let taintLabels ← requiredField entries "taint_labels" (stringSet true)
  let representationKinds ← representations.mapM fun kind =>
    enum RepresentationKind.ofValue? "representation_kinds" (.str kind)
  let lifecycleStatus ← requiredField entries "lifecycle_status" (enum LifecycleStatus.ofValue?)
  let agentRunId ← optionalField entries "agent_run_id" string
  let teamRunId ← optionalField entries "team_run_id" string
  let taskId ← optionalField entries "task_id" string
  let agentId ← optionalField entries "agent_id" string
  let teamId ← optionalField entries "team_id" string
  let projectId ← optionalField entries "project_id" string
  let federationPolicyRef ← optionalField entries "federation_policy_ref" string
  let supersedesRef ← optionalField entries "supersedes_ref" string
  let correctionOfRef ← optionalField entries "correction_of_ref" string
  let validUntil ← optionalField entries "valid_until" timestamp
  let expiresAt ← optionalField entries "expires_at" timestamp
  let legalHoldRef ← optionalField entries "legal_hold_ref" string
  let uncertaintyRef ← optionalField entries "uncertainty_ref" string
  let instructionApprovalRef ← optionalField entries "instruction_approval_ref" string
  let embeddingModelRef ← optionalField entries "embedding_model_ref" string
  let embeddingModelDigest ← optionalField entries "embedding_model_digest" digest
  let embeddingDimensions ← optionalField entries "embedding_dimensions" (integer 1)
  let embeddingNormalizationProfile ← optionalField entries "embedding_normalization_profile" string
  let embeddingRef ← optionalField entries "embedding_ref" string
  let embeddingDigest ← optionalField entries "embedding_digest" digest
  let priorLifecycleStatus ← optionalField entries "prior_lifecycle_status" (enum LifecycleStatus.ofValue?)
  let deletionEpoch ← optionalField entries "deletion_epoch" (integer 0)
  return {
    memoryItemId, memoryVersion, memoryKind, memoryScope, ownerPrincipalId, tenantId, organizationId, domainId,
    compartments, classificationMarkingRef, purpose, contentSchemaRef, contentRef, contentDigest, sourceKind, sourceRef,
    sourceDigest, evidenceRefs, provenanceRefs, derivedFromRefs, consolidatesRefs, createdAt, validFrom,
    retentionPolicyRef, confidence, policyBundleDigest, ontologyReleaseDigest, governedContextDigest,
    instructionEligible, taintLabels, representationKinds, lifecycleStatus, agentRunId, teamRunId, taskId, agentId,
    teamId, projectId, federationPolicyRef, language, supersedesRef, correctionOfRef, validUntil, expiresAt,
    legalHoldRef, uncertaintyRef, instructionApprovalRef, embeddingModelRef, embeddingModelDigest, embeddingDimensions,
    embeddingNormalizationProfile, embeddingRef, embeddingDigest, priorLifecycleStatus, deletionEpoch }

/-- `GovernedMemoryItem.from_mapping`. -/
def GovernedMemoryItem.fromMapping (value : PyValue) : Except PyError GovernedMemoryItem :=
  match value with
  | .mapping entries => do
    let present := entries.map Prod.fst
    let additional := (present.filter fun key => key ∉ memoryItemFields).map keyText
    refuseIf (additional ≠ []) (schemaError "ADDITIONAL_PROPERTY" "undeclared fields: %s" [joinedNames additional])
    let missing := (requiredFields.map py).filter fun name => MappingKey.str name ∉ present
    refuseIf (missing ≠ []) (schemaError "REQUIRED_FIELD_MISSING" "missing fields: %s" [joinedNames missing])
    let item ← MemoryFields.read entries
    item.validated
  | _ => .error (schemaError "NOT_AN_OBJECT" "GovernedMemoryItem must be an object")

end OcorRuntime.Memory

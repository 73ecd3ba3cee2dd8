import OcorRuntime.Kernel.CodecLaws
import OcorRuntime.Kernel.TimestampLaws
import OcorRuntime.Memory.ItemReading

/-! Memory items and the mappings they are stored as. Every parser reads back what is
written for the value it returned, timestamps of the years before 1000 excepted; hence
so does the record. -/
namespace OcorRuntime.Memory
open Canonical Kernel
set_option autoImplicit false
set_option maxHeartbeats 250000

namespace ItemField
variable {α : Type} {parse : String → PyValue → Except PyError α} {write : α → PyValue} {name : String}
  {value : PyValue} {entries written : List (MappingKey × PyValue)}

/-! ## Parsers -/

/-- What is written for a value that was parsed is parsed as that value. -/
def Rereads (parse : String → PyValue → Except PyError α) (write : α → PyValue) : Prop :=
  ∀ name value a, parse name value = .ok a → parse name (write a) = .ok a

theorem string_eq_ok {text : PyStr} : string name value = .ok text ↔ value = .str text ∧ text ≠ [] := by
  unfold string
  split
  · next c rest =>
    constructor
    · intro h
      cases h
      exact ⟨rfl, List.cons_ne_nil c rest⟩
    · rintro ⟨h, -⟩
      cases h
      rfl
  · next hother =>
    constructor
    · intro h
      cases h
    · rintro ⟨rfl, hne⟩
      obtain ⟨c, rest, rfl⟩ := List.exists_cons_of_ne_nil hne
      exact absurd rfl (hother c rest)

theorem string_rereads : Rereads string .str := by
  intro name value text h
  obtain ⟨rfl, -⟩ := string_eq_ok.1 h
  exact h

theorem digest_rereads : Rereads digest .str := by
  intro name value text h
  obtain ⟨result, hresult, hrest⟩ := bind_eq_ok.1 h
  obtain ⟨hdigest, hret⟩ := check_bind_eq_ok.1 hrest
  cases hret
  obtain ⟨rfl, -⟩ := string_eq_ok.1 hresult
  exact h

theorem languageTag_rereads : Rereads languageTag .str := by
  intro name value text h
  obtain ⟨result, hresult, hrest⟩ := bind_eq_ok.1 h
  obtain ⟨-, hret⟩ := check_bind_eq_ok.1 hrest
  cases hret
  obtain ⟨rfl, -⟩ := string_eq_ok.1 hresult
  exact h

theorem integer_rereads {minimum : ℕ} : Rereads (integer minimum) fun n => .int n := by
  intro name value n h
  unfold integer at h
  dsimp only at h
  split at h
  · next k =>
    split_ifs at h with hlow
    cases h
    unfold integer
    dsimp only
    rw [Int.toNat_of_nonneg (by omega), if_neg hlow]
  · cases h

theorem boolean_rereads : Rereads boolean .bool := by
  intro name value b h
  unfold boolean at h
  split at h
  · cases h
    rfl
  · cases h

theorem unitNumber_eq_ok {number : PyValue} (h : unitNumber name value = .ok number) : value = number := by
  unfold unitNumber at h
  dsimp only at h
  split_ifs at h
  exact Except.ok.inj h

theorem unitNumber_rereads : Rereads unitNumber id := by
  intro name value number h
  cases unitNumber_eq_ok h
  exact h

/-- The members of an enumeration are found by the value they have. -/
def Valued (ofValue? : PyStr → Option α) (valueOf : α → String) : Prop :=
  ∀ text a, ofValue? text = some a → py (valueOf a) = text

theorem valued_find {all : List α} {valueOf : α → String} :
    Valued (fun text => all.find? fun a => decide (py (valueOf a) = text)) valueOf := by
  intro text a h
  have hfound := List.find?_some h
  exact of_decide_eq_true hfound

theorem enum_rereads {ofValue? : PyStr → Option α} {valueOf : α → String} (hv : Valued ofValue? valueOf) :
    Rereads (enum ofValue?) fun a => .str (py (valueOf a)) := by
  intro name value a h
  unfold enum at h
  dsimp only at h
  split at h
  · next text =>
    have htext := hv text a (orRaise_eq_ok.1 h)
    unfold enum
    dsimp only
    rw [htext]
    exact h
  · cases h

theorem strings_parsed {values : List PyValue} {items : List PyStr} :
    values.mapM (string name) = .ok items ↔ values = items.map .str ∧ ∀ item ∈ items, item ≠ [] := by
  rw [forall₂_of_mapM]
  constructor
  · intro h
    induction h with
    | nil => exact ⟨rfl, fun item hitem => absurd hitem List.not_mem_nil⟩
    | cons hitem _ ih =>
      obtain ⟨rfl, hne⟩ := string_eq_ok.1 hitem
      exact ⟨by rw [ih.1, List.map_cons], List.forall_mem_cons.mpr ⟨hne, ih.2⟩⟩
  · rintro ⟨rfl, hne⟩
    rw [List.forall₂_map_left_iff, List.forall₂_same]
    exact fun item hitem => string_eq_ok.2 ⟨rfl, hne item hitem⟩

theorem stringItems_eq_ok {nonEmpty : Bool} {values : List PyValue} {sorted : List PyStr}
    (h : stringItems nonEmpty name values = .ok sorted) : ∃ items, (∀ item ∈ items, item ≠ []) ∧
      ¬ (nonEmpty = true ∧ items = []) ∧ items.Nodup ∧ canonicalSet items = .ok sorted := by
  obtain ⟨items, hitems, h⟩ := bind_eq_ok.1 h
  obtain ⟨hempty, h⟩ := check_bind_eq_ok.1 h
  obtain ⟨hnodup, h⟩ := check_bind_eq_ok.1 h
  refine ⟨items, (strings_parsed.1 hitems).2, refuseIf_eq_ok.1 hempty, not_not.mp (refuseIf_eq_ok.1 hnodup), ?_⟩
  split at h
  · next hset =>
    cases h
    exact hset
  · cases h

theorem stringSet_rereads {nonEmpty : Bool} : Rereads (stringSet nonEmpty) strings := by
  intro name value sorted h
  obtain ⟨values, hvalues⟩ : ∃ values, stringItems nonEmpty name values = .ok sorted := by
    unfold stringSet at h
    split at h
    · exact ⟨_, h⟩
    · exact ⟨_, h⟩
    · cases h
  obtain ⟨items, hnamed, hempty, hnodup, hset⟩ := stringItems_eq_ok hvalues
  obtain ⟨-, -, hperm, -⟩ := canonicalSet_eq_ok hset
  have hempty' : ¬ (nonEmpty = true ∧ sorted = []) := fun ⟨hne, hnil⟩ =>
    hempty ⟨hne, (hperm.symm.trans (List.Perm.of_eq hnil)).eq_nil⟩
  have hread : (sorted.map PyValue.str).mapM (string name) = .ok sorted :=
    strings_parsed.2 ⟨rfl, fun item hitem => hnamed item (hperm.mem_iff.1 hitem)⟩
  refine bind_eq_ok.2 ⟨sorted, hread, ?_⟩
  refine check_bind_eq_ok.2 ⟨refuseIf_eq_ok.2 hempty', ?_⟩
  refine check_bind_eq_ok.2 ⟨refuseIf_eq_ok.2 (not_not.mpr (hperm.nodup_iff.mpr hnodup)), ?_⟩
  rw [canonicalSet_again hset]
  rfl

/-! ## Timestamps -/

theorem timestamp_eq_ok {instant : Instant} : timestamp name value = .ok instant ↔
    ∃ text, value = .str text ∧ text ≠ [] ∧ parseUtcTimestamp text = .ok instant := by
  constructor
  · intro h
    obtain ⟨text, htext, hrest⟩ := bind_eq_ok.1 h
    obtain ⟨rfl, hne⟩ := string_eq_ok.1 htext
    split at hrest
    · next hparse =>
      cases hrest
      exact ⟨text, rfl, hne, hparse⟩
    · cases hrest
  · rintro ⟨text, rfl, hne, hparse⟩
    refine bind_eq_ok.2 ⟨text, string_eq_ok.2 ⟨rfl, hne⟩, ?_⟩
    rw [hparse]
    rfl

/-- A timestamp is read back if it was written with a year of four digits from 1000 on. -/
theorem timestamp_again {instant : Instant} {text : PyStr} (h : timestamp name (.str text) = .ok instant) :
    timestamp name (.str (formatUtcTimestamp instant)) = .ok instant ↔ 1000 ≤ digitsValue (text.take 4) := by
  obtain ⟨_, hvalue, -, hparse⟩ := timestamp_eq_ok.1 h
  cases hvalue
  obtain ⟨hlow, hhigh, hyear⟩ := parseUtcTimestamp_eq_ok hparse
  have hread : timestamp name (.str (formatUtcTimestamp instant)) = .ok instant ↔
      parseUtcTimestamp (formatUtcTimestamp instant) = .ok instant := by
    rw [timestamp_eq_ok]
    constructor
    · rintro ⟨written, hwritten, -, hread⟩
      cases hwritten
      exact hread
    · intro hread
      refine ⟨_, rfl, fun hnil => ?_, hread⟩
      rw [hnil] at hread
      cases hread
  rw [hread, parse_formatUtcTimestamp hlow hhigh, hyear]
  norm_cast

/-! ## Members -/

theorem requiredField_eq_ok {a : α} :
    requiredField entries name parse = .ok a ↔ ∃ raw, member entries name = some raw ∧ parse name raw = .ok a := by
  unfold requiredField
  rw [bind_eq_ok]
  simp only [orRaise_eq_ok]

theorem optionalField_eq_ok {a : Option α} : optionalField entries name parse = .ok a ↔
    (member entries name = none ∧ a = none) ∨
      ∃ raw b, member entries name = some raw ∧ parse name raw = .ok b ∧ a = some b := by
  unfold optionalField
  cases hraw : member entries name with
  | none => simp [eq_comm]
  | some raw =>
    cases hparse : parse name raw with
    | error e => simp [hparse, Except.map]
    | ok b => simp [hparse, Except.map, eq_comm]

theorem requiredField_again (hagain : Rereads parse write) {a : α} (h : requiredField entries name parse = .ok a)
    (hwritten : member written name = some (write a)) : requiredField written name parse = .ok a := by
  obtain ⟨raw, -, hraw⟩ := requiredField_eq_ok.1 h
  exact requiredField_eq_ok.2 ⟨write a, hwritten, hagain name raw a hraw⟩

theorem optionalField_again (hagain : Rereads parse write) {a : Option α}
    (h : optionalField entries name parse = .ok a) (hwritten : member written name = a.map write) :
    optionalField written name parse = .ok a := by
  rcases optionalField_eq_ok.1 h with ⟨-, rfl⟩ | ⟨raw, b, -, hraw, rfl⟩
  · exact optionalField_eq_ok.2 (.inl ⟨hwritten, rfl⟩)
  · exact optionalField_eq_ok.2 (.inr ⟨write b, b, hwritten, hagain name raw b hraw, rfl⟩)

end ItemField

/-! ## The record -/

open ItemField

/-- The members of an item, each as it was parsed. -/
structure ReadsItem (entries : List (MappingKey × PyValue)) (f : MemoryFields) : Prop where
  memoryItemId : requiredField entries "memory_item_id" string = .ok f.memoryItemId
  memoryVersion : requiredField entries "memory_version" (integer 1) = .ok f.memoryVersion
  memoryKind : requiredField entries "memory_kind" (enum MemoryKind.ofValue?) = .ok f.memoryKind
  memoryScope : requiredField entries "memory_scope" (enum MemoryScope.ofValue?) = .ok f.memoryScope
  ownerPrincipalId : requiredField entries "owner_principal_id" string = .ok f.ownerPrincipalId
  tenantId : requiredField entries "tenant_id" string = .ok f.tenantId
  organizationId : requiredField entries "organization_id" string = .ok f.organizationId
  domainId : requiredField entries "domain_id" string = .ok f.domainId
  compartments : requiredField entries "compartments" (stringSet true) = .ok f.compartments
  classificationMarkingRef : requiredField entries "classification_marking_ref" digest = .ok f.classificationMarkingRef
  purpose : requiredField entries "purpose" string = .ok f.purpose
  contentSchemaRef : requiredField entries "content_schema_ref" string = .ok f.contentSchemaRef
  contentRef : requiredField entries "content_ref" string = .ok f.contentRef
  contentDigest : requiredField entries "content_digest" digest = .ok f.contentDigest
  sourceKind : requiredField entries "source_kind" (enum SourceKind.ofValue?) = .ok f.sourceKind
  sourceRef : requiredField entries "source_ref" string = .ok f.sourceRef
  sourceDigest : requiredField entries "source_digest" digest = .ok f.sourceDigest
  evidenceRefs : requiredField entries "evidence_refs" (stringSet true) = .ok f.evidenceRefs
  provenanceRefs : requiredField entries "provenance_refs" (stringSet true) = .ok f.provenanceRefs
  derivedFromRefs : requiredField entries "derived_from_refs" (stringSet false) = .ok f.derivedFromRefs
  consolidatesRefs : requiredField entries "consolidates_refs" (stringSet false) = .ok f.consolidatesRefs
  createdAt : requiredField entries "created_at" timestamp = .ok f.createdAt
  validFrom : requiredField entries "valid_from" timestamp = .ok f.validFrom
  retentionPolicyRef : requiredField entries "retention_policy_ref" string = .ok f.retentionPolicyRef
  confidence : requiredField entries "confidence" unitNumber = .ok f.confidence
  policyBundleDigest : requiredField entries "policy_bundle_digest" digest = .ok f.policyBundleDigest
  ontologyReleaseDigest : requiredField entries "ontology_release_digest" digest = .ok f.ontologyReleaseDigest
  governedContextDigest : requiredField entries "governed_context_digest" digest = .ok f.governedContextDigest
  instructionEligible : requiredField entries "instruction_eligible" boolean = .ok f.instructionEligible
  taintLabels : requiredField entries "taint_labels" (stringSet true) = .ok f.taintLabels
  representationKinds : ∃ representations,
    requiredField entries "representation_kinds" (stringSet true) = .ok representations ∧
      (representations.mapM fun kind => enum RepresentationKind.ofValue? "representation_kinds" (.str kind)) =
        .ok f.representationKinds
  lifecycleStatus : requiredField entries "lifecycle_status" (enum LifecycleStatus.ofValue?) = .ok f.lifecycleStatus
  agentRunId : optionalField entries "agent_run_id" string = .ok f.agentRunId
  teamRunId : optionalField entries "team_run_id" string = .ok f.teamRunId
  taskId : optionalField entries "task_id" string = .ok f.taskId
  agentId : optionalField entries "agent_id" string = .ok f.agentId
  teamId : optionalField entries "team_id" string = .ok f.teamId
  projectId : optionalField entries "project_id" string = .ok f.projectId
  federationPolicyRef : optionalField entries "federation_policy_ref" string = .ok f.federationPolicyRef
  language : optionalField entries "language" languageTag = .ok f.language
  supersedesRef : optionalField entries "supersedes_ref" string = .ok f.supersedesRef
  correctionOfRef : optionalField entries "correction_of_ref" string = .ok f.correctionOfRef
  validUntil : optionalField entries "valid_until" timestamp = .ok f.validUntil
  expiresAt : optionalField entries "expires_at" timestamp = .ok f.expiresAt
  legalHoldRef : optionalField entries "legal_hold_ref" string = .ok f.legalHoldRef
  uncertaintyRef : optionalField entries "uncertainty_ref" string = .ok f.uncertaintyRef
  instructionApprovalRef : optionalField entries "instruction_approval_ref" string = .ok f.instructionApprovalRef
  embeddingModelRef : optionalField entries "embedding_model_ref" string = .ok f.embeddingModelRef
  embeddingModelDigest : optionalField entries "embedding_model_digest" digest = .ok f.embeddingModelDigest
  embeddingDimensions : optionalField entries "embedding_dimensions" (integer 1) = .ok f.embeddingDimensions
  embeddingNormalizationProfile :
    optionalField entries "embedding_normalization_profile" string = .ok f.embeddingNormalizationProfile
  embeddingRef : optionalField entries "embedding_ref" string = .ok f.embeddingRef
  embeddingDigest : optionalField entries "embedding_digest" digest = .ok f.embeddingDigest
  priorLifecycleStatus :
    optionalField entries "prior_lifecycle_status" (enum LifecycleStatus.ofValue?) = .ok f.priorLifecycleStatus
  deletionEpoch : optionalField entries "deletion_epoch" (integer 0) = .ok f.deletionEpoch

variable {entries : List (MappingKey × PyValue)} {f : MemoryFields}

theorem reads_of_read (h : MemoryFields.read entries = .ok f) : ReadsItem entries f := by
  unfold MemoryFields.read at h
  obtain ⟨confidence, hconfidence, h⟩ := bind_eq_ok.1 h
  obtain ⟨instructionEligible, hinstructionEligible, h⟩ := bind_eq_ok.1 h
  obtain ⟨representations, hrepresentations, h⟩ := bind_eq_ok.1 h
  obtain ⟨language, hlanguage, h⟩ := bind_eq_ok.1 h
  obtain ⟨memoryItemId, hmemoryItemId, h⟩ := bind_eq_ok.1 h
  obtain ⟨memoryVersion, hmemoryVersion, h⟩ := bind_eq_ok.1 h
  obtain ⟨memoryKind, hmemoryKind, h⟩ := bind_eq_ok.1 h
  obtain ⟨memoryScope, hmemoryScope, h⟩ := bind_eq_ok.1 h
  obtain ⟨ownerPrincipalId, hownerPrincipalId, h⟩ := bind_eq_ok.1 h
  obtain ⟨tenantId, htenantId, h⟩ := bind_eq_ok.1 h
  obtain ⟨organizationId, horganizationId, h⟩ := bind_eq_ok.1 h
  obtain ⟨domainId, hdomainId, h⟩ := bind_eq_ok.1 h
  obtain ⟨compartments, hcompartments, h⟩ := bind_eq_ok.1 h
  obtain ⟨classificationMarkingRef, hclassificationMarkingRef, h⟩ := bind_eq_ok.1 h
  obtain ⟨purpose, hpurpose, h⟩ := bind_eq_ok.1 h
  obtain ⟨contentSchemaRef, hcontentSchemaRef, h⟩ := bind_eq_ok.1 h
  obtain ⟨contentRef, hcontentRef, h⟩ := bind_eq_ok.1 h
  obtain ⟨contentDigest, hcontentDigest, h⟩ := bind_eq_ok.1 h
  obtain ⟨sourceKind, hsourceKind, h⟩ := bind_eq_ok.1 h
  obtain ⟨sourceRef, hsourceRef, h⟩ := bind_eq_ok.1 h
  obtain ⟨sourceDigest, hsourceDigest, h⟩ := bind_eq_ok.1 h
  obtain ⟨evidenceRefs, hevidenceRefs, h⟩ := bind_eq_ok.1 h
  obtain ⟨provenanceRefs, hprovenanceRefs, h⟩ := bind_eq_ok.1 h
  obtain ⟨derivedFromRefs, hderivedFromRefs, h⟩ := bind_eq_ok.1 h
  obtain ⟨consolidatesRefs, hconsolidatesRefs, h⟩ := bind_eq_ok.1 h
  obtain ⟨createdAt, hcreatedAt, h⟩ := bind_eq_ok.1 h
  obtain ⟨validFrom, hvalidFrom, h⟩ := bind_eq_ok.1 h
  obtain ⟨retentionPolicyRef, hretentionPolicyRef, h⟩ := bind_eq_ok.1 h
  obtain ⟨policyBundleDigest, hpolicyBundleDigest, h⟩ := bind_eq_ok.1 h
  obtain ⟨ontologyReleaseDigest, hontologyReleaseDigest, h⟩ := bind_eq_ok.1 h
  obtain ⟨governedContextDigest, hgovernedContextDigest, h⟩ := bind_eq_ok.1 h
  obtain ⟨taintLabels, htaintLabels, h⟩ := bind_eq_ok.1 h
  obtain ⟨representationKinds, hrepresentationKinds, h⟩ := bind_eq_ok.1 h
  obtain ⟨lifecycleStatus, hlifecycleStatus, h⟩ := bind_eq_ok.1 h
  obtain ⟨agentRunId, hagentRunId, h⟩ := bind_eq_ok.1 h
  obtain ⟨teamRunId, hteamRunId, h⟩ := bind_eq_ok.1 h
  obtain ⟨taskId, htaskId, h⟩ := bind_eq_ok.1 h
  obtain ⟨agentId, hagentId, h⟩ := bind_eq_ok.1 h
  obtain ⟨teamId, hteamId, h⟩ := bind_eq_ok.1 h
  obtain ⟨projectId, hprojectId, h⟩ := bind_eq_ok.1 h
  obtain ⟨federationPolicyRef, hfederationPolicyRef, h⟩ := bind_eq_ok.1 h
  obtain ⟨supersedesRef, hsupersedesRef, h⟩ := bind_eq_ok.1 h
  obtain ⟨correctionOfRef, hcorrectionOfRef, h⟩ := bind_eq_ok.1 h
  obtain ⟨validUntil, hvalidUntil, h⟩ := bind_eq_ok.1 h
  obtain ⟨expiresAt, hexpiresAt, h⟩ := bind_eq_ok.1 h
  obtain ⟨legalHoldRef, hlegalHoldRef, h⟩ := bind_eq_ok.1 h
  obtain ⟨uncertaintyRef, huncertaintyRef, h⟩ := bind_eq_ok.1 h
  obtain ⟨instructionApprovalRef, hinstructionApprovalRef, h⟩ := bind_eq_ok.1 h
  obtain ⟨embeddingModelRef, hembeddingModelRef, h⟩ := bind_eq_ok.1 h
  obtain ⟨embeddingModelDigest, hembeddingModelDigest, h⟩ := bind_eq_ok.1 h
  obtain ⟨embeddingDimensions, hembeddingDimensions, h⟩ := bind_eq_ok.1 h
  obtain ⟨embeddingNormalizationProfile, hembeddingNormalizationProfile, h⟩ := bind_eq_ok.1 h
  obtain ⟨embeddingRef, hembeddingRef, h⟩ := bind_eq_ok.1 h
  obtain ⟨embeddingDigest, hembeddingDigest, h⟩ := bind_eq_ok.1 h
  obtain ⟨priorLifecycleStatus, hpriorLifecycleStatus, h⟩ := bind_eq_ok.1 h
  obtain ⟨deletionEpoch, hdeletionEpoch, h⟩ := bind_eq_ok.1 h
  cases h
  exact ⟨hmemoryItemId, hmemoryVersion, hmemoryKind, hmemoryScope, hownerPrincipalId, htenantId, horganizationId,
    hdomainId, hcompartments, hclassificationMarkingRef, hpurpose, hcontentSchemaRef, hcontentRef, hcontentDigest,
    hsourceKind, hsourceRef, hsourceDigest, hevidenceRefs, hprovenanceRefs, hderivedFromRefs, hconsolidatesRefs,
    hcreatedAt, hvalidFrom, hretentionPolicyRef, hconfidence, hpolicyBundleDigest, hontologyReleaseDigest,
    hgovernedContextDigest, hinstructionEligible, htaintLabels, ⟨representations, hrepresentations,
    hrepresentationKinds⟩, hlifecycleStatus, hagentRunId, hteamRunId, htaskId, hagentId, hteamId, hprojectId,
    hfederationPolicyRef, hlanguage, hsupersedesRef, hcorrectionOfRef, hvalidUntil, hexpiresAt, hlegalHoldRef,
    huncertaintyRef, hinstructionApprovalRef, hembeddingModelRef, hembeddingModelDigest, hembeddingDimensions,
    hembeddingNormalizationProfile, hembeddingRef, hembeddingDigest, hpriorLifecycleStatus, hdeletionEpoch⟩

theorem read_of_reads (h : ReadsItem entries f) : MemoryFields.read entries = .ok f := by
  obtain ⟨representations, hrepresentations, hkinds⟩ := h.representationKinds
  unfold MemoryFields.read
  refine bind_eq_ok.2 ⟨_, h.confidence, ?_⟩
  refine bind_eq_ok.2 ⟨_, h.instructionEligible, ?_⟩
  refine bind_eq_ok.2 ⟨_, hrepresentations, ?_⟩
  refine bind_eq_ok.2 ⟨_, h.language, ?_⟩
  rw [h.memoryItemId, h.memoryVersion, h.memoryKind, h.memoryScope, h.ownerPrincipalId, h.tenantId, h.organizationId,
    h.domainId, h.compartments, h.classificationMarkingRef, h.purpose, h.contentSchemaRef, h.contentRef,
    h.contentDigest, h.sourceKind, h.sourceRef, h.sourceDigest, h.evidenceRefs, h.provenanceRefs, h.derivedFromRefs,
    h.consolidatesRefs, h.createdAt, h.validFrom, h.retentionPolicyRef, h.policyBundleDigest, h.ontologyReleaseDigest,
    h.governedContextDigest, h.taintLabels, hkinds, h.lifecycleStatus, h.agentRunId, h.teamRunId, h.taskId, h.agentId,
    h.teamId, h.projectId, h.federationPolicyRef, h.supersedesRef, h.correctionOfRef, h.validUntil, h.expiresAt,
    h.legalHoldRef, h.uncertaintyRef, h.instructionApprovalRef, h.embeddingModelRef, h.embeddingModelDigest,
    h.embeddingDimensions, h.embeddingNormalizationProfile, h.embeddingRef, h.embeddingDigest, h.priorLifecycleStatus,
    h.deletionEpoch]
  rfl

/-! ## What is written -/

theorem memoryItemFields_nodup : memoryItemFields.Nodup := by decide

theorem keys_fields (columns : List (String × Option PyValue)) :
    ((columns.filterMap fun column => column.2.map fun value => (MappingKey.str (py column.1), value)).map
      Prod.fst).Sublist (columns.map fun column => MappingKey.str (py column.1)) := by
  induction columns with
  | nil => exact List.Sublist.slnil
  | cons column columns ih =>
    obtain ⟨label, cell⟩ := column
    cases cell with
    | none => exact ih.cons _
    | some v => exact ih.cons_cons _

theorem member_fields {columns : List (String × Option PyValue)}
    (hnd : (columns.map fun column => MappingKey.str (py column.1)).Nodup) {k : ℕ} {name : String}
    {cell : Option PyValue} (h : columns[k]? = some (name, cell)) :
    member (columns.filterMap fun column => column.2.map fun value => (.str (py column.1), value)) name = cell := by
  have hmem := List.mem_of_getElem? h
  cases cell with
  | some v =>
    refine (Dict.find_eq_some_iff ((keys_fields columns).nodup hnd) _ _).mpr ?_
    exact List.mem_filterMap.mpr ⟨_, hmem, rfl⟩
  | none =>
    cases hfind : member (columns.filterMap fun column => column.2.map fun value => (.str (py column.1), value)) name with
    | none => rfl
    | some v =>
      obtain ⟨column, hcolumn, hv⟩ := List.mem_filterMap.mp (Dict.mem_of_find hfind)
      obtain ⟨value, hvalue, hpair⟩ := Option.map_eq_some_iff.mp hv
      have hsame := List.inj_on_of_nodup_map hnd hcolumn hmem (Prod.mk.inj hpair).1
      rw [hsame] at hvalue
      cases hvalue

/-- The members of what is written: each cell in its place, and none missing of those that are always there. -/
theorem members_of_fields {value : PyValue} {columns : List (String × Option PyValue)} (hvalue : value = fields columns)
    (hnames : (columns.map fun column => MappingKey.str (py column.1)) = memoryItemFields)
    (hrequired : ((columns.take requiredFields.length).all fun column => column.2.isSome) = true) :
    ∃ written, value = .mapping written ∧ (∀ key ∈ written.map Prod.fst, key ∈ memoryItemFields) ∧
      (∀ name ∈ requiredFields, MappingKey.str (py name) ∈ written.map Prod.fst) ∧
      ∀ (k : ℕ) (name : String) (cell : Option PyValue), columns[k]? = some (name, cell) → member written name = cell := by
  refine ⟨_, hvalue, fun key hkey => ?_, fun name hname => ?_, fun k name cell hk => member_fields ?_ hk⟩
  · rw [← hnames]
    exact (keys_fields columns).subset hkey
  · have htake : ((columns.take requiredFields.length).map fun column => MappingKey.str (py column.1)) =
        requiredFields.map fun name => MappingKey.str (py name) := by
      rw [List.map_take, hnames, memoryItemFields, List.map_append]
      exact List.take_left' (List.length_map _)
    have hkey : MappingKey.str (py name) ∈ requiredFields.map fun name => MappingKey.str (py name) :=
      List.mem_map_of_mem hname
    rw [← htake] at hkey
    obtain ⟨column, hcolumn, hlabel⟩ := List.mem_map.mp hkey
    obtain ⟨cell, hcell⟩ := Option.isSome_iff_exists.mp (List.all_eq_true.mp hrequired column hcolumn)
    refine List.mem_map.mpr ⟨(.str (py column.1), cell), ?_, hlabel⟩
    exact List.mem_filterMap.mpr ⟨column, List.mem_of_mem_take hcolumn, by rw [hcell]; rfl⟩
  · rw [hnames]
    exact memoryItemFields_nodup

/-! ## Timestamps of a record -/

theorem requiredField_timestamp {written : List (MappingKey × PyValue)} {name : String} {instant : Instant}
    (h : requiredField entries name timestamp = .ok instant)
    (hwritten : member written name = some (.str (formatUtcTimestamp instant))) :
    requiredField written name timestamp = .ok instant ↔
      ∀ text, member entries name = some (.str text) → 1000 ≤ digitsValue (text.take 4) := by
  obtain ⟨raw, hraw, hread⟩ := requiredField_eq_ok.1 h
  obtain ⟨text, rfl, -⟩ := timestamp_eq_ok.1 hread
  have hagain := timestamp_again hread
  rw [requiredField_eq_ok, hwritten, hraw]
  constructor
  · rintro ⟨_, hsome, hparse⟩ text' htext
    cases hsome
    cases htext
    exact hagain.mp hparse
  · intro hyear
    exact ⟨_, rfl, hagain.mpr (hyear text rfl)⟩

theorem optionalField_timestamp {written : List (MappingKey × PyValue)} {name : String} {instant : Option Instant}
    (h : optionalField entries name timestamp = .ok instant)
    (hwritten : member written name = instant.map fun t => .str (formatUtcTimestamp t)) :
    optionalField written name timestamp = .ok instant ↔
      ∀ text, member entries name = some (.str text) → 1000 ≤ digitsValue (text.take 4) := by
  rcases optionalField_eq_ok.1 h with ⟨hraw, rfl⟩ | ⟨raw, t, hraw, hread, rfl⟩
  · have habsent : optionalField written name timestamp = .ok none := optionalField_eq_ok.2 (.inl ⟨hwritten, rfl⟩)
    rw [hraw]
    constructor
    · intro _ text htext
      cases htext
    · intro _
      exact habsent
  · have hpresent : requiredField entries name timestamp = .ok t := requiredField_eq_ok.2 ⟨raw, hraw, hread⟩
    rw [← requiredField_timestamp hpresent hwritten, optionalField_eq_ok, requiredField_eq_ok, hwritten]
    constructor
    · rintro (⟨hnone, -⟩ | ⟨raw', t', hraw', hread', hsame⟩)
      · cases hnone
      · cases hsame
        exact ⟨raw', hraw', hread'⟩
    · rintro ⟨raw', hraw', hread'⟩
      exact .inr ⟨raw', t, hraw', hread', rfl⟩

/-- The members of a record that are timestamps. -/
def timestampFields : List String := ["created_at", "valid_from", "valid_until", "expires_at"]

/-- The timestamps of the record are of the year 1000 or a later one. -/
def YearsWritten (entries : List (MappingKey × PyValue)) : Prop :=
  ∀ name ∈ timestampFields, ∀ text, member entries name = some (.str text) → 1000 ≤ digitsValue (text.take 4)

/-- Whether a member is no text, or a text that begins with 1000 or more. -/
def yearWritten : Option PyValue → Bool
  | some (.str text) => 1000 ≤ digitsValue (text.take 4)
  | _ => true

theorem yearWritten_iff {raw : Option PyValue} :
    yearWritten raw = true ↔ ∀ text, raw = some (.str text) → 1000 ≤ digitsValue (text.take 4) := by
  unfold yearWritten
  split
  · simp
  · next hother => exact ⟨fun _ text htext => absurd htext (hother text), fun _ => rfl⟩

instance (entries : List (MappingKey × PyValue)) : Decidable (YearsWritten entries) :=
  decidable_of_iff (∀ name ∈ timestampFields, yearWritten (member entries name) = true)
    (forall_congr' fun _ => forall_congr' fun _ => yearWritten_iff)

theorem kinds_written {representations : List PyStr} {kinds : List RepresentationKind} {name : String}
    (h : (representations.mapM fun kind => enum RepresentationKind.ofValue? name (.str kind)) = .ok kinds) :
    (kinds.map fun kind => py kind.value) = representations := by
  have hvalued : Valued RepresentationKind.ofValue? RepresentationKind.value := valued_find
  rw [forall₂_of_mapM] at h
  induction h with
  | nil => rfl
  | cons hkind _ ih => rw [List.map_cons, ih, hvalued _ _ (orRaise_eq_ok.1 hkind)]

/-- What is written for an item is read as the item, exactly if the years of its timestamps are. -/
theorem reads_toMapping {item : GovernedMemoryItem} (h : ReadsItem entries item.toMemoryFields) :
    ∃ written, item.toMapping = .mapping written ∧ (∀ key ∈ written.map Prod.fst, key ∈ memoryItemFields) ∧
      (∀ name ∈ requiredFields, MappingKey.str (py name) ∈ written.map Prod.fst) ∧
      (ReadsItem written item.toMemoryFields ↔ YearsWritten entries) := by
  obtain ⟨written, hwritten, hdeclared, hrequired, hcell⟩ :=
    members_of_fields (show item.toMapping = fields _ from rfl) rfl rfl
  obtain ⟨representations, hrepresentations, hkinds⟩ := h.representationKinds
  have hvalidUntil : member written "valid_until" = item.validUntil.map fun t => .str (formatUtcTimestamp t) := by
    rw [hcell 42 _ _ rfl]
    cases item.validUntil <;> rfl
  have hexpiresAt : member written "expires_at" = item.expiresAt.map fun t => .str (formatUtcTimestamp t) := by
    rw [hcell 43 _ _ rfl]
    cases item.expiresAt <;> rfl
  have hembeddingDimensions : member written "embedding_dimensions" = item.embeddingDimensions.map fun n => .int n := by
    rw [hcell 49 _ _ rfl]
    cases item.embeddingDimensions <;> rfl
  have hdeletionEpoch : member written "deletion_epoch" = item.deletionEpoch.map fun n => .int n := by
    rw [hcell 54 _ _ rfl]
    cases item.deletionEpoch <;> rfl
  have hrepresentationKinds : member written "representation_kinds" = some (strings representations) := by
    rw [hcell 30 _ _ rfl, kinds_written hkinds]
  refine ⟨written, hwritten, hdeclared, hrequired, ?_, fun hyears => ?_⟩
  · intro hagain name hname
    simp only [timestampFields, List.mem_cons, List.not_mem_nil, or_false] at hname
    rcases hname with rfl | rfl | rfl | rfl
    · exact (requiredField_timestamp h.createdAt (hcell 21 _ _ rfl)).mp hagain.createdAt
    · exact (requiredField_timestamp h.validFrom (hcell 22 _ _ rfl)).mp hagain.validFrom
    · exact (optionalField_timestamp h.validUntil hvalidUntil).mp hagain.validUntil
    · exact (optionalField_timestamp h.expiresAt hexpiresAt).mp hagain.expiresAt
  · constructor
    case memoryItemId => exact requiredField_again string_rereads h.memoryItemId (hcell 0 _ _ rfl)
    case memoryVersion => exact requiredField_again integer_rereads h.memoryVersion (hcell 1 _ _ rfl)
    case memoryKind => exact requiredField_again (enum_rereads valued_find) h.memoryKind (hcell 2 _ _ rfl)
    case memoryScope => exact requiredField_again (enum_rereads valued_find) h.memoryScope (hcell 3 _ _ rfl)
    case ownerPrincipalId => exact requiredField_again string_rereads h.ownerPrincipalId (hcell 4 _ _ rfl)
    case tenantId => exact requiredField_again string_rereads h.tenantId (hcell 5 _ _ rfl)
    case organizationId => exact requiredField_again string_rereads h.organizationId (hcell 6 _ _ rfl)
    case domainId => exact requiredField_again string_rereads h.domainId (hcell 7 _ _ rfl)
    case compartments => exact requiredField_again stringSet_rereads h.compartments (hcell 8 _ _ rfl)
    case classificationMarkingRef => exact requiredField_again digest_rereads h.classificationMarkingRef (hcell 9 _ _ rfl)
    case purpose => exact requiredField_again string_rereads h.purpose (hcell 10 _ _ rfl)
    case contentSchemaRef => exact requiredField_again string_rereads h.contentSchemaRef (hcell 11 _ _ rfl)
    case contentRef => exact requiredField_again string_rereads h.contentRef (hcell 12 _ _ rfl)
    case contentDigest => exact requiredField_again digest_rereads h.contentDigest (hcell 13 _ _ rfl)
    case sourceKind => exact requiredField_again (enum_rereads valued_find) h.sourceKind (hcell 14 _ _ rfl)
    case sourceRef => exact requiredField_again string_rereads h.sourceRef (hcell 15 _ _ rfl)
    case sourceDigest => exact requiredField_again digest_rereads h.sourceDigest (hcell 16 _ _ rfl)
    case evidenceRefs => exact requiredField_again stringSet_rereads h.evidenceRefs (hcell 17 _ _ rfl)
    case provenanceRefs => exact requiredField_again stringSet_rereads h.provenanceRefs (hcell 18 _ _ rfl)
    case derivedFromRefs => exact requiredField_again stringSet_rereads h.derivedFromRefs (hcell 19 _ _ rfl)
    case consolidatesRefs => exact requiredField_again stringSet_rereads h.consolidatesRefs (hcell 20 _ _ rfl)
    case createdAt =>
      exact (requiredField_timestamp h.createdAt (hcell 21 _ _ rfl)).mpr fun text => hyears "created_at" (by decide) text
    case validFrom =>
      exact (requiredField_timestamp h.validFrom (hcell 22 _ _ rfl)).mpr fun text => hyears "valid_from" (by decide) text
    case retentionPolicyRef => exact requiredField_again string_rereads h.retentionPolicyRef (hcell 23 _ _ rfl)
    case confidence => exact requiredField_again unitNumber_rereads h.confidence (hcell 24 _ _ rfl)
    case policyBundleDigest => exact requiredField_again digest_rereads h.policyBundleDigest (hcell 25 _ _ rfl)
    case ontologyReleaseDigest => exact requiredField_again digest_rereads h.ontologyReleaseDigest (hcell 26 _ _ rfl)
    case governedContextDigest => exact requiredField_again digest_rereads h.governedContextDigest (hcell 27 _ _ rfl)
    case instructionEligible => exact requiredField_again boolean_rereads h.instructionEligible (hcell 28 _ _ rfl)
    case taintLabels => exact requiredField_again stringSet_rereads h.taintLabels (hcell 29 _ _ rfl)
    case representationKinds =>
      exact ⟨representations, requiredField_again stringSet_rereads hrepresentations hrepresentationKinds, hkinds⟩
    case lifecycleStatus => exact requiredField_again (enum_rereads valued_find) h.lifecycleStatus (hcell 31 _ _ rfl)
    case agentRunId => exact optionalField_again string_rereads h.agentRunId (hcell 32 _ _ rfl)
    case teamRunId => exact optionalField_again string_rereads h.teamRunId (hcell 33 _ _ rfl)
    case taskId => exact optionalField_again string_rereads h.taskId (hcell 34 _ _ rfl)
    case agentId => exact optionalField_again string_rereads h.agentId (hcell 35 _ _ rfl)
    case teamId => exact optionalField_again string_rereads h.teamId (hcell 36 _ _ rfl)
    case projectId => exact optionalField_again string_rereads h.projectId (hcell 37 _ _ rfl)
    case federationPolicyRef => exact optionalField_again string_rereads h.federationPolicyRef (hcell 38 _ _ rfl)
    case language => exact optionalField_again languageTag_rereads h.language (hcell 39 _ _ rfl)
    case supersedesRef => exact optionalField_again string_rereads h.supersedesRef (hcell 40 _ _ rfl)
    case correctionOfRef => exact optionalField_again string_rereads h.correctionOfRef (hcell 41 _ _ rfl)
    case validUntil =>
      exact (optionalField_timestamp h.validUntil hvalidUntil).mpr fun text => hyears "valid_until" (by decide) text
    case expiresAt =>
      exact (optionalField_timestamp h.expiresAt hexpiresAt).mpr fun text => hyears "expires_at" (by decide) text
    case legalHoldRef => exact optionalField_again string_rereads h.legalHoldRef (hcell 44 _ _ rfl)
    case uncertaintyRef => exact optionalField_again string_rereads h.uncertaintyRef (hcell 45 _ _ rfl)
    case instructionApprovalRef => exact optionalField_again string_rereads h.instructionApprovalRef (hcell 46 _ _ rfl)
    case embeddingModelRef => exact optionalField_again string_rereads h.embeddingModelRef (hcell 47 _ _ rfl)
    case embeddingModelDigest => exact optionalField_again digest_rereads h.embeddingModelDigest (hcell 48 _ _ rfl)
    case embeddingDimensions => exact optionalField_again integer_rereads h.embeddingDimensions hembeddingDimensions
    case embeddingNormalizationProfile =>
      exact optionalField_again string_rereads h.embeddingNormalizationProfile (hcell 50 _ _ rfl)
    case embeddingRef => exact optionalField_again string_rereads h.embeddingRef (hcell 51 _ _ rfl)
    case embeddingDigest => exact optionalField_again digest_rereads h.embeddingDigest (hcell 52 _ _ rfl)
    case priorLifecycleStatus => exact optionalField_again (enum_rereads valued_find) h.priorLifecycleStatus (hcell 53 _ _ rfl)
    case deletionEpoch => exact optionalField_again integer_rereads h.deletionEpoch hdeletionEpoch

/-! ## Items -/

theorem validated_eq_ok {item : GovernedMemoryItem} : f.validated = .ok item ↔ f = item.toMemoryFields := by
  unfold MemoryFields.validated
  constructor
  · intro h
    split at h
    · cases h
      rfl
    · cases h
  · rintro rfl
    split
    · rfl
    · next e herror =>
      rw [item.valid] at herror
      cases herror

/-- A mapping is read as an item if it declares no other member, lacks no required one, and each is read. -/
theorem fromMapping_eq_ok {value : PyValue} {item : GovernedMemoryItem} :
    GovernedMemoryItem.fromMapping value = .ok item ↔
      ∃ entries, value = .mapping entries ∧ (∀ key ∈ entries.map Prod.fst, key ∈ memoryItemFields) ∧
        (∀ name ∈ requiredFields, MappingKey.str (py name) ∈ entries.map Prod.fst) ∧
        ReadsItem entries item.toMemoryFields := by
  have hadditional (entries : List (MappingKey × PyValue)) :
      ¬ (((entries.map Prod.fst).filter fun key => key ∉ memoryItemFields).map keyText ≠ []) ↔
        ∀ key ∈ entries.map Prod.fst, key ∈ memoryItemFields := by
    rw [not_not, List.map_eq_nil_iff, List.filter_eq_nil_iff]
    simp only [decide_eq_true_eq, not_not]
  have hmissing (entries : List (MappingKey × PyValue)) :
      ¬ (((requiredFields.map py).filter fun name => MappingKey.str name ∉ entries.map Prod.fst) ≠ []) ↔
        ∀ name ∈ requiredFields, MappingKey.str (py name) ∈ entries.map Prod.fst := by
    rw [not_not, List.filter_eq_nil_iff, List.forall_mem_map]
    simp only [decide_eq_true_eq, not_not]
  constructor
  · intro h
    unfold GovernedMemoryItem.fromMapping at h
    split at h
    · next entries =>
      dsimp only at h
      obtain ⟨hdeclared, h⟩ := check_bind_eq_ok.1 h
      obtain ⟨hpresent, h⟩ := check_bind_eq_ok.1 h
      obtain ⟨f, hread, hvalid⟩ := bind_eq_ok.1 h
      cases validated_eq_ok.1 hvalid
      refine ⟨entries, rfl, ?_, ?_, reads_of_read hread⟩
      · exact (hadditional entries).mp (refuseIf_eq_ok.1 hdeclared)
      · exact (hmissing entries).mp (refuseIf_eq_ok.1 hpresent)
    · cases h
  · rintro ⟨entries, rfl, hdeclared, hpresent, hreads⟩
    unfold GovernedMemoryItem.fromMapping
    dsimp only
    refine check_bind_eq_ok.2 ⟨refuseIf_eq_ok.2 ((hadditional entries).mpr hdeclared), ?_⟩
    refine check_bind_eq_ok.2 ⟨refuseIf_eq_ok.2 ((hmissing entries).mpr hpresent), ?_⟩
    exact bind_eq_ok.2 ⟨_, read_of_reads hreads, validated_eq_ok.2 rfl⟩

theorem fromMapping_toMapping {item : GovernedMemoryItem} (h : GovernedMemoryItem.fromMapping (.mapping entries) = .ok item) :
    GovernedMemoryItem.fromMapping item.toMapping = .ok item ↔ YearsWritten entries := by
  obtain ⟨_, hvalue, -, -, hreads⟩ := fromMapping_eq_ok.1 h
  cases hvalue
  obtain ⟨written, hwritten, hdeclared, hrequired, hagain⟩ := reads_toMapping hreads
  rw [← hagain, fromMapping_eq_ok]
  constructor
  · rintro ⟨_, hvalue, -, -, hreads'⟩
    cases hwritten.symm.trans hvalue
    exact hreads'
  · intro hreads'
    exact ⟨written, hwritten, hdeclared, hrequired, hreads'⟩

/-- The members of a summary, created at the given time, its sets in no order. -/
def summaryEntries (createdAt : String) : List (MappingKey × PyValue) :=
  let text (name value : String) : MappingKey × PyValue := (.str (py name), .str (py value))
  let array (name : String) (values : List String) : MappingKey × PyValue := (.str (py name), strings (values.map py))
  let urn := "urn:sha256:00112233445566778899aabbccddeeff00112233445566778899aabbccddeeff"
  [text "memory_item_id" "mem-1", (.str (py "memory_version"), .int 1), text "memory_kind" "SEMANTIC",
    text "memory_scope" "DOMAIN", text "owner_principal_id" "owner", text "tenant_id" "tenant",
    text "organization_id" "org", text "domain_id" "domain", array "compartments" ["beta", "alpha"],
    text "classification_marking_ref" urn, text "purpose" "analysis",
    text "content_schema_ref" "urn:ocor:memory-content:summary:1.0", text "content_ref" "content-1",
    text "content_digest" urn, text "source_kind" "DERIVED_SUMMARY", text "source_ref" "source-1",
    text "source_digest" urn, array "evidence_refs" ["e2", "e1"], array "provenance_refs" ["p1"],
    array "derived_from_refs" [], array "consolidates_refs" [], text "created_at" createdAt,
    text "valid_from" "2024-02-29T23:59:59.120Z", text "retention_policy_ref" "retention-1",
    (.str (py "confidence"), .int 1), text "policy_bundle_digest" urn, text "ontology_release_digest" urn,
    text "governed_context_digest" urn, (.str (py "instruction_eligible"), .bool false),
    array "taint_labels" ["DERIVED"], array "representation_kinds" ["STRUCTURED", "FULL_TEXT"],
    text "lifecycle_status" "ACTIVE", text "language" "en-GB"]

theorem summary_accepted (createdAt : String)
    (h : (GovernedMemoryItem.fromMapping (.mapping (summaryEntries createdAt))).isOk = true) :
    ∃ item, GovernedMemoryItem.fromMapping (.mapping (summaryEntries createdAt)) = .ok item := by
  cases hread : GovernedMemoryItem.fromMapping (.mapping (summaryEntries createdAt)) with
  | error e =>
    rw [hread] at h
    cases h
  | ok item => exact ⟨item, rfl⟩

theorem summaries_read :
    ((GovernedMemoryItem.fromMapping (.mapping (summaryEntries "1000-01-01T00:00:00.5Z"))).isOk = true ∧
        YearsWritten (summaryEntries "1000-01-01T00:00:00.5Z")) ∧
      (GovernedMemoryItem.fromMapping (.mapping (summaryEntries "0999-12-31T23:59:59Z"))).isOk = true ∧
        ¬ YearsWritten (summaryEntries "0999-12-31T23:59:59Z") := by
  decide +kernel

theorem summary_of_1000 : ∃ item,
    GovernedMemoryItem.fromMapping (.mapping (summaryEntries "1000-01-01T00:00:00.5Z")) = .ok item :=
  summary_accepted _ summaries_read.1.1

end OcorRuntime.Memory

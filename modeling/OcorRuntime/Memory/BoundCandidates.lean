import OcorRuntime.Foundations.PagedScan
import OcorRuntime.Memory.ItemRoundTrip
import OcorRuntime.Memory.StoreCoordinator

/-! Candidates of an index answer (`memory/stores.py`): only the pointers of committed
versions occupy places, and a scan that reads too many hits fails closed. -/
namespace OcorRuntime.Memory
open Canonical Kernel
set_option autoImplicit false
set_option maxHeartbeats 250000

/-! ## Pointers read from the payload of an entry -/

def pointerTexts : List String :=
  ["memory_version_ref", "item_digest", "content_digest", "representation_kind", "representation_version",
    "representation_digest", "partition_digest", "classification_marking_ref", "policy_bundle_digest", "memory_scope"]

/-- `POINTER_FIELDS`. -/
def pointerFields : List MappingKey := (pointerTexts ++ ["deletion_epoch"]).map fun name => .str (py name)

def pointerInvalid (message : String) (args : List ErrorArg := []) : PyError :=
  memoryError .store "INTERNAL_ERROR" "POINTER_INVALID" message args

def pointerText (entries : List (MappingKey × PyValue)) (name : String) : Except PyError PyStr :=
  match member entries name with
  | some (.str (c :: text)) => .ok (c :: text)
  | _ => .error (pointerInvalid "pointer %s is invalid" [.text (py name)])

def pointerEpoch (entries : List (MappingKey × PyValue)) : Except PyError ℕ :=
  match member entries "deletion_epoch" with
  | some (.int (.ofNat n)) => .ok n
  | _ => .error (pointerInvalid "pointer deletion_epoch is invalid")

def pointerDigest (name : String) (text : PyStr) : Except PyError Unit :=
  refuseIf (¬ IsDigest text) (pointerInvalid "pointer %s is not a digest" [.text (py name)])

namespace RepresentationPointer

/-- `from_mapping`; the texts are checked in no order, which shows in the text of the error only. -/
def fromMapping (value : PyValue) : Except PyError RepresentationPointer :=
  match value with
  | .mapping entries => do
    let present := entries.map Prod.fst
    refuseIf (¬ ((∀ key ∈ present, key ∈ pointerFields) ∧ ∀ key ∈ pointerFields, key ∈ present))
      (pointerInvalid "pointer is not a closed record")
    let deletionEpoch ← pointerEpoch entries
    let memoryVersionRef ← pointerText entries "memory_version_ref"
    let itemDigest ← pointerText entries "item_digest"
    let contentDigest ← pointerText entries "content_digest"
    let kind ← pointerText entries "representation_kind"
    let representationVersion ← pointerText entries "representation_version"
    let representationDigest ← pointerText entries "representation_digest"
    let partitionDigest ← pointerText entries "partition_digest"
    let classificationMarkingRef ← pointerText entries "classification_marking_ref"
    let policyBundleDigest ← pointerText entries "policy_bundle_digest"
    let scope ← pointerText entries "memory_scope"
    pointerDigest "item_digest" itemDigest
    pointerDigest "content_digest" contentDigest
    pointerDigest "representation_version" representationVersion
    pointerDigest "representation_digest" representationDigest
    pointerDigest "partition_digest" partitionDigest
    pointerDigest "classification_marking_ref" classificationMarkingRef
    pointerDigest "policy_bundle_digest" policyBundleDigest
    let representationKind ← orRaise (RepresentationKind.ofValue? kind) (pointerInvalid "pointer enum is invalid")
    let memoryScope ← orRaise (MemoryScope.ofValue? scope) (pointerInvalid "pointer enum is invalid")
    return {
      memoryVersionRef, itemDigest, contentDigest, representationKind, representationVersion, representationDigest,
      partitionDigest, classificationMarkingRef, policyBundleDigest, memoryScope, deletionEpoch }
  | _ => .error (pointerInvalid "pointer is not a closed record")

/-- What `fromMapping` asks of the texts of a pointer. -/
structure WellFormed (p : RepresentationPointer) : Prop where
  memoryVersionRef : p.memoryVersionRef ≠ []
  itemDigest : IsDigest p.itemDigest
  contentDigest : IsDigest p.contentDigest
  representationVersion : IsDigest p.representationVersion
  representationDigest : IsDigest p.representationDigest
  partitionDigest : IsDigest p.partitionDigest
  classificationMarkingRef : IsDigest p.classificationMarkingRef
  policyBundleDigest : IsDigest p.policyBundleDigest

/-- The entries of what is stored for a pointer. -/
def entries (p : RepresentationPointer) : List (MappingKey × PyValue) :=
  [(.str (py "memory_version_ref"), .str p.memoryVersionRef), (.str (py "item_digest"), .str p.itemDigest),
    (.str (py "content_digest"), .str p.contentDigest),
    (.str (py "representation_kind"), .str (py p.representationKind.value)),
    (.str (py "representation_version"), .str p.representationVersion),
    (.str (py "representation_digest"), .str p.representationDigest),
    (.str (py "partition_digest"), .str p.partitionDigest),
    (.str (py "classification_marking_ref"), .str p.classificationMarkingRef),
    (.str (py "policy_bundle_digest"), .str p.policyBundleDigest),
    (.str (py "memory_scope"), .str (py p.memoryScope.value)), (.str (py "deletion_epoch"), .int p.deletionEpoch)]

theorem toMapping_eq (p : RepresentationPointer) : p.toMapping = .mapping p.entries := rfl

theorem entries_keys (p : RepresentationPointer) : p.entries.map Prod.fst = pointerFields := rfl

theorem pointerFields_nodup : pointerFields.Nodup := by decide

theorem member_entries {p : RepresentationPointer} {name : String} {value : PyValue}
    (h : (MappingKey.str (py name), value) ∈ p.entries) : member p.entries name = some value := by
  refine (Dict.find_eq_some_iff ?_ _ _).mpr h
  rw [entries_keys]
  exact pointerFields_nodup

theorem pointerText_entries {p : RepresentationPointer} {name : String} {text : PyStr} (hne : text ≠ [])
    (h : (MappingKey.str (py name), PyValue.str text) ∈ p.entries) : pointerText p.entries name = .ok text := by
  obtain ⟨c, rest, rfl⟩ := List.exists_cons_of_ne_nil hne
  rw [pointerText, member_entries h]

theorem pointerDigest_eq_ok {name : String} {text : PyStr} (h : IsDigest text) : pointerDigest name text = .ok () :=
  refuseIf_eq_ok.2 (not_not.mpr h)

theorem fromMapping_toMapping {p : RepresentationPointer} (h : p.WellFormed) : fromMapping p.toMapping = .ok p := by
  have hkind : RepresentationKind.ofValue? (py p.representationKind.value) = some p.representationKind := by
    cases p.representationKind <;> decide
  have hscope : MemoryScope.ofValue? (py p.memoryScope.value) = some p.memoryScope := by
    cases p.memoryScope <;> decide
  have hkindText : py p.representationKind.value ≠ [] := by cases p.representationKind <;> decide
  have hscopeText : py p.memoryScope.value ≠ [] := by cases p.memoryScope <;> decide
  have hepoch : pointerEpoch p.entries = .ok p.deletionEpoch := by
    have hmember : member p.entries "deletion_epoch" = some (.int p.deletionEpoch) :=
      member_entries (by simp [entries])
    rw [pointerEpoch, hmember]
  rw [toMapping_eq]
  unfold fromMapping
  refine check_bind_eq_ok.2 ⟨refuseIf_eq_ok.2 (not_not.mpr ?_), ?_⟩
  · rw [entries_keys]
    exact ⟨fun key hkey => hkey, fun key hkey => hkey⟩
  refine bind_eq_ok.2 ⟨_, hepoch, ?_⟩
  refine bind_eq_ok.2 ⟨_, pointerText_entries h.memoryVersionRef (by simp [entries]), ?_⟩
  refine bind_eq_ok.2 ⟨_, pointerText_entries (isDigest_text h.itemDigest).1 (by simp [entries]), ?_⟩
  refine bind_eq_ok.2 ⟨_, pointerText_entries (isDigest_text h.contentDigest).1 (by simp [entries]), ?_⟩
  refine bind_eq_ok.2 ⟨_, pointerText_entries hkindText (by simp [entries]), ?_⟩
  refine bind_eq_ok.2 ⟨_, pointerText_entries (isDigest_text h.representationVersion).1 (by simp [entries]), ?_⟩
  refine bind_eq_ok.2 ⟨_, pointerText_entries (isDigest_text h.representationDigest).1 (by simp [entries]), ?_⟩
  refine bind_eq_ok.2 ⟨_, pointerText_entries (isDigest_text h.partitionDigest).1 (by simp [entries]), ?_⟩
  refine bind_eq_ok.2 ⟨_, pointerText_entries (isDigest_text h.classificationMarkingRef).1 (by simp [entries]), ?_⟩
  refine bind_eq_ok.2 ⟨_, pointerText_entries (isDigest_text h.policyBundleDigest).1 (by simp [entries]), ?_⟩
  refine bind_eq_ok.2 ⟨_, pointerText_entries hscopeText (by simp [entries]), ?_⟩
  refine check_bind_eq_ok.2 ⟨pointerDigest_eq_ok h.itemDigest, ?_⟩
  refine check_bind_eq_ok.2 ⟨pointerDigest_eq_ok h.contentDigest, ?_⟩
  refine check_bind_eq_ok.2 ⟨pointerDigest_eq_ok h.representationVersion, ?_⟩
  refine check_bind_eq_ok.2 ⟨pointerDigest_eq_ok h.representationDigest, ?_⟩
  refine check_bind_eq_ok.2 ⟨pointerDigest_eq_ok h.partitionDigest, ?_⟩
  refine check_bind_eq_ok.2 ⟨pointerDigest_eq_ok h.classificationMarkingRef, ?_⟩
  refine check_bind_eq_ok.2 ⟨pointerDigest_eq_ok h.policyBundleDigest, ?_⟩
  refine bind_eq_ok.2 ⟨_, orRaise_eq_ok.2 hkind, ?_⟩
  exact bind_eq_ok.2 ⟨_, orRaise_eq_ok.2 hscope, rfl⟩

end RepresentationPointer

/-! ## Index answers -/

structure IndexHit where
  storeRef : PyStr
  payload : List (MappingKey × PyValue)
  score : Binary64

/-- A candidate whose index entry is a committed pointer. -/
structure BoundHit where
  memoryVersionRef : PyStr
  itemDigest : PyStr
  contentDigest : PyStr
  storeRef : PyStr
  representationKind : PyStr
  representationVersion : PyStr
  classificationMarkingRef : PyStr
  score : Binary64

/-- The limits of a scan. -/
structure StoreLimits where
  pageSize : ℕ := 16
  maxScannedHits : ℕ := 256

/-- What one index is asked for. -/
structure IndexSlot where
  partition : MemoryPartition
  kind : RepresentationKind
  representationVersion : PyStr

variable (limits : StoreLimits) (metadata : MetadataStore) (slot : IndexSlot)

/-- `_bound_pointer`. -/
def boundPointer (hit : IndexHit) : Option RepresentationPointer :=
  match RepresentationPointer.fromMapping (.mapping hit.payload) with
  | .error _ => none
  | .ok pointer =>
    if pointer.storeRef ≠ hit.storeRef ∨ pointer.partitionDigest ≠ slot.partition.digest ∨
        pointer.representationKind ≠ slot.kind ∨ pointer.representationVersion ≠ slot.representationVersion then none
    else if metadata.pointer pointer.storeRef ≠ some (pointer, .committed) then none
    else some pointer

def boundHit (hit : IndexHit) : Option BoundHit :=
  (boundPointer metadata slot hit).map fun pointer => {
    memoryVersionRef := pointer.memoryVersionRef
    itemDigest := pointer.itemDigest
    contentDigest := pointer.contentDigest
    storeRef := pointer.storeRef
    representationKind := py pointer.representationKind.value
    representationVersion := pointer.representationVersion
    classificationMarkingRef := pointer.classificationMarkingRef
    score := hit.score }

def candidateScan (limit : ℕ) : PagedScan IndexHit BoundHit PyStr PyError where
  key := IndexHit.storeRef
  take := boundHit metadata slot
  limit := limit
  pageSize := limits.pageSize
  budget := limits.maxScannedHits
  exhausted := notReady "UNBOUND_BACKLOG" "index requires reconciliation"

/-- `_bound_candidates`; `none` when the fuel does not last. -/
def boundCandidates (page : ℕ → Except PyError (List IndexHit)) (limit : ℤ) (fuel : ℕ) :
    Option (Except PyError (List BoundHit)) :=
  if limit < 1 then some (.error (storeError "MEMORY_SCHEMA_INVALID" "QUERY_INVALID" "limit must be >= 1"))
  else (candidateScan limits metadata slot limit.toNat).run page fuel

/-! ## What a scan finds -/

/-- The distinct entries of a ranking that are committed pointers of the slot, in its order. -/
def boundEntries (ranking : List IndexHit) : List BoundHit :=
  (PagedScan.firsts IndexHit.storeRef [] ranking).filterMap (boundHit metadata slot)

/-- The distinct entries that are not. -/
def unboundEntries (ranking : List IndexHit) : List IndexHit :=
  (PagedScan.firsts IndexHit.storeRef [] ranking).filter fun hit => (boundHit metadata slot hit).isNone

/-- The hits read before the scan is refused: whole pages up to the bound. -/
def scannedHits : ℕ := (limits.maxScannedHits + limits.pageSize - 1) / limits.pageSize * limits.pageSize

/-- The ranking ends before the bound of the scan, or its first hits fill the places. -/
def ScanSuffices (ranking : List IndexHit) (limit : ℕ) : Prop :=
  0 < limits.pageSize ∧ (ranking.length < scannedHits limits ∨
    limit ≤ (boundEntries metadata slot (ranking.take (scannedHits limits))).length)

/-- Pages of one ranking. -/
def stablePage (ranking : List IndexHit) (offset : ℕ) : Except PyError (List IndexHit) :=
  .ok ((ranking.drop offset).take limits.pageSize)

variable {limits metadata slot}

theorem boundHit_registered {p : RepresentationPointer} (h : p.WellFormed) (hpartition : p.partitionDigest = slot.partition.digest)
    (hkind : p.representationKind = slot.kind) (hversion : p.representationVersion = slot.representationVersion)
    (hregistered : metadata.pointer p.storeRef = some (p, .committed)) (score : Binary64) :
    (boundHit metadata slot ⟨p.storeRef, p.entries, score⟩).isSome = true := by
  have hread := RepresentationPointer.fromMapping_toMapping h
  rw [RepresentationPointer.toMapping_eq] at hread
  rw [boundHit, Option.isSome_map, boundPointer]
  dsimp only
  rw [hread]
  dsimp only
  rw [if_neg (by simp [hpartition, hkind, hversion]), if_neg (not_not.mpr hregistered)]
  rfl

theorem boundCandidates_eq_run (ranking : List IndexHit) {limit : ℤ} (hlimit : 1 ≤ limit) (fuel : ℕ) :
    boundCandidates limits metadata slot (stablePage limits ranking) limit fuel =
      (candidateScan limits metadata slot limit.toNat).run
        ((candidateScan limits metadata slot limit.toNat).pageOf ranking) fuel := by
  rw [boundCandidates, if_neg (not_lt.mpr hlimit)]
  rfl

theorem boundCandidates_returns_iff (ranking : List IndexHit) {limit : ℤ} (hlimit : 1 ≤ limit) :
    (∃ fuel results, boundCandidates limits metadata slot (stablePage limits ranking) limit fuel = some (.ok results)) ↔
      ScanSuffices limits metadata slot ranking limit.toNat := by
  have hplaces : 1 ≤ (candidateScan limits metadata slot limit.toNat).limit := by
    show 1 ≤ limit.toNat
    omega
  simp only [boundCandidates_eq_run ranking hlimit]
  exact PagedScan.returns_iff hplaces

def samplePartition : MemoryPartition where
  tenantId := py "tenant"
  organizationId := py "org"
  domainId := py "domain"
  compartments := [py "alpha"]
  classificationMarkingRef := canonicalDigest .none
  purpose := py "analysis"
  policyBundleDigest := canonicalDigest .none
  ontologyReleaseDigest := canonicalDigest .none
  memoryScope := .domain
  scopeBindings := []

def sampleSlot : IndexSlot := ⟨samplePartition, .fullText, canonicalDigest .none⟩

def samplePointer : RepresentationPointer where
  memoryVersionRef := py "urn:ocor:memory:1"
  itemDigest := canonicalDigest .none
  contentDigest := canonicalDigest .none
  representationKind := .fullText
  representationVersion := canonicalDigest .none
  representationDigest := canonicalDigest .none
  partitionDigest := samplePartition.digest
  classificationMarkingRef := canonicalDigest .none
  policyBundleDigest := canonicalDigest .none
  memoryScope := .domain
  deletionEpoch := 0

def sampleMetadata (item : GovernedMemoryItem) : MetadataStore where
  rows := Dict.empty.set (item.memoryItemId, item.memoryVersion)
    ⟨⟨item.memoryItemId, item.memoryVersion, item, item.digest, canonicalDigest .none, MemoryPartition.forItem item,
      contentObjectRef (MemoryPartition.forItem item) item.contentDigest, [samplePointer], 0⟩, .committed, some 0⟩
  heads := Dict.empty.set item.memoryItemId item.memoryVersion

theorem sample_registered (item : GovernedMemoryItem) :
    (sampleMetadata item).pointer samplePointer.storeRef = some (samplePointer, .committed) := by
  have hrows : (sampleMetadata item).rows.values = [⟨⟨item.memoryItemId, item.memoryVersion, item, item.digest,
      canonicalDigest .none, MemoryPartition.forItem item,
      contentObjectRef (MemoryPartition.forItem item) item.contentDigest, [samplePointer], 0⟩, .committed, some 0⟩] := rfl
  rw [MetadataStore.pointer, hrows]
  simp

end OcorRuntime.Memory

import OcorRuntime.Memory.Ports

/-! The store coordinator (`memory/stores.py`): a version of the ledger is staged in the
metadata store, its content and projections are written, and committing the metadata is
the one switch that makes it visible. Sealed content objects, index entries and vectors
are the backend's. -/
namespace OcorRuntime.Memory
open Kernel
set_option autoImplicit false
set_option maxHeartbeats 250000

/-- The content store with its cipher, and the indexes with their profiles. -/
structure Backend (ω : Type) where
  /-- `limits.lexical_profile.representation_version`. -/
  lexicalProfileVersion : PyStr
  validateEmbedding : GovernedMemoryItem → List Binary64 → Except PyError (List Binary64)
  vectorDigest : List Binary64 → PyStr
  vectorRepresentationDigest : PyStr → PyStr → List Binary64 → Except PyError PyStr
  writeContent : StagedVersion → PyStr → Bytes → Op ω Raised Unit
  readContent : StagedVersion → PyStr → Op ω Raised Bytes
  writeProjection : MemoryPartition → GovernedMemoryItem → RepresentationPointer → Option PyStr →
    Option (List Binary64) → Op ω Raised Unit
  projectionBound : MemoryPartition → GovernedMemoryItem → RepresentationPointer → Op ω Raised Bool
  /-- `index.retire` of the index of the kind; an index without eligibility predicates does nothing. -/
  retire : RepresentationKind → MemoryPartition → PyStr → PyStr → ℕ → Op ω Raised Unit

def storeError (reasonCode detailCode message : String) (args : List ErrorArg := []) : PyError :=
  memoryError .store reasonCode detailCode message args

/-- `_not_ready`. -/
def notReady (detailCode message : String) (args : List ErrorArg := []) : PyError :=
  storeError "REPRESENTATION_NOT_READY" detailCode message args

/-! ## Representations -/

/-- `_sha256`. -/
def sha256Urn (data : Bytes) : PyStr := py "urn:sha256:" ++ Sha256.hexdigest data

/-- `payload.decode("utf-8")`, which takes no surrogates. -/
def decodeStrict (payload : Bytes) : Option PyStr := (utf8Decode payload).filter fun text => Scalar text

/-- `lexical_document`. -/
def lexicalDocument (payload : Bytes) : Except PyError PyStr := do
  let document ← orRaise (decodeStrict payload)
    (storeError "MEMORY_SCHEMA_INVALID" "LEXICAL_DOCUMENT_INVALID" "FULL_TEXT representation requires a UTF-8 payload")
  refuseIf (codePoint 0 ∈ document ∨ ∀ c ∈ document, isSpace c = true)
    (storeError "MEMORY_SCHEMA_INVALID" "LEXICAL_DOCUMENT_INVALID"
      "FULL_TEXT representation requires a non-empty document without NUL")
  return document

/-- `lexical_representation_digest`. -/
def lexicalRepresentationDigest (representationVersion document : PyStr) : PyStr :=
  canonicalDigest (fields [("representation_version", some (.str representationVersion)),
    ("document_digest", some (.str (sha256Urn (utf8Encode document))))])

/-- `structured_representation_version`. -/
def structuredRepresentationVersion (item : GovernedMemoryItem) : PyStr :=
  canonicalDigest (fields [("representation_kind", some (.str (py RepresentationKind.structured.value))),
    ("content_schema_ref", some (.str item.contentSchemaRef))])

/-- `VectorProfile.for_item(item).representation_version`. -/
def vectorProfileVersion (item : GovernedMemoryItem) : Except PyError PyStr :=
  match item.embeddingModelRef, item.embeddingModelDigest, item.embeddingDimensions, item.embeddingNormalizationProfile with
  | some modelRef, some modelDigest, some dimensions, some normalization =>
    .ok (canonicalDigest (fields [("representation_kind", some (.str (py RepresentationKind.vector.value))),
      ("embedding_model_ref", some (.str modelRef)), ("embedding_model_digest", some (.str modelDigest)),
      ("embedding_dimensions", some (.int dimensions)),
      ("embedding_normalization_profile", some (.str normalization))]))
  | _, _, _, _ => .error (storeError "MEMORY_SCHEMA_INVALID" "EMBEDDING_BINDING_MISSING"
      "VECTOR representation requires the embedding model binding")

/-- The pointer of one representation of a version. -/
def pointerOf (item : GovernedMemoryItem) (itemDigest : PyStr) (kind : RepresentationKind)
    (representationVersion representationDigest : PyStr) : RepresentationPointer where
  memoryVersionRef := item.versionRef
  itemDigest := itemDigest
  contentDigest := item.contentDigest
  representationKind := kind
  representationVersion := representationVersion
  representationDigest := representationDigest
  partitionDigest := (MemoryPartition.forItem item).digest
  classificationMarkingRef := item.classificationMarkingRef
  policyBundleDigest := item.policyBundleDigest
  memoryScope := item.memoryScope
  deletionEpoch := item.deletionEpoch.getD 0

/-- The pointer of the metadata record itself. -/
def structuredPointer (item : GovernedMemoryItem) (itemDigest : PyStr) : RepresentationPointer :=
  pointerOf item itemDigest .structured (structuredRepresentationVersion item) itemDigest

/-- The stage of a record with these pointers. -/
def stagedVersion (record : AdmittedMemoryVersion) (pointers : List RepresentationPointer) (stagedAt : Instant) :
    StagedVersion where
  memoryItemId := record.item.memoryItemId
  memoryVersion := record.item.memoryVersion
  item := record.item
  itemDigest := record.itemDigest
  auditRef := record.receipt.auditRef
  partition := MemoryPartition.forItem record.item
  contentObjectRef := contentObjectRef (MemoryPartition.forItem record.item) record.item.contentDigest
  pointers := pointers
  stagedAt := stagedAt

/-- A projection of a version in an index: its partition, kind and representation version. -/
abbrev Layout := MemoryPartition × RepresentationKind × PyStr

/-- The pointers into the indexes; the structured one is the metadata record itself. -/
def StagedVersion.projections (staged : StagedVersion) : List RepresentationPointer :=
  staged.pointers.filter fun pointer => pointer.representationKind ≠ .structured

def StagedVersion.layouts (staged : StagedVersion) : List Layout :=
  staged.projections.map fun pointer => (staged.partition, pointer.representationKind, pointer.representationVersion)

/-- The layouts without repetition, by partition digest, kind and version. -/
def sortLayouts (layouts : List Layout) : List Layout :=
  let key (layout : Layout) : List PyStr := [layout.1.digest, py layout.2.1.value, layout.2.2]
  layouts.dedup.insertionSort fun a b => key a ≤ key b

structure StoreCommitReceipt where
  memoryVersionRef : PyStr
  itemDigest : PyStr
  partitionDigest : PyStr
  contentObjectRef : PyStr
  representations : List (RepresentationKind × PyStr × PyStr)
  state : VersionState
  headVersion : ℕ
  auditRef : PyStr

namespace Backend
variable {ω : Type} (backend : Backend ω) (env : Env)

/-- `_pointer`. -/
def pointer (item : GovernedMemoryItem) (itemDigest : PyStr) (document : Option PyStr)
    (vector : Option (List Binary64)) : RepresentationKind → Except PyError RepresentationPointer
  | .fullText => do
    let document ← orRaise document ⟨.foreign "AssertionError", "", []⟩
    return pointerOf item itemDigest .fullText backend.lexicalProfileVersion
      (lexicalRepresentationDigest backend.lexicalProfileVersion document)
  | .vector => do
    let embeddingDigest ← orRaise item.embeddingDigest ⟨.foreign "AssertionError", "", []⟩
    let vector ← orRaise vector ⟨.foreign "AssertionError", "", []⟩
    let version ← vectorProfileVersion item
    let representation ← backend.vectorRepresentationDigest version embeddingDigest vector
    return pointerOf item itemDigest .vector version representation
  | .structured => return structuredPointer item itemDigest

/-- The document and the vector of a payload, as far as the item has those representations. -/
def representations (item : GovernedMemoryItem) (payload : Bytes) (embedding : Option (List Binary64)) :
    Except PyError (Option PyStr × Option (List Binary64)) := do
  let document ← (if .fullText ∈ item.representationKinds then some <$> lexicalDocument payload else pure none)
  let vector ← (match embedding with
    | some embedding =>
      if .vector ∈ item.representationKinds then some <$> backend.validateEmbedding item embedding
      else .error (storeError "MEMORY_SCHEMA_INVALID" "UNBOUND_REPRESENTATION"
        "embedding supplied for an item without VECTOR representation")
    | none =>
      if .vector ∈ item.representationKinds then
        .error (storeError "MEMORY_SCHEMA_INVALID" "EMBEDDING_MISSING" "VECTOR representation requires its embedding")
      else pure none)
  return (document, vector)

/-- The pointers of an item, in the order of the names of their kinds. -/
def pointers (item : GovernedMemoryItem) (itemDigest : PyStr) (document : Option PyStr)
    (vector : Option (List Binary64)) : Except PyError (List RepresentationPointer) :=
  ([.fullText, .structured, .vector].filter fun kind => kind ∈ item.representationKinds).mapM
    (backend.pointer item itemDigest document vector)

/-- `_prepare`. -/
def prepare (record : AdmittedMemoryVersion) (payload : Bytes) (embedding : Option (List Binary64)) :
    Act ω (StagedVersion × Option PyStr × Option (List Binary64)) := do
  Op.lift ((match record.verify with
    | .ok () => .ok ()
    | .error _ => .error (.exception (storeError "MEMORY_SCHEMA_INVALID" "RECORD_INVALID"
        "admitted version does not verify"))) : Except Raised Unit)
  let admitted ← ledgerGet env record.item.memoryItemId record.item.memoryVersion
  check (¬ ∃ version ∈ admitted, version.itemDigest = record.itemDigest ∧
      version.receipt.auditRef = record.receipt.auditRef)
    (storeError "MEMORY_VERSION_NOT_FOUND" "VERSION_NOT_ADMITTED"
      "only versions recorded by the admission ledger are stored")
  check (sha256Urn payload ≠ record.item.contentDigest)
    (storeError "MEMORY_SCHEMA_INVALID" "CONTENT_DIGEST_MISMATCH" "content_digest does not bind payload")
  let (document, vector) ← Op.lift ((backend.representations record.item payload embedding).mapError .exception)
  let pointers ← Op.lift ((backend.pointers record.item record.itemDigest document vector).mapError .exception)
  let stagedAt ← now env
  return (stagedVersion record pointers stagedAt, document, vector)

/-- `_retire_predecessors`. -/
def retirePredecessors (staged : StagedVersion) : Act ω Unit :=
  if staged.memoryVersion < 2 then
    pure ()
  else do
    let previous ← metadataGet env staged.memoryItemId (staged.memoryVersion - 1)
    let layouts := (previous.map fun stored => stored.staged.layouts).getD [] ++ staged.layouts
    failClosed (fun _ => false)
      (notReady "PREDECESSOR_NOT_RETIRED" "%s committed; predecessor projections not retired" [.text staged.memoryVersionRef])
      ((sortLayouts layouts).forM fun layout =>
        outside env (backend.retire layout.2.1 layout.1 layout.2.2 staged.memoryItemId staged.memoryVersion))

/-- `_verify_committed`. -/
def verifyCommitted (stored : StoredVersion) : Act ω GovernedMemoryItem := do
  let item ← Op.lift (stored.staged.verify.mapError .exception)
  stored.staged.pointers.forM fun pointer => do
    let registered ← metadataPointer env pointer.storeRef
    check (registered ≠ some (pointer, .committed))
      (storeCorrupted "POINTER_UNBOUND" "committed pointer is not registered")
  return item

/-- `_receipt`. -/
def receipt (stored : StoredVersion) : Act ω StoreCommitReceipt := do
  let headVersion ← metadataHead env stored.staged.memoryItemId
  return { memoryVersionRef := stored.staged.memoryVersionRef, itemDigest := stored.staged.itemDigest,
           partitionDigest := stored.staged.partition.digest, contentObjectRef := stored.staged.contentObjectRef,
           representations := stored.staged.pointers.map fun p =>
             (p.representationKind, p.representationVersion, p.storeRef),
           state := stored.state, headVersion, auditRef := stored.staged.auditRef }

/-- The stage is not committed yet: its content and projections are written before it is. -/
def commitStaged (item : GovernedMemoryItem) (staged : StagedVersion) (payload : Bytes) (document : Option PyStr)
    (vector : Option (List Binary64)) : Act ω StoreCommitReceipt := do
  let incomplete := notReady "STORE_COMMIT_INCOMPLETE" "%s stays PENDING" [.text staged.memoryVersionRef]
  failClosed isStoreError incomplete do
    outside env (backend.writeContent staged item.contentDigest payload)
    staged.projections.forM fun pointer =>
      outside env (backend.writeProjection staged.partition item pointer document vector)
  let committed ← failClosed isStoreError incomplete do
    let committedAt ← now env
    metadataCommit env staged.memoryItemId staged.memoryVersion staged.stageDigest committedAt
  check (committed.state ≠ .committed) (storeCorrupted "METADATA_INVALID" "metadata commit was not applied")
  backend.retirePredecessors env committed.staged
  receipt env committed

/-- `commit`. -/
def commit (record : AdmittedMemoryVersion) (payload : Bytes) (embedding : Option (List Binary64)) :
    Act ω StoreCommitReceipt := do
  let (staged, document, vector) ← backend.prepare env record payload embedding
  let stored ← metadataStage env staged
  check (stored.staged.stageDigest ≠ staged.stageDigest)
    (storeCorrupted "METADATA_INVALID" "metadata returned another stage")
  if stored.state = .committed then do
    let _ ← verifyCommitted env stored
    backend.retirePredecessors env stored.staged
    receipt env stored
  else
    backend.commitStaged env record.item staged payload document vector

/-- `read_version`, of which the lifecycle uses the payload. -/
def readVersion (partition : MemoryPartition) (memoryItemId : PyStr) (memoryVersion : ℕ) : Act ω Bytes := do
  let found ← metadataGet env memoryItemId memoryVersion
  let notVisible := storeError "MEMORY_VERSION_NOT_FOUND" "VERSION_NOT_VISIBLE" "memory version is not visible"
  let stored ← Op.lift ((orRaise found notVisible).mapError .exception)
  check (stored.staged.partition.digest ≠ partition.digest) notVisible
  check (stored.state ≠ .committed) (notReady "VERSION_NOT_COMMITTED" "memory version is partially stored")
  let item ← verifyCommitted env stored
  stored.staged.projections.forM fun pointer => do
    let bound ← outside env (backend.projectionBound partition item pointer)
    check (bound = false) (notReady "PROJECTION_DRIFT" "a committed projection does not bind")
  outside env (backend.readContent stored.staged item.contentDigest)

end Backend
end OcorRuntime.Memory

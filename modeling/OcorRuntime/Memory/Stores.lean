import OcorRuntime.Memory.Item

/-! The three stores of governed memory that keep versions: the append-only version
ledger (`memory/model.py`), the metadata store with its staged and committed versions
(`memory/stores.py`) and the deletion tombstones (`memory/lifecycle.py`). -/
namespace OcorRuntime.Memory
open Kernel
set_option autoImplicit false
set_option maxHeartbeats 250000

/-! ## The version ledger -/

def ledgerCorrupted (message : String) : PyError := memoryError .admission "INTERNAL_ERROR" "MEMORY_LEDGER_CORRUPTED" message

def MemoryReceipt.Binds (receipt : MemoryReceipt) (item : GovernedMemoryItem) : Prop :=
  receipt.memoryItemId = item.memoryItemId ∧ receipt.memoryVersion = item.memoryVersion ∧
    receipt.contentDigest = item.contentDigest ∧ receipt.lifecycleStatus = item.lifecycleStatus ∧
    receipt.governedContextDigest = item.governedContextDigest

instance (receipt : MemoryReceipt) (item : GovernedMemoryItem) : Decidable (receipt.Binds item) :=
  inferInstanceAs (Decidable (_ ∧ _))

namespace AdmittedMemoryVersion

def verify (record : AdmittedMemoryVersion) : Except PyError Unit := do
  refuseIf (record.item.digest ≠ record.itemDigest) (ledgerCorrupted "item digest does not bind the persisted item")
  refuseIf (canonicalDigest record.auditEvent.toMapping ≠ record.receipt.auditRef)
    (ledgerCorrupted "audit_ref does not bind the audit event")
  refuseIf (record.auditEvent.itemDigest ≠ record.itemDigest)
    (ledgerCorrupted "audit event does not bind the item digest")
  refuseIf (¬ record.receipt.Binds record.item) (ledgerCorrupted "receipt does not bind the persisted item")

/-- The record is the version `memoryVersion` of the item. -/
def InSlot (record : AdmittedMemoryVersion) (memoryItemId : PyStr) (memoryVersion : ℕ) : Prop :=
  record.item.memoryItemId = memoryItemId ∧ record.item.memoryVersion = memoryVersion

instance (record : AdmittedMemoryVersion) (memoryItemId : PyStr) (memoryVersion : ℕ) :
    Decidable (record.InSlot memoryItemId memoryVersion) :=
  inferInstanceAs (Decidable (_ ∧ _))

end AdmittedMemoryVersion

/-- The records in the order they were appended. -/
abbrev VersionLedger := List AdmittedMemoryVersion

namespace VersionLedger

def get (ledger : VersionLedger) (memoryItemId : PyStr) (memoryVersion : ℕ) : Option AdmittedMemoryVersion :=
  ledger.find? fun record => record.InSlot memoryItemId memoryVersion

/-- The version of the item appended last, or 0. -/
def latestVersion (ledger : VersionLedger) (memoryItemId : PyStr) : ℕ :=
  ((ledger.filter fun record => record.item.memoryItemId = memoryItemId).getLast?.map fun record =>
    record.item.memoryVersion).getD 0

def byIdempotencyKey (ledger : VersionLedger) (key : IdempotencyKey) : Option AdmittedMemoryVersion :=
  ledger.find? fun record => record.idempotencyKey = key

/-- `_occupancy_conflict`. -/
def occupancyConflict (ledger : VersionLedger) (record : AdmittedMemoryVersion) : Except PyError Unit := do
  let latest := ledger.latestVersion record.item.memoryItemId
  refuseIf ((ledger.get record.item.memoryItemId record.item.memoryVersion).isSome = true ∨
      record.item.memoryVersion ≤ latest)
    (memoryError .admission "MEMORY_IDEMPOTENCY_CONFLICT" "IMMUTABLE_VERSION_OCCUPIED"
      "%s is already admitted; versions are never overwritten" [.text record.item.versionRef])
  refuseIf (record.item.memoryVersion ≠ latest + 1)
    (memoryError .admission "MEMORY_VERSION_NOT_FOUND" "VERSION_GAP"
      "%s does not follow the latest admitted version %d" [.text record.item.versionRef, .int latest])
  refuseIf ((ledger.byIdempotencyKey record.idempotencyKey).isSome = true)
    (memoryError .admission "MEMORY_IDEMPOTENCY_CONFLICT" "IDEMPOTENCY_KEY_REUSED"
      "idempotency key is already bound to another admission")

def append (ledger : VersionLedger) (record : AdmittedMemoryVersion) : Except PyError VersionLedger := do
  record.verify
  ledger.occupancyConflict record
  return ledger ++ [record]

end VersionLedger

/-! ## Metadata -/

structure RepresentationPointer where
  memoryVersionRef : PyStr
  itemDigest : PyStr
  contentDigest : PyStr
  representationKind : RepresentationKind
  representationVersion : PyStr
  representationDigest : PyStr
  partitionDigest : PyStr
  classificationMarkingRef : PyStr
  policyBundleDigest : PyStr
  memoryScope : MemoryScope
  deletionEpoch : ℕ
deriving DecidableEq

/-- `_hex`. -/
def hexOf (digest : PyStr) : PyStr := if py "urn:sha256:" <+: digest then digest.drop 11 else digest

namespace RepresentationPointer

def toMapping (p : RepresentationPointer) : PyValue :=
  fields [("memory_version_ref", some (.str p.memoryVersionRef)), ("item_digest", some (.str p.itemDigest)),
    ("content_digest", some (.str p.contentDigest)),
    ("representation_kind", some (.str (py p.representationKind.value))),
    ("representation_version", some (.str p.representationVersion)),
    ("representation_digest", some (.str p.representationDigest)),
    ("partition_digest", some (.str p.partitionDigest)),
    ("classification_marking_ref", some (.str p.classificationMarkingRef)),
    ("policy_bundle_digest", some (.str p.policyBundleDigest)),
    ("memory_scope", some (.str (py p.memoryScope.value))), ("deletion_epoch", some (.int p.deletionEpoch))]

def digest (p : RepresentationPointer) : PyStr := canonicalDigest p.toMapping

def storeRef (p : RepresentationPointer) : PyStr := py "urn:ocor:memory-representation:" ++ hexOf p.digest

end RepresentationPointer

inductive VersionState
  | pending
  | committed
deriving DecidableEq

structure StagedVersion where
  memoryItemId : PyStr
  memoryVersion : ℕ
  item : GovernedMemoryItem
  itemDigest : PyStr
  auditRef : PyStr
  partition : MemoryPartition
  contentObjectRef : PyStr
  pointers : List RepresentationPointer
  stagedAt : Instant

/-- `content_object_ref`. -/
def contentObjectRef (partition : MemoryPartition) (contentDigest : PyStr) : PyStr :=
  py "urn:ocor:memory-content-object:" ++ hexOf (canonicalDigest (fields
    [("partition_digest", some (.str partition.digest)), ("content_digest", some (.str contentDigest))]))

def storeCorrupted (detailCode message : String) : PyError := memoryError .store "INTERNAL_ERROR" detailCode message

namespace StagedVersion

def memoryVersionRef (staged : StagedVersion) : PyStr := Memory.memoryVersionRef staged.memoryItemId staged.memoryVersion

/-- Everything except the staging time. -/
def body (s : StagedVersion) : PyValue :=
  fields [("memory_item_id", some (.str s.memoryItemId)), ("memory_version", some (.int s.memoryVersion)),
    ("item", some s.item.toMapping), ("item_digest", some (.str s.itemDigest)), ("audit_ref", some (.str s.auditRef)),
    ("partition", some s.partition.toMapping), ("content_object_ref", some (.str s.contentObjectRef)),
    ("pointers", some (.list (s.pointers.map RepresentationPointer.toMapping)))]

def stageDigest (s : StagedVersion) : PyStr := canonicalDigest s.body

/-- `verify`; the item of a stage is one already. -/
def verify (s : StagedVersion) : Except PyError GovernedMemoryItem := do
  refuseIf (s.item.digest ≠ s.itemDigest) (storeCorrupted "METADATA_DIGEST_MISMATCH" "item digest mismatch")
  refuseIf (s.item.memoryItemId ≠ s.memoryItemId ∨ s.item.memoryVersion ≠ s.memoryVersion)
    (storeCorrupted "METADATA_INVALID" "stored version slot mismatch")
  refuseIf (MemoryPartition.forItem s.item ≠ s.partition)
    (storeCorrupted "METADATA_INVALID" "stored partition mismatch")
  refuseIf (Memory.contentObjectRef s.partition s.item.contentDigest ≠ s.contentObjectRef)
    (storeCorrupted "METADATA_INVALID" "stored content ref mismatch")
  refuseIf (sortedTexts (s.pointers.map fun pointer => py pointer.representationKind.value) ≠
      sortedTexts (s.item.representationKinds.map fun kind => py kind.value))
    (storeCorrupted "METADATA_INVALID" "stored pointers mismatch")
  refuseIf (∃ pointer ∈ s.pointers, pointer.memoryVersionRef ≠ s.item.versionRef ∨
      pointer.itemDigest ≠ s.itemDigest ∨ pointer.contentDigest ≠ s.item.contentDigest ∨
      pointer.partitionDigest ≠ s.partition.digest)
    (storeCorrupted "METADATA_INVALID" "stored pointer binding mismatch")
  return s.item

end StagedVersion

structure StoredVersion where
  staged : StagedVersion
  state : VersionState
  committedAt : Option Instant

structure MetadataStore where
  rows : Dict (PyStr × ℕ) StoredVersion
  heads : Dict PyStr ℕ

namespace MetadataStore

def empty : MetadataStore := ⟨.empty, .empty⟩

def get (m : MetadataStore) (memoryItemId : PyStr) (memoryVersion : ℕ) : Option StoredVersion :=
  m.rows.get? (memoryItemId, memoryVersion)

/-- The highest committed version, or 0. -/
def head (m : MetadataStore) (memoryItemId : PyStr) : ℕ := (m.heads.get? memoryItemId).getD 0

def stageConflict (versionRef : PyStr) : PyError :=
  memoryError .store "MEMORY_IDEMPOTENCY_CONFLICT" "STAGE_CONFLICT"
    "%s is already staged with different metadata or pointers" [.text versionRef]

def predecessorNotCommitted (versionRef : PyStr) : PyError :=
  memoryError .store "REPRESENTATION_NOT_READY" "PREDECESSOR_NOT_COMMITTED"
    "%s requires its predecessor version to be committed first" [.text versionRef]

/-- A slot that holds the same stage is returned unchanged. -/
def stage (m : MetadataStore) (staged : StagedVersion) : Except PyError (StoredVersion × MetadataStore) :=
  match m.get staged.memoryItemId staged.memoryVersion with
  | some existing =>
    if existing.staged.stageDigest = staged.stageDigest then .ok (existing, m)
    else .error (stageConflict staged.memoryVersionRef)
  | none =>
    let stored : StoredVersion := ⟨staged, .pending, none⟩
    .ok (stored, { m with rows := m.rows.set (staged.memoryItemId, staged.memoryVersion) stored })

/-- Commits the staged version and moves the head of its item, which must be the version before it. -/
def commit (m : MetadataStore) (memoryItemId : PyStr) (memoryVersion : ℕ) (stageDigest : PyStr)
    (committedAt : Instant) : Except PyError (StoredVersion × MetadataStore) := do
  let stored ← orRaise (m.get memoryItemId memoryVersion) ⟨.keyError, "%r", [.text memoryItemId, .int memoryVersion]⟩
  refuseIf (stored.staged.stageDigest ≠ stageDigest) ⟨.foreign "AssertionError", "", []⟩
  if stored.state = .committed then
    return (stored, m)
  else do
    refuseIf (m.head memoryItemId + 1 ≠ memoryVersion) (predecessorNotCommitted stored.staged.memoryVersionRef)
    let committed : StoredVersion := ⟨stored.staged, .committed, some committedAt⟩
    return (committed, ⟨m.rows.set (memoryItemId, memoryVersion) committed, m.heads.set memoryItemId memoryVersion⟩)

/-- The pointer registered under `storeRef` and the state of its version. -/
def pointer (m : MetadataStore) (storeRef : PyStr) : Option (RepresentationPointer × VersionState) :=
  m.rows.values.findSome? fun stored =>
    (stored.staged.pointers.find? fun pointer => pointer.storeRef = storeRef).map fun pointer => (pointer, stored.state)

def versionsIn (m : MetadataStore) (partitionDigest : PyStr) : List StoredVersion :=
  m.rows.values.filter fun stored => stored.staged.partition.digest = partitionDigest

/-- Every partition that has a staged version, one for each digest. -/
def partitions (m : MetadataStore) : List MemoryPartition :=
  (m.rows.values.foldl (fun found stored => found.set stored.staged.partition.digest stored.staged.partition)
    (Dict.empty : Dict PyStr MemoryPartition)).values

end MetadataStore

/-! ## Tombstones -/

inductive TombstonePhase
  | started
  | incomplete
  | completed
deriving DecidableEq

def TombstonePhase.value : TombstonePhase → String
  | started => "STARTED"
  | incomplete => "INCOMPLETE"
  | completed => "COMPLETED"

structure TombstoneEntry where
  memoryItemId : PyStr
  tenantId : PyStr
  partitionDigests : List PyStr
  versionRefs : List PyStr
  deletionEpoch : ℕ
  phase : TombstonePhase
  reasonCode : PyStr
  operationId : PyStr
  participants : List PyStr
  residueCounts : List (PyStr × ℕ)
  retainedSharedObjects : ℕ
  stamp : PyStr
deriving DecidableEq

namespace TombstoneEntry

def toMapping (e : TombstoneEntry) : PyValue :=
  fields [("memory_item_id", some (.str e.memoryItemId)), ("tenant_id", some (.str e.tenantId)),
    ("partition_digests", some (strings e.partitionDigests)), ("version_refs", some (strings e.versionRefs)),
    ("deletion_epoch", some (.int e.deletionEpoch)), ("phase", some (.str (py e.phase.value))),
    ("reason_code", some (.str e.reasonCode)), ("operation_id", some (.str e.operationId)),
    ("participants", some (strings e.participants)),
    ("residue_counts", some (.list (e.residueCounts.map fun count => .list [.str count.1, .int count.2]))),
    ("retained_shared_objects", some (.int e.retainedSharedObjects)), ("at", some (.str e.stamp))]

def digest (e : TombstoneEntry) : PyStr := canonicalDigest e.toMapping

end TombstoneEntry

/-- The tombstones in the order they were appended. The journal may hold lines at its end
that the store object has not read back yet; the in-memory store has none. -/
structure TombstoneStore where
  applied : List TombstoneEntry
  unapplied : List TombstoneEntry

/-- The highest epoch among the entries, or 0. -/
def highestEpoch (entries : List TombstoneEntry) : ℕ := entries.foldl (fun highest e => max highest e.deletionEpoch) 0

/-- `_epoch_conflict`. -/
def epochConflict (entry : TombstoneEntry) (entries : List TombstoneEntry) : Option String :=
  let history := entries.filter fun e => e.memoryItemId = entry.memoryItemId
  if entry.phase = .started ∧ entry.deletionEpoch ≠ highestEpoch entries + 1 ∧
      ¬ ∃ e ∈ history, e.deletionEpoch = entry.deletionEpoch then
    some "a new saga must reserve the next deletion epoch"
  else if entry.phase ≠ .started ∧ ¬ ∃ e ∈ history, e.deletionEpoch = entry.deletionEpoch ∧ e.phase = .started then
    some "a saga outcome needs its STARTED entry"
  else if ∃ e ∈ history, e.phase = .completed then
    some "a completed tombstone is terminal"
  else
    none

/-- How far a call that raises got; a store that writes in one go is at most either untouched or done. -/
inductive Progress
  | untouched
  | caughtUp
  | written
  | done
deriving DecidableEq

namespace TombstoneStore

def empty : TombstoneStore := ⟨[], []⟩

def all (t : TombstoneStore) : List TombstoneEntry := t.applied ++ t.unapplied

/-- `_catch_up`. -/
def catchUp (t : TombstoneStore) : TombstoneStore := ⟨t.all, []⟩

def entries (t : TombstoneStore) (memoryItemId : PyStr) : List TombstoneEntry :=
  t.all.filter fun e => e.memoryItemId = memoryItemId

/-- `latest_epoch`, which does not read the journal. -/
def latestEpoch (t : TombstoneStore) : ℕ := highestEpoch t.applied

/-- What an append leaves, by how far it gets: a journal line is written before it is read back. -/
def appended (t : TombstoneStore) (entry : TombstoneEntry) : Progress → TombstoneStore
  | .untouched => t
  | .caughtUp => t.catchUp
  | .written => if epochConflict entry t.all = none then ⟨t.all, [entry]⟩ else t.catchUp
  | .done => if epochConflict entry t.all = none then ⟨t.all ++ [entry], []⟩ else t.catchUp

def append (entry : TombstoneEntry) : Op TombstoneStore PyError Unit := fun t =>
  match epochConflict entry t.all with
  | some conflict =>
    (.error (memoryError .lifecycle "MEMORY_IDEMPOTENCY_CONFLICT" "DELETION_EPOCH_CONFLICT" conflict), t.catchUp)
  | none => (.ok (), t.appended entry .done)

end TombstoneStore

end OcorRuntime.Memory

import OcorRuntime.Memory.RestoreGate
import OcorRuntime.Memory.StoreCoordinator

/-! The boundary restored memory is served through (`memory/operations.py`): a manifest the
custodian authenticates, the replay of the tombstones, and the comparison of the restored
stores with the manifest, once when the boundary opens and around every response. -/
namespace OcorRuntime.Memory
open Canonical Kernel
set_option autoImplicit false
set_option maxHeartbeats 250000

/-- `_error`. -/
def operationsError (detailCode : String) (reasonCode : String := "POLICY_DENIED") : PyError :=
  memoryError .operations reasonCode detailCode "memory operation refused"

/-! ## Manifests -/

/-- `MANIFEST_SCHEMA`. -/
def manifestSchema : PyStr := py "urn:ocor:schema:memory-backup-manifest:v1"

/-- `_MANIFEST_KEYS`. -/
def manifestKeys : List String :=
  ["schema", "recovery_point_id", "operation_id", "partition", "partition_digest", "governed_context_digest", "captured_at",
    "journal_checkpoint", "usage", "entries"]

/-- `_ENTRY_KEYS`. -/
def entryKeys : List String :=
  ["memory_item_id", "head_version", "lifecycle_status", "deletion_epoch", "content_ref", "content_digest", "stage_digest",
    "item_digests", "audit_refs", "representations"]

/-- One entry: the item it is about, and its members as they stand in the manifest. -/
structure ManifestEntry where
  memoryItemId : PyStr
  members : List (MappingKey × PyValue)

def ManifestEntry.get (entry : ManifestEntry) (name : String) : PyValue := memberOf entry.members name

/-- A decoded manifest: its members, with those `_decode` checks in their types. -/
structure BackupManifest where
  members : List (MappingKey × PyValue)
  partitionDigest : PyStr
  checkpoint : DeletionJournalCheckpoint
  entries : List ManifestEntry
  distinct : (entries.map ManifestEntry.memoryItemId).Nodup

/-- `DeletionJournalCheckpoint(sequence, head, deletion_epoch)` of members of a document. -/
def checkpointOf? (es : List (MappingKey × PyValue)) : Option DeletionJournalCheckpoint := do
  let sequence ← counter? 0 (memberOf es "sequence")
  let head ← text? (memberOf es "head")
  let deletionEpoch ← counter? 0 (memberOf es "deletion_epoch")
  (DeletionJournalCheckpoint.make sequence head deletionEpoch).toOption

def ManifestEntry.of? : PyValue → Option ManifestEntry
  | .mapping es =>
    if HasKeys entryKeys es then (text? (memberOf es "memory_item_id")).map fun memoryItemId => ⟨memoryItemId, es⟩ else none
  | _ => none

/-- The entries of a manifest. -/
def manifestEntries? : PyValue → Option (List ManifestEntry)
  | .list items => items.mapM ManifestEntry.of?
  | _ => none

/-- `_decode`; whatever is wrong with a manifest, it is refused alike. -/
def BackupManifest.decode? (payload : Bytes) : Option BackupManifest :=
  match loadIJson (.bytes payload) with
  | .ok (.mapping es) =>
    if canonicalize (.mapping es) = .ok payload ∧ HasKeys manifestKeys es ∧ memberOf es "schema" = .str manifestSchema then do
      let entries ← manifestEntries? (memberOf es "entries")
      let checkpoint ← (match memberOf es "journal_checkpoint" with
        | .mapping cs => if HasKeys ["sequence", "head", "deletion_epoch"] cs then checkpointOf? cs else none
        | _ => none)
      let partitionDigest ← text? (memberOf es "partition_digest")
      if distinct : (entries.map ManifestEntry.memoryItemId).Nodup then
        some ⟨es, partitionDigest, checkpoint, entries, distinct⟩
      else none
    else none
  | _ => none

/-- The entries by item id, as `sorted` orders the ids. -/
def BackupManifest.sorted (manifest : BackupManifest) : List ManifestEntry :=
  manifest.entries.insertionSort fun a b => a.memoryItemId ≤ b.memoryItemId

/-! ## Comparing an epoch with a member of a manifest -/

/-- `n > x` and `n < x` for a finite float `x`. -/
def floatBelow (x : FiniteFloat) (n : ℕ) : Bool :=
  if x.neg then decide (0 < n ∨ 0 < x.mantissa) else decide (x.ratio.1 < n * x.ratio.2)

def floatAbove (x : FiniteFloat) (n : ℕ) : Bool := !x.neg && decide (n * x.ratio.2 < x.ratio.1)

def notOrdered (symbol : String) (value : PyValue) : PyError :=
  ⟨.typeError, "'" ++ symbol ++ "' not supported between instances of 'int' and '%s'", [.text (py (typeName value))]⟩

/-- `n > value`. -/
def exceeds (n : ℕ) (value : PyValue) : Except PyError Bool :=
  match value with
  | .bool b => .ok (decide ((if b then 1 else 0) < n))
  | .int z => .ok (decide (z < n))
  | .float (.finite x) => .ok (floatBelow x n)
  | .float (.infinite neg) => .ok neg
  | .float .nan => .ok false
  | value => .error (notOrdered ">" value)

/-- `n < value`. -/
def precedes (n : ℕ) (value : PyValue) : Except PyError Bool :=
  match value with
  | .bool b => .ok (decide (n < if b then 1 else 0))
  | .int z => .ok (decide ((n : ℤ) < z))
  | .float (.finite x) => .ok (floatAbove x n)
  | .float (.infinite neg) => .ok (!neg)
  | .float .nan => .ok false
  | value => .error (notOrdered "<" value)

/-- An epoch as a value, absent as `None`. -/
def epochValue (epoch : Option ℕ) : PyValue := (epoch.map fun n => .int n).getD .none

/-- An optional text as a value. -/
def textValue (text : Option PyStr) : PyValue := (text.map .str).getD .none

/-- `x["deletion_epoch"]`. -/
def epochMember : PyValue → Except PyError PyValue
  | .mapping es => orRaise (Dict.find es (.str (py "deletion_epoch"))) ⟨.keyError, "%r", [.text (py "deletion_epoch")]⟩
  | value => .error ⟨.typeError, "'%s' object is not subscriptable", [.text (py (typeName value))]⟩

/-- `[p.deletion_epoch for p in pointers] == [x["deletion_epoch"] for x in representations]`. -/
def sameEpochs (pointers : List RepresentationPointer) (representations : List PyValue) : Except PyError Bool := do
  let epochs ← representations.mapM epochMember
  return PyValue.pyEqItems (pointers.map fun p => .int p.deletionEpoch) epochs

/-! ## The boundary -/

/-- What the audit sink of the boundary is given. -/
structure RestoreAuditEvent where
  action : String
  outcome : String
  detailCode : String
  recoveryPointDigest : PyStr
  manifestDigest : Option PyStr

/-- The audit reference of an event. -/
def RestoreAuditEvent.ref (event : RestoreAuditEvent) : PyStr :=
  canonicalDigest (fields [("action", some (.str (py event.action))), ("outcome", some (.str (py event.outcome))),
    ("detail_code", some (.str (py event.detailCode))), ("recovery_point_digest", some (.str event.recoveryPointDigest)),
    ("manifest_digest", some (textValue event.manifestDigest))])

/-- What the ports of the boundary answer, by the number of the call. -/
structure MemoryRestoreEnv extends RestoreEnv where
  /-- `verifier.verify(payload, signature) is True`; a payload that is no `bytes` is `none`. -/
  verify : ℕ → Option Bytes → PyValue → Except Raised Bool
  /-- `none` for an answer that is no epoch. -/
  stopEpoch : ℕ → GovernedContext → Except Raised (Option ℕ)
  versionsIn : ℕ → PyStr → Except Raised (List StoredVersion)
  metadataHead : ℕ → PyStr → Except Raised ℕ
  metadataGet : ℕ → PyStr → ℕ → Except Raised (Option StoredVersion)
  ledgerLatest : ℕ → PyStr → Except Raised ℕ
  ledgerGet : ℕ → PyStr → ℕ → Except Raised (Option AdmittedMemoryVersion)
  restoreAudit : ℕ → RestoreAuditEvent → Except Raised Unit

structure MemoryRestoreReceipt where
  recoveryPoint : PyStr
  manifestDigest : PyStr
  checkpoint : DeletionJournalCheckpoint
  obligations : ℕ
  verifiedItems : ℕ
  deletedAfterBackup : List PyStr
  auditRef : PyStr

/-- What an open boundary keeps. -/
structure OpenRestore where
  manifest : BackupManifest
  receipt : MemoryRestoreReceipt
  epoch : ℕ

structure MemoryRestoreGate where
  recoveryPoint : PyStr
  gate : DeletionRestoreGate
  context : GovernedContext
  pointed : IsRecoveryPoint recoveryPoint

abbrev Restoring (α : Type) := Gated (Option OpenRestore) α

/-- The check that raises an operations error. -/
def restoreCheck (bad : Prop) [Decidable bad] (error : PyError) : Restoring Unit := Op.lift (refuseIf bad (.exception error))

/-- `except Exception: raise error`. -/
def orClosed {α : Type} (error : PyError) (x : Restoring α) : Restoring α :=
  Op.guarded x fun why =>
    match why with
    | .interrupt => Op.raise .interrupt
    | .exception _ => Op.raise (.exception error)

/-- `except (MemoryAdmissionError, DeletionRecoveryError): raise`. -/
def isRestoreRefusal (error : PyError) : Bool := error.cls.isMemoryError || DeletionJournalSnapshot.isRecoveryError error

/-- The obligations by item. -/
def obligationOf (obligations : List TombstoneEntry) (memoryItemId : PyStr) : Option TombstoneEntry :=
  obligations.find? fun entry => entry.memoryItemId = memoryItemId

def projectionDrift : PyError := operationsError "PROJECTION_DRIFT" "REPRESENTATION_NOT_READY"
def staleDeletionEpoch : PyError := operationsError "STALE_DELETION_EPOCH"

namespace MemoryRestoreGate
variable (m : MemoryRestoreGate) (env : MemoryRestoreEnv)

/-- `_epoch`. -/
def epoch : Restoring ℕ := do
  let answer ← orClosed (operationsError "STOP_UNAVAILABLE" "CONTROL_PLANE_UNAVAILABLE")
    (ask fun n => env.stopEpoch n m.context)
  Op.lift (orRaise answer (.exception (operationsError "STOP_STATE_INVALID" "CONTROL_PLANE_UNAVAILABLE")))

/-- `_check_epoch`. -/
def checkEpoch (expected : ℕ) : Restoring Unit := do
  let epoch ← m.epoch env
  restoreCheck (epoch ≠ expected) (operationsError "STOP_EPOCH_MISMATCH" "STOP_EPOCH_MISMATCH")

/-- `_record`. -/
def record (action outcome detailCode : String) (manifestDigest : Option PyStr) : Restoring PyStr := do
  let event : RestoreAuditEvent :=
    { action, outcome, detailCode, recoveryPointDigest := canonicalDigest (.str m.recoveryPoint), manifestDigest }
  orClosed (operationsError "AUDIT_UNAVAILABLE" "CONTROL_PLANE_UNAVAILABLE") (ask fun n => env.restoreAudit n event)
  return event.ref

/-- `_denied`. -/
def denied (action : String) (error : PyError) (manifestDigest : Option PyStr) : Restoring Unit := do
  let detailCode := match error.cls with
    | .recoveryError code => code
    | .memoryError _ _ code => code
    | _ => "RESTORE_INVENTORY_UNAVAILABLE"
  let _ ← m.record env (action ++ ".denied") "DENIED" detailCode manifestDigest
  return ()

/-- The head record and the head row of an item, if it has a head. -/
def headOf (memoryItemId : PyStr) : Restoring (ℕ × Option AdmittedMemoryVersion × Option StoredVersion) := do
  let head ← ask fun n => env.metadataHead n memoryItemId
  if head = 0 then
    return (head, none, none)
  else do
    let record ← ask fun n => env.ledgerGet n memoryItemId head
    let stored ← ask fun n => env.metadataGet n memoryItemId head
    return (head, record, stored)

/-- The rest of the comparison of an entry that is still live: head, stage, versions and audit references. -/
def compareVersions (partitionDigest : PyStr) (entry : ManifestEntry) (head : ℕ) (record : AdmittedMemoryVersion)
    (stored : StoredVersion) : Restoring Unit := do
  let digests ← Op.collect (fun v => do
    let r ← ask fun n => env.ledgerGet n entry.memoryItemId v
    return textValue (r.map fun record => record.itemDigest)) (List.range' 1 head)
  let auditRefs ← Op.collect (fun v => do
    let r ← ask fun n => env.metadataGet n entry.memoryItemId v
    return textValue (r.map fun stored => stored.staged.auditRef)) (List.range' 1 head)
  restoreCheck (PyValue.pyEq (.int head) (entry.get "head_version") = false) projectionDrift
  let latest ← ask fun n => env.ledgerLatest n entry.memoryItemId
  restoreCheck (latest ≠ head ∨ stored.state ≠ .committed ∨
      PyValue.pyEq (.str stored.staged.stageDigest) (entry.get "stage_digest") = false ∨
      stored.staged.partition.digest ≠ partitionDigest ∨ record.itemDigest ≠ stored.staged.itemDigest ∨
      PyValue.pyEq (.list digests) (entry.get "item_digests") = false ∨
      PyValue.pyEq (.list auditRefs) (entry.get "audit_refs") = false)
    projectionDrift

/-- Whether the item was deleted after the backup: it has a tombstone, and the manifest no epoch or an earlier one. -/
def deletedAfter (tombstone : Option TombstoneEntry) (epoch : PyValue) : Except PyError Bool :=
  match tombstone with
  | none => .ok false
  | some tombstone => if epoch = .none then .ok true else exceeds tombstone.deletionEpoch epoch

/-- Whether the tombstone is earlier than the epoch of the manifest. -/
def deletedBefore (tombstone : Option TombstoneEntry) (epoch : PyValue) : Except PyError Bool :=
  match tombstone with
  | none => .ok false
  | some tombstone => if epoch = .none then .ok false else precedes tombstone.deletionEpoch epoch

/-- The item is live, or was deleted before the backup already: it is what the manifest says. -/
def compareLive (partitionDigest : PyStr) (entry : ManifestEntry) (tombstone : Option TombstoneEntry) (head : ℕ)
    (record : Option AdmittedMemoryVersion) (stored : Option StoredVersion) : Restoring Unit := do
  let epoch := entry.get "deletion_epoch"
  let stale ← Op.lift ((deletedBefore tombstone epoch).mapError .exception)
  restoreCheck (stale = true) staleDeletionEpoch
  let record ← Op.lift (orRaise record (.exception projectionDrift))
  let stored ← Op.lift (orRaise stored (.exception projectionDrift))
  restoreCheck (PyValue.pyEq (epochValue record.item.deletionEpoch) epoch = false) staleDeletionEpoch
  match entry.get "representations" with
  | .list representations => do
    let same ← Op.lift ((sameEpochs stored.staged.pointers representations).mapError .exception)
    restoreCheck (same = false) staleDeletionEpoch
    compareVersions env partitionDigest entry head record stored
  | _ => Op.raise (.exception staleDeletionEpoch)

/-- One turn of `_verify`: whether the item was deleted after the backup. -/
def verifyEntry (partitionDigest : PyStr) (obligations : List TombstoneEntry) (entry : ManifestEntry) : Restoring Bool := do
  let tombstone := obligationOf obligations entry.memoryItemId
  let (head, record, stored) ← headOf env entry.memoryItemId
  let deleted ← Op.lift ((deletedAfter tombstone (entry.get "deletion_epoch")).mapError .exception)
  if deleted then do
    -- the replayed authoritative tombstone version is required
    restoreCheck (¬ ∃ r ∈ record, ∃ t ∈ tombstone, r.item.deletionEpoch = some t.deletionEpoch) staleDeletionEpoch
    return true
  else do
    compareLive env partitionDigest entry tombstone head record stored
    return false

/-- `_verify`: the items deleted after the backup, and the number of the others. -/
def verify (manifest : BackupManifest) (obligations : List TombstoneEntry) : Restoring (List PyStr × ℕ) := do
  let rows ← ask fun n => env.versionsIn n manifest.partitionDigest
  restoreCheck (¬ ∀ row ∈ rows, row.staged.memoryItemId ∈ manifest.entries.map ManifestEntry.memoryItemId) projectionDrift
  let deleted ← Op.collect (verifyEntry env manifest.partitionDigest obligations) manifest.sorted
  let gone := ((manifest.sorted.zip deleted).filter Prod.snd).map fun pair => pair.1.memoryItemId
  return (gone, manifest.entries.length - gone.length)

/-- The checkpoint authority is not behind the backup. -/
def behind (current recorded : DeletionJournalCheckpoint) : Prop :=
  current.sequence < recorded.sequence ∨ current.deletionEpoch < recorded.deletionEpoch ∨
    (current.sequence = recorded.sequence ∧ current ≠ recorded)

instance (current recorded : DeletionJournalCheckpoint) : Decidable (behind current recorded) :=
  inferInstanceAs (Decidable (_ ∨ _))

def setOpen (opened : Option OpenRestore) : Restoring Unit :=
  Op.update fun s => { s with own := { s.own with owner := opened } }

def payloadDigest (payload : Option Bytes) : Option PyStr := payload.map sha256Urn

/-- The custodian's answer and the manifest it authenticates. -/
def authenticate (payload : Option Bytes) (signature : PyValue) : Restoring (Bytes × BackupManifest) := do
  let unauthenticated := operationsError "BACKUP_UNAUTHENTICATED" "AUTHENTICATION_REQUIRED"
  let verified ← orClosed unauthenticated (ask fun n => env.verify n payload signature)
  restoreCheck (verified = false) unauthenticated
  let bytes ← Op.lift (orRaise payload (.exception unauthenticated))
  let manifest ← Op.lift (orRaise (BackupManifest.decode? bytes)
    (.exception (operationsError "BACKUP_MANIFEST_INVALID" "MEMORY_SCHEMA_INVALID")))
  return (bytes, manifest)

/-- The checkpoint of the live authority, not behind the backup's. -/
def currentCheckpoint (manifest : BackupManifest) : Restoring Unit := do
  let unavailable := operationsError "CHECKPOINT_UNAVAILABLE" "CONTROL_PLANE_UNAVAILABLE"
  let answer ← orClosed unavailable (ask env.current)
  let current ← Op.lift (orRaise answer (.exception unavailable))
  restoreCheck (behind current manifest.checkpoint) staleDeletionEpoch

/-- `open`, inside its handlers. -/
def openRestore (payload : Option Bytes) (signature : PyValue) : Restoring MemoryRestoreReceipt := do
  let epoch ← m.epoch env
  let (bytes, manifest) ← authenticate env payload signature
  restoreCheck (memberOf manifest.members "governed_context_digest" ≠ .str m.context.digest)
    (operationsError "GCS_INVALID" "GOVERNED_CONTEXT_MISMATCH")
  m.checkEpoch env epoch
  restoreCheck (memberOf manifest.members "recovery_point_id" ≠ .str m.recoveryPoint)
    (operationsError "RECOVERY_POINT_MISMATCH" "AUTHENTICATION_REQUIRED")
  currentCheckpoint env manifest
  m.checkEpoch env epoch
  -- tombstones are replayed before any comparison or reopening
  let reconciled ← m.gate.reconcile env.toRestoreEnv
  let journal ← DeletionJournalSnapshot.read env.toRestoreEnv reconciled.checkpoint
  m.checkEpoch env epoch
  let (deleted, verifiedItems) ← verify env manifest journal.obligations
  m.checkEpoch env epoch
  let auditRef ← m.record env "memoryRestore.opened" "COMPLETED" "NONE" (some (sha256Urn bytes))
  let receipt : MemoryRestoreReceipt :=
    { recoveryPoint := m.recoveryPoint, manifestDigest := sha256Urn bytes, checkpoint := reconciled.checkpoint,
      obligations := reconciled.obligations, verifiedItems, deletedAfterBackup := deleted, auditRef }
  m.checkEpoch env epoch
  setOpen (some ⟨manifest, receipt, epoch⟩)
  return receipt

/-- `open`. -/
def opened (payload : Option Bytes) (signature : PyValue) : Restoring MemoryRestoreReceipt := do
  setOpen none
  Op.guarded (m.openRestore env payload signature) fun why =>
    match why with
    | .interrupt => Op.raise .interrupt
    | .exception e => do
      m.denied env "memoryRestore.open" e (payloadDigest payload)
      Op.raise (.exception (if isRestoreRefusal e then e
        else operationsError "RESTORE_INVENTORY_UNAVAILABLE" "CONTROL_PLANE_UNAVAILABLE"))

section Serve
variable {α : Type} (action : ℕ → Except Raised α)

/-- `materialise`: the callback between two comparisons, each followed by a reading of the stop epoch. -/
def materialise (opened : OpenRestore) (obligations : List TombstoneEntry) : Restoring α := do
  let _ ← verify env opened.manifest obligations
  m.checkEpoch env opened.epoch
  let response ← ask action
  m.checkEpoch env opened.epoch
  let _ ← verify env opened.manifest obligations
  m.checkEpoch env opened.epoch
  return response

/-- `serve`, inside its handlers. -/
def serveOpen (opened : Option OpenRestore) : Restoring α := do
  let opened ← Op.lift (orRaise opened (.exception (operationsError "RESTORE_NOT_OPEN" "REPRESENTATION_NOT_READY")))
  m.checkEpoch env opened.epoch
  let journal ← DeletionJournalSnapshot.read env.toRestoreEnv opened.receipt.checkpoint
  let response ← m.gate.serve env.toRestoreEnv (m.materialise env action opened journal.obligations)
  m.checkEpoch env opened.epoch
  let _ ← m.record env "memoryRestore.served" "COMPLETED" "NONE" (some opened.receipt.manifestDigest)
  m.checkEpoch env opened.epoch
  return response

/-- `serve`: any failure closes the boundary. -/
def serve : Restoring α := do
  let s ← Op.read
  Op.guarded (m.serveOpen env action s.own.owner) fun why => do
    setOpen none
    match why with
    | .interrupt => Op.raise .interrupt
    | .exception e => do
      m.denied env "memoryRestore.serve" e (s.own.owner.map fun opened => opened.receipt.manifestDigest)
      Op.raise (.exception (if isRestoreRefusal e then e
        else operationsError "RESTORE_INVENTORY_UNAVAILABLE" "CONTROL_PLANE_UNAVAILABLE"))

end Serve

end MemoryRestoreGate
end OcorRuntime.Memory

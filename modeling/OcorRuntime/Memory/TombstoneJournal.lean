import OcorRuntime.Memory.ChainedJournal
import OcorRuntime.Memory.Stores

/-! The tombstone stores of `memory/lifecycle.py`: the in-memory one, with its entries by
item and the highest epoch, and the journal over it, whose lines are checked again when
they are read back. -/
namespace OcorRuntime.Memory
open Canonical Kernel
set_option autoImplicit false
set_option maxHeartbeats 250000

/-! ## Entries read back -/

/-- `TombstoneCorrupted`. -/
def tombstoneCorrupted (message : String) (args : List ErrorArg) : PyError :=
  memoryError .lifecycle "INTERNAL_ERROR" "TOMBSTONE_JOURNAL_CORRUPTED" message args

/-- `type(value).__name__`. -/
def typeName : PyValue → String
  | .none => "NoneType"
  | .bool _ => "bool"
  | .int _ => "int"
  | .float _ => "float"
  | .str _ => "str"
  | .list _ => "list"
  | .tuple _ => "tuple"
  | .mapping _ => "dict"
  | .other name => name

/-- `iter(value)`. -/
def iterated : PyValue → Except PyError (List PyValue)
  | .list items | .tuple items => .ok items
  | .str s => .ok (s.map fun c => .str [c])
  | .mapping es => .ok (es.map fun e => match e.1 with | .str key => .str key | .other _ => .other "")
  | value => .error ⟨.typeError, "'%s' object is not iterable", [.text (py (typeName value))]⟩

def isList : PyValue → Bool
  | .list _ => true
  | _ => false

def text? : PyValue → Option PyStr
  | .str s => some s
  | _ => none

/-- `_string`. -/
def stringMember (field : String) : PyValue → Except PyError PyStr
  | .str (c :: s) => .ok (c :: s)
  | _ => .error (schemaError "FIELD_INVALID" "%s must be a non-empty string" [.text (py field)])

/-- `tuple(str(v) for v in value)`, where the list of them is `value`: `str` changes every member that is no text, and
a list equals no other container. -/
def textsMember (value : PyValue) : Except PyError (Option (List PyStr)) := do
  let items ← iterated value
  return if isList value then items.mapM text? else none

/-- `n, c = item`. -/
def unpacked (item : PyValue) : Except PyError (PyValue × PyValue) :=
  match iterated item with
  | .error _ => .error ⟨.typeError, "cannot unpack non-iterable %s object", [.text (py (typeName item))]⟩
  | .ok [n, c] => .ok (n, c)
  | .ok items =>
    if 2 < items.length then .error ⟨.valueError, "too many values to unpack (expected 2)", []⟩
    else .error ⟨.valueError, "not enough values to unpack (expected 2, got %d)", [.int items.length]⟩

/-- `(str(n), c)`, where `[str(n), c]` is the item. -/
def countMember (item : PyValue) : Except PyError (Option (PyStr × PyValue)) := do
  let (n, c) ← unpacked item
  return if isList item then (text? n).map fun name => (name, c) else none

/-- `tuple((str(n), c) for n, c in value)`, where the list of them is `value`. -/
def countsMember (value : PyValue) : Except PyError (Option (List (PyStr × PyValue))) := do
  let items ← iterated value
  let counts ← items.mapM countMember
  return if isList value then counts.mapM id else none

/-- `PHASES`. -/
def TombstonePhase.ofValue? (text : PyStr) : Option TombstonePhase :=
  [TombstonePhase.started, .incomplete, .completed].find? fun phase => py phase.value = text

/-- An integer that is no boolean and not below `minimum`. -/
def counter? (minimum : ℤ) : PyValue → Option ℕ
  | .int n => if minimum ≤ n then some n.toNat else none
  | _ => none

/-- `TOMBSTONE_FIELDS`. -/
def tombstoneFields : List String :=
  ["memory_item_id", "tenant_id", "partition_digests", "version_refs", "deletion_epoch", "phase", "reason_code",
    "operation_id", "participants", "residue_counts", "retained_shared_objects", "at"]

/-- The members as `from_mapping` reads them, before they are compared with the mapping. -/
structure TombstoneMembers where
  memoryItemId : PyStr
  tenantId : PyStr
  partitionDigests : Option (List PyStr)
  versionRefs : Option (List PyStr)
  deletionEpoch : PyValue
  phase : PyStr
  reasonCode : PyStr
  operationId : PyStr
  participants : Option (List PyStr)
  residueCounts : Option (List (PyStr × PyValue))
  retainedSharedObjects : PyValue
  stamp : PyStr

def tombstoneMembers (es : List (MappingKey × PyValue)) : Except PyError TombstoneMembers := do
  let memoryItemId ← stringMember "memory_item_id" (memberOf es "memory_item_id")
  let tenantId ← stringMember "tenant_id" (memberOf es "tenant_id")
  let partitionDigests ← textsMember (memberOf es "partition_digests")
  let versionRefs ← textsMember (memberOf es "version_refs")
  let phase ← stringMember "phase" (memberOf es "phase")
  let reasonCode ← stringMember "reason_code" (memberOf es "reason_code")
  let operationId ← stringMember "operation_id" (memberOf es "operation_id")
  let participants ← textsMember (memberOf es "participants")
  let residueCounts ← countsMember (memberOf es "residue_counts")
  let stamp ← stringMember "at" (memberOf es "at")
  return { memoryItemId, tenantId, partitionDigests, versionRefs, phase, reasonCode, operationId, participants,
           residueCounts, stamp, deletionEpoch := memberOf es "deletion_epoch"
           retainedSharedObjects := memberOf es "retained_shared_objects" }

/-- The members are those of the mapping, and the phase is one of the phases. -/
def TombstoneMembers.entry? (m : TombstoneMembers) :
    Option (List PyStr × List PyStr × List PyStr × List (PyStr × PyValue) × TombstonePhase) := do
  let partitionDigests ← m.partitionDigests
  let versionRefs ← m.versionRefs
  let participants ← m.participants
  let residueCounts ← m.residueCounts
  let phase ← TombstonePhase.ofValue? m.phase
  return (partitionDigests, versionRefs, participants, residueCounts, phase)

/-- `TombstoneEntry.from_mapping`. -/
def TombstoneEntry.fromMapping (value : PyValue) : Except PyError TombstoneEntry :=
  match value with
  | .mapping es => do
    refuseIf (¬ HasKeys tombstoneFields es) (tombstoneCorrupted "tombstone entry is not a closed record" [])
    let m ← (tombstoneMembers es).mapError fun exc =>
      tombstoneCorrupted ("tombstone entry does not re-validate: " ++ exc.message) exc.args
    let (partitionDigests, versionRefs, participants, residueCounts, phase) ←
      orRaise m.entry? (tombstoneCorrupted "tombstone entry has invalid members" [])
    let invalid := tombstoneCorrupted "tombstone counters are invalid" []
    let deletionEpoch ← orRaise (counter? 1 m.deletionEpoch) invalid
    let retainedSharedObjects ← orRaise (counter? 0 m.retainedSharedObjects) invalid
    let residueCounts ← orRaise (residueCounts.mapM fun count => (counter? 1 count.2).map fun n => (count.1, n)) invalid
    return { memoryItemId := m.memoryItemId, tenantId := m.tenantId, partitionDigests, versionRefs, deletionEpoch, phase,
             reasonCode := m.reasonCode, operationId := m.operationId, participants, residueCounts,
             retainedSharedObjects, stamp := m.stamp }
  | _ => .error (tombstoneCorrupted "tombstone entry is not a closed record" [])

/-! ## The in-memory store -/

structure InMemoryTombstoneStore where
  items : Dict PyStr (List TombstoneEntry)
  latest : ℕ

namespace InMemoryTombstoneStore

def empty : InMemoryTombstoneStore := ⟨.empty, 0⟩

def entries (m : InMemoryTombstoneStore) (memoryItemId : PyStr) : List TombstoneEntry :=
  (m.items.get? memoryItemId).getD []

def latestEpoch (m : InMemoryTombstoneStore) : ℕ := m.latest

/-- `_epoch_conflict(entry, latest, items)`, of the history of the entry's item. -/
def epochConflict (entry : TombstoneEntry) (latest : ℕ) (history : List TombstoneEntry) : Option String :=
  if entry.phase = .started ∧ entry.deletionEpoch ≠ latest + 1 ∧
      ¬ ∃ e ∈ history, e.deletionEpoch = entry.deletionEpoch then
    some "a new saga must reserve the next deletion epoch"
  else if entry.phase ≠ .started ∧ ¬ ∃ e ∈ history, e.deletionEpoch = entry.deletionEpoch ∧ e.phase = .started then
    some "a saga outcome needs its STARTED entry"
  else if ∃ e ∈ history, e.phase = .completed then
    some "a completed tombstone is terminal"
  else
    none

/-- What an append of the entry is refused with. -/
def conflict (entry : TombstoneEntry) (m : InMemoryTombstoneStore) : Option PyError :=
  (epochConflict entry m.latestEpoch (m.entries entry.memoryItemId)).map
    (memoryError .lifecycle "MEMORY_IDEMPOTENCY_CONFLICT" "DELETION_EPOCH_CONFLICT")

def insert (entry : TombstoneEntry) (m : InMemoryTombstoneStore) : InMemoryTombstoneStore where
  items := m.items.set entry.memoryItemId (m.entries entry.memoryItemId ++ [entry])
  latest := max m.latest entry.deletionEpoch

def append (entry : TombstoneEntry) : Op InMemoryTombstoneStore PyError Unit := fun m =>
  match conflict entry m with
  | some error => (.error error, m)
  | none => (.ok (), m.insert entry)

end InMemoryTombstoneStore

/-! ## The journal -/

/-- `JournalTombstoneStore`. -/
def tombstoneJournal : JournalKind TombstoneEntry InMemoryTombstoneStore where
  field := "entry"
  corrupted := tombstoneCorrupted
  toMapping := TombstoneEntry.toMapping
  fromMapping := TombstoneEntry.fromMapping
  verify _ := .ok ()
  conflict := InMemoryTombstoneStore.conflict
  insert := InMemoryTombstoneStore.insert
  violation := "journal violates the epoch order: "

end OcorRuntime.Memory

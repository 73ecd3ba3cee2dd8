import OcorRuntime.Kernel.Governance
import OcorRuntime.Kernel.Timestamps
import OcorRuntime.Memory.TombstoneJournal

/-! The restore side of the tombstone journal (`memory/deletion.py`): the checkpoint of a
journal, the decoder that validates it once more, and the obligations a restore has to
meet. -/
namespace OcorRuntime.Memory
open Canonical Kernel
set_option autoImplicit false
set_option maxHeartbeats 250000

/-- `DeletionRecoveryError(code)`. -/
def recoveryError (code : String) : PyError := ⟨.recoveryError code, code, []⟩

/-! ## Checkpoints -/

/-- What `DeletionJournalCheckpoint.__post_init__` requires. -/
def CheckpointValid (sequence : ℕ) (head : PyStr) (deletionEpoch : ℕ) : Prop :=
  deletionEpoch ≤ sequence ∧ IsDigest head ∧ (sequence = 0 → head = genesis ∧ deletionEpoch = 0) ∧
    (0 < sequence → head ≠ genesis ∧ deletionEpoch ≠ 0)

instance (sequence : ℕ) (head : PyStr) (deletionEpoch : ℕ) : Decidable (CheckpointValid sequence head deletionEpoch) :=
  inferInstanceAs (Decidable (_ ∧ _))

structure DeletionJournalCheckpoint where
  sequence : ℕ
  head : PyStr
  deletionEpoch : ℕ
  valid : CheckpointValid sequence head deletionEpoch
deriving DecidableEq

namespace DeletionJournalCheckpoint

def make (sequence : ℕ) (head : PyStr) (deletionEpoch : ℕ) : Except PyError DeletionJournalCheckpoint :=
  if valid : CheckpointValid sequence head deletionEpoch then .ok ⟨sequence, head, deletionEpoch, valid⟩
  else .error (recoveryError "CHECKPOINT_INVALID")

def toMapping (c : DeletionJournalCheckpoint) : PyValue :=
  fields [("sequence", some (.int c.sequence)), ("head", some (.str c.head)),
    ("deletion_epoch", some (.int c.deletionEpoch))]

def digest (c : DeletionJournalCheckpoint) : PyStr := canonicalDigest c.toMapping

end DeletionJournalCheckpoint

/-! ## The shape of an entry -/

/-- The zeros of the decimal digits `int` reads (Unicode category Nd). -/
def decimalZeros : List ℕ :=
  [0x30, 0x660, 0x6F0, 0x7C0, 0x966, 0x9E6, 0xA66, 0xAE6, 0xB66, 0xBE6, 0xC66, 0xCE6, 0xD66, 0xDE6, 0xE50, 0xED0, 0xF20,
    0x1040, 0x1090, 0x17E0, 0x1810, 0x1946, 0x19D0, 0x1A80, 0x1A90, 0x1B50, 0x1BB0, 0x1C40, 0x1C50, 0xA620, 0xA8D0,
    0xA900, 0xA9D0, 0xA9F0, 0xAA50, 0xABF0, 0xFF10, 0x104A0, 0x10D30, 0x11066, 0x110F0, 0x11136, 0x111D0, 0x112F0,
    0x11450, 0x114D0, 0x11650, 0x116C0, 0x11730, 0x118E0, 0x11950, 0x11C50, 0x11D50, 0x11DA0, 0x11F50, 0x16A60, 0x16AC0,
    0x16B50, 0x1D7CE, 0x1D7D8, 0x1D7E2, 0x1D7EC, 0x1D7F6, 0x1E140, 0x1E2F0, 0x1E4F0, 0x1E950, 0x1FBF0]

def decimalDigit? (c : CodePoint) : Option ℕ :=
  (decimalZeros.find? fun zero => zero ≤ c.val ∧ c.val < zero + 10).map fun zero => c.val - zero

/-- `int(text)` of a text with `text.isdigit()`: a digit that is no decimal, or too many digits, is a `ValueError`. -/
def versionNumber? (text : PyStr) : Option ℕ :=
  if text = [] ∨ 4300 < text.length then none
  else (text.mapM decimalDigit?).map fun digits => digits.foldl (fun acc d => acc * 10 + d) 0

/-- `f"urn:ocor:memory:{memory_item_id}:v"`. -/
def versionRefStem (memoryItemId : PyStr) : PyStr := py "urn:ocor:memory:" ++ memoryItemId ++ py ":v"

/-- The reference names a version of the item, from 1 on. -/
def namesVersion (memoryItemId ref : PyStr) : Bool :=
  (versionRefStem memoryItemId).isPrefixOf ref &&
    match versionNumber? (ref.drop (versionRefStem memoryItemId).length) with
    | some n => 1 ≤ n
    | none => false

/-- `[a-z][a-z0-9-]*`. -/
def isParticipantName : PyStr → Bool
  | [] => false
  | c :: rest =>
    (0x61 ≤ c.val && c.val ≤ 0x7A) &&
      rest.all fun c => (0x61 ≤ c.val && c.val ≤ 0x7A) || (0x30 ≤ c.val && c.val ≤ 0x39) || c.val == 0x2D

/-- What `_validate_entry` requires of an entry alone. -/
structure WellShaped (entry : TombstoneEntry) : Prop where
  groups : ∀ values ∈ [entry.partitionDigests, entry.versionRefs, entry.participants], values ≠ [] ∧ values.Nodup
  partitions : ∀ digest ∈ entry.partitionDigests, IsDigest digest
  versions : (entry.versionRefs.all fun ref => namesVersion entry.memoryItemId ref) = true
  participants : (entry.participants.all fun name => isParticipantName name) = true
  counts : (entry.residueCounts.map Prod.fst).Nodup ∧ ∀ count ∈ entry.residueCounts, count.1 ∈ entry.participants
  completed : entry.phase = .completed → entry.residueCounts = []

instance (entry : TombstoneEntry) : Decidable (WellShaped entry) :=
  decidable_of_iff
    ((∀ values ∈ [entry.partitionDigests, entry.versionRefs, entry.participants], values ≠ [] ∧ values.Nodup) ∧
      (∀ digest ∈ entry.partitionDigests, IsDigest digest) ∧
      (entry.versionRefs.all fun ref => namesVersion entry.memoryItemId ref) = true ∧
      (entry.participants.all fun name => isParticipantName name) = true ∧
      ((entry.residueCounts.map Prod.fst).Nodup ∧ ∀ count ∈ entry.residueCounts, count.1 ∈ entry.participants) ∧
      (entry.phase = .completed → entry.residueCounts = []))
    ⟨fun ⟨a, b, c, d, e, f⟩ => ⟨a, b, c, d, e, f⟩, fun ⟨a, b, c, d, e, f⟩ => ⟨a, b, c, d, e, f⟩⟩

/-- What it requires of an entry after the last one of its item. -/
def Continues (prior entry : TombstoneEntry) : Prop :=
  entry.tenantId = prior.tenantId ∧ entry.deletionEpoch = prior.deletionEpoch ∧
    prior.partitionDigests ⊆ entry.partitionDigests ∧ prior.versionRefs ⊆ entry.versionRefs ∧
    entry.participants = prior.participants

instance (prior entry : TombstoneEntry) : Decidable (Continues prior entry) := inferInstanceAs (Decidable (_ ∧ _))

/-- `_validate_entry`. -/
def validateEntry (entry : TombstoneEntry) (prior : Option TombstoneEntry) : Except PyError Unit := do
  refuseIf (isUtcTimestamp entry.stamp = false)
    (⟨.foreign "TimestampError", "timestamp must be canonical RFC 3339 UTC with Z suffix", []⟩ : PyError)
  refuseIf (¬ WellShaped entry) (recoveryError "JOURNAL_CORRUPTED")
  refuseIf (∃ p ∈ prior, ¬ Continues p entry) (recoveryError "JOURNAL_CORRUPTED")

/-! ## Snapshots -/

structure DeletionJournalSnapshot where
  checkpoint : DeletionJournalCheckpoint
  entries : List TombstoneEntry

/-- What the decoder carries from line to line. -/
structure DecodeState where
  entries : List TombstoneEntry
  previous : PyStr
  memory : InMemoryTombstoneStore
  history : Dict PyStr TombstoneEntry

namespace DeletionJournalSnapshot

/-- `obligations`: the latest entry of each item, by epoch and item. -/
def obligations (s : DeletionJournalSnapshot) : List TombstoneEntry :=
  let latest := s.entries.foldl (fun latest entry => latest.set entry.memoryItemId entry) (Dict.empty : Dict PyStr TombstoneEntry)
  latest.values.insertionSort fun e f => e.deletionEpoch < f.deletionEpoch ∨
    e.deletionEpoch = f.deletionEpoch ∧ e.memoryItemId ≤ f.memoryItemId

def start : DecodeState := ⟨[], genesis, .empty, .empty⟩

/-- The entry and the digest of one line. -/
def decodeLine (previous : PyStr) (sequence : ℕ) (line : Bytes) : Except PyError (TombstoneEntry × PyStr) := do
  let corrupted := recoveryError "JOURNAL_CORRUPTED"
  let value ← loadIJson (.bytes line)
  match value with
  | .mapping es =>
    refuseIf (¬ HasKeys ["seq", "prev", "entry", "entry_digest"] es) corrupted
    refuseIf (memberOf es "seq" ≠ .int sequence ∨ memberOf es "prev" ≠ .str previous) corrupted
    let bytes ← canonicalize value
    refuseIf (bytes ≠ line) corrupted
    let given ← orRaise (text? (memberOf es "entry_digest")) corrupted
    let digest ← digestOf (tombstoneJournal.body (.int sequence) (.str previous) (memberOf es "entry"))
    let same ← compareDigest digest (.str given)
    refuseIf (same = false) corrupted
    let entry ← TombstoneEntry.fromMapping (memberOf es "entry")
    return (entry, digest)
  | _ => .error corrupted

/-- One turn of the loop of `_decode_checked`. -/
def decodeStep (s : DecodeState) (line : Bytes) : Except PyError DecodeState := do
  let (entry, digest) ← decodeLine s.previous (s.entries.length + 1) line
  validateEntry entry (s.history.get? entry.memoryItemId)
  -- the same epoch and terminal rules as the writer
  match InMemoryTombstoneStore.conflict entry s.memory with
  | some error => .error error
  | none =>
    return { entries := s.entries ++ [entry], previous := digest, memory := s.memory.insert entry
             history := s.history.set entry.memoryItemId entry }

def decodeLines (s : DecodeState) (lines : List Bytes) : Except PyError DecodeState := lines.foldlM decodeStep s

/-- `_decode_checked`. -/
def decodeChecked (data : Bytes) : Except PyError DeletionJournalSnapshot := do
  refuseIf (data ≠ [] ∧ data.getLast? ≠ some lineFeed) (recoveryError "JOURNAL_CORRUPTED")
  let s ← decodeLines start (splitLines data)
  let checkpoint ← DeletionJournalCheckpoint.make s.entries.length s.previous s.memory.latestEpoch
  return ⟨checkpoint, s.entries⟩

/-- `isinstance(error, DeletionRecoveryError)`. -/
def isRecoveryError (error : PyError) : Bool :=
  match error.cls with
  | .recoveryError _ => true
  | _ => false

/-- `_decode`. -/
def decode (data : Bytes) : Except PyError DeletionJournalSnapshot :=
  (decodeChecked data).mapError fun error => if isRecoveryError error then error else recoveryError "JOURNAL_CORRUPTED"

end DeletionJournalSnapshot

end OcorRuntime.Memory

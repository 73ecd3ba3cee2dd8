import OcorRuntime.Foundations.Asking
import OcorRuntime.Memory.DeletionJournal

/-! The closed restore boundary of the deletion journal (`memory/deletion.py`): tombstones are
purged and inventoried under an authenticated checkpoint, and a response is given out only
between two clean inventories. The authority, the journal, the participants and the audit
sink may answer differently at every call. -/
namespace OcorRuntime.Memory
open Canonical Kernel
set_option autoImplicit false
set_option maxHeartbeats 250000

/-- `RECOVERY_POINT_PATTERN`. -/
def IsRecoveryPoint (value : PyStr) : Prop :=
  value.length = 88 ∧ value.take 24 = py "urn:ocor:recovery-point:" ∧ (value.drop 24).all isHex

instance (value : PyStr) : Decidable (IsRecoveryPoint value) := inferInstanceAs (Decidable (_ ∧ _ ∧ _))

/-- What the recovery audit sink is given. -/
structure RecoveryEvent where
  action : String
  outcome : String
  reasonCode : String
  recoveryPointDigest : PyStr
  checkpointDigest : Option PyStr
  tombstoneRef : Option PyStr
  stamp : PyStr

/-- What the ports of a restore answer, by the number of the call. -/
structure RestoreEnv where
  /-- `authority.current()`; `none` for an answer that is no checkpoint. -/
  current : ℕ → Except Raised (Option DeletionJournalCheckpoint)
  /-- The bytes of the journal on disk. -/
  journal : ℕ → Except Raised Bytes
  purge : ℕ → PyStr → TombstoneEntry → Except Raised Unit
  /-- `none` for an answer that is no tuple. -/
  residue : ℕ → PyStr → TombstoneEntry → Except Raised (Option (List PyStr))
  audit : ℕ → RecoveryEvent → Except Raised Unit
  clock : ℕ → Instant

/-- The composition of a `DeletionRestoreGate`; a participant is known by its name. -/
structure DeletionRestoreGate where
  participants : List PyStr
  recoveryPoint : PyStr
  /-- A recovery audit sink is configured. -/
  audited : Bool
  named : participants ≠ [] ∧ participants.Nodup ∧ (participants.all fun name => isParticipantName name) = true
  pointed : IsRecoveryPoint recoveryPoint

/-- What the gate keeps, with what its owner keeps. -/
structure GateState (ρ : Type) where
  snapshot : Option DeletionJournalSnapshot
  /-- The last checkpoint of the authority, for the evidence. -/
  authenticated : Option DeletionJournalCheckpoint
  owner : ρ

/-- The gate at rest, not reconciled. -/
def GateState.closed {ρ : Type} (owner : ρ) : GateState ρ := ⟨none, none, owner⟩

abbrev Gated (ρ α : Type) := Op (Asking (GateState ρ)) Raised α

structure DeletionReconciliationReceipt where
  checkpoint : DeletionJournalCheckpoint
  obligations : ℕ

section
variable {ρ α : Type}

/-- `except DeletionRecoveryError: raise`, then `except Exception: raise DeletionRecoveryError(code)`. -/
def orRecovery (code : String) (x : Gated ρ α) : Gated ρ α :=
  Op.guarded x fun why =>
    match why with
    | .interrupt => Op.raise .interrupt
    | .exception e =>
      Op.raise (.exception (if DeletionJournalSnapshot.isRecoveryError e then e else recoveryError code))

/-- The check that raises a recovery error. -/
def recoveryCheck (bad : Prop) [Decidable bad] (code : String) : Gated ρ Unit :=
  Op.lift (refuseIf bad (.exception (recoveryError code)))

/-- `DeletionJournalSnapshot.read`. -/
def DeletionJournalSnapshot.read (env : RestoreEnv) (expected : DeletionJournalCheckpoint) :
    Gated ρ DeletionJournalSnapshot := do
  let snapshot ← orRecovery "JOURNAL_UNAVAILABLE" do
    let data ← ask env.journal
    Op.lift ((DeletionJournalSnapshot.decode data).mapError .exception)
  recoveryCheck (snapshot.checkpoint ≠ expected) "CHECKPOINT_MISMATCH"
  return snapshot

/-- `_RECOVERY_DENIAL_REASONS`. -/
def recoveryDenialReasons : List String :=
  ["CHECKPOINT_INVALID", "JOURNAL_UNAVAILABLE", "JOURNAL_CORRUPTED", "CHECKPOINT_MISMATCH", "CHECKPOINT_UNAUTHENTICATED",
    "DELETION_AUTHORITY_UNAVAILABLE", "RECOVERY_POINT_MISMATCH", "RESTORE_METADATA_CONFLICT", "DELETION_SOURCE_INCOMPLETE",
    "DELETION_SOURCE_MISMATCH", "RESTORE_BINDING_MISMATCH", "DELETION_INVENTORY_UNAVAILABLE", "DELETION_INCOMPLETE",
    "DELETION_PARTICIPANT_MISSING", "RESTORE_NOT_RECONCILED", "RECOVERY_UNAVAILABLE"]

/-- The reason code of a denial. -/
def denialReason (error : PyError) : String :=
  match error.cls with
  | .recoveryError code => if code ∈ recoveryDenialReasons then code else "RECOVERY_REJECTED"
  | _ => "RECOVERY_UNAVAILABLE"

namespace DeletionRestoreGate
variable (gate : DeletionRestoreGate) (env : RestoreEnv)

/-- `_RecoveryDenials._record`; a sink that is missing or fails acknowledges nothing. -/
def record (action outcome reasonCode : String) : Gated ρ Unit := fun s =>
  let event : RecoveryEvent :=
    { action, outcome, reasonCode, recoveryPointDigest := canonicalDigest (.str gate.recoveryPoint),
      checkpointDigest := s.own.authenticated.map DeletionJournalCheckpoint.digest, tombstoneRef := none,
      stamp := formatUtcTimestamp (env.clock s.calls) }
  Op.guarded
    (if gate.audited then ask fun n => env.audit n event
      else Op.raise (.exception ⟨.runtimeError, "recovery audit authority is not configured", []⟩))
    (fun why =>
      match why with
      | .interrupt => Op.raise .interrupt
      | .exception _ => Op.raise (.exception (recoveryError "AUDIT_UNAVAILABLE"))) s

/-- `_RecoveryDenials.guard` over a boundary: an access is recorded before, a refusal after. -/
def guard (boundary : String) (x : Gated ρ α) : Gated ρ α := do
  gate.record env (boundary ++ ".attempted") "ATTEMPTED" "RECOVERY_ACCESS"
  Op.guarded x fun why =>
    match why with
    | .interrupt => Op.raise .interrupt
    | .exception e => do
      if e.cls = .recoveryError "AUDIT_UNAVAILABLE" then
        Op.raise (.exception e)
      else do
        gate.record env (boundary ++ ".denied") "DENIED" (denialReason e)
        Op.raise (.exception e)

/-- `_checkpoint`. -/
def checkpoint : Gated ρ DeletionJournalCheckpoint := do
  let answer ← orRecovery "DELETION_AUTHORITY_UNAVAILABLE" (ask env.current)
  let checkpoint ← Op.lift (orRaise answer (.exception (recoveryError "CHECKPOINT_INVALID")))
  Op.update fun s => { s with own := { s.own with authenticated := some checkpoint } }
  return checkpoint

/-- `_validate_participants`. -/
def validateParticipants (snapshot : DeletionJournalSnapshot) : Gated ρ Unit :=
  recoveryCheck (∃ entry ∈ snapshot.obligations, ¬ entry.participants ⊆ gate.participants) "DELETION_PARTICIPANT_MISSING"

/-- One participant's inventory of one tombstone: unreadable is not empty. -/
def inventory (entry : TombstoneEntry) (name : PyStr) : Gated ρ Unit := do
  let residue ← orRecovery "DELETION_INVENTORY_UNAVAILABLE" (ask fun n => env.residue n name entry)
  recoveryCheck (residue ≠ some []) "DELETION_INCOMPLETE"

/-- `_check`. -/
def check (snapshot : DeletionJournalSnapshot) : Gated ρ Unit := do
  let expected ← checkpoint env
  recoveryCheck (expected ≠ snapshot.checkpoint) "CHECKPOINT_MISMATCH"
  let _ ← DeletionJournalSnapshot.read env expected
  gate.validateParticipants snapshot
  snapshot.obligations.forM fun entry => gate.participants.forM fun name => inventory env entry name
  -- A journal update during inventory cannot leave the old receipt valid.
  let again ← checkpoint env
  recoveryCheck (again ≠ expected) "CHECKPOINT_MISMATCH"

def setSnapshot (snapshot : Option DeletionJournalSnapshot) : Gated ρ Unit :=
  Op.update fun s => { s with own := { s.own with snapshot } }

/-- `reconcile`. -/
def reconcile : Gated ρ DeletionReconciliationReceipt := do
  setSnapshot none
  gate.guard env "deletionRestore.reconcile" do
    let expected ← checkpoint env
    let snapshot ← DeletionJournalSnapshot.read env expected
    gate.validateParticipants snapshot
    snapshot.obligations.forM fun entry => gate.participants.forM fun name =>
      orRecovery "DELETION_INCOMPLETE" (ask fun n => env.purge n name entry)
    gate.check env snapshot
    setSnapshot (some snapshot)
    return ⟨snapshot.checkpoint, snapshot.obligations.length⟩

/-- `serve`: the action runs between two checks, and any failure closes the gate. -/
def serve (action : Gated ρ α) : Gated ρ α :=
  Op.guarded
    (gate.guard env "deletionRestore.serve" do
      let s ← Op.read
      let snapshot ← Op.lift (orRaise s.own.snapshot (.exception (recoveryError "RESTORE_NOT_RECONCILED")))
      gate.check env snapshot
      let response ← action
      gate.check env snapshot
      return response)
    fun why => do
      setSnapshot none
      Op.raise why

end DeletionRestoreGate
end

end OcorRuntime.Memory

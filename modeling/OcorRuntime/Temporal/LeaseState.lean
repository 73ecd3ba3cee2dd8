import OcorRuntime.Kernel.LeaseConsumption

/-! The durable lease state: the workflow that serializes every update of one scope
(`c6/temporal_workflows.py`) and the port in front of it (`c6/temporal_adapter.py`). The workflow
compares instants as integer microseconds; when its history rolls over it starts again from its own
snapshot, which travels as a JSON document. -/
namespace OcorRuntime.Temporal
open Kernel
set_option autoImplicit false
set_option maxHeartbeats 250000

/-! ## The workflow -/

inductive RefusalType
  | stopEpochBackwards
  | fencingTokenInvalid
  | fencingTokenBackwards
  | leaseIdInvalid
  | consumeRequestInvalid
  | effectInvalid
  | effectConflict
deriving DecidableEq

/-- The `ApplicationError` of `_refuse`. -/
structure ApplicationError where
  type : RefusalType
  message : String
deriving DecidableEq

def refuse {α : Type} (reasonCode : RefusalType) (message : String) : Except ApplicationError α :=
  .error ⟨reasonCode, message⟩

/-- One entry of `_attempts`. -/
structure Attempt where
  leaseId : PyStr
  actionInstanceId : PyStr
  emissionAttempt : ℤ
  stopEpoch : ℤ
  fencingToken : ℤ
  evaluatedAt : PyStr
  outcome : LeaseStateOutcome
deriving DecidableEq

/-- The document a run of the workflow starts from; a new scope names neither of the last two. -/
structure Initial where
  stopEpoch : ℤ
  fencingTokens : Dict PyStr ℤ
  revokedLeaseIds : List PyStr
  consumed : Option (Dict PyStr (PyStr × ℤ)) := none
  attempts : Option (List Attempt) := none

structure ConsumeRequest where
  leaseId : PyStr
  actionInstanceId : PyStr
  stopEpoch : ℤ
  fencingToken : ℤ
  emissionAttempt : ℤ
  issuedAtUs : ℤ
  expiresAtUs : ℤ
  nowUs : ℤ
  evaluatedAt : PyStr

structure LeaseStateWorkflow where
  stopEpoch : ℤ
  tokens : Dict PyStr ℤ
  revoked : List PyStr
  consumed : Dict PyStr (PyStr × ℤ)
  attempts : List Attempt

namespace LeaseStateWorkflow

/-- `__init__`. -/
def init (initial : Initial) : LeaseStateWorkflow where
  stopEpoch := initial.stopEpoch
  tokens := initial.fencingTokens
  revoked := initial.revokedLeaseIds
  consumed := initial.consumed.getD .empty
  attempts := initial.attempts.getD []

/-- `_snapshot`. -/
def snapshot (w : LeaseStateWorkflow) : Initial where
  stopEpoch := w.stopEpoch
  fencingTokens := w.tokens
  revokedLeaseIds := w.revoked
  consumed := some w.consumed
  attempts := some w.attempts

/-- An update: what the validator refuses never reaches the handler. -/
def update {α : Type} (w : LeaseStateWorkflow) (validator : Except ApplicationError Unit)
    (handler : α × LeaseStateWorkflow) : Except ApplicationError α × LeaseStateWorkflow :=
  match validator with
  | .error refusal => (.error refusal, w)
  | .ok () => (.ok handler.1, handler.2)

def validateStopEpoch (w : LeaseStateWorkflow) (stopEpoch : ℤ) : Except ApplicationError Unit :=
  if stopEpoch < w.stopEpoch then refuse .stopEpochBackwards "stop_epoch cannot move backwards" else .ok ()

def setStopEpoch (w : LeaseStateWorkflow) (stopEpoch : ℤ) : Unit × LeaseStateWorkflow :=
  ((), { w with stopEpoch := stopEpoch })

def validateFencingToken (w : LeaseStateWorkflow) (actionInstanceId : PyStr) (fencingToken : ℤ) :
    Except ApplicationError Unit :=
  if actionInstanceId = [] ∨ fencingToken < 1 then
    refuse .fencingTokenInvalid "a valid action id and positive fencing token are required"
  else if ∃ current ∈ w.tokens.get? actionInstanceId, fencingToken < current then
    refuse .fencingTokenBackwards "fencing token cannot move backwards"
  else .ok ()

def setFencingToken (w : LeaseStateWorkflow) (actionInstanceId : PyStr) (fencingToken : ℤ) :
    Unit × LeaseStateWorkflow :=
  ((), { w with tokens := w.tokens.set actionInstanceId fencingToken })

def validateRevoke (leaseId : PyStr) : Except ApplicationError Unit :=
  if leaseId = [] then refuse .leaseIdInvalid "lease_id must be non-empty" else .ok ()

def revoke (w : LeaseStateWorkflow) (leaseId : PyStr) : Unit × LeaseStateWorkflow :=
  ((), if leaseId ∈ w.revoked then w else { w with revoked := w.revoked ++ [leaseId] })

def validateConsume (request : ConsumeRequest) : Except ApplicationError Unit :=
  if request.leaseId = [] ∨ request.actionInstanceId = [] then
    refuse .consumeRequestInvalid "lease and action identifiers are required"
  else .ok ()

/-- The entry `consume_if_current` appends for an outcome. -/
def attemptOf (request : ConsumeRequest) (outcome : LeaseStateOutcome) : Attempt :=
  ⟨request.leaseId, request.actionInstanceId, request.emissionAttempt, request.stopEpoch, request.fencingToken,
    request.evaluatedAt, outcome⟩

def outcomeOf (w : LeaseStateWorkflow) (request : ConsumeRequest) : LeaseStateOutcome :=
  if request.nowUs < request.issuedAtUs ∨ request.expiresAtUs ≤ request.nowUs then .expired
  else if request.leaseId ∈ w.revoked then .revoked
  else if request.stopEpoch ≠ w.stopEpoch then .stopEpochMismatch
  else if w.tokens.get? request.actionInstanceId ≠ some request.fencingToken then .fencingTokenStale
  else if (w.consumed.get? request.leaseId).isSome then .alreadyConsumed
  else .consumed

def consumeIfCurrent (w : LeaseStateWorkflow) (request : ConsumeRequest) : LeaseStateOutcome × LeaseStateWorkflow :=
  let outcome := w.outcomeOf request
  (outcome,
    { w with
      consumed :=
        if outcome = .consumed then w.consumed.set request.leaseId (request.actionInstanceId, request.emissionAttempt)
        else w.consumed
      attempts := w.attempts ++ [attemptOf request outcome] })

end LeaseStateWorkflow

/-- The SDK's JSON payload converter, on the documents this workflow is started with: a JSON object
arrives with the same members, in whatever order. -/
structure PayloadConverter where
  carry : Initial → Initial
  stopEpoch : ∀ i, (carry i).stopEpoch = i.stopEpoch
  fencingTokens : ∀ i, (carry i).fencingTokens.get? = i.fencingTokens.get?
  revokedLeaseIds : ∀ i, (carry i).revokedLeaseIds = i.revokedLeaseIds
  consumed : ∀ i, (carry i).consumed.map Dict.get? = i.consumed.map Dict.get?
  attempts : ∀ i, (carry i).attempts = i.attempts

/-- A converter that keeps the order too. -/
def PayloadConverter.ordered : PayloadConverter where
  carry := id
  stopEpoch := fun _ => rfl
  fencingTokens := fun _ => rfl
  revokedLeaseIds := fun _ => rfl
  consumed := fun _ => rfl
  attempts := fun _ => rfl

/-- The rollover at the end of `run`: the next run of the workflow starts from the snapshot. -/
def LeaseStateWorkflow.continueAsNew (converter : PayloadConverter) (w : LeaseStateWorkflow) : LeaseStateWorkflow :=
  init (converter.carry w.snapshot)

/-! ## The port -/

/-- `_stamp`: `strftime("%Y-%m-%dT%H:%M:%S.%fZ")` of the UTC instant. -/
def stamp (t : Instant) : PyStr :=
  strftimeDate t ++ py "T" ++ clockText t ++ py "." ++ padded 6 (t % 1000000).toNat ++ py "Z"

example : stamp 951827696500000 = py "2000-02-29T12:34:56.500000Z" := by decide

def adapterError (refusal : ApplicationError) : PyError := ⟨.temporalAdapterError, refusal.message, []⟩

namespace TemporalLeaseState
open LeaseStateWorkflow

/-- `TemporalLeaseState.create`, for a scope that does not exist yet. -/
def create (converter : PayloadConverter) (stopEpoch : ℤ) (fencingTokens : Dict PyStr ℤ)
    (revokedLeaseIds : List PyStr) : Except PyError LeaseStateWorkflow :=
  if stopEpoch < 0 then .error ⟨.valueError, "stop_epoch must be a non-negative integer", []⟩
  else if fencingTokens.entries.any fun entry => entry.1 = [] ∨ entry.2 < 1 then
    .error ⟨.valueError, "fencing tokens require action ids and positive integers", []⟩
  else if revokedLeaseIds.any fun leaseId => leaseId = [] then
    .error ⟨.valueError, "revoked lease ids must be a sequence of non-empty strings", []⟩
  else .ok (init (converter.carry ⟨stopEpoch, fencingTokens, revokedLeaseIds, none, none⟩))

/-- A refused update: `ValueError` for the one type the port translates, else the adapter's own error. -/
def translate (type : RefusalType) (message : String) :
    Except ApplicationError Unit × LeaseStateWorkflow → Except PyError Unit × LeaseStateWorkflow
  | (.ok (), w) => (.ok (), w)
  | (.error refusal, w) =>
    (.error (if refusal.type = type then ⟨.valueError, message, []⟩ else adapterError refusal), w)

def setStopEpoch (w : LeaseStateWorkflow) (stopEpoch : ℤ) : Except PyError Unit × LeaseStateWorkflow :=
  translate .stopEpochBackwards "stop_epoch cannot move backwards"
    (w.update (w.validateStopEpoch stopEpoch) (w.setStopEpoch stopEpoch))

def setFencingToken (w : LeaseStateWorkflow) (actionInstanceId : PyStr) (fencingToken : ℤ) :
    Except PyError Unit × LeaseStateWorkflow :=
  if actionInstanceId = [] ∨ fencingToken < 1 then
    (.error ⟨.valueError, "a valid action id and positive fencing token are required", []⟩, w)
  else
    translate .fencingTokenBackwards "fencing token cannot move backwards"
      (w.update (w.validateFencingToken actionInstanceId fencingToken) (w.setFencingToken actionInstanceId fencingToken))

def revoke (w : LeaseStateWorkflow) (leaseId : PyStr) : Except PyError Unit × LeaseStateWorkflow :=
  if leaseId = [] then (.error ⟨.valueError, "lease_id must be non-empty", []⟩, w)
  else
    match w.update (validateRevoke leaseId) (w.revoke leaseId) with
    | (.ok (), after) => (.ok (), after)
    | (.error refusal, after) => (.error (adapterError refusal), after)

def consumeIfCurrent (w : LeaseStateWorkflow) (clock : ClockReading) (leaseId actionInstanceId : PyStr)
    (stopEpoch fencingToken emissionAttempt : ℤ) (issuedAt expiresAt : Instant) :
    Except StateFailure LeaseStateDecision × LeaseStateWorkflow :=
  match clock with
  | .interrupted => (.error .interrupted, w)
  | .failed => (.error .failed, w)
  | .unavailable => (.ok ⟨.controlPlaneUnavailable, none⟩, w)
  | .now value =>
    match aware "authoritative now" value with
    | .error _ => (.ok ⟨.controlPlaneUnavailable, none⟩, w)
    | .ok now =>
      let request : ConsumeRequest :=
        ⟨leaseId, actionInstanceId, stopEpoch, fencingToken, emissionAttempt, issuedAt, expiresAt, now, stamp now⟩
      match w.update (validateConsume request) (w.consumeIfCurrent request) with
      | (.ok outcome, after) => (.ok ⟨outcome, some value⟩, after)
      | (.error _, after) => (.error .failed, after)

/-- `consumption`. -/
def consumption (w : LeaseStateWorkflow) (leaseId : PyStr) : Option (PyStr × ℤ) := w.consumed.get? leaseId

end TemporalLeaseState
end OcorRuntime.Temporal

import OcorRuntime.Events.Backbone
import OcorRuntime.Foundations.Run

/-! The operations coordinator of the backbone (`c5/operations.py`): a per-tenant quota, immutable dead
letters, the quarantine of events that keep failing, and replay. A publish is several steps, since
several run at once: admission and the attempt counter each under the lock, the backbone's own
publish, the dead letter, and the end of the call. -/
namespace OcorRuntime.Events
set_option autoImplicit false
set_option maxHeartbeats 250000

def poisonThreshold : ℕ := 3

inductive FailureClass
  | permanent
  | poison
deriving DecidableEq

structure DeadLetter where
  eventId : PyStr
  envelopeRaw : PyValue
  reasonCode : String
  failureClass : FailureClass
  recordedAt : ℤ
  attempts : ℕ
deriving DecidableEq

structure ReplayReceipt where
  eventId : PyStr
  windowReason : PyStr
deriving DecidableEq

/-- Where a call of `publish_with_backpressure` stands. -/
inductive Stage
  | started
  | counted (attempts : ℕ)
  | refused (attempts : ℕ) (reasonCode : String)
  | recorded (failureClass : FailureClass)
deriving DecidableEq

structure Publication where
  envelope : CanonicalIngestionEnvelope
  tenant : PyStr
  stage : Stage
deriving DecidableEq

structure EventOperationsCoordinator where
  backbone : CanonicalEventBackbone
  maxInFlightPerTenant : ℤ := 50
  inFlightByTenant : Dict PyStr ℤ := .empty
  deadLetters : List DeadLetter := []
  poisonedEventIds : List PyStr := []
  operatorReleasedEventIds : List PyStr := []
  attemptsByEventId : Dict PyStr ℕ := .empty
  /-- The calls under way. -/
  publications : List Publication := []

namespace EventOperationsCoordinator
variable (broker : Broker) (c : EventOperationsCoordinator)

def isPoisoned (eventId : PyStr) : Bool := decide (eventId ∈ c.poisonedEventIds)

/-- Admission, under the lock. -/
def start (envelope : CanonicalIngestionEnvelope) (tenant : PyStr) : Except EventError EventOperationsCoordinator :=
  let inFlight := (c.inFlightByTenant.get? tenant).getD 0
  if c.maxInFlightPerTenant ≤ inFlight then
    .error (.operations "BACKPRESSURE_EXCEEDED" "tenant %r is at its bounded in-flight quota of %d"
      [.text tenant, .int c.maxInFlightPerTenant])
  else .ok { c with
    inFlightByTenant := c.inFlightByTenant.set tenant (inFlight + 1)
    publications := c.publications ++ [⟨envelope, tenant, .started⟩] }

def setStage (index : ℕ) (stage : Stage) : EventOperationsCoordinator :=
  { c with publications := c.publications.modify index fun p => { p with stage } }

/-- The `finally` of a call. -/
def leave (index : ℕ) (p : Publication) : EventOperationsCoordinator :=
  { c with
    inFlightByTenant := c.inFlightByTenant.set p.tenant ((c.inFlightByTenant.get? p.tenant).getD 0 - 1)
    publications := c.publications.eraseIdx index }

/-- The attempt counter, under the lock. -/
def count (index : ℕ) (p : Publication) : EventOperationsCoordinator :=
  let attempts := (c.attemptsByEventId.get? p.envelope.eventId).getD 0 + 1
  { c with attemptsByEventId := c.attemptsByEventId.set p.envelope.eventId attempts }.setStage index (.counted attempts)

/-- The backbone's own publish; only its `BackboneError` is recorded. -/
def deliver (index : ℕ) (p : Publication) (attempts : ℕ) (replies : Replies) : EventOperationsCoordinator :=
  let (result, backbone) := publish broker p.envelope replies c.backbone
  let c := { c with backbone }
  match result with
  | .error (.backbone reasonCode _ _) => c.setStage index (.refused attempts reasonCode)
  | _ => c.leave index p

def failureClassOf (attempts : ℕ) : FailureClass := if poisonThreshold ≤ attempts then .poison else .permanent

def letterOf (envelope : CanonicalIngestionEnvelope) (attempts : ℕ) (reasonCode : String) (now : ℤ) : DeadLetter where
  eventId := envelope.eventId
  envelopeRaw := envelope.toMapping
  reasonCode := reasonCode
  failureClass := failureClassOf attempts
  recordedAt := now
  attempts := attempts

def record (index : ℕ) (p : Publication) (attempts : ℕ) (reasonCode : String) (now : ℤ) :
    EventOperationsCoordinator :=
  { c with deadLetters := c.deadLetters ++ [letterOf p.envelope attempts reasonCode now] }.setStage index
    (.recorded (failureClassOf attempts))

/-- The quarantine of a poison event, and the end of the call. -/
def conclude (index : ℕ) (p : Publication) : FailureClass → EventOperationsCoordinator
  | .poison => { c with poisonedEventIds := p.envelope.eventId :: c.poisonedEventIds }.leave index p
  | .permanent => c.leave index p

def releaseForOperatorReplay (eventId : PyStr) : Except EventError EventOperationsCoordinator :=
  if eventId ∈ c.poisonedEventIds then
    .ok { c with operatorReleasedEventIds := eventId :: c.operatorReleasedEventIds }
  else .error (.operations "NOT_POISONED" "%r is not in the poison quarantine" [.text eventId])

/-- The checks `replay` makes before it calls the backbone. -/
def replayedEnvelope (letter : DeadLetter) : Except EventError CanonicalIngestionEnvelope := do
  refuseIf (letter.failureClass = .poison ∧ letter.eventId ∉ c.operatorReleasedEventIds)
    (.operations "OPERATOR_GATE_CLOSED" "%r requires explicit operator release before replay" [.text letter.eventId])
  CanonicalIngestionEnvelope.fromMapping letter.envelopeRaw

def replay (letter : DeadLetter) (windowReason : PyStr) (replies : Replies) :
    Except EventError ReplayReceipt × EventOperationsCoordinator :=
  match c.replayedEnvelope letter with
  | .error error => (.error error, c)
  | .ok envelope =>
    let (result, backbone) := publish broker envelope replies c.backbone
    (result.map fun _ => ⟨letter.eventId, windowReason⟩, { c with backbone })

/-! ## Steps -/

inductive Action
  | start (envelope : CanonicalIngestionEnvelope) (tenant : PyStr)
  | count (index : ℕ)
  | deliver (index : ℕ) (replies : Replies)
  | record (index : ℕ) (now : ℤ)
  | conclude (index : ℕ)
  | release (eventId : PyStr)
  /-- The replay of a letter recorded so far. -/
  | replay (letter : ℕ) (windowReason : PyStr) (replies : Replies)

/-- One step; a call that is not where the step needs it, and one that raises, changes nothing. -/
def step : Action → EventOperationsCoordinator
  | .start envelope tenant => (c.start envelope tenant).toOption.getD c
  | .count index =>
    match c.publications[index]? with
    | some ⟨envelope, tenant, .started⟩ => c.count index ⟨envelope, tenant, .started⟩
    | _ => c
  | .deliver index replies =>
    match c.publications[index]? with
    | some ⟨envelope, tenant, .counted attempts⟩ =>
      c.deliver broker index ⟨envelope, tenant, .counted attempts⟩ attempts replies
    | _ => c
  | .record index now =>
    match c.publications[index]? with
    | some ⟨envelope, tenant, .refused attempts reasonCode⟩ =>
      c.record index ⟨envelope, tenant, .refused attempts reasonCode⟩ attempts reasonCode now
    | _ => c
  | .conclude index =>
    match c.publications[index]? with
    | some ⟨envelope, tenant, .recorded failureClass⟩ =>
      c.conclude index ⟨envelope, tenant, .recorded failureClass⟩ failureClass
    | _ => c
  | .release eventId => (c.releaseForOperatorReplay eventId).toOption.getD c
  | .replay letter windowReason replies =>
    match c.deadLetters[letter]? with
    | some letter => (c.replay broker letter windowReason replies).2
    | none => c

/-- The dead letter whose replay the step hands to the backbone. -/
def replayed : Action → Option DeadLetter
  | .replay letter _ _ =>
    match c.deadLetters[letter]? with
    | some letter => if (c.replayedEnvelope letter).isOk then some letter else none
    | none => none
  | _ => none

end EventOperationsCoordinator
end OcorRuntime.Events

import OcorRuntime.Capabilities.Authority
import OcorRuntime.Marking.Engine
import OcorRuntime.Store.Outbox

/-! The emission fence (`c7_emission.py`): what crosses to a sink must be committed
in the outbox, in version order, cleared and authorized. A fence shares its store
with other fences, so an operation takes the store, the fence and the sink calls
made so far, and returns what it leaves of them, also when it raises. A sink that
calls back into the fence or the store is not modelled. -/
namespace OcorRuntime.Emission
open Store Capabilities Marking
set_option autoImplicit false
set_option maxHeartbeats 250000

/-! ## Sinks -/

/-- One call of a sink, with what the sink returned or raised. -/
structure SinkCall where
  event : OutboxEvent
  answer : Except PyError PyValue

/-- A sink: its answer may depend on the calls made before. -/
inductive Sink
  /-- An object with an `emit(event, idempotency_key=...)` method. -/
  | object (emit : List SinkCall → OutboxEvent → PyStr → Except PyError PyValue)
  | function (call : List SinkCall → OutboxEvent → Except PyError PyValue)
  | notCallable

/-- `_call_sink`. -/
def callSink (sink : Sink) (calls : List SinkCall) (event : OutboxEvent) : Except PyError PyValue × List SinkCall :=
  match sink with
  | .object emit =>
    (emit calls event event.idempotencyKey, calls ++ [⟨event, emit calls event event.idempotencyKey⟩])
  | .function call => (call calls event, calls ++ [⟨event, call calls event⟩])
  | .notCallable =>
    (.error ⟨.typeError, "sink must be callable or provide emit(event, idempotency_key=...)", []⟩, calls)

/-! ## The fence -/

structure EmissionReceipt where
  eventId : PyStr
  aggregateId : PyStr
  aggregateVersion : ℕ
  emittedAt : Instant
  sinkResult : PyValue := .none
  deduplicated : Bool := false
deriving DecidableEq

structure EmissionFence where
  /-- Whether the fence was given a store. -/
  storeBound : Bool
  capabilityAuthority : Option CapabilityAuthority
  requireCapability : Bool
  markingEngine : Option MarkingEngine
  registered : Dict PyStr OutboxEvent
  receipts : Dict PyStr EmissionReceipt
  lastVersion : Dict PyStr ℕ

/-- The arguments of `emit` and `drain` besides the event; of a presented lease only its identifier is read. -/
structure EmitRequest where
  sink : Sink
  instant : DateTime
  leaseId : Option PyStr := none
  subject : Option PyStr := none
  markings : Option MarkingSet := none
  clearance : Option MarkingSet := none
  /-- What the stop controller of the capability authority answers during the call. -/
  stop : StopEpochAuthority := ⟨0, [], fun _ => .ok ()⟩

def emissionBlocked (message : String) : PyError := ⟨.emissionBlocked, message, []⟩

namespace EmissionFence

/-- `EmissionFence(store=..., capability_authority=..., require_capability=..., marking_engine=...)`. -/
def create (storeBound : Bool) (capabilityAuthority : Option CapabilityAuthority) (requireCapability : Bool)
    (markingEngine : Option MarkingEngine) : Except PyError EmissionFence :=
  if requireCapability ∧ capabilityAuthority.isNone then
    .error ⟨.valueError, "a capability authority is required by this fence", []⟩
  else .ok ⟨storeBound, capabilityAuthority, requireCapability, markingEngine, .empty, .empty, .empty⟩

/-- `_last_version.get(aggregate_id, 0)`. -/
def last (f : EmissionFence) (aggregateId : PyStr) : ℕ := (f.lastVersion.get? aggregateId).getD 0

/-! ## Registration -/

/-- The record an event stands for: the durable one, or the event itself without a store. -/
def durableRecord (f : EmissionFence) (store : AtomicOutboxStore) (event : OutboxEvent) : Except PyError OutboxEvent :=
  if f.storeBound then
    match store.getEvent event.eventId with
    | none => .error (emissionBlocked "event is not present in the durable outbox")
    | some durable =>
      if OutboxEvent.pyEq { event with emittedAt := durable.emittedAt } durable then .ok durable
      else .error (emissionBlocked "event does not match its durable outbox record")
  else .ok event

/-- The checks of `register`. -/
def admissible (f : EmissionFence) (store : AtomicOutboxStore) (event : OutboxEvent) : Except PyError OutboxEvent := do
  let event ← f.durableRecord store event
  if event.committed = false then .error (emissionBlocked "EMISSION-FENCE rejected an uncommitted event")
  else do
    let intact ← event.verifyIntegrity
    if intact = false then .error (emissionBlocked "EMISSION-FENCE rejected a payload digest mismatch")
    else if (f.registered.get? event.eventId).any fun existing => !existing.pyEq event then
      .error (emissionBlocked "event id collision at EMISSION-FENCE")
    else return event

def enroll (f : EmissionFence) (event : OutboxEvent) : EmissionFence :=
  { f with registered := f.registered.set event.eventId event }

/-- What `register` records: the event, and a receipt when it was emitted before. -/
def accept (f : EmissionFence) (event : OutboxEvent) : EmissionFence :=
  match event.emittedAt, f.receipts.get? event.eventId with
  | some emittedAt, none =>
    let receipt : EmissionReceipt := {
      eventId := event.eventId, aggregateId := event.aggregateId, aggregateVersion := event.aggregateVersion,
      emittedAt := emittedAt, deduplicated := true }
    { f.enroll event with
      receipts := f.receipts.set event.eventId receipt
      lastVersion := f.lastVersion.set event.aggregateId (max event.aggregateVersion (f.last event.aggregateId)) }
  | _, _ => f.enroll event

def register (f : EmissionFence) (store : AtomicOutboxStore) (event : OutboxEvent) :
    Except PyError OutboxEvent × EmissionFence :=
  match f.admissible store event with
  | .error e => (.error e, f)
  | .ok event => (.ok event, f.accept event)

/-! ## The gates -/

/-- The events `_check_order` looks at: the registered ones and the whole outbox. -/
def candidates (f : EmissionFence) (store : AtomicOutboxStore) : List OutboxEvent :=
  f.registered.values ++ if f.storeBound then store.outbox true else []

def earlierPending (f : EmissionFence) (store : AtomicOutboxStore) (event : OutboxEvent) : List OutboxEvent :=
  (f.candidates store).filter fun candidate =>
    candidate.aggregateId = event.aggregateId ∧ candidate.aggregateVersion < event.aggregateVersion ∧
      candidate.emittedAt = none ∧ f.receipts.get? candidate.eventId = none

def checkOrder (f : EmissionFence) (store : AtomicOutboxStore) (event : OutboxEvent) : Except PyError Unit :=
  if event.aggregateVersion ≤ f.last event.aggregateId then
    .error (emissionBlocked "aggregate version was already passed by the fence")
  else if f.earlierPending store event ≠ [] then
    .error (emissionBlocked "an earlier aggregate event is still pending")
  else .ok ()

/-- The marking gate of `emit`. -/
def checkDisclosure (f : EmissionFence) (r : EmitRequest) : Except PyError Unit :=
  match f.markingEngine with
  | none => .ok ()
  | some engine =>
    match r.markings, r.clearance with
    | some markings, some clearance => do
      let authorized ← engine.isAuthorized markings clearance
      if authorized then .ok () else .error (emissionBlocked "clearance does not dominate event markings")
    | _, _ => .error (emissionBlocked "marking and clearance are required for disclosure")

/-- The gates of `emit` that only read: time, order and disclosure. -/
def checkGates (f : EmissionFence) (store : AtomicOutboxStore) (r : EmitRequest) (event : OutboxEvent)
    (instant : Instant) : Except PyError Unit :=
  if instant < event.occurredAt then .error (emissionBlocked "event cannot cross the fence before it occurred")
  else do
    f.checkOrder store event
    f.checkDisclosure r

/-- The capability gate of `emit`; it consumes a use of the lease. -/
def checkCapability (f : EmissionFence) (r : EmitRequest) (event : OutboxEvent) (instant : Instant) :
    Except PyError Unit × EmissionFence :=
  if f.requireCapability then
    match r.leaseId, f.capabilityAuthority with
    | some leaseId, some authority =>
      match authority.authorize r.stop {
          leaseId := leaseId, capability := py "emit", resource := event.aggregateId, instant := .utc instant,
          subject := r.subject, consume := true } with
      | (.error e, authority) =>
        (.error ⟨.emissionBlocked, "emission capability rejected: " ++ e.message, e.args⟩,
          { f with capabilityAuthority := some authority })
      | (.ok _, authority) => (.ok (), { f with capabilityAuthority := some authority })
    | _, _ => (.error (emissionBlocked "an emission capability lease is required"), f)
  else (.ok (), f)

/-- The receipt kept and the aggregate's version passed. -/
def acknowledge (f : EmissionFence) (receipt : EmissionReceipt) : EmissionFence :=
  { f with
    receipts := f.receipts.set receipt.eventId receipt
    lastVersion := f.lastVersion.set receipt.aggregateId receipt.aggregateVersion }

def receipt (f : EmissionFence) (eventId : PyStr) : Option EmissionReceipt := f.receipts.get? eventId

end EmissionFence

/-! ## Emission -/

/-- The store and the fence an operation works on, and every sink call made through them. -/
structure Boundary where
  store : AtomicOutboxStore
  fence : EmissionFence
  calls : List SinkCall

namespace Boundary

/-- The durable emission mark, when the fence has a store. -/
def recordEmission (b : Boundary) (event : OutboxEvent) (instant : Instant) : Except PyError Unit × AtomicOutboxStore :=
  if b.fence.storeBound then
    match b.store.markEmitted event.eventId (.utc instant) with
    | (.error e, store) => (.error e, store)
    | (.ok _, store) => (.ok (), store)
  else (.ok (), b.store)

/-- The part of `emit` from the sink call on. -/
def deliver (b : Boundary) (r : EmitRequest) (event : OutboxEvent) (instant : Instant) :
    Except PyError EmissionReceipt × Boundary :=
  match callSink r.sink b.calls event with
  | (.error e, calls) => (.error e, { b with calls })
  | (.ok sinkResult, calls) =>
    let receipt : EmissionReceipt := {
      eventId := event.eventId, aggregateId := event.aggregateId, aggregateVersion := event.aggregateVersion,
      emittedAt := instant, sinkResult := sinkResult }
    match b.recordEmission event instant with
    | (.error e, store) => (.error e, { b with store, calls })
    | (.ok (), store) => (.ok receipt, ⟨store, b.fence.acknowledge receipt, calls⟩)

/-- The part of `emit` after the registration. -/
def release (b : Boundary) (r : EmitRequest) (event : OutboxEvent) (instant : Instant) :
    Except PyError EmissionReceipt × Boundary :=
  match b.fence.checkGates b.store r event instant with
  | .error e => (.error e, b)
  | .ok () =>
    match b.fence.checkCapability r event instant with
    | (.error e, fence) => (.error e, { b with fence })
    | (.ok (), fence) => { b with fence }.deliver r event instant

def emit (b : Boundary) (r : EmitRequest) (event : OutboxEvent) : Except PyError EmissionReceipt × Boundary :=
  match requireAware r.instant "at" with
  | .error e => (.error e, b)
  | .ok instant =>
    match b.fence.receipts.get? event.eventId with
    | some receipt => (.ok { receipt with deduplicated := true }, b)
    | none =>
      match b.fence.register b.store event with
      | (.error e, fence) => (.error e, { b with fence })
      | (.ok event, fence) => { b with fence }.release r event instant

/-- The first loop of `drain`. -/
def registerAll (b : Boundary) : List OutboxEvent → Except PyError Unit × Boundary
  | [] => (.ok (), b)
  | event :: events =>
    match b.fence.register b.store event with
    | (.error e, fence) => (.error e, { b with fence })
    | (.ok _, fence) => { b with fence }.registerAll events

/-- The second loop of `drain`. -/
def emitAll (b : Boundary) (r : EmitRequest) : List OutboxEvent → Except PyError (List EmissionReceipt) × Boundary
  | [] => (.ok [], b)
  | event :: events =>
    match b.emit r event with
    | (.error e, b') => (.error e, b')
    | (.ok receipt, b') =>
      match b'.emitAll r events with
      | (.error e, b'') => (.error e, b'')
      | (.ok receipts, b'') => (.ok (receipt :: receipts), b'')

def drain (b : Boundary) (r : EmitRequest) : Except PyError (List EmissionReceipt) × Boundary :=
  if b.fence.storeBound then
    match b.registerAll b.store.outbox with
    | (.error e, b') => (.error e, b')
    | (.ok (), b') => b'.emitAll r b.store.outbox
  else (.error ⟨.runtimeError, "drain requires a store-bound EMISSION-FENCE", []⟩, b)

end Boundary
end OcorRuntime.Emission

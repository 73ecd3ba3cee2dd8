import Mathlib.Data.Prod.Lex
import OcorRuntime.Base.Time
import OcorRuntime.Canonical.Serialize

/-! The single-writer aggregate store with its transactional outbox (`c3_store.py`).
A write is staged against the current maps, then published as a whole; the five
crash windows lie between the stages. The clock reading and the transaction id
drawn by a write are arguments of the request. -/
namespace OcorRuntime.Store
open Canonical
set_option autoImplicit false
set_option maxHeartbeats 250000

/-! ## Frozen JSON -/

mutual
def freezeJson : PyValue → Except PyError PyValue
  | .mapping entries =>
    if ∀ entry ∈ entries, (MappingKey.str? entry.1).isSome then do
      let frozen ← freezeEntries entries
      return .mapping frozen
    else .error ⟨.typeError, "JSON object keys must be strings", []⟩
  | .list items => do
    let frozen ← freezeItems items
    return .tuple frozen
  | .tuple items => do
    let frozen ← freezeItems items
    return .tuple frozen
  | v => .ok v
def freezeItems : List PyValue → Except PyError (List PyValue)
  | [] => .ok []
  | item :: items => do
    let frozen ← freezeJson item
    let rest ← freezeItems items
    return frozen :: rest
def freezeEntries : List (MappingKey × PyValue) → Except PyError (List (MappingKey × PyValue))
  | [] => .ok []
  | (key, item) :: entries => do
    let frozen ← freezeJson item
    let rest ← freezeEntries entries
    return (key, frozen) :: rest
end

attribute [local grind =] freezeJson freezeItems freezeEntries

theorem serializeItems_freezeItems {items frozen : List PyValue}
    (ih : ∀ item ∈ items, ∀ w, freezeJson item = .ok w → serialize w = serialize item)
    (h : freezeItems items = .ok frozen) : serializeItems frozen = serializeItems items := by
  induction items generalizing frozen with
  | nil =>
    cases h
    rfl
  | cons item items ihItems =>
    obtain ⟨first, hfirst, h⟩ := bind_eq_ok.1 h
    obtain ⟨rest, hrest, h⟩ := bind_eq_ok.1 h
    cases h
    rw [serializeItems, serializeItems, ih item (List.mem_cons_self ..) first hfirst,
      ihItems (fun i hi => ih i (List.mem_cons_of_mem item hi)) hrest]

theorem serializeEntries_freezeEntries {entries frozen : List (MappingKey × PyValue)}
    (ih : ∀ entry ∈ entries, ∀ w, freezeJson entry.2 = .ok w → serialize w = serialize entry.2)
    (h : freezeEntries entries = .ok frozen) :
    frozen.map Prod.fst = entries.map Prod.fst ∧ serializeEntries frozen = serializeEntries entries := by
  induction entries generalizing frozen with
  | nil =>
    cases h
    exact ⟨rfl, rfl⟩
  | cons entry entries ihEntries =>
    obtain ⟨key, item⟩ := entry
    obtain ⟨first, hfirst, h⟩ := bind_eq_ok.1 h
    obtain ⟨rest, hrest, h⟩ := bind_eq_ok.1 h
    cases h
    obtain ⟨hkeys, htexts⟩ := ihEntries (fun e he => ih e (List.mem_cons_of_mem _ he)) hrest
    have hitem := ih (key, item) (List.mem_cons_self ..) first hfirst
    refine ⟨by rw [List.map_cons, List.map_cons, hkeys], ?_⟩
    cases key with
    | str text => rw [serializeEntries, serializeEntries, hitem, htexts]
    | other index => rw [serializeEntries, serializeEntries, htexts]

/-- Freezing keeps the canonical text: it turns lists into tuples, which serialize alike. -/
theorem serialize_freezeJson {v w : PyValue} (h : freezeJson v = .ok w) : serialize w = serialize v := by
  induction v using PyValue.induct_on generalizing w with
  | none | bool | int | float | str | other =>
    simp only [freezeJson, Except.ok.injEq] at h
    rw [h]
  | list items ih | tuple items ih =>
    simp only [freezeJson] at h
    obtain ⟨frozen, hitems, h⟩ := bind_eq_ok.1 h
    cases h
    simp only [serialize, serializeItems_freezeItems (fun item hi _ => ih item hi) hitems]
  | mapping entries ih =>
    simp only [freezeJson] at h
    split_ifs at h with hall
    obtain ⟨frozen, hentries, h⟩ := bind_eq_ok.1 h
    cases h
    obtain ⟨hkeys, htexts⟩ := serializeEntries_freezeEntries (fun e he _ => ih e he) hentries
    have hstr : ∀ entry ∈ frozen, (MappingKey.str? entry.1).isSome := by
      intro entry he
      obtain ⟨other, hother, hkey⟩ := List.mem_map.mp (hkeys ▸ List.mem_map_of_mem he)
      rw [← hkey]
      exact hall other hother
    rw [serialize, serialize, if_pos hstr, if_pos hall, htexts]

/-! ## Crash windows -/

inductive CrashWindow
  | beforeTransaction
  | afterTransactionBegin
  | afterAggregateStage
  | afterOutboxStage
  | afterCommitBeforeAck
deriving DecidableEq

namespace CrashWindow

def value : CrashWindow → String
  | beforeTransaction => "before-transaction"
  | afterTransactionBegin => "after-transaction-begin"
  | afterAggregateStage => "after-aggregate-stage"
  | afterOutboxStage => "after-outbox-stage"
  | afterCommitBeforeAck => "after-commit-before-ack"

def all : List CrashWindow :=
  [beforeTransaction, afterTransactionBegin, afterAggregateStage, afterOutboxStage, afterCommitBeforeAck]

/-- `CrashWindow(value)`. -/
def ofValue? (text : PyStr) : Option CrashWindow := all.find? fun w => py w.value = text

end CrashWindow

def crashInjected (window : CrashWindow) (committed : Bool) : PyError :=
  ⟨.crashInjected window.value committed, "crash injected at %s; transaction %s",
    [.text (py window.value), .text (py (if committed then "committed" else "rolled back"))]⟩

def raiseIf (window : Option PyStr) (target : CrashWindow) (committed : Bool) : Except PyError Unit :=
  match window with
  | none => .ok ()
  | some text =>
    match CrashWindow.ofValue? text with
    | none => .error ⟨.valueError, "unknown crash window: %r", [.text text]⟩
    | some selected => if selected = target then .error (crashInjected target committed) else .ok ()

/-! ## Records -/

structure StoredDocument where
  aggregateId : PyStr
  document : PyValue
  version : ℕ
  writerId : PyStr
  transactionId : PyStr
  semanticDigest : PyStr
  updatedAt : Instant
deriving DecidableEq

structure OutboxEvent where
  eventId : PyStr
  aggregateId : PyStr
  aggregateVersion : ℕ
  eventType : PyStr
  payload : PyValue
  payloadDigest : PyStr
  requestDigest : PyStr
  idempotencyKey : PyStr
  transactionId : PyStr
  occurredAt : Instant
  committed : Bool := true
  emittedAt : Option Instant := none
deriving DecidableEq

def OutboxEvent.verifyIntegrity (event : OutboxEvent) : Except PyError Bool := do
  let digest ← canonicalSha256 event.payload
  return decide (digest = event.payloadDigest)

/-- The dataclass `==`: every field, the payload as Python compares mappings. -/
def OutboxEvent.pyEq (a b : OutboxEvent) : Bool :=
  decide ({ a with payload := .none } = { b with payload := .none }) && PyValue.fieldEq a.payload b.payload

structure WriteResult where
  document : StoredDocument
  event : OutboxEvent
  replayed : Bool := false
deriving DecidableEq

structure AtomicOutboxStore where
  authoritativeWriter : PyStr
  documents : Dict PyStr StoredDocument
  events : Dict PyStr OutboxEvent
  idempotency : Dict PyStr PyStr
deriving DecidableEq

/-- The arguments of a write, with the clock reading and the transaction id it draws. -/
structure WriteRequest where
  aggregateId : PyStr
  document : PyValue
  expectedVersion : Option ℤ
  writerId : PyStr
  eventType : PyStr
  eventPayload : Option PyValue := none
  idempotencyKey : PyStr
  occurredAt : Option DateTime := none
  crashWindow : Option PyStr := none
  now : Instant
  transactionId : PyStr

/-! ## Digests and identifiers -/

/-- The object whose digest identifies a write request. -/
def requestObject (aggregateId eventType : PyStr) (document payload : PyValue) : PyValue :=
  .mapping [(.str (py "aggregateId"), .str aggregateId), (.str (py "document"), document),
    (.str (py "eventType"), .str eventType), (.str (py "payload"), payload)]

/-- The canonical bytes an event identifier is derived from. -/
def eventSeed (aggregateId idempotencyKey requestDigest : PyStr) : Except PyError Bytes :=
  canonicalize (.mapping [(.str (py "aggregateId"), .str aggregateId),
    (.str (py "idempotencyKey"), .str idempotencyKey), (.str (py "requestDigest"), .str requestDigest)])

def eventIdOf (seed : Bytes) : PyStr := py "urn:ocor:event:sha256:" ++ Sha256.hexdigest seed

namespace AtomicOutboxStore

def create (authoritativeWriter : PyStr) : Except PyError AtomicOutboxStore :=
  if authoritativeWriter = [] then .error ⟨.valueError, "authoritative_writer must be non-empty", []⟩
  else .ok ⟨authoritativeWriter, .empty, .empty, .empty⟩

def authorizeWriter (store : AtomicOutboxStore) (writerId : PyStr) : Except PyError Unit :=
  if writerId = store.authoritativeWriter then .ok ()
  else .error ⟨.singleWriterViolation, "writer %r is outside the %r boundary",
    [.text writerId, .text store.authoritativeWriter]⟩

/-! ## Writes -/

/-- What a write has settled before anything is published. -/
inductive Staged
  | replayed (result : WriteResult)
  | fresh (document : StoredDocument) (event : OutboxEvent)

/-- The version of an aggregate, zero before its first document. -/
def currentVersion (store : AtomicOutboxStore) (aggregateId : PyStr) : ℕ :=
  ((store.documents.get? aggregateId).map StoredDocument.version).getD 0

/-- The idempotency path of a write: the recorded result when the request is the same one. -/
def replay (store : AtomicOutboxStore) (eventId requestDigest : PyStr) : Except PyError Staged := do
  let event ← subscript store.events eventId
  if event.requestDigest ≠ requestDigest then
    .error ⟨.concurrencyConflict, "idempotency key was reused for a different write request", []⟩
  else do
    let document ← subscript store.documents event.aggregateId
    return .replayed ⟨document, event, true⟩

/-- The new aggregate and event, staged behind the version and time guards. -/
def stageFresh (store : AtomicOutboxStore) (r : WriteRequest) (instant : Instant) (document payload : PyValue)
    (requestDigest : PyStr) : Except PyError Staged := do
  let current := store.documents.get? r.aggregateId
  let version := store.currentVersion r.aggregateId
  if r.expectedVersion.any (fun expected => expected ≠ (version : ℤ)) then
    .error ⟨.concurrencyConflict, "expected aggregate version %d, found %d",
      [.int (r.expectedVersion.getD 0), .int version]⟩
  else if current.any (fun d => instant < d.updatedAt) then
    .error ⟨.temporalGuardViolation, "aggregate time cannot move backwards", []⟩
  else do
    raiseIf r.crashWindow .afterTransactionBegin false
    let seed ← eventSeed r.aggregateId r.idempotencyKey requestDigest
    let semanticDigest ← canonicalSha256 document
    let stagedDocument : StoredDocument := {
      aggregateId := r.aggregateId, document := document, version := version + 1, writerId := r.writerId,
      transactionId := r.transactionId, semanticDigest := semanticDigest, updatedAt := instant }
    raiseIf r.crashWindow .afterAggregateStage false
    let payloadDigest ← canonicalSha256 payload
    let stagedEvent : OutboxEvent := {
      eventId := eventIdOf seed, aggregateId := r.aggregateId, aggregateVersion := version + 1,
      eventType := r.eventType, payload := payload, payloadDigest := payloadDigest,
      requestDigest := requestDigest, idempotencyKey := r.idempotencyKey, transactionId := r.transactionId,
      occurredAt := instant }
    raiseIf r.crashWindow .afterOutboxStage false
    return .fresh stagedDocument stagedEvent

/-- The part of `write` that precedes the publication, in source order. -/
def stage (store : AtomicOutboxStore) (r : WriteRequest) : Except PyError Staged := do
  if r.aggregateId = [] ∨ r.eventType = [] ∨ r.idempotencyKey = [] then
    .error ⟨.valueError, "aggregate_id, event_type and idempotency_key are required", []⟩
  else if r.expectedVersion.any (· < 0) then
    .error ⟨.valueError, "expected_version cannot be negative", []⟩
  else do
    store.authorizeWriter r.writerId
    let instant ← requireAware (r.occurredAt.getD (.utc r.now)) "occurred_at"
    let document ← freezeJson r.document
    let payload ← freezeJson (r.eventPayload.getD r.document)
    let requestDigest ← canonicalSha256 (requestObject r.aggregateId r.eventType document payload)
    raiseIf r.crashWindow .beforeTransaction false
    match store.idempotency.get? r.idempotencyKey with
    | some eventId => store.replay eventId requestDigest
    | none => store.stageFresh r instant document payload requestDigest

def publish (store : AtomicOutboxStore) (document : StoredDocument) (event : OutboxEvent) : AtomicOutboxStore :=
  { store with
    documents := store.documents.set document.aggregateId document
    events := store.events.set event.eventId event
    idempotency := store.idempotency.set event.idempotencyKey event.eventId }

/-- `write`: the outcome and the store it leaves. -/
def write (store : AtomicOutboxStore) (r : WriteRequest) : Except PyError WriteResult × AtomicOutboxStore :=
  match store.stage r with
  | .error e => (.error e, store)
  | .ok (.replayed result) => (.ok result, store)
  | .ok (.fresh document event) =>
    match raiseIf r.crashWindow .afterCommitBeforeAck true with
    | .error e => (.error e, store.publish document event)
    | .ok () => (.ok ⟨document, event, false⟩, store.publish document event)

/-! ## Reads and emission marks -/

def get (store : AtomicOutboxStore) (aggregateId : PyStr) : Option StoredDocument :=
  store.documents.get? aggregateId

def getEvent (store : AtomicOutboxStore) (eventId : PyStr) : Option OutboxEvent := store.events.get? eventId

/-- The sort key of `outbox`: instant, aggregate, version, identifier. -/
def sortKey (e : OutboxEvent) : Lex (ℤ × Lex (PyStr × Lex (ℕ × PyStr))) :=
  toLex (e.occurredAt, toLex (e.aggregateId, toLex (e.aggregateVersion, e.eventId)))

def SortLe (a b : OutboxEvent) : Prop := sortKey a ≤ sortKey b

instance : DecidableRel SortLe := fun a b => inferInstanceAs (Decidable (sortKey a ≤ sortKey b))

def outbox (store : AtomicOutboxStore) (includeEmitted : Bool := false) : List OutboxEvent :=
  (store.events.values.filter fun e => includeEmitted || e.emittedAt.isNone).insertionSort SortLe

def markEmitted (store : AtomicOutboxStore) (eventId : PyStr) (emittedAt : DateTime) :
    Except PyError OutboxEvent × AtomicOutboxStore :=
  match requireAware emittedAt "emitted_at" with
  | .error e => (.error e, store)
  | .ok instant =>
    match subscript store.events eventId with
    | .error e => (.error e, store)
    | .ok event =>
      if instant < event.occurredAt then
        (.error ⟨.temporalGuardViolation, "event cannot be emitted before it occurred", []⟩, store)
      else if event.emittedAt.isSome then (.ok event, store)
      else
        let emitted := { event with emittedAt := some instant }
        (.ok emitted, { store with events := store.events.set eventId emitted })

def snapshotCounts (store : AtomicOutboxStore) : ℕ × ℕ :=
  (store.documents.entries.length, store.events.entries.length)

def verifyAtomicity (store : AtomicOutboxStore) : Bool :=
  let transactions := store.events.values.map OutboxEvent.transactionId
  store.documents.values.all (fun document => decide (document.transactionId ∈ transactions)) &&
    store.events.values.all fun event =>
      match store.documents.get? event.aggregateId with
      | some document => decide (event.aggregateVersion ≤ document.version)
      | none => false

end AtomicOutboxStore
end OcorRuntime.Store

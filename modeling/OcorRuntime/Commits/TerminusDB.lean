import OcorRuntime.Canonical.UnicodeJson
import OcorRuntime.Foundations.Session
import OcorRuntime.Kernel.Timestamps

/-! The canonical commit slice on TerminusDB (`c3/adapters/terminusdb.py`). Every read is pinned to one version of the
branch `main`, every write is one transaction that the server applies as a whole if its conditions hold, and nothing
else is shared: between any two requests of a call the other writers may do anything. -/
namespace OcorRuntime.Commits
open Canonical Kernel
set_option autoImplicit false
set_option maxHeartbeats 250000

/-! ## Documents

The key of a document is the one it is stored under. -/

structure C3Aggregate where
  tenantId : PyStr
  aggregateType : PyStr
  aggregateRef : PyStr
  revision : ℕ
  stateJson : PyStr
  stateDigest : PyStr
  commitId : PyStr
deriving DecidableEq

structure C3Commit where
  commitId : PyStr
  commandId : PyStr
  commandDigest : PyStr
  tenantId : PyStr
  aggregateType : PyStr
  aggregateRef : PyStr
  fromRevision : ℕ
  toRevision : ℕ
  stateDigest : PyStr
  idempotencyKey : PyStr
  decisionRef : PyStr
  authorityRef : PyStr
  evidenceRefsJson : PyStr
  governedContextDigest : PyStr
  gatePackageDigest : PyStr
  outboxEventId : PyStr
  outboxPayloadDigest : PyStr
  branch : PyStr
  committedAt : PyStr
  writerEpoch : ℕ
deriving DecidableEq

structure C3Idempotency where
  tenantId : PyStr
  aggregateType : PyStr
  aggregateRef : PyStr
  idempotencyKey : PyStr
  commandDigest : PyStr
  commitId : PyStr
deriving DecidableEq

structure C3OutboxEntry where
  eventId : PyStr
  commitId : PyStr
  aggregateRef : PyStr
  aggregateRevision : ℕ
  payloadJson : PyStr
  payloadDigest : PyStr
  branch : PyStr
  occurredAt : PyStr
deriving DecidableEq

structure C3DeliveryAttempt where
  eventId : PyStr
  outcome : PyStr
  acknowledgedAt : PyStr
  writerEpoch : ℕ
deriving DecidableEq

structure C3WriterFence where
  boundary : PyStr
  writerEpoch : ℕ
  writerId : PyStr
deriving DecidableEq

def mainBranch : PyStr := py "main"

/-- `FENCE_BOUNDARY`. -/
def fenceBoundary : PyStr := py "c3-canonical"

/-- `MAX_CONDITIONAL_ATTEMPTS`. -/
def maxConditionalAttempts : ℕ := 64

/-- The documents of the branch `main`. The fence is the only one of its class, under the key of its boundary. -/
structure Database where
  fence : Option C3WriterFence
  aggregates : Dict PyStr C3Aggregate
  commits : Dict PyStr C3Commit
  idempotency : Dict PyStr C3Idempotency
  outbox : Dict PyStr C3OutboxEntry
  attempts : Dict PyStr C3DeliveryAttempt

namespace Database

def empty : Database := ⟨none, .empty, .empty, .empty, .empty, .empty⟩

/-- The epoch of the ownership boundary. -/
def epoch (db : Database) : ℕ := (db.fence.map C3WriterFence.writerEpoch).getD 0

end Database

/-! ## Transactions -/

/-- `_absent`, and `_holds` of the fields the adapter asks for. -/
inductive Condition
  | fenceAbsent
  | writerEpoch (epoch : ℕ)
  | aggregateAbsent (key : PyStr)
  | revision (key : PyStr) (value : ℕ)
  | idempotencyAbsent (key : PyStr)
  | entryAbsent (key : PyStr)
  | branch (key value : PyStr)
  | attemptAbsent (key : PyStr)

def Condition.Holds (db : Database) : Condition → Prop
  | .fenceAbsent => db.fence = none
  | .writerEpoch epoch => db.fence.map C3WriterFence.writerEpoch = some epoch
  | .aggregateAbsent key => db.aggregates.get? key = none
  | .revision key value => (db.aggregates.get? key).map C3Aggregate.revision = some value
  | .idempotencyAbsent key => db.idempotency.get? key = none
  | .entryAbsent key => db.outbox.get? key = none
  | .branch key value => (db.outbox.get? key).map C3OutboxEntry.branch = some value
  | .attemptAbsent key => db.attempts.get? key = none

instance (db : Database) : (c : Condition) → Decidable (c.Holds db)
  | .fenceAbsent => inferInstanceAs (Decidable (db.fence = none))
  | .writerEpoch epoch => inferInstanceAs (Decidable (db.fence.map C3WriterFence.writerEpoch = some epoch))
  | .aggregateAbsent key => inferInstanceAs (Decidable (db.aggregates.get? key = none))
  | .revision key value => inferInstanceAs (Decidable ((db.aggregates.get? key).map C3Aggregate.revision = some value))
  | .idempotencyAbsent key => inferInstanceAs (Decidable (db.idempotency.get? key = none))
  | .entryAbsent key => inferInstanceAs (Decidable (db.outbox.get? key = none))
  | .branch key value => inferInstanceAs (Decidable ((db.outbox.get? key).map C3OutboxEntry.branch = some value))
  | .attemptAbsent key => inferInstanceAs (Decidable (db.attempts.get? key = none))

/-- `_insert` and `_update`. -/
inductive Write
  | insertFence (fence : C3WriterFence)
  | updateFence (fence : C3WriterFence)
  | insertAggregate (key : PyStr) (aggregate : C3Aggregate)
  | updateAggregate (key : PyStr) (aggregate : C3Aggregate)
  | insertCommit (key : PyStr) (commit : C3Commit)
  | insertIdempotency (key : PyStr) (binding : C3Idempotency)
  | insertEntry (key : PyStr) (entry : C3OutboxEntry)
  | insertAttempt (key : PyStr) (attempt : C3DeliveryAttempt)

/-- A document is inserted only where there is none. -/
def inserted {δ : Type} (documents : Dict PyStr δ) (key : PyStr) (document : δ) : Option (Dict PyStr δ) :=
  match documents.get? key with
  | none => some (documents.set key document)
  | some _ => none

/-- A document is updated only where there is one. -/
def updated {δ : Type} (documents : Dict PyStr δ) (key : PyStr) (document : δ) : Option (Dict PyStr δ) :=
  match documents.get? key with
  | none => none
  | some _ => some (documents.set key document)

def Write.apply (db : Database) : Write → Option Database
  | .insertFence fence => if db.fence = none then some { db with fence := some fence } else none
  | .updateFence fence => if db.fence = none then none else some { db with fence := some fence }
  | .insertAggregate key aggregate => (inserted db.aggregates key aggregate).map fun d => { db with aggregates := d }
  | .updateAggregate key aggregate => (updated db.aggregates key aggregate).map fun d => { db with aggregates := d }
  | .insertCommit key commit => (inserted db.commits key commit).map fun d => { db with commits := d }
  | .insertIdempotency key binding => (inserted db.idempotency key binding).map fun d => { db with idempotency := d }
  | .insertEntry key entry => (inserted db.outbox key entry).map fun d => { db with outbox := d }
  | .insertAttempt key attempt => (inserted db.attempts key attempt).map fun d => { db with attempts := d }

/-- One WOQL transaction on `main`: every write if every condition holds and no inserted document is there yet, and
otherwise none. -/
def Database.transact (db : Database) (conditions : List Condition) (writes : List Write) : Option Database :=
  if ∀ c ∈ conditions, c.Holds db then writes.foldlM Write.apply db else none

/-! ## The server and its clients -/

inductive ServerRequest
  /-- The documents of the current version of `main`: what a snapshot or a list reads. -/
  | version
  | transact (conditions : List Condition) (writes : List Write)

inductive Request
  | server (q : ServerRequest)
  /-- `self._epoch`, of one adapter. -/
  | readEpoch (adapter : ℕ)
  | writeEpoch (adapter epoch : ℕ)

inductive Answer
  | version (db : Database)
  | applied (ok : Bool)
  | epoch (epoch : Option ℕ)
  | written
  /-- No response arrived. -/
  | unreachable
  /-- The server refused the request, or the whole batch. -/
  | refused (batch : Bool)

/-- The documents, and the epoch each adapter remembers. -/
structure Backend where
  database : Database
  epochs : ℕ → Option ℕ

/-- What becomes of a request to the server. -/
inductive Fate
  | answered
  /-- No response arrives; the server may have handled the request all the same. -/
  | lost (handled : Bool)
  | refused (batch : Bool)

def handle (db : Database) : ServerRequest → Database × Answer
  | .version => (db, .version db)
  | .transact conditions writes =>
    match db.transact conditions writes with
    | some db' => (db', .applied true)
    | none => (db, .applied false)

def serve (s : Backend) : Request → Fate → Backend × Answer
  | .readEpoch adapter, _ => (s, .epoch (s.epochs adapter))
  | .writeEpoch adapter epoch, _ => ({ s with epochs := Function.update s.epochs adapter (some epoch) }, .written)
  | .server q, .answered => ({ s with database := (handle s.database q).1 }, (handle s.database q).2)
  | .server q, .lost handled => ({ s with database := if handled then (handle s.database q).1 else s.database }, .unreachable)
  | .server _, .refused batch => (s, .refused batch)

/-- `reason_code`. -/
inductive Reason
  | commitContractInvalid
  | singleWriterViolation
  | idempotencyConflict
  | commitReceiptMismatch
  | revisionConflict
  | outboxEntryNotFound
  | writeContention
  | batchRejected
  | backendError
  | backendUnavailable
deriving DecidableEq

/-- A `TerminusDBAdapterError`, or another exception. -/
inductive Failure
  | adapter (reason : Reason) (message : String)
  | raised (e : PyError)

/-- A method call in progress. -/
abbrev Call := Session Request Answer Failure

def Answer.failure : Answer → Failure
  | .unreachable => .adapter .backendUnavailable "the server did not answer"
  | .refused true => .adapter .batchRejected "the server refused the whole transaction"
  | _ => .adapter .backendError "unexpected answer"

def computed {α : Type} : Except PyError α → Call α
  | .ok a => .returned a
  | .error e => .raised (.raised e)

def refuse (bad : Prop) [Decidable bad] (reason : Reason) (message : String) : Call Unit :=
  if bad then .raised (.adapter reason message) else .returned ()

/-- `_snapshot`. -/
def snapshot : Call Database := do
  match ← Session.request (.server .version) with
  | .version db => return db
  | answer => .raised answer.failure

/-- `_transact`. -/
def transact (conditions : List Condition) (writes : List Write) : Call Bool := do
  match ← Session.request (.server (.transact conditions writes)) with
  | .applied ok => return ok
  | answer => .raised answer.failure

def rememberedEpoch (adapter : ℕ) : Call ℕ := do
  match ← Session.request (.readEpoch adapter) with
  | .epoch (some epoch) => return epoch
  | _ => .raised (.adapter .singleWriterViolation "the writer has not acquired an epoch")

/-- `_check_fence`. -/
def checkFence (adapter : ℕ) (db : Database) : Call ℕ := do
  let epoch ← rememberedEpoch adapter
  refuse (db.epoch ≠ epoch) .singleWriterViolation "stale writer epoch"
  return epoch

/-- The loop of conditional attempts: an attempt whose transaction was not applied is made again. -/
def attempts {α : Type} (message : String) (attempt : ℕ → Call (Option α)) : ℕ → Call α
  | 0 => .raised (.adapter .writeContention message)
  | n + 1 => do
    match ← attempt n with
    | some a => return a
    | none => attempts message attempt n

/-! ## Epochs -/

def acquireAttempt (adapter : ℕ) (writerId : PyStr) : Call (Option ℕ) := do
  let db ← snapshot
  let epoch := db.epoch + 1
  let fence : C3WriterFence := ⟨fenceBoundary, epoch, writerId⟩
  let applied ← match db.fence with
    | none => transact [.fenceAbsent] [.insertFence fence]
    | some _ => transact [.writerEpoch (epoch - 1)] [.updateFence fence]
  if applied then do
    let _ ← Session.request (.writeEpoch adapter epoch)
    return some epoch
  else return none

/-- `acquire_writer`. -/
def acquireWriter (adapter : ℕ) (writerId : PyStr) : Call ℕ :=
  attempts "writer epoch not acquired within the attempt budget" (fun _ => acquireAttempt adapter writerId)
    maxConditionalAttempts

/-! ## Commits -/

/-- The arguments of `commit_transaction`. -/
structure CommitCommand where
  tenantId : PyStr
  aggregateType : PyStr
  aggregateRef : PyStr
  idempotencyKey : PyStr
  commandId : PyStr
  commandDigest : PyStr
  expectedRevision : ℤ
  canonicalDelta : List (MappingKey × PyValue)
  decisionRef : PyStr
  authorityRef : PyStr
  evidenceRefs : List PyStr
  governedContextDigest : PyStr
  gatePackageDigest : PyStr
  branch : PyStr

structure CommitOutcome where
  commitId : PyStr
  fromRevision : ℕ
  toRevision : ℕ
  stateDigest : PyStr
  outboxEventId : PyStr
  outboxPayloadDigest : PyStr
  committedAt : Instant
  replayed : Bool
deriving DecidableEq

/-- `hashlib.sha256(text.encode("utf-8")).hexdigest()`. -/
def sha256Hex (text : PyStr) : Except PyError PyStr := do
  let bytes ← UnicodeJson.encodeUtf8 text
  return Sha256.hexdigest bytes

/-- `_key`: the parts are joined with a unit separator. -/
def documentKey (parts : List PyStr) : Except PyError PyStr := sha256Hex (List.intercalate [codePoint 0x1F] parts)

def canonicalDigest (value : PyValue) : Except PyError PyStr := do
  let digest ← canonicalSha256 value
  return py "urn:sha256:" ++ digest

def texts (items : List PyStr) : PyValue := .list (items.map .str)

/-- `_outbox_payload`. -/
def outboxPayload (commitId aggregateRef : PyStr) (toRevision : ℕ) (stateDigest : PyStr) : PyValue :=
  .mapping [(.str (py "commit_id"), .str commitId), (.str (py "aggregate_ref"), .str aggregateRef),
    (.str (py "to_revision"), .int toRevision), (.str (py "state_digest"), .str stateDigest)]

/-- `_outbox_document`, with its key. -/
def outboxDocument (commit : C3Commit) : Except PyError (PyStr × C3OutboxEntry) := do
  let payloadJson ← serialize (outboxPayload commit.commitId commit.aggregateRef commit.toRevision commit.stateDigest)
  let key ← documentKey [commit.outboxEventId]
  return (key, ⟨commit.outboxEventId, commit.commitId, commit.aggregateRef, commit.toRevision, payloadJson,
    commit.outboxPayloadDigest, commit.branch, commit.committedAt⟩)

def idempotencyParts (commit : C3Commit) : List PyStr :=
  [commit.tenantId, commit.aggregateType, commit.aggregateRef, commit.idempotencyKey]

/-- `_idempotency_document`, with its key. -/
def idempotencyDocument (commit : C3Commit) : Except PyError (PyStr × C3Idempotency) := do
  let key ← documentKey (idempotencyParts commit)
  return (key, ⟨commit.tenantId, commit.aggregateType, commit.aggregateRef, commit.idempotencyKey, commit.commandDigest,
    commit.commitId⟩)

/-- `_outcome`. -/
def outcomeOf (commit : C3Commit) (replayed : Bool) : Except PyError CommitOutcome := do
  let committedAt ← parseUtcTimestamp commit.committedAt
  return ⟨commit.commitId, commit.fromRevision, commit.toRevision, commit.stateDigest, commit.outboxEventId,
    commit.outboxPayloadDigest, committedAt, replayed⟩

def stateEntries : Option PyStr → Except PyError (List (MappingKey × PyValue))
  | none => .ok []
  | some text => do
    match ← loadIJson (.text text) with
    | .mapping es => .ok es
    | _ => .error ⟨.typeError, "the stored state is no mapping", []⟩

/-- `{**state, **dict(canonical_delta)}`. -/
def mergedState (state : Option PyStr) (delta : List (MappingKey × PyValue)) : Except PyError PyValue := do
  let entries ← stateEntries state
  return .mapping (delta.foldl (fun es e => Dict.put e.1 e.2 es) entries)

def revisionOf (aggregate : Option C3Aggregate) : ℕ := (aggregate.map C3Aggregate.revision).getD 0

/-- The keys of the aggregate and of the idempotency binding of a command. -/
structure CommandKeys where
  aggregate : PyStr
  idempotency : PyStr

def CommitCommand.keys (command : CommitCommand) : Except PyError CommandKeys := do
  let aggregate ← documentKey [command.tenantId, command.aggregateType, command.aggregateRef]
  let idempotency ← documentKey [command.tenantId, command.aggregateType, command.aggregateRef, command.idempotencyKey]
  return ⟨aggregate, idempotency⟩

/-- The four documents of a commit, with the keys that are not the command's. -/
structure Revised where
  aggregate : C3Aggregate
  commit : C3Commit
  binding : C3Idempotency
  entry : C3OutboxEntry
  commitKey : PyStr
  entryKey : PyStr

/-- What one attempt makes of the aggregate it read. -/
def revise (command : CommitCommand) (aggregate : Option C3Aggregate) (epoch : ℕ) (now : Instant) :
    Except PyError Revised := do
  let state ← mergedState (aggregate.map C3Aggregate.stateJson) command.canonicalDelta
  let stateDigest ← canonicalDigest state
  let toRevision := revisionOf aggregate + 1
  let commitHash ← sha256Hex (command.commandDigest ++ py ":" ++ natText toRevision)
  let commitId := py "urn:ocor:commit:sha256:" ++ commitHash
  let eventHash ← sha256Hex (commitId ++ py ":outbox")
  let outboxEventId := py "urn:ocor:event:sha256:" ++ eventHash
  let outboxPayloadDigest ← canonicalDigest (outboxPayload commitId command.aggregateRef toRevision stateDigest)
  let commitKey ← documentKey [commitId]
  let evidenceRefsJson ← serialize (texts command.evidenceRefs)
  let commit : C3Commit :=
    ⟨commitId, command.commandId, command.commandDigest, command.tenantId, command.aggregateType, command.aggregateRef,
      revisionOf aggregate, toRevision, stateDigest, command.idempotencyKey, command.decisionRef, command.authorityRef,
      evidenceRefsJson, command.governedContextDigest, command.gatePackageDigest, outboxEventId, outboxPayloadDigest,
      command.branch, formatUtcTimestamp now, epoch⟩
  let stateJson ← serialize state
  let (_, binding) ← idempotencyDocument commit
  let (entryKey, entry) ← outboxDocument commit
  return { aggregate := ⟨command.tenantId, command.aggregateType, command.aggregateRef, toRevision, stateJson, stateDigest,
             commitId⟩, commit, binding, entry, commitKey, entryKey }

def commitConditions (keys : CommandKeys) (aggregate : Option C3Aggregate) (epoch : ℕ) : List Condition :=
  [.writerEpoch epoch, .idempotencyAbsent keys.idempotency,
    match aggregate with
    | none => .aggregateAbsent keys.aggregate
    | some aggregate => .revision keys.aggregate aggregate.revision]

def commitWrites (keys : CommandKeys) (aggregate : Option C3Aggregate) (revised : Revised) : List Write :=
  [match aggregate with
    | none => .insertAggregate keys.aggregate revised.aggregate
    | some _ => .updateAggregate keys.aggregate revised.aggregate,
    .insertCommit revised.commitKey revised.commit, .insertIdempotency keys.idempotency revised.binding,
    .insertEntry revised.entryKey revised.entry]

def commitAttempt (adapter : ℕ) (command : CommitCommand) (keys : CommandKeys) (now : Instant) :
    Call (Option CommitOutcome) := do
  let db ← snapshot
  let epoch ← checkFence adapter db
  match db.idempotency.get? keys.idempotency with
  | some binding => do
    refuse (binding.commandDigest ≠ command.commandDigest) .idempotencyConflict
      "idempotency key or scope was rebound to different command content"
    let key ← computed (documentKey [binding.commitId])
    match db.commits.get? key with
    | none => .raised (.adapter .commitReceiptMismatch "idempotency binding without commit record")
    | some commit => do
      let outcome ← computed (outcomeOf commit true)
      return some outcome
  | none => do
    let aggregate := db.aggregates.get? keys.aggregate
    refuse (command.expectedRevision ≠ revisionOf aggregate) .revisionConflict "expected another revision"
    let revised ← computed (revise command aggregate epoch now)
    let applied ← transact (commitConditions keys aggregate epoch) (commitWrites keys aggregate revised)
    if applied then do
      let outcome ← computed (outcomeOf revised.commit false)
      return some outcome
    else return none

/-- `commit_transaction`; `clock` tells the time of each attempt. -/
def commitTransaction (adapter : ℕ) (command : CommitCommand) (clock : ℕ → Instant) : Call CommitOutcome := do
  refuse (command.branch ≠ mainBranch) .singleWriterViolation "canonical commits use main only"
  let _ ← rememberedEpoch adapter
  let keys ← computed command.keys
  attempts "commit not applied within the attempt budget" (fun n => commitAttempt adapter command keys (clock n))
    maxConditionalAttempts

/-! ## Reads -/

structure SnapshotRow where
  revision : ℕ
  state : List (MappingKey × PyValue)
  stateDigest : PyStr
  commitId : PyStr

/-- `read_snapshot`. -/
def readSnapshot (tenantId aggregateType aggregateRef : PyStr) : Call (Option SnapshotRow) := do
  let key ← computed (documentKey [tenantId, aggregateType, aggregateRef])
  let db ← snapshot
  match db.aggregates.get? key with
  | none => return none
  | some aggregate => do
    let state ← computed (stateEntries (some aggregate.stateJson))
    return some ⟨aggregate.revision, state, aggregate.stateDigest, aggregate.commitId⟩

/-! ## The relay -/

structure OutboxRow where
  eventId : PyStr
  commitId : PyStr
  aggregateRef : PyStr
  aggregateRevision : ℕ
  payload : List (MappingKey × PyValue)
  payloadDigest : PyStr
  branch : PyStr
  occurredAt : Instant

/-- `(entry["occurred_at"], entry["event_id"])`, compared as tuples are. -/
def C3OutboxEntry.before (a b : C3OutboxEntry) : Bool :=
  decide (a.occurredAt < b.occurredAt) || (decide (a.occurredAt = b.occurredAt) && decide (a.eventId ≤ b.eventId))

def Database.delivered (db : Database) : List PyStr := db.attempts.values.map C3DeliveryAttempt.eventId

/-- The entries of `main` without a delivery, in the order they are relayed in. -/
def Database.pending (db : Database) : List C3OutboxEntry :=
  (db.outbox.values.filter fun entry => entry.branch = mainBranch ∧ entry.eventId ∉ db.delivered).mergeSort
    C3OutboxEntry.before

def outboxRow (entry : C3OutboxEntry) : Except PyError OutboxRow := do
  let payload ← stateEntries (some entry.payloadJson)
  let occurredAt ← parseUtcTimestamp entry.occurredAt
  return ⟨entry.eventId, entry.commitId, entry.aggregateRef, entry.aggregateRevision, payload, entry.payloadDigest,
    entry.branch, occurredAt⟩

def positiveLimit (limit : ℤ) : Call ℕ := do
  refuse (limit ≤ 0) .commitContractInvalid "limit must be a positive integer"
  return limit.toNat

/-- `claim_outbox_batch`. -/
def claimOutboxBatch (limit : ℤ) : Call (List OutboxRow) := do
  let limit ← positiveLimit limit
  let db ← snapshot
  computed ((db.pending.take limit).mapM outboxRow)

def acknowledged : PyStr := py "ACKNOWLEDGED"

def acknowledgeAttempt (adapter : ℕ) (eventId recordedAt key : PyStr) : Call (Option Unit) := do
  let db ← snapshot
  let epoch ← checkFence adapter db
  refuse ((db.outbox.get? key).map C3OutboxEntry.branch ≠ some mainBranch) .outboxEntryNotFound "no main outbox entry"
  match db.attempts.get? key with
  | some _ => return some ()
  | none => do
    let applied ← transact [.writerEpoch epoch, .branch key mainBranch, .attemptAbsent key]
      [.insertAttempt key ⟨eventId, acknowledged, recordedAt, epoch⟩]
    return if applied then some () else none

/-- `acknowledge_outbox`. -/
def acknowledgeOutbox (adapter : ℕ) (eventId : PyStr) (acknowledgedAt : DateTime) : Call Unit := do
  let recordedAt ← computed (formatUtc acknowledgedAt)
  let key ← computed (documentKey [eventId])
  attempts "acknowledgement not applied within the attempt budget" (fun _ => acknowledgeAttempt adapter eventId recordedAt key)
    maxConditionalAttempts

/-! ## Reconciliation -/

def Database.bound (db : Database) : List PyStr := db.idempotency.values.map C3Idempotency.commitId

def Database.relayable (db : Database) : List PyStr :=
  (db.outbox.values.filter fun entry => entry.branch = mainBranch).map C3OutboxEntry.commitId

/-- What a repair requires, and the document it inserts. -/
abbrev Repair := Condition × Write

/-- The repairs one commit needs, in addition to those there are, up to the limit. -/
def repairCommit (db : Database) (limit : ℕ) (repairs : List Repair) (commit : C3Commit) : Except PyError (List Repair) := do
  if commit.branch ≠ mainBranch then return repairs
  let repairs ←
    if commit.commitId ∉ db.bound ∧ repairs.length < limit then do
      let (key, binding) ← idempotencyDocument commit
      pure (repairs ++ [(.idempotencyAbsent key, .insertIdempotency key binding)])
    else pure repairs
  if commit.commitId ∉ db.relayable ∧ repairs.length < limit then do
    let (key, entry) ← outboxDocument commit
    return repairs ++ [(.entryAbsent key, .insertEntry key entry)]
  else return repairs

def Database.repairs (db : Database) (limit : ℕ) : Except PyError (List Repair) :=
  (db.commits.values.mergeSort fun a b => decide (a.commitId ≤ b.commitId)).foldlM (repairCommit db limit) []

def reconcileAttempt (adapter limit : ℕ) : Call (Option ℕ) := do
  let db ← snapshot
  let epoch ← checkFence adapter db
  let repairs ← computed (db.repairs limit)
  if repairs = [] then return some 0
  else do
    let applied ← transact (.writerEpoch epoch :: repairs.map Prod.fst) (repairs.map Prod.snd)
    return if applied then some repairs.length else none

/-- `reconcile`. -/
def reconcile (adapter : ℕ) (limit : ℤ) : Call ℕ := do
  let limit ← positiveLimit limit
  attempts "reconciliation not applied within the attempt budget" (fun _ => reconcileAttempt adapter limit)
    maxConditionalAttempts

/-! ## Any number of adapters -/

inductive AdapterCall
  | acquireWriter (adapter : ℕ) (writerId : PyStr)
  | commitTransaction (adapter : ℕ) (command : CommitCommand) (clock : ℕ → Instant)
  | readSnapshot (tenantId aggregateType aggregateRef : PyStr)
  | claimOutboxBatch (limit : ℤ)
  | acknowledgeOutbox (adapter : ℕ) (eventId : PyStr) (acknowledgedAt : DateTime)
  | reconcile (adapter : ℕ) (limit : ℤ)

inductive AdapterResult
  | epoch (epoch : ℕ)
  | outcome (outcome : CommitOutcome)
  | snapshot (row : Option SnapshotRow)
  | batch (rows : List OutboxRow)
  | acknowledged
  | repaired (count : ℕ)

def program : AdapterCall → Call AdapterResult
  | .acquireWriter adapter writerId => do
    let epoch ← acquireWriter adapter writerId
    return .epoch epoch
  | .commitTransaction adapter command clock => do
    let outcome ← commitTransaction adapter command clock
    return .outcome outcome
  | .readSnapshot tenantId aggregateType aggregateRef => do
    let row ← readSnapshot tenantId aggregateType aggregateRef
    return .snapshot row
  | .claimOutboxBatch limit => do
    let rows ← claimOutboxBatch limit
    return .batch rows
  | .acknowledgeOutbox adapter eventId acknowledgedAt => do
    acknowledgeOutbox adapter eventId acknowledgedAt
    return .acknowledged
  | .reconcile adapter limit => do
    let count ← reconcile adapter limit
    return .repaired count

abbrev System := Interleaving Backend AdapterCall Request Answer Failure AdapterResult

def System.step : System → Turn AdapterCall Fate → System := Interleaving.step serve program

def System.initial : System := ⟨⟨Database.empty, fun _ => none⟩, []⟩

end OcorRuntime.Commits

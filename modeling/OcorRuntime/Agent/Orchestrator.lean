import OcorRuntime.Capabilities.Authority
import OcorRuntime.Store.Atomicity

/-! Task assignment, commitment, handoff and dissent (`c8/orchestrator.py`). Every operation
is authorized by a capability lease and written to the canonical store before the
orchestrator's own maps change; what an operation had done before it raised stays done. -/
namespace OcorRuntime.Agent
open Store Capabilities
set_option autoImplicit false
set_option maxHeartbeats 250000

/-! ## Records -/

structure TaskAssignment where
  taskId : PyStr
  agentId : PyStr
  capability : PyStr
  assignedBy : PyStr
  assignedAt : Instant
deriving DecidableEq

structure Commitment where
  taskId : PyStr
  agentId : PyStr
  committedAt : Instant
deriving DecidableEq

structure Handoff where
  taskId : PyStr
  fromAgentId : PyStr
  toAgentId : PyStr
  reason : PyStr
  handedOffAt : Instant
deriving DecidableEq

structure Dissent where
  taskId : PyStr
  agentId : PyStr
  reason : PyStr
  registeredAt : Instant
deriving DecidableEq

/-- What an orchestrator keeps of its own. -/
structure AgentRunOrchestrator where
  assignments : Dict PyStr TaskAssignment
  commitments : Dict PyStr Commitment
  handoffs : List Handoff
  dissents : List Dissent

def AgentRunOrchestrator.create : AgentRunOrchestrator := ⟨.empty, .empty, [], []⟩

/-- An orchestrator over its authority and its store. -/
structure AgentRun where
  authority : CapabilityAuthority
  store : AtomicOutboxStore
  orchestrator : AgentRunOrchestrator

abbrev AgentAct := Op AgentRun PyError

/-- What a call is given besides its own arguments: the lease that is presented, of which only
the identifier is read, the instant, and what the stop controller, the clock and `uuid4()` answer. -/
structure Occasion where
  leaseId : PyStr
  instant : DateTime
  stop : StopEpochAuthority
  now : Instant
  transactionId : PyStr

def orchestratorError (reasonCode message : String) (args : List ErrorArg) : PyError :=
  ⟨.orchestratorError reasonCode, reasonCode ++ ": " ++ message, args⟩

/-! ## Steps of an operation -/

/-- `_authorize`. -/
def authorize (o : Occasion) (capability resource subject : PyStr) (instant : Instant) : AgentAct Unit := fun run =>
  match run.authority.authorize o.stop ⟨o.leaseId, capability, resource, .utc instant, some subject, true⟩ with
  | (.ok _, authority) => (.ok (), { run with authority })
  | (.error e, authority) =>
    (.error (if e.cls.isAuthorizationError then orchestratorError "CAPABILITY_DENIED" e.message e.args else e),
      { run with authority })

/-- A document of texts. -/
def texts (entries : List (String × PyStr)) : PyValue :=
  .mapping (entries.map fun entry => (.str (py entry.1), .str entry.2))

/-- The arguments of `self._store.write`, always as the store's own writer. -/
def request (o : Occasion) (store : AtomicOutboxStore) (aggregateId : PyStr) (document : PyValue)
    (expectedVersion : Option ℤ) (eventType : String) (idempotencyKey : PyStr) (instant : Instant) : WriteRequest where
  aggregateId := aggregateId
  document := document
  expectedVersion := expectedVersion
  writerId := store.authoritativeWriter
  eventType := py eventType
  idempotencyKey := idempotencyKey
  occurredAt := some (.utc instant)
  now := o.now
  transactionId := o.transactionId

def write (o : Occasion) (aggregateId : PyStr) (document : PyValue) (expectedVersion : Option ℤ) (eventType : String)
    (idempotencyKey : PyStr) (instant : Instant) : AgentAct Unit := fun run =>
  let written := run.store.write
    (request o run.store aggregateId document expectedVersion eventType idempotencyKey instant)
  (written.1.map fun _ => (), { run with store := written.2 })

/-- `f"{kind}:{task_id}:{number}"`. -/
def numbered (kind : String) (taskId : PyStr) (number : ℕ) : PyStr := py kind ++ py ":" ++ taskId ++ py ":" ++ natText number

/-- A write of the next version of an aggregate, under a key numbered by the version it finds. -/
def writeNext (o : Occasion) (kind : String) (taskId aggregateId : PyStr) (document : PyValue) (eventType : String)
    (instant : Instant) : AgentAct Unit := do
  let run ← Op.read
  let existing := run.store.get aggregateId
  let attempt := (existing.map StoredDocument.version).getD 0
  write o aggregateId document (existing.map fun document => document.version) eventType
    (numbered kind taskId attempt) instant

def change (f : AgentRunOrchestrator → AgentRunOrchestrator) : AgentAct Unit :=
  Op.update fun run => { run with orchestrator := f run.orchestrator }

def assignmentAggregate (taskId : PyStr) : PyStr := py "urn:ocor:agentrun:assignment:" ++ taskId

def commitmentAggregate (taskId : PyStr) : PyStr := py "urn:ocor:agentrun:commitment:" ++ taskId

/-! ## Operations -/

def assign (o : Occasion) (taskId agentId capability assignedBy : PyStr) : AgentAct TaskAssignment := do
  let instant ← Op.lift (requireAware o.instant "at")
  authorize o (py "agent:assign") agentId assignedBy instant
  writeNext o "assign" taskId (assignmentAggregate taskId)
    (texts [("task_id", taskId), ("agent_id", agentId), ("capability", capability), ("assigned_by", assignedBy)])
    "agentrun-task-assigned" instant
  let assignment : TaskAssignment := ⟨taskId, agentId, capability, assignedBy, instant⟩
  change fun own => { own with assignments := own.assignments.set taskId assignment }
  return assignment

def commit (o : Occasion) (taskId : PyStr) : AgentAct Commitment := do
  let instant ← Op.lift (requireAware o.instant "at")
  let run ← Op.read
  let assignment ← Op.lift (orRaise (run.orchestrator.assignments.get? taskId)
    (orchestratorError "UNKNOWN_TASK" "no assignment for %r" [.text taskId]))
  authorize o (py "agent:commit") assignment.agentId assignment.agentId instant
  writeNext o "commit" taskId (commitmentAggregate taskId) (texts [("task_id", taskId), ("agent_id", assignment.agentId)])
    "agentrun-task-committed" instant
  let commitment : Commitment := ⟨taskId, assignment.agentId, instant⟩
  change fun own => { own with commitments := own.commitments.set taskId commitment }
  return commitment

def handoff (o : Occasion) (taskId toAgentId reason : PyStr) : AgentAct Handoff := do
  let instant ← Op.lift (requireAware o.instant "at")
  let run ← Op.read
  let commitment ← Op.lift (orRaise (run.orchestrator.commitments.get? taskId)
    (orchestratorError "UNKNOWN_TASK" "no commitment for %r" [.text taskId]))
  Op.lift (refuseIf (reason = []) (orchestratorError "HANDOFF_REASON_REQUIRED" "a handoff requires an explicit reason" []))
  authorize o (py "agent:handoff") toAgentId toAgentId instant
  let number := run.orchestrator.handoffs.length
  write o (py "urn:ocor:agentrun:" ++ numbered "handoff" taskId number)
    (texts [("task_id", taskId), ("from_agent_id", commitment.agentId), ("to_agent_id", toAgentId), ("reason", reason)])
    none "agentrun-task-handed-off" (numbered "handoff" taskId number) instant
  let record : Handoff := ⟨taskId, commitment.agentId, toAgentId, reason, instant⟩
  change fun own => { own with handoffs := own.handoffs ++ [record] }
  let assignment ← Op.lift (subscript run.orchestrator.assignments taskId)
  change fun own => { own with
    assignments := own.assignments.set taskId { assignment with agentId := toAgentId }
    commitments := own.commitments.set taskId { commitment with agentId := toAgentId, committedAt := instant } }
  return record

def registerDissent (o : Occasion) (taskId agentId reason : PyStr) : AgentAct Dissent := do
  let instant ← Op.lift (requireAware o.instant "at")
  Op.lift (refuseIf (reason = []) (orchestratorError "DISSENT_REASON_REQUIRED" "a dissent requires an explicit reason" []))
  authorize o (py "agent:dissent") agentId agentId instant
  let run ← Op.read
  let number := run.orchestrator.dissents.length
  write o (py "urn:ocor:agentrun:" ++ numbered "dissent" taskId number)
    (texts [("task_id", taskId), ("agent_id", agentId), ("reason", reason)]) none "agentrun-dissent-registered"
    (numbered "dissent" taskId number) instant
  let record : Dissent := ⟨taskId, agentId, reason, instant⟩
  change fun own => { own with dissents := own.dissents ++ [record] }
  return record

/-! ## Calls -/

inductive Operation
  | assign (taskId agentId capability assignedBy : PyStr)
  | commit (taskId : PyStr)
  | handoff (taskId toAgentId reason : PyStr)
  | registerDissent (taskId agentId reason : PyStr)

/-- The operation, without what it returns. -/
def Operation.perform (o : Occasion) : Operation → AgentAct Unit
  | .assign taskId agentId capability assignedBy => do
    let _ ← Agent.assign o taskId agentId capability assignedBy
  | .commit taskId => do
    let _ ← Agent.commit o taskId
  | .handoff taskId toAgentId reason => do
    let _ ← Agent.handoff o taskId toAgentId reason
  | .registerDissent taskId agentId reason => do
    let _ ← Agent.registerDissent o taskId agentId reason

end OcorRuntime.Agent

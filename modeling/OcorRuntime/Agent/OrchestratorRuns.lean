import OcorRuntime.Agent.OrchestratorLaws
import OcorRuntime.Capabilities.Delegation

/-! Runs of orchestrators over one store. A numbered key that is known is older than the version
of its aggregate, so that a new assignment or commitment is always written; assignment,
commitment and their documents name one agent as long as only the committed agent is assigned
again or handed a task. -/
namespace OcorRuntime.Agent
open Canonical Store Capabilities
set_option autoImplicit false
set_option maxHeartbeats 250000

/-! ## Runs -/

/-- One call of an operation, with the authority as it finds it. -/
structure Turn where
  authority : CapabilityAuthority
  occasion : Occasion
  operation : Operation

def AgentRun.perform (run : AgentRun) (turn : Turn) : Except PyError Unit × AgentRun :=
  turn.operation.perform turn.occasion { run with authority := turn.authority }

def AgentRun.step (run : AgentRun) (turn : Turn) : AgentRun := (run.perform turn).2

/-- Several orchestrators over one store. -/
structure AgentRuns where
  store : AtomicOutboxStore
  orchestrators : List AgentRunOrchestrator

inductive AgentRuns.Call
  | create
  | perform (index : ℕ) (turn : Turn)

def AgentRuns.step (runs : AgentRuns) : AgentRuns.Call → AgentRuns
  | .create => { runs with orchestrators := runs.orchestrators ++ [.create] }
  | .perform index turn =>
    match runs.orchestrators[index]? with
    | none => runs
    | some own =>
      let after := AgentRun.step ⟨turn.authority, runs.store, own⟩ turn
      ⟨after.store, runs.orchestrators.set index after.orchestrator⟩

theorem AgentRuns.step_of_none {runs : AgentRuns} {index : ℕ} (h : runs.orchestrators[index]? = none) (turn : Turn) :
    runs.step (.perform index turn) = runs := by
  simp only [AgentRuns.step, h]

theorem AgentRuns.step_of_some {runs : AgentRuns} {index : ℕ} {own : AgentRunOrchestrator}
    (h : runs.orchestrators[index]? = some own) (turn : Turn) :
    runs.step (.perform index turn) = ⟨(AgentRun.step ⟨turn.authority, runs.store, own⟩ turn).store,
      runs.orchestrators.set index (AgentRun.step ⟨turn.authority, runs.store, own⟩ turn).orchestrator⟩ := by
  simp only [AgentRuns.step, h]

/-! ## Keys and versions -/

/-- A known key of the kind was used for a version its aggregate has passed. -/
def Versioned (kind : String) (aggregate : PyStr → PyStr) (store : AtomicOutboxStore) : Prop :=
  ∀ taskId number, (∃ eventId, store.idempotency.get? (numbered kind taskId number) = some eventId) →
    number < store.currentVersion (aggregate taskId)

theorem Versioned.wrote {kind : String} {aggregate : PyStr → PyStr} {before after : AtomicOutboxStore}
    {aggregateId key : PyStr} {document : PyValue} {eventType : String} {instant : Instant} (h : Versioned kind aggregate before)
    (hw : Wrote before aggregateId key document eventType instant after)
    (hkey : ∀ taskId number, key = numbered kind taskId number →
      aggregateId = aggregate taskId ∧ number = before.currentVersion aggregateId) : Versioned kind aggregate after := by
  intro taskId number hknown
  rcases (hw.known_iff _).mp hknown with hold | hnew
  · exact lt_of_lt_of_le (h taskId number hold) (hw.currentVersion_le _)
  · obtain ⟨hagg, hnumber⟩ := hkey taskId number hnew.symm
    cases hfree : before.idempotency.get? key with
    | some eventId =>
      rw [← hnew] at hfree
      exact lt_of_lt_of_le (h taskId number ⟨eventId, hfree⟩) (hw.currentVersion_le _)
    | none =>
      obtain ⟨d, hd, -, hversion⟩ := hw.latest hfree
      rw [← hagg, AtomicOutboxStore.currentVersion_of_some hd]
      omega

theorem Versioned.free {kind : String} {aggregate : PyStr → PyStr} {store : AtomicOutboxStore}
    (h : Versioned kind aggregate store) (taskId : PyStr) :
    store.idempotency.get? (numbered kind taskId (store.currentVersion (aggregate taskId))) = none := by
  cases hknown : store.idempotency.get? (numbered kind taskId (store.currentVersion (aggregate taskId))) with
  | none => rfl
  | some eventId => exact absurd (h taskId _ ⟨eventId, hknown⟩) (lt_irrefl _)

theorem Versioned.wrote_other {kind kind' : String} {aggregate : PyStr → PyStr} {before after : AtomicOutboxStore}
    {aggregateId taskId : PyStr} {number : ℕ} {document : PyValue} {eventType : String} {instant : Instant}
    (h : Versioned kind aggregate before)
    (hw : Wrote before aggregateId (numbered kind' taskId number) document eventType instant after)
    (hkind : (py kind').head? ≠ (py kind).head? ∧ py kind' ≠ [] ∧ py kind ≠ []) : Versioned kind aggregate after :=
  h.wrote hw fun task n hkey => absurd hkey (numbered_ne hkind.1 hkind.2.1 hkind.2.2 taskId task number n)

/-- What holds in every run: known assignment and commitment keys are of the past, and committed
tasks have an assignment. -/
structure Sound (run : AgentRun) : Prop where
  assigned : Versioned "assign" assignmentAggregate run.store
  committed : Versioned "commit" commitmentAggregate run.store
  held : run.orchestrator.Held

theorem Sound.performed {o : Occasion} {run run' : AgentRun} {operation : Operation} (hs : Sound run)
    (h : Performed o run run' operation) : Sound run' := by
  cases operation with
  | assign taskId agentId capability assignedBy =>
    obtain ⟨instant, -, -, -, hown, hw⟩ := h
    refine ⟨hs.assigned.wrote hw fun task n hkey => ?_, hs.committed.wrote_other hw (by decide), ?_⟩
    · obtain ⟨rfl, rfl⟩ := numbered_injective hkey
      exact ⟨rfl, rfl⟩
    · rw [hown]
      intro task commitment hcommitted
      obtain ⟨assignment, hassigned⟩ := hs.held task commitment hcommitted
      by_cases htask : taskId = task
      · exact ⟨_, by rw [htask, Dict.get?_set_self]⟩
      · exact ⟨assignment, by rw [Dict.get?_set_of_ne _ _ htask, hassigned]⟩
  | commit taskId =>
    obtain ⟨instant, assignment, -, hassigned, hown, hw⟩ := h
    refine ⟨hs.assigned.wrote_other hw (by decide), hs.committed.wrote hw fun task n hkey => ?_, ?_⟩
    · obtain ⟨rfl, rfl⟩ := numbered_injective hkey
      exact ⟨rfl, rfl⟩
    · rw [hown]
      intro task commitment hcommitted
      rw [Dict.get?_set] at hcommitted
      split_ifs at hcommitted with htask
      · exact ⟨assignment, htask ▸ hassigned⟩
      · exact hs.held task commitment hcommitted
  | handoff taskId toAgentId reason =>
    obtain ⟨instant, commitment, assignment, -, -, hcommitted, hassigned, -, -, hown, hw⟩ := h
    refine ⟨hs.assigned.wrote_other hw (by decide), hs.committed.wrote_other hw (by decide), ?_⟩
    rw [hown]
    intro task other hother
    by_cases htask : taskId = task
    · exact ⟨_, by rw [htask, Dict.get?_set_self]⟩
    · rw [Dict.get?_set_of_ne _ _ htask] at hother
      obtain ⟨found, hfound⟩ := hs.held task other hother
      exact ⟨found, by rw [Dict.get?_set_of_ne _ _ htask, hfound]⟩
  | registerDissent taskId agentId reason =>
    obtain ⟨instant, -, -, hown, hw⟩ := h
    refine ⟨hs.assigned.wrote_other hw (by decide), hs.committed.wrote_other hw (by decide), ?_⟩
    rw [hown]
    exact hs.held

theorem Sound.spared {run run' : AgentRun} (hs : Sound run) (h : Spared run run') : Sound run' := by
  obtain ⟨hstore, hown⟩ := h
  exact ⟨hstore ▸ hs.assigned, hstore ▸ hs.committed, hown ▸ hs.held⟩

theorem Sound.step (run : AgentRun) (turn : Turn) (hs : Sound run) : Sound (run.step turn) := by
  have hfound : Sound { run with authority := turn.authority } := ⟨hs.assigned, hs.committed, hs.held⟩
  rcases perform_cases turn.occasion _ hfound.held turn.operation with ⟨e, -, hspared⟩ | ⟨-, hperformed⟩
  · exact hfound.spared hspared
  · exact hfound.performed hperformed

/-- Every orchestrator of the run is sound over the store. -/
structure AgentRuns.Sound (runs : AgentRuns) : Prop where
  assigned : Versioned "assign" assignmentAggregate runs.store
  committed : Versioned "commit" commitmentAggregate runs.store
  held : ∀ own ∈ runs.orchestrators, own.Held

theorem held_create : AgentRunOrchestrator.create.Held := by
  intro task commitment h
  cases h

theorem AgentRuns.Sound.step (runs : AgentRuns) (call : AgentRuns.Call) (hs : runs.Sound) : (runs.step call).Sound := by
  cases call with
  | create =>
    refine ⟨hs.assigned, hs.committed, fun own hown => ?_⟩
    rcases List.mem_append.mp hown with hown | hown
    · exact hs.held own hown
    · rw [List.mem_singleton.mp hown]
      exact held_create
  | perform index turn =>
    cases hindex : runs.orchestrators[index]? with
    | none => rwa [AgentRuns.step_of_none hindex]
    | some own =>
      rw [AgentRuns.step_of_some hindex]
      have hafter := Agent.Sound.step ⟨turn.authority, runs.store, own⟩ turn
        ⟨hs.assigned, hs.committed, hs.held own (List.mem_of_getElem? hindex)⟩
      refine ⟨hafter.assigned, hafter.committed, fun other hother => ?_⟩
      rcases List.mem_or_eq_of_mem_set hother with hother | rfl
      · exact hs.held other hother
      · exact hafter.held

theorem AgentRuns.sound_start {writer : PyStr} {start : AtomicOutboxStore}
    (hstart : AtomicOutboxStore.create writer = .ok start) : AgentRuns.Sound ⟨start, []⟩ := by
  unfold AtomicOutboxStore.create at hstart
  split_ifs at hstart
  cases hstart
  refine ⟨?_, ?_, fun own hown => absurd hown (List.not_mem_nil)⟩
  · rintro task number ⟨eventId, hknown⟩
    cases hknown
  · rintro task number ⟨eventId, hknown⟩
    cases hknown

/-! ## Agreement -/

/-- The agent a stored document names. -/
def Names (d : StoredDocument) (agentId : PyStr) : Prop :=
  ∃ entries, d.document = .mapping entries ∧ Dict.find entries (.str (py "agent_id")) = some (.str agentId)

theorem Names.unique {d : StoredDocument} {agentId other : PyStr} (h : Names d agentId) (h' : Names d other) :
    agentId = other := by
  obtain ⟨entries, hd, hfind⟩ := h
  obtain ⟨entries', hd', hfind'⟩ := h'
  rw [hd] at hd'
  cases hd'
  rw [hfind] at hfind'
  cases hfind'
  rfl

theorem names_assignment {d : StoredDocument} {taskId agentId capability assignedBy : PyStr}
    (h : d.document = assignmentDocument taskId agentId capability assignedBy) : Names d agentId := by
  have hother : (MappingKey.str (py "task_id")) ≠ .str (py "agent_id") := by decide
  exact ⟨_, h, by simp [Dict.find, hother]⟩

theorem names_commitment {d : StoredDocument} {taskId agentId : PyStr}
    (h : d.document = commitmentDocument taskId agentId) : Names d agentId := by
  have hother : (MappingKey.str (py "task_id")) ≠ .str (py "agent_id") := by decide
  exact ⟨_, h, by simp [Dict.find, hother]⟩

/-- The commitment of a task names the agent of its assignment, and the latest documents of
the two aggregates name that agent. -/
structure Agrees (run : AgentRun) (taskId : PyStr) : Prop where
  same : ∀ commitment, run.orchestrator.commitments.get? taskId = some commitment →
    ∃ assignment, run.orchestrator.assignments.get? taskId = some assignment ∧ assignment.agentId = commitment.agentId
  assigned : ∀ assignment, run.orchestrator.assignments.get? taskId = some assignment →
    ∃ d, run.store.get (assignmentAggregate taskId) = some d ∧ Names d assignment.agentId
  committed : ∀ commitment, run.orchestrator.commitments.get? taskId = some commitment →
    ∃ d, run.store.get (commitmentAggregate taskId) = some d ∧ Names d commitment.agentId

/-- An assignment of a committed task, or a handoff, that goes through names the committed agent. -/
def Orderly (run : AgentRun) (turn : Turn) : Prop :=
  let found : AgentRun := { run with authority := turn.authority }
  let o := turn.occasion
  match turn.operation with
  | .assign taskId agentId capability assignedBy =>
    ∀ instant commitment, requireAware o.instant "at" = .ok instant →
      run.orchestrator.commitments.get? taskId = some commitment →
      Returns (authorize o (py "agent:assign") agentId assignedBy instant) found →
      Returns (writeNext o "assign" taskId (assignmentAggregate taskId)
        (assignmentDocument taskId agentId capability assignedBy) "agentrun-task-assigned" instant) found →
      agentId = commitment.agentId
  | .handoff taskId toAgentId reason =>
    ∀ instant commitment, requireAware o.instant "at" = .ok instant → reason ≠ [] →
      run.orchestrator.commitments.get? taskId = some commitment →
      Returns (authorize o (py "agent:handoff") toAgentId toAgentId instant) found →
      Returns (write o (py "urn:ocor:agentrun:" ++ numbered "handoff" taskId run.orchestrator.handoffs.length)
        (handoffDocument taskId commitment.agentId toAgentId reason) none "agentrun-task-handed-off"
        (numbered "handoff" taskId run.orchestrator.handoffs.length) instant) found →
      toAgentId = commitment.agentId
  | .commit _ | .registerDissent .. => True

/-! ### Aggregates -/

theorem tag_assignment (taskId : PyStr) : (assignmentAggregate taskId)[18]? = some (codePoint 97) := by
  unfold assignmentAggregate
  rw [List.getElem?_append_left (by decide)]
  decide

theorem tag_commitment (taskId : PyStr) : (commitmentAggregate taskId)[18]? = some (codePoint 99) := by
  unfold commitmentAggregate
  rw [List.getElem?_append_left (by decide)]
  decide

theorem tag_numbered {kind : String} (hkind : py kind ≠ []) (taskId : PyStr) (number : ℕ) :
    (py "urn:ocor:agentrun:" ++ numbered kind taskId number)[18]? = (py kind).head? := by
  rw [List.getElem?_append_right (by decide)]
  simp only [numbered, List.append_assoc]
  rw [show 18 - (py "urn:ocor:agentrun:").length = 0 from by decide, ← List.head?_eq_getElem?,
    List.head?_append_of_ne_nil _ hkind]

theorem assignment_ne_commitment (taskId task : PyStr) : assignmentAggregate taskId ≠ commitmentAggregate task := by
  intro h
  have htag := congrArg (fun s : PyStr => s[18]?) h
  simp only [tag_assignment, tag_commitment] at htag
  exact absurd htag (by decide)

theorem assignmentAggregate_injective : Function.Injective assignmentAggregate := fun _ _ h => List.append_cancel_left h

theorem commitmentAggregate_injective : Function.Injective commitmentAggregate := fun _ _ h => List.append_cancel_left h

theorem assignment_ne_numbered {kind : String} (hkind : py kind ≠ []) (h : (py kind).head? ≠ some (codePoint 97))
    (taskId task : PyStr) (number : ℕ) : assignmentAggregate taskId ≠ py "urn:ocor:agentrun:" ++ numbered kind task number := by
  intro heq
  have htag := congrArg (fun s : PyStr => s[18]?) heq
  simp only [tag_assignment, tag_numbered hkind] at htag
  exact h htag.symm

theorem commitment_ne_numbered {kind : String} (hkind : py kind ≠ []) (h : (py kind).head? ≠ some (codePoint 99))
    (taskId task : PyStr) (number : ℕ) : commitmentAggregate taskId ≠ py "urn:ocor:agentrun:" ++ numbered kind task number := by
  intro heq
  have htag := congrArg (fun s : PyStr => s[18]?) heq
  simp only [tag_commitment, tag_numbered hkind] at htag
  exact h htag.symm

/-! ### One turn -/

section Agreement
variable {o : Occasion} {run run' : AgentRun} {taskId task : PyStr}

theorem Agrees.unchanged (h : Agrees run task)
    (hassignment : run'.orchestrator.assignments.get? task = run.orchestrator.assignments.get? task)
    (hcommitment : run'.orchestrator.commitments.get? task = run.orchestrator.commitments.get? task)
    (hassigned : run'.store.get (assignmentAggregate task) = run.store.get (assignmentAggregate task))
    (hcommitted : run'.store.get (commitmentAggregate task) = run.store.get (commitmentAggregate task)) :
    Agrees run' task := by
  constructor
  · rw [hassignment, hcommitment]
    exact h.same
  · rw [hassignment, hassigned]
    exact h.assigned
  · rw [hcommitment, hcommitted]
    exact h.committed

theorem agrees_assign {agentId capability assignedBy : PyStr} (hs : Sound run) (h : ∀ task, Agrees run task)
    (hagent : ∀ commitment, run.orchestrator.commitments.get? taskId = some commitment → agentId = commitment.agentId)
    (hperformed : Performed o run run' (.assign taskId agentId capability assignedBy)) (task : PyStr) : Agrees run' task := by
  obtain ⟨instant, -, -, -, hown, hw⟩ := hperformed
  have hcommitted : run'.store.get (commitmentAggregate task) = run.store.get (commitmentAggregate task) :=
    hw.get_of_ne (assignment_ne_commitment taskId task).symm
  by_cases htask : taskId = task
  · subst htask
    obtain ⟨d, hd, hdocument, -⟩ := hw.latest (hs.assigned.free taskId)
    constructor
    · intro commitment hcommitment
      rw [hown] at hcommitment ⊢
      exact ⟨_, Dict.get?_set_self .., hagent commitment hcommitment⟩
    · intro assignment hassignment
      rw [hown, Dict.get?_set_self] at hassignment
      cases hassignment
      exact ⟨d, hd, names_assignment hdocument⟩
    · intro commitment hcommitment
      rw [hown] at hcommitment
      rw [hcommitted]
      exact (h taskId).committed commitment hcommitment
  · refine (h task).unchanged ?_ ?_ ?_ hcommitted
    · rw [hown, Dict.get?_set_of_ne _ _ htask]
    · rw [hown]
    · exact hw.get_of_ne fun heq => htask (assignmentAggregate_injective heq).symm

theorem agrees_commit (hs : Sound run) (h : ∀ task, Agrees run task) (hperformed : Performed o run run' (.commit taskId))
    (task : PyStr) : Agrees run' task := by
  obtain ⟨instant, assignment, -, hassignment, hown, hw⟩ := hperformed
  have hassigned : run'.store.get (assignmentAggregate task) = run.store.get (assignmentAggregate task) :=
    hw.get_of_ne (assignment_ne_commitment task taskId)
  by_cases htask : taskId = task
  · subst htask
    obtain ⟨d, hd, hdocument, -⟩ := hw.latest (hs.committed.free taskId)
    constructor
    · intro commitment hcommitment
      rw [hown, Dict.get?_set_self] at hcommitment
      cases hcommitment
      rw [hown]
      exact ⟨assignment, hassignment, rfl⟩
    · intro found hfound
      rw [hown] at hfound
      rw [hassigned]
      exact (h taskId).assigned found hfound
    · intro commitment hcommitment
      rw [hown, Dict.get?_set_self] at hcommitment
      cases hcommitment
      exact ⟨d, hd, names_commitment hdocument⟩
  · refine (h task).unchanged ?_ ?_ hassigned ?_
    · rw [hown]
    · rw [hown, Dict.get?_set_of_ne _ _ htask]
    · exact hw.get_of_ne fun heq => htask (commitmentAggregate_injective heq).symm

theorem agrees_handoff {toAgentId reason : PyStr} (h : ∀ task, Agrees run task)
    (hagent : ∀ commitment, run.orchestrator.commitments.get? taskId = some commitment → toAgentId = commitment.agentId)
    (hperformed : Performed o run run' (.handoff taskId toAgentId reason)) (task : PyStr) : Agrees run' task := by
  obtain ⟨instant, commitment, assignment, -, -, hcommitment, hassignment, -, -, hown, hw⟩ := hperformed
  have hassigned : run'.store.get (assignmentAggregate task) = run.store.get (assignmentAggregate task) :=
    hw.get_of_ne (assignment_ne_numbered (by decide) (by decide) task taskId _)
  have hcommitted : run'.store.get (commitmentAggregate task) = run.store.get (commitmentAggregate task) :=
    hw.get_of_ne (commitment_ne_numbered (by decide) (by decide) task taskId _)
  by_cases htask : taskId = task
  · subst htask
    have hto := hagent commitment hcommitment
    obtain ⟨found, hfound, hsame⟩ := (h taskId).same commitment hcommitment
    rw [hassignment] at hfound
    cases hfound
    constructor
    · intro after hafter
      rw [hown, Dict.get?_set_self] at hafter
      cases hafter
      rw [hown]
      exact ⟨_, Dict.get?_set_self .., rfl⟩
    · intro after hafter
      rw [hown, Dict.get?_set_self] at hafter
      cases hafter
      rw [hassigned, hto, ← hsame]
      exact (h taskId).assigned assignment hassignment
    · intro after hafter
      rw [hown, Dict.get?_set_self] at hafter
      cases hafter
      rw [hcommitted, hto]
      exact (h taskId).committed commitment hcommitment
  · refine (h task).unchanged ?_ ?_ hassigned hcommitted
    · rw [hown, Dict.get?_set_of_ne _ _ htask]
    · rw [hown, Dict.get?_set_of_ne _ _ htask]

theorem agrees_registerDissent {agentId reason : PyStr} (h : ∀ task, Agrees run task)
    (hperformed : Performed o run run' (.registerDissent taskId agentId reason)) (task : PyStr) : Agrees run' task := by
  obtain ⟨instant, -, -, hown, hw⟩ := hperformed
  refine (h task).unchanged ?_ ?_ ?_ ?_
  · rw [hown]
  · rw [hown]
  · exact hw.get_of_ne (assignment_ne_numbered (by decide) (by decide) task taskId _)
  · exact hw.get_of_ne (commitment_ne_numbered (by decide) (by decide) task taskId _)

end Agreement

theorem AgentRun.step_performed {α : Type} {run : AgentRun} (turn : Turn) {x : AgentAct α} (hs : Sound run)
    (hx : turn.operation.perform turn.occasion = (do let _ ← x))
    (h : Returns x { run with authority := turn.authority }) :
    Performed turn.occasion { run with authority := turn.authority } (run.step turn) turn.operation :=
  performed_of_returns turn.operation hs.held hx h

theorem agrees_of_orderly {run : AgentRun} {turn : Turn} (hs : Sound run) (h : ∀ task, Agrees run task)
    (horderly : Orderly run turn) (task : PyStr) : Agrees (run.step turn) task := by
  have hfound : Sound { run with authority := turn.authority } := ⟨hs.assigned, hs.committed, hs.held⟩
  have hagrees : ∀ task, Agrees { run with authority := turn.authority } task :=
    fun task => ⟨(h task).same, (h task).assigned, (h task).committed⟩
  obtain ⟨authority, o, operation⟩ := turn
  rcases perform_cases o _ hfound.held operation with ⟨e, -, hstore, hown⟩ | ⟨-, hperformed⟩
  · exact (hagrees task).unchanged (by rw [← hown]; rfl) (by rw [← hown]; rfl) (by rw [← hstore]; rfl) (by rw [← hstore]; rfl)
  · have hdone := hperformed
    cases operation with
    | assign taskId agentId capability assignedBy =>
      obtain ⟨instant, haware, hauthorized, hwritten, -⟩ := hdone
      exact agrees_assign hfound hagrees (fun c hc => horderly instant c haware hc hauthorized hwritten) hperformed task
    | commit taskId => exact agrees_commit hfound hagrees hperformed task
    | handoff taskId toAgentId reason =>
      obtain ⟨instant, commitment, assignment, haware, hreason, hcommitment, -, hauthorized, hwritten, -⟩ := hdone
      refine agrees_handoff hagrees (fun c hc => ?_) hperformed task
      rw [hcommitment] at hc
      cases hc
      exact horderly instant commitment haware hreason hcommitment hauthorized hwritten
    | registerDissent taskId agentId reason => exact agrees_registerDissent hagrees hperformed task

theorem orderly_of_agrees {run : AgentRun} {turn : Turn} (hs : Sound run) (h : ∀ task, Agrees run task)
    (hafter : ∀ task, Agrees (run.step turn) task) : Orderly run turn := by
  obtain ⟨authority, o, operation⟩ := turn
  cases operation with
  | assign taskId agentId capability assignedBy =>
    intro instant commitment haware hcommitment hauthorized hwritten
    obtain ⟨instant', -, -, -, hown, -⟩ := AgentRun.step_performed
      ⟨authority, o, .assign taskId agentId capability assignedBy⟩ hs rfl
      (assign_returns haware hauthorized hwritten)
    obtain ⟨assignment, hassignment, hsame⟩ := (hafter taskId).same commitment
      ((congrArg (fun own => own.commitments.get? taskId) hown).trans hcommitment)
    have hnew := (congrArg (fun own => own.assignments.get? taskId) hown).trans (Dict.get?_set_self ..)
    cases hassignment.symm.trans hnew
    exact hsame
  | handoff taskId toAgentId reason =>
    intro instant commitment haware hreason hcommitment hauthorized hwritten
    obtain ⟨instant', found, assignment, -, -, hfound, hassignment, -, -, hown, hw⟩ :=
      AgentRun.step_performed ⟨authority, o, .handoff taskId toAgentId reason⟩ hs rfl
        (handoff_returns hs.held haware hreason hcommitment hauthorized hwritten)
    have hnew := (congrArg (fun own => own.assignments.get? taskId) hown).trans (Dict.get?_set_self ..)
    obtain ⟨d, hd, hnames⟩ := (hafter taskId).assigned _ hnew
    have hstored := hd.symm.trans (hw.get_of_ne (assignment_ne_numbered (by decide) (by decide) taskId taskId _))
    -- the handoff has left the document that names the agent it was taken from
    obtain ⟨before, hbefore, hagent⟩ := (h taskId).same commitment hcommitment
    obtain ⟨d', hd', hnames'⟩ := (h taskId).assigned before hbefore
    cases (hd'.symm.trans hstored.symm)
    rw [← hagent]
    exact hnames.unique hnames'
  | commit _ => trivial
  | registerDissent _ _ _ => trivial

/-! ### Runs of one orchestrator -/

/-- A new orchestrator over the store that a run of others has left. -/
def AgentRuns.opened (runs : AgentRuns) (authority : CapabilityAuthority) : AgentRun := ⟨authority, runs.store, .create⟩

def AgreesThroughout (begun : AgentRun) (turns : List Turn) : Prop :=
  ∀ before after, turns = before ++ after → ∀ task, Agrees (run AgentRun.step begun before) task

theorem AgentRuns.sound_run {writer : PyStr} {start : AtomicOutboxStore}
    (hstart : AtomicOutboxStore.create writer = .ok start) (calls : List AgentRuns.Call) :
    AgentRuns.Sound (run AgentRuns.step ⟨start, []⟩ calls) :=
  run_induction AgentRuns.Sound.step (AgentRuns.sound_start hstart) calls

theorem AgentRuns.Sound.opened {runs : AgentRuns} (h : runs.Sound) (authority : CapabilityAuthority) :
    Agent.Sound (runs.opened authority) := ⟨h.assigned, h.committed, held_create⟩

theorem agrees_opened (runs : AgentRuns) (authority : CapabilityAuthority) (task : PyStr) :
    Agrees (runs.opened authority) task := by
  constructor <;> intro _ h <;> cases h

/-- **Assignment, commitment and their durable documents name one agent in every state of a run, exactly
if no assignment of a committed task and no handoff that goes through names another agent than the
committed one.** In every run an operation that raises leaves the orchestrator as it was. -/
theorem agreesThroughout_iff {writer : PyStr} {start : AtomicOutboxStore}
    (hstart : AtomicOutboxStore.create writer = .ok start) (earlier : List AgentRuns.Call) (authority : CapabilityAuthority)
    (turns : List Turn) :
    let begun := (run AgentRuns.step ⟨start, []⟩ earlier).opened authority
    (AgreesThroughout begun turns ↔ AllSteps AgentRun.step Orderly begun turns) ∧
      ∀ before turn after e, turns = before ++ turn :: after →
        ((run AgentRun.step begun before).perform turn).1 = .error e →
        ((run AgentRun.step begun before).perform turn).2.orchestrator = (run AgentRun.step begun before).orchestrator := by
  intro begun
  have hbegun : Sound begun := (AgentRuns.sound_run hstart earlier).opened authority
  constructor
  · exact run_prefixes_iff (P := fun s => ∀ task, Agrees s task) Sound.step
      (fun s turn hs h => ⟨orderly_of_agrees hs h, agrees_of_orderly hs h⟩) hbegun (agrees_opened _ authority) turns
  · intro before turn after e _ herror
    have hs : Sound (run AgentRun.step begun before) := run_induction Sound.step hbegun before
    rcases perform_cases turn.occasion
      { run AgentRun.step begun before with authority := turn.authority } hs.held turn.operation with ⟨e', -, -, hown⟩ | ⟨hok, -⟩
    · exact hown
    · exact absurd (hok.symm.trans herror) (by simp)

/-! ### The first handoff -/

section FirstHandoff
variable {begun : AgentRun} {T a b c m r : PyStr} {o₁ o₂ o₃ : Occasion} {t₁ t₂ t₃ : Instant}
  {authority₁ authority₂ authority₃ : CapabilityAuthority}

/-- The authority grants the call that is made at the occasion. -/
def Grants (authority : CapabilityAuthority) (o : Occasion) (capability resource subject : PyStr) (instant : Instant) : Prop :=
  (authority.authorize o.stop ⟨o.leaseId, capability, resource, .utc instant, some subject, true⟩).1.isOk

instance (authority : CapabilityAuthority) (o : Occasion) (capability resource subject : PyStr) (instant : Instant) :
    Decidable (Grants authority o capability resource subject instant) := inferInstanceAs (Decidable (_ = _))

/-- The first assignment, commitment and handoff of a task over an empty store, all of them authorized: the handoff
goes through, and unless it names the committed agent the document of the assignment names another one. -/
theorem handoff_not_agreesThroughout (hs : Sound begun) (hdocuments : begun.store.documents = .empty)
    (hkeys : begun.store.idempotency = .empty) (hown : begun.orchestrator = .create)
    (hscalar : Scalar T ∧ Scalar a ∧ Scalar b ∧ Scalar c ∧ Scalar m ∧ Scalar r) (hreason : r ≠ []) (hagents : b ≠ a)
    (h₁ : requireAware o₁.instant "at" = .ok t₁) (h₂ : requireAware o₂.instant "at" = .ok t₂)
    (h₃ : requireAware o₃.instant "at" = .ok t₃) (hassign : Grants authority₁ o₁ (py "agent:assign") a m t₁)
    (hcommit : Grants authority₂ o₂ (py "agent:commit") a a t₂)
    (hhandoff : Grants authority₃ o₃ (py "agent:handoff") b b t₃) :
    ¬ AgreesThroughout begun [⟨authority₁, o₁, .assign T a c m⟩, ⟨authority₂, o₂, .commit T⟩,
      ⟨authority₃, o₃, .handoff T b r⟩] := by
  obtain ⟨hT, ha, hb, hc, hm, hr⟩ := hscalar
  intro h
  have hbefore := h [⟨authority₁, o₁, .assign T a c m⟩, ⟨authority₂, o₂, .commit T⟩] [⟨authority₃, o₃, .handoff T b r⟩] rfl
  have hafter := h _ [] (List.append_nil _).symm
  simp only [run_cons, run_nil] at hbefore hafter
  -- the assignment
  have hassigns : Returns (assign o₁ T a c m) { begun with authority := authority₁ } := by
    refine assign_returns h₁ (returns_authorize hassign) (returns_writeNext ?_ hT ?_ ?_ (hs.assigned.free T) fun d hd => ?_)
    · exact Kernel.scalar_append.2 ⟨Kernel.scalar_py _, hT⟩
    · simp [hT, ha, hc, hm]
    · exact ⟨List.append_ne_nil_of_left_ne_nil (by decide) T, by decide⟩
    · rw [hdocuments] at hd
      cases hd
  obtain ⟨instant, -, -, -, hassigned, hw⟩ := AgentRun.step_performed ⟨authority₁, o₁, .assign T a c m⟩ hs rfl hassigns
  have hs' := Sound.step begun ⟨authority₁, o₁, .assign T a c m⟩ hs
  generalize begun.step ⟨authority₁, o₁, .assign T a c m⟩ = assigned at *
  have hassignment : assigned.orchestrator.assignments.get? T = some ⟨T, a, c, m, instant⟩ := by
    rw [hassigned]
    exact Dict.get?_set_self ..
  -- the commitment
  have hcommits : Returns (commit o₂ T) { assigned with authority := authority₂ } := by
    refine commit_returns h₂ hassignment (returns_authorize hcommit)
      (returns_writeNext ?_ hT ?_ ?_ (hs'.committed.free T) fun d hd => ?_)
    · exact Kernel.scalar_append.2 ⟨Kernel.scalar_py _, hT⟩
    · simp [hT, ha]
    · exact ⟨List.append_ne_nil_of_left_ne_nil (by decide) T, by decide⟩
    · have hnone := hw.get_of_ne (assignment_ne_commitment T T).symm
      rw [AtomicOutboxStore.get, hd, AtomicOutboxStore.get, hdocuments] at hnone
      cases hnone
  obtain ⟨instant', assignment, -, hfound, hcommitted, hw'⟩ :=
    AgentRun.step_performed ⟨authority₂, o₂, .commit T⟩ hs' rfl hcommits
  have hs'' := Sound.step assigned ⟨authority₂, o₂, .commit T⟩ hs'
  generalize assigned.step ⟨authority₂, o₂, .commit T⟩ = committed at *
  have hagent : assignment.agentId = a := by
    cases hfound.symm.trans hassignment
    rfl
  have hcommitment : committed.orchestrator.commitments.get? T = some ⟨T, assignment.agentId, instant'⟩ := by
    rw [hcommitted]
    exact Dict.get?_set_self ..
  have hhandoffs : committed.orchestrator.handoffs = [] := by
    rw [hcommitted, hassigned, hown]
    rfl
  -- the handoff, under a key and an aggregate no write has used
  have hfree : committed.store.idempotency.get? (numbered "handoff" T 0) = none := by
    rw [Option.eq_none_iff_forall_ne_some]
    intro eventId hid
    rcases (hw'.known_iff _).mp ⟨eventId, hid⟩ with hknown | hkey
    · rcases (hw.known_iff _).mp hknown with ⟨id, hid⟩ | hkey
      · rw [hkeys] at hid
        cases hid
      · exact numbered_ne (by decide) (by decide) (by decide) _ _ _ _ hkey
    · exact numbered_ne (by decide) (by decide) (by decide) _ _ _ _ hkey
  have hunused : committed.store.get (py "urn:ocor:agentrun:" ++ numbered "handoff" T 0) = none := by
    rw [hw'.get_of_ne (commitment_ne_numbered (by decide) (by decide) _ _ _).symm,
      hw.get_of_ne (assignment_ne_numbered (by decide) (by decide) _ _ _).symm, AtomicOutboxStore.get, hdocuments]
    rfl
  have hwrite : Returns (write o₃ (py "urn:ocor:agentrun:" ++ numbered "handoff" T committed.orchestrator.handoffs.length)
      (handoffDocument T assignment.agentId b r) none "agentrun-task-handed-off"
      (numbered "handoff" T committed.orchestrator.handoffs.length) t₃) { committed with authority := authority₃ } := by
    rw [hhandoffs, hagent]
    refine returns_write (accepted_texts ?_ (scalar_numbered hT) ?_ ?_ (by simp) hfree fun d hd => ?_)
    · exact Kernel.scalar_append.2 ⟨Kernel.scalar_py _, scalar_numbered hT⟩
    · simp [hT, ha, hb, hr]
    · exact ⟨List.append_ne_nil_of_left_ne_nil (by decide) _, by decide, numbered_ne_nil "handoff" T _⟩
    · exact absurd (hunused.symm.trans hd) (by simp)
  have horderly := orderly_of_agrees hs'' hbefore hafter t₃ _ h₃ hreason hcommitment (returns_authorize hhandoff) hwrite
  exact hagents (horderly.trans hagent)

end FirstHandoff

/-- An authority that has issued its subject a lease for everything. -/
def sampleAuthority (subject : PyStr) : CapabilityAuthority :=
  CapabilityAuthority.step ⟨py "i", .empty, .empty, none, 0, 0⟩ (CapabilityAuthority.idleStop, .issue {
    subject, capabilities := [py "*"], resources := [py "*"], issuedAt := .utc 0,
    expiresAt := some (.utc 200), leaseId := some (py "L"), uuid := py "u" })

def sampleOccasion (t : Instant) : Occasion := ⟨py "L", .utc t, CapabilityAuthority.idleStop, t, py "tx"⟩

def sampleStore : AtomicOutboxStore := ⟨py "ocor-core", .empty, .empty, .empty⟩

theorem sampleStore_created : AtomicOutboxStore.create (py "ocor-core") = .ok sampleStore := rfl

def sampleStart : AgentRun := AgentRuns.opened ⟨sampleStore, []⟩ (sampleAuthority (py "m"))

def sampleAssign : Turn := ⟨sampleAuthority (py "m"), sampleOccasion 1, .assign (py "t") (py "a") (py "c") (py "m")⟩

def sampleCommit : Turn := ⟨sampleAuthority (py "a"), sampleOccasion 2, .commit (py "t")⟩

def sampleHandoff : Turn := ⟨sampleAuthority (py "b"), sampleOccasion 3, .handoff (py "t") (py "b") (py "r")⟩

theorem agreesThroughout_iff_sampleAssign :
    AgreesThroughout sampleStart [sampleAssign] ↔ AllSteps AgentRun.step Orderly sampleStart [sampleAssign] :=
  (agreesThroughout_iff sampleStore_created [] (sampleAuthority (py "m")) [sampleAssign]).1

theorem sampleHandoff_not_agreesThroughout :
    ¬ AgreesThroughout sampleStart [sampleAssign, sampleCommit, sampleHandoff] := by
  have hassign : Grants (sampleAuthority (py "m")) (sampleOccasion 1) (py "agent:assign") (py "a") (py "m") 1 := by
    decide
  have hcommit : Grants (sampleAuthority (py "a")) (sampleOccasion 2) (py "agent:commit") (py "a") (py "a") 2 := by
    decide
  have hhandoff : Grants (sampleAuthority (py "b")) (sampleOccasion 3) (py "agent:handoff") (py "b") (py "b") 3 := by
    decide
  exact handoff_not_agreesThroughout ((AgentRuns.sound_start sampleStore_created).opened _) rfl rfl rfl (by decide) (by decide) (by decide) rfl rfl rfl
    hassign hcommit hhandoff

end OcorRuntime.Agent

import OcorRuntime.Agent.Orchestrator
import OcorRuntime.Base.CalendarLaws
import OcorRuntime.Store.Acceptance

/-! What the operations of an orchestrator leave behind. One that returns made a single write
under a numbered key and then its own change; one that raises changed neither. -/
namespace OcorRuntime.Agent
open Canonical Store Capabilities
set_option autoImplicit false
set_option maxHeartbeats 250000

/-! ## Numbered keys -/

theorem colon_notMem_natText (n : ℕ) : codePoint 58 ∉ natText n :=
  fun h => absurd (natText_digits n _ h) (by decide)

theorem numbered_injective {kind : String} {task task' : PyStr} {number number' : ℕ}
    (h : numbered kind task number = numbered kind task' number') : task = task' ∧ number = number' := by
  have hcolon : py ":" = [codePoint 58] := by decide
  unfold numbered at h
  have htail : task ++ (py ":" ++ natText number) = task' ++ (py ":" ++ natText number') := by
    simpa only [List.append_assoc, List.append_cancel_left_eq] using h
  rw [hcolon, List.singleton_append, List.singleton_append] at htail
  obtain ⟨htask, hnumber⟩ := append_cons_inj_right (colon_notMem_natText number) (colon_notMem_natText number') htail
  refine ⟨htask, ?_⟩
  rw [← digitsValue_natText number, hnumber, digitsValue_natText]

theorem numbered_ne {kind kind' : String} (h : (py kind).head? ≠ (py kind').head?) (hkind : py kind ≠ [])
    (hkind' : py kind' ≠ []) (task task' : PyStr) (number number' : ℕ) :
    numbered kind task number ≠ numbered kind' task' number' := by
  intro heq
  have hhead := congrArg List.head? heq
  simp only [numbered, List.append_assoc, List.head?_append_of_ne_nil _ hkind, List.head?_append_of_ne_nil _ hkind'] at hhead
  exact h hhead

/-! ## Writes -/

theorem freezeEntries_texts (entries : List (String × PyStr)) :
    freezeEntries (entries.map fun entry => (MappingKey.str (py entry.1), PyValue.str entry.2)) =
      .ok (entries.map fun entry => (MappingKey.str (py entry.1), PyValue.str entry.2)) := by
  induction entries with
  | nil => rfl
  | cons entry entries ih =>
    rw [List.map_cons, freezeEntries, ih]
    rfl

theorem freezeJson_texts (entries : List (String × PyStr)) : freezeJson (texts entries) = .ok (texts entries) := by
  have hkeys : ∀ entry ∈ entries.map fun entry => (MappingKey.str (py entry.1), PyValue.str entry.2),
      (MappingKey.str? entry.1).isSome := by
    intro entry h
    obtain ⟨source, -, rfl⟩ := List.mem_map.mp h
    rfl
  rw [texts, freezeJson, if_pos hkeys, freezeEntries_texts]
  rfl

/-- A publication of a document under a key. -/
structure Published (before : AtomicOutboxStore) (aggregateId key : PyStr) (document : PyValue) (eventType : String)
    (instant : Instant) (d : StoredDocument) (e : OutboxEvent) : Prop where
  publishable : before.Publishable d e
  aggregate : e.aggregateId = aggregateId
  keyed : e.idempotencyKey = key
  holds : d.document = document
  payload : e.payload = document
  typed : e.eventType = py eventType
  time : d.updatedAt = instant

/-- What a write that returns leaves: the store as it was where its key was known, else one publication. -/
inductive Wrote (before : AtomicOutboxStore) (aggregateId key : PyStr) (document : PyValue) (eventType : String)
    (instant : Instant) : AtomicOutboxStore → Prop
  | replayed (h : ∃ eventId, before.idempotency.get? key = some eventId) :
    Wrote before aggregateId key document eventType instant before
  | published {d : StoredDocument} {e : OutboxEvent} (h : Published before aggregateId key document eventType instant d e) :
    Wrote before aggregateId key document eventType instant (before.publish d e)

section Wrote
variable {before after : AtomicOutboxStore} {aggregateId key : PyStr} {document : PyValue} {eventType : String}
  {instant : Instant}

theorem Wrote.known_iff (h : Wrote before aggregateId key document eventType instant after) (k : PyStr) :
    (∃ eventId, after.idempotency.get? k = some eventId) ↔
      (∃ eventId, before.idempotency.get? k = some eventId) ∨ k = key := by
  cases h with
  | replayed hknown =>
    constructor
    · exact Or.inl
    · rintro (h | rfl)
      · exact h
      · exact hknown
  | published h =>
    rw [AtomicOutboxStore.publish, Dict.get?_set, h.keyed]
    by_cases hk : key = k
    · simp [hk]
    · simp [hk, Ne.symm hk]

theorem Wrote.get_of_ne (h : Wrote before aggregateId key document eventType instant after) {a : PyStr} (ha : a ≠ aggregateId) :
    after.get a = before.get a := by
  cases h with
  | replayed => rfl
  | published h =>
    refine Dict.get?_set_of_ne _ _ ?_
    rw [h.publishable.aggregate, h.aggregate]
    exact Ne.symm ha

theorem Wrote.currentVersion_le (h : Wrote before aggregateId key document eventType instant after) (a : PyStr) :
    before.currentVersion a ≤ after.currentVersion a := by
  by_cases ha : a = aggregateId
  · subst ha
    cases h with
    | replayed => rfl
    | @published d e h =>
      have hversion := h.publishable.version
      rw [h.aggregate] at hversion
      have hnow : (before.publish d e).documents.get? a = some d := by
        rw [AtomicOutboxStore.publish, h.publishable.aggregate, h.aggregate]
        exact Dict.get?_set_self ..
      rw [AtomicOutboxStore.currentVersion_of_some hnow]
      omega
  · have hget := h.get_of_ne ha
    unfold AtomicOutboxStore.get at hget
    rw [AtomicOutboxStore.currentVersion, AtomicOutboxStore.currentVersion, hget]

theorem Wrote.time (h : Wrote before aggregateId key document eventType instant after) {a : PyStr} {d : StoredDocument}
    (hd : after.get a = some d) : before.get a = some d ∨ d.updatedAt = instant := by
  cases h with
  | replayed => exact Or.inl hd
  | @published d' e h =>
    rw [AtomicOutboxStore.get, AtomicOutboxStore.publish, Dict.get?_set] at hd
    split_ifs at hd
    · cases hd
      exact Or.inr h.time
    · exact Or.inl hd

theorem Wrote.eq_of_known (h : Wrote before aggregateId key document eventType instant after)
    (hknown : ∃ eventId, before.idempotency.get? key = some eventId) : after = before := by
  cases h with
  | replayed => rfl
  | published h =>
    obtain ⟨eventId, hid⟩ := hknown
    have hfree := h.publishable.key_new
    rw [h.keyed, hid] at hfree
    cases hfree

theorem Wrote.latest (h : Wrote before aggregateId key document eventType instant after)
    (hfree : before.idempotency.get? key = none) :
    ∃ d, after.get aggregateId = some d ∧ d.document = document ∧ d.version = before.currentVersion aggregateId + 1 := by
  cases h with
  | replayed hknown =>
    obtain ⟨eventId, hid⟩ := hknown
    rw [hfree] at hid
    cases hid
  | published h =>
    refine ⟨_, ?_, h.holds, ?_⟩
    · rw [AtomicOutboxStore.get, AtomicOutboxStore.publish, h.publishable.aggregate, h.aggregate]
      exact Dict.get?_set_self ..
    · rw [h.publishable.version, h.aggregate]

end Wrote

section Steps
variable {o : Occasion} {run run' : AgentRun} {instant : Instant} {aggregateId key : PyStr} {document : PyValue}
  {version : Option ℤ} {eventType : String} {u : Unit} {err : PyError}

theorem write_returned (hfrozen : freezeJson document = .ok document)
    (h : write o aggregateId document version eventType key instant run = (.ok u, run')) :
    ∃ store, run' = { run with store } ∧ Wrote run.store aggregateId key document eventType instant store := by
  unfold write at h
  generalize hr : request o run.store aggregateId document version eventType key instant = r at h
  have hwindow : r.crashWindow = none := by
    rw [← hr]
    rfl
  cases hw : (run.store.write r).1 with
  | error e =>
    simp [hw, Except.map] at h
  | ok result =>
    simp only [hw, Except.map, Prod.mk.injEq, true_and] at h
    refine ⟨_, h.symm, ?_⟩
    rcases AtomicOutboxStore.write_returned hwindow hw with ⟨hknown, hstore⟩ | ⟨d, e, hp, hstore⟩
    · rw [hstore]
      rw [← hr] at hknown
      exact .replayed hknown
    · rw [← hr] at hp
      have hdocument : freezeJson document = .ok d.document := hp.document
      have hpayload : freezeJson document = .ok e.payload := hp.payload
      have htime : requireAware (.utc instant) "occurred_at" = .ok d.updatedAt := hp.time
      rw [requireAware_utc] at htime
      rw [hfrozen] at hdocument hpayload
      rw [hstore]
      exact .published ⟨hp.publishable, hp.aggregate, hp.key, (Except.ok.inj hdocument).symm,
        (Except.ok.inj hpayload).symm, hp.eventType,
        (Except.ok.inj htime).symm⟩

theorem write_raised (h : write o aggregateId document version eventType key instant run = (.error err, run')) :
    run' = run := by
  unfold write at h
  generalize hr : request o run.store aggregateId document version eventType key instant = r at h
  have hwindow : r.crashWindow = none := by
    rw [← hr]
    rfl
  cases hw : (run.store.write r).1 with
  | ok result => simp [hw, Except.map] at h
  | error e =>
    simp only [hw, Except.map, Prod.mk.injEq] at h
    rw [← h.2, AtomicOutboxStore.write_raised hwindow hw]

theorem scalar_numbered {kind : String} {task : PyStr} {number : ℕ} (h : Scalar task) :
    Scalar (numbered kind task number) := by
  simp [numbered, h, scalar_natText, Kernel.scalar_py]

theorem numbered_ne_nil (kind : String) (task : PyStr) (number : ℕ) : numbered kind task number ≠ [] := by
  simp [numbered, natText_ne_nil]

theorem canonicalize_texts {entries : List (String × PyStr)} (h : ∀ entry ∈ entries, Scalar entry.2) :
    ∃ bytes, canonicalize (texts entries) = .ok bytes := by
  refine canonicalize_mapping_iff.2 ⟨fun e he => ?_, fun e he => ?_⟩
  · obtain ⟨entry, -, rfl⟩ := List.mem_map.mp he
    exact ⟨_, rfl, Kernel.scalar_py _⟩
  · obtain ⟨entry, hentry, rfl⟩ := List.mem_map.mp he
    exact serialize_text (h entry hentry)

theorem scalar_of_canonicalize_texts {entries : List (String × PyStr)} {bytes : Bytes}
    (h : canonicalize (texts entries) = .ok bytes) : ∀ entry ∈ entries, Scalar entry.2 := by
  intro entry hentry
  exact scalar_of_canonicalize h (py entry.1) (List.mem_map.mpr ⟨entry, hentry, rfl⟩)

theorem accepted_texts {store : AtomicOutboxStore} {entries : List (String × PyStr)} (haggregate : Scalar aggregateId)
    (hkey : Scalar key) (hentries : ∀ entry ∈ entries, Scalar entry.2)
    (hnamed : aggregateId ≠ [] ∧ py eventType ≠ [] ∧ key ≠ [])
    (hexpected : ∀ v, version = some v → v = store.currentVersion aggregateId) (hfree : store.idempotency.get? key = none)
    (hpast : ∀ d, store.documents.get? aggregateId = some d → d.updatedAt ≤ instant) :
    store.Accepted (request o store aggregateId (texts entries) version eventType key instant) instant where
  named := hnamed
  scalar := ⟨haggregate, Kernel.scalar_py _, hkey⟩
  expected := hexpected
  writer := rfl
  aware := requireAware_utc instant "occurred_at"
  frozen := freezeJson_texts entries
  payload := rfl
  canonical := canonicalize_texts hentries
  key := hfree
  past := hpast
  window := rfl

/-- The computation returns in this state. -/
def Returns {α : Type} (x : AgentAct α) (run : AgentRun) : Prop := ∃ a, (x run).1 = .ok a

theorem Returns.of_eq {α : Type} {x : AgentAct α} {a : α} (h : x run = (.ok a, run')) : Returns x run :=
  ⟨a, by rw [h]⟩

/-- What an operation that raises leaves as it was. -/
def Spared (run run' : AgentRun) : Prop := run'.store = run.store ∧ run'.orchestrator = run.orchestrator

theorem Spared.refl (run : AgentRun) : Spared run run := ⟨rfl, rfl⟩

theorem lift_spared {α : Type} {x outcome : Except PyError α} (h : Op.lift x run = (outcome, run')) : Spared run run' := by
  obtain ⟨-, rfl⟩ := Prod.mk.inj h
  exact .refl run

theorem authorize_spared {capability resource subject : PyStr} {outcome : Except PyError Unit}
    (h : authorize o capability resource subject instant run = (outcome, run')) : Spared run run' := by
  unfold authorize at h
  split at h <;> cases h <;> exact ⟨rfl, rfl⟩

theorem returns_write
    (h : run.store.Accepted (request o run.store aggregateId document version eventType key instant) instant) :
    Returns (write o aggregateId document version eventType key instant) run := by
  obtain ⟨d, e, -, hw⟩ := h.write
  unfold Returns write
  rw [hw]
  exact ⟨_, rfl⟩

theorem returns_write_scalar {entries : List (String × PyStr)}
    (h : Returns (write o aggregateId (texts entries) version eventType key instant) run) :
    ∀ entry ∈ entries, Scalar entry.2 := by
  obtain ⟨u, hu⟩ := h
  unfold write at hu
  generalize hr : request o run.store aggregateId (texts entries) version eventType key instant = r at hu
  cases hw : (run.store.write r).1 with
  | error e => simp [hw, Except.map] at hu
  | ok result =>
    obtain ⟨document, payload, bytes, hdocument, -, hbytes⟩ := AtomicOutboxStore.write_canonical hw
    rw [← hr] at hdocument hbytes
    have hfrozen : freezeJson (texts entries) = .ok document := hdocument
    rw [freezeJson_texts] at hfrozen
    cases hfrozen
    obtain ⟨text, htext, -⟩ := canonicalize_eq_ok.1 hbytes
    have hmember : (MappingKey.str (py "document"), texts entries) ∈ [(MappingKey.str (py "aggregateId"), PyValue.str aggregateId),
        (.str (py "document"), texts entries), (.str (py "eventType"), .str (py eventType)),
        (.str (py "payload"), payload)] := by simp
    obtain ⟨t, ht⟩ := serialize_member htext hmember
    exact scalar_of_canonicalize_texts (canonicalize_eq_ok.2 ⟨t, ht, rfl⟩)

theorem returns_authorize {capability resource subject : PyStr}
    (h : (run.authority.authorize o.stop ⟨o.leaseId, capability, resource, .utc instant, some subject, true⟩).1.isOk) :
    Returns (authorize o capability resource subject instant) run := by
  unfold Returns authorize
  rcases hx : run.authority.authorize o.stop ⟨o.leaseId, capability, resource, .utc instant, some subject, true⟩ with
    ⟨outcome, authority⟩
  rw [hx] at h
  cases outcome with
  | ok lease => exact ⟨_, rfl⟩
  | error e => cases h

theorem returns_write_congr (h : Spared run run') :
    Returns (write o aggregateId document version eventType key instant) run' ↔
      Returns (write o aggregateId document version eventType key instant) run := by
  unfold Returns write
  rw [h.1]

theorem writeNext_eq (kind : String) (task : PyStr) : writeNext o kind task aggregateId document eventType instant run =
    write o aggregateId document ((run.store.get aggregateId).map fun d => (d.version : ℤ)) eventType
      (numbered kind task (run.store.currentVersion aggregateId)) instant run := rfl

theorem expected_currentVersion {store : AtomicOutboxStore} (v : ℤ)
    (h : ((store.get aggregateId).map fun d => (d.version : ℤ)) = some v) : v = store.currentVersion aggregateId := by
  unfold AtomicOutboxStore.currentVersion
  unfold AtomicOutboxStore.get at h
  cases hd : store.documents.get? aggregateId with
  | none =>
    rw [hd] at h
    cases h
  | some d =>
    rw [hd] at h
    cases h
    rfl

theorem returns_writeNext {kind : String} {task : PyStr} {entries : List (String × PyStr)} (haggregate : Scalar aggregateId)
    (htask : Scalar task) (hentries : ∀ entry ∈ entries, Scalar entry.2) (hnamed : aggregateId ≠ [] ∧ py eventType ≠ [])
    (hfree : run.store.idempotency.get? (numbered kind task (run.store.currentVersion aggregateId)) = none)
    (hpast : ∀ d, run.store.documents.get? aggregateId = some d → d.updatedAt ≤ instant) :
    Returns (writeNext o kind task aggregateId (texts entries) eventType instant) run := by
  unfold Returns
  rw [writeNext_eq]
  exact returns_write (accepted_texts haggregate (scalar_numbered htask) hentries
    ⟨hnamed.1, hnamed.2, numbered_ne_nil kind task _⟩ expected_currentVersion hfree hpast)

theorem returns_writeNext_congr {kind : String} {task : PyStr} (h : Spared run run') :
    Returns (writeNext o kind task aggregateId document eventType instant) run' ↔
      Returns (writeNext o kind task aggregateId document eventType instant) run := by
  unfold Returns
  rw [writeNext_eq, writeNext_eq, h.1]
  exact returns_write_congr h

theorem writeNext_returned {kind : String} {task : PyStr} (hfrozen : freezeJson document = .ok document)
    (h : writeNext o kind task aggregateId document eventType instant run = (.ok u, run')) :
    ∃ store, run' = { run with store } ∧
      Wrote run.store aggregateId (numbered kind task (run.store.currentVersion aggregateId)) document eventType
        instant store :=
  write_returned hfrozen h

end Steps

theorem Returns.run {α : Type} {x : AgentAct α} {run : AgentRun} (h : Returns x run) :
    ∃ a run', x run = (.ok a, run') := by
  obtain ⟨a, ha⟩ := h
  exact ⟨a, (x run).2, Prod.ext ha rfl⟩

/-! ## Operations -/

def assignmentDocument (taskId agentId capability assignedBy : PyStr) : PyValue :=
  texts [("task_id", taskId), ("agent_id", agentId), ("capability", capability), ("assigned_by", assignedBy)]

def commitmentDocument (taskId agentId : PyStr) : PyValue := texts [("task_id", taskId), ("agent_id", agentId)]

def handoffDocument (taskId fromAgentId toAgentId reason : PyStr) : PyValue :=
  texts [("task_id", taskId), ("from_agent_id", fromAgentId), ("to_agent_id", toAgentId), ("reason", reason)]

def dissentDocument (taskId agentId reason : PyStr) : PyValue :=
  texts [("task_id", taskId), ("agent_id", agentId), ("reason", reason)]

/-- What an operation that returns has done: its authorization and its write went through, and
its own change followed. -/
def Performed (o : Occasion) (run run' : AgentRun) : Operation → Prop
  | .assign taskId agentId capability assignedBy =>
    ∃ instant, requireAware o.instant "at" = .ok instant ∧
      Returns (authorize o (py "agent:assign") agentId assignedBy instant) run ∧
      Returns (writeNext o "assign" taskId (assignmentAggregate taskId)
        (assignmentDocument taskId agentId capability assignedBy) "agentrun-task-assigned" instant) run ∧
      run'.orchestrator = { run.orchestrator with
        assignments := run.orchestrator.assignments.set taskId ⟨taskId, agentId, capability, assignedBy, instant⟩ } ∧
      Wrote run.store (assignmentAggregate taskId)
        (numbered "assign" taskId (run.store.currentVersion (assignmentAggregate taskId)))
        (assignmentDocument taskId agentId capability assignedBy) "agentrun-task-assigned" instant run'.store
  | .commit taskId =>
    ∃ instant assignment, requireAware o.instant "at" = .ok instant ∧
      run.orchestrator.assignments.get? taskId = some assignment ∧
      run'.orchestrator = { run.orchestrator with
        commitments := run.orchestrator.commitments.set taskId ⟨taskId, assignment.agentId, instant⟩ } ∧
      Wrote run.store (commitmentAggregate taskId)
        (numbered "commit" taskId (run.store.currentVersion (commitmentAggregate taskId)))
        (commitmentDocument taskId assignment.agentId) "agentrun-task-committed" instant run'.store
  | .handoff taskId toAgentId reason =>
    ∃ instant commitment assignment, requireAware o.instant "at" = .ok instant ∧ reason ≠ [] ∧
      run.orchestrator.commitments.get? taskId = some commitment ∧
      run.orchestrator.assignments.get? taskId = some assignment ∧
      Returns (authorize o (py "agent:handoff") toAgentId toAgentId instant) run ∧
      Returns (write o (py "urn:ocor:agentrun:" ++ numbered "handoff" taskId run.orchestrator.handoffs.length)
        (handoffDocument taskId commitment.agentId toAgentId reason) none "agentrun-task-handed-off"
        (numbered "handoff" taskId run.orchestrator.handoffs.length) instant) run ∧
      run'.orchestrator = { run.orchestrator with
        handoffs := run.orchestrator.handoffs ++ [⟨taskId, commitment.agentId, toAgentId, reason, instant⟩]
        assignments := run.orchestrator.assignments.set taskId { assignment with agentId := toAgentId }
        commitments := run.orchestrator.commitments.set taskId
          { commitment with agentId := toAgentId, committedAt := instant } } ∧
      Wrote run.store (py "urn:ocor:agentrun:" ++ numbered "handoff" taskId run.orchestrator.handoffs.length)
        (numbered "handoff" taskId run.orchestrator.handoffs.length)
        (handoffDocument taskId commitment.agentId toAgentId reason) "agentrun-task-handed-off" instant run'.store
  | .registerDissent taskId agentId reason =>
    ∃ instant, requireAware o.instant "at" = .ok instant ∧
      Returns (write o (py "urn:ocor:agentrun:" ++ numbered "dissent" taskId run.orchestrator.dissents.length)
        (dissentDocument taskId agentId reason) none "agentrun-dissent-registered"
        (numbered "dissent" taskId run.orchestrator.dissents.length) instant) run ∧
      run'.orchestrator = { run.orchestrator with
        dissents := run.orchestrator.dissents ++ [⟨taskId, agentId, reason, instant⟩] } ∧
      Wrote run.store (py "urn:ocor:agentrun:" ++ numbered "dissent" taskId run.orchestrator.dissents.length)
        (numbered "dissent" taskId run.orchestrator.dissents.length) (dissentDocument taskId agentId reason)
        "agentrun-dissent-registered" instant run'.store

section Operations
variable {o : Occasion} {run run' : AgentRun} {taskId agentId reason : PyStr} {err : PyError}

theorem assign_returned {capability assignedBy : PyStr} {assignment : TaskAssignment}
    (h : assign o taskId agentId capability assignedBy run = (.ok assignment, run')) :
    Performed o run run' (.assign taskId agentId capability assignedBy) := by
  obtain ⟨instant, s, hinstant, h⟩ := Op.bind_eq_ok.1 h
  obtain ⟨haware, rfl⟩ := Op.lift_eq_ok.1 hinstant
  obtain ⟨u, s, hauthorized, h⟩ := Op.bind_eq_ok.1 h
  obtain ⟨v, s', hwritten, h⟩ := Op.bind_eq_ok.1 h
  have hspared := authorize_spared hauthorized
  obtain ⟨store, rfl, hwrote⟩ := writeNext_returned (freezeJson_texts _) hwritten
  cases h
  refine ⟨instant, haware, .of_eq hauthorized, (returns_writeNext_congr hspared).mp (.of_eq hwritten), ?_, ?_⟩
  · rw [← hspared.2]
  · rw [← hspared.1]
    exact hwrote

theorem assign_raised {capability assignedBy : PyStr}
    (h : assign o taskId agentId capability assignedBy run = (.error err, run')) : Spared run run' := by
  rcases Op.bind_eq_error.1 h with h | ⟨instant, s, hinstant, h⟩
  · exact lift_spared h
  obtain ⟨-, rfl⟩ := Op.lift_eq_ok.1 hinstant
  rcases Op.bind_eq_error.1 h with h | ⟨u, s, hauthorized, h⟩
  · exact authorize_spared h
  rcases Op.bind_eq_error.1 h with h | ⟨v, s', hwritten, h⟩
  · rw [write_raised h]
    exact authorize_spared hauthorized
  · cases h

theorem commit_returned {commitment : Commitment} (h : commit o taskId run = (.ok commitment, run')) :
    Performed o run run' (.commit taskId) := by
  obtain ⟨instant, s, hinstant, h⟩ := Op.bind_eq_ok.1 h
  obtain ⟨haware, rfl⟩ := Op.lift_eq_ok.1 hinstant
  rw [Op.read_bind] at h
  obtain ⟨assignment, s, hassignment, h⟩ := Op.bind_eq_ok.1 h
  obtain ⟨hassigned, rfl⟩ := Op.lift_eq_ok.1 hassignment
  obtain ⟨u, s, hauthorized, h⟩ := Op.bind_eq_ok.1 h
  obtain ⟨v, s', hwritten, h⟩ := Op.bind_eq_ok.1 h
  have hspared := authorize_spared hauthorized
  obtain ⟨store, rfl, hwrote⟩ := writeNext_returned (freezeJson_texts _) hwritten
  cases h
  refine ⟨instant, assignment, haware, orRaise_eq_ok.1 hassigned, ?_, ?_⟩
  · rw [← hspared.2]
  · rw [← hspared.1]
    exact hwrote

theorem commit_raised (h : commit o taskId run = (.error err, run')) : Spared run run' := by
  rcases Op.bind_eq_error.1 h with h | ⟨instant, s, hinstant, h⟩
  · exact lift_spared h
  obtain ⟨-, rfl⟩ := Op.lift_eq_ok.1 hinstant
  rw [Op.read_bind] at h
  rcases Op.bind_eq_error.1 h with h | ⟨assignment, s, hassignment, h⟩
  · exact lift_spared h
  obtain ⟨-, rfl⟩ := Op.lift_eq_ok.1 hassignment
  rcases Op.bind_eq_error.1 h with h | ⟨u, s, hauthorized, h⟩
  · exact authorize_spared h
  rcases Op.bind_eq_error.1 h with h | ⟨v, s', hwritten, h⟩
  · rw [write_raised h]
    exact authorize_spared hauthorized
  · cases h

theorem handoff_returned {toAgentId : PyStr} {record : Handoff}
    (h : handoff o taskId toAgentId reason run = (.ok record, run')) :
    Performed o run run' (.handoff taskId toAgentId reason) := by
  obtain ⟨instant, s, hinstant, h⟩ := Op.bind_eq_ok.1 h
  obtain ⟨haware, rfl⟩ := Op.lift_eq_ok.1 hinstant
  rw [Op.read_bind] at h
  obtain ⟨commitment, s, hcommitment, h⟩ := Op.bind_eq_ok.1 h
  obtain ⟨hcommitted, rfl⟩ := Op.lift_eq_ok.1 hcommitment
  rw [lift_refuseIf_bind] at h
  split_ifs at h with hreason
  · cases h
  obtain ⟨u, s, hauthorized, h⟩ := Op.bind_eq_ok.1 h
  dsimp only at h
  obtain ⟨v, s', hwritten, h⟩ := Op.bind_eq_ok.1 h
  have hspared := authorize_spared hauthorized
  have hreturns := (returns_write_congr hspared).mp (.of_eq hwritten)
  obtain ⟨store, rfl, hwrote⟩ := write_returned (freezeJson_texts _) hwritten
  simp only [change, Op.update_bind] at h
  obtain ⟨assignment, s', hassignment, h⟩ := Op.bind_eq_ok.1 h
  obtain ⟨hassigned, rfl⟩ := Op.lift_eq_ok.1 hassignment
  cases h
  refine ⟨instant, commitment, assignment, haware, hreason, orRaise_eq_ok.1 hcommitted, subscript_eq_ok.1 hassigned,
    .of_eq hauthorized, hreturns, ?_, ?_⟩
  · rw [← hspared.2]
  · rw [← hspared.1]
    exact hwrote

/-- Every committed task has an assignment. -/
def AgentRunOrchestrator.Held (own : AgentRunOrchestrator) : Prop :=
  ∀ taskId commitment, own.commitments.get? taskId = some commitment → ∃ assignment, own.assignments.get? taskId = some assignment

theorem handoff_raised {toAgentId : PyStr} (hheld : run.orchestrator.Held)
    (h : handoff o taskId toAgentId reason run = (.error err, run')) : Spared run run' := by
  rcases Op.bind_eq_error.1 h with h | ⟨instant, s, hinstant, h⟩
  · exact lift_spared h
  obtain ⟨-, rfl⟩ := Op.lift_eq_ok.1 hinstant
  rw [Op.read_bind] at h
  rcases Op.bind_eq_error.1 h with h | ⟨commitment, s, hcommitment, h⟩
  · exact lift_spared h
  obtain ⟨hcommitted, rfl⟩ := Op.lift_eq_ok.1 hcommitment
  rw [lift_refuseIf_bind] at h
  split_ifs at h with hreason
  · cases h
    exact .refl run
  rcases Op.bind_eq_error.1 h with h | ⟨u, s, hauthorized, h⟩
  · exact authorize_spared h
  dsimp only at h
  rcases Op.bind_eq_error.1 h with h | ⟨v, s', hwritten, h⟩
  · rw [write_raised h]
    exact authorize_spared hauthorized
  · obtain ⟨assignment, hassigned⟩ := hheld taskId commitment (orRaise_eq_ok.1 hcommitted)
    have hfound := subscript_eq_ok.2 hassigned
    simp only [change, Op.update_bind, hfound, Op.lift_ok_bind] at h
    cases h

theorem registerDissent_returned {dissent : Dissent}
    (h : registerDissent o taskId agentId reason run = (.ok dissent, run')) :
    Performed o run run' (.registerDissent taskId agentId reason) := by
  obtain ⟨instant, s, hinstant, h⟩ := Op.bind_eq_ok.1 h
  obtain ⟨haware, rfl⟩ := Op.lift_eq_ok.1 hinstant
  rw [lift_refuseIf_bind] at h
  split_ifs at h with hreason
  · cases h
  obtain ⟨u, s, hauthorized, h⟩ := Op.bind_eq_ok.1 h
  rw [Op.read_bind] at h
  dsimp only at h
  obtain ⟨v, s', hwritten, h⟩ := Op.bind_eq_ok.1 h
  have hspared := authorize_spared hauthorized
  rw [hspared.2] at hwritten
  have hreturns := (returns_write_congr hspared).mp (.of_eq hwritten)
  obtain ⟨store, rfl, hwrote⟩ := write_returned (freezeJson_texts _) hwritten
  cases h
  refine ⟨instant, haware, hreturns, ?_, ?_⟩
  · rw [← hspared.2]
  · rw [← hspared.1]
    exact hwrote

theorem registerDissent_raised (h : registerDissent o taskId agentId reason run = (.error err, run')) :
    Spared run run' := by
  rcases Op.bind_eq_error.1 h with h | ⟨instant, s, hinstant, h⟩
  · exact lift_spared h
  obtain ⟨-, rfl⟩ := Op.lift_eq_ok.1 hinstant
  rw [lift_refuseIf_bind] at h
  split_ifs at h with hreason
  · cases h
    exact .refl run
  rcases Op.bind_eq_error.1 h with h | ⟨u, s, hauthorized, h⟩
  · exact authorize_spared h
  rw [Op.read_bind] at h
  dsimp only at h
  rcases Op.bind_eq_error.1 h with h | ⟨v, s', hwritten, h⟩
  · rw [write_raised h]
    exact authorize_spared hauthorized
  · cases h

theorem assign_returns {capability assignedBy : PyStr} {instant : Instant} (haware : requireAware o.instant "at" = .ok instant)
    (hauthorize : Returns (authorize o (py "agent:assign") agentId assignedBy instant) run)
    (hwrite : Returns (writeNext o "assign" taskId (assignmentAggregate taskId)
      (assignmentDocument taskId agentId capability assignedBy) "agentrun-task-assigned" instant) run) :
    Returns (assign o taskId agentId capability assignedBy) run := by
  obtain ⟨u, s, hauthorized⟩ := hauthorize.run
  obtain ⟨v, s', hwritten⟩ := ((returns_writeNext_congr (authorize_spared hauthorized)).mpr hwrite).run
  unfold Returns Agent.assign
  rw [haware, Op.lift_ok_bind, Op.bind_of_ok hauthorized]
  unfold assignmentDocument at hwritten
  rw [Op.bind_of_ok hwritten]
  exact ⟨_, rfl⟩

theorem commit_returns {instant : Instant} {assignment : TaskAssignment}
    (haware : requireAware o.instant "at" = .ok instant)
    (hassignment : run.orchestrator.assignments.get? taskId = some assignment)
    (hauthorize : Returns (authorize o (py "agent:commit") assignment.agentId assignment.agentId instant) run)
    (hwrite : Returns (writeNext o "commit" taskId (commitmentAggregate taskId)
      (commitmentDocument taskId assignment.agentId) "agentrun-task-committed" instant) run) :
    Returns (commit o taskId) run := by
  obtain ⟨u, s, hauthorized⟩ := hauthorize.run
  obtain ⟨v, s', hwritten⟩ := ((returns_writeNext_congr (authorize_spared hauthorized)).mpr hwrite).run
  unfold Returns Agent.commit
  rw [haware, Op.lift_ok_bind, Op.read_bind, orRaise_eq_ok.2 hassignment, Op.lift_ok_bind, Op.bind_of_ok hauthorized]
  unfold commitmentDocument at hwritten
  rw [Op.bind_of_ok hwritten]
  exact ⟨_, rfl⟩

theorem handoff_returns {toAgentId : PyStr} {instant : Instant} {commitment : Commitment} (hheld : run.orchestrator.Held)
    (haware : requireAware o.instant "at" = .ok instant) (hreason : reason ≠ [])
    (hcommitment : run.orchestrator.commitments.get? taskId = some commitment)
    (hauthorize : Returns (authorize o (py "agent:handoff") toAgentId toAgentId instant) run)
    (hwrite : Returns (write o (py "urn:ocor:agentrun:" ++ numbered "handoff" taskId run.orchestrator.handoffs.length)
      (handoffDocument taskId commitment.agentId toAgentId reason) none "agentrun-task-handed-off"
      (numbered "handoff" taskId run.orchestrator.handoffs.length) instant) run) :
    Returns (handoff o taskId toAgentId reason) run := by
  obtain ⟨assignment, hassignment⟩ := hheld taskId commitment hcommitment
  obtain ⟨u, s, hauthorized⟩ := hauthorize.run
  obtain ⟨v, s', hwritten⟩ := ((returns_write_congr (authorize_spared hauthorized)).mpr hwrite).run
  unfold Returns Agent.handoff
  rw [haware, Op.lift_ok_bind, Op.read_bind, orRaise_eq_ok.2 hcommitment, Op.lift_ok_bind, lift_refuseIf_bind,
    if_neg hreason, Op.bind_of_ok hauthorized]
  unfold handoffDocument at hwritten
  rw [Op.bind_of_ok hwritten]
  simp only [change, Op.update_bind, subscript_eq_ok.2 hassignment, Op.lift_ok_bind]
  exact ⟨_, rfl⟩

theorem bind_unit {α : Type} (x : AgentAct α) (run : AgentRun) :
    ((do let _ ← x) : AgentAct Unit) run = ((x run).1.map fun _ => (), (x run).2) := by
  rcases hx : x run with ⟨outcome, run'⟩
  cases outcome with
  | ok a => rw [Op.bind_of_ok hx]; rfl
  | error e => rw [Op.bind_of_error hx]; rfl

/-- An operation raises and spares the store and the orchestrator, or has done what it is for. -/
theorem perform_cases (o : Occasion) (run : AgentRun) (hheld : run.orchestrator.Held) (operation : Operation) :
    (∃ e, (operation.perform o run).1 = .error e ∧ Spared run (operation.perform o run).2) ∨
      (operation.perform o run).1 = .ok () ∧ Performed o run (operation.perform o run).2 operation := by
  have hcases : ∀ {α : Type} (x : AgentAct α), operation.perform o = (do let _ ← x) →
      (∀ e run', x run = (.error e, run') → Spared run run') →
      (∀ a run', x run = (.ok a, run') → Performed o run run' operation) →
      (∃ e, (operation.perform o run).1 = .error e ∧ Spared run (operation.perform o run).2) ∨
        (operation.perform o run).1 = .ok () ∧ Performed o run (operation.perform o run).2 operation := by
    intro α x hx hraised hreturned
    rw [hx, bind_unit]
    rcases h : x run with ⟨outcome, run'⟩
    cases outcome with
    | error e => exact Or.inl ⟨e, rfl, hraised e run' h⟩
    | ok a => exact Or.inr ⟨rfl, hreturned a run' h⟩
  cases operation with
  | assign taskId agentId capability assignedBy =>
    exact hcases _ rfl (fun _ _ h => assign_raised h) fun _ _ h => assign_returned h
  | commit taskId => exact hcases _ rfl (fun _ _ h => commit_raised h) fun _ _ h => commit_returned h
  | handoff taskId toAgentId reason =>
    exact hcases _ rfl (fun _ _ h => handoff_raised hheld h) fun _ _ h => handoff_returned h
  | registerDissent taskId agentId reason =>
    exact hcases _ rfl (fun _ _ h => registerDissent_raised h) fun _ _ h => registerDissent_returned h

theorem performed_of_returns {α : Type} {x : AgentAct α} (operation : Operation) (hheld : run.orchestrator.Held)
    (hx : operation.perform o = (do let _ ← x)) (h : Returns x run) :
    Performed o run (operation.perform o run).2 operation := by
  obtain ⟨a, ha⟩ := h
  rcases perform_cases o run hheld operation with ⟨e, he, -⟩ | ⟨-, hperformed⟩
  · rw [hx, bind_unit, ha] at he
    cases he
  · exact hperformed

end Operations
end OcorRuntime.Agent

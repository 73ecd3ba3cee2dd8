import OcorRuntime.Agent.OrchestratorRuns

/-! Dissent over several orchestrators of one store. The key of a dissent is numbered by the list
of the orchestrator that registers it, so that it is known exactly if some orchestrator has a
dissent of that number on the same task; then the call adds nothing. -/
namespace OcorRuntime.Agent
open Canonical Store Capabilities
set_option autoImplicit false
set_option maxHeartbeats 250000

/-! ## Known keys -/

theorem exists_mem_set {α : Type} {l : List α} {i : ℕ} {a b : α} {P : α → Prop} {Q : Prop} (h : l[i]? = some a)
    (hb : P b ↔ P a ∨ Q) : (∃ x ∈ l.set i b, P x) ↔ (∃ x ∈ l, P x) ∨ Q := by
  have hlt : i < l.length := (List.getElem?_eq_some_iff.mp h).1
  have hmem : b ∈ l.set i b := List.mem_of_getElem? (List.getElem?_set_self hlt)
  constructor
  · rintro ⟨x, hx, hPx⟩
    rcases List.mem_or_eq_of_mem_set hx with hx | rfl
    · exact Or.inl ⟨x, hx, hPx⟩
    · exact (hb.mp hPx).imp_left fun hPa => ⟨a, List.mem_of_getElem? h, hPa⟩
  · rintro (⟨x, hx, hPx⟩ | hQ)
    · obtain ⟨j, hj⟩ := List.mem_iff_getElem?.mp hx
      by_cases hij : i = j
      · subst hij
        cases h.symm.trans hj
        exact ⟨b, hmem, hb.mpr (Or.inl hPx)⟩
      · exact ⟨x, List.mem_of_getElem? ((List.getElem?_set_ne hij).trans hj), hPx⟩
    · exact ⟨b, hmem, hb.mpr (Or.inr hQ)⟩

/-- The orchestrator's dissent of this number is on the task. -/
def AgentRunOrchestrator.DissentAt (own : AgentRunOrchestrator) (taskId : PyStr) (number : ℕ) : Prop :=
  ∃ dissent, own.dissents[number]? = some dissent ∧ dissent.taskId = taskId

theorem AgentRunOrchestrator.dissentAt_append {own own' : AgentRunOrchestrator} {dissent : Dissent}
    (h : own'.dissents = own.dissents ++ [dissent]) (taskId : PyStr) (number : ℕ) :
    own'.DissentAt taskId number ↔ own.DissentAt taskId number ∨ taskId = dissent.taskId ∧ number = own.dissents.length := by
  unfold DissentAt
  rw [h]
  rcases lt_trichotomy number own.dissents.length with hlt | heq | hgt
  · rw [List.getElem?_append_left hlt]
    simp [Nat.ne_of_lt hlt]
  · subst heq
    simp [eq_comm]
  · have hnone : (own.dissents ++ [dissent])[number]? = none := by
      rw [List.getElem?_eq_none_iff, List.length_append, List.length_singleton]
      omega
    rw [hnone, List.getElem?_eq_none_iff.mpr (Nat.le_of_lt hgt)]
    simp [Nat.ne_of_gt hgt]

/-- Some orchestrator of the run has registered a dissent on the task under this number. -/
def AgentRuns.Registered (runs : AgentRuns) (taskId : PyStr) (number : ℕ) : Prop :=
  ∃ own ∈ runs.orchestrators, own.DissentAt taskId number

/-- A dissent's key is known exactly if it has been registered. -/
def AgentRuns.Keyed (runs : AgentRuns) : Prop :=
  ∀ taskId number, (∃ eventId, runs.store.idempotency.get? (numbered "dissent" taskId number) = some eventId) ↔
    runs.Registered taskId number

theorem AgentRuns.Keyed.performed {runs : AgentRuns} {index : ℕ} {own : AgentRunOrchestrator} {o : Occasion}
    {authority : CapabilityAuthority} {run' : AgentRun} {operation : Operation} (hk : runs.Keyed)
    (hindex : runs.orchestrators[index]? = some own)
    (h : Performed o ⟨authority, runs.store, own⟩ run' operation) :
    AgentRuns.Keyed ⟨run'.store, runs.orchestrators.set index run'.orchestrator⟩ := by
  -- an operation that keeps the dissents writes under a key of another kind
  have hother : ∀ {aggregateId kind task n document eventType instant}, run'.orchestrator.dissents = own.dissents →
      (py "dissent").head? ≠ (py kind).head? ∧ py kind ≠ [] →
      Wrote runs.store aggregateId (numbered kind task n) document eventType instant run'.store →
      AgentRuns.Keyed ⟨run'.store, runs.orchestrators.set index run'.orchestrator⟩ := by
    intro aggregateId kind task n document eventType instant hsame hkind hw taskId number
    rw [hw.known_iff, or_iff_left (numbered_ne hkind.1 (by decide) hkind.2 _ _ _ _), hk]
    have hP : run'.orchestrator.DissentAt taskId number ↔ own.DissentAt taskId number ∨ False := by
      rw [or_false, AgentRunOrchestrator.DissentAt, hsame, AgentRunOrchestrator.DissentAt]
    exact ((exists_mem_set hindex hP).trans (or_false _).to_iff).symm
  cases operation with
  | assign taskId agentId capability assignedBy =>
    obtain ⟨instant, -, -, -, hown, hw⟩ := h
    exact hother (by rw [hown]) (by decide) hw
  | commit taskId =>
    obtain ⟨instant, assignment, -, -, hown, hw⟩ := h
    exact hother (by rw [hown]) (by decide) hw
  | handoff taskId toAgentId reason =>
    obtain ⟨instant, commitment, assignment, -, -, -, -, -, -, hown, hw⟩ := h
    exact hother (by rw [hown]) (by decide) hw
  | registerDissent task agentId reason =>
    obtain ⟨instant, -, -, hown, hw⟩ := h
    intro taskId number
    rw [hw.known_iff, hk]
    have hkey : numbered "dissent" taskId number = numbered "dissent" task own.dissents.length ↔
        taskId = task ∧ number = own.dissents.length :=
      ⟨numbered_injective, by rintro ⟨rfl, rfl⟩; rfl⟩
    have happended : run'.orchestrator.dissents = own.dissents ++ [⟨task, agentId, reason, instant⟩] := by rw [hown]
    rw [hkey]
    exact (exists_mem_set hindex (AgentRunOrchestrator.dissentAt_append happended taskId number)).symm

theorem AgentRuns.Keyed.step (runs : AgentRuns) (call : AgentRuns.Call) (hs : runs.Sound) (hk : runs.Keyed) :
    (runs.step call).Keyed := by
  cases call with
  | create =>
    intro taskId number
    refine (hk taskId number).trans ⟨fun ⟨own, hown, h⟩ => ⟨own, List.mem_append_left _ hown, h⟩, ?_⟩
    rintro ⟨own, hown, h⟩
    rcases List.mem_append.mp hown with hown | hown
    · exact ⟨own, hown, h⟩
    · rw [List.mem_singleton.mp hown] at h
      obtain ⟨dissent, hnone, -⟩ := h
      cases hnone
  | perform index turn =>
    cases hindex : runs.orchestrators[index]? with
    | none => rwa [AgentRuns.step_of_none hindex]
    | some own =>
      rw [AgentRuns.step_of_some hindex]
      have hheld : (AgentRun.mk turn.authority runs.store own).orchestrator.Held :=
        hs.held own (List.mem_of_getElem? hindex)
      rcases perform_cases turn.occasion _ hheld turn.operation with ⟨e, -, hstore, hown⟩ | ⟨-, hperformed⟩
      · intro taskId number
        have hsame : (AgentRun.step ⟨turn.authority, runs.store, own⟩ turn).orchestrator = own := hown
        have hkept : (AgentRun.step ⟨turn.authority, runs.store, own⟩ turn).store = runs.store := hstore
        rw [hsame, hkept]
        exact (hk taskId number).trans ((exists_mem_set hindex (or_false _).to_iff.symm).trans (or_false _).to_iff).symm
      · exact hk.performed hindex hperformed

theorem AgentRuns.keyed_run {writer : PyStr} {start : AtomicOutboxStore}
    (hstart : AtomicOutboxStore.create writer = .ok start) (calls : List AgentRuns.Call) :
    (run AgentRuns.step ⟨start, []⟩ calls).Keyed := by
  have hstep : ∀ (s : AgentRuns) (call : AgentRuns.Call), s.Sound ∧ s.Keyed → (s.step call).Sound ∧ (s.step call).Keyed :=
    fun s call h => ⟨h.1.step s call, h.2.step s call h.1⟩
  refine (run_induction hstep ⟨AgentRuns.sound_start hstart, ?_⟩ calls).2
  unfold AtomicOutboxStore.create at hstart
  split_ifs at hstart
  cases hstart
  intro taskId number
  constructor
  · rintro ⟨eventId, h⟩
    cases h
  · rintro ⟨own, hown, -⟩
    cases hown

/-! ## Event identifiers -/

/-- Every event is stored under the identifier of its seed, and its key is known. -/
def Indexed (store : AtomicOutboxStore) : Prop :=
  ∀ id e, store.events.get? id = some e → e.eventId = id ∧
    (∃ seed, eventSeed e.aggregateId e.idempotencyKey e.requestDigest = .ok seed ∧ id = eventIdOf seed) ∧
      ∃ eventId, store.idempotency.get? e.idempotencyKey = some eventId

theorem Indexed.wrote {before after : AtomicOutboxStore} {aggregateId key : PyStr} {document : PyValue} {eventType : String}
    {instant : Instant} (h : Indexed before) (hw : Wrote before aggregateId key document eventType instant after) :
    Indexed after := by
  intro id x hx
  have hknown : ∀ k, (∃ eventId, before.idempotency.get? k = some eventId) →
      ∃ eventId, after.idempotency.get? k = some eventId := fun k hk => (hw.known_iff k).mpr (Or.inl hk)
  cases hw with
  | replayed => exact h id x hx
  | @published d e hp =>
    rw [AtomicOutboxStore.publish, Dict.get?_set] at hx
    split_ifs at hx with hid
    · cases hx
      obtain ⟨seed, hseed, heq⟩ := hp.publishable.seed
      exact ⟨hid, ⟨seed, hseed, hid.symm.trans heq⟩, _, Dict.get?_set_self ..⟩
    · obtain ⟨heq, hseed, hkey⟩ := h id x hx
      exact ⟨heq, hseed, hknown _ hkey⟩

theorem Performed.wrote {o : Occasion} {run run' : AgentRun} {operation : Operation} (h : Performed o run run' operation) :
    ∃ aggregateId key document eventType instant,
      Wrote run.store aggregateId key document eventType instant run'.store := by
  cases operation with
  | assign taskId agentId capability assignedBy =>
    obtain ⟨instant, -, -, -, -, hw⟩ := h
    exact ⟨_, _, _, _, _, hw⟩
  | commit taskId =>
    obtain ⟨instant, assignment, -, -, -, hw⟩ := h
    exact ⟨_, _, _, _, _, hw⟩
  | handoff taskId toAgentId reason =>
    obtain ⟨instant, commitment, assignment, -, -, -, -, -, -, -, hw⟩ := h
    exact ⟨_, _, _, _, _, hw⟩
  | registerDissent taskId agentId reason =>
    obtain ⟨instant, -, -, -, hw⟩ := h
    exact ⟨_, _, _, _, _, hw⟩

theorem Indexed.step (runs : AgentRuns) (call : AgentRuns.Call) (hs : runs.Sound) (h : Indexed runs.store) :
    Indexed (runs.step call).store := by
  cases call with
  | create => exact h
  | perform index turn =>
    cases hindex : runs.orchestrators[index]? with
    | none => rwa [AgentRuns.step_of_none hindex]
    | some own =>
      rw [AgentRuns.step_of_some hindex]
      have hheld : (AgentRun.mk turn.authority runs.store own).orchestrator.Held :=
        hs.held own (List.mem_of_getElem? hindex)
      rcases perform_cases turn.occasion _ hheld turn.operation with ⟨e, -, hstore, -⟩ | ⟨-, hperformed⟩
      · have hkept : (AgentRun.step ⟨turn.authority, runs.store, own⟩ turn).store = runs.store := hstore
        rwa [hkept]
      · obtain ⟨aggregateId, key, document, eventType, instant, hw⟩ := hperformed.wrote
        exact h.wrote hw

theorem AgentRuns.indexed_run {writer : PyStr} {start : AtomicOutboxStore}
    (hstart : AtomicOutboxStore.create writer = .ok start) (calls : List AgentRuns.Call) :
    Indexed (run AgentRuns.step ⟨start, []⟩ calls).store := by
  have hstep : ∀ (s : AgentRuns) (call : AgentRuns.Call), s.Sound ∧ Indexed s.store →
      (s.step call).Sound ∧ Indexed (s.step call).store := fun s call h => ⟨h.1.step s call, h.2.step s call h.1⟩
  refine (run_induction hstep ⟨AgentRuns.sound_start hstart, ?_⟩ calls).2
  unfold AtomicOutboxStore.create at hstart
  split_ifs at hstart
  cases hstart
  intro id e h
  cases h

/-- The seeds of the events of a store. -/
def eventSeeds (store : AtomicOutboxStore) : Set Bytes :=
  {seed | ∃ id e, store.events.get? id = some e ∧ eventSeed e.aggregateId e.idempotencyKey e.requestDigest = .ok seed}

theorem Indexed.id_new {store : AtomicOutboxStore} {d : StoredDocument} {e : OutboxEvent} (h : Indexed store)
    (hp : store.Publishable d e) (hinj : Set.InjOn Sha256.digest (eventSeeds store ∪ eventSeeds (store.publish d e))) :
    store.events.get? e.eventId = none := by
  cases hf : store.events.get? e.eventId with
  | none => rfl
  | some f =>
    obtain ⟨-, ⟨seed, hseed, hid⟩, eventId, hknown⟩ := h _ f hf
    obtain ⟨seed', hseed', hid'⟩ := hp.seed
    have hold : seed ∈ eventSeeds store := ⟨_, f, hf, hseed⟩
    have hnew : seed' ∈ eventSeeds (store.publish d e) := ⟨e.eventId, e, Dict.get?_set_self .., hseed'⟩
    have heq : seed = seed' := eventIdOf_injOn hinj (Or.inl hold) (Or.inr hnew) (hid.symm.trans hid')
    subst heq
    rw [eventSeed_key hseed hseed', hp.key_new] at hknown
    cases hknown

/-! ## Registration -/

/-- The store has one event more, a dissent of the agent on the task for this reason. -/
def AddsDissent (before after : AtomicOutboxStore) (taskId agentId reason : PyStr) : Prop :=
  ∃ e, before.events.get? e.eventId = none ∧ after.events = before.events.set e.eventId e ∧
    e.eventType = py "agentrun-dissent-registered" ∧ e.payload = dissentDocument taskId agentId reason

section Registration
variable {runs : AgentRuns} {own : AgentRunOrchestrator} {authority : CapabilityAuthority} {o : Occasion}
  {taskId agentId reason : PyStr} {instant : Instant}

theorem registerDissent_returns {run : AgentRun} (haware : requireAware o.instant "at" = .ok instant) (hreason : reason ≠ [])
    (hauthorize : Returns (authorize o (py "agent:dissent") agentId agentId instant) run)
    (hwrite : Returns (write o (py "urn:ocor:agentrun:" ++ numbered "dissent" taskId run.orchestrator.dissents.length)
      (dissentDocument taskId agentId reason) none "agentrun-dissent-registered"
      (numbered "dissent" taskId run.orchestrator.dissents.length) instant) run) :
    Returns (registerDissent o taskId agentId reason) run := by
  obtain ⟨u, s, hauthorized⟩ := hauthorize.run
  have hspared := authorize_spared hauthorized
  obtain ⟨v, s', hwritten⟩ := ((returns_write_congr hspared).mpr hwrite).run
  unfold Returns Agent.registerDissent
  rw [haware, Op.lift_ok_bind, lift_refuseIf_bind, if_neg hreason, Op.bind_of_ok hauthorized, Op.read_bind]
  dsimp only
  unfold dissentDocument at hwritten
  rw [hspared.2, Op.bind_of_ok hwritten]
  exact ⟨_, rfl⟩

/-- A dissent that returns and adds an event had a key no orchestrator has used, and texts with a canonical form. -/
theorem free_of_adds (hk : runs.Keyed)
    (hreturns : Returns (registerDissent o taskId agentId reason) ⟨authority, runs.store, own⟩)
    (hadds : AddsDissent runs.store (registerDissent o taskId agentId reason ⟨authority, runs.store, own⟩).2.store
      taskId agentId reason) :
    ¬ runs.Registered taskId own.dissents.length ∧ Scalar taskId ∧ Scalar agentId ∧ Scalar reason := by
  obtain ⟨dissent, run', hrun⟩ := hreturns.run
  rw [hrun] at hadds
  obtain ⟨instant, -, hwrite, -, hw⟩ := registerDissent_returned hrun
  constructor
  · intro hregistered
    obtain ⟨e, hnew, hevents, -⟩ := hadds
    have hsame : run'.store = runs.store := hw.eq_of_known ((hk taskId own.dissents.length).mpr hregistered)
    have hadded := congrArg (fun events => events.get? e.eventId) hevents
    simp only [hsame, hnew, Dict.get?_set_self] at hadded
    cases hadded
  · have hscalar := returns_write_scalar hwrite
    simp only [List.mem_cons, List.not_mem_nil, or_false, forall_eq_or_imp, forall_eq] at hscalar
    exact hscalar

theorem key_free (hk : runs.Keyed) (hfree : ¬ runs.Registered taskId own.dissents.length) :
    runs.store.idempotency.get? (numbered "dissent" taskId own.dissents.length) = none := by
  rw [Option.eq_none_iff_forall_ne_some]
  exact fun eventId hid => hfree ((hk taskId _).mp ⟨eventId, hid⟩)

theorem returns_of_free (hk : runs.Keyed) (haware : requireAware o.instant "at" = .ok instant)
    (hreason : reason ≠ []) (hgranted : Grants authority o (py "agent:dissent") agentId agentId instant)
    (hpast : ∀ a d, runs.store.get a = some d → d.updatedAt ≤ instant)
    (hfree : ¬ runs.Registered taskId own.dissents.length) (hscalar : Scalar taskId ∧ Scalar agentId ∧ Scalar reason) :
    Returns (registerDissent o taskId agentId reason) ⟨authority, runs.store, own⟩ := by
  obtain ⟨htask, hagent, htext⟩ := hscalar
  refine registerDissent_returns haware hreason (returns_authorize hgranted) (returns_write (accepted_texts ?_
    (scalar_numbered htask) ?_ ⟨List.append_ne_nil_of_left_ne_nil (by decide) _, by decide,
      numbered_ne_nil "dissent" taskId _⟩ (by simp) (key_free hk hfree) fun d hd => hpast _ d hd))
  · exact Kernel.scalar_append.2 ⟨Kernel.scalar_py _, scalar_numbered htask⟩
  · simp [htask, hagent, htext]

theorem adds_of_free (hk : runs.Keyed) (hi : Indexed runs.store)
    (hinj : Set.InjOn Sha256.digest (eventSeeds runs.store ∪
      eventSeeds (registerDissent o taskId agentId reason ⟨authority, runs.store, own⟩).2.store))
    (hfree : ¬ runs.Registered taskId own.dissents.length)
    (hreturns : Returns (registerDissent o taskId agentId reason) ⟨authority, runs.store, own⟩) :
    AddsDissent runs.store (registerDissent o taskId agentId reason ⟨authority, runs.store, own⟩).2.store
      taskId agentId reason := by
  obtain ⟨dissent, run', hrun⟩ := hreturns.run
  rw [hrun] at hinj ⊢
  obtain ⟨instant', -, -, -, hw⟩ := registerDissent_returned hrun
  generalize run'.store = after at hw hinj ⊢
  cases hw with
  | replayed hknown =>
    obtain ⟨eventId, hid⟩ := hknown
    cases (key_free hk hfree).symm.trans hid
  | @published d e hp => exact ⟨e, hi.id_new hp.publishable hinj, rfl, hp.typed, hp.payload⟩

/-- **A dissent that passes authorization returns and adds one event to the store, exactly if no orchestrator
has registered a dissent on its task under its number, and its texts have a canonical form.** The number is
the length of the list of the orchestrator that registers it, whatever orchestrator that is. -/
theorem registerDissent_adds_iff {writer : PyStr} {start : AtomicOutboxStore}
    (hstart : AtomicOutboxStore.create writer = .ok start) (calls : List AgentRuns.Call)
    (hruns : runs = run AgentRuns.step ⟨start, []⟩ calls) (haware : requireAware o.instant "at" = .ok instant)
    (hreason : reason ≠ []) (hgranted : Grants authority o (py "agent:dissent") agentId agentId instant)
    (hpast : ∀ a d, runs.store.get a = some d → d.updatedAt ≤ instant)
    (hinj : Set.InjOn Sha256.digest (eventSeeds runs.store ∪
      eventSeeds (registerDissent o taskId agentId reason ⟨authority, runs.store, own⟩).2.store)) :
    Returns (registerDissent o taskId agentId reason) ⟨authority, runs.store, own⟩ ∧
        AddsDissent runs.store (registerDissent o taskId agentId reason ⟨authority, runs.store, own⟩).2.store
          taskId agentId reason ↔
      ¬ runs.Registered taskId own.dissents.length ∧ Scalar taskId ∧ Scalar agentId ∧ Scalar reason := by
  subst hruns
  have hk := AgentRuns.keyed_run hstart calls
  constructor
  · rintro ⟨hreturns, hadds⟩
    exact free_of_adds hk hreturns hadds
  · rintro ⟨hfree, hscalar⟩
    have hreturns := returns_of_free hk haware hreason hgranted hpast hfree hscalar
    exact ⟨hreturns, adds_of_free hk (AgentRuns.indexed_run hstart calls) hinj hfree hreturns⟩

theorem eventSeeds_first (hempty : runs.store.events = .empty) :
    (eventSeeds runs.store ∪
      eventSeeds (registerDissent o taskId agentId reason ⟨authority, runs.store, own⟩).2.store).Subsingleton := by
  have hnone : eventSeeds runs.store = ∅ := by
    refine Set.eq_empty_of_forall_notMem fun seed h => ?_
    obtain ⟨id, e, he, -⟩ := h
    rw [hempty] at he
    cases he
  rw [hnone, Set.empty_union]
  rcases hrun : registerDissent o taskId agentId reason ⟨authority, runs.store, own⟩ with ⟨outcome, run'⟩
  cases outcome with
  | error e =>
    rw [(registerDissent_raised hrun).1, hnone]
    exact Set.subsingleton_empty
  | ok dissent =>
    obtain ⟨instant', -, -, -, hw⟩ := registerDissent_returned hrun
    dsimp only
    generalize run'.store = after at hw ⊢
    cases hw with
    | replayed =>
      rw [hnone]
      exact Set.subsingleton_empty
    | @published d e hp =>
      rintro seed ⟨id, x, hx, hseed⟩ seed' ⟨id', x', hx', hseed'⟩
      have honly : ∀ id x, (runs.store.publish d e).events.get? id = some x → x = e := by
        intro id x hx
        rw [AtomicOutboxStore.publish, Dict.get?_set, hempty] at hx
        split_ifs at hx
        · exact (Option.some.inj hx).symm
        · cases hx
      rw [honly id x hx] at hseed
      rw [honly id' x' hx', hseed] at hseed'
      exact Except.ok.inj hseed'

/-! ### Two orchestrators -/

/-- After the first of two new orchestrators has registered a dissent, the same dissent of the second one
adds nothing. -/
theorem second_adds_nothing {writer : PyStr} {start : AtomicOutboxStore}
    (hstart : AtomicOutboxStore.create writer = .ok start) (haware : requireAware o.instant "at" = .ok instant)
    (hreason : reason ≠ []) (hgranted : Grants authority o (py "agent:dissent") agentId agentId instant)
    (hscalar : Scalar taskId ∧ Scalar agentId ∧ Scalar reason)
    (hruns : runs = run AgentRuns.step ⟨start, []⟩
      [.create, .create, .perform 0 ⟨authority, o, .registerDissent taskId agentId reason⟩]) :
    runs.orchestrators[1]? = some .create ∧ (∀ a d, runs.store.get a = some d → d.updatedAt ≤ instant) ∧
      ¬ (Returns (registerDissent o taskId agentId reason) ⟨authority, runs.store, .create⟩ ∧
        AddsDissent runs.store (registerDissent o taskId agentId reason ⟨authority, runs.store, .create⟩).2.store
          taskId agentId reason) := by
  have hk := AgentRuns.keyed_run hstart
    [.create, .create, .perform 0 ⟨authority, o, .registerDissent taskId agentId reason⟩]
  have hbefore := AgentRuns.keyed_run hstart [.create, .create]
  rw [← hruns] at hk
  simp only [run_cons, run_nil] at hruns hbefore
  have hpair : ((AgentRuns.mk start []).step .create).step .create = ⟨start, [.create, .create]⟩ := rfl
  rw [hpair] at hruns hbefore
  have hfirst : (AgentRuns.mk start [.create, .create]).orchestrators[0]? = some .create := rfl
  rw [AgentRuns.step_of_some hfirst] at hruns
  have hnone : ∀ a d, start.get a ≠ some d := by
    unfold AtomicOutboxStore.create at hstart
    split_ifs at hstart
    cases hstart
    intro a d hd
    cases hd
  have hunregistered : ¬ AgentRuns.Registered ⟨start, [.create, .create]⟩ taskId
      AgentRunOrchestrator.create.dissents.length := by
    rintro ⟨own, hown, dissent, hdissent, -⟩
    simp only [List.mem_cons, List.not_mem_nil, or_false, or_self] at hown
    rw [hown] at hdissent
    cases hdissent
  have hreturns := returns_of_free hbefore haware hreason hgranted (fun a d hd => absurd hd (hnone a d)) hunregistered hscalar
  obtain ⟨instant', haware', -, hown, hw⟩ := performed_of_returns
    (.registerDissent taskId agentId reason) held_create rfl hreturns
  cases haware.symm.trans haware'
  subst hruns
  refine ⟨rfl, ?_, ?_⟩
  · intro a d hd
    rcases hw.time hd with hold | htime
    · exact absurd hold (hnone a d)
    · exact le_of_eq htime
  · rintro ⟨hreturns', hadds⟩
    refine (free_of_adds hk hreturns' hadds).1 ⟨_, List.mem_cons_self, ⟨taskId, agentId, reason, instant⟩, ?_, rfl⟩
    exact (congrArg (fun own : AgentRunOrchestrator => own.dissents[0]?) hown).trans rfl

end Registration

def sampleDissent : Turn := ⟨sampleAuthority (py "a"), sampleOccasion 1, .registerDissent (py "t") (py "a") (py "r")⟩

theorem sampleDissent_granted :
    Grants (sampleAuthority (py "a")) (sampleOccasion 1) (py "agent:dissent") (py "a") (py "a") 1 := by decide

/-- A new orchestrator registers a dissent over an empty store. -/
theorem registerDissent_adds_iff_first :
    let runs := run AgentRuns.step ⟨sampleStore, []⟩ [.create]
    Returns (registerDissent (sampleOccasion 1) (py "t") (py "a") (py "r"))
        ⟨sampleAuthority (py "a"), runs.store, .create⟩ ∧
      AddsDissent runs.store (registerDissent (sampleOccasion 1) (py "t") (py "a") (py "r")
        ⟨sampleAuthority (py "a"), runs.store, .create⟩).2.store (py "t") (py "a") (py "r") := by
  intro runs
  have hempty : runs.store.events = .empty := rfl
  have hpast : ∀ a d, runs.store.get a = some d → d.updatedAt ≤ 1 := fun a d hd => by cases hd
  have hreason : py "r" ≠ [] := by decide
  have hscalar : Scalar (py "t") ∧ Scalar (py "a") ∧ Scalar (py "r") := by decide
  refine (registerDissent_adds_iff sampleStore_created [.create] (by rfl) (by rfl) hreason sampleDissent_granted hpast
    ((eventSeeds_first hempty).injOn _)).mpr ⟨?_, hscalar⟩
  rintro ⟨own, hown, dissent, hdissent, -⟩
  cases List.mem_singleton.mp hown
  cases hdissent

/-- The second orchestrator's dissent is authorized and not before the first one's, and adds nothing. -/
theorem sameDissent_adds_nothing :
    let runs := run AgentRuns.step ⟨sampleStore, []⟩ [.create, .create, .perform 0 sampleDissent]
    runs.orchestrators[1]? = some .create ∧
      Grants (sampleAuthority (py "a")) (sampleOccasion 1) (py "agent:dissent") (py "a") (py "a") 1 ∧
      (∀ a d, runs.store.get a = some d → d.updatedAt ≤ 1) ∧
      ¬ (Returns (registerDissent (sampleOccasion 1) (py "t") (py "a") (py "r"))
          ⟨sampleAuthority (py "a"), runs.store, .create⟩ ∧
        AddsDissent runs.store (registerDissent (sampleOccasion 1) (py "t") (py "a") (py "r")
          ⟨sampleAuthority (py "a"), runs.store, .create⟩).2.store (py "t") (py "a") (py "r")) := by
  intro runs
  obtain ⟨hsecond, hpast, hnothing⟩ := second_adds_nothing sampleStore_created rfl (by decide) sampleDissent_granted
    (by decide) (rfl : runs = _)
  exact ⟨hsecond, sampleDissent_granted, hpast, hnothing⟩

end OcorRuntime.Agent

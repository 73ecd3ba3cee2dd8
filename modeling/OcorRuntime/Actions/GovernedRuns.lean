import OcorRuntime.Actions.GovernedEngine
import OcorRuntime.Capabilities.Delegation
import OcorRuntime.Emission.Crossing

/-! Governed actions over whole runs: the effect of an action happens at most once and
only behind its gates. The store gives an action one event for good and the fence
keeps a receipt for every event whose sink returned. -/
namespace OcorRuntime.Emission
open Store
set_option autoImplicit false
set_option maxHeartbeats 250000

/-! ## Emission through any fence -/

namespace EmissionFence
variable {store : AtomicOutboxStore} {f : EmissionFence}

theorem durableRecord_eq_ok {event d : OutboxEvent} (h : f.durableRecord store event = .ok d) :
    d.eventId = event.eventId ∧ d.idempotencyKey = event.idempotencyKey ∧
      (f.storeBound = true → store.events.get? d.eventId = some d) := by
  unfold durableRecord at h
  by_cases hb : f.storeBound = true
  · rw [if_pos hb] at h
    cases hs : store.getEvent event.eventId with
    | none => simp [hs] at h
    | some durable =>
      rw [hs] at h
      dsimp only at h
      split_ifs at h with hsame
      cases h
      have hfields := OutboxEvent.mk.inj (of_decide_eq_true (Bool.and_elim_left hsame))
      have hid : event.eventId = d.eventId := hfields.1
      refine ⟨hid.symm, hfields.2.2.2.2.2.2.2.1.symm, fun _ => ?_⟩
      rwa [hid] at hs
  · rw [if_neg hb] at h
    cases h
    exact ⟨rfl, rfl, fun hbound => absurd hbound hb⟩

theorem admissible_eq_ok {event d : OutboxEvent} (h : f.admissible store event = .ok d) :
    f.durableRecord store event = .ok d := by
  obtain ⟨e, he, h⟩ := bind_eq_ok.1 h
  by_cases hcommitted : e.committed = false
  · rw [if_pos hcommitted] at h
    cases h
  · rw [if_neg hcommitted] at h
    obtain ⟨intact, -, h⟩ := bind_eq_ok.1 h
    split_ifs at h
    rwa [Except.ok.inj h] at he

theorem receipts_accept {d : OutboxEvent} {id : PyStr} (h : f.receipts.get? id ≠ none) :
    (f.accept d).receipts.get? id ≠ none := by
  unfold accept
  split
  · dsimp only
    rw [Dict.get?_set]
    split_ifs
    · exact Option.some_ne_none _
    · exact h
  · exact h

end EmissionFence

namespace Boundary

/-- What an emission of `event` can do to the deliveries, whatever store the fence is bound to. -/
structure Emits (b b' : Boundary) (event : OutboxEvent) : Prop where
  idempotency : b'.store.idempotency = b.store.idempotency
  events : ∀ {id x}, b'.store.events.get? id = some x →
    ∃ y, b.store.events.get? id = some y ∧ x = { y with emittedAt := x.emittedAt }
  receipts : ∀ {id}, b.fence.receipts.get? id ≠ none → b'.fence.receipts.get? id ≠ none
  delivers : delivered b'.calls = delivered b.calls ∨
    ∃ d, d.eventId = event.eventId ∧ d.idempotencyKey = event.idempotencyKey ∧
      b.fence.receipts.get? d.eventId = none ∧ b'.fence.receipts.get? d.eventId ≠ none ∧
      delivered b'.calls = delivered b.calls ++ [d]

theorem Emits.refused {b b' : Boundary} (event : OutboxEvent) (hstore : b'.store = b.store)
    (hreceipts : ∀ {id}, b.fence.receipts.get? id ≠ none → b'.fence.receipts.get? id ≠ none)
    (hcalls : delivered b'.calls = delivered b.calls) : Emits b b' event where
  idempotency := by rw [hstore]
  events := by
    intro id x hx
    rw [hstore] at hx
    exact ⟨x, hx, rfl⟩
  receipts := hreceipts
  delivers := Or.inl hcalls

theorem recordEmission_passed {b : Boundary} {d : OutboxEvent} {t : Instant}
    (hdurable : b.fence.storeBound = true → b.store.events.get? d.eventId = some d ∧ d.emittedAt = none)
    (ht : d.occurredAt ≤ t) :
    ∃ store, b.recordEmission d t = (.ok (), store) ∧ store.idempotency = b.store.idempotency ∧
      ∀ {id x}, store.events.get? id = some x →
        ∃ y, b.store.events.get? id = some y ∧ x = { y with emittedAt := x.emittedAt } := by
  unfold recordEmission
  by_cases hb : b.fence.storeBound = true
  · obtain ⟨hd, hpending⟩ := hdurable hb
    rw [if_pos hb, markEmitted_pending hd hpending ht]
    refine ⟨_, rfl, rfl, fun {id x} hx => ?_⟩
    obtain ⟨y, hy, rfl⟩ := (AtomicOutboxStore.get?_events_mark hd).mp hx
    refine ⟨y, hy, ?_⟩
    split_ifs <;> rfl
  · rw [if_neg hb]
    exact ⟨b.store, rfl, rfl, fun {id x} hx => ⟨x, hx, rfl⟩⟩

theorem emits_deliver {b : Boundary} {r : EmitRequest} {d event : OutboxEvent} {t : Instant}
    (hid : d.eventId = event.eventId) (hkey : d.idempotencyKey = event.idempotencyKey)
    (hnew : b.fence.receipts.get? d.eventId = none)
    (hdurable : b.fence.storeBound = true → b.store.events.get? d.eventId = some d ∧ d.emittedAt = none)
    (ht : d.occurredAt ≤ t) : Emits b (b.deliver r d t).2 event := by
  unfold deliver
  rcases callSink_cases r.sink b.calls d with ⟨err, herr, hcalls⟩ | ⟨value, hvalue⟩
  · rcases hs : callSink r.sink b.calls d with ⟨answer, calls⟩
    rw [hs] at herr hcalls
    cases herr
    exact Emits.refused event rfl (fun h => h) hcalls
  · obtain ⟨store, hrecord, hidempotency, hevents⟩ := recordEmission_passed hdurable ht
    rw [hvalue]
    dsimp only
    rw [hrecord]
    have hreceipt : ∀ id, (b.fence.acknowledge (receiptOf d t value)).receipts.get? id =
        if d.eventId = id then some (receiptOf d t value) else b.fence.receipts.get? id :=
      fun id => Dict.get?_set b.fence.receipts d.eventId id _
    refine ⟨hidempotency, hevents, fun {id} h => ?_, Or.inr ⟨d, hid, hkey, hnew, ?_, delivered_append ..⟩⟩
    · apply ne_of_eq_of_ne (hreceipt id)
      split_ifs
      · exact Option.some_ne_none _
      · exact h
    · apply ne_of_eq_of_ne (hreceipt d.eventId)
      rw [if_pos rfl]
      exact Option.some_ne_none _

/-- Whatever store its fence is bound to, an emission delivers its own event or nothing, and never one that has a
receipt. -/
theorem emits_emit (b : Boundary) (r : EmitRequest) (event : OutboxEvent) : Emits b (b.emit r event).2 event := by
  have hself : Emits b b event := Emits.refused event rfl (fun h => h) rfl
  unfold emit
  cases hinstant : requireAware r.instant "at" with
  | error err => exact hself
  | ok t =>
    cases hreceipt : b.fence.receipts.get? event.eventId with
    | some receipt => exact hself
    | none =>
      cases hadmissible : b.fence.admissible b.store event with
      | error err =>
        simp only [EmissionFence.register, hadmissible]
        exact hself
      | ok d =>
        obtain ⟨hid, hkey, hdurable⟩ := EmissionFence.durableRecord_eq_ok (EmissionFence.admissible_eq_ok hadmissible)
        simp only [EmissionFence.register, hadmissible]
        rw [← hid] at hreceipt
        unfold release
        dsimp only
        cases hgates : (b.fence.accept d).checkGates b.store r d t with
        | error err => exact Emits.refused event rfl EmissionFence.receipts_accept rfl
        | ok u =>
          obtain ⟨ht, horder, -⟩ := checkGates_eq_ok.1 hgates
          obtain ⟨authority, hauthority⟩ := (b.fence.accept d).checkCapability_cases r d t
          rcases hcap : (b.fence.accept d).checkCapability r d t with ⟨err | u, g⟩
          · rw [hcap] at hauthority
            dsimp only at hauthority ⊢
            subst hauthority
            exact Emits.refused event rfl EmissionFence.receipts_accept rfl
          · rw [hcap] at hauthority
            dsimp only at hauthority ⊢
            subst hauthority
            -- a record that was emitted before is refused by the order gate, so the accepted one is pending
            have hpending : d.emittedAt = none := by
              by_contra hemitted
              have hpassed := EmissionFence.accept_passed hemitted hreceipt
              unfold EmissionFence.checkOrder at horder
              rw [if_pos hpassed] at horder
              cases horder
            rw [EmissionFence.accept_pending hpending]
            have hemits := @emits_deliver ⟨b.store, { b.fence.enroll d with capabilityAuthority := authority }, b.calls⟩ r d
              event t hid hkey hreceipt (fun hb => ⟨hdurable hb, hpending⟩) ht
            exact ⟨hemits.idempotency, hemits.events, hemits.receipts, hemits.delivers⟩

end Boundary
end OcorRuntime.Emission

namespace OcorRuntime.Actions
open Store Capabilities Emission
set_option autoImplicit false
set_option maxHeartbeats 250000

namespace GovernedActionEngine

/-! ## The gates -/

/-- The call passes authority, human gate and decision. -/
structure Cleared (engine : GovernedActionEngine) (c : Execution) : Prop where
  authority : ∃ t lease, requireAware c.instant "at" = .ok t ∧
    (engine.authority.authorize c.stop (authorization c t)).1 = .ok lease
  approval : c.proposal.riskBearing = true →
    ∃ approval, c.approval = some approval ∧ approval.actionId = c.proposal.actionId ∧ approval.approved = true
  decision : ∃ decision, c.decision = some decision ∧ decision.actionId = c.proposal.actionId ∧ decision.accepted = true

theorem checkApproval_eq_ok {proposal : ActionProposal} {approval : Option Approval} :
    checkApproval proposal approval = .ok () ↔ (proposal.riskBearing = true →
      ∃ given, approval = some given ∧ given.actionId = proposal.actionId ∧ given.approved = true) := by
  unfold checkApproval
  by_cases hrisk : proposal.riskBearing = true
  · cases approval with
    | none => simp [hrisk]
    | some given =>
      by_cases haction : given.actionId = proposal.actionId
      · cases happroved : given.approved with
        | false => simp [hrisk, haction, happroved]
        | true => simp [hrisk, haction, happroved]
      · simp [hrisk, haction]
  · simp [hrisk]

theorem checkDecision_eq_ok {proposal : ActionProposal} {decision : Option Decision} :
    checkDecision proposal decision = .ok () ↔
      ∃ taken, decision = some taken ∧ taken.actionId = proposal.actionId ∧ taken.accepted = true := by
  unfold checkDecision
  cases decision with
  | none => simp
  | some taken =>
    by_cases haction : taken.actionId = proposal.actionId
    · cases haccepted : taken.accepted with
      | false => simp [haction, haccepted]
      | true => simp [haction, haccepted]
    · simp [haction]

/-- The authority gate changes nothing but the authority, and passes exactly when the authority authorizes. -/
theorem authorityGate_cases (engine : GovernedActionEngine) (c : Execution) (t : Instant) :
    (∃ lease authority, (engine.authority.authorize c.stop (authorization c t)).1 = .ok lease ∧
        Op.guarded (authorize c t) authorityDenied engine = (.ok lease, { engine with authority })) ∨
      ∃ err denied authority, (engine.authority.authorize c.stop (authorization c t)).1 = .error err ∧
        Op.guarded (authorize c t) authorityDenied engine = (.error denied, { engine with authority }) := by
  rcases h : engine.authority.authorize c.stop (authorization c t) with ⟨outcome, authority⟩
  have hcall : authorize c t engine = (outcome, { engine with authority }) := by simp [authorize, h]
  cases outcome with
  | ok lease => exact Or.inl ⟨lease, authority, rfl, Op.guarded_of_ok hcall⟩
  | error err =>
    refine Or.inr ⟨err, ?_⟩
    rw [Op.guarded_of_error hcall, authorityDenied]
    split_ifs
    · exact ⟨_, authority, rfl, rfl⟩
    · exact ⟨_, authority, rfl, rfl⟩

/-- The gates let exactly the cleared calls pass, and change nothing but the authority. -/
theorem gates_cases (engine : GovernedActionEngine) (c : Execution) :
    (∃ t authority, engine.Cleared c ∧ gates c engine = (.ok t, { engine with authority })) ∨
      ∃ err authority, ¬ engine.Cleared c ∧ gates c engine = (.error err, { engine with authority }) := by
  unfold gates
  cases hinstant : requireAware c.instant "at" with
  | error err =>
    refine Or.inr ⟨err, engine.authority, fun hcleared => ?_, Op.bind_of_error rfl⟩
    obtain ⟨t, lease, ht, -⟩ := hcleared.authority
    rw [hinstant] at ht
    cases ht
  | ok t =>
    rw [Op.lift_ok_bind]
    obtain ⟨lease, authority, hauthorize, hgate⟩ | ⟨err, denied, authority, hauthorize, hgate⟩ :=
      engine.authorityGate_cases c t
    · rw [Op.bind_of_ok hgate]
      cases happroval : checkApproval c.proposal c.approval with
      | error err =>
        refine Or.inr ⟨err, authority, fun hcleared => ?_, Op.bind_of_error rfl⟩
        rw [checkApproval_eq_ok.2 hcleared.approval] at happroval
        cases happroval
      | ok u =>
        rw [Op.lift_ok_bind]
        cases hdecision : checkDecision c.proposal c.decision with
        | error err =>
          refine Or.inr ⟨err, authority, fun hcleared => ?_, Op.bind_of_error rfl⟩
          rw [checkDecision_eq_ok.2 hcleared.decision] at hdecision
          cases hdecision
        | ok u' =>
          exact Or.inl ⟨t, authority, ⟨⟨t, lease, hinstant, hauthorize⟩, checkApproval_eq_ok.1 happroval,
            checkDecision_eq_ok.1 hdecision⟩, Op.bind_of_ok rfl⟩
    · refine Or.inr ⟨denied, authority, fun hcleared => ?_, Op.bind_of_error hgate⟩
      obtain ⟨t', lease, ht, hok⟩ := hcleared.authority
      rw [hinstant] at ht
      cases ht
      rw [hauthorize] at hok
      cases hok

theorem execute_denied {engine : GovernedActionEngine} {c : Execution} (h : ¬ engine.Cleared c) :
    ∃ err authority, execute c engine = (.error err, { engine with authority }) := by
  obtain ⟨t, authority, hcleared, -⟩ | ⟨err, authority, -, hgates⟩ := engine.gates_cases c
  · exact absurd hcleared h
  · exact ⟨err, authority, Op.bind_of_error hgates⟩

/-! ## One event for an action -/

theorem stage_idempotencyKey {store : AtomicOutboxStore} {r : WriteRequest} {d : StoredDocument} {e : OutboxEvent}
    (h : store.stage r = .ok (.fresh d e)) : e.idempotencyKey = r.idempotencyKey := by
  obtain ⟨-, instant, document, payload, requestDigest, ⟨eventId, -, hreplay⟩ | ⟨-, hfresh⟩⟩ :=
    AtomicOutboxStore.stage_eq_ok h
  · obtain ⟨document, event, -, hstaged⟩ := AtomicOutboxStore.replay_eq_ok hreplay
    cases hstaged
  · obtain ⟨d', e', hstaged, hkey⟩ := AtomicOutboxStore.stageFresh_eq_ok hfresh
    cases hstaged
    exact hkey

/-- An event of the store is the one its idempotency key leads to. -/
def Keyed (store : AtomicOutboxStore) : Prop :=
  ∀ {id x}, store.events.get? id = some x → x.eventId = id ∧ store.idempotency.get? x.idempotencyKey = some id

theorem keyed_publish {store : AtomicOutboxStore} {d : StoredDocument} {e : OutboxEvent} (hk : Keyed store)
    (hp : store.Publishable d e) : Keyed (store.publish d e) := by
  intro id x hx
  dsimp only [AtomicOutboxStore.publish] at hx ⊢
  rw [Dict.get?_set] at hx ⊢
  split_ifs at hx with hid
  · cases hx
    exact ⟨hid, by rw [if_pos rfl, hid]⟩
  · obtain ⟨hxid, hkey⟩ := hk hx
    refine ⟨hxid, ?_⟩
    by_cases hsame : e.idempotencyKey = x.idempotencyKey
    · have hnew := hp.key_new
      rw [hsame, hkey] at hnew
      cases hnew
    · rwa [if_neg hsame]

theorem replayed_keyed {store : AtomicOutboxStore} {r : WriteRequest} {result : WriteResult} (hk : Keyed store)
    (h : store.stage r = .ok (.replayed result)) :
    store.idempotency.get? result.event.idempotencyKey = some result.event.eventId := by
  obtain ⟨-, instant, document, payload, requestDigest, ⟨eventId, -, hreplay⟩ | ⟨-, hfresh⟩⟩ :=
    AtomicOutboxStore.stage_eq_ok h
  · obtain ⟨document, event, hevent, hstaged⟩ := AtomicOutboxStore.replay_eq_ok hreplay
    cases hstaged
    obtain ⟨hid, hrecorded⟩ := hk hevent
    rw [hid]
    exact hrecorded
  · obtain ⟨d, e, hstaged, -⟩ := AtomicOutboxStore.stageFresh_eq_ok hfresh
    cases hstaged

/-- What a write does to the keys, and what it returns: the event its key leads to. -/
theorem write_keyed {store store' : AtomicOutboxStore} {r : WriteRequest} {outcome : Except PyError WriteResult}
    (hk : Keyed store) (h : store.write r = (outcome, store')) :
    Keyed store' ∧
      (∀ {k id}, store.idempotency.get? k = some id → store'.idempotency.get? k = some id) ∧
      (∀ {k id}, store'.idempotency.get? k = some id → store.idempotency.get? k = some id ∨ k = r.idempotencyKey) ∧
      ∀ result, outcome = .ok result →
        store'.idempotency.get? result.event.idempotencyKey = some result.event.eventId := by
  unfold AtomicOutboxStore.write at h
  cases hs : store.stage r with
  | error e =>
    rw [hs] at h
    cases h
    exact ⟨hk, fun h => h, fun h => Or.inl h, fun result hr => by cases hr⟩
  | ok staged =>
    rw [hs] at h
    cases staged with
    | replayed result =>
      cases h
      refine ⟨hk, fun h => h, fun h => Or.inl h, fun result' hr => ?_⟩
      cases hr
      exact replayed_keyed hk hs
    | fresh d e =>
      have hp := (AtomicOutboxStore.stage_fresh hs).1
      have hkey := stage_idempotencyKey hs
      have hpublished : store' = store.publish d e := by
        dsimp only at h
        split at h <;> cases h <;> rfl
      subst hpublished
      refine ⟨keyed_publish hk hp, fun {k id} hold => ?_, fun {k id} hnew => ?_, fun result hr => ?_⟩
      · dsimp only [AtomicOutboxStore.publish]
        rw [Dict.get?_set]
        split_ifs with hsame
        · have hfree := hp.key_new
          rw [hsame, hold] at hfree
          cases hfree
        · exact hold
      · dsimp only [AtomicOutboxStore.publish] at hnew
        rw [Dict.get?_set] at hnew
        split_ifs at hnew with hsame
        · exact Or.inr (by rw [← hsame, hkey])
        · exact Or.inl hnew
      · have hevent : result.event = e := by
          dsimp only at h
          split at h
          · cases h
            cases hr
          · cases h
            cases hr
            rfl
        rw [hevent]
        exact Dict.get?_set_self ..

/-! ## The invariant -/

/-- The deliveries so far, for actions that satisfy `cleared`: each has a receipt and is the event of its action. -/
structure Governed (cleared : PyStr → Prop) (engine : GovernedActionEngine) : Prop where
  keyed : Keyed engine.store
  actions : ∀ {k id}, engine.store.idempotency.get? k = some id → cleared k
  recorded : ∀ {x}, x ∈ delivered engine.calls → engine.store.idempotency.get? x.idempotencyKey = some x.eventId
  receipts : ∀ {x}, x ∈ delivered engine.calls → engine.fence.receipts.get? x.eventId ≠ none
  once : ((delivered engine.calls).map OutboxEvent.eventId).Nodup

variable {cleared : PyStr → Prop} {engine : GovernedActionEngine}

theorem Governed.mono (h : Governed cleared engine) {cleared' : PyStr → Prop} (himp : ∀ k, cleared k → cleared' k) :
    Governed cleared' engine :=
  ⟨h.keyed, fun hk => himp _ (h.actions hk), h.recorded, h.receipts, h.once⟩

theorem Governed.authority (h : Governed cleared engine) (authority : CapabilityAuthority) :
    Governed cleared { engine with authority } :=
  ⟨h.keyed, h.actions, h.recorded, h.receipts, h.once⟩

theorem Governed.write (h : Governed cleared engine) {c : Execution} (hc : cleared c.proposal.actionId) {t : Instant}
    {outcome : Except PyError WriteResult} {store : AtomicOutboxStore}
    (hw : engine.store.write (engine.writeRequest c t) = (outcome, store)) : Governed cleared { engine with store } := by
  obtain ⟨hkeyed, hkept, hnew, -⟩ := write_keyed h.keyed hw
  refine ⟨hkeyed, fun {k id} hk => ?_, fun hx => hkept (h.recorded hx), h.receipts, h.once⟩
  obtain hold | rfl := hnew hk
  · exact h.actions hold
  · exact hc

theorem Governed.absorb (h : Governed cleared engine) {event : OutboxEvent} {b : Boundary}
    (he : Boundary.Emits engine.boundary b event)
    (hevent : engine.store.idempotency.get? event.idempotencyKey = some event.eventId) :
    Governed cleared (engine.absorb b) := by
  -- the engine's store keeps its keys and its events, whether it is the fence's store or not
  have hstore : (engine.absorb b).store.idempotency = engine.store.idempotency ∧
      ∀ {id x}, (engine.absorb b).store.events.get? id = some x →
        ∃ y, engine.store.events.get? id = some y ∧ x = { y with emittedAt := x.emittedAt } := by
    cases hforeign : engine.foreignStore with
    | none =>
      have hown : engine.boundary.store = engine.store := by simp [boundary, hforeign]
      have habsorbed : (engine.absorb b).store = b.store := by simp [GovernedActionEngine.absorb, hforeign]
      rw [habsorbed, ← hown]
      exact ⟨he.idempotency, he.events⟩
    | some other =>
      have habsorbed : (engine.absorb b).store = engine.store := by simp [GovernedActionEngine.absorb, hforeign]
      rw [habsorbed]
      exact ⟨rfl, fun {id x} hx => ⟨x, hx, rfl⟩⟩
  have hfence : (engine.absorb b).fence = b.fence ∧ (engine.absorb b).calls = b.calls := by
    unfold GovernedActionEngine.absorb
    split <;> exact ⟨rfl, rfl⟩
  have hkeyed : Keyed (engine.absorb b).store := by
    intro id x hx
    obtain ⟨y, hy, hxy⟩ := hstore.2 hx
    have hkey := h.keyed hy
    rw [hstore.1, hxy]
    exact hkey
  have hactions : ∀ {k id}, (engine.absorb b).store.idempotency.get? k = some id → cleared k := by
    intro k id hk
    rw [hstore.1] at hk
    exact h.actions hk
  obtain hsame | ⟨d, hid, hkey, hfree, hreceipt, hcrossed⟩ := he.delivers
  · refine ⟨hkeyed, hactions, fun {x} hx => ?_, fun {x} hx => ?_, ?_⟩
    · rw [hfence.2, hsame] at hx
      rw [hstore.1]
      exact h.recorded hx
    · rw [hfence.2, hsame] at hx
      rw [hfence.1]
      exact he.receipts (h.receipts hx)
    · rw [hfence.2, hsame]
      exact h.once
  · refine ⟨hkeyed, hactions, fun {x} hx => ?_, fun {x} hx => ?_, ?_⟩
    · rw [hfence.2, hcrossed, List.mem_append, List.mem_singleton] at hx
      rw [hstore.1]
      obtain hx | rfl := hx
      · exact h.recorded hx
      · rw [hkey, hid]
        exact hevent
    · rw [hfence.2, hcrossed, List.mem_append, List.mem_singleton] at hx
      rw [hfence.1]
      obtain hx | rfl := hx
      · exact he.receipts (h.receipts hx)
      · exact hreceipt
    · rw [hfence.2, hcrossed, List.map_append, List.map_singleton, List.nodup_append]
      refine ⟨h.once, List.nodup_singleton _, fun id hmem id' hid' hsame => ?_⟩
      obtain ⟨x, hx, rfl⟩ := List.mem_map.mp hmem
      rw [List.mem_singleton.mp hid'] at hsame
      exact h.receipts hx (hsame ▸ hfree)

theorem Governed.execute (h : Governed cleared engine) (c : Execution) :
    Governed (fun k => cleared k ∨ (k = c.proposal.actionId ∧ engine.Cleared c)) (execute c engine).2 := by
  have hmono := @Governed.mono _ _ h (fun k => cleared k ∨ (k = c.proposal.actionId ∧ engine.Cleared c)) fun k => Or.inl
  obtain ⟨t, authority, hcleared, hgates⟩ | ⟨err, authority, -, hgates⟩ := engine.gates_cases c
  · unfold GovernedActionEngine.execute
    rw [Op.bind_of_ok hgates]
    have hgoverned := hmono.authority authority
    cases hw : AtomicOutboxStore.write engine.store (engine.writeRequest c t) with
    | mk outcome store =>
      have hwrite : GovernedActionEngine.write c t { engine with authority } =
          (outcome, { engine with authority, store }) := by
        simp only [GovernedActionEngine.write]
        rw [show ({ engine with authority } : GovernedActionEngine).writeRequest c t = engine.writeRequest c t from rfl, hw]
      have hwritten := @Governed.write _ _ hgoverned c (Or.inr ⟨rfl, hcleared⟩) t outcome store hw
      cases outcome with
      | error err =>
        rw [Op.bind_of_error hwrite]
        exact hwritten
      | ok result =>
        rw [Op.bind_of_ok hwrite]
        have hevent := (write_keyed h.keyed hw).2.2.2 result rfl
        have hemits := hwritten.absorb (Boundary.emits_emit _ { sink := c.sink, instant := .utc t } result.event) hevent
        cases he : GovernedActionEngine.emit c result.event t { engine with authority, store } with
        | mk emitted after =>
          have hafter : after = (GovernedActionEngine.emit c result.event t { engine with authority, store }).2 := by
            rw [he]
          cases emitted with
          | error err =>
            rw [Op.bind_of_error he, hafter]
            exact hemits
          | ok receipt =>
            rw [Op.bind_of_ok he, Op.pure_apply, hafter]
            exact hemits
  · unfold GovernedActionEngine.execute
    rw [Op.bind_of_error hgates]
    exact hmono.authority authority

/-! ## Runs -/

/-- `GovernedActionEngine(authority=..., store=..., fence=...)` on a fresh store and a fresh fence. -/
def create (authority : CapabilityAuthority) (writer : PyStr) (storeBound : Bool)
    (fenceAuthority : Option CapabilityAuthority) (requireCapability : Bool) (markings : Option Marking.MarkingEngine)
    (foreignStore : Option AtomicOutboxStore) : Except PyError GovernedActionEngine := do
  let store ← AtomicOutboxStore.create writer
  let fence ← EmissionFence.create storeBound fenceAuthority requireCapability markings
  return ⟨authority, store, fence, foreignStore, []⟩

inductive Use
  | execute (c : Execution)
  /-- Other users of the capability authority leave it in this state. -/
  | authority (authority : CapabilityAuthority)

def step (engine : GovernedActionEngine) : Use → GovernedActionEngine
  | .execute c => (GovernedActionEngine.execute c engine).2
  | .authority authority => { engine with authority }

/-- An execute call of the run with this action passed its gates. -/
def PassedGates (start : GovernedActionEngine) (uses : List Use) (actionId : PyStr) : Prop :=
  ∃ before c after, uses = before ++ .execute c :: after ∧ c.proposal.actionId = actionId ∧
    (run step start before).Cleared c

theorem PassedGates.append {start : GovernedActionEngine} {uses : List Use} {actionId : PyStr}
    (h : PassedGates start uses actionId) (more : List Use) : PassedGates start (uses ++ more) actionId := by
  obtain ⟨before, c, after, rfl, haction, hcleared⟩ := h
  exact ⟨before, c, after ++ more, by simp, haction, hcleared⟩

theorem governed_create {authority : CapabilityAuthority} {writer : PyStr} {storeBound : Bool}
    {fenceAuthority : Option CapabilityAuthority} {requireCapability : Bool} {markings : Option Marking.MarkingEngine}
    {foreignStore : Option AtomicOutboxStore} {start : GovernedActionEngine}
    (h : create authority writer storeBound fenceAuthority requireCapability markings foreignStore = .ok start)
    (cleared : PyStr → Prop) : Governed cleared start := by
  obtain ⟨store, hstore, h⟩ := bind_eq_ok.1 h
  obtain ⟨fence, -, h⟩ := bind_eq_ok.1 h
  cases h
  unfold AtomicOutboxStore.create at hstore
  split_ifs at hstore
  cases hstore
  constructor
  case keyed =>
    intro id x hx
    simp at hx
  case actions =>
    intro k id hk
    simp at hk
  case once => exact List.nodup_nil
  all_goals
    intro x hx
    simp [delivered] at hx

theorem governed_run {start : GovernedActionEngine} (h : ∀ cleared, Governed cleared start) (uses : List Use) :
    Governed (PassedGates start uses) (run step start uses) := by
  induction uses using List.reverseRecOn with
  | nil => exact h _
  | append_singleton uses use ih =>
    rw [run_append, run_cons, run_nil]
    cases use with
    | authority authority => exact (ih.mono fun k hk => hk.append _).authority authority
    | execute c =>
      refine (ih.execute c).mono fun k hk => ?_
      obtain hk | ⟨rfl, hcleared⟩ := hk
      · exact hk.append _
      · exact ⟨uses, c, [], rfl, rfl, hcleared⟩

/-- **At most one effect, behind its gates.** On one engine over a fresh store and fence (bound to the engine's store, to
another one or to none), over any run of execute calls with any arguments and sinks that may raise, while others use the
capability authority: for every action the sink returned for at most one event, some execute call with that action had
then passed authority, human gate and decision, and a call that does not pass them changes neither store nor fence nor
calls a sink. -/
theorem effect_at_most_once (authority : CapabilityAuthority) (writer : PyStr) (storeBound : Bool)
    (fenceAuthority : Option CapabilityAuthority) (requireCapability : Bool) (markings : Option Marking.MarkingEngine)
    (foreignStore : Option AtomicOutboxStore) (start : GovernedActionEngine)
    (hstart : create authority writer storeBound fenceAuthority requireCapability markings foreignStore = .ok start)
    (uses : List Use) :
    (∀ actionId, ((delivered (run step start uses).calls).filter fun x => x.idempotencyKey = actionId).length ≤ 1) ∧
      (∀ x ∈ delivered (run step start uses).calls, PassedGates start uses x.idempotencyKey) ∧
      ∀ c, ¬ (run step start uses).Cleared c → ∃ err authority,
        execute c (run step start uses) = (.error err, { run step start uses with authority }) := by
  have h := governed_run (governed_create hstart) uses
  refine ⟨fun actionId => ?_, fun x hx => h.actions (h.recorded hx), fun c hdenied => execute_denied hdenied⟩
  -- deliveries of one action share its event's identifier, and no identifier is delivered twice
  have hnodup := List.Nodup.sublist (List.Sublist.map OutboxEvent.eventId
    (List.filter_sublist (p := fun x => decide (x.idempotencyKey = actionId)))) h.once
  have hrecorded : ∀ x ∈ (delivered (run step start uses).calls).filter fun x => x.idempotencyKey = actionId,
      (run step start uses).store.idempotency.get? actionId = some x.eventId := by
    intro x hx
    obtain ⟨hmem, hkey⟩ := List.mem_filter.mp hx
    rw [← of_decide_eq_true hkey]
    exact h.recorded hmem
  generalize (delivered (run step start uses).calls).filter (fun x => decide (x.idempotencyKey = actionId)) = found at *
  cases found with
  | nil => simp
  | cons x rest =>
    cases rest with
    | nil => simp
    | cons y rest =>
      have hsame := (hrecorded x (by simp)).symm.trans (hrecorded y (by simp))
      simp only [List.map_cons, List.nodup_cons, List.mem_cons] at hnodup
      exact absurd (Or.inl (Option.some.inj hsame)) hnodup.1

def sampleAuthority : CapabilityAuthority :=
  run CapabilityAuthority.step ⟨py "i", .empty, .empty, none, 0, 0⟩ [CapabilityAuthority.singleLease]

def sampleEngine : GovernedActionEngine :=
  ⟨sampleAuthority, ⟨py "w", .empty, .empty, .empty⟩, ⟨true, none, false, none, .empty, .empty, .empty⟩, none, []⟩

def sampleExecution (sink : Sink) (t : Instant) : Execution where
  proposal := ⟨py "act", py "s", py "door:open", py "site/a", py "door", true⟩
  leaseId := py "L"
  approval := some ⟨py "act", py "h", true, .utc 1, by decide, by decide⟩
  decision := some ⟨py "act", py "d", true, py "ok", .utc 1, by decide, by decide, by decide⟩
  sink := sink
  instant := .utc t
  stop := CapabilityAuthority.idleStop
  transactionId := py "tx"
  now := t

def sampleRetries : List Use :=
  [.execute (sampleExecution (.function fun _ _ => .error ⟨.foreign "Unavailable", "sink unavailable", []⟩) 5),
    .execute (sampleExecution (.function fun _ _ => .ok .none) 6)]

/-- An action whose sink fails and which is then sent again: the sink returned once. -/
theorem effect_at_most_once_sampleRetries :
    create sampleAuthority (py "w") true none false none none = .ok sampleEngine ∧
      (delivered (run step sampleEngine sampleRetries).calls).length = 1 ∧
      ∀ x ∈ delivered (run step sampleEngine sampleRetries).calls, PassedGates sampleEngine sampleRetries x.idempotencyKey := by
  have hstart : create sampleAuthority (py "w") true none false none none = .ok sampleEngine := rfl
  exact ⟨hstart, by decide +kernel, (effect_at_most_once _ _ _ _ _ _ _ _ hstart sampleRetries).2.1⟩

end GovernedActionEngine
end OcorRuntime.Actions

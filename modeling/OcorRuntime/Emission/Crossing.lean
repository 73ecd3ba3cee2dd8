import OcorRuntime.Emission.Fence
import OcorRuntime.Store.Atomicity

/-! What one operation of a fence can do. `emit_cases` lists the outcomes of an
emission, with everything the gates establish when an event crosses; `Tracks` couples
a fence to its store and survives whatever else happens to the store. -/
namespace OcorRuntime.Emission
open Store Capabilities Marking
set_option autoImplicit false
set_option maxHeartbeats 250000

/-! ## The store grows -/

/-- Events stay in the store and an emission is recorded once. -/
def Extends (store store' : AtomicOutboxStore) : Prop :=
  ∀ id d, store.events.get? id = some d →
    ∃ s, store'.events.get? id = some { d with emittedAt := s } ∧ (d.emittedAt ≠ none → s = d.emittedAt)

theorem extends_refl (store : AtomicOutboxStore) : Extends store store := fun _ d hd => ⟨d.emittedAt, hd, fun _ => rfl⟩

theorem extends_trans {store store' store'' : AtomicOutboxStore} (h : Extends store store') (h' : Extends store' store'') :
    Extends store store'' := by
  intro id d hd
  obtain ⟨s, hs, hkept⟩ := h id d hd
  obtain ⟨s', hs', hkept'⟩ := h' id _ hs
  refine ⟨s', hs', fun hemitted => ?_⟩
  have hs := hkept hemitted
  exact (hkept' (by rw [hs]; exact hemitted)).trans hs

theorem extends_write {S : Set Bytes} {store : AtomicOutboxStore} (hinj : Set.InjOn Sha256.digest S)
    (hc : store.Consistent S) {r : WriteRequest} (hS : ∀ b ∈ store.publishedSeed r, b ∈ S) :
    Extends store (store.write r).2 := by
  rcases store.write_cases r with h | ⟨doc, e, hs, hp, h⟩
  · rw [h]
    exact extends_refl store
  · rw [h]
    intro id d hd
    refine ⟨d.emittedAt, (AtomicOutboxStore.get?_events_publish (hp.id_new hinj (fun b hb => hS b ?_) hc)).mpr (Or.inr hd),
      fun _ => rfl⟩
    rw [AtomicOutboxStore.publishedSeed, hs]
    dsimp only
    rw [hb]
    exact List.mem_singleton_self b

theorem extends_mark {store : AtomicOutboxStore} {e : OutboxEvent} {t : Instant}
    (he : store.events.get? e.eventId = some e) (hpending : e.emittedAt = none) : Extends store (store.mark e t) := by
  intro id d hd
  by_cases h : id = e.eventId
  · subst h
    rw [he] at hd
    cases hd
    exact ⟨some t, (AtomicOutboxStore.get?_events_mark he).mpr ⟨e, he, by rw [if_pos rfl]⟩, fun hne => absurd hpending hne⟩
  · exact ⟨d.emittedAt, (AtomicOutboxStore.get?_events_mark he).mpr ⟨d, hd, by rw [if_neg h]⟩, fun _ => rfl⟩

theorem extends_markEmitted {S : Set Bytes} {store : AtomicOutboxStore} (hc : store.Consistent S) (eventId : PyStr)
    (emittedAt : DateTime) : Extends store (store.markEmitted eventId emittedAt).2 := by
  rcases AtomicOutboxStore.markEmitted_cases hc eventId emittedAt with h | ⟨e, t, -, he, -, hpending, -, h⟩
  · rw [h]
    exact extends_refl store
  · rw [h]
    exact extends_mark he hpending

/-! ## A fence and its store -/

/-- What a fence holds stands for records of its store: a registered event is the durable record, perhaps from before
its emission, and a receipt belongs to an emitted event. -/
structure Tracks (store : AtomicOutboxStore) (f : EmissionFence) : Prop where
  bound : f.storeBound = true
  registered : ∀ {id e}, f.registered.get? id = some e →
    ∃ d, store.events.get? id = some d ∧ (e = d ∨ e = { d with emittedAt := none })
  receipts : ∀ {id receipt}, f.receipts.get? id = some receipt → ∃ d, store.events.get? id = some d ∧ d.emittedAt ≠ none

theorem tracks_create {store : AtomicOutboxStore} {authority : Option CapabilityAuthority} {requireCapability : Bool}
    {engine : Option MarkingEngine} {f : EmissionFence}
    (h : EmissionFence.create true authority requireCapability engine = .ok f) : Tracks store f := by
  unfold EmissionFence.create at h
  split_ifs at h
  cases h
  exact ⟨rfl, by simp, by simp⟩

theorem Tracks.extends {store store' : AtomicOutboxStore} {f : EmissionFence} (h : Tracks store f)
    (hext : Extends store store') : Tracks store' f := by
  refine ⟨h.bound, fun {id e} he => ?_, fun hr => ?_⟩
  · obtain ⟨d, hd, hed⟩ := h.registered he
    obtain ⟨s, hs, hkept⟩ := hext id d hd
    refine ⟨_, hs, ?_⟩
    by_cases hpending : d.emittedAt = none
    · refine Or.inr ?_
      have hd' : { d with emittedAt := none } = d := by rw [← hpending]
      rcases hed with rfl | rfl
      · exact hd'.symm
      · rfl
    · rw [hkept hpending]
      exact hed
  · obtain ⟨d, hd, hemitted⟩ := h.receipts hr
    obtain ⟨s, hs, hkept⟩ := hext _ d hd
    exact ⟨_, hs, by rw [hkept hemitted]; exact hemitted⟩

theorem Tracks.registered_id {S : Set Bytes} {store : AtomicOutboxStore} {f : EmissionFence} (h : Tracks store f)
    (hc : store.Consistent S) {id : PyStr} {e : OutboxEvent} (he : f.registered.get? id = some e) : e.eventId = id := by
  obtain ⟨d, hd, rfl | rfl⟩ := h.registered he
  · exact (hc.event_id hd).1
  · exact (hc.event_id hd).1

theorem Tracks.authority {store : AtomicOutboxStore} {f : EmissionFence} (h : Tracks store f)
    (authority : Option CapabilityAuthority) : Tracks store { f with capabilityAuthority := authority } :=
  ⟨h.bound, h.registered, h.receipts⟩

namespace EmissionFence
variable {store : AtomicOutboxStore} {f : EmissionFence}

/-! ## Registration -/

theorem accept_pending {d : OutboxEvent} (h : d.emittedAt = none) :
    f.accept d = f.enroll d := by
  unfold accept
  rw [h]

theorem accept_registered (d : OutboxEvent) : (f.accept d).registered = f.registered.set d.eventId d := by
  unfold accept
  split <;> rfl

theorem accept_storeBound (d : OutboxEvent) : (f.accept d).storeBound = f.storeBound := by
  unfold accept
  split <;> rfl

theorem accept_passed {d : OutboxEvent} (hemitted : d.emittedAt ≠ none) (hr : f.receipts.get? d.eventId = none) :
    d.aggregateVersion ≤ (f.accept d).last d.aggregateId := by
  obtain ⟨t, ht⟩ := Option.ne_none_iff_exists'.mp hemitted
  unfold accept
  rw [ht, hr]
  simp [last]

theorem accept_receipts {d : OutboxEvent} {id : PyStr} {receipt : EmissionReceipt}
    (h : (f.accept d).receipts.get? id = some receipt) :
    f.receipts.get? id = some receipt ∨ (id = d.eventId ∧ d.emittedAt ≠ none) := by
  unfold accept at h
  split at h
  · next t ht hr =>
    dsimp only at h
    rw [Dict.get?_set] at h
    split_ifs at h with hid
    · exact Or.inr ⟨hid.symm, by rw [ht]; exact Option.some_ne_none t⟩
    · exact Or.inl h
  · exact Or.inl h

theorem pyEq_eventId {a b : OutboxEvent} (h : a.pyEq b = true) : a.eventId = b.eventId := by
  have hfields := of_decide_eq_true (Bool.and_elim_left h)
  exact (OutboxEvent.mk.inj hfields).1

theorem admissible_durable (hb : f.storeBound = true) {event d : OutboxEvent} (h : f.admissible store event = .ok d) :
    d.eventId = event.eventId ∧ store.events.get? d.eventId = some d := by
  obtain ⟨e, he, h⟩ := bind_eq_ok.1 h
  have hd : e = d := by
    by_cases hcommitted : e.committed = false
    · rw [if_pos hcommitted] at h
      cases h
    · rw [if_neg hcommitted] at h
      obtain ⟨intact, -, h⟩ := bind_eq_ok.1 h
      split_ifs at h
      exact Except.ok.inj h
  subst hd
  unfold durableRecord at he
  rw [if_pos hb] at he
  cases hs : store.getEvent event.eventId with
  | none =>
    rw [hs] at he
    cases he
  | some durable =>
    rw [hs] at he
    dsimp only at he
    split_ifs at he with hsame
    cases he
    have hid := pyEq_eventId hsame
    dsimp only at hid
    rw [hid] at hs
    exact ⟨hid.symm, hs⟩

theorem admissible_self {S : Set Bytes} (hc : store.Consistent S) {d : OutboxEvent}
    (hd : store.events.get? d.eventId = some d) (hsame : ∀ e, f.registered.get? d.eventId = some e → e = d) :
    f.admissible store d = .ok d := by
  have hself : d.pyEq d = true := by
    simp [OutboxEvent.pyEq, PyValue.fieldEq_self]
  have hrecord : f.durableRecord store d = .ok d := by
    unfold durableRecord AtomicOutboxStore.getEvent
    rw [hd]
    simp [hself]
  have hcollision : ((f.registered.get? d.eventId).any fun existing => !existing.pyEq d) = false := by
    cases he : f.registered.get? d.eventId with
    | none => rfl
    | some e =>
      rw [hsame e he]
      simp [hself]
  obtain ⟨hcommitted, hdigest⟩ := hc.event_committed hd
  unfold admissible
  rw [hrecord]
  simp [bind, Except.bind, hcommitted, OutboxEvent.verifyIntegrity, hdigest, hcollision, pure, Except.pure]

theorem register_cases (hb : f.storeBound = true) (event : OutboxEvent) :
    (∃ err, f.register store event = (.error err, f)) ∨
      ∃ d, d.eventId = event.eventId ∧ store.events.get? d.eventId = some d ∧
        f.register store event = (.ok d, f.accept d) := by
  unfold register
  cases h : f.admissible store event with
  | error err => exact Or.inl ⟨err, rfl⟩
  | ok d => exact Or.inr ⟨d, (admissible_durable hb h).1, (admissible_durable hb h).2, rfl⟩

theorem tracks_accept (h : Tracks store f) {d : OutboxEvent} (hd : store.events.get? d.eventId = some d) :
    Tracks store (f.accept d) := by
  refine ⟨by rw [accept_storeBound]; exact h.bound, fun {id e} he => ?_, fun {id receipt} hr => ?_⟩
  · rw [accept_registered, Dict.get?_set] at he
    split_ifs at he with hid
    · cases he
      exact ⟨d, hid ▸ hd, Or.inl rfl⟩
    · exact h.registered he
  · rcases accept_receipts hr with hr | ⟨rfl, hemitted⟩
    · exact h.receipts hr
    · exact ⟨d, hd, hemitted⟩

theorem tracks_register (h : Tracks store f) (event : OutboxEvent) : Tracks store (f.register store event).2 := by
  rcases register_cases h.bound event with ⟨err, hr⟩ | ⟨d, -, hd, hr⟩
  · rwa [hr]
  · rw [hr]
    exact tracks_accept h hd

/-! ## The gates -/

/-- The order gate: the version is not passed yet and nothing earlier is pending. -/
theorem checkOrder_eq_ok (hb : f.storeBound = true) {d : OutboxEvent} :
    f.checkOrder store d = .ok () ↔ f.last d.aggregateId < d.aggregateVersion ∧
      ∀ c, c ∈ f.registered.values ∨ c ∈ store.events.values → c.aggregateId = d.aggregateId →
        c.aggregateVersion < d.aggregateVersion → c.emittedAt = none → f.receipts.get? c.eventId ≠ none := by
  have hmem : ∀ c, c ∈ f.candidates store ↔ c ∈ f.registered.values ∨ c ∈ store.events.values := by
    intro c
    rw [candidates, if_pos hb, List.mem_append, AtomicOutboxStore.outbox, List.mem_insertionSort]
    simp
  have hempty : f.earlierPending store d = [] ↔ ∀ c, c ∈ f.registered.values ∨ c ∈ store.events.values →
      c.aggregateId = d.aggregateId → c.aggregateVersion < d.aggregateVersion → c.emittedAt = none →
      f.receipts.get? c.eventId ≠ none := by
    rw [earlierPending, List.filter_eq_nil_iff]
    simp only [hmem, decide_eq_true_eq, not_and]
  rw [← hempty]
  unfold checkOrder
  split_ifs with h1 h2
  · simp [not_lt.mpr h1]
  · simp [h2]
  · simpa [not_le.mp h1] using h2

theorem checkCapability_cases (f : EmissionFence) (r : EmitRequest) (event : OutboxEvent) (instant : Instant) :
    ∃ authority, (f.checkCapability r event instant).2 = { f with capabilityAuthority := authority } := by
  unfold checkCapability
  split_ifs
  · split
    · split
      · exact ⟨_, rfl⟩
      · exact ⟨_, rfl⟩
    · exact ⟨f.capabilityAuthority, rfl⟩
  · exact ⟨f.capabilityAuthority, rfl⟩

theorem acknowledge_last (f : EmissionFence) (receipt : EmissionReceipt) (a : PyStr) :
    (f.acknowledge receipt).last a = if receipt.aggregateId = a then receipt.aggregateVersion else f.last a := by
  rw [last, acknowledge, Dict.get?_set]
  by_cases h : receipt.aggregateId = a
  · simp [h]
  · simp [h, last]

end EmissionFence

/-! ## Emission -/

def delivered (calls : List SinkCall) : List OutboxEvent :=
  calls.filterMap fun call => if call.answer.isOk then some call.event else none

theorem callSink_cases (sink : Sink) (calls : List SinkCall) (event : OutboxEvent) :
    (∃ err, (callSink sink calls event).1 = .error err ∧ delivered (callSink sink calls event).2 = delivered calls) ∨
      ∃ value, callSink sink calls event = (.ok value, calls ++ [⟨event, .ok value⟩]) := by
  have hlog : ∀ answer : Except PyError PyValue,
      (∃ err, answer = .error err ∧ delivered (calls ++ [⟨event, answer⟩]) = delivered calls) ∨
        ∃ value, (answer, calls ++ [⟨event, answer⟩]) = (.ok value, calls ++ [⟨event, .ok value⟩]) := by
    intro answer
    cases answer with
    | error err => exact Or.inl ⟨err, rfl, by simp [delivered, Except.isOk, Except.toBool]⟩
    | ok value => exact Or.inr ⟨value, rfl⟩
  cases sink with
  | object emit => exact hlog _
  | function call => exact hlog _
  | notCallable => exact Or.inl ⟨_, rfl, rfl⟩

theorem delivered_append (calls : List SinkCall) (event : OutboxEvent) (value : PyValue) :
    delivered (calls ++ [⟨event, .ok value⟩]) = delivered calls ++ [event] := by
  simp [delivered, Except.isOk, Except.toBool]

namespace Boundary

/-- Nothing crossed: the store is untouched, and the fence has at most admitted a durable record. -/
structure Stayed (b b' : Boundary) : Prop where
  store : b'.store = b.store
  delivered : delivered b'.calls = delivered b.calls
  fence : ∃ g authority, b'.fence = { g with capabilityAuthority := authority } ∧
    (g = b.fence ∨ ∃ d, b.store.events.get? d.eventId = some d ∧ g = b.fence.accept d)

def receiptOf (d : OutboxEvent) (t : Instant) (value : PyValue) : EmissionReceipt where
  eventId := d.eventId
  aggregateId := d.aggregateId
  aggregateVersion := d.aggregateVersion
  emittedAt := t
  sinkResult := value

/-- The pending record `d` crossed at instant `t`, and the sink answered `value`. -/
structure Crossed (b b' : Boundary) (d : OutboxEvent) (t : Instant) (value : PyValue) : Prop where
  durable : b.store.events.get? d.eventId = some d
  pending : d.emittedAt = none
  time : d.occurredAt ≤ t
  fresh : b.fence.receipts.get? d.eventId = none
  order : (b.fence.accept d).checkOrder b.store d = .ok ()
  store : b'.store = b.store.mark d t
  fence : ∃ authority, b'.fence =
    EmissionFence.acknowledge { b.fence.accept d with capabilityAuthority := authority } (receiptOf d t value)
  calls : b'.calls = b.calls ++ [⟨d, .ok value⟩]

theorem markEmitted_pending {store : AtomicOutboxStore} {d : OutboxEvent} {t : Instant}
    (hd : store.events.get? d.eventId = some d) (hpending : d.emittedAt = none) (ht : d.occurredAt ≤ t) :
    store.markEmitted d.eventId (.utc t) = (.ok { d with emittedAt := some t }, store.mark d t) := by
  unfold AtomicOutboxStore.markEmitted
  rw [requireAware_utc, subscript_eq_ok.2 hd]
  simp [not_lt.mpr ht, hpending, AtomicOutboxStore.mark]

theorem deliver_cases {b : Boundary} (hb : b.fence.storeBound = true)
    (r : EmitRequest) {d : OutboxEvent} {t : Instant} (hd : b.store.events.get? d.eventId = some d)
    (hpending : d.emittedAt = none) (ht : d.occurredAt ≤ t) :
    (∃ err calls, (callSink r.sink b.calls d).1 = .error err ∧ b.deliver r d t = (.error err, { b with calls }) ∧
        delivered calls = delivered b.calls) ∨
      ∃ value, b.deliver r d t = (.ok (receiptOf d t value),
        ⟨b.store.mark d t, b.fence.acknowledge (receiptOf d t value), b.calls ++ [⟨d, .ok value⟩]⟩) := by
  unfold deliver
  rcases callSink_cases r.sink b.calls d with ⟨err, herr, hlog⟩ | ⟨value, hvalue⟩
  · refine Or.inl ⟨err, (callSink r.sink b.calls d).2, herr, ?_, hlog⟩
    rcases hs : callSink r.sink b.calls d with ⟨answer, calls⟩
    rw [hs] at herr
    cases herr
    rfl
  · refine Or.inr ⟨value, ?_⟩
    have hrecord : b.recordEmission d t = (.ok (), b.store.mark d t) := by
      unfold recordEmission
      rw [if_pos hb, markEmitted_pending hd hpending ht]
    rw [hvalue]
    dsimp only
    rw [hrecord]
    rfl

theorem checkGates_eq_ok {f : EmissionFence} {store : AtomicOutboxStore} {r : EmitRequest} {d : OutboxEvent} {t : Instant} :
    f.checkGates store r d t = .ok () ↔
      d.occurredAt ≤ t ∧ f.checkOrder store d = .ok () ∧ f.checkDisclosure r = .ok () := by
  unfold EmissionFence.checkGates
  split_ifs with ht
  · simp [not_le.mpr ht]
  · rw [bind_eq_ok]
    constructor
    · rintro ⟨⟨⟩, horder, hdisclosure⟩
      exact ⟨not_lt.mp ht, horder, hdisclosure⟩
    · rintro ⟨-, horder, hdisclosure⟩
      exact ⟨(), horder, hdisclosure⟩

theorem release_cases {b : Boundary} (hb : b.fence.storeBound = true) (r : EmitRequest) {d : OutboxEvent} {t : Instant}
    (hd : b.store.events.get? d.eventId = some d)
    (hpending : b.fence.checkOrder b.store d = .ok () → d.emittedAt = none) :
    (∃ err authority calls, b.release r d t =
        (.error err, ⟨b.store, { b.fence with capabilityAuthority := authority }, calls⟩) ∧
        delivered calls = delivered b.calls) ∨
      ∃ value authority, d.occurredAt ≤ t ∧ b.fence.checkOrder b.store d = .ok () ∧
        b.release r d t = (.ok (receiptOf d t value), ⟨b.store.mark d t,
          EmissionFence.acknowledge { b.fence with capabilityAuthority := authority } (receiptOf d t value),
          b.calls ++ [⟨d, .ok value⟩]⟩) := by
  unfold release
  cases hgates : b.fence.checkGates b.store r d t with
  | error err => exact Or.inl ⟨err, b.fence.capabilityAuthority, b.calls, rfl, rfl⟩
  | ok u =>
    obtain ⟨ht, horder, -⟩ := checkGates_eq_ok.1 hgates
    obtain ⟨authority, hauthority⟩ := b.fence.checkCapability_cases r d t
    rcases hcap : b.fence.checkCapability r d t with ⟨err | u, g⟩
    · rw [hcap] at hauthority
      dsimp only at hauthority ⊢
      rw [hauthority]
      exact Or.inl ⟨err, authority, b.calls, rfl, rfl⟩
    · rw [hcap] at hauthority
      dsimp only at hauthority ⊢
      subst hauthority
      have hdeliver := @deliver_cases { b with fence := { b.fence with capabilityAuthority := authority } } hb r d t hd
        (hpending horder) ht
      rcases hdeliver with ⟨err, calls, -, h, hlog⟩ | ⟨value, h⟩
      · exact Or.inl ⟨err, authority, calls, h, hlog⟩
      · exact Or.inr ⟨value, authority, ht, horder, h⟩

/-- Everything an emission can do: answer with the receipt it holds, raise without an event crossing, or deliver the
durable record of the event. -/
theorem emit_cases {b : Boundary} (hb : b.fence.storeBound = true) (r : EmitRequest) (event : OutboxEvent) :
    (∃ receipt, b.fence.receipts.get? event.eventId = some receipt ∧
        b.emit r event = (.ok { receipt with deduplicated := true }, b)) ∨
      (∃ err b', b.emit r event = (.error err, b') ∧ Stayed b b') ∨
      ∃ d t value b', d.eventId = event.eventId ∧ b.emit r event = (.ok (receiptOf d t value), b') ∧
        Crossed b b' d t value := by
  have hself : Stayed b b := ⟨rfl, rfl, b.fence, b.fence.capabilityAuthority, rfl, Or.inl rfl⟩
  unfold emit
  cases hinstant : requireAware r.instant "at" with
  | error err => exact Or.inr (Or.inl ⟨err, b, rfl, hself⟩)
  | ok t =>
    cases hreceipt : b.fence.receipts.get? event.eventId with
    | some receipt => exact Or.inl ⟨receipt, rfl, rfl⟩
    | none =>
      refine Or.inr ?_
      rcases @EmissionFence.register_cases b.store b.fence hb event with ⟨err, hregister⟩ | ⟨d, hid, hd, hregister⟩
      · refine Or.inl ⟨err, b, ?_, hself⟩
        dsimp only
        rw [hregister]
      · rw [← hid] at hreceipt
        -- the registration of an emitted record passes its version, so the order gate refuses it
        have hpending : (b.fence.accept d).checkOrder b.store d = .ok () → d.emittedAt = none := by
          intro horder
          by_contra hemitted
          have hlast := (EmissionFence.checkOrder_eq_ok (by rw [EmissionFence.accept_storeBound]; exact hb)).mp horder
          exact absurd (EmissionFence.accept_passed hemitted hreceipt) (not_le.mpr hlast.1)
        have hrelease := @release_cases { b with fence := b.fence.accept d }
          (by rw [EmissionFence.accept_storeBound]; exact hb) r d t hd hpending
        dsimp only
        rw [hregister]
        dsimp only
        rcases hrelease with ⟨err, authority, calls, h, hlog⟩ | ⟨value, authority, ht, horder, h⟩
        · exact Or.inl ⟨err, _, h, rfl, hlog, b.fence.accept d, authority, rfl, Or.inr ⟨d, hd, rfl⟩⟩
        · exact Or.inr ⟨d, t, value, _, hid, h, hd, hpending horder, ht, hreceipt, horder, rfl, ⟨authority, rfl⟩, rfl⟩

/-! ## Drains -/

theorem drain_induction {P : Boundary → Prop} {r : EmitRequest}
    (hregister : ∀ b event, P b → P { b with fence := (b.fence.register b.store event).2 })
    (hemit : ∀ b event, P b → P (b.emit r event).2) {b : Boundary} (h : P b) : P (b.drain r).2 := by
  have hall : ∀ events b, P b → P (registerAll b events).2 := by
    intro events
    induction events with
    | nil => exact fun b h => h
    | cons event events ih =>
      intro b h
      have hb := hregister b event h
      rw [registerAll]
      rcases hr : b.fence.register b.store event with ⟨err | d, f⟩
      · rw [hr] at hb
        exact hb
      · rw [hr] at hb
        exact ih _ hb
  have hemits : ∀ events b, P b → P (emitAll b r events).2 := by
    intro events
    induction events with
    | nil => exact fun b h => h
    | cons event events ih =>
      intro b h
      have hb := hemit b event h
      rw [emitAll]
      rcases hr : b.emit r event with ⟨err | receipt, b'⟩
      · rw [hr] at hb
        exact hb
      · rw [hr] at hb
        have hrest := ih b' hb
        dsimp only
        rcases hr' : b'.emitAll r events with ⟨err | receipts, b''⟩
        · rwa [hr'] at hrest
        · rwa [hr'] at hrest
  unfold drain
  split_ifs with hbound
  · have hb := hall b.store.outbox b h
    rcases hr : b.registerAll b.store.outbox with ⟨err | u, b'⟩
    · rwa [hr] at hb
    · rw [hr] at hb
      exact hemits _ b' hb
  · exact h

/-! ## What a crossing leaves -/

section Crossed
variable {b b' : Boundary} {d : OutboxEvent} {t : Instant} {value : PyValue}

theorem Crossed.receipts (h : Crossed b b' d t value) :
    b'.fence.receipts = b.fence.receipts.set d.eventId (receiptOf d t value) := by
  obtain ⟨authority, hf⟩ := h.fence
  rw [hf, EmissionFence.accept_pending h.pending]
  rfl

theorem Crossed.registered (h : Crossed b b' d t value) :
    b'.fence.registered = b.fence.registered.set d.eventId d := by
  obtain ⟨authority, hf⟩ := h.fence
  rw [hf, EmissionFence.accept_pending h.pending]
  rfl

theorem Crossed.last (h : Crossed b b' d t value) (a : PyStr) :
    b'.fence.last a = if d.aggregateId = a then d.aggregateVersion else b.fence.last a := by
  obtain ⟨authority, hf⟩ := h.fence
  rw [hf, EmissionFence.accept_pending h.pending, EmissionFence.acknowledge_last]
  rfl

theorem Crossed.extends (h : Crossed b b' d t value) : Extends b.store b'.store := by
  rw [h.store]
  exact extends_mark h.durable h.pending

theorem Crossed.consistent {S : Set Bytes} (h : Crossed b b' d t value) (hc : b.store.Consistent S) :
    b'.store.Consistent S := by
  rw [h.store]
  exact hc.mark h.durable h.time

theorem Crossed.events (h : Crossed b b' d t value) {id : PyStr} {x : OutboxEvent} :
    b'.store.events.get? id = some x ↔
      ∃ y, b.store.events.get? id = some y ∧ x = if id = d.eventId then { y with emittedAt := some t } else y := by
  rw [h.store]
  exact AtomicOutboxStore.get?_events_mark h.durable

theorem Crossed.tracks (h : Crossed b b' d t value) (ht : Tracks b.store b.fence) : Tracks b'.store b'.fence := by
  have haccepted := (EmissionFence.tracks_accept ht h.durable).extends h.extends
  obtain ⟨authority, hf⟩ := h.fence
  refine ⟨by rw [hf]; exact haccepted.bound, fun hr => haccepted.registered ?_, fun {id receipt} hr => ?_⟩
  · rw [h.registered] at hr
    rwa [EmissionFence.accept_registered]
  · rw [h.receipts, Dict.get?_set] at hr
    split_ifs at hr with hid
    · exact ⟨{ d with emittedAt := some t }, h.events.mpr ⟨d, hid ▸ h.durable, (if_pos hid.symm).symm⟩,
        Option.some_ne_none t⟩
    · exact (ht.extends h.extends).receipts hr

end Crossed

theorem Stayed.tracks {b b' : Boundary} (h : Stayed b b') (ht : Tracks b.store b.fence) : Tracks b'.store b'.fence := by
  obtain ⟨g, authority, hg, hcases⟩ := h.fence
  rw [h.store, hg]
  rcases hcases with rfl | ⟨d, hd, rfl⟩
  · exact ht.authority authority
  · exact (EmissionFence.tracks_accept ht hd).authority authority

end Boundary
end OcorRuntime.Emission

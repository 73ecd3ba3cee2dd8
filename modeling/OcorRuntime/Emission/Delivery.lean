import OcorRuntime.Emission.Crossing

/-! One store and one fence bound to it, over any interleaving of writes,
registrations, emissions and drains. The receipts of the fence and the emission marks
of the store agree, and the last version the fence passed counts the deliveries of
the aggregate, so every aggregate is delivered in version order, each event once. -/
namespace OcorRuntime.Emission
open Store Capabilities Marking
set_option autoImplicit false
set_option maxHeartbeats 250000
set_option maxRecDepth 120000

namespace Boundary

/-! ## Runs -/

def create (writer : PyStr) (authority : Option CapabilityAuthority) (requireCapability : Bool)
    (engine : Option MarkingEngine) : Except PyError Boundary := do
  let store ← AtomicOutboxStore.create writer
  let fence ← EmissionFence.create true authority requireCapability engine
  return ⟨store, fence, []⟩

inductive Call
  | write (r : WriteRequest)
  | register (event : OutboxEvent)
  | emit (r : EmitRequest) (event : OutboxEvent)
  | drain (r : EmitRequest)
  /-- Other users of the capability authority leave it in this state. -/
  | authority (authority : CapabilityAuthority)

def step (b : Boundary) : Call → Boundary
  | .write r => { b with store := (b.store.write r).2 }
  | .register event => { b with fence := (b.fence.register b.store event).2 }
  | .emit r event => (b.emit r event).2
  | .drain r => (b.drain r).2
  | .authority authority =>
    { b with fence := { b.fence with capabilityAuthority := b.fence.capabilityAuthority.map fun _ => authority } }

def callSeeds (b : Boundary) : Call → List Bytes
  | .write r => b.store.publishedSeed r
  | _ => []

/-! ## The invariant -/

/-- The deliveries of an aggregate, in order. -/
def deliveredOf (calls : List SinkCall) (aggregateId : PyStr) : List OutboxEvent :=
  (delivered calls).filter fun e => e.aggregateId = aggregateId

/-- Fence, store and deliveries agree. -/
structure InStep (S : Set Bytes) (b : Boundary) : Prop where
  consistent : b.store.Consistent S
  tracks : Tracks b.store b.fence
  receipt_of_emitted : ∀ {id d}, b.store.events.get? id = some d → d.emittedAt ≠ none → b.fence.receipts.get? id ≠ none
  versions : ∀ a, (deliveredOf b.calls a).map OutboxEvent.aggregateVersion = List.range' 1 (b.fence.last a)
  recorded : ∀ {e}, e ∈ delivered b.calls → ∃ t, b.store.events.get? e.eventId = some { e with emittedAt := some t }
  emitted : ∀ {id d}, b.store.events.get? id = some d → d.emittedAt ≠ none → { d with emittedAt := none } ∈ delivered b.calls

variable {S : Set Bytes} {b : Boundary}

theorem InStep.le_last (h : InStep S b) {id : PyStr} {d : OutboxEvent} (hd : b.store.events.get? id = some d)
    (hemitted : d.emittedAt ≠ none) : d.aggregateVersion ≤ b.fence.last d.aggregateId := by
  have hmem : d.aggregateVersion ∈ (deliveredOf b.calls d.aggregateId).map OutboxEvent.aggregateVersion := by
    refine List.mem_map.mpr ⟨{ d with emittedAt := none }, List.mem_filter.mpr ⟨h.emitted hd hemitted, ?_⟩, rfl⟩
    exact decide_eq_true rfl
  rw [h.versions, List.mem_range'_1] at hmem
  omega

theorem InStep.next_version (h : InStep S b) {b' : Boundary} {d : OutboxEvent} {t : Instant} {value : PyValue}
    (hx : Crossed b b' d t value) : d.aggregateVersion = b.fence.last d.aggregateId + 1 := by
  obtain ⟨hlast, hclear⟩ := (EmissionFence.checkOrder_eq_ok
    (by rw [EmissionFence.accept_storeBound]; exact h.tracks.bound)).mp hx.order
  rw [EmissionFence.accept_pending hx.pending] at hlast hclear
  by_contra hne
  have hlt : b.fence.last d.aggregateId + 1 < d.aggregateVersion := by
    have : b.fence.last d.aggregateId < d.aggregateVersion := hlast
    omega
  -- the version after the last one has an event, and the order gate says it is emitted
  obtain ⟨doc, hdoc, -, hle, -⟩ := h.consistent.event_document hx.durable
  obtain ⟨id, x, hxe, hxa, hxv⟩ := h.consistent.version_event hdoc (v := b.fence.last d.aggregateId + 1) (by omega) (by omega)
  have hemitted : x.emittedAt ≠ none := by
    intro hpending
    have hreceipt := hclear x (Or.inr ((Dict.mem_values_iff _ x).mpr ⟨id, hxe⟩)) hxa (by omega) hpending
    obtain ⟨receipt, hreceipt⟩ := Option.ne_none_iff_exists'.mp hreceipt
    obtain ⟨y, hy, hy'⟩ := h.tracks.receipts hreceipt
    rw [(h.consistent.event_id hxe).1, hxe] at hy
    cases hy
    exact hy' hpending
  have := h.le_last hxe hemitted
  rw [hxa] at this
  omega

/-! ## Steps -/

theorem InStep.write (hinj : Set.InjOn Sha256.digest S) (h : InStep S b) {r : WriteRequest}
    (hS : ∀ seed ∈ b.store.publishedSeed r, seed ∈ S) : InStep S { b with store := (b.store.write r).2 } := by
  have hext := extends_write hinj h.consistent hS
  have hold : ∀ {id d}, (b.store.write r).2.events.get? id = some d → d.emittedAt ≠ none →
      b.store.events.get? id = some d := by
    intro id d hd hemitted
    rcases b.store.write_cases r with hw | ⟨doc, e, hs, hp, hw⟩
    · rwa [hw] at hd
    · rw [hw, AtomicOutboxStore.publish, Dict.get?_set] at hd
      split_ifs at hd
      · cases hd
        exact absurd hp.pending hemitted
      · exact hd
  refine ⟨h.consistent.write hinj hS, h.tracks.extends hext, fun hd he => h.receipt_of_emitted (hold hd he) he,
    h.versions, fun {e} he => ?_, fun hd he => h.emitted (hold hd he) he⟩
  obtain ⟨t, ht⟩ := h.recorded he
  obtain ⟨s, hs, hkept⟩ := hext _ _ ht
  exact ⟨t, by rw [hs, hkept (Option.some_ne_none t)]⟩

theorem InStep.accept_eq (h : InStep S b) {d : OutboxEvent} (hd : b.store.events.get? d.eventId = some d) :
    b.fence.accept d = b.fence.enroll d := by
  unfold EmissionFence.accept
  split
  · next t ht hr => exact absurd hr (h.receipt_of_emitted hd (by rw [ht]; exact Option.some_ne_none t))
  · rfl

theorem InStep.stayed (h : InStep S b) {b' : Boundary} (hs : Stayed b b') : InStep S b' := by
  have htracks := hs.tracks h.tracks
  obtain ⟨hstore, hlog, g, authority, hfence, hg⟩ := hs
  have hsame : b'.fence.receipts = b.fence.receipts ∧ b'.fence.lastVersion = b.fence.lastVersion := by
    rw [hfence]
    rcases hg with rfl | ⟨d, hd, rfl⟩
    · exact ⟨rfl, rfl⟩
    · rw [h.accept_eq hd]
      exact ⟨rfl, rfl⟩
  refine ⟨hstore ▸ h.consistent, htracks, ?_, ?_, ?_, ?_⟩
  · rw [hstore, hsame.1]
    exact h.receipt_of_emitted
  · intro a
    have := h.versions a
    rwa [deliveredOf, hlog, EmissionFence.last, hsame.2]
  · rw [hstore, hlog]
    exact h.recorded
  · rw [hstore, hlog]
    exact h.emitted

theorem InStep.crossed (h : InStep S b) {b' : Boundary} {d : OutboxEvent} {t : Instant} {value : PyValue}
    (hx : Crossed b b' d t value) : InStep S b' := by
  have hdelivered : delivered b'.calls = delivered b.calls ++ [d] := by rw [hx.calls, delivered_append]
  refine ⟨hx.consistent h.consistent, hx.tracks h.tracks, fun {id x} hid hemitted => ?_, fun a => ?_, fun {e} he => ?_,
    fun {id x} hid hemitted => ?_⟩
  · rw [hx.receipts, Dict.get?_set]
    split_ifs with heq
    · exact Option.some_ne_none _
    · obtain ⟨y, hy, rfl⟩ := hx.events.mp hid
      rw [if_neg (Ne.symm heq)] at hemitted
      exact h.receipt_of_emitted hy hemitted
  · have hver := h.versions a
    rw [deliveredOf] at hver
    rw [deliveredOf, hdelivered, List.filter_append, List.map_append, hver, hx.last]
    by_cases ha : d.aggregateId = a
    · have hnext := h.next_version hx
      rw [ha] at hnext
      rw [if_pos ha, hnext, List.range'_1_concat, Nat.add_comm 1, ← hnext]
      simp [ha]
    · simp [ha]
  · rw [hdelivered, List.mem_append, List.mem_singleton] at he
    rcases he with he | rfl
    · obtain ⟨s, hs⟩ := h.recorded he
      obtain ⟨s', hs', hkept⟩ := hx.extends _ _ hs
      exact ⟨s, by rw [hs', hkept (Option.some_ne_none s)]⟩
    · exact ⟨t, hx.events.mpr ⟨e, hx.durable, (if_pos rfl).symm⟩⟩
  · rw [hdelivered, List.mem_append, List.mem_singleton]
    obtain ⟨y, hy, rfl⟩ := hx.events.mp hid
    split_ifs at hemitted ⊢ with heq
    · subst heq
      rw [hx.durable] at hy
      cases hy
      exact Or.inr (by rw [← hx.pending])
    · exact Or.inl (h.emitted hy hemitted)

theorem InStep.register (h : InStep S b) (event : OutboxEvent) :
    InStep S { b with fence := (b.fence.register b.store event).2 } := by
  refine h.stayed ⟨rfl, rfl, (b.fence.register b.store event).2, (b.fence.register b.store event).2.capabilityAuthority,
    rfl, ?_⟩
  rcases @EmissionFence.register_cases b.store b.fence h.tracks.bound event with ⟨err, hr⟩ | ⟨d, -, hd, hr⟩
  · exact Or.inl (by rw [hr])
  · exact Or.inr ⟨d, hd, by rw [hr]⟩

theorem InStep.emit (h : InStep S b) (r : EmitRequest) (event : OutboxEvent) : InStep S (b.emit r event).2 := by
  rcases emit_cases h.tracks.bound r event with ⟨receipt, -, he⟩ | ⟨err, b', he, hs⟩ | ⟨d, t, v, b', -, he, hx⟩
  · rwa [he]
  · rw [he]
    exact h.stayed hs
  · rw [he]
    exact h.crossed hx

theorem InStep.step (hinj : Set.InjOn Sha256.digest S) (b : Boundary) (call : Call) (h : InStep S b)
    (hS : ∀ seed ∈ b.callSeeds call, seed ∈ S) : InStep S (b.step call) := by
  cases call with
  | write r => exact h.write hinj hS
  | register event => exact h.register event
  | emit r event => exact h.emit r event
  | drain r => exact drain_induction (fun b event hb => hb.register event) (fun b event hb => hb.emit r event) h
  | authority authority => exact h.stayed ⟨rfl, rfl, b.fence, _, rfl, Or.inl rfl⟩

theorem inStep_create {writer : PyStr} {authority : Option CapabilityAuthority} {requireCapability : Bool}
    {engine : Option MarkingEngine} (h : create writer authority requireCapability engine = .ok b) (S : Set Bytes) :
    InStep S b := by
  obtain ⟨store, hstore, h⟩ := bind_eq_ok.1 h
  obtain ⟨fence, hfence, h⟩ := bind_eq_ok.1 h
  cases h
  have htracks := @tracks_create store _ _ _ _ hfence
  unfold AtomicOutboxStore.create at hstore
  unfold EmissionFence.create at hfence
  split_ifs at hstore hfence
  cases hstore
  cases hfence
  refine ⟨AtomicOutboxStore.consistent_empty S writer, htracks, ?_, fun a => rfl, ?_, ?_⟩
  · simp
  · simp [delivered]
  · simp

/-- **Ordered, exactly-once delivery.** For a fresh store and one fence bound to it, over writes, registrations,
emissions and drains with any arguments and sinks that may raise: the events of an aggregate whose sink call returned
are its versions 1, 2, 3, … in order, and the store records as emitted these events and no others. -/
theorem deliveries_in_order (writer : PyStr) (authority : Option CapabilityAuthority) (requireCapability : Bool)
    (engine : Option MarkingEngine) (start : Boundary) (hstart : create writer authority requireCapability engine = .ok start)
    (calls : List Call) (hinj : Set.InjOn Sha256.digest {seed | seed ∈ trace step callSeeds start calls}) :
    (∀ a, ∃ k, (deliveredOf (run step start calls).calls a).map OutboxEvent.aggregateVersion = List.range' 1 k) ∧
      (∀ e ∈ delivered (run step start calls).calls,
        ∃ t, (run step start calls).store.getEvent e.eventId = some { e with emittedAt := some t }) ∧
      ∀ id d, (run step start calls).store.getEvent id = some d → d.emittedAt ≠ none →
        ∃ e ∈ delivered (run step start calls).calls, e.eventId = id := by
  have h := run_induction_of (InStep.step hinj) (inStep_create hstart _)
    (@allSteps_of_trace _ _ _ step callSeeds _ start calls fun _ hseed => hseed)
  exact ⟨fun a => ⟨_, h.versions a⟩, fun e he => h.recorded he,
    fun id d hd hemitted => ⟨_, h.emitted hd hemitted, (h.consistent.event_id hd).1⟩⟩

def emptyWrite (key : String) (t : Instant) : WriteRequest where
  aggregateId := py "a"
  document := .mapping []
  expectedVersion := none
  writerId := py "w"
  eventType := py "t"
  idempotencyKey := py key
  now := t
  transactionId := py key

def quietSink : Sink := .function fun _ _ => .ok .none

/-- A sink that raises at every call after the first one of the run. -/
def flakySink : Sink :=
  .function fun calls _ => if calls.length < 1 then .ok .none else .error ⟨.foreign "Unavailable", "sink unavailable", []⟩

/-- Two versions, a drain the sink interrupts, and a drain that completes it. -/
def interruptedDrain : List Call :=
  [.write (emptyWrite "k1" 5), .write (emptyWrite "k2" 6), .drain { sink := flakySink, instant := .utc 9 },
    .drain { sink := quietSink, instant := .utc 9 }]

def emptyBoundary : Boundary := ⟨⟨py "w", .empty, .empty, .empty⟩, ⟨true, none, false, none, .empty, .empty, .empty⟩, []⟩

theorem deliveries_in_order_interruptedDrain :
    create (py "w") none false none = .ok emptyBoundary ∧
      ∃ k, (deliveredOf (run step emptyBoundary interruptedDrain).calls (py "a")).map OutboxEvent.aggregateVersion =
        List.range' 1 k := by
  have hstart : create (py "w") none false none = .ok emptyBoundary := rfl
  have hinj := AtomicOutboxStore.digest_injOn_of_nodup (trace step callSeeds emptyBoundary interruptedDrain)
    (by decide)
  exact ⟨hstart, (deliveries_in_order (py "w") none false none _ hstart interruptedDrain hinj).1 (py "a")⟩

end Boundary
end OcorRuntime.Emission

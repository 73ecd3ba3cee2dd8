import OcorRuntime.Emission.Delivery

/-! One store shared by any number of fences, old ones and ones constructed after a
restart, next to direct calls of the store. What each fence holds keeps standing for
records of the store, but an emission through one fence leaves the registrations and
receipts of the others as they were: an emitted event is answered with a receipt by
exactly the fences that hold one. -/
namespace OcorRuntime.Emission
open Store Capabilities Marking
set_option autoImplicit false
set_option maxHeartbeats 250000
set_option maxRecDepth 120000

structure System where
  store : AtomicOutboxStore
  fences : Dict ℕ EmissionFence
  calls : List SinkCall

namespace System

/-! ## Runs -/

def create (writer : PyStr) : Except PyError System := do
  let store ← AtomicOutboxStore.create writer
  return ⟨store, .empty, []⟩

/-- What an operation of one of the fences works on. -/
def boundary (s : System) (f : EmissionFence) : Boundary := ⟨s.store, f, s.calls⟩

inductive Call
  | store (call : AtomicOutboxStore.Call)
  /-- A fence constructed with the store under a name; a restart takes the name of the fence that is gone. -/
  | construct (name : ℕ) (authority : Option CapabilityAuthority) (requireCapability : Bool) (engine : Option MarkingEngine)
  | fence (name : ℕ) (call : Boundary.Call)

def step (s : System) : Call → System
  | .store call => { s with store := s.store.step call }
  | .construct name authority requireCapability engine =>
    match EmissionFence.create true authority requireCapability engine with
    | .error _ => s
    | .ok f => { s with fences := s.fences.set name f }
  | .fence name call =>
    match s.fences.get? name with
    | none => s
    | some f =>
      let b := (s.boundary f).step call
      ⟨b.store, s.fences.set name b.fence, b.calls⟩

def callSeeds (s : System) : Call → List Bytes
  | .store call => s.store.callSeeds call
  | .construct _ _ _ _ => []
  | .fence name call =>
    match s.fences.get? name with
    | none => []
    | some f => (s.boundary f).callSeeds call

/-! ## Invariants -/

def Bound (s : System) : Prop := ∀ name f, s.fences.get? name = some f → f.storeBound = true

end System

namespace Boundary
variable {b : Boundary}

theorem Stayed.storeBound {b' : Boundary} (h : Stayed b b') : b'.fence.storeBound = b.fence.storeBound := by
  obtain ⟨g, authority, hg, rfl | ⟨d, -, rfl⟩⟩ := h.fence
  · rw [hg]
  · rw [hg]
    exact EmissionFence.accept_storeBound d

theorem Crossed.storeBound {b' : Boundary} {d : OutboxEvent} {t : Instant} {value : PyValue}
    (h : Crossed b b' d t value) : b'.fence.storeBound = b.fence.storeBound := by
  obtain ⟨authority, hf⟩ := h.fence
  rw [hf]
  exact EmissionFence.accept_storeBound d

theorem emit_storeBound (hb : b.fence.storeBound = true) (r : EmitRequest) (event : OutboxEvent) :
    (b.emit r event).2.fence.storeBound = true := by
  rcases emit_cases hb r event with ⟨receipt, -, he⟩ | ⟨err, b', he, hs⟩ | ⟨d, t, v, b', -, he, hx⟩
  · rwa [he]
  · rw [he]
    exact hs.storeBound.trans hb
  · rw [he]
    exact hx.storeBound.trans hb

theorem register_storeBound (hb : b.fence.storeBound = true) (event : OutboxEvent) :
    (b.fence.register b.store event).2.storeBound = true := by
  rcases @EmissionFence.register_cases b.store b.fence hb event with ⟨err, hr⟩ | ⟨d, -, -, hr⟩
  · rwa [hr]
  · rw [hr]
    exact (EmissionFence.accept_storeBound d).trans hb

theorem step_storeBound (hb : b.fence.storeBound = true) (call : Call) : (b.step call).fence.storeBound = true := by
  cases call with
  | write r => exact hb
  | register event => exact register_storeBound hb event
  | emit r event => exact emit_storeBound hb r event
  | drain r =>
    exact @drain_induction (fun b => b.fence.storeBound = true) r (fun b event h => register_storeBound h event)
      (fun b event h => emit_storeBound h r event) b hb
  | authority authority => exact hb

end Boundary

namespace System

/-- After a step a fence is what it was, newly constructed, or the one that took the call. -/
theorem fences_step_cases {s : System} {call : Call} {name : ℕ} {g : EmissionFence}
    (h : (s.step call).fences.get? name = some g) :
    s.fences.get? name = some g ∨
      (∃ authority requireCapability engine, EmissionFence.create true authority requireCapability engine = .ok g) ∨
      ∃ f c, call = .fence name c ∧ s.fences.get? name = some f ∧ g = ((s.boundary f).step c).fence := by
  cases call with
  | store call => exact Or.inl h
  | construct other authority requireCapability engine =>
    rw [System.step] at h
    cases hf : EmissionFence.create true authority requireCapability engine with
    | error e =>
      rw [hf] at h
      exact Or.inl h
    | ok f =>
      rw [hf] at h
      dsimp only at h
      rw [Dict.get?_set] at h
      split_ifs at h
      · cases h
        exact Or.inr (Or.inl ⟨authority, requireCapability, engine, hf⟩)
      · exact Or.inl h
  | fence other c =>
    rw [System.step] at h
    cases hf : s.fences.get? other with
    | none =>
      rw [hf] at h
      exact Or.inl h
    | some f =>
      rw [hf] at h
      dsimp only at h
      rw [Dict.get?_set] at h
      split_ifs at h with hname
      · subst hname
        exact Or.inr (Or.inr ⟨f, c, rfl, hf, (Option.some.inj h).symm⟩)
      · exact Or.inl h

theorem Bound.step (s : System) (call : Call) (h : s.Bound) : (s.step call).Bound := by
  intro name g hg
  rcases fences_step_cases hg with hg | ⟨authority, requireCapability, engine, hg⟩ | ⟨f, c, -, hf, rfl⟩
  · exact h name g hg
  · exact (@tracks_create s.store _ _ _ _ hg).bound
  · exact Boundary.step_storeBound (h name f hf) c

theorem create_fences {writer : PyStr} {start : System} (h : create writer = .ok start) : start.fences = .empty := by
  obtain ⟨store, -, h⟩ := bind_eq_ok.1 h
  cases h
  rfl

theorem bound_run {writer : PyStr} {start : System} (hstart : create writer = .ok start) (calls : List Call) :
    (run step start calls).Bound := by
  refine run_induction Bound.step (fun name f hf => ?_) calls
  rw [create_fences hstart] at hf
  cases hf

end System

/-! ## Emitting an emitted event -/

namespace Boundary

/-- The emission is answered with a deduplicated receipt and without a call of the sink. -/
def Deduplicates (b : Boundary) (r : EmitRequest) (event : OutboxEvent) : Prop :=
  ∃ receipt b', b.emit r event = (.ok receipt, b') ∧ receipt.deduplicated = true ∧ b'.calls = b.calls

theorem deduplicates_iff {b : Boundary} (hb : b.fence.storeBound = true) (r : EmitRequest) {event d : OutboxEvent}
    (hd : b.store.getEvent event.eventId = some d) (hemitted : d.emittedAt ≠ none) :
    Deduplicates b r event ↔
      (∃ t, requireAware r.instant "at" = .ok t) ∧ ∃ receipt, b.fence.receipt event.eventId = some receipt := by
  constructor
  · rintro ⟨answer, b'', hemit, -, -⟩
    refine ⟨?_, ?_⟩
    · unfold emit at hemit
      cases hinstant : requireAware r.instant "at" with
      | ok t => exact ⟨t, rfl⟩
      | error err =>
        rw [hinstant] at hemit
        cases hemit
    · rcases emit_cases hb r event with ⟨receipt, hr, -⟩ | ⟨err, b', he, -⟩ | ⟨e, t, v, b', hid, -, hx⟩
      · exact ⟨receipt, hr⟩
      · rw [he] at hemit
        cases hemit
      · -- only a pending record crosses, and the store records this one as emitted
        have hdurable := hx.durable
        rw [hid] at hdurable
        rw [AtomicOutboxStore.getEvent, hdurable] at hd
        cases hd
        exact absurd hx.pending hemitted
  · rintro ⟨⟨t, ht⟩, receipt, hr⟩
    refine ⟨{ receipt with deduplicated := true }, b, ?_, rfl, rfl⟩
    unfold emit
    rw [ht]
    dsimp only
    rw [EmissionFence.receipt] at hr
    rw [hr]

end Boundary

namespace System

/-- **Emitting an emitted event.** In every reachable state of a store shared by fences, emitting an event that the
store records as emitted is answered with a deduplicated receipt, without a sink call, exactly when the instant is
aware and the fence already holds a receipt of the event. -/
theorem emitted_deduplicates_iff (writer : PyStr) (start : System) (hstart : create writer = .ok start)
    (calls : List Call) (name : ℕ) (f : EmissionFence) (hf : (run step start calls).fences.get? name = some f)
    (event d : OutboxEvent) (hd : (run step start calls).store.getEvent event.eventId = some d)
    (hemitted : d.emittedAt ≠ none) (r : EmitRequest) :
    ((run step start calls).boundary f).Deduplicates r event ↔
      (∃ t, requireAware r.instant "at" = .ok t) ∧ ∃ receipt, f.receipt event.eventId = some receipt :=
  Boundary.deduplicates_iff (bound_run hstart calls name f hf) r hd hemitted

def emptySystem : System := ⟨⟨py "w", .empty, .empty, .empty⟩, .empty, []⟩

/-- One event, drained by a fence; then another fence is constructed. -/
def drainedThenRestarted : List Call :=
  [.construct 0 none false none, .store (.write (Boundary.emptyWrite "k1" 5)),
    .fence 0 (.drain { sink := Boundary.quietSink, instant := .utc 9 }), .construct 1 none false none]

theorem emitted_deduplicates_iff_drained :
    ∃ f event, (run step emptySystem drainedThenRestarted).fences.get? 0 = some f ∧
      event ∈ (run step emptySystem drainedThenRestarted).store.events.values ∧
      ((run step emptySystem drainedThenRestarted).boundary f).Deduplicates
        { sink := Boundary.quietSink, instant := .utc 9 } event := by
  have heval : ((run step emptySystem drainedThenRestarted).store.events.values.head?.bind fun event =>
      ((run step emptySystem drainedThenRestarted).fences.get? 0).bind fun f =>
        ((run step emptySystem drainedThenRestarted).store.getEvent event.eventId).bind fun d =>
          (f.receipt event.eventId).map fun _ => d.emittedAt.isSome) = some true := by decide
  obtain ⟨event, hevent, heval⟩ := Option.bind_eq_some_iff.mp heval
  obtain ⟨f, hf, heval⟩ := Option.bind_eq_some_iff.mp heval
  obtain ⟨d, hd, heval⟩ := Option.bind_eq_some_iff.mp heval
  obtain ⟨receipt, hreceipt, hemitted⟩ := Option.map_eq_some_iff.mp heval
  refine ⟨f, event, hf, List.mem_of_head? hevent, ?_⟩
  exact (emitted_deduplicates_iff (py "w") emptySystem rfl drainedThenRestarted 0 f hf event d hd
    (Option.isSome_iff_ne_none.mp hemitted) _).mpr ⟨⟨9, requireAware_utc 9 "at"⟩, receipt, hreceipt⟩

/-- The fence constructed after the drain refuses the drained event instead of answering with a receipt. -/
theorem restarted_fence_refuses_emitted :
    ¬ ∀ name f event d r, (run step emptySystem drainedThenRestarted).fences.get? name = some f →
        (run step emptySystem drainedThenRestarted).store.getEvent event.eventId = some d → d.emittedAt ≠ none →
        event = d → r.instant = .utc 9 →
        ((run step emptySystem drainedThenRestarted).boundary f).Deduplicates r event := by
  intro h
  have heval : ((run step emptySystem drainedThenRestarted).store.events.values.head?.bind fun event =>
      ((run step emptySystem drainedThenRestarted).store.getEvent event.eventId).map fun d =>
        d.emittedAt.isSome && decide (event = d)) = some true := by decide
  obtain ⟨event, -, heval⟩ := Option.bind_eq_some_iff.mp heval
  obtain ⟨d, hd, heval⟩ := Option.map_eq_some_iff.mp heval
  rw [Bool.and_eq_true, decide_eq_true_iff] at heval
  have hemitted := Option.isSome_iff_ne_none.mp heval.1
  have hfresh : (run step emptySystem drainedThenRestarted).fences.get? 1 =
      some ⟨true, none, false, none, .empty, .empty, .empty⟩ := Dict.get?_set_self ..
  generalize run step emptySystem drainedThenRestarted = s at h hd hfresh
  have hdedup := h 1 _ event d { sink := Boundary.quietSink, instant := .utc 9 } hfresh hd hemitted heval.2 rfl
  obtain ⟨-, receipt, hreceipt⟩ := (@Boundary.deduplicates_iff (s.boundary _) rfl _ event d hd hemitted).mp hdedup
  cases hreceipt

end System
end OcorRuntime.Emission

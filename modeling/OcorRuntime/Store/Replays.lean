import OcorRuntime.Store.Acceptance

/-! Retries of a committed write. The idempotency map remembers every event, the document
map only the latest version: what a retry answers depends on what was written in between. -/
namespace OcorRuntime.Store
set_option autoImplicit false
set_option maxHeartbeats 250000

/-- The same call made again: only the clock reading and the transaction id it draws are new. -/
def WriteRequest.again (r : WriteRequest) (now : Instant) (transactionId : PyStr) : WriteRequest :=
  { r with now := now, transactionId := transactionId }

/-- The same event, whether or not it has been emitted since. -/
def OutboxEvent.Same (a b : OutboxEvent) : Prop := { a with emittedAt := none } = { b with emittedAt := none }

instance (a b : OutboxEvent) : Decidable (a.Same b) := inferInstanceAs (Decidable (_ = _))

theorem OutboxEvent.Same.fields {a b : OutboxEvent} (h : a.Same b) :
    a.aggregateId = b.aggregateId ∧ a.aggregateVersion = b.aggregateVersion ∧ a.requestDigest = b.requestDigest := by
  unfold OutboxEvent.Same at h
  rw [OutboxEvent.mk.injEq] at h
  exact ⟨h.2.1, h.2.2.1, h.2.2.2.2.2.2.1⟩

namespace AtomicOutboxStore

/-- The answer a retry owes to the write that published `d` with `e`. -/
def ReplaysWrite (store : AtomicOutboxStore) (r : WriteRequest) (d : StoredDocument) (e : OutboxEvent) : Prop :=
  ∃ event, (store.write r).1 = .ok ⟨d, event, true⟩ ∧ event.Same e ∧ d.version = event.aggregateVersion

/-- The call publishes a document of the aggregate. -/
def PublishesTo (aggregateId : PyStr) (store : AtomicOutboxStore) : Call → Prop
  | .write r => ∃ d e, store.stage r = .ok (.fresh d e) ∧ e.aggregateId = aggregateId
  | _ => False

instance PublishesTo.decidable (a : PyStr) (store : AtomicOutboxStore) : (call : Call) → Decidable (PublishesTo a store call)
  | .write r =>
    match h : store.stage r with
    | .ok (.fresh d e) =>
      if ha : e.aggregateId = a then isTrue ⟨d, e, h, ha⟩
      else isFalse fun ⟨_, _, hs, ha'⟩ => by
        rw [h] at hs
        cases hs
        exact ha ha'
    | .ok (.replayed _) => isFalse fun ⟨_, _, hs, _⟩ => by rw [h] at hs; cases hs
    | .error _ => isFalse fun ⟨_, _, hs, _⟩ => by rw [h] at hs; cases hs
  | .markEmitted _ _ | .get _ | .getEvent _ | .outbox _ | .snapshotCounts | .verifyAtomicity => isFalse fun h => h

/-- What the store keeps of a committed write: its writer, its key and its event. -/
structure Remembers (e : OutboxEvent) (writer : PyStr) (store : AtomicOutboxStore) : Prop where
  writer : store.authoritativeWriter = writer
  key : store.idempotency.get? e.idempotencyKey = some e.eventId
  event : ∃ x, store.events.get? e.eventId = some x ∧ x.Same e

variable {store : AtomicOutboxStore} {r : WriteRequest} {d : StoredDocument} {e : OutboxEvent}

/-! ## The retry itself -/

theorem stageFresh_digest {instant : Instant} {document payload : PyValue} {requestDigest : PyStr}
    (h : store.stageFresh r instant document payload requestDigest = .ok (.fresh d e)) :
    e.requestDigest = requestDigest := by
  unfold stageFresh at h
  dsimp only at h
  split_ifs at h
  obtain ⟨-, -, h⟩ := bind_eq_ok.1 h
  obtain ⟨seed, -, h⟩ := bind_eq_ok.1 h
  obtain ⟨semanticDigest, -, h⟩ := bind_eq_ok.1 h
  obtain ⟨-, -, h⟩ := bind_eq_ok.1 h
  obtain ⟨payloadDigest, -, h⟩ := bind_eq_ok.1 h
  obtain ⟨-, -, h⟩ := bind_eq_ok.1 h
  cases h
  rfl

/-- A store that remembers the write answers its retry with the latest document of the aggregate. -/
theorem write_again {later : AtomicOutboxStore} {c : StoredDocument} {x : OutboxEvent} (now : Instant)
    (transactionId : PyStr) (hcommit : store.stage r = .ok (.fresh d e))
    (hwriter : later.authoritativeWriter = store.authoritativeWriter)
    (hkey : later.idempotency.get? e.idempotencyKey = some e.eventId) (hx : later.events.get? e.eventId = some x)
    (hsame : x.Same e) (hc : later.documents.get? e.aggregateId = some c) :
    later.write (r.again now transactionId) = (.ok ⟨c, x, true⟩, later) := by
  have hpublishes := stage_publishes hcommit
  have hstage : later.stage (r.again now transactionId) = .ok (.replayed ⟨c, x, true⟩) := by
    unfold stage at hcommit
    split_ifs at hcommit with hempty hnegative
    obtain ⟨⟨⟩, hauthorized, hcommit⟩ := bind_eq_ok.1 hcommit
    obtain ⟨instant, haware, hcommit⟩ := bind_eq_ok.1 hcommit
    obtain ⟨document, hdocument, hcommit⟩ := bind_eq_ok.1 hcommit
    obtain ⟨payload, hpayload, hcommit⟩ := bind_eq_ok.1 hcommit
    obtain ⟨requestDigest, hdigest, hcommit⟩ := bind_eq_ok.1 hcommit
    obtain ⟨⟨⟩, hwindow, hcommit⟩ := bind_eq_ok.1 hcommit
    rw [← hpublishes.key, hpublishes.publishable.key_new] at hcommit
    have hrequest : x.requestDigest = requestDigest := hsame.fields.2.2.trans (stageFresh_digest hcommit)
    -- a call that names no instant reads the clock again
    obtain ⟨retried, hretried⟩ : ∃ t, requireAware (r.occurredAt.getD (.utc now)) "occurred_at" = .ok t := by
      cases hoccurred : r.occurredAt with
      | none => exact ⟨now, requireAware_utc now "occurred_at"⟩
      | some t =>
        rw [hoccurred] at haware
        exact ⟨instant, haware⟩
    have hauthorized' : later.authorizeWriter r.writerId = .ok () := by
      rw [authorizeWriter, hwriter]
      exact hauthorized
    unfold stage WriteRequest.again
    dsimp only
    rw [if_neg hempty, if_neg hnegative]
    refine bind_eq_ok.2 ⟨(), hauthorized', bind_eq_ok.2 ⟨retried, hretried, bind_eq_ok.2 ⟨document, hdocument,
      bind_eq_ok.2 ⟨payload, hpayload, bind_eq_ok.2 ⟨requestDigest, hdigest, bind_eq_ok.2 ⟨(), hwindow, ?_⟩⟩⟩⟩⟩⟩
    rw [← hpublishes.key, hkey]
    refine bind_eq_ok.2 ⟨x, subscript_eq_ok.2 hx, ?_⟩
    rw [if_neg (not_not.mpr hrequest), hsame.fields.1]
    exact bind_eq_ok.2 ⟨c, subscript_eq_ok.2 hc, rfl⟩
  unfold write
  rw [hstage]

/-! ## What is written in between -/

variable {S : Set Bytes} {writer : PyStr}

theorem write_publish (hcommit : store.stage r = .ok (.fresh d e)) : (store.write r).2 = store.publish d e := by
  unfold write
  rw [hcommit]
  dsimp only
  split <;> rfl

theorem remembers_publish (store : AtomicOutboxStore) (d : StoredDocument) (e : OutboxEvent) :
    Remembers e store.authoritativeWriter (store.publish d e) where
  writer := rfl
  key := Dict.get?_set_self ..
  event := ⟨e, Dict.get?_set_self .., rfl⟩

/-- A remembered write stays remembered: other keys publish other events, and a mark changes only the instant of
emission. -/
theorem Remembers.step (hinj : Set.InjOn Sha256.digest S) (hc : store.Consistent S) (h : Remembers e writer store)
    (call : Call) (hS : ∀ b ∈ store.callSeeds call, b ∈ S) : Remembers e writer (store.step call) := by
  obtain ⟨x, hx, hsame⟩ := h.event
  cases call with
  | write other =>
    rcases store.write_cases other with hstore | ⟨d', e', hs, hp, hstore⟩
    · rwa [AtomicOutboxStore.step, hstore]
    · have hnew : store.events.get? e'.eventId = none := by
        refine hp.id_new hinj (fun b hb => hS b ?_) hc
        rw [callSeeds, publishedSeed, hs]
        dsimp only
        rw [hb]
        exact List.mem_singleton_self b
      rw [AtomicOutboxStore.step, hstore]
      refine ⟨h.writer, ?_, x, (get?_events_publish hnew).mpr (Or.inr hx), hsame⟩
      have hkey : e'.idempotencyKey ≠ e.idempotencyKey := by
        intro heq
        have := hp.key_new
        rw [heq, h.key] at this
        cases this
      rw [publish, Dict.get?_set, if_neg hkey]
      exact h.key
  | markEmitted eventId emittedAt =>
    rcases markEmitted_cases hc eventId emittedAt with hstore | ⟨y, t, -, hy, -, -, -, hstore⟩
    · rwa [AtomicOutboxStore.step, hstore]
    · rw [AtomicOutboxStore.step, hstore]
      refine ⟨h.writer, h.key, _, (get?_events_mark hy).mpr ⟨x, hx, rfl⟩, ?_⟩
      split_ifs
      · exact hsame
      · exact hsame
  | get _ | getEvent _ | outbox _ | snapshotCounts | verifyAtomicity => exact h

theorem markEmitted_documents (eventId : PyStr) (emittedAt : DateTime) :
    (store.markEmitted eventId emittedAt).2.documents = store.documents := by
  unfold markEmitted
  split
  · rfl
  · split
    · rfl
    · split_ifs <;> rfl

/-- A call replaces the document of an aggregate by its next version, or leaves it. -/
theorem step_documents (store : AtomicOutboxStore) (call : Call) (a : PyStr) :
    (¬ PublishesTo a store call ∧ (store.step call).documents.get? a = store.documents.get? a) ∨
      (PublishesTo a store call ∧ (store.step call).currentVersion a = store.currentVersion a + 1) := by
  cases call with
  | write other =>
    rw [step]
    match hs : store.stage other with
    | .error err =>
      refine Or.inl ⟨fun ⟨d', e', h, _⟩ => ?_, by rw [write, hs]⟩
      rw [hs] at h
      cases h
    | .ok (.replayed result) =>
      refine Or.inl ⟨fun ⟨d', e', h, _⟩ => ?_, by rw [write, hs]⟩
      rw [hs] at h
      cases h
    | .ok (.fresh d' e') =>
      have hp := (stage_fresh hs).1
      rw [write_publish hs]
      by_cases ha : e'.aggregateId = a
      · refine Or.inr ⟨⟨d', e', hs, ha⟩, ?_⟩
        rw [currentVersion_of_some ((get?_documents_publish hp).mpr (Or.inl ⟨ha.symm, rfl⟩)), hp.version, ha]
      · refine Or.inl ⟨fun ⟨d'', e'', h, ha'⟩ => ?_, ?_⟩
        · rw [hs] at h
          cases h
          exact ha ha'
        · rw [publish, hp.aggregate, Dict.get?_set_of_ne _ _ ha]
  | markEmitted eventId emittedAt =>
    exact Or.inl ⟨fun h => h, by rw [step, markEmitted_documents]⟩
  | get _ | getEvent _ | outbox _ | snapshotCounts | verifyAtomicity => exact Or.inl ⟨fun h => h, rfl⟩

theorem currentVersion_step (store : AtomicOutboxStore) (call : Call) (a : PyStr) :
    store.currentVersion a ≤ (store.step call).currentVersion a := by
  rcases step_documents store call a with ⟨-, h⟩ | ⟨-, h⟩
  · rw [currentVersion, currentVersion, h]
  · omega

/-- The document of an aggregate is the same after a run exactly if no call of it publishes there: versions only grow. -/
theorem document_kept_iff {a : PyStr} (hd : store.documents.get? a = some d) (calls : List Call) :
    (run step store calls).documents.get? a = some d ↔ AllSteps step (fun s call => ¬ PublishesTo a s call) store calls := by
  induction calls generalizing store with
  | nil => exact iff_of_true hd trivial
  | cons call calls ih =>
    rw [run_cons, AllSteps]
    rcases step_documents store call a with ⟨hkeeps, hget⟩ | ⟨hpublishes, hversion⟩
    · rw [ih (hget.trans hd)]
      exact (and_iff_right hkeeps).symm
    · refine iff_of_false (fun hsame => ?_) fun h => h.1 hpublishes
      have hgrown : (store.step call).currentVersion a ≤ (run step (store.step call) calls).currentVersion a :=
        @run_induction _ _ _ (fun s => (store.step call).currentVersion a ≤ s.currentVersion a)
          (fun s i h => h.trans (currentVersion_step s i a)) _ (le_refl _) calls
      rw [currentVersion_of_some hsame, hversion, currentVersion_of_some hd] at hgrown
      omega

/-! ## Runs -/

/-- **A retry answers with the document of the write exactly while the aggregate has not moved on.** In every run from
an empty store, after a write that published `d` with `e`, and any calls since: the same call made again, at any time,
replays the write exactly if no call since published another document of its aggregate. -/
theorem retry_replays_iff (writer : PyStr) (start : AtomicOutboxStore) (hstart : create writer = .ok start)
    (before between : List Call) (r : WriteRequest) (d : StoredDocument) (e : OutboxEvent)
    (hcommit : (run step start before).stage r = .ok (.fresh d e))
    (hinj : Set.InjOn Sha256.digest {b | b ∈ trace step callSeeds start (before ++ .write r :: between)})
    (now : Instant) (transactionId : PyStr) :
    ReplaysWrite (run step start (before ++ .write r :: between)) (r.again now transactionId) d e ↔
      AllSteps step (fun s call => ¬ PublishesTo r.aggregateId s call) ((run step start before).step (.write r)) between := by
  have hpublishes := stage_publishes hcommit
  have hp := hpublishes.publishable
  -- the store right after the write, and what the calls since keep of it
  have hwritten : (run step start before).step (.write r) = (run step start before).publish d e := write_publish hcommit
  rw [trace_append, trace, hwritten] at hinj
  generalize hS : {b | b ∈ trace step callSeeds start before ++ ((run step start before).callSeeds (.write r) ++
    trace step callSeeds ((run step start before).publish d e) between)} = S at hinj
  have hconsistent : (run step start before).Consistent S := consistent_run_of hstart before hinj fun b hb => by
    rw [← hS]
    exact List.mem_append_left _ hb
  have hafter : ((run step start before).publish d e).Consistent S := by
    rw [← hwritten]
    refine Consistent.step hinj _ (.write r) hconsistent fun b hb => ?_
    rw [← hS]
    exact List.mem_append_right _ (List.mem_append_left _ hb)
  have hbetween : ∀ b ∈ trace step callSeeds ((run step start before).publish d e) between, b ∈ S := fun b hb => by
    rw [← hS]
    exact List.mem_append_right _ (List.mem_append_right _ hb)
  rw [run_append, run_cons, hwritten]
  obtain ⟨hlater, hwriter, hkey, x, hx, hsame⟩ := @run_induction_of _ _ _ _
    (fun s => s.Consistent S ∧ Remembers e (run step start before).authoritativeWriter s)
    (fun s call h hseeds => ⟨Consistent.step hinj s call h.1 hseeds, h.2.step hinj h.1 call hseeds⟩) _
    ⟨hafter, remembers_publish _ d e⟩ _ (allSteps_of_trace hbetween)
  obtain ⟨c, hc, -⟩ := hlater.event_document hx
  rw [hsame.fields.1] at hc
  have hd : ((run step start before).publish d e).documents.get? e.aggregateId = some d :=
    (get?_documents_publish hp).mpr (Or.inl ⟨rfl, rfl⟩)
  rw [← hpublishes.aggregate, ← document_kept_iff hd, ReplaysWrite,
    write_again now transactionId hcommit hwriter hkey hx hsame hc, hc]
  constructor
  · rintro ⟨event, hanswer, -, -⟩
    rw [Except.ok.injEq, WriteResult.mk.injEq] at hanswer
    rw [hanswer.1]
  · intro hcd
    rw [Option.some.inj hcd]
    exact ⟨x, rfl, hsame, hp.event_version.symm.trans hsame.fields.2.1.symm⟩

def sampleStore : AtomicOutboxStore := ⟨py "w", .empty, .empty, .empty⟩

def sampleWrite (aggregateId key : String) (now : Instant) : WriteRequest := {
  aggregateId := py aggregateId, document := .mapping [], expectedVersion := none, writerId := py "w",
  eventType := py "t", idempotencyKey := py key, now := now, transactionId := py "x" }

/-- A write to another aggregate and the emission of the first event lie between. -/
theorem retry_replays_iff_unrelated : ∃ d e, sampleStore.stage (sampleWrite "a" "k1" 5) = .ok (.fresh d e) ∧
    ReplaysWrite (run step sampleStore [.write (sampleWrite "a" "k1" 5), .write (sampleWrite "b" "k2" 6),
      .markEmitted (py "urn:ocor:event:sha256:b085473dfec3321cbf61b3b0d24ed8f3d0cd3a03400f27151d0009a988428bf0") (.utc 9)])
      ((sampleWrite "a" "k1" 5).again 20 (py "z")) d e := by
  obtain ⟨d, e, hcommit, -⟩ : PublishesTo (py "a") sampleStore (.write (sampleWrite "a" "k1" 5)) := by decide +kernel
  refine ⟨d, e, hcommit, (retry_replays_iff (py "w") sampleStore rfl [] [.write (sampleWrite "b" "k2" 6), .markEmitted _ _]
    (sampleWrite "a" "k1" 5) d e hcommit ?_ 20 (py "z")).mpr (by decide +kernel)⟩
  exact digest_injOn_of_nodup _ (by decide +kernel)

/-- After a second write to the aggregate, the retry of the first answers with the second document. -/
theorem superseded_write_replayed : ¬ ∀ (writer : PyStr) (start : AtomicOutboxStore), create writer = .ok start →
    ∀ (before between : List Call) (r : WriteRequest) (d : StoredDocument) (e : OutboxEvent),
      (run step start before).stage r = .ok (.fresh d e) → ∀ (now : Instant) (transactionId : PyStr),
        ReplaysWrite (run step start (before ++ .write r :: between)) (r.again now transactionId) d e := by
  intro h
  obtain ⟨d, e, hcommit, -⟩ : PublishesTo (py "a") sampleStore (.write (sampleWrite "a" "k1" 5)) := by decide +kernel
  obtain ⟨event, hanswer, -, hversion⟩ := h (py "w") sampleStore rfl [] [.write (sampleWrite "a" "k2" 6)]
    (sampleWrite "a" "k1" 5) d e hcommit 20 (py "z")
  have hlatest : (((run step sampleStore ([] ++ .write (sampleWrite "a" "k1" 5) :: [.write (sampleWrite "a" "k2" 6)])).write
      ((sampleWrite "a" "k1" 5).again 20 (py "z"))).1.toOption.map fun w =>
        decide (w.document.version = w.event.aggregateVersion)) = some false := by decide +kernel
  rw [hanswer] at hlatest
  simp [Except.toOption, hversion] at hlatest

end AtomicOutboxStore
end OcorRuntime.Store

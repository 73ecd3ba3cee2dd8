import OcorRuntime.Canonical.RoundTrip
import OcorRuntime.Foundations.Run
import OcorRuntime.Store.Outbox

/-! Atomicity of the outbox store over whole runs. `stage_fresh` says everything a
write may publish, `Consistent` couples the three maps, and the run theorem holds
as long as SHA-256 does not collide on the event seeds the run published. -/
namespace OcorRuntime.Store
open Canonical
set_option autoImplicit false
set_option maxHeartbeats 250000
set_option maxRecDepth 120000

/-! ## Event identifiers -/

theorem scalar_of_canonicalize {es : List (MappingKey × PyValue)} {bytes : Bytes}
    (h : canonicalize (.mapping es) = .ok bytes) (key : PyStr) {s : PyStr} (hm : (.str key, .str s) ∈ es) :
    Scalar s := by
  obtain ⟨text, ht, -⟩ := bind_eq_ok.1 h
  obtain ⟨t, hs⟩ := serialize_member ht hm
  exact scalar_of_serialize hs

def seedEntries (a k r : PyStr) : List (MappingKey × PyValue) :=
  [(.str (py "aggregateId"), .str a), (.str (py "idempotencyKey"), .str k), (.str (py "requestDigest"), .str r)]

theorem seedEntries_iJson {a k r : PyStr} {seed : Bytes} (h : eventSeed a k r = .ok seed) :
    IJson (.mapping (seedEntries a k r)) := by
  have ha : Scalar a := scalar_of_canonicalize h (py "aggregateId") (by simp)
  have hk : Scalar k := scalar_of_canonicalize h (py "idempotencyKey") (by simp)
  have hr : Scalar r := scalar_of_canonicalize h (py "requestDigest") (by simp)
  have h1 : Scalar (py "aggregateId") := by decide
  have h2 : Scalar (py "idempotencyKey") := by decide
  have h3 : Scalar (py "requestDigest") := by decide
  have h12 : py "aggregateId" ≠ py "idempotencyKey" := by decide
  have h13 : py "aggregateId" ≠ py "requestDigest" := by decide
  have h23 : py "idempotencyKey" ≠ py "requestDigest" := by decide
  simp [IJson, seedEntries, *]

theorem eventSeed_key {a k r a' k' r' : PyStr} {seed : Bytes} (h : eventSeed a k r = .ok seed)
    (h' : eventSeed a' k' r' = .ok seed) : k = k' := by
  have hj := seedEntries_iJson h
  have hj' := seedEntries_iJson h'
  have hcanon := (canonicalize_eq_iff_canon hj hj').mp (h.trans h'.symm)
  cases sameJson_of_canon_eq _ _ hj hj' hcanon with
  | sequence hv => simp [sequence?] at hv
  | mapping hkeys hvalues =>
    have hs := hvalues (.str (py "idempotencyKey")) (.str k) (.str k') (by simp [seedEntries]) (by simp [seedEntries])
    cases hs with
    | str => rfl
    | sequence hv => simp [sequence?] at hv

theorem eventIdOf_injOn {S : Set Bytes} (h : Set.InjOn Sha256.digest S) : Set.InjOn eventIdOf S := by
  intro x hx y hy hxy
  exact Sha256.hexdigest_injOn h hx hy (List.append_cancel_left hxy)

namespace AtomicOutboxStore

/-! ## What a write may publish -/

/-- Everything the guards of a write establish about the pair it publishes. -/
structure Publishable (store : AtomicOutboxStore) (d : StoredDocument) (e : OutboxEvent) : Prop where
  key_new : store.idempotency.get? e.idempotencyKey = none
  seed : ∃ seed, eventSeed e.aggregateId e.idempotencyKey e.requestDigest = .ok seed ∧ e.eventId = eventIdOf seed
  aggregate : d.aggregateId = e.aggregateId
  version : d.version = store.currentVersion e.aggregateId + 1
  event_version : e.aggregateVersion = d.version
  transaction : e.transactionId = d.transactionId
  time : ∀ c, store.documents.get? e.aggregateId = some c → c.updatedAt ≤ d.updatedAt
  event_time : e.occurredAt = d.updatedAt
  pending : e.emittedAt = none
  committed : e.committed = true
  integrity : canonicalSha256 e.payload = .ok e.payloadDigest

theorem stageFresh_publishable {store : AtomicOutboxStore} {r : WriteRequest} {instant : Instant}
    {document payload : PyValue} {requestDigest : PyStr} {d : StoredDocument} {e : OutboxEvent}
    (hkey : store.idempotency.get? r.idempotencyKey = none)
    (h : store.stageFresh r instant document payload requestDigest = .ok (.fresh d e)) : store.Publishable d e := by
  unfold stageFresh at h
  dsimp only at h
  split_ifs at h with h1 h2
  obtain ⟨-, -, h⟩ := bind_eq_ok.1 h
  obtain ⟨seed, hseed, h⟩ := bind_eq_ok.1 h
  obtain ⟨semanticDigest, -, h⟩ := bind_eq_ok.1 h
  obtain ⟨-, -, h⟩ := bind_eq_ok.1 h
  obtain ⟨payloadDigest, hpayload, h⟩ := bind_eq_ok.1 h
  obtain ⟨-, -, h⟩ := bind_eq_ok.1 h
  cases h
  refine ⟨hkey, ⟨seed, hseed, rfl⟩, rfl, rfl, rfl, rfl, ?_, rfl, rfl, rfl, hpayload⟩
  intro c hc
  rw [hc] at h2
  simpa using h2

theorem stageFresh_eq_ok {store : AtomicOutboxStore} {r : WriteRequest} {instant : Instant} {document payload : PyValue}
    {requestDigest : PyStr} {staged : Staged} (h : store.stageFresh r instant document payload requestDigest = .ok staged) :
    ∃ d e, staged = .fresh d e ∧ e.idempotencyKey = r.idempotencyKey := by
  unfold stageFresh at h
  dsimp only at h
  split_ifs at h
  obtain ⟨-, -, h⟩ := bind_eq_ok.1 h
  obtain ⟨seed, -, h⟩ := bind_eq_ok.1 h
  obtain ⟨semanticDigest, -, h⟩ := bind_eq_ok.1 h
  obtain ⟨-, -, h⟩ := bind_eq_ok.1 h
  obtain ⟨payloadDigest, -, h⟩ := bind_eq_ok.1 h
  obtain ⟨-, -, h⟩ := bind_eq_ok.1 h
  exact ⟨_, _, (Except.ok.inj h).symm, rfl⟩

theorem stage_eq_ok {store : AtomicOutboxStore} {r : WriteRequest} {staged : Staged} (h : store.stage r = .ok staged) :
    raiseIf r.crashWindow .beforeTransaction false = .ok () ∧ ∃ instant document payload requestDigest,
      (∃ eventId, store.idempotency.get? r.idempotencyKey = some eventId ∧
          store.replay eventId requestDigest = .ok staged) ∨
        (store.idempotency.get? r.idempotencyKey = none ∧
          store.stageFresh r instant document payload requestDigest = .ok staged) := by
  unfold stage at h
  split_ifs at h
  obtain ⟨-, -, h⟩ := bind_eq_ok.1 h
  obtain ⟨instant, -, h⟩ := bind_eq_ok.1 h
  obtain ⟨document, -, h⟩ := bind_eq_ok.1 h
  obtain ⟨payload, -, h⟩ := bind_eq_ok.1 h
  obtain ⟨requestDigest, -, h⟩ := bind_eq_ok.1 h
  obtain ⟨⟨⟩, hwindow, h⟩ := bind_eq_ok.1 h
  refine ⟨hwindow, instant, document, payload, requestDigest, ?_⟩
  cases hkey : store.idempotency.get? r.idempotencyKey with
  | none =>
    rw [hkey] at h
    exact Or.inr ⟨rfl, h⟩
  | some eventId =>
    rw [hkey] at h
    exact Or.inl ⟨eventId, rfl, h⟩

theorem replay_eq_ok {store : AtomicOutboxStore} {eventId requestDigest : PyStr} {staged : Staged}
    (h : store.replay eventId requestDigest = .ok staged) :
    ∃ document event, store.events.get? eventId = some event ∧ staged = .replayed ⟨document, event, true⟩ := by
  obtain ⟨event, hevent, h⟩ := bind_eq_ok.1 h
  split_ifs at h
  obtain ⟨document, -, h⟩ := bind_eq_ok.1 h
  exact ⟨document, event, subscript_eq_ok.1 hevent, (Except.ok.inj h).symm⟩

theorem stage_fresh {store : AtomicOutboxStore} {r : WriteRequest} {d : StoredDocument} {e : OutboxEvent}
    (h : store.stage r = .ok (.fresh d e)) :
    store.Publishable d e ∧ raiseIf r.crashWindow .beforeTransaction false = .ok () := by
  obtain ⟨hwindow, instant, document, payload, requestDigest, ⟨eventId, -, hreplay⟩ | ⟨hkey, hfresh⟩⟩ := stage_eq_ok h
  · obtain ⟨document, event, -, hstaged⟩ := replay_eq_ok hreplay
    cases hstaged
  · exact ⟨stageFresh_publishable hkey hfresh, hwindow⟩

theorem write_cases (store : AtomicOutboxStore) (r : WriteRequest) :
    (store.write r).2 = store ∨
      ∃ d e, store.stage r = .ok (.fresh d e) ∧ store.Publishable d e ∧ (store.write r).2 = store.publish d e := by
  unfold write
  match hs : store.stage r with
  | .error e => exact Or.inl rfl
  | .ok (.replayed result) => exact Or.inl rfl
  | .ok (.fresh d e) =>
    refine Or.inr ⟨d, e, rfl, (stage_fresh hs).1, ?_⟩
    dsimp only
    split <;> rfl

theorem raiseIf_committed {window : Option PyStr} {err : PyError}
    (hb : raiseIf window .beforeTransaction false = .ok ()) (h : raiseIf window .afterCommitBeforeAck true = .error err) :
    err = crashInjected .afterCommitBeforeAck true := by
  cases window with
  | none => cases h
  | some text =>
    unfold raiseIf at hb h
    dsimp only at hb h
    cases hw : CrashWindow.ofValue? text with
    | none => rw [hw] at hb; cases hb
    | some selected =>
      rw [hw] at h
      dsimp only at h
      split_ifs at h
      exact (Except.error.inj h).symm

/-- A write that raises anything but a committed crash leaves the store exactly as it was. -/
theorem write_error_unchanged {store : AtomicOutboxStore} {r : WriteRequest} {err : PyError}
    (h : (store.write r).1 = .error err) (hcls : ∀ w, err.cls ≠ .crashInjected w true) : (store.write r).2 = store := by
  unfold write at h ⊢
  match hs : store.stage r with
  | .error e => rfl
  | .ok (.replayed result) => rfl
  | .ok (.fresh d e) =>
    rw [hs] at h
    dsimp only at h ⊢
    cases hw : raiseIf r.crashWindow .afterCommitBeforeAck true with
    | ok u => rw [hw] at h; cases h
    | error e' =>
      rw [hw] at h
      cases h
      rw [raiseIf_committed (stage_fresh hs).2 hw] at hcls
      exact absurd rfl (hcls _)

/-! ## The invariant -/

/-- The coupling of documents, events and idempotency keys, for event seeds taken from `S`. -/
structure Consistent (S : Set Bytes) (store : AtomicOutboxStore) : Prop where
  event_id : ∀ {id e}, store.events.get? id = some e →
    e.eventId = id ∧ ∃ seed ∈ S, eventSeed e.aggregateId e.idempotencyKey e.requestDigest = .ok seed ∧ id = eventIdOf seed
  event_key : ∀ {id e}, store.events.get? id = some e → store.idempotency.get? e.idempotencyKey = some id
  key_event : ∀ {k id}, store.idempotency.get? k = some id → ∃ e, store.events.get? id = some e ∧ e.idempotencyKey = k
  event_document : ∀ {id e}, store.events.get? id = some e → ∃ d, store.documents.get? e.aggregateId = some d ∧
    1 ≤ e.aggregateVersion ∧ e.aggregateVersion ≤ d.version ∧ e.occurredAt ≤ d.updatedAt
  version_event : ∀ {a d v}, store.documents.get? a = some d → 1 ≤ v → v ≤ d.version →
    ∃ id e, store.events.get? id = some e ∧ e.aggregateId = a ∧ e.aggregateVersion = v
  version_unique : ∀ {i j e f}, store.events.get? i = some e → store.events.get? j = some f →
    e.aggregateId = f.aggregateId → e.aggregateVersion = f.aggregateVersion → i = j
  document_version : ∀ {a d}, store.documents.get? a = some d → 1 ≤ d.version
  document_transaction : ∀ {a d id e}, store.documents.get? a = some d → store.events.get? id = some e →
    e.aggregateId = a → e.aggregateVersion = d.version → e.transactionId = d.transactionId
  version_time : ∀ {i j e f}, store.events.get? i = some e → store.events.get? j = some f →
    e.aggregateId = f.aggregateId → e.aggregateVersion < f.aggregateVersion → e.occurredAt ≤ f.occurredAt
  event_committed : ∀ {id e}, store.events.get? id = some e →
    e.committed = true ∧ canonicalSha256 e.payload = .ok e.payloadDigest
  emitted_time : ∀ {id e t}, store.events.get? id = some e → e.emittedAt = some t → e.occurredAt ≤ t

theorem consistent_empty (S : Set Bytes) (writer : PyStr) : Consistent S ⟨writer, .empty, .empty, .empty⟩ := by
  constructor <;> simp

variable {S : Set Bytes} {store : AtomicOutboxStore}

theorem Publishable.id_new {d : StoredDocument} {e : OutboxEvent} (hp : store.Publishable d e)
    (hinj : Set.InjOn Sha256.digest S) (hS : ∀ b, eventSeed e.aggregateId e.idempotencyKey e.requestDigest = .ok b → b ∈ S)
    (hc : store.Consistent S) : store.events.get? e.eventId = none := by
  obtain ⟨seed, hseed, hid⟩ := hp.seed
  cases hf : store.events.get? e.eventId with
  | none => rfl
  | some f =>
    obtain ⟨-, seed', hS', hseed', hid'⟩ := hc.event_id hf
    have heq : seed = seed' := eventIdOf_injOn hinj (hS seed hseed) hS' (hid.symm.trans hid')
    subst heq
    have hkey := hc.event_key hf
    rw [← eventSeed_key hseed hseed', hp.key_new] at hkey
    cases hkey

theorem currentVersion_of_some {a : PyStr} {d : StoredDocument} (h : store.documents.get? a = some d) :
    store.currentVersion a = d.version := by
  simp [currentVersion, h]

theorem currentVersion_of_none {a : PyStr} (h : store.documents.get? a = none) : store.currentVersion a = 0 := by
  simp [currentVersion, h]

theorem Consistent.le_currentVersion (hc : store.Consistent S) {id : PyStr} {e : OutboxEvent}
    (h : store.events.get? id = some e) : e.aggregateVersion ≤ store.currentVersion e.aggregateId := by
  obtain ⟨d, hd, -, hle, -⟩ := hc.event_document h
  rwa [currentVersion_of_some hd]

theorem get?_events_publish {d : StoredDocument} {e x : OutboxEvent} {id : PyStr}
    (hnew : store.events.get? e.eventId = none) :
    (store.publish d e).events.get? id = some x ↔ (id = e.eventId ∧ x = e) ∨ store.events.get? id = some x := by
  rw [publish, Dict.get?_set]
  split_ifs with h
  · subst h
    simp [hnew, eq_comm]
  · simp [Ne.symm h]

theorem get?_documents_publish {d x : StoredDocument} {e : OutboxEvent} {a : PyStr}
    (hp : store.Publishable d e) : (store.publish d e).documents.get? a = some x ↔
      (a = e.aggregateId ∧ x = d) ∨ (a ≠ e.aggregateId ∧ store.documents.get? a = some x) := by
  rw [publish, Dict.get?_set, hp.aggregate]
  split_ifs with h
  · simp [h, eq_comm]
  · simp [Ne.symm h]

theorem Publishable.version_lt {d : StoredDocument} {e x : OutboxEvent} {id : PyStr} (hp : store.Publishable d e)
    (hc : store.Consistent S) (hx : store.events.get? id = some x) (ha : x.aggregateId = e.aggregateId) :
    x.aggregateVersion < e.aggregateVersion := by
  have := hc.le_currentVersion hx
  rw [ha] at this
  rw [hp.event_version, hp.version]
  omega

theorem Publishable.time_le {d : StoredDocument} {e x : OutboxEvent} {id : PyStr} (hp : store.Publishable d e)
    (hc : store.Consistent S) (hx : store.events.get? id = some x) (ha : x.aggregateId = e.aggregateId) :
    x.occurredAt ≤ d.updatedAt := by
  obtain ⟨c, hcur, -, -, hle⟩ := hc.event_document hx
  rw [ha] at hcur
  exact le_trans hle (hp.time c hcur)

theorem Consistent.version_event_publish (hc : store.Consistent S) {d : StoredDocument} {e : OutboxEvent}
    (hp : store.Publishable d e) (hnew : store.events.get? e.eventId = none) {v : ℕ} (h1 : 1 ≤ v) (h2 : v ≤ d.version) :
    ∃ id x, (store.publish d e).events.get? id = some x ∧ x.aggregateId = e.aggregateId ∧ x.aggregateVersion = v := by
  by_cases hv : v = d.version
  · exact ⟨e.eventId, e, (get?_events_publish hnew).mpr (Or.inl ⟨rfl, rfl⟩), rfl, by rw [hv, hp.event_version]⟩
  · have hle : v ≤ store.currentVersion e.aggregateId := by
      have := hp.version
      omega
    cases hcur : store.documents.get? e.aggregateId with
    | none =>
      rw [currentVersion_of_none hcur] at hle
      omega
    | some c =>
      rw [currentVersion_of_some hcur] at hle
      obtain ⟨id, x, hx, hxa, hxv⟩ := hc.version_event hcur h1 hle
      exact ⟨id, x, (get?_events_publish hnew).mpr (Or.inr hx), hxa, hxv⟩

theorem Consistent.publish (hc : store.Consistent S) {d : StoredDocument} {e : OutboxEvent}
    (hp : store.Publishable d e) (hinj : Set.InjOn Sha256.digest S)
    (hS : ∀ b, eventSeed e.aggregateId e.idempotencyKey e.requestDigest = .ok b → b ∈ S) :
    (store.publish d e).Consistent S := by
  have hnew := hp.id_new hinj hS hc
  have hevents : ∀ {id x}, (store.publish d e).events.get? id = some x →
      (id = e.eventId ∧ x = e) ∨ store.events.get? id = some x := (get?_events_publish hnew).mp
  have hdocs : ∀ {a x}, (store.publish d e).documents.get? a = some x →
      (a = e.aggregateId ∧ x = d) ∨ (a ≠ e.aggregateId ∧ store.documents.get? a = some x) :=
    (get?_documents_publish hp).mp
  constructor
  case event_id =>
    intro id x hx
    rcases hevents hx with ⟨rfl, rfl⟩ | hx
    · obtain ⟨seed, hseed, hid⟩ := hp.seed
      exact ⟨rfl, seed, hS seed hseed, hseed, hid⟩
    · exact hc.event_id hx
  case event_key =>
    intro id x hx
    rcases hevents hx with ⟨rfl, rfl⟩ | hx
    · exact Dict.get?_set_self ..
    · have hkey := hc.event_key hx
      have hne : e.idempotencyKey ≠ x.idempotencyKey := by
        intro h
        rw [← h, hp.key_new] at hkey
        cases hkey
      exact (Dict.get?_set_of_ne _ _ hne).trans hkey
  case key_event =>
    intro k id hk
    rw [AtomicOutboxStore.publish, Dict.get?_set] at hk
    split_ifs at hk with h
    · cases hk
      exact ⟨e, (get?_events_publish hnew).mpr (Or.inl ⟨rfl, rfl⟩), h⟩
    · obtain ⟨x, hx, hxk⟩ := hc.key_event hk
      exact ⟨x, (get?_events_publish hnew).mpr (Or.inr hx), hxk⟩
  case event_document =>
    intro id x hx
    rcases hevents hx with ⟨rfl, rfl⟩ | hx
    · refine ⟨d, (get?_documents_publish hp).mpr (Or.inl ⟨rfl, rfl⟩), ?_, le_of_eq hp.event_version, le_of_eq hp.event_time⟩
      rw [hp.event_version, hp.version]
      omega
    · obtain ⟨c, hcur, h1, h2, h3⟩ := hc.event_document hx
      by_cases ha : x.aggregateId = e.aggregateId
      · refine ⟨d, (get?_documents_publish hp).mpr (Or.inl ⟨ha, rfl⟩), h1, ?_, hp.time_le hc hx ha⟩
        rw [← hp.event_version]
        exact le_of_lt (hp.version_lt hc hx ha)
      · exact ⟨c, (get?_documents_publish hp).mpr (Or.inr ⟨ha, hcur⟩), h1, h2, h3⟩
  case version_event =>
    intro a x v hx h1 h2
    rcases hdocs hx with ⟨rfl, rfl⟩ | ⟨-, hx⟩
    · exact hc.version_event_publish hp hnew h1 h2
    · obtain ⟨id, y, hy, hya, hyv⟩ := hc.version_event hx h1 h2
      exact ⟨id, y, (get?_events_publish hnew).mpr (Or.inr hy), hya, hyv⟩
  case version_unique =>
    intro i j x y hx hy ha hv
    rcases hevents hx with ⟨rfl, rfl⟩ | hx' <;> rcases hevents hy with ⟨rfl, rfl⟩ | hy'
    · rfl
    · exact absurd (hp.version_lt hc hy' ha.symm) (by omega)
    · exact absurd (hp.version_lt hc hx' ha) (by omega)
    · exact hc.version_unique hx' hy' ha hv
  case document_version =>
    intro a x hx
    rcases hdocs hx with ⟨rfl, rfl⟩ | ⟨-, hx⟩
    · rw [hp.version]
      omega
    · exact hc.document_version hx
  case document_transaction =>
    intro a x id y hx hy ha hv
    rcases hevents hy with ⟨rfl, rfl⟩ | hy' <;> rcases hdocs hx with ⟨ha', rfl⟩ | ⟨hne, hx'⟩
    · exact hp.transaction
    · exact absurd ha.symm hne
    · have := hp.version_lt hc hy' (ha.trans ha')
      rw [hp.event_version] at this
      omega
    · exact hc.document_transaction hx' hy' ha hv
  case version_time =>
    intro i j x y hx hy ha hv
    rcases hevents hx with ⟨rfl, rfl⟩ | hx' <;> rcases hevents hy with ⟨rfl, rfl⟩ | hy'
    · exact le_refl _
    · exact absurd (hp.version_lt hc hy' ha.symm) (by omega)
    · rw [hp.event_time]
      exact hp.time_le hc hx' ha
    · exact hc.version_time hx' hy' ha hv
  case event_committed =>
    intro id x hx
    rcases hevents hx with ⟨rfl, rfl⟩ | hx
    · exact ⟨hp.committed, hp.integrity⟩
    · exact hc.event_committed hx
  case emitted_time =>
    intro id x t hx ht
    rcases hevents hx with ⟨rfl, rfl⟩ | hx
    · rw [hp.pending] at ht
      cases ht
    · exact hc.emitted_time hx ht

/-! ## Emission marks -/

def mark (store : AtomicOutboxStore) (e : OutboxEvent) (t : Instant) : AtomicOutboxStore :=
  { store with events := store.events.set e.eventId { e with emittedAt := some t } }

/-- A mark leaves the store as it was or records the emission of a pending event. -/
theorem markEmitted_cases (hc : store.Consistent S) (eventId : PyStr) (emittedAt : DateTime) :
    (store.markEmitted eventId emittedAt).2 = store ∨
      ∃ e t, requireAware emittedAt "emitted_at" = .ok t ∧ store.events.get? e.eventId = some e ∧ e.eventId = eventId ∧
        e.emittedAt = none ∧ e.occurredAt ≤ t ∧ store.markEmitted eventId emittedAt = (.ok { e with emittedAt := some t }, store.mark e t) := by
  unfold markEmitted subscript
  cases hinstant : requireAware emittedAt "emitted_at" with
  | error err => exact Or.inl rfl
  | ok t =>
    cases he : store.events.get? eventId with
    | none => exact Or.inl rfl
    | some e =>
      have hid : e.eventId = eventId := (hc.event_id he).1
      dsimp only
      split_ifs with h1 h2
      · exact Or.inl rfl
      · exact Or.inl rfl
      · refine Or.inr ⟨e, t, rfl, by rw [hid]; exact he, hid, by simpa using h2, not_lt.mp h1, ?_⟩
        rw [mark, hid]

theorem get?_events_mark {e x : OutboxEvent} {t : Instant} {id : PyStr} (he : store.events.get? e.eventId = some e) :
    (store.mark e t).events.get? id = some x ↔
      ∃ y, store.events.get? id = some y ∧ x = if id = e.eventId then { y with emittedAt := some t } else y := by
  rw [mark, Dict.get?_set]
  by_cases h : e.eventId = id
  · subst h
    simp [he, eq_comm]
  · simp [h, Ne.symm h, eq_comm]

theorem Consistent.mark (hc : store.Consistent S) {e : OutboxEvent} {t : Instant}
    (he : store.events.get? e.eventId = some e) (ht : e.occurredAt ≤ t) : (store.mark e t).Consistent S := by
  -- a marked event is an old one in every field but the instant of emission
  have hevents : ∀ {id x}, (store.mark e t).events.get? id = some x →
      ∃ y s, store.events.get? id = some y ∧ x = { y with emittedAt := s } := by
    intro id x hx
    obtain ⟨y, hy, rfl⟩ := (get?_events_mark he).mp hx
    split_ifs
    · exact ⟨y, some t, hy, rfl⟩
    · exact ⟨y, y.emittedAt, hy, rfl⟩
  have hold : ∀ {id y}, store.events.get? id = some y →
      ∃ s, (store.mark e t).events.get? id = some { y with emittedAt := s } := by
    intro id y hy
    by_cases h : id = e.eventId
    · exact ⟨some t, (get?_events_mark he).mpr ⟨y, hy, by rw [if_pos h]⟩⟩
    · exact ⟨y.emittedAt, (get?_events_mark he).mpr ⟨y, hy, by rw [if_neg h]⟩⟩
  constructor
  case event_id =>
    intro id x hx
    obtain ⟨y, s, hy, rfl⟩ := hevents hx
    have h := hc.event_id hy
    exact h
  case event_key =>
    intro id x hx
    obtain ⟨y, s, hy, rfl⟩ := hevents hx
    have h := hc.event_key hy
    exact h
  case event_document =>
    intro id x hx
    obtain ⟨y, s, hy, rfl⟩ := hevents hx
    have h := hc.event_document hy
    exact h
  case event_committed =>
    intro id x hx
    obtain ⟨y, s, hy, rfl⟩ := hevents hx
    have h := hc.event_committed hy
    exact h
  case key_event =>
    intro k id hk
    obtain ⟨y, hy, hyk⟩ := hc.key_event hk
    obtain ⟨s, hs⟩ := hold hy
    exact ⟨_, hs, hyk⟩
  case version_event =>
    intro a d v hd h1 h2
    obtain ⟨id, y, hy, hya, hyv⟩ := hc.version_event hd h1 h2
    obtain ⟨s, hs⟩ := hold hy
    exact ⟨id, _, hs, hya, hyv⟩
  case version_unique =>
    intro i j x y hx hy
    obtain ⟨x', s, hx', rfl⟩ := hevents hx
    obtain ⟨y', s', hy', rfl⟩ := hevents hy
    have h := hc.version_unique hx' hy'
    exact h
  case version_time =>
    intro i j x y hx hy
    obtain ⟨x', s, hx', rfl⟩ := hevents hx
    obtain ⟨y', s', hy', rfl⟩ := hevents hy
    have h := hc.version_time hx' hy'
    exact h
  case document_version => exact hc.document_version
  case document_transaction =>
    intro a d id x hd hx
    obtain ⟨y, s, hy, rfl⟩ := hevents hx
    have h := hc.document_transaction hd hy
    exact h
  case emitted_time =>
    intro id x s hx hs
    obtain ⟨y, hy, rfl⟩ := (get?_events_mark he).mp hx
    split_ifs at hs ⊢ with h
    · rw [h, he] at hy
      cases hy
      cases hs
      exact ht
    · exact hc.emitted_time hy hs

/-! ## Runs -/

inductive Call
  | write (r : WriteRequest)
  | markEmitted (eventId : PyStr) (emittedAt : DateTime)
  | get (aggregateId : PyStr)
  | getEvent (eventId : PyStr)
  | outbox (includeEmitted : Bool)
  | snapshotCounts
  | verifyAtomicity

def step (store : AtomicOutboxStore) : Call → AtomicOutboxStore
  | .write r => (store.write r).2
  | .markEmitted eventId emittedAt => (store.markEmitted eventId emittedAt).2
  | .get _ | .getEvent _ | .outbox _ | .snapshotCounts | .verifyAtomicity => store

/-- The event seed a write hashes when it publishes. -/
def publishedSeed (store : AtomicOutboxStore) (r : WriteRequest) : List Bytes :=
  match store.stage r with
  | .ok (.fresh _ e) =>
    match eventSeed e.aggregateId e.idempotencyKey e.requestDigest with
    | .ok seed => [seed]
    | .error _ => []
  | _ => []

def callSeeds (store : AtomicOutboxStore) : Call → List Bytes
  | .write r => store.publishedSeed r
  | _ => []

theorem Consistent.write (hinj : Set.InjOn Sha256.digest S) (hc : store.Consistent S) {r : WriteRequest}
    (hS : ∀ b ∈ store.publishedSeed r, b ∈ S) : (store.write r).2.Consistent S := by
  rcases store.write_cases r with h | ⟨d, e, hs, hp, h⟩
  · rwa [h]
  · rw [h]
    refine hc.publish hp hinj fun b hb => hS b ?_
    rw [publishedSeed, hs]
    dsimp only
    rw [hb]
    exact List.mem_singleton_self b

theorem Consistent.markEmitted (hc : store.Consistent S) (eventId : PyStr) (emittedAt : DateTime) :
    (store.markEmitted eventId emittedAt).2.Consistent S := by
  rcases markEmitted_cases hc eventId emittedAt with h | ⟨e, t, -, he, -, -, ht, h⟩
  · rwa [h]
  · rw [h]
    exact hc.mark he ht

theorem Consistent.step (hinj : Set.InjOn Sha256.digest S) (store : AtomicOutboxStore) (call : Call)
    (hc : store.Consistent S) (hS : ∀ b ∈ store.callSeeds call, b ∈ S) : (store.step call).Consistent S := by
  cases call with
  | write r => exact Consistent.write hinj hc hS
  | markEmitted eventId emittedAt => exact hc.markEmitted eventId emittedAt
  | get _ | getEvent _ | outbox _ | snapshotCounts | verifyAtomicity => exact hc

theorem consistent_run_of {writer : PyStr} {start : AtomicOutboxStore} (hstart : create writer = .ok start)
    (calls : List Call) (hinj : Set.InjOn Sha256.digest S) (hS : ∀ b ∈ trace step callSeeds start calls, b ∈ S) :
    (run step start calls).Consistent S := by
  have hempty : start.Consistent S := by
    unfold create at hstart
    split_ifs at hstart
    cases hstart
    exact consistent_empty _ writer
  exact run_induction_of (Consistent.step hinj) hempty (allSteps_of_trace hS)

theorem consistent_run {writer : PyStr} {start : AtomicOutboxStore} (hstart : create writer = .ok start)
    (calls : List Call) (hinj : Set.InjOn Sha256.digest {b | b ∈ trace step callSeeds start calls}) :
    (run step start calls).Consistent {b | b ∈ trace step callSeeds start calls} :=
  consistent_run_of hstart calls hinj fun _ hb => hb

/-! ## What consistency says about the whole store -/

def aggregateEvents (store : AtomicOutboxStore) (aggregateId : PyStr) : List OutboxEvent :=
  store.events.values.filter fun e => e.aggregateId = aggregateId

theorem Consistent.mem_values_iff (hc : store.Consistent S) {e : OutboxEvent} :
    e ∈ store.events.values ↔ store.events.get? e.eventId = some e := by
  rw [Dict.mem_values_iff]
  constructor
  · rintro ⟨id, h⟩
    rwa [(hc.event_id h).1]
  · exact fun h => ⟨_, h⟩

theorem Consistent.values_nodup (hc : store.Consistent S) : store.events.values.Nodup := by
  refine List.Nodup.map_on ?_ (List.Nodup.of_map Prod.fst store.events.nodup)
  rintro ⟨i, e⟩ hi ⟨j, f⟩ hj hef
  have h1 := (hc.event_id ((store.events.mem_entries_iff i e).mp hi)).1
  have h2 := (hc.event_id ((store.events.mem_entries_iff j f).mp hj)).1
  simp only at hef
  rw [← h1, ← h2, hef]

theorem Consistent.versions_perm (hc : store.Consistent S) (a : PyStr) :
    ((store.aggregateEvents a).map OutboxEvent.aggregateVersion).Perm (List.range' 1 (store.currentVersion a)) := by
  have hmem : ∀ {e}, e ∈ store.aggregateEvents a ↔ store.events.get? e.eventId = some e ∧ e.aggregateId = a := by
    intro e
    rw [aggregateEvents, List.mem_filter, hc.mem_values_iff, decide_eq_true_iff]
  refine (List.perm_ext_iff_of_nodup ?_ List.nodup_range').mpr fun v => ?_
  · refine List.Nodup.map_on (fun e he f hf hv => ?_) (hc.values_nodup.filter _)
    obtain ⟨he, hea⟩ := hmem.mp he
    obtain ⟨hf, hfa⟩ := hmem.mp hf
    rw [hc.version_unique he hf (hea.trans hfa.symm) hv, hf] at he
    exact (Option.some.inj he).symm
  · rw [List.mem_map, List.mem_range'_1]
    constructor
    · rintro ⟨e, he, rfl⟩
      obtain ⟨he, hea⟩ := hmem.mp he
      obtain ⟨d, -, h1, -⟩ := hc.event_document he
      have hle := hc.le_currentVersion he
      rw [hea] at hle
      omega
    · rintro ⟨h1, h2⟩
      cases hd : store.documents.get? a with
      | none =>
        rw [currentVersion_of_none hd] at h2
        omega
      | some d =>
        rw [currentVersion_of_some hd] at h2
        obtain ⟨id, e, he, hea, hev⟩ := hc.version_event hd h1 (by omega)
        rw [← (hc.event_id he).1] at he
        exact ⟨e, hmem.mpr ⟨he, hea⟩, hev⟩

theorem Consistent.verifyAtomicity (hc : store.Consistent S) : store.verifyAtomicity = true := by
  unfold AtomicOutboxStore.verifyAtomicity
  rw [Bool.and_eq_true, List.all_eq_true, List.all_eq_true]
  refine ⟨fun d hd => ?_, fun e he => ?_⟩
  · obtain ⟨a, hd⟩ := (Dict.mem_values_iff _ d).mp hd
    obtain ⟨id, e, he, hea, hev⟩ := hc.version_event hd (hc.document_version hd) (le_refl _)
    rw [decide_eq_true_iff, ← hc.document_transaction hd he hea hev]
    exact List.mem_map_of_mem ((Dict.mem_values_iff _ e).mpr ⟨id, he⟩)
  · obtain ⟨d, hd, -, hle, -⟩ := hc.event_document (hc.mem_values_iff.1 he)
    rw [hd]
    exact decide_eq_true hle

/-- **Atomicity over every run.** From an empty store, over writes with any arguments and crash windows,
emission marks and reads: the events of each aggregate are numbered 1 to the version of its document, the
document carries the transaction of its last event, each idempotency key belongs to one event,
`verify_atomicity` holds, and a write that raises anything but a committed crash changes nothing. -/
theorem store_runs_are_atomic (writer : PyStr) (start : AtomicOutboxStore) (hstart : create writer = .ok start)
    (calls : List Call) (hinj : Set.InjOn Sha256.digest {b | b ∈ trace step callSeeds start calls}) :
    (∀ a, (((run step start calls).aggregateEvents a).map OutboxEvent.aggregateVersion).Perm
        (List.range' 1 ((run step start calls).currentVersion a))) ∧
      (∀ a d, (run step start calls).get a = some d →
        ∃ e ∈ (run step start calls).aggregateEvents a,
          e.aggregateVersion = d.version ∧ e.transactionId = d.transactionId) ∧
      (∀ k id, (run step start calls).idempotency.get? k = some id →
        ∃ e, (run step start calls).getEvent id = some e ∧ e.idempotencyKey = k ∧
          ∀ f ∈ (run step start calls).events.values, f.idempotencyKey = k → f = e) ∧
      (run step start calls).verifyAtomicity = true ∧
      ∀ r err, ((run step start calls).write r).1 = .error err → (∀ w, err.cls ≠ .crashInjected w true) →
        ((run step start calls).write r).2 = run step start calls := by
  have hc := consistent_run hstart calls hinj
  refine ⟨hc.versions_perm, ?_, ?_, hc.verifyAtomicity, fun r err => write_error_unchanged⟩
  · intro a d hd
    obtain ⟨id, e, he, hea, hev⟩ := hc.version_event hd (hc.document_version hd) (le_refl _)
    refine ⟨e, ?_, hev, hc.document_transaction hd he hea hev⟩
    rw [aggregateEvents, List.mem_filter, decide_eq_true_iff]
    exact ⟨(Dict.mem_values_iff _ e).mpr ⟨id, he⟩, hea⟩
  · intro k id hk
    obtain ⟨e, he, hek⟩ := hc.key_event hk
    refine ⟨e, he, hek, fun f hf hfk => ?_⟩
    have hf := hc.mem_values_iff.1 hf
    have hid := hc.event_key hf
    rw [hfk, hk] at hid
    rw [Option.some.inj hid, hf] at he
    exact Option.some.inj he

theorem digest_injOn_of_nodup (seeds : List Bytes) (h : (seeds.map Sha256.digest).Nodup) :
    Set.InjOn Sha256.digest {b | b ∈ seeds} :=
  fun _ hx _ hy hxy => List.inj_on_of_nodup_map h hx hy hxy

/-- Two versions of one aggregate, the second acknowledged by a crash, then the first one emitted. -/
def twoWrites : List Call :=
  [.write {
      aggregateId := py "a", document := .mapping [], expectedVersion := some 0, writerId := py "w",
      eventType := py "t", idempotencyKey := py "k1", now := 5, transactionId := py "x" },
    .write {
      aggregateId := py "a", document := .mapping [], expectedVersion := some 1, writerId := py "w",
      eventType := py "t", idempotencyKey := py "k2", now := 6, transactionId := py "y",
      crashWindow := some (py "after-commit-before-ack") },
    .markEmitted (py "urn:ocor:event:sha256:b085473dfec3321cbf61b3b0d24ed8f3d0cd3a03400f27151d0009a988428bf0") (.utc 9)]

theorem store_runs_are_atomic_twoWrites :
    create (py "w") = .ok ⟨py "w", .empty, .empty, .empty⟩ ∧
      (((run step ⟨py "w", .empty, .empty, .empty⟩ twoWrites).aggregateEvents (py "a")).map
        OutboxEvent.aggregateVersion).Perm
          (List.range' 1 ((run step ⟨py "w", .empty, .empty, .empty⟩ twoWrites).currentVersion (py "a"))) ∧
      (run step ⟨py "w", .empty, .empty, .empty⟩ twoWrites).verifyAtomicity = true := by
  have hstart : create (py "w") = .ok ⟨py "w", .empty, .empty, .empty⟩ := rfl
  have hinj := digest_injOn_of_nodup (trace step callSeeds ⟨py "w", .empty, .empty, .empty⟩ twoWrites)
    (by decide +kernel)
  obtain ⟨hperm, -, -, hverify, -⟩ := store_runs_are_atomic (py "w") _ hstart twoWrites hinj
  exact ⟨hstart, hperm (py "a"), hverify⟩

end AtomicOutboxStore
end OcorRuntime.Store

import OcorRuntime.Canonical.FixedPoint
import OcorRuntime.Kernel.Records
import OcorRuntime.Store.Atomicity

/-! One write, with no crash injected: what a publication holds of its request, and when a
write that carries no expected version publishes. -/
namespace OcorRuntime.Store
open Canonical
set_option autoImplicit false
set_option maxHeartbeats 250000

/-! ## Canonical objects -/

theorem canonicalize_mapping_iff {es : List (MappingKey × PyValue)} :
    (∃ bytes, canonicalize (.mapping es) = .ok bytes) ↔ Writable es := by
  constructor
  · rintro ⟨bytes, h⟩
    obtain ⟨text, ht, -⟩ := canonicalize_eq_ok.1 h
    exact writable_of_serialize ht
  · intro h
    exact ⟨_, canonicalize_eq_ok.2 ⟨_, serialize_writable h, rfl⟩⟩

theorem serialize_text {s : PyStr} (h : Scalar s) : serialize (.str s) = .ok (textOf (.str s)) :=
  serialize_textOf (serializeString_ok h)

theorem scalar_hexdigest (bytes : Bytes) : Scalar (Sha256.hexdigest bytes) := by
  intro c hc
  obtain ⟨d, hd, rfl⟩ := mem_hex hc
  have hval := hexDigit_val hd
  unfold IsSurrogate
  split_ifs at hval <;> omega

theorem canonicalSha256_eq_ok {v : PyValue} {digest : PyStr} :
    canonicalSha256 v = .ok digest ↔ ∃ bytes, canonicalize v = .ok bytes ∧ Sha256.hexdigest bytes = digest := by
  rw [canonicalSha256, bind_eq_ok]
  exact exists_congr fun bytes => and_congr_right fun _ => ⟨Except.ok.inj, fun h => h ▸ rfl⟩

namespace AtomicOutboxStore
variable {store : AtomicOutboxStore} {r : WriteRequest}

/-! ## What a publication holds of its request -/

structure Publishes (store : AtomicOutboxStore) (r : WriteRequest) (d : StoredDocument) (e : OutboxEvent) : Prop where
  publishable : store.Publishable d e
  aggregate : e.aggregateId = r.aggregateId
  key : e.idempotencyKey = r.idempotencyKey
  eventType : e.eventType = r.eventType
  document : freezeJson r.document = .ok d.document
  payload : freezeJson (r.eventPayload.getD r.document) = .ok e.payload
  time : requireAware (r.occurredAt.getD (.utc r.now)) "occurred_at" = .ok d.updatedAt

theorem stageFresh_fields {instant : Instant} {document payload : PyValue} {requestDigest : PyStr} {d : StoredDocument}
    {e : OutboxEvent} (h : store.stageFresh r instant document payload requestDigest = .ok (.fresh d e)) :
    e.aggregateId = r.aggregateId ∧ e.idempotencyKey = r.idempotencyKey ∧ e.eventType = r.eventType ∧
      d.document = document ∧ e.payload = payload ∧ d.updatedAt = instant := by
  unfold stageFresh at h
  dsimp only at h
  split_ifs at h
  obtain ⟨-, -, h⟩ := bind_eq_ok.1 h
  obtain ⟨seed, -, h⟩ := bind_eq_ok.1 h
  obtain ⟨semanticDigest, -, h⟩ := bind_eq_ok.1 h
  obtain ⟨-, -, h⟩ := bind_eq_ok.1 h
  obtain ⟨payloadDigest, -, h⟩ := bind_eq_ok.1 h
  obtain ⟨-, -, h⟩ := bind_eq_ok.1 h
  cases h
  exact ⟨rfl, rfl, rfl, rfl, rfl, rfl⟩

theorem stage_request {staged : Staged} (h : store.stage r = .ok staged) :
    ∃ document payload bytes, freezeJson r.document = .ok document ∧
      freezeJson (r.eventPayload.getD r.document) = .ok payload ∧
      canonicalize (requestObject r.aggregateId r.eventType document payload) = .ok bytes ∧
      ((∃ eventId, store.idempotency.get? r.idempotencyKey = some eventId ∧
          store.replay eventId (Sha256.hexdigest bytes) = .ok staged) ∨
        (store.idempotency.get? r.idempotencyKey = none ∧ ∃ instant,
          requireAware (r.occurredAt.getD (.utc r.now)) "occurred_at" = .ok instant ∧ store.stageFresh r instant document payload (Sha256.hexdigest bytes) = .ok staged)) := by
  unfold stage at h
  split_ifs at h
  obtain ⟨-, -, h⟩ := bind_eq_ok.1 h
  obtain ⟨instant, haware, h⟩ := bind_eq_ok.1 h
  obtain ⟨document, hdocument, h⟩ := bind_eq_ok.1 h
  obtain ⟨payload, hpayload, h⟩ := bind_eq_ok.1 h
  obtain ⟨requestDigest, hdigest, h⟩ := bind_eq_ok.1 h
  obtain ⟨-, -, h⟩ := bind_eq_ok.1 h
  obtain ⟨bytes, hbytes, rfl⟩ := canonicalSha256_eq_ok.1 hdigest
  refine ⟨document, payload, bytes, hdocument, hpayload, hbytes, ?_⟩
  cases hkey : store.idempotency.get? r.idempotencyKey with
  | none =>
    rw [hkey] at h
    exact Or.inr ⟨rfl, instant, haware, h⟩
  | some eventId =>
    rw [hkey] at h
    exact Or.inl ⟨eventId, rfl, h⟩

theorem stage_publishes {d : StoredDocument} {e : OutboxEvent} (h : store.stage r = .ok (.fresh d e)) :
    store.Publishes r d e := by
  obtain ⟨document, payload, bytes, hdocument, hpayload, -, ⟨eventId, -, hreplay⟩ | ⟨-, instant, haware, hfresh⟩⟩ := stage_request h
  · obtain ⟨found, event, -, hstaged⟩ := replay_eq_ok hreplay
    cases hstaged
  · obtain ⟨haggregate, hkey, htype, rfl, rfl, rfl⟩ := stageFresh_fields hfresh
    exact ⟨(stage_fresh h).1, haggregate, hkey, htype, hdocument, hpayload, haware⟩

/-! ## Outcomes -/

theorem write_returned {result : WriteResult} (hwindow : r.crashWindow = none) (h : (store.write r).1 = .ok result) :
    ((∃ eventId, store.idempotency.get? r.idempotencyKey = some eventId) ∧ (store.write r).2 = store) ∨
      ∃ d e, store.Publishes r d e ∧ (store.write r).2 = store.publish d e := by
  unfold write at h ⊢
  match hs : store.stage r with
  | .error e =>
    rw [hs] at h
    cases h
  | .ok (.replayed replayed) =>
    obtain ⟨document, payload, bytes, -, -, -, ⟨eventId, hkey, -⟩ | ⟨-, instant, -, hfresh⟩⟩ := stage_request hs
    · exact Or.inl ⟨⟨eventId, hkey⟩, rfl⟩
    · obtain ⟨d, e, hstaged, -⟩ := stageFresh_eq_ok hfresh
      cases hstaged
  | .ok (.fresh d e) =>
    refine Or.inr ⟨d, e, stage_publishes hs, ?_⟩
    rw [hwindow]
    rfl

theorem write_raised {err : PyError} (hwindow : r.crashWindow = none) (h : (store.write r).1 = .error err) :
    (store.write r).2 = store := by
  unfold write at h ⊢
  match hs : store.stage r with
  | .error e => rfl
  | .ok (.replayed replayed) => rfl
  | .ok (.fresh d e) =>
    rw [hs, hwindow] at h
    cases h

theorem write_canonical {result : WriteResult} (h : (store.write r).1 = .ok result) :
    ∃ document payload bytes, freezeJson r.document = .ok document ∧
      freezeJson (r.eventPayload.getD r.document) = .ok payload ∧
      canonicalize (requestObject r.aggregateId r.eventType document payload) = .ok bytes := by
  unfold write at h
  match hs : store.stage r with
  | .error e =>
    rw [hs] at h
    cases h
  | .ok staged =>
    obtain ⟨document, payload, bytes, hdocument, hpayload, hbytes, -⟩ := stage_request hs
    exact ⟨document, payload, bytes, hdocument, hpayload, hbytes⟩

/-! ## Acceptance -/

/-- A request that nothing stands against: it fits the store and has a canonical text. -/
structure Accepted (store : AtomicOutboxStore) (r : WriteRequest) (instant : Instant) : Prop where
  named : r.aggregateId ≠ [] ∧ r.eventType ≠ [] ∧ r.idempotencyKey ≠ []
  scalar : Scalar r.aggregateId ∧ Scalar r.eventType ∧ Scalar r.idempotencyKey
  expected : ∀ version, r.expectedVersion = some version → version = store.currentVersion r.aggregateId
  writer : r.writerId = store.authoritativeWriter
  aware : requireAware (r.occurredAt.getD (.utc r.now)) "occurred_at" = .ok instant
  frozen : freezeJson r.document = .ok r.document
  payload : r.eventPayload = none
  canonical : ∃ bytes, canonicalize r.document = .ok bytes
  key : store.idempotency.get? r.idempotencyKey = none
  past : ∀ d, store.documents.get? r.aggregateId = some d → d.updatedAt ≤ instant
  window : r.crashWindow = none

theorem Accepted.request {instant : Instant} (h : store.Accepted r instant) :
    ∃ bytes, canonicalize (requestObject r.aggregateId r.eventType r.document r.document) = .ok bytes := by
  obtain ⟨bytes, hbytes⟩ := h.canonical
  obtain ⟨text, htext, -⟩ := canonicalize_eq_ok.1 hbytes
  refine canonicalize_mapping_iff.2 ⟨?_, ?_⟩
  · simp [Kernel.scalar_py]
  · simp [serialize_text h.scalar.1, serialize_text h.scalar.2.1, serialize_textOf htext]

theorem Accepted.seed {instant : Instant} (h : store.Accepted r instant) (bytes : Bytes) :
    ∃ seed, eventSeed r.aggregateId r.idempotencyKey (Sha256.hexdigest bytes) = .ok seed := by
  refine canonicalize_mapping_iff.2 ⟨?_, ?_⟩
  · simp [Kernel.scalar_py]
  · simp [serialize_text h.scalar.1, serialize_text h.scalar.2.2, serialize_text (scalar_hexdigest bytes)]

theorem Accepted.stage {instant : Instant} (h : store.Accepted r instant) : ∃ d e, store.stage r = .ok (.fresh d e) := by
  obtain ⟨request, hrequest⟩ := h.request
  obtain ⟨seed, hseed⟩ := h.seed request
  obtain ⟨bytes, hbytes⟩ := h.canonical
  have hdigest : canonicalSha256 (requestObject r.aggregateId r.eventType r.document r.document) =
      .ok (Sha256.hexdigest request) := canonicalSha256_eq_ok.2 ⟨request, hrequest, rfl⟩
  have hdocument : canonicalSha256 r.document = .ok (Sha256.hexdigest bytes) :=
    canonicalSha256_eq_ok.2 ⟨bytes, hbytes, rfl⟩
  have hpast : ¬ (store.documents.get? r.aggregateId).any (fun d => instant < d.updatedAt) := by
    cases hd : store.documents.get? r.aggregateId with
    | none => simp
    | some d => simpa using h.past d hd
  have hnegative : ¬ r.expectedVersion.any (· < 0) := by
    cases hv : r.expectedVersion with
    | none => simp
    | some version => simp [h.expected version hv]
  have hcurrent : ¬ r.expectedVersion.any (fun version => version ≠ (store.currentVersion r.aggregateId : ℤ)) := by
    cases hv : r.expectedVersion with
    | none => simp
    | some version => simp [h.expected version hv]
  unfold AtomicOutboxStore.stage
  rw [if_neg (by simp [h.named]), if_neg hnegative, authorizeWriter, if_pos h.writer, h.aware, h.frozen,
    h.payload, Option.getD_none, h.frozen, h.window]
  simp only [bind, Except.bind, hdigest, raiseIf, h.key, stageFresh]
  simp only [hcurrent, hpast, h.window, hseed, hdocument, Bool.false_eq_true, if_false]
  exact ⟨_, _, rfl⟩

/-- **An accepted request publishes.** -/
theorem Accepted.write {instant : Instant} (h : store.Accepted r instant) :
    ∃ d e, store.Publishes r d e ∧ store.write r = (.ok ⟨d, e, false⟩, store.publish d e) := by
  obtain ⟨d, e, hs⟩ := h.stage
  refine ⟨d, e, stage_publishes hs, ?_⟩
  rw [AtomicOutboxStore.write, hs, h.window]
  rfl

end AtomicOutboxStore
end OcorRuntime.Store

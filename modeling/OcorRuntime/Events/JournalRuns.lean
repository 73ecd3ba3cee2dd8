import OcorRuntime.Events.JournalLines
import OcorRuntime.Foundations.Run

/-! The journal over whole runs: calls of `publish` and `publish_from_mapping` with any answers of the broker,
and restarts. The cache covers the journal after every step except one, a producer command that times out
after its append: that exception is none the write's handler catches. -/
namespace OcorRuntime.Events
open StandardJson Canonical
set_option autoImplicit false
set_option maxHeartbeats 250000
set_option maxRecDepth 120000

variable (broker : Broker)

/-! ## What a record holds -/

namespace TopicRecord
variable (r : TopicRecord)

/-- The JSON value of the record. -/
def loaded : PyValue := (loads r.value).toOption.getD .none

def context : PyStr := textAt r.loaded "governed_context_digest"
def idempotencyKey : PyStr := textAt r.loaded "idempotency_key"
def aggregateRef : PyStr := textAt r.loaded "aggregate_ref"

def sequence : ℤ :=
  match fieldOf r.loaded (py "sequence") with
  | .ok value => value.integer?.getD 0
  | .error _ => 0

end TopicRecord

/-- No two records share a context and an idempotency key, and the sequences of each aggregate of a context grow. -/
def UniqueAndOrdered (topic : List TopicRecord) : Prop :=
  topic.Pairwise fun r s => (r.context, r.idempotencyKey) ≠ (s.context, s.idempotencyKey) ∧
    ((r.context, r.aggregateRef) = (s.context, s.aggregateRef) → r.sequence < s.sequence)

instance (topic : List TopicRecord) : Decidable (UniqueAndOrdered topic) := inferInstanceAs (Decidable (List.Pairwise _ _))

/-- The context and the idempotency key come back from the journal as they were written. -/
def Keyed (e : CanonicalIngestionEnvelope) : Prop :=
  NoSplitPair e.governedContextDigest ∧ NoSplitPair e.idempotencyKey

instance (e : CanonicalIngestionEnvelope) : Decidable (Keyed e) := inferInstanceAs (Decidable (_ ∧ _))

theorem RecordOf.loaded {e : CanonicalIngestionEnvelope} {r : TopicRecord} (h : RecordOf e r) :
    r.loaded = .mapping (rereadEntries e.fields) := by
  rw [TopicRecord.loaded, loads_dumps h.value, e.toMapping_eq, reread_object]
  rfl

theorem RecordOf.context {e : CanonicalIngestionEnvelope} {r : TopicRecord} (h : RecordOf e r) :
    r.context = rejoin e.governedContextDigest := by
  rw [TopicRecord.context, h.loaded]
  exact textAt_written e 10 rfl

theorem RecordOf.idempotencyKey {e : CanonicalIngestionEnvelope} {r : TopicRecord} (h : RecordOf e r) :
    r.idempotencyKey = rejoin e.idempotencyKey := by
  rw [TopicRecord.idempotencyKey, h.loaded]
  exact textAt_written e 11 rfl

theorem RecordOf.aggregateRef {e : CanonicalIngestionEnvelope} {r : TopicRecord} (h : RecordOf e r) :
    r.aggregateRef = rejoin e.aggregateRef := by
  rw [TopicRecord.aggregateRef, h.loaded]
  exact textAt_written e 6 rfl

theorem RecordOf.sequence {e : CanonicalIngestionEnvelope} {r : TopicRecord} (h : RecordOf e r) :
    r.sequence = e.sequence.value := by
  rw [TopicRecord.sequence, h.loaded, fieldOf, e.find_sequence]
  cases e.sequence <;> rfl

/-! ## What a call does -/

/-- The cache and the topic are as they were. -/
structure SameCache (b b' : CanonicalEventBackbone) : Prop where
  topic : b'.topic = b.topic
  seen : b'.seenIdempotencyKeys = b.seenIdempotencyKeys
  last : b'.lastSequence = b.lastSequence
  recovered : b'.recovered = b.recovered

theorem SameCache.refl (b : CanonicalEventBackbone) : SameCache b b := ⟨rfl, rfl, rfl, rfl⟩

/-- The checks of `publish` let the envelope through. -/
def Fresh (b : CanonicalEventBackbone) (e : CanonicalIngestionEnvelope) : Prop :=
  (e.governedContextDigest, e.idempotencyKey) ∉ b.seenIdempotencyKeys ∧
    ∀ last, b.lastSequence.get? (e.governedContextDigest, e.aggregateRef) = some last → last < e.sequence.value

/-- The state a producer command leaves behind it. -/
def afterWrite (b : CanonicalEventBackbone) (e : CanonicalIngestionEnvelope) (r : TopicRecord) :
    ProducerOutcome → CanonicalEventBackbone
  | .succeeded => { b with
      topic := b.topic ++ [r]
      lastSequence := b.lastSequence.set (e.governedContextDigest, e.aggregateRef) e.sequence.value
      seenIdempotencyKeys := b.seenIdempotencyKeys ++ [(e.governedContextDigest, e.idempotencyKey)] }
  | .failed fault appended => { b with
      topic := if appended then b.topic ++ [r] else b.topic
      recovered := if fault = .exit then false else b.recovered }

theorem not_stale_iff {last : Option ℤ} {n : ℤ} :
    ¬ (last.any fun last => decide (n ≤ last)) = true ↔ ∀ l, last = some l → l < n := by
  cases last with
  | none => simp
  | some l => simp

theorem publishRecovered_of_fresh {b : CanonicalEventBackbone} {e : CanonicalIngestionEnvelope} (hfresh : Fresh b e)
    {line : PyStr} (hline : lineOf e = .ok line) (replies : Replies) :
    publishRecovered e replies b =
      (Op.guarded (produce (line ++ [newline]) replies.produced) forgetUnacknowledged >>= fun _ =>
        Op.update fun b => { b with
          lastSequence := b.lastSequence.set (e.governedContextDigest, e.aggregateRef) e.sequence.value
          seenIdempotencyKeys := b.seenIdempotencyKeys ++ [(e.governedContextDigest, e.idempotencyKey)] }) b := by
  have hlast : ¬ ((b.lastSequence.get? (e.governedContextDigest, e.aggregateRef)).any fun last =>
      decide (e.sequence.value ≤ last)) = true := by
    exact not_stale_iff.2 hfresh.2
  unfold publishRecovered
  rw [Op.read_bind]
  simp only [if_neg hfresh.1, if_neg hlast, hline, Except.mapError, Op.lift_ok_bind]

theorem publishRecovered_of_not_fresh {b : CanonicalEventBackbone} {e : CanonicalIngestionEnvelope}
    (hfresh : ¬ Fresh b e) (replies : Replies) : SameCache b (publishRecovered e replies b).2 := by
  unfold publishRecovered
  rw [Op.read_bind]
  by_cases hseen : (e.governedContextDigest, e.idempotencyKey) ∈ b.seenIdempotencyKeys
  · simp only [if_pos hseen]
    exact .refl b
  · have hlast : ((b.lastSequence.get? (e.governedContextDigest, e.aggregateRef)).any fun last =>
        decide (e.sequence.value ≤ last)) = true := by
      by_contra hlast
      exact hfresh ⟨hseen, not_stale_iff.1 hlast⟩
    simp only [if_neg hseen, if_pos hlast]
    exact ⟨rfl, rfl, rfl, rfl⟩

theorem publishRecovered_of_lineOf_error {b : CanonicalEventBackbone} {e : CanonicalIngestionEnvelope}
    (hfresh : Fresh b e) {error : PyError} (hline : lineOf e = .error error) (replies : Replies) :
    publishRecovered e replies b = (.error (.builtin error), b) := by
  have hlast : ¬ ((b.lastSequence.get? (e.governedContextDigest, e.aggregateRef)).any fun last =>
      decide (e.sequence.value ≤ last)) = true := by
    exact not_stale_iff.2 hfresh.2
  unfold publishRecovered
  rw [Op.read_bind]
  simp only [if_neg hfresh.1, if_neg hlast, hline]
  rfl

theorem produce_of_not_scalar {input : PyStr} (h : ¬ Scalar input) (outcome : ProducerOutcome)
    (b : CanonicalEventBackbone) : Op.guarded (produce input outcome) forgetUnacknowledged b =
      (.error (valueError "surrogates not allowed"), b) := by
  unfold Op.guarded produce
  simp only [if_neg h]
  rfl

theorem publishRecovered_writes {b : CanonicalEventBackbone} {e : CanonicalIngestionEnvelope} (hfresh : Fresh b e)
    (hc : Carries e.aggregateRef) {line : PyStr} (hline : lineOf e = .ok line) (hscalar : Scalar (line ++ [newline]))
    (replies : Replies) :
    ∃ r, RecordOf e r ∧ (publishRecovered e replies b).2 = afterWrite b e r replies.produced := by
  obtain ⟨r, hr, hmessages⟩ := readMessages_line hc hline
  refine ⟨r, hr, ?_⟩
  have hproduce : ∀ outcome, Op.guarded (produce (line ++ [newline]) outcome) forgetUnacknowledged b =
      match outcome with
      | .succeeded => (.ok (), { b with topic := b.topic ++ [r] })
      | .failed fault appended => (.error fault.error, afterWrite b e r (.failed fault appended)) := by
    intro outcome
    unfold Op.guarded produce
    simp only [hmessages, if_pos hscalar]
    cases outcome with
    | succeeded => rfl
    | failed fault appended => cases appended <;> cases fault <;> rfl
  rw [publishRecovered_of_fresh hfresh hline]
  cases houtcome : replies.produced with
  | succeeded =>
    rw [Op.bind_of_ok (hproduce .succeeded)]
    rfl
  | failed fault appended => rw [Op.bind_of_error (hproduce (.failed fault appended))]

/-- A call on a covering cache changes nothing, or writes the record of a fresh envelope. -/
theorem publishRecovered_cases {e : CanonicalIngestionEnvelope} (hc : Carries e.aggregateRef) (replies : Replies)
    (b : CanonicalEventBackbone) :
    SameCache b (publishRecovered e replies b).2 ∨
      Fresh b e ∧ Scalar e.aggregateRef ∧
        ∃ r, RecordOf e r ∧ (publishRecovered e replies b).2 = afterWrite b e r replies.produced := by
  by_cases hfresh : Fresh b e
  · cases hline : lineOf e with
    | error error =>
      rw [publishRecovered_of_lineOf_error hfresh hline]
      exact .inl (.refl b)
    | ok line =>
      by_cases hscalar : Scalar (line ++ [newline])
      · have hkey : Scalar e.aggregateRef := by
          obtain ⟨text, -, hshape⟩ := bind_eq_ok.1 hline
          cases hshape
          exact fun c hc => hscalar c (by simp [hc])
        exact .inr ⟨hfresh, hkey, publishRecovered_writes hfresh hc hline hscalar replies⟩
      · rw [publishRecovered_of_fresh hfresh hline, Op.bind_of_error (produce_of_not_scalar hscalar _ b)]
        exact .inl (.refl b)
  · exact .inl (publishRecovered_of_not_fresh hfresh replies)

/-- A recovery that fails changes nothing; one that succeeds has read the whole journal. -/
theorem recoverFromJournal_cases (replies : Replies) (b : CanonicalEventBackbone) :
    (∃ error, recoverFromJournal broker replies b = (.error error, b)) ∨
      ∃ records, journalRecords broker replies b = .ok records ∧ recoverFromJournal broker replies b =
        (.ok (), { b with seenIdempotencyKeys := seenOf records, lastSequence := lastOf records, recovered := true }) := by
  unfold recoverFromJournal command refuseIf
  cases replies.earliest with
  | some fault => exact .inl ⟨_, rfl⟩
  | none =>
    cases replies.latest with
    | some fault => exact .inl ⟨_, rfl⟩
    | none =>
      cases replies.samePartitions with
      | false => exact .inl ⟨_, rfl⟩
      | true =>
        cases hrecords : journalRecords broker replies b with
        | error error =>
          refine .inl ⟨error, ?_⟩
          simp [hrecords]
        | ok records =>
          refine .inr ⟨records, rfl, ?_⟩
          simp [hrecords]

/-! ## The invariant -/

/-- The cache holds the keys of the written envelopes, and watermarks no lower than their sequences. -/
def Covers (b : CanonicalEventBackbone) (written : List CanonicalIngestionEnvelope) : Prop :=
  ∀ e ∈ written, (e.governedContextDigest, e.idempotencyKey) ∈ b.seenIdempotencyKeys ∧
    ∃ last, b.lastSequence.get? (e.governedContextDigest, e.aggregateRef) = some last ∧ e.sequence.value ≤ last

/-- The envelopes have distinct keys and growing sequences. -/
def Increasing (written : List CanonicalIngestionEnvelope) : Prop :=
  written.Pairwise fun a b =>
    (a.governedContextDigest, a.idempotencyKey) ≠ (b.governedContextDigest, b.idempotencyKey) ∧
      ((a.governedContextDigest, a.aggregateRef) = (b.governedContextDigest, b.aggregateRef) →
        a.sequence.value < b.sequence.value)

/-- The journal holds keyed envelopes with distinct keys and growing sequences, and a recovered cache covers them. -/
structure Journaled (b : CanonicalEventBackbone) (written : List CanonicalIngestionEnvelope) : Prop where
  holds : Holds written b.topic
  keyed : ∀ e ∈ written, Keyed e
  scalar : ∀ e ∈ written, NoSplitPair e.aggregateRef
  increasing : Increasing written
  covers : b.recovered = true → Covers b written

theorem Journaled.of_sameCache {b b' : CanonicalEventBackbone} {written : List CanonicalIngestionEnvelope}
    (h : Journaled b written) (hsame : SameCache b b') : Journaled b' written := by
  refine ⟨by rw [hsame.topic]; exact h.holds, h.keyed, h.scalar, h.increasing, ?_⟩
  intro hrecovered
  have hcovers := h.covers (by rw [← hsame.recovered]; exact hrecovered)
  unfold Covers at hcovers ⊢
  rw [hsame.seen, hsame.last]
  exact hcovers

/-! ## Recovery covers the journal -/

/-- The watermarks after the records: none is lowered, and each record's sequence is reached. -/
theorem lastOf_covers (records : List DeliveredRecord) (start : Dict (PyStr × PyStr) ℤ) :
    let result := records.foldl (fun last r =>
      let key := (r.envelope.governedContextDigest, r.envelope.aggregateRef)
      let sequence := r.envelope.sequence.value
      last.set key (max sequence ((last.get? key).getD sequence))) start
    (∀ key m, start.get? key = some m → ∃ m', result.get? key = some m' ∧ m ≤ m') ∧
      ∀ r ∈ records, ∃ m, result.get? (r.envelope.governedContextDigest, r.envelope.aggregateRef) = some m ∧
        r.envelope.sequence.value ≤ m := by
  induction records generalizing start with
  | nil =>
    intro result
    exact ⟨fun key m h => ⟨m, h, le_refl m⟩, by simp⟩
  | cons r records ih =>
    intro result
    obtain ⟨hkeep, hreach⟩ := ih (start.set (r.envelope.governedContextDigest, r.envelope.aggregateRef)
      (max r.envelope.sequence.value ((start.get? (r.envelope.governedContextDigest, r.envelope.aggregateRef)).getD
        r.envelope.sequence.value)))
    refine ⟨?_, ?_⟩
    · intro key m hm
      by_cases hkey : (r.envelope.governedContextDigest, r.envelope.aggregateRef) = key
      · obtain ⟨m', hm', hle⟩ := hkeep key _ (by rw [hkey]; exact Dict.get?_set_self _ _ _)
        rw [hm, Option.getD_some] at hle
        exact ⟨m', hm', le_trans (le_max_right _ _) hle⟩
      · exact hkeep key m (by rw [Dict.get?_set_of_ne _ _ hkey]; exact hm)
    · intro s hs
      rcases List.mem_cons.mp hs with rfl | hs
      · obtain ⟨m', hm', hle⟩ := hkeep _ _ (Dict.get?_set_self _ _ _)
        exact ⟨m', hm', le_trans (le_max_left _ _) hle⟩
      · exact hreach s hs

theorem journalRecords_all {b : CanonicalEventBackbone} {written : List CanonicalIngestionEnvelope}
    (h : Holds written b.topic) {replies : Replies} {records : List DeliveredRecord}
    (hread : journalRecords broker replies b = .ok records) :
    ∀ e ∈ written, e.reread ∈ records.map DeliveredRecord.envelope := by
  unfold journalRecords at hread
  split_ifs at hread with hempty
  · have hnil : written = [] := by
      rw [← List.length_eq_zero_iff, h.length_eq]
      exact hempty
    simp [hnil]
  · split at hread
    · cases hread
    · split at hread
      · next hconsume =>
        cases hread
        exact consume_output broker h hconsume
      · cases hread

theorem Journaled.recover {b : CanonicalEventBackbone} {written : List CanonicalIngestionEnvelope}
    (h : Journaled b written) {replies : Replies} {records : List DeliveredRecord}
    (hread : journalRecords broker replies b = .ok records) :
    Journaled { b with seenIdempotencyKeys := seenOf records, lastSequence := lastOf records, recovered := true }
      written := by
  refine ⟨h.holds, h.keyed, h.scalar, h.increasing, ?_⟩
  intro _ e he
  obtain ⟨r, hr, henvelope⟩ := List.mem_map.mp (journalRecords_all broker h.holds hread e he)
  have hcontext : r.envelope.governedContextDigest = e.governedContextDigest := by
    rw [henvelope]
    exact (rejoin_eq_self_iff _).mpr (h.keyed e he).1
  have hkey : r.envelope.idempotencyKey = e.idempotencyKey := by
    rw [henvelope]
    exact (rejoin_eq_self_iff _).mpr (h.keyed e he).2
  have haggregate : r.envelope.aggregateRef = e.aggregateRef := by
    rw [henvelope]
    exact (rejoin_eq_self_iff _).mpr (h.scalar e he)
  have hsequence : r.envelope.sequence = e.sequence := by
    rw [henvelope]
    rfl
  refine ⟨List.mem_map.mpr ⟨r, hr, by rw [hcontext, hkey]⟩, ?_⟩
  obtain ⟨m, hm, hle⟩ := (lastOf_covers records .empty).2 r hr
  rw [hcontext, haggregate] at hm
  rw [hsequence] at hle
  exact ⟨m, hm, hle⟩

theorem ensureRecovered_cases {b : CanonicalEventBackbone} {written : List CanonicalIngestionEnvelope}
    (h : Journaled b written) (replies : Replies) :
    (∃ error, ensureRecovered broker replies b = (.error error, b)) ∨
      ∃ b', ensureRecovered broker replies b = (.ok (), b') ∧ Journaled b' written ∧ Covers b' written := by
  unfold ensureRecovered
  rw [Op.read_bind]
  by_cases hrecovered : b.recovered = true
  · rw [if_pos hrecovered]
    exact .inr ⟨b, rfl, h, h.covers hrecovered⟩
  · rw [if_neg hrecovered]
    rcases recoverFromJournal_cases broker replies b with hfail | ⟨records, hread, heq⟩
    · exact .inl hfail
    · have h' := h.recover broker hread
      exact .inr ⟨_, heq, h', h'.covers rfl⟩

/-! ## A write -/

theorem Holds.snoc {written : List CanonicalIngestionEnvelope} {topic : List TopicRecord} (h : Holds written topic)
    {e : CanonicalIngestionEnvelope} {r : TopicRecord} (hr : RecordOf e r) : Holds (written ++ [e]) (topic ++ [r]) :=
  List.rel_append h (.cons hr .nil)

theorem Increasing.snoc {b : CanonicalEventBackbone} {written : List CanonicalIngestionEnvelope}
    {e : CanonicalIngestionEnvelope} (h : Increasing written) (hcovers : Covers b written) (hfresh : Fresh b e) :
    Increasing (written ++ [e]) := by
  unfold Increasing
  rw [List.pairwise_append]
  refine ⟨h, List.pairwise_singleton _ _, ?_⟩
  intro a ha e' he'
  rw [List.mem_singleton] at he'
  subst he'
  obtain ⟨hseen, last, hlast, hle⟩ := hcovers a ha
  refine ⟨?_, ?_⟩
  · intro heq
    rw [heq] at hseen
    exact hfresh.1 hseen
  · intro heq
    rw [heq] at hlast
    exact lt_of_le_of_lt hle (hfresh.2 last hlast)

theorem Journaled.write {b : CanonicalEventBackbone} {written : List CanonicalIngestionEnvelope}
    (h : Journaled b written) (hcovers : Covers b written) {e : CanonicalIngestionEnvelope} {r : TopicRecord}
    (hfresh : Fresh b e) (hkeyed : Keyed e) (hscalar : Scalar e.aggregateRef) (hr : RecordOf e r)
    {outcome : ProducerOutcome} (houtcome : outcome ≠ .failed .timeout true) :
    ∃ written', Journaled (afterWrite b e r outcome) written' := by
  have hall : ∀ {P : CanonicalIngestionEnvelope → Prop}, (∀ a ∈ written, P a) → P e → ∀ a ∈ written ++ [e], P a := by
    intro P hw he a ha
    rcases List.mem_append.mp ha with ha | ha
    · exact hw a ha
    · rwa [List.mem_singleton.mp ha]
  have hnew : ∀ b' : CanonicalEventBackbone, b'.topic = b.topic ++ [r] →
      (b'.recovered = true → Covers b' (written ++ [e])) → Journaled b' (written ++ [e]) := by
    intro b' htopic hb'
    refine ⟨by rw [htopic]; exact h.holds.snoc hr, hall h.keyed hkeyed, hall h.scalar (noSplitPair_of_scalar hscalar),
      h.increasing.snoc hcovers hfresh, hb'⟩
  cases outcome with
  | succeeded =>
    refine ⟨written ++ [e], hnew _ rfl fun _ => hall ?_ ?_⟩
    · intro a ha
      obtain ⟨hseen, last, hlast, hle⟩ := hcovers a ha
      refine ⟨List.mem_append_left _ hseen, ?_⟩
      by_cases heq : (e.governedContextDigest, e.aggregateRef) = (a.governedContextDigest, a.aggregateRef)
      · refine ⟨e.sequence.value, by rw [← heq]; exact Dict.get?_set_self _ _ _, ?_⟩
        rw [← heq] at hlast
        exact le_trans hle (hfresh.2 last hlast).le
      · exact ⟨last, by rw [← hlast]; exact Dict.get?_set_of_ne _ _ heq, hle⟩
    · exact ⟨List.mem_append_right _ (List.mem_singleton.mpr rfl), e.sequence.value, Dict.get?_set_self _ _ _, le_refl _⟩
  | failed fault appended =>
    cases appended with
    | true =>
      cases fault with
      | exit => exact ⟨written ++ [e], hnew _ rfl fun hrecovered => by cases hrecovered⟩
      | timeout => exact absurd rfl houtcome
    | false =>
      refine ⟨written, h.holds, h.keyed, h.scalar, h.increasing, ?_⟩
      intro _
      exact hcovers

/-! ## Runs -/

/-- A call on the active instance, or a restart: a new instance of the same topic. -/
inductive Call
  | publish (envelope : CanonicalIngestionEnvelope) (replies : Replies)
  | publishFromMapping (raw : List (MappingKey × PyValue)) (replies : Replies)
  | restart

def step (b : CanonicalEventBackbone) : Call → CanonicalEventBackbone
  | .publish envelope replies => (publish broker envelope replies b).2
  | .publishFromMapping raw replies => (publishFromMapping broker raw replies b).2
  | .restart => { topic := b.topic }

/-- What is asked of the envelope of a call and of its producer command. -/
def Sound (e : CanonicalIngestionEnvelope) (replies : Replies) : Prop :=
  Carries e.aggregateRef ∧ Keyed e ∧ replies.produced ≠ .failed .timeout true

instance (e : CanonicalIngestionEnvelope) (replies : Replies) : Decidable (Sound e replies) :=
  inferInstanceAs (Decidable (_ ∧ _))

def Call.Sound : Call → Prop
  | .publish envelope replies => Events.Sound envelope replies
  | .publishFromMapping raw replies =>
    ∀ e, CanonicalIngestionEnvelope.fromMapping (.mapping raw) = .ok e → Events.Sound e replies
  | .restart => True

theorem journaled_publish {b : CanonicalEventBackbone} {written : List CanonicalIngestionEnvelope}
    (h : Journaled b written) {e : CanonicalIngestionEnvelope} {replies : Replies} (hsound : Sound e replies) :
    ∃ written', Journaled (publish broker e replies b).2 written' := by
  obtain ⟨hcarries, hkeyed, houtcome⟩ := hsound
  unfold publish
  by_cases hschema : e.schemaRef ∉ registeredSchemas
  · simp only [if_pos hschema]
    exact ⟨written, h.of_sameCache ⟨rfl, rfl, rfl, rfl⟩⟩
  · simp only [if_neg hschema]
    by_cases hcontext : e.governedContextDigest = []
    · simp only [if_pos hcontext]
      exact ⟨written, h.of_sameCache ⟨rfl, rfl, rfl, rfl⟩⟩
    · simp only [if_neg hcontext]
      show ∃ written', Journaled (publishLocked broker e replies b).2 written'
      unfold publishLocked
      rcases ensureRecovered_cases broker h replies with ⟨error, hfail⟩ | ⟨b', hready, h', hcovers⟩
      · rw [Op.bind_of_error hfail]
        exact ⟨written, h⟩
      · rw [Op.bind_of_ok hready]
        rcases publishRecovered_cases hcarries replies b' with hsame | ⟨hfresh, hscalar, r, hr, heq⟩
        · exact ⟨written, h'.of_sameCache hsame⟩
        · rw [heq]
          exact h'.write hcovers hfresh hkeyed hscalar hr houtcome

theorem journaled_step (b : CanonicalEventBackbone) (call : Call) (h : ∃ written, Journaled b written)
    (hsound : call.Sound) : ∃ written, Journaled (step broker b call) written := by
  obtain ⟨written, h⟩ := h
  cases call with
  | publish e replies => exact journaled_publish broker h hsound
  | publishFromMapping raw replies =>
    simp only [step, publishFromMapping]
    cases henvelope : CanonicalIngestionEnvelope.fromMapping (.mapping raw) with
    | ok e => exact journaled_publish broker h (hsound e henvelope)
    | error error =>
      cases error with
      | backbone reasonCode message args => exact ⟨written, h.of_sameCache ⟨rfl, rfl, rfl, rfl⟩⟩
      | kafka message args => exact ⟨written, h⟩
      | operations reasonCode message args => exact ⟨written, h⟩
      | timeoutExpired => exact ⟨written, h⟩
      | builtin error => exact ⟨written, h⟩
  | restart => exact ⟨written, h.holds, h.keyed, h.scalar, h.increasing, fun hrecovered => by cases hrecovered⟩

theorem Journaled.uniqueAndOrdered {b : CanonicalEventBackbone} {written : List CanonicalIngestionEnvelope}
    (h : Journaled b written) : UniqueAndOrdered b.topic := by
  obtain ⟨hholds, hkeyed, hscalar, hincreasing, -⟩ := h
  unfold UniqueAndOrdered
  have hmem : ∀ {written' : List CanonicalIngestionEnvelope} {topic' : List TopicRecord}, Holds written' topic' →
      ∀ s ∈ topic', ∃ e ∈ written', RecordOf e s := by
    intro written' topic' h s hs
    obtain ⟨index, hindex⟩ := List.mem_iff_getElem?.mp hs
    obtain ⟨e, he, hrec⟩ := h.recordOf hindex
    exact ⟨e, List.mem_of_getElem? he, hrec⟩
  have hfields : ∀ {e : CanonicalIngestionEnvelope} {r : TopicRecord}, RecordOf e r → e ∈ written →
      r.context = e.governedContextDigest ∧ r.idempotencyKey = e.idempotencyKey ∧
        r.aggregateRef = e.aggregateRef ∧ r.sequence = e.sequence.value := by
    intro e r hr he
    refine ⟨?_, ?_, ?_, hr.sequence⟩
    · rw [hr.context, (rejoin_eq_self_iff _).mpr (hkeyed e he).1]
    · rw [hr.idempotencyKey, (rejoin_eq_self_iff _).mpr (hkeyed e he).2]
    · rw [hr.aggregateRef, (rejoin_eq_self_iff _).mpr (hscalar e he)]
  generalize b.topic = topic at hholds
  clear hkeyed hscalar
  induction hholds with
  | nil => exact List.Pairwise.nil
  | cons hr hrest ih =>
    obtain ⟨hfirst, hlater⟩ := List.pairwise_cons.mp hincreasing
    refine List.Pairwise.cons ?_ (ih hlater fun hr he => hfields hr (List.mem_cons_of_mem _ he))
    intro s hs
    obtain ⟨e, he, hrec⟩ := hmem hrest s hs
    obtain ⟨c1, k1, a1, s1⟩ := hfields hr (List.mem_cons_self ..)
    obtain ⟨c2, k2, a2, s2⟩ := hfields hrec (List.mem_cons_of_mem _ he)
    rw [c1, k1, a1, s1, c2, k2, a2, s2]
    exact hfirst e he

/-- **Uniqueness and order of the journal.** Over every run of publishes, with any answers of the broker, and of
restarts, in which no producer command times out after its append, the journal holds no two records of one context
and idempotency key, and the sequences of each aggregate of a context strictly grow. -/
theorem journal_unique_and_ordered (initialized : Bool) (calls : List Call) (h : ∀ call ∈ calls, call.Sound) :
    UniqueAndOrdered (run (step broker) { recovered := initialized } calls).topic := by
  have hstart : ∃ written, Journaled { recovered := initialized } written :=
    ⟨[], .nil, by simp, by simp, List.Pairwise.nil, fun _ => by simp [Covers]⟩
  obtain ⟨written, hrun⟩ := run_induction_of (P := fun _ call => call.Sound)
    (fun b call hb hsound => journaled_step broker b call hb hsound) hstart
    (allSteps_of_forall (fun call hcall _ => h call hcall) _)
  exact hrun.uniqueAndOrdered

/-! ## A lost acknowledgement -/

def sampleEnvelope (sequence : ℤ) (key : PyStr) : CanonicalIngestionEnvelope where
  eventId := py "e"
  eventType := py "t"
  eventVersion := py "1"
  schemaRef := py "urn:ocor:schema:canonical-ingestion-envelope:1"
  producerPrincipal := py "p"
  sourceRef := py "s"
  aggregateRef := py "a"
  correlationId := py "c"
  causationId := py "c"
  classificationMarkingRef := py "m"
  governedContextDigest := py "g"
  idempotencyKey := key
  sequence := .int sequence
  payload := .empty

/-- Answers of a call whose producer command ends as given, with the first two records delivered to a recovery. -/
def sampleReplies (produced : ProducerOutcome) : Replies where
  delivered := some ⟨[0, 1], by decide⟩
  produced := produced

/-- An event written by a failed command, recovered, published again, and followed by another. -/
theorem journal_unique_and_ordered_retried :
    let calls : List Call := [.publish (sampleEnvelope 1 (py "k")) (sampleReplies (.failed .exit true)),
      .publish (sampleEnvelope 1 (py "k")) (sampleReplies .succeeded), .restart,
      .publish (sampleEnvelope 2 (py "l")) (sampleReplies .succeeded)]
    let topic := (run (step ⟨fun _ => 0⟩) { recovered := true } calls).topic
    UniqueAndOrdered topic := by
  intro calls topic
  refine journal_unique_and_ordered ⟨fun _ => 0⟩ true calls ?_
  have hsound : ∀ sequence key outcome, NoSplitPair key → outcome ≠ .failed .timeout true →
      Sound (sampleEnvelope sequence key) (sampleReplies outcome) := by
    intro sequence key outcome hkey houtcome
    have hcarries : Carries (py "a") := by decide
    have hcontext : NoSplitPair (py "g") := by decide
    exact ⟨hcarries, ⟨hcontext, hkey⟩, houtcome⟩
  have hk : NoSplitPair (py "k") := by decide
  have hl : NoSplitPair (py "l") := by decide
  simp only [calls, List.forall_mem_cons, List.not_mem_nil, false_imp_iff, implies_true, and_true]
  exact ⟨hsound _ _ _ hk (by decide), hsound _ _ _ hk (by decide), trivial, hsound _ _ _ hl (by decide)⟩

theorem sample_line : ∃ line, lineOf (sampleEnvelope 1 (py "k")) = .ok line ∧ Scalar (line ++ [newline]) := by
  have h : ((lineOf (sampleEnvelope 1 (py "k"))).toOption.any fun line => decide (Scalar (line ++ [newline]))) = true := by
    decide
  cases hline : lineOf (sampleEnvelope 1 (py "k")) with
  | error error =>
    rw [hline] at h
    cases h
  | ok line =>
    rw [hline] at h
    exact ⟨line, rfl, of_decide_eq_true h⟩

theorem sample_written {b : CanonicalEventBackbone} (hrecovered : b.recovered = true)
    (hfresh : Fresh b (sampleEnvelope 1 (py "k"))) (produced : ProducerOutcome) :
    ∃ r, RecordOf (sampleEnvelope 1 (py "k")) r ∧
      step broker b (.publish (sampleEnvelope 1 (py "k")) (sampleReplies produced)) =
        afterWrite b (sampleEnvelope 1 (py "k")) r produced := by
  obtain ⟨line, hline, hscalar⟩ := sample_line
  obtain ⟨r, hr, hwrite⟩ := publishRecovered_writes hfresh (by decide) hline hscalar (sampleReplies produced)
  refine ⟨r, hr, ?_⟩
  have hwrite : (publishRecovered (sampleEnvelope 1 (py "k")) (sampleReplies produced) b).2 =
      afterWrite b (sampleEnvelope 1 (py "k")) r produced := hwrite
  rw [← hwrite]
  have hschema : (sampleEnvelope 1 (py "k")).schemaRef ∈ registeredSchemas := by decide
  have hcontext : (sampleEnvelope 1 (py "k")).governedContextDigest ≠ [] := by decide
  have hready : ensureRecovered broker (sampleReplies produced) b = (.ok (), b) := by
    unfold ensureRecovered
    rw [Op.read_bind]
    simp only [hrecovered, if_true]
    rfl
  simp only [step, publish, if_neg (not_not.mpr hschema), if_neg hcontext]
  show (publishLocked broker _ _ b).2 = _
  unfold publishLocked
  rw [Op.bind_of_ok hready]

/-- A producer command that times out after its append leaves the cache as it was, and the retry is written again. -/
theorem timed_out_write_is_repeated :
    ¬ UniqueAndOrdered (run (step ⟨fun _ => 0⟩) { recovered := true }
      [.publish (sampleEnvelope 1 (py "k")) (sampleReplies (.failed .timeout true)),
        .publish (sampleEnvelope 1 (py "k")) (sampleReplies .succeeded)]).topic := by
  obtain ⟨r, hr, hfirst⟩ := sample_written ⟨fun _ => 0⟩ (b := { recovered := true }) rfl
    ⟨by simp, by simp [Dict.get?, Dict.empty, Dict.find]⟩ (.failed .timeout true)
  obtain ⟨s, hs, hsecond⟩ := sample_written ⟨fun _ => 0⟩ (b := { recovered := true, topic := [r] }) rfl
    ⟨by simp, by simp [Dict.get?, Dict.empty, Dict.find]⟩ .succeeded
  have htopic : (run (step ⟨fun _ => 0⟩) { recovered := true }
      [.publish (sampleEnvelope 1 (py "k")) (sampleReplies (.failed .timeout true)),
        .publish (sampleEnvelope 1 (py "k")) (sampleReplies .succeeded)]).topic = [r, s] := by
    have hstate : afterWrite { recovered := true } (sampleEnvelope 1 (py "k")) r (.failed .timeout true) =
        { recovered := true, topic := [r] } := rfl
    rw [run, List.foldl_cons, hfirst, hstate, List.foldl_cons, hsecond]
    rfl
  rw [htopic]
  intro h
  obtain ⟨h, -⟩ := List.pairwise_cons.mp h
  exact (h s (List.mem_singleton_self s)).1 (by rw [hr.context, hs.context, hr.idempotencyKey, hs.idempotencyKey])

end OcorRuntime.Events

import OcorRuntime.Canonical.StandardRoundTrip
import OcorRuntime.Events.Envelope

/-! An envelope written as JSON and read again. `from_mapping` takes back what `to_mapping` wrote exactly if
every text field is non-empty and the sequence is a non-negative integer that is no boolean; the texts then
come back with their surrogates joined. -/
namespace OcorRuntime.Events
open StandardJson Canonical
set_option autoImplicit false
set_option maxHeartbeats 250000
set_option maxRecDepth 120000

/-! ## Objects read back -/

/-- The members an object is read back with. -/
def rereadEntries (es : List (MappingKey × PyValue)) : List (MappingKey × PyValue) :=
  ((sortedMembers es).map fun m => (rejoin m.1, reread m.2)).foldl (fun es pair => Dict.put (.str pair.1) pair.2 es) []

theorem reread_object (es : List (MappingKey × PyValue)) : reread (.mapping es) = .mapping (rereadEntries es) :=
  reread_mapping es

/-- `dict(pairs)` maps each key to the value of its last pair. -/
theorem find_foldl_put (pairs : List (PyStr × PyValue)) (acc : List (MappingKey × PyValue)) (k : PyStr) :
    Dict.find (pairs.foldl (fun es pair => Dict.put (.str pair.1) pair.2 es) acc) (.str k) =
      (Dict.find pairs.reverse k).or (Dict.find acc (.str k)) := by
  have happend : ∀ (l : List (PyStr × PyValue)) (p : PyStr × PyValue),
      Dict.find (l ++ [p]) k = (Dict.find l k).or (if p.1 = k then some p.2 else none) := by
    intro l p
    induction l with
    | nil => simp [Dict.find]
    | cons q l ih =>
      rw [List.cons_append, Dict.find, Dict.find]
      by_cases hq : q.1 = k
      · rw [if_pos hq, if_pos hq]
        rfl
      · rw [if_neg hq, if_neg hq, ih]
  induction pairs generalizing acc with
  | nil => rfl
  | cons p pairs ih =>
    rw [List.foldl_cons, ih, List.reverse_cons, happend, Dict.find_put]
    simp only [MappingKey.str.injEq]
    cases Dict.find pairs.reverse k with
    | some v => rfl
    | none => split_ifs <;> rfl

theorem rereadEntries_nodup (es : List (MappingKey × PyValue)) : ((rereadEntries es).map Prod.fst).Nodup :=
  Dict.nodup_foldl_put _ _ _ List.nodup_nil

/-- The keys are texts that come back as they are. -/
def PlainKeys (es : List (MappingKey × PyValue)) : Prop := ∀ e ∈ es, ∃ k, e.1 = .str k ∧ NoSplitPair k

theorem sortedMembers_keys_nodup {es : List (MappingKey × PyValue)} (hkeys : PlainKeys es)
    (hnd : (es.map Prod.fst).Nodup) : ((sortedMembers es).map Prod.fst).Nodup := by
  unfold sortedMembers
  rw [((List.perm_insertionSort MemberLe _).map Prod.fst).nodup_iff, List.map_map]
  refine List.Nodup.of_map MappingKey.str ?_
  rw [List.map_map]
  convert hnd using 1
  apply List.map_congr_left
  intro e he
  obtain ⟨k, hk, -⟩ := hkeys e he
  simp [hk, keyText]

theorem find_rereadEntries {es : List (MappingKey × PyValue)} (hkeys : PlainKeys es) (hnd : (es.map Prod.fst).Nodup)
    (k : PyStr) : Dict.find (rereadEntries es) (.str k) = (Dict.find es (.str k)).map reread := by
  have hplain : ((sortedMembers es).map fun m => (rejoin m.1, reread m.2)) =
      (sortedMembers es).map fun m => (m.1, reread m.2) := by
    apply List.map_congr_left
    intro m hm
    obtain ⟨e, he, rfl⟩ := mem_sortedMembers.1 hm
    obtain ⟨j, hj, hsplit⟩ := hkeys e he
    rw [hj, keyText, (rejoin_eq_self_iff j).mpr hsplit]
  have hpairs : (((sortedMembers es).map fun m => (m.1, reread m.2)).reverse.map Prod.fst).Nodup := by
    rw [List.map_reverse, List.nodup_reverse, List.map_map]
    exact sortedMembers_keys_nodup hkeys hnd
  unfold rereadEntries
  rw [hplain, find_foldl_put]
  simp only [Dict.find, Option.or_none]
  ext w
  rw [Dict.find_eq_some_iff hpairs, Option.map_eq_some_iff, List.mem_reverse, List.mem_map]
  constructor
  · rintro ⟨m, hm, heq⟩
    obtain ⟨e, he, rfl⟩ := mem_sortedMembers.1 hm
    obtain ⟨j, hj, -⟩ := hkeys e he
    obtain ⟨key, value⟩ := e
    subst hj
    cases heq
    exact ⟨value, (Dict.find_eq_some_iff hnd _ _).mpr he, rfl⟩
  · rintro ⟨v, hv, rfl⟩
    exact ⟨(k, v), mem_sortedMembers.2 ⟨_, (Dict.find_eq_some_iff hnd _ _).mp hv, rfl⟩, rfl⟩

/-! ## Envelopes read back -/

namespace CanonicalIngestionEnvelope

/-- The members `to_mapping` gives. -/
def fields (e : CanonicalIngestionEnvelope) : List (MappingKey × PyValue) :=
  (e.texts.map fun field => (.str field.1, .str field.2)) ++
    [(.str (py "sequence"), e.sequence.toValue), (.str (py "payload"), .mapping e.payload.entries)]

theorem toMapping_eq (e : CanonicalIngestionEnvelope) : e.toMapping = .mapping e.fields := rfl

theorem fields_keys (e : CanonicalIngestionEnvelope) : e.fields.map Prod.fst = requiredFields.map MappingKey.str := rfl

theorem fields_nodup (e : CanonicalIngestionEnvelope) : (e.fields.map Prod.fst).Nodup := by
  rw [fields_keys]
  decide

theorem fields_plain (e : CanonicalIngestionEnvelope) : PlainKeys e.fields := by
  have hall : ∀ k ∈ requiredFields, NoSplitPair k := by decide
  intro f hf
  have hkey := List.mem_map_of_mem (f := Prod.fst) hf
  rw [fields_keys] at hkey
  obtain ⟨k, hk, heq⟩ := List.mem_map.mp hkey
  exact ⟨k, heq.symm, hall k hk⟩

theorem find_text (e : CanonicalIngestionEnvelope) {field : PyStr × PyStr} (h : field ∈ e.texts) :
    Dict.find (rereadEntries e.fields) (.str field.1) = some (.str (rejoin field.2)) := by
  rw [find_rereadEntries e.fields_plain e.fields_nodup, (Dict.find_eq_some_iff e.fields_nodup _ (.str field.2)).mpr]
  · rw [Option.map_some, reread]
  · exact List.mem_append_left _ (List.mem_map.mpr ⟨field, h, rfl⟩)

theorem find_sequence (e : CanonicalIngestionEnvelope) :
    Dict.find (rereadEntries e.fields) (.str (py "sequence")) = some e.sequence.toValue := by
  rw [find_rereadEntries e.fields_plain e.fields_nodup, (Dict.find_eq_some_iff e.fields_nodup _ e.sequence.toValue).mpr]
  · cases e.sequence <;> simp [PyInt.toValue, reread]
  · exact List.mem_append_right _ (List.mem_cons_self ..)

theorem find_payload (e : CanonicalIngestionEnvelope) :
    Dict.find (rereadEntries e.fields) (.str (py "payload")) = some (.mapping (rereadEntries e.payload.entries)) := by
  rw [find_rereadEntries e.fields_plain e.fields_nodup,
    (Dict.find_eq_some_iff e.fields_nodup _ (.mapping e.payload.entries)).mpr]
  · rw [Option.map_some, reread_object]
  · exact List.mem_append_right _ (List.mem_cons_of_mem _ (List.mem_cons_self ..))

/-- What `from_mapping` demands of an envelope's fields. -/
def Valid (e : CanonicalIngestionEnvelope) : Prop :=
  (∀ field ∈ e.texts, field.2 ≠ []) ∧ ∃ n : ℕ, e.sequence = .int n

/-- The envelope its JSON text is read back as. -/
def reread (e : CanonicalIngestionEnvelope) : CanonicalIngestionEnvelope where
  eventId := rejoin e.eventId
  eventType := rejoin e.eventType
  eventVersion := rejoin e.eventVersion
  schemaRef := rejoin e.schemaRef
  producerPrincipal := rejoin e.producerPrincipal
  sourceRef := rejoin e.sourceRef
  aggregateRef := rejoin e.aggregateRef
  correlationId := rejoin e.correlationId
  causationId := rejoin e.causationId
  classificationMarkingRef := rejoin e.classificationMarkingRef
  governedContextDigest := rejoin e.governedContextDigest
  idempotencyKey := rejoin e.idempotencyKey
  sequence := e.sequence
  payload := ⟨rereadEntries e.payload.entries, rereadEntries_nodup _⟩

end CanonicalIngestionEnvelope

theorem rejoin_eq_nil {s : PyStr} : rejoin s = [] ↔ s = [] := by
  induction s using rejoin_induct with
  | nil => exact Iff.rfl
  | pair c d s hc hd _ => simp [rejoin_pair hc hd]
  | cons c s h _ => simp [rejoin_cons h]

theorem hasField_of_find {es : List (MappingKey × PyValue)} {field : PyStr} {v : PyValue}
    (h : Dict.find es (.str field) = some v) : hasField (.mapping es) field = .ok true := by
  have hany : (es.any fun e => decide (e.1 = .str field)) = true := by
    induction es with
    | nil => cases h
    | cons e es ih =>
      rw [Dict.find] at h
      split_ifs at h with he
      · simp [he]
      · simp [ih h]
  rw [hasField, hany]

theorem missingFields_nil {es : List (MappingKey × PyValue)} :
    ∀ {fields : List PyStr}, (∀ field ∈ fields, (Dict.find es (.str field)).isSome) →
      missingFields (.mapping es) fields = .ok []
  | [], _ => rfl
  | field :: fields, h => by
      obtain ⟨v, hv⟩ := Option.isSome_iff_exists.mp (h field (List.mem_cons_self ..))
      rw [missingFields, hasField_of_find hv, missingFields_nil fun f hf => h f (List.mem_cons_of_mem field hf)]
      rfl

theorem bind_ok_iff {α β : Type} {x : Except EventError α} {f : α → Except EventError β} {b : β} :
    x >>= f = .ok b ↔ ∃ a, x = .ok a ∧ f a = .ok b := by
  cases x <;> simp [bind, Except.bind]

theorem checkTexts_eq_ok {es : List (MappingKey × PyValue)} :
    ∀ {fields : List (PyStr × PyStr)}, (∀ f ∈ fields, Dict.find es (.str f.1) = some (.str f.2)) →
      (checkTexts (.mapping es) (fields.map Prod.fst) = .ok () ↔ ∀ f ∈ fields, f.2 ≠ [])
  | [], _ => by simp [checkTexts]
  | (name, text) :: fields, h => by
      have hname := h (name, text) (List.mem_cons_self ..)
      have ih := checkTexts_eq_ok fun f hf => h f (List.mem_cons_of_mem (name, text) hf)
      rw [List.map_cons, checkTexts, fieldOf, hname, List.forall_mem_cons, ← ih]
      cases text with
      | nil => simp [orRaise, bind, Except.bind]
      | cons c s => simp [orRaise, bind, Except.bind]

theorem foldl_set_entries (es : List (MappingKey × PyValue)) (d : Dict MappingKey PyValue)
    (hnd : ((d.entries ++ es).map Prod.fst).Nodup) :
    (es.foldl (fun d e => d.set e.1 e.2) d).entries = d.entries ++ es := by
  induction es generalizing d with
  | nil => simp
  | cons e es ih =>
    have hnew : e.1 ∉ d.entries.map Prod.fst := by
      rw [List.map_append, List.nodup_append] at hnd
      intro hmem
      exact hnd.2.2 e.1 hmem e.1 (by simp) rfl
    have hset : (d.set e.1 e.2).entries = d.entries ++ [e] := Dict.put_of_notMem hnew
    rw [List.foldl_cons, ih (d.set e.1 e.2) (by rw [hset]; simpa using hnd), hset, List.append_assoc]
    rfl

/-! ## Reading an envelope's own object -/

section Written
variable (e : CanonicalIngestionEnvelope)

theorem missingFields_written : missingFields (.mapping (rereadEntries e.fields)) requiredFields = .ok [] := by
  apply missingFields_nil
  intro field hfield
  have hkeys : requiredFields = e.texts.map Prod.fst ++ [py "sequence", py "payload"] := rfl
  rw [hkeys, List.mem_append, List.mem_map, List.mem_cons, List.mem_singleton] at hfield
  rcases hfield with ⟨f, hf, rfl⟩ | rfl | rfl
  · simp [e.find_text hf]
  · simp [e.find_sequence]
  · simp [e.find_payload]

theorem checkTexts_written : checkTexts (.mapping (rereadEntries e.fields)) textFields = .ok () ↔
    ∀ field ∈ e.texts, field.2 ≠ [] := by
  have hfind : ∀ f ∈ e.texts.map fun f => (f.1, rejoin f.2),
      Dict.find (rereadEntries e.fields) (.str f.1) = some (.str f.2) := by
    intro f hf
    obtain ⟨g, hg, rfl⟩ := List.mem_map.mp hf
    exact e.find_text hg
  have h := checkTexts_eq_ok hfind
  rw [List.map_map, show (e.texts.map (Prod.fst ∘ fun f => (f.1, rejoin f.2))) = textFields from rfl] at h
  simp only [h, List.forall_mem_map, ne_eq, rejoin_eq_nil]

theorem sequenceOf_written (q : PyInt) : sequenceOf (.mapping (rereadEntries e.fields)) = .ok q ↔
    (∃ n : ℕ, e.sequence = .int n) ∧ q = e.sequence := by
  rw [sequenceOf, fieldOf, e.find_sequence]
  cases e.sequence with
  | int n =>
    simp only [orRaise, PyInt.toValue, bind, Except.bind, refuseIf]
    by_cases hn : n < 0
    · rw [if_pos hn]
      simp only [reduceCtorEq, false_iff, not_and, forall_exists_index]
      intro m hm
      cases hm
      omega
    · have hnat : ∃ m : ℕ, PyInt.int n = .int m := ⟨n.toNat, by rw [Int.toNat_of_nonneg (by omega)]⟩
      rw [if_neg hn]
      simp only [hnat, true_and, pure, Except.pure, Except.ok.injEq]
      exact eq_comm
  | bool b => simp [orRaise, PyInt.toValue, bind, Except.bind]

theorem payloadOf_written : payloadOf (.mapping (rereadEntries e.fields)) = .ok e.reread.payload := by
  have hentries := foldl_set_entries (rereadEntries e.payload.entries) .empty
    (by simpa [Dict.empty] using rereadEntries_nodup e.payload.entries)
  have hext : ∀ a b : Dict MappingKey PyValue, a.entries = b.entries → a = b := by
    rintro ⟨_, _⟩ ⟨_, _⟩ rfl
    rfl
  rw [payloadOf, fieldOf, e.find_payload]
  simp only [orRaise, bind, Except.bind, pure, Except.pure, Except.ok.injEq]
  exact hext _ _ hentries

theorem textAt_written {name : String} {s : PyStr} (n : ℕ) (h : e.texts[n]? = some (py name, s)) :
    textAt (.mapping (rereadEntries e.fields)) name = rejoin s := by
  rw [textAt, fieldOf, e.find_text (List.mem_of_getElem? h)]
  rfl

end Written

/-- **What comes back of an envelope's JSON object.** -/
theorem fromMapping_reread {e e' : CanonicalIngestionEnvelope} :
    CanonicalIngestionEnvelope.fromMapping (StandardJson.reread e.toMapping) = .ok e' ↔ e.Valid ∧ e' = e.reread := by
  rw [e.toMapping_eq, reread_object, CanonicalIngestionEnvelope.fromMapping, missingFields_written,
    textAt_written e 0 rfl, textAt_written e 1 rfl, textAt_written e 2 rfl, textAt_written e 3 rfl,
    textAt_written e 4 rfl, textAt_written e 5 rfl, textAt_written e 6 rfl, textAt_written e 7 rfl,
    textAt_written e 8 rfl, textAt_written e 9 rfl, textAt_written e 10 rfl, textAt_written e 11 rfl]
  simp only [bind_ok_iff, payloadOf_written, Except.ok.injEq, exists_eq_left', refuseIf, ne_eq, not_true_eq_false,
    if_false, pure, Except.pure]
  unfold CanonicalIngestionEnvelope.Valid
  constructor
  · rintro ⟨-, -, _, hok, q, hq, rfl⟩
    obtain ⟨hn, rfl⟩ := (sequenceOf_written e q).mp hq
    exact ⟨⟨(checkTexts_written e).mp hok, hn⟩, rfl⟩
  · rintro ⟨⟨hne, hn⟩, rfl⟩
    exact ⟨(), trivial, (), (checkTexts_written e).mpr hne, e.sequence, (sequenceOf_written e _).mpr ⟨hn, rfl⟩, rfl⟩

end OcorRuntime.Events

import OcorRuntime.Temporal.ActionEffects
import OcorRuntime.Temporal.ContextReading

/-! What the sink sends for a record whose context is JSON, and what comes back of it: the payload determines the
record, it arrives with the context in normal form, and crossing again changes nothing. -/
namespace OcorRuntime.Temporal
open Events (JsonValue Unsplit)
open StandardJson hiding dumps dumpItems dumpEntries dumpMember MemberLe
open TemporalEffectSink
set_option autoImplicit false
set_option maxHeartbeats 250000
set_option maxRecDepth 120000

/-! ## The body as a JSON value -/

section Body
variable (record : PersistedEffect) (v : PyValue)

/-- The members of the body of a record with the context `v`. -/
def bodyMembers : List (MappingKey × PyValue) :=
  [(.str (py "transition_id"), .str record.transitionId), (.str (py "source"), .str record.source),
    (.str (py "destination"), .str record.destination), (.str (py "durable_effect"), .str record.durableEffect),
    (.str (py "occurred_at"), .str (stamp record.occurredAt.instant)),
    (.str (py "occurred_at_us"), .int record.occurredAt.instant),
    (.str (py "correlation_id"), .str record.correlationId), (.str (py "context"), v)]

/-- The body that is sent. -/
def sentBody (context : ContextValue) : EffectBody :=
  ⟨record.transitionId, record.source, record.destination, record.durableEffect, stamp record.occurredAt.instant,
    record.occurredAt.instant, record.correlationId, context⟩

theorem document_sentBody : (sentBody record (ofJson v)).document = ofJson (.mapping (bodyMembers record v)) := rfl

theorem bodyMembers_nodup : ((bodyMembers record v).map Prod.fst).Nodup := by
  have hkeys : (bodyMembers record v).map Prod.fst =
      ["transition_id", "source", "destination", "durable_effect", "occurred_at", "occurred_at_us", "correlation_id",
        "context"].map fun name => MappingKey.str (py name) := rfl
  rw [hkeys]
  decide

variable {v}

theorem jsonValue_body (hv : JsonValue v) : JsonValue (.mapping (bodyMembers record v)) := by
  refine .mapping ?_ (bodyMembers_nodup record v) ?_
  · intro e he
    simp only [bodyMembers, List.mem_cons, List.not_mem_nil, or_false] at he
    rcases he with rfl | rfl | rfl | rfl | rfl | rfl | rfl | rfl <;> exact ⟨_, rfl⟩
  · intro e he
    simp only [bodyMembers, List.mem_cons, List.not_mem_nil, or_false] at he
    rcases he with rfl | rfl | rfl | rfl | rfl | rfl | rfl | rfl
    · exact .str _
    · exact .str _
    · exact .str _
    · exact .str _
    · exact .str _
    · exact .int _
    · exact .str _
    · exact hv

end Body

theorem reread_member {es fs : List (MappingKey × PyValue)} (hes : JsonValue (.mapping es)) (hfs : JsonValue (.mapping fs))
    (hu : Unsplit (.mapping es)) (hu' : Unsplit (.mapping fs)) (h : reread (.mapping es) = reread (.mapping fs))
    {k : PyStr} {a b : PyValue} (ha : (.str k, a) ∈ es) (hb : (.str k, b) ∈ fs) : reread a = reread b := by
  cases hes with
  | mapping _ hnd _ =>
    cases hfs with
    | mapping _ hnd' _ =>
      cases hu with
      | mapping hplain _ =>
        cases hu' with
        | mapping hplain' _ =>
          rw [Events.reread_object, Events.reread_object, PyValue.mapping.injEq] at h
          have hfind := Events.find_rereadEntries hplain hnd k
          rw [h, Events.find_rereadEntries hplain' hnd', (Dict.find_eq_some_iff hnd _ _).mpr ha,
            (Dict.find_eq_some_iff hnd' _ _).mpr hb] at hfind
          exact (Option.some.inj hfind).symm

/-! ## Payloads -/

/-- The payload of a record with the JSON context `v`, whose canonical bytes are `raw`. -/
structure Sent (record : PersistedEffect) (v : PyValue) (raw : Bytes) (effect : Effect) : Prop where
  json : JsonValue v
  context : .mapping record.context = ofJson v
  canonical : canonicalBytes effect.record = .ok raw
  inRange : minWall ≤ record.occurredAt.instant ∧ record.occurredAt.instant ≤ maxWall
  body : effect.record = sentBody record (ofJson v)
  key : effect.idempotencyKey = record.transitionId ++ py "@" ++ intText record.occurredAt.instant
  digest : effect.digest = Sha256.hexdigest raw

section Payload
variable {record record' : PersistedEffect} {v v' : PyValue} {raw raw' : Bytes} {effect effect' : Effect}

theorem payload_eq_ok (h : payload record = .ok effect) :
    (minWall ≤ record.occurredAt.instant ∧ record.occurredAt.instant ≤ maxWall) ∧
      effect.record = sentBody record (.mapping record.context) ∧
      effect.idempotencyKey = record.transitionId ++ py "@" ++ intText record.occurredAt.instant ∧
      ∃ raw, canonicalBytes effect.record = .ok raw ∧ effect.digest = Sha256.hexdigest raw := by
  unfold payload bodyOf at h
  obtain ⟨body, hbody, h⟩ := bind_eq_ok.1 h
  obtain ⟨text, -, hbody⟩ := bind_eq_ok.1 hbody
  obtain ⟨hrange, hbody⟩ := check_bind_eq_ok.1 hbody
  rw [refuseIf_eq_ok, not_not] at hrange
  obtain ⟨raw, hraw, h⟩ := bind_eq_ok.1 h
  cases hbody
  cases h
  exact ⟨hrange, rfl, rfl, raw, hraw, rfl⟩

theorem exists_sent (hnative : JsonNative (.mapping record.context)) (h : payload record = .ok effect) :
    ∃ v raw, Sent record v raw effect := by
  obtain ⟨v, hv, hcontext⟩ := hnative
  obtain ⟨hrange, hbody, hkey, raw, hraw, hdigest⟩ := payload_eq_ok h
  exact ⟨v, raw, hv, hcontext, hraw, hrange, by rw [hbody, hcontext], hkey, hdigest⟩

theorem canonicalBytes_eq_ok (hbody : effect.record = sentBody record (ofJson v)) (hv : JsonValue v)
    (h : canonicalBytes effect.record = .ok raw) : ∃ text, UnicodeJson.dumps (.mapping (bodyMembers record v)) = .ok text ∧
      Scalar text ∧ utf8Encode text = raw := by
  unfold canonicalBytes at h
  obtain ⟨text, htext, h⟩ := bind_eq_ok.1 h
  rw [hbody, document_sentBody, dumps_unicode (jsonValue_body record hv)] at htext
  exact ⟨text, htext, UnicodeJson.encodeUtf8_eq_ok.1 h⟩

theorem Sent.text (h : Sent record v raw effect) : ∃ text, UnicodeJson.dumps (.mapping (bodyMembers record v)) = .ok text ∧
    Scalar text ∧ utf8Encode text = raw :=
  canonicalBytes_eq_ok h.body h.json h.canonical

theorem Sent.unsplit (h : Sent record v raw effect) : Unsplit (.mapping (bodyMembers record v)) := by
  obtain ⟨text, htext, hscalar, -⟩ := h.text
  exact Scenario.unsplit_of_dumps (jsonValue_body record h.json) text htext hscalar

theorem Sent.unsplit_member (h : Sent record v raw effect) {key : MappingKey} {a : PyValue}
    (ha : (key, a) ∈ bodyMembers record v) : Unsplit a := by
  cases h.unsplit with
  | mapping _ members => exact members _ ha

theorem context_mem (record : PersistedEffect) (v : PyValue) :
    (MappingKey.str (py "context"), v) ∈ bodyMembers record v := by simp [bodyMembers]

theorem Sent.contextText (h : Sent record v raw effect) : ∃ text, UnicodeJson.dumps v = .ok text := by
  obtain ⟨text, htext, -⟩ := h.text
  obtain ⟨-, texts, htexts, -⟩ := UnicodeJson.dumps_mapping_eq_ok htext
  obtain ⟨t, ht, -⟩ := Scenario.dumpMembers_mem htexts _ (mem_sortedMembers.2 ⟨_, context_mem record v, rfl⟩)
  exact ⟨t, ht⟩

/-- Records with the same canonical bytes differ in their contexts only, and those have one normal form. -/
structure Alike (record record' : PersistedEffect) (v v' : PyValue) : Prop where
  transitionId : record.transitionId = record'.transitionId
  source : record.source = record'.source
  destination : record.destination = record'.destination
  durableEffect : record.durableEffect = record'.durableEffect
  instant : record.occurredAt.instant = record'.occurredAt.instant
  correlationId : record.correlationId = record'.correlationId
  context : reread v = reread v'

theorem Sent.alike (h : Sent record v raw effect) (h' : Sent record' v' raw effect') : Alike record record' v v' := by
  obtain ⟨text, htext, hscalar, hraw⟩ := h.text
  obtain ⟨text', htext', hscalar', hraw'⟩ := h'.text
  have hsame : text = text' := by
    have hdecoded := congrArg utf8Decode (hraw.trans hraw'.symm)
    rwa [utf8Decode_encode, utf8Decode_encode, Option.some.injEq] at hdecoded
  subst hsame
  have hread : reread (.mapping (bodyMembers record v)) = reread (.mapping (bodyMembers record' v')) :=
    Except.ok.inj ((UnicodeJson.loads_dumps htext hscalar).symm.trans (UnicodeJson.loads_dumps htext' hscalar'))
  have hmember : ∀ (name : String) (a b : PyValue), (MappingKey.str (py name), a) ∈ bodyMembers record v →
      (MappingKey.str (py name), b) ∈ bodyMembers record' v' → reread a = reread b :=
    fun _ _ _ ha hb => reread_member (jsonValue_body record h.json) (jsonValue_body record' h'.json) h.unsplit h'.unsplit
      hread ha hb
  have htextMember : ∀ (name : String) (s t : PyStr), (MappingKey.str (py name), .str s) ∈ bodyMembers record v →
      (MappingKey.str (py name), .str t) ∈ bodyMembers record' v' → s = t := by
    intro name s t hs ht
    have heq := hmember name _ _ hs ht
    rw [Scenario.reread_text (h.unsplit_member hs), Scenario.reread_text (h'.unsplit_member ht)] at heq
    exact PyValue.str.inj heq
  constructor
  · exact htextMember "transition_id" _ _ (by simp [bodyMembers]) (by simp [bodyMembers])
  · exact htextMember "source" _ _ (by simp [bodyMembers]) (by simp [bodyMembers])
  · exact htextMember "destination" _ _ (by simp [bodyMembers]) (by simp [bodyMembers])
  · exact htextMember "durable_effect" _ _ (by simp [bodyMembers]) (by simp [bodyMembers])
  · have hinstant := hmember "occurred_at_us" (.int record.occurredAt.instant)
      (.int record'.occurredAt.instant) (by simp [bodyMembers]) (by simp [bodyMembers])
    simpa [reread] using hinstant
  · exact htextMember "correlation_id" _ _ (by simp [bodyMembers]) (by simp [bodyMembers])
  · exact hmember "context" v v' (context_mem record v) (context_mem record' v')

/-- **Records with the same canonical bytes are equal.** -/
theorem Sent.pyEq (h : Sent record v raw effect) (h' : Sent record' v' raw effect') : record.pyEq record' = true := by
  have hsame := h.alike h'
  have hcontext := pyEq_of_reread_eq h.json (h.unsplit_member (context_mem record v)) v' h'.json
    (h'.unsplit_member (context_mem record' v')) hsame.context
  rw [PersistedEffect.pyEq, Bool.and_eq_true, decide_eq_true_eq, h.context, h'.context, pyEq_ofJson h.json v' h'.json]
  exact ⟨⟨hsame.transitionId, hsame.source, hsame.destination, hsame.durableEffect, hsame.instant,
    hsame.correlationId⟩, hcontext⟩

/-! ## Crossing -/

variable (converter : EffectConverter)

theorem carry_ofJson {text : PyStr} (hv : JsonValue v) (htext : UnicodeJson.dumps v = .ok text) :
    converter.carry (ofJson v) = ofJson (reread v) := by
  obtain ⟨ascii, hascii⟩ := Writer.transfer unicodeWriter asciiWriter hv text htext
  refine converter.reads _ ascii _ ?_ ?_
  · rw [dumps_ascii hv, hascii]
  · rw [loadsContext, StandardJson.loads_dumps hascii]
    rfl

theorem Sent.carry (h : Sent record v raw effect) : converter.carry (ofJson v) = ofJson (reread v) := by
  obtain ⟨text, htext⟩ := h.contextText
  exact carry_ofJson converter h.json htext

theorem Sent.carry_again (h : Sent record v raw effect) :
    converter.carry (ofJson (reread v)) = ofJson (reread v) := by
  obtain ⟨text, htext⟩ := h.contextText
  have hunsplit := h.unsplit_member (context_mem record v)
  rw [carry_ofJson converter (jsonValue_reread h.json hunsplit) (by rw [Scenario.dumps_reread h.json hunsplit, htext]),
    reread_reread h.json hunsplit]

/-- What is kept of a record: its payload, as it arrived. -/
structure Stored (record : PersistedEffect) (v : PyValue) (raw : Bytes) (kept : Effect) : Prop where
  sent : ∃ effect, Sent record v raw effect
  body : kept.record = sentBody record (ofJson (reread v))
  key : kept.idempotencyKey = record.transitionId ++ py "@" ++ intText record.occurredAt.instant
  digest : kept.digest = Sha256.hexdigest raw

theorem Sent.stored (h : Sent record v raw effect) : Stored record v raw (converter.carryEffect effect) where
  sent := ⟨effect, h⟩
  body := by
    rw [EffectConverter.carryEffect, h.body]
    dsimp only [sentBody]
    rw [h.carry converter]
  key := h.key
  digest := h.digest

theorem Stored.carried {kept : Effect} (h : Stored record v raw kept) :
    Stored record v raw (converter.carryEffect kept) where
  sent := h.sent
  body := by
    obtain ⟨effect, hsent⟩ := h.sent
    rw [EffectConverter.carryEffect, h.body]
    dsimp only [sentBody]
    rw [hsent.carry_again converter]
  key := h.key
  digest := h.digest

/-- What is kept of a record is what would be kept of another one with its bytes. -/
theorem Stored.of_sent {kept : Effect} (h : Stored record v raw kept) (h' : Sent record' v' raw effect') :
    Stored record' v' raw kept := by
  obtain ⟨effect, hsent⟩ := h.sent
  have hsame := hsent.alike h'
  constructor
  · exact ⟨effect', h'⟩
  · rw [h.body]
    simp only [sentBody, hsame.transitionId, hsame.source, hsame.destination, hsame.durableEffect, hsame.instant,
      hsame.correlationId, hsame.context]
  · rw [h.key, hsame.transitionId, hsame.instant]
  · exact h.digest

/-- **What is kept is read back equal.** -/
theorem Stored.restore {kept : Effect} (h : Stored record v raw kept) :
    ∃ read, restore (converter.carryEffect kept).record = .ok read ∧ record.pyEq read = true ∧
      read.correlationId = record.correlationId := by
  obtain ⟨effect, hsent⟩ := h.sent
  have hunsplit := hsent.unsplit_member (context_mem record v)
  have hbody := (h.carried converter).body
  have hequal : ContextValue.pyEq (.mapping record.context) (ofJson (reread v)) = true := by
    rw [hsent.context, pyEq_ofJson hsent.json _ (jsonValue_reread hsent.json hunsplit)]
    exact (Events.pyEq_reread hsent.json).mpr hunsplit
  obtain ⟨es, hes⟩ : ∃ es, ofJson (reread v) = .mapping es := by
    have hmapping := hsent.context
    have hjson := hsent.json
    cases hjson with
    | mapping _ _ _ => exact ⟨_, by rw [Events.reread_object, ofJson]⟩
    | _ => cases hmapping
  have hadd : (DateTime.utc 0).add record.occurredAt.instant = .ok (.utc record.occurredAt.instant) := by
    have hrange := hsent.inRange
    simp only [DateTime.add, DateTime.utc, zero_add]
    rw [if_pos hrange]
  refine ⟨⟨record.transitionId, record.source, record.destination, record.durableEffect, .utc record.occurredAt.instant,
    record.correlationId, es, trivial, record.correlated⟩, ?_, ?_, rfl⟩
  · unfold TemporalEffectSink.restore
    rw [hbody]
    dsimp only [sentBody]
    rw [hes, hadd]
    exact dif_pos record.correlated
  · rw [PersistedEffect.pyEq, Bool.and_eq_true, decide_eq_true_eq]
    rw [hes] at hequal
    exact ⟨⟨rfl, rfl, rfl, rfl, by simp [DateTime.instant, DateTime.utc], rfl⟩, hequal⟩

end Payload

/-! ## Keys -/

theorem at_notMem_intText (n : ℤ) : codePoint 0x40 ∉ intText n := by
  intro h
  rcases intText_chars n _ h with hdigit | hdash
  · exact absurd hdigit (by decide)
  · exact absurd hdash (by decide)

theorem key_injective {s t : PyStr} {m n : ℤ} (h : s ++ py "@" ++ intText m = t ++ py "@" ++ intText n) :
    s = t ∧ m = n := by
  have hat : py "@" = [codePoint 0x40] := rfl
  rw [hat, List.append_assoc, List.append_assoc, List.singleton_append, List.singleton_append] at h
  obtain ⟨htransition, hinstant⟩ := append_cons_inj_right (at_notMem_intText m) (at_notMem_intText n) h
  exact ⟨htransition, intText_injective hinstant⟩

end OcorRuntime.Temporal

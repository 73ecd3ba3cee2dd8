import OcorRuntime.Canonical.StandardReading
import OcorRuntime.Events.JournalRuns

/-! What is read back of a published envelope. The key is written in front of the JSON as it is, so a separator or
a line break in it moves the borders of the record; a field only the reader checks, or a split surrogate pair, is
lost on the way. Outside these the record comes back, and a topic of such envelopes is always recovered. -/
namespace OcorRuntime.Events
open StandardJson hiding bar
open Canonical
set_option autoImplicit false
set_option maxHeartbeats 250000
set_option maxRecDepth 120000

/-! ## Payloads -/

/-- A value of JSON: an object has texts as keys, each once, and a number is finite. -/
inductive JsonValue : PyValue → Prop
  | none : JsonValue .none
  | bool (b : Bool) : JsonValue (.bool b)
  | int (n : ℤ) : JsonValue (.int n)
  | float (x : FiniteFloat) : JsonValue (.float (.finite x))
  | str (s : PyStr) : JsonValue (.str s)
  | list {xs : List PyValue} (items : ∀ x ∈ xs, JsonValue x) : JsonValue (.list xs)
  | mapping {es : List (MappingKey × PyValue)} (keys : ∀ e ∈ es, ∃ k, e.1 = .str k) (nodup : (es.map Prod.fst).Nodup)
      (members : ∀ e ∈ es, JsonValue e.2) : JsonValue (.mapping es)

/-- No text in the value, key or not, has a high surrogate in front of a low one. -/
inductive Unsplit : PyValue → Prop
  | none : Unsplit .none
  | bool (b : Bool) : Unsplit (.bool b)
  | int (n : ℤ) : Unsplit (.int n)
  | float (x : Binary64) : Unsplit (.float x)
  | str {s : PyStr} (h : NoSplitPair s) : Unsplit (.str s)
  | list {xs : List PyValue} (items : ∀ x ∈ xs, Unsplit x) : Unsplit (.list xs)
  | mapping {es : List (MappingKey × PyValue)} (keys : PlainKeys es) (members : ∀ e ∈ es, Unsplit e.2) :
      Unsplit (.mapping es)

theorem pyEqItems_map {f : PyValue → PyValue} (xs : List PyValue) :
    PyValue.pyEqItems xs (xs.map f) = true ↔ ∀ x ∈ xs, PyValue.pyEq x (f x) = true := by
  induction xs with
  | nil => simp [PyValue.pyEqItems]
  | cons x xs ih => simp [PyValue.pyEqItems, ih]

theorem noSplitPair_of_find {es : List (MappingKey × PyValue)} {k : PyStr} {v : PyValue}
    (h : Dict.find (rereadEntries es) (.str k) = some v) : NoSplitPair k := by
  rw [rereadEntries, find_foldl_put, Dict.find, Option.or_none] at h
  have hmem := Dict.mem_of_find h
  rw [List.mem_reverse, List.mem_map] at hmem
  obtain ⟨m, -, hm⟩ := hmem
  cases hm
  exact noSplitPair_rejoin m.1

theorem foldl_put_length (pairs : List (PyStr × PyValue)) (acc : List (MappingKey × PyValue))
    (hnd : (acc.map Prod.fst ++ pairs.map fun p => MappingKey.str p.1).Nodup) :
    (pairs.foldl (fun es pair => Dict.put (.str pair.1) pair.2 es) acc).length = acc.length + pairs.length := by
  induction pairs generalizing acc with
  | nil => simp
  | cons p pairs ih =>
    have hnew : MappingKey.str p.1 ∉ acc.map Prod.fst := by
      intro hmem
      exact (List.nodup_append.mp hnd).2.2 _ hmem _ (List.mem_cons_self ..) rfl
    rw [List.foldl_cons, Dict.put_of_notMem hnew, ih _ (by simpa using hnd)]
    simp only [List.length_append, List.length_cons, List.length_nil]
    omega

theorem length_rereadEntries {es : List (MappingKey × PyValue)} (hkeys : PlainKeys es)
    (hnd : (es.map Prod.fst).Nodup) : (rereadEntries es).length = es.length := by
  have hplain : ((sortedMembers es).map fun m => MappingKey.str (rejoin m.1)) =
      ((sortedMembers es).map Prod.fst).map MappingKey.str := by
    rw [List.map_map]
    apply List.map_congr_left
    intro m hm
    obtain ⟨e, he, rfl⟩ := mem_sortedMembers.1 hm
    obtain ⟨k, hk, hsplit⟩ := hkeys e he
    simp [hk, keyText, (rejoin_eq_self_iff k).mpr hsplit]
  have hnodup : (((sortedMembers es).map Prod.fst).map MappingKey.str).Nodup :=
    (sortedMembers_keys_nodup hkeys hnd).map fun _ _ h => MappingKey.str.inj h
  rw [rereadEntries, foldl_put_length]
  · simp [sortedMembers]
  · rw [List.map_map]
    simpa [Function.comp_def, hplain] using hnodup

/-- A JSON value equals what its text is read back as exactly if no pair of surrogates is split in it. -/
theorem pyEq_reread {v : PyValue} (hv : JsonValue v) : PyValue.pyEq v (reread v) = true ↔ Unsplit v := by
  induction hv with
  | none => exact ⟨fun _ => .none, fun _ => by simp [reread, PyValue.pyEq]⟩
  | bool b => exact ⟨fun _ => .bool b, fun _ => by simp [reread, PyValue.pyEq, PyValue.numberEq, PyValue.integer?]⟩
  | int n => exact ⟨fun _ => .int n, fun _ => by simp [reread, PyValue.pyEq, PyValue.numberEq, PyValue.integer?]⟩
  | float x => exact ⟨fun _ => .float _, fun _ => by simp [reread, PyValue.pyEq, PyValue.numberEq, PyValue.floatEq]⟩
  | str s =>
    rw [reread, PyValue.pyEq, beq_iff_eq, eq_comm, rejoin_eq_self_iff]
    exact ⟨.str, fun h => by cases h; assumption⟩
  | @list xs items ih =>
    rw [reread, PyValue.pyEq, pyEqItems_map]
    constructor
    · intro h
      exact .list fun x hx => (ih x hx).mp (h x hx)
    · rintro (_ | _ | _ | _ | _ | hitems | _)
      exact fun x hx => (ih x hx).mpr (hitems x hx)
  | @mapping es keys nodup members ih =>
    rw [reread_object, PyValue.pyEq, Bool.and_eq_true, beq_iff_eq, PyValue.pyEqEntries_iff]
    constructor
    · rintro ⟨-, hfound⟩
      have hplain : PlainKeys es := by
        intro e he
        obtain ⟨k, hk⟩ := keys e he
        obtain ⟨b, hb, -⟩ := hfound e he
        rw [hk] at hb
        exact ⟨k, hk, noSplitPair_of_find hb⟩
      refine .mapping hplain fun e he => (ih e he).mp ?_
      obtain ⟨b, hb, hequal⟩ := hfound e he
      obtain ⟨k, hk⟩ := keys e he
      obtain ⟨key, value⟩ := e
      cases hk
      rw [find_rereadEntries hplain nodup, (Dict.find_eq_some_iff nodup _ _).mpr he] at hb
      cases hb
      exact hequal
    · rintro (_ | _ | _ | _ | _ | _ | ⟨hplain, hmembers⟩)
      refine ⟨(length_rereadEntries hplain nodup).symm, fun e he => ?_⟩
      obtain ⟨k, hk⟩ := keys e he
      obtain ⟨key, value⟩ := e
      cases hk
      refine ⟨reread value, ?_, (ih _ he).mpr (hmembers _ he)⟩
      rw [find_rereadEntries hplain nodup, (Dict.find_eq_some_iff nodup _ _).mpr he, Option.map_some]

/-! ## Envelopes -/

namespace CanonicalIngestionEnvelope
variable (e : CanonicalIngestionEnvelope)

/-- `==` of the dataclass. -/
def eq (a b : CanonicalIngestionEnvelope) : Bool :=
  decide (a.texts = b.texts) && a.sequence.value == b.sequence.value &&
    PyValue.pyEq (.mapping a.payload.entries) (.mapping b.payload.entries)

def HasJsonPayload : Prop := JsonValue (.mapping e.payload.entries)

/-- What the line format, the checks of the reader and a JSON text carry. -/
structure Readable : Prop where
  carries : Carries e.aggregateRef
  valid : e.Valid
  texts : ∀ field ∈ e.texts, NoSplitPair field.2
  payload : Unsplit (.mapping e.payload.entries)

variable {e}

theorem eq_reread_iff (hjson : e.HasJsonPayload) :
    e.eq e.reread = true ↔ (∀ field ∈ e.texts, NoSplitPair field.2) ∧ Unsplit (.mapping e.payload.entries) := by
  have htexts : e.reread.texts = e.texts.map fun field => (field.1, rejoin field.2) := rfl
  have hsame : e.texts = e.reread.texts ↔ ∀ field ∈ e.texts, NoSplitPair field.2 := by
    rw [htexts, eq_comm]
    nth_rewrite 2 [← List.map_id e.texts]
    rw [List.map_inj_left]
    refine forall₂_congr fun field _ => ?_
    rw [← rejoin_eq_self_iff, id, Prod.ext_iff]
    exact and_iff_right rfl
  have hpayload := pyEq_reread hjson
  rw [reread_object] at hpayload
  rw [eq, Bool.and_eq_true, Bool.and_eq_true, decide_eq_true_eq, hsame, ← hpayload]
  simp [reread]

theorem fromMapping_aggregateRef {v : PyValue} (h : fromMapping v = .ok e) : e.aggregateRef = textAt v "aggregate_ref" := by
  obtain ⟨_, -, h⟩ := bind_ok_iff.1 h
  obtain ⟨_, -, h⟩ := bind_ok_iff.1 h
  obtain ⟨_, -, h⟩ := bind_ok_iff.1 h
  obtain ⟨_, -, h⟩ := bind_ok_iff.1 h
  obtain ⟨_, -, h⟩ := bind_ok_iff.1 h
  cases h
  rfl

end CanonicalIngestionEnvelope

theorem fieldOf_eq_ok {v w : PyValue} {field : PyStr} (h : fieldOf v field = .ok w) :
    ∃ es, v = .mapping es ∧ Dict.find es (.str field) = some w := by
  cases v with
  | mapping es => exact ⟨es, rfl, orRaise_eq_ok.1 h⟩
  | _ => cases h

theorem length_textAt {s : PyStr} {v : PyValue} (h : loads s = .ok v) (name : String) :
    (textAt v name).length ≤ s.length := by
  unfold textAt
  split
  · rename_i t hfield
    obtain ⟨es, rfl, hfind⟩ := fieldOf_eq_ok hfield
    exact loads_text_length h (Dict.mem_of_find hfind)
  · exact Nat.zero_le _

/-! ## What the producer makes of a line -/

theorem readMessages_length {lines : List PyStr} (h : (readMessages lines).2 = true) :
    (readMessages lines).1.length = lines.length := by
  induction lines with
  | nil => rfl
  | cons line lines ih =>
    rw [readMessages] at h ⊢
    cases hline : parseMessage line with
    | none =>
      rw [hline] at h
      cases h
    | some record =>
      rw [hline] at h
      simp only [List.length_cons, ih h]

theorem inputLines_length (s : PyStr) : (inputLines (s ++ [newline])).length = s.count newline + 1 := by
  induction s with
  | nil => rfl
  | cons c s ih =>
    rw [List.cons_append, inputLines, List.count_cons]
    by_cases hc : c = newline
    · rw [if_pos hc, List.length_cons, ih]
      simp [hc]
    · rw [if_neg hc]
      obtain ⟨line, lines, hlines⟩ := List.exists_cons_of_length_eq_add_one ih
      rw [hlines, prepend_cons, List.length_cons, ← List.length_cons (a := line), ← hlines, ih]
      simp [hc]

theorem parseMessage_split {line : PyStr} {r : TopicRecord} (h : parseMessage line = some r) :
    line = r.key ++ bar :: r.value ∧ bar ∉ r.key := by
  unfold parseMessage at h
  split_ifs at h with hbar
  obtain ⟨key, value, rfl, hkey⟩ := List.eq_append_cons_of_mem hbar
  obtain ⟨htake, hdrop⟩ := takeWhile_bar hkey value
  rw [htake, hdrop] at h
  cases h
  exact ⟨rfl, hkey⟩

theorem readMessages_single {line : PyStr} {r : TopicRecord}
    (hok : (readMessages (inputLines (line ++ [newline]))).2 = true)
    (hone : (readMessages (inputLines (line ++ [newline]))).1 = [r]) :
    newline ∉ line ∧ line = r.key ++ bar :: r.value ∧ bar ∉ r.key := by
  have hlen := readMessages_length hok
  rw [hone, inputLines_length, List.length_singleton] at hlen
  have hnl : newline ∉ line := List.count_eq_zero.mp (by omega)
  rw [inputLines_line hnl, readMessages] at hone
  refine ⟨hnl, ?_⟩
  cases hline : parseMessage line with
  | none =>
    rw [hline] at hone
    cases hone
  | some record =>
    rw [hline] at hone
    cases hone
    exact parseMessage_split hline

theorem guarded_produce_ok {input : PyStr} {outcome : ProducerOutcome} {b b' : CanonicalEventBackbone}
    (h : Op.guarded (produce input outcome) forgetUnacknowledged b = (.ok (), b')) :
    b'.topic = b.topic ++ (readMessages (inputLines input)).1 ∧ (readMessages (inputLines input)).2 = true := by
  unfold Op.guarded produce at h
  by_cases hscalar : Scalar input
  · simp only [if_pos hscalar] at h
    cases outcome with
    | succeeded =>
      cases hok : (readMessages (inputLines input)).2 with
      | true =>
        rw [hok] at h
        cases h
        exact ⟨rfl, rfl⟩
      | false =>
        rw [hok] at h
        cases h
    | failed fault appended => cases appended <;> cases fault <;> cases h
  · simp only [if_neg hscalar] at h
    cases h

variable (broker : Broker)

theorem ensureRecovered_topic (replies : Replies) (b : CanonicalEventBackbone) :
    (ensureRecovered broker replies b).2.topic = b.topic := by
  unfold ensureRecovered
  rw [Op.read_bind]
  split_ifs
  · rfl
  · rcases recoverFromJournal_cases broker replies b with ⟨error, hfail⟩ | ⟨records, -, hready⟩
    · rw [hfail]
    · rw [hready]

theorem publishRecovered_wrote {e : CanonicalIngestionEnvelope} {replies : Replies} {b b' : CanonicalEventBackbone}
    (h : publishRecovered e replies b = (.ok (), b')) (hwrote : b'.topic ≠ b.topic) :
    ∃ line, lineOf e = .ok line ∧ b'.topic = b.topic ++ (readMessages (inputLines (line ++ [newline]))).1 ∧
      (readMessages (inputLines (line ++ [newline]))).2 = true := by
  by_cases hfresh : Fresh b e
  · cases hline : lineOf e with
    | error error =>
      rw [publishRecovered_of_lineOf_error hfresh hline] at h
      cases h
    | ok line =>
      rw [publishRecovered_of_fresh hfresh hline] at h
      obtain ⟨⟨⟩, b1, hproduce, hupdate⟩ := Op.bind_eq_ok.1 h
      obtain ⟨htopic, hok⟩ := guarded_produce_ok hproduce
      cases hupdate
      exact ⟨line, rfl, htopic, hok⟩
  · have hsame := publishRecovered_of_not_fresh hfresh replies
    rw [h] at hsame
    exact absurd hsame.topic hwrote

theorem publish_wrote {e : CanonicalIngestionEnvelope} {replies : Replies} {b b' : CanonicalEventBackbone}
    (h : publish broker e replies b = (.ok (), b')) (hwrote : b'.topic ≠ b.topic) :
    ∃ line, lineOf e = .ok line ∧ b'.topic = b.topic ++ (readMessages (inputLines (line ++ [newline]))).1 ∧
      (readMessages (inputLines (line ++ [newline]))).2 = true := by
  unfold publish at h
  by_cases hschema : e.schemaRef ∉ registeredSchemas
  · simp only [if_pos hschema] at h
    cases h
  · simp only [if_neg hschema] at h
    by_cases hcontext : e.governedContextDigest = []
    · simp only [if_pos hcontext] at h
      cases h
    · simp only [if_neg hcontext] at h
      have h : publishLocked broker e replies b = (.ok (), b') := h
      obtain ⟨⟨⟩, b1, hready, hpublish⟩ := Op.bind_eq_ok.1 h
      have htopic := ensureRecovered_topic broker replies b
      rw [hready] at htopic
      rw [← htopic] at hwrote ⊢
      exact publishRecovered_wrote hpublish hwrote

/-! ## What the consumer makes of a record -/

theorem lineOf_eq {e : CanonicalIngestionEnvelope} {line : PyStr} (h : lineOf e = .ok line) :
    ∃ text, dumps e.toMapping = .ok text ∧ line = e.aggregateRef ++ bar :: text := by
  obtain ⟨text, htext, hshape⟩ := bind_eq_ok.1 h
  cases hshape
  exact ⟨text, htext, by simp [show py "|" = [bar] by decide]⟩

theorem dumps_toMapping_head {e : CanonicalIngestionEnvelope} {text : PyStr} (h : dumps e.toMapping = .ok text) :
    ∃ g, bar :: text = barred g := by
  rw [e.toMapping_eq] at h
  obtain ⟨-, texts, htexts, rfl⟩ := dumps_mapping_eq_ok h
  have hkeys : (sortedMembers e.fields).map Prod.fst =
      (((requiredFields.map fun k => (k, ())).insertionSort MemberLe).map Prod.fst) := by
    have hunit := map_insertionSort_member (fun _ : PyValue => ()) (e.fields.map fun f => (keyText f.1, f.2))
    rw [List.map_map] at hunit
    have hfields : (e.fields.map ((fun m : PyStr × PyValue => (m.1, ())) ∘ fun f => (keyText f.1, f.2))) =
        requiredFields.map fun k => (k, ()) := rfl
    rw [hfields] at hunit
    rw [hunit, List.map_map]
    rfl
  have hhead : ((sortedMembers e.fields).map Prod.fst).head? = some (py "aggregate_ref") := by
    rw [hkeys]
    decide
  cases hsorted : sortedMembers e.fields with
  | nil =>
    rw [hsorted] at hhead
    cases hhead
  | cons m ms =>
    rw [hsorted] at hhead htexts
    rw [List.map_cons, List.head?_cons, Option.some.injEq] at hhead
    rw [List.map_cons, List.mapM_cons] at htexts
    obtain ⟨first, hfirst, htexts⟩ := bind_eq_ok.1 htexts
    obtain ⟨rest, -, htexts⟩ := bind_eq_ok.1 htexts
    cases htexts
    obtain ⟨value, -, hfirst⟩ := bind_eq_ok.1 hfirst
    have hkey : asciiText m.1 = quote :: codePoint 0x61 :: ((py "ggregate_ref").flatMap asciiChar ++ [quote]) := by
      rw [hhead]
      decide
    have hshape : first = quote :: (codePoint 0x61 :: ((py "ggregate_ref").flatMap asciiChar ++ [quote]) ++
        (py ":" ++ value)) := by
      cases hfirst
      simp [hkey]
    have hjoin : ∃ tail, joinCommas (first :: rest) = first ++ tail := by
      cases rest with
      | nil => exact ⟨[], by rw [joinCommas_singleton, List.append_nil]⟩
      | cons second rest => exact ⟨_, joinCommas_cons first second rest⟩
    obtain ⟨tail, htail⟩ := hjoin
    rw [htail, hshape, show py "\x7b" = [codePoint 0x7B] by decide]
    exact ⟨_, rfl⟩

theorem splitBars_heading (topic : List TopicRecord) (index : ℕ) (key s : PyStr) :
    splitBars 3 (broker.heading topic index key ++ s) =
      (py "Partition:" ++ natText (broker.partitionOf key).val) ::
        (py "Offset:" ++ natText (broker.offsetOf topic index key)) :: splitBars 1 s := by
  have hshape : broker.heading topic index key ++ s =
      (py "Partition:" ++ natText (broker.partitionOf key).val) ++ bar ::
        ((py "Offset:" ++ natText (broker.offsetOf topic index key)) ++ bar :: s) := by
    unfold Broker.heading
    simp only [List.append_assoc, List.cons_append, List.nil_append]
  rw [hshape, splitBars_line (bar_not_mem_labelled (by decide) _), splitBars_line (bar_not_mem_labelled (by decide) _)]

theorem readLine_heading {topic : List TopicRecord} {index : ℕ} {key s : PyStr} {record : Option DeliveredRecord}
    (h : readLine (broker.heading topic index key ++ s) = .ok record) :
    ∃ first payload v d, s = first ++ bar :: payload ∧ bar ∉ first ∧ loads payload = .ok v ∧
      CanonicalIngestionEnvelope.fromMapping v = .ok d.envelope ∧ record = some d := by
  have hprefix : py "Partition:" <+: broker.heading topic index key ++ s := by
    unfold Broker.heading
    simp only [List.append_assoc]
    exact List.prefix_append _ _
  rw [readLine, if_pos hprefix, splitBars_heading, splitBars] at h
  by_cases hbar : bar ∈ s
  · obtain ⟨first, payload, rfl, hfirst⟩ := List.eq_append_cons_of_mem hbar
    obtain ⟨htake, hdrop⟩ := takeWhile_bar hfirst payload
    rw [if_pos hbar, htake, hdrop, splitBars] at h
    dsimp only at h
    obtain ⟨v, hv, h⟩ := bind_ok_iff.1 h
    obtain ⟨partition, -, h⟩ := bind_ok_iff.1 h
    obtain ⟨offset, -, h⟩ := bind_ok_iff.1 h
    obtain ⟨envelope, henvelope, h⟩ := bind_ok_iff.1 h
    cases h
    refine ⟨first, payload, v, ⟨partition, offset, envelope⟩, rfl, hfirst, ?_, henvelope, rfl⟩
    cases hloads : loads payload with
    | error error =>
      rw [hloads] at hv
      cases hv
    | ok w =>
      rw [hloads] at hv
      cases hv
      rfl
  · rw [if_neg hbar] at h
    cases h

theorem splitlines_break {s : PyStr} (h : ∀ d ∈ s, ¬ IsLineBreak d) {c : CodePoint} (hc : IsLineBreak c) (rest : PyStr) :
    ∃ lines, splitlines (s ++ c :: rest) = s :: lines := by
  induction s with
  | nil =>
    rw [List.nil_append]
    cases rest with
    | nil => exact ⟨[], by rw [splitlines, if_pos hc]⟩
    | cons d rest =>
      rw [splitlines]
      split_ifs
      · exact ⟨_, rfl⟩
      · exact ⟨_, rfl⟩
  | cons d s ih =>
    have hd := h d (List.mem_cons_self ..)
    have hcr : ¬ (d = carriageReturn) := by
      rintro rfl
      exact hd (by decide)
    obtain ⟨lines, hlines⟩ := ih fun x hx => h x (List.mem_cons_of_mem d hx)
    obtain ⟨x, t, ht⟩ : ∃ x t, s ++ c :: rest = x :: t := by
      cases s with
      | nil => exact ⟨_, _, rfl⟩
      | cons x s => exact ⟨_, _, rfl⟩
    refine ⟨lines, ?_⟩
    rw [List.cons_append, ht, splitlines, if_neg fun h => hcr h.1, if_neg hd, ← ht, hlines, prepend_cons]

theorem split_at_break {s : PyStr} (h : ¬ ∀ c ∈ s, ¬ IsLineBreak c) :
    ∃ before c after, s = before ++ c :: after ∧ (∀ d ∈ before, ¬ IsLineBreak d) ∧ IsLineBreak c := by
  induction s with
  | nil => exact absurd (by simp) h
  | cons c s ih =>
    by_cases hc : IsLineBreak c
    · exact ⟨[], c, s, rfl, by simp, hc⟩
    · obtain ⟨before, d, after, hs, hbefore, hd⟩ := ih fun hall => h (List.forall_mem_cons.mpr ⟨hc, hall⟩)
      exact ⟨c :: before, d, after, by rw [hs]; rfl, List.forall_mem_cons.mpr ⟨hc, hbefore⟩, hd⟩

theorem bar_split_unique {a b x y : PyStr} (ha : bar ∉ a) (hb : bar ∉ b) (h : a ++ bar :: x = b ++ bar :: y) : x = y := by
  rw [← (takeWhile_bar ha x).2, ← (takeWhile_bar hb y).2, h]

/-- A record at any place of any topic is read as an envelope equal to this one. -/
def ReadAs (r : TopicRecord) (e : CanonicalIngestionEnvelope) : Prop :=
  ∀ (topic : List TopicRecord) (index : ℕ), topic[index]? = some r →
    ∃ d, consume (broker.output topic ⟨[index], List.nodup_singleton index⟩) 1 = .ok [d] ∧ e.eq d.envelope = true

theorem consume_single {stdout : PyStr} {d : DeliveredRecord} (h : consume stdout 1 = .ok [d]) :
    readLines (splitlines stdout) = .ok [d] := by
  obtain ⟨records, hrecords, h⟩ := bind_ok_iff.1 h
  obtain ⟨_, -, h⟩ := bind_ok_iff.1 h
  cases h
  exact hrecords

theorem output_single {topic : List TopicRecord} {index : ℕ} {r : TopicRecord} (h : topic[index]? = some r) :
    broker.output topic ⟨[index], List.nodup_singleton index⟩ =
      broker.heading topic index r.key ++ (r.key ++ bar :: r.value) ++ [newline] := by
  rw [← body_eq_heading, ← printed_eq]
  simp [Broker.output, h]

theorem aggregateRef_of_eq {a b : CanonicalIngestionEnvelope} (h : a.eq b = true) : a.aggregateRef = b.aggregateRef := by
  rw [CanonicalIngestionEnvelope.eq, Bool.and_eq_true, Bool.and_eq_true, decide_eq_true_eq] at h
  have hsixth := congrArg (fun texts => texts[6]?) h.1.1
  exact congrArg Prod.snd (Option.some.inj hsixth)

theorem readable_of_readAs {e : CanonicalIngestionEnvelope} (hjson : e.HasJsonPayload) {line : PyStr}
    (hline : lineOf e = .ok line) {r : TopicRecord} (hsplit : line = r.key ++ bar :: r.value) (hread : ReadAs broker r e) :
    e.Readable := by
  obtain ⟨text, htext, hshape⟩ := lineOf_eq hline
  obtain ⟨d, hd, hequal⟩ := hread [r] 0 rfl
  have hlines := consume_single hd
  rw [output_single broker rfl, ← hsplit, hshape] at hlines
  have hheading := not_break_heading broker [r] 0 r.key
  by_cases hbreak : ∀ c ∈ e.aggregateRef, ¬ IsLineBreak c
  · have hprint := not_break_of_printable (printable_dumps _ _ htext)
    have hall : ∀ c ∈ broker.heading [r] 0 r.key ++ (e.aggregateRef ++ bar :: text), ¬ IsLineBreak c := by
      intro c hc
      rw [List.mem_append, List.mem_append, List.mem_cons] at hc
      rcases hc with hc | hc | rfl | hc
      · exact hheading c hc
      · exact hbreak c hc
      · decide
      · exact hprint c hc
    rw [splitlines_line hall, readLines_cons] at hlines
    obtain ⟨record, hrecord, hlines⟩ := bind_ok_iff.1 hlines
    obtain ⟨first, payload, v, d', hpayload, hfirst, hv, henvelope, rfl⟩ := readLine_heading broker hrecord
    cases hlines
    by_cases hbar : bar ∈ e.aggregateRef
    · obtain ⟨key, rest, hkey, hnot⟩ := List.eq_append_cons_of_mem hbar
      obtain ⟨g, hg⟩ := dumps_toMapping_head htext
      rw [hkey, List.append_assoc, List.cons_append, hg] at hpayload
      rw [← bar_split_unique hnot hfirst hpayload] at hv
      exact absurd hv (loads_barred rest g v)
    · rw [← bar_split_unique hbar hfirst hpayload, loads_dumps htext] at hv
      cases hv
      obtain ⟨hvalid, hreread⟩ := fromMapping_reread.1 henvelope
      rw [hreread] at hequal
      obtain ⟨htexts, hplain⟩ := (CanonicalIngestionEnvelope.eq_reread_iff hjson).mp hequal
      exact ⟨⟨hbar, hbreak⟩, hvalid, htexts, hplain⟩
  · obtain ⟨before, c, after, href, hbefore, hc⟩ := split_at_break hbreak
    have hall : ∀ c ∈ broker.heading [r] 0 r.key ++ before, ¬ IsLineBreak c := by
      intro c hc
      rcases List.mem_append.mp hc with hc | hc
      · exact hheading c hc
      · exact hbefore c hc
    obtain ⟨lines, hsplitlines⟩ := splitlines_break hall hc (after ++ bar :: text ++ [newline])
    have hout : broker.heading [r] 0 r.key ++ (e.aggregateRef ++ bar :: text) ++ [newline] =
        broker.heading [r] 0 r.key ++ before ++ c :: (after ++ bar :: text ++ [newline]) := by
      rw [href]
      simp only [List.append_assoc, List.cons_append]
    rw [hout, hsplitlines, readLines_cons] at hlines
    obtain ⟨record, hrecord, hlines⟩ := bind_ok_iff.1 hlines
    obtain ⟨first, payload, v, d', hpayload, -, hv, henvelope, rfl⟩ := readLine_heading broker hrecord
    obtain ⟨rest, -, hlines⟩ := bind_ok_iff.1 hlines
    cases hlines
    -- the first line is taken for the record, and its texts are too short
    have hlength := length_textAt hv "aggregate_ref"
    rw [← CanonicalIngestionEnvelope.fromMapping_aggregateRef henvelope, ← aggregateRef_of_eq hequal, href, hpayload] at hlength
    simp only [List.length_append, List.length_cons] at hlength
    omega

theorem readAs_of_readable {e : CanonicalIngestionEnvelope} (hjson : e.HasJsonPayload) (h : e.Readable)
    {r : TopicRecord} (hr : RecordOf e r) : ReadAs broker r e := by
  intro topic index hindex
  have henvelope : CanonicalIngestionEnvelope.fromMapping (reread e.toMapping) = .ok e.reread :=
    fromMapping_reread.2 ⟨h.valid, rfl⟩
  refine ⟨⟨(broker.partitionOf r.key).val, broker.offsetOf topic index r.key, e.reread⟩, ?_,
    (CanonicalIngestionEnvelope.eq_reread_iff hjson).mpr ⟨h.texts, h.payload⟩⟩
  have hlines : readLines (splitlines (broker.output topic ⟨[index], List.nodup_singleton index⟩)) =
      .ok [⟨(broker.partitionOf r.key).val, broker.offsetOf topic index r.key, e.reread⟩] := by
    rw [output_single broker hindex, ← body_eq_heading, splitlines_line (not_break_body broker hr topic index),
      readLines_cons, readLine_body broker hr, Broker.readRecord, henvelope]
    rfl
  rw [consume, hlines]
  rfl

/-! ## Topics written by `publish` -/

theorem publish_topic {e : CanonicalIngestionEnvelope} (hc : Carries e.aggregateRef) (replies : Replies)
    (b : CanonicalEventBackbone) : (publish broker e replies b).2.topic = b.topic ∨
      ∃ r, RecordOf e r ∧ (publish broker e replies b).2.topic = b.topic ++ [r] := by
  unfold publish
  by_cases hschema : e.schemaRef ∉ registeredSchemas
  · simp only [if_pos hschema]
    exact .inl rfl
  · simp only [if_neg hschema]
    by_cases hcontext : e.governedContextDigest = []
    · simp only [if_pos hcontext]
      exact .inl rfl
    · simp only [if_neg hcontext]
      show (publishLocked broker e replies b).2.topic = b.topic ∨
        ∃ r, RecordOf e r ∧ (publishLocked broker e replies b).2.topic = b.topic ++ [r]
      unfold publishLocked
      have htopic := ensureRecovered_topic broker replies b
      rcases hready : ensureRecovered broker replies b with ⟨error | ⟨⟨⟩⟩, b1⟩
      · rw [hready] at htopic
        rw [Op.bind_of_error hready]
        exact .inl htopic
      · rw [hready] at htopic
        rw [Op.bind_of_ok hready, ← htopic]
        rcases publishRecovered_cases hc replies b1 with hsame | ⟨-, -, r, hr, heq⟩
        · exact .inl hsame.topic
        · rw [heq]
          cases replies.produced with
          | succeeded => exact .inr ⟨r, hr, rfl⟩
          | failed fault appended =>
            cases appended with
            | true => exact .inr ⟨r, hr, rfl⟩
            | false => exact .inl rfl

/-- The envelope of a call is readable. -/
def Call.Readable : Call → Prop
  | .publish envelope _ => envelope.Readable
  | .publishFromMapping raw _ => ∀ e, CanonicalIngestionEnvelope.fromMapping (.mapping raw) = .ok e → e.Readable
  | .restart => True

/-- The topic holds the records of readable envelopes. -/
def HoldsReadable (b : CanonicalEventBackbone) : Prop :=
  ∃ written, Holds written b.topic ∧ ∀ e ∈ written, e.Readable

theorem holdsReadable_publish {b : CanonicalEventBackbone} (h : HoldsReadable b) {e : CanonicalIngestionEnvelope}
    (he : e.Readable) (replies : Replies) : HoldsReadable (publish broker e replies b).2 := by
  obtain ⟨written, hholds, hall⟩ := h
  rcases publish_topic broker he.carries replies b with hsame | ⟨r, hr, hsnoc⟩
  · exact ⟨written, by rw [hsame]; exact hholds, hall⟩
  · refine ⟨written ++ [e], by rw [hsnoc]; exact hholds.snoc hr, fun f hf => ?_⟩
    rcases List.mem_append.mp hf with hf | hf
    · exact hall f hf
    · rw [List.mem_singleton.mp hf]
      exact he

theorem holdsReadable_step (b : CanonicalEventBackbone) (call : Call) (h : HoldsReadable b) (hcall : call.Readable) :
    HoldsReadable (step broker b call) := by
  cases call with
  | publish e replies => exact holdsReadable_publish broker h hcall replies
  | publishFromMapping raw replies =>
    simp only [step, publishFromMapping]
    cases henvelope : CanonicalIngestionEnvelope.fromMapping (.mapping raw) with
    | ok e => exact holdsReadable_publish broker h (hcall e henvelope) replies
    | error error => cases error <;> exact h
  | restart => exact h

theorem readLines_readable {written : List CanonicalIngestionEnvelope} {topic : List TopicRecord}
    (h : Holds written topic) (hvalid : ∀ e ∈ written, e.Readable) (indices : List ℕ) :
    ∃ records, readLines (indices.filterMap fun index => topic[index]?.map (broker.body topic index)) = .ok records ∧
      records.length = (indices.filterMap (topic[·]?)).length := by
  induction indices with
  | nil => exact ⟨[], rfl, rfl⟩
  | cons index indices ih =>
    obtain ⟨records, hrecords, hlength⟩ := ih
    cases hr : topic[index]? with
    | none =>
      rw [List.filterMap_cons_none (by rw [hr]; rfl), List.filterMap_cons_none hr]
      exact ⟨records, hrecords, hlength⟩
    | some r =>
      obtain ⟨e, hw, hrec⟩ := h.recordOf hr
      have henvelope : CanonicalIngestionEnvelope.fromMapping (reread e.toMapping) = .ok e.reread :=
        fromMapping_reread.2 ⟨(hvalid e (List.mem_of_getElem? hw)).valid, rfl⟩
      rw [List.filterMap_cons_some (by rw [hr]; rfl), List.filterMap_cons_some hr, readLines_cons,
        readLine_body broker hrec, Broker.readRecord, henvelope, hrecords]
      exact ⟨_, rfl, by simp [hlength]⟩

/-- The commands of a recovery all answer, and every record is delivered. -/
structure Answered (replies : Replies) (topic : List TopicRecord) : Prop where
  earliest : replies.earliest = none
  latest : replies.latest = none
  samePartitions : replies.samePartitions = true
  delivered : ∃ delivery, replies.delivered = some delivery ∧ delivery.indices.Perm (List.range topic.length)

theorem recoverFromJournal_readable {b : CanonicalEventBackbone} (h : HoldsReadable b) {replies : Replies}
    (hanswered : Answered replies b.topic) : ∃ b', recoverFromJournal broker replies b = (.ok (), b') := by
  obtain ⟨hearliest, hlatest, hpartitions, delivery, hdelivered, hperm⟩ := hanswered
  obtain ⟨written, hholds, hall⟩ := h
  have hrecords : ∃ records, journalRecords broker replies b = .ok records := by
    unfold journalRecords
    by_cases hempty : b.topic.length = 0
    · exact ⟨[], by rw [if_pos hempty]⟩
    · obtain ⟨records, hread, hlength⟩ := readLines_readable broker hholds hall delivery.indices
      have hcount : (delivery.indices.filterMap (b.topic[·]?)).length = b.topic.length := by
        rw [(hperm.filterMap _).length_eq, List.length_filterMap_eq_countP, List.countP_eq_length.mpr, List.length_range]
        intro index hindex
        simpa using List.mem_range.mp hindex
      refine ⟨records, ?_⟩
      rw [if_neg hempty, hdelivered]
      dsimp only
      rw [consume, Broker.output, splitlines_output broker hholds, hread]
      simp [refuseIf, hlength, hcount, bind, Except.bind, pure, Except.pure]
  obtain ⟨records, hrecords⟩ := hrecords
  unfold recoverFromJournal command refuseIf
  rw [hearliest, hlatest, hpartitions]
  refine ⟨{ b with seenIdempotencyKeys := seenOf records, lastSequence := lastOf records, recovered := true }, ?_⟩
  simp [hrecords]

/-- **Readability of the journal.** A publish of an envelope with a JSON payload that returns and has written adds
one record that is read back as an equal envelope exactly if the envelope is readable: its key holds no separator and
no line break, the reader takes its fields, and no text in it splits a pair of surrogates. A topic written by calls
with such envelopes is recovered whenever the commands of the recovery answer. -/
theorem published_record_reads_back_iff :
    (∀ (e : CanonicalIngestionEnvelope) (replies : Replies) (b b' : CanonicalEventBackbone), e.HasJsonPayload →
      publish broker e replies b = (.ok (), b') → b'.topic ≠ b.topic →
        ((∃ r, b'.topic = b.topic ++ [r] ∧ ReadAs broker r e) ↔ e.Readable)) ∧
    (∀ (initialized : Bool) (calls : List Call), (∀ call ∈ calls, call.Readable) →
      ∀ replies, Answered replies (run (step broker) { recovered := initialized } calls).topic →
        ∃ b', recoverFromJournal broker replies (run (step broker) { recovered := initialized } calls) = (.ok (), b')) := by
  refine ⟨?_, ?_⟩
  · intro e replies b b' hjson hpublish hwrote
    obtain ⟨line, hline, htopic, hok⟩ := publish_wrote broker hpublish hwrote
    constructor
    · rintro ⟨r, hone, hread⟩
      rw [htopic, List.append_cancel_left_eq] at hone
      obtain ⟨-, hsplit, -⟩ := readMessages_single hok hone
      exact readable_of_readAs broker hjson hline hsplit hread
    · intro h
      obtain ⟨r, hr, hmessages⟩ := readMessages_line h.carries hline
      rw [hmessages] at htopic
      exact ⟨r, htopic, readAs_of_readable broker hjson h hr⟩
  · intro initialized calls hcalls replies hanswered
    have hstart : HoldsReadable { recovered := initialized } := ⟨[], .nil, by simp⟩
    have hrun := run_induction_of (P := fun _ call => call.Readable)
      (fun b call hb hcall => holdsReadable_step broker b call hb hcall) hstart
      (allSteps_of_forall (fun call hcall _ => hcalls call hcall) _)
    exact recoverFromJournal_readable broker hrun hanswered

/-! ## Two envelopes -/

theorem publish_of_line {b : CanonicalEventBackbone} {e : CanonicalIngestionEnvelope} {line : PyStr}
    (replies : Replies) (hschema : e.schemaRef ∈ registeredSchemas) (hcontext : e.governedContextDigest ≠ [])
    (hrecovered : b.recovered = true) (hfresh : Fresh b e) (hline : lineOf e = .ok line)
    (hscalar : Scalar (line ++ [newline])) (hok : (readMessages (inputLines (line ++ [newline]))).2 = true)
    (hproduced : replies.produced = .succeeded) :
    ∃ b', publish broker e replies b = (.ok (), b') ∧
      b'.topic = b.topic ++ (readMessages (inputLines (line ++ [newline]))).1 := by
  have hready : ensureRecovered broker replies b = (.ok (), b) := by
    unfold ensureRecovered
    rw [Op.read_bind]
    simp only [hrecovered, if_true]
    rfl
  have hproduce : Op.guarded (produce (line ++ [newline]) replies.produced) forgetUnacknowledged b =
      (.ok (), { b with topic := b.topic ++ (readMessages (inputLines (line ++ [newline]))).1 }) := by
    unfold Op.guarded produce
    simp only [hproduced, if_pos hscalar, hok, if_true]
  have hlocked : ∃ b', publishLocked broker e replies b = (.ok (), b') ∧
      b'.topic = b.topic ++ (readMessages (inputLines (line ++ [newline]))).1 := by
    unfold publishLocked
    rw [Op.bind_of_ok hready, publishRecovered_of_fresh hfresh hline, Op.bind_of_ok hproduce]
    exact ⟨_, rfl, rfl⟩
  unfold publish
  simp only [if_neg (not_not.mpr hschema), if_neg hcontext]
  exact hlocked

theorem fresh_start (e : CanonicalIngestionEnvelope) : Fresh { recovered := true } e :=
  ⟨by simp, by simp [Dict.get?, Dict.empty, Dict.find]⟩

theorem sampleEnvelope_json (sequence : ℤ) (key : PyStr) : (sampleEnvelope sequence key).HasJsonPayload :=
  .mapping (by simp [sampleEnvelope, Dict.empty]) (by simp [sampleEnvelope, Dict.empty]) (by simp [sampleEnvelope, Dict.empty])

/-- A plain envelope is published and read back. -/
theorem published_record_reads_back_iff_plain :
    ∃ b' r, publish ⟨fun _ => 0⟩ (sampleEnvelope 1 (py "k")) (sampleReplies .succeeded) { recovered := true } = (.ok (), b') ∧
      b'.topic = [r] ∧ ReadAs ⟨fun _ => 0⟩ r (sampleEnvelope 1 (py "k")) := by
  obtain ⟨line, hline, hscalar⟩ := sample_line
  have hcarries : Carries (sampleEnvelope 1 (py "k")).aggregateRef := by decide
  obtain ⟨r, hr, hmessages⟩ := readMessages_line hcarries hline
  obtain ⟨b', hpublish, htopic⟩ := publish_of_line ⟨fun _ => 0⟩ (b := { recovered := true })
    (sampleReplies .succeeded) (by decide) (by decide) rfl (fresh_start _) hline hscalar (by rw [hmessages]) rfl
  rw [hmessages] at htopic
  have hreadable : (sampleEnvelope 1 (py "k")).Readable := by
    refine ⟨hcarries, ⟨by decide, 1, rfl⟩, by decide, ?_⟩
    exact .mapping (by simp [PlainKeys, sampleEnvelope, Dict.empty]) (by simp [sampleEnvelope, Dict.empty])
  obtain ⟨s, hs, hread⟩ := ((published_record_reads_back_iff ⟨fun _ => 0⟩).1 _ _ _ _ (sampleEnvelope_json 1 (py "k")) hpublish
    (by rw [htopic]; simp)).mpr hreadable
  exact ⟨b', s, hpublish, hs, hread⟩

/-- The sample with a separator in its key. -/
def barredEnvelope : CanonicalIngestionEnvelope := { sampleEnvelope 1 (py "k") with aggregateRef := py "a|b" }

/-- A key with the separator in it is written, and its record is not read back. -/
theorem barred_key_is_not_read_back :
    ∃ b', publish ⟨fun _ => 0⟩ barredEnvelope (sampleReplies .succeeded) { recovered := true } = (.ok (), b') ∧
      b'.topic ≠ [] ∧ ¬ ∃ r, b'.topic = [r] ∧ ReadAs ⟨fun _ => 0⟩ r barredEnvelope := by
  have hcheck : ((lineOf barredEnvelope).toOption.any fun line => decide (Scalar (line ++ [newline])) &&
      (readMessages (inputLines (line ++ [newline]))).2 &&
        decide ((readMessages (inputLines (line ++ [newline]))).1 ≠ [])) = true := by decide
  cases hline : lineOf barredEnvelope with
  | error error =>
    rw [hline] at hcheck
    cases hcheck
  | ok line =>
    rw [hline] at hcheck
    simp only [Except.toOption, Option.any_some, Bool.and_eq_true, decide_eq_true_eq] at hcheck
    obtain ⟨⟨hscalar, hok⟩, hwrote⟩ := hcheck
    obtain ⟨b', hpublish, htopic⟩ := publish_of_line ⟨fun _ => 0⟩ (b := { recovered := true })
      (sampleReplies .succeeded) (by decide) (by decide) rfl (fresh_start _) hline hscalar hok rfl
    rw [List.nil_append] at htopic
    refine ⟨b', hpublish, by rwa [htopic], ?_⟩
    rintro ⟨r, hr, hread⟩
    rw [htopic] at hr
    obtain ⟨-, hsplit, -⟩ := readMessages_single hok hr
    have hjson : barredEnvelope.HasJsonPayload := sampleEnvelope_json 1 (py "k")
    have hreadable := readable_of_readAs ⟨fun _ => 0⟩ hjson hline hsplit hread
    exact hreadable.carries.1 (by decide)

end OcorRuntime.Events

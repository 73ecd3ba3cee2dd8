import OcorRuntime.Events.Backbone
import OcorRuntime.Events.EnvelopeText

/-! The line format of the topic. A key without the separator and without a line break is carried through the
console producer and back through the console consumer, and the envelope of its record is read again. -/
namespace OcorRuntime.Events
open StandardJson Canonical
set_option autoImplicit false
set_option maxHeartbeats 250000
set_option maxRecDepth 120000

/-! ## Lines -/

theorem prepend_cons (c : CodePoint) (line : PyStr) (lines : List PyStr) :
    prepend c (line :: lines) = (c :: line) :: lines := rfl

theorem splitlines_line {s : PyStr} (h : ∀ c ∈ s, ¬ IsLineBreak c) (rest : PyStr) :
    splitlines (s ++ newline :: rest) = s :: splitlines rest := by
  have hbreak : IsLineBreak newline := by decide
  have hnl : ¬ (newline = carriageReturn) := by decide
  induction s with
  | nil =>
    rw [List.nil_append]
    cases rest with
    | nil => simp [splitlines, hbreak]
    | cons d rest => rw [splitlines, if_neg fun hcr => hnl hcr.1, if_pos hbreak]
  | cons c s ih =>
    have hc := h c (List.mem_cons_self ..)
    have hcr : ¬ (c = carriageReturn) := by
      rintro rfl
      exact hc (by decide)
    have ih := ih fun d hd => h d (List.mem_cons_of_mem c hd)
    obtain ⟨d, t, ht⟩ : ∃ d t, s ++ newline :: rest = d :: t := by
      cases s with
      | nil => exact ⟨_, _, rfl⟩
      | cons d s => exact ⟨_, _, rfl⟩
    rw [List.cons_append, ht, splitlines, if_neg fun h => hcr h.1, if_neg hc, ← ht, ih, prepend_cons]

theorem inputLines_line {s : PyStr} (h : newline ∉ s) : inputLines (s ++ [newline]) = [s] := by
  induction s with
  | nil => rfl
  | cons c s ih =>
    rw [List.mem_cons, not_or] at h
    rw [List.cons_append, inputLines, if_neg fun hc => h.1 hc.symm, ih h.2, prepend_cons]

theorem takeWhile_bar {s : PyStr} (h : bar ∉ s) (rest : PyStr) :
    (s ++ bar :: rest).takeWhile (· ≠ bar) = s ∧ ((s ++ bar :: rest).dropWhile (· ≠ bar)).drop 1 = rest := by
  induction s with
  | nil => simp
  | cons c s ih =>
    rw [List.mem_cons, not_or] at h
    obtain ⟨h1, h2⟩ := ih h.2
    have hc : c ≠ bar := fun he => h.1 he.symm
    rw [List.cons_append, List.takeWhile_cons_of_pos (by simpa using hc), List.dropWhile_cons_of_pos (by simpa using hc),
      h1, h2]
    exact ⟨rfl, rfl⟩

theorem parseMessage_line {key : PyStr} (h : bar ∉ key) (value : PyStr) :
    parseMessage (key ++ bar :: value) = some ⟨key, value⟩ := by
  obtain ⟨h1, h2⟩ := takeWhile_bar h value
  rw [parseMessage, if_pos (by simp), h1, h2]

theorem splitBars_line {s : PyStr} (h : bar ∉ s) (limit : ℕ) (rest : PyStr) :
    splitBars (limit + 1) (s ++ bar :: rest) = s :: splitBars limit rest := by
  obtain ⟨h1, h2⟩ := takeWhile_bar h rest
  rw [splitBars, if_pos (by simp), h1, h2]

/-! ## Numbers of the consumer -/

theorem decimalDigit_digit {c : CodePoint} (h : IsDigit c) : decimalDigit c = some (c.val - 48) := by
  unfold IsDigit at h
  rw [decimalDigit, decimalZeros, List.find?_cons_of_pos (by simp; omega)]
  rfl

theorem literalDigits_digits : ∀ (afterDigit : Bool) {s : PyStr}, Digits s → (s ≠ [] ∨ afterDigit = true) →
    literalDigits afterDigit s = some (s.map fun c => c.val - 48)
  | afterDigit, [], _, hne => by
      rw [literalDigits, if_pos (hne.resolve_left (by simp))]
      rfl
  | afterDigit, c :: s, hs, _ => by
      have hc : 48 ≤ c.val ∧ c.val ≤ 57 := hs c (List.mem_cons_self ..)
      rw [literalDigits, if_neg (by omega), decimalDigit_digit hc,
        literalDigits_digits true (fun d hd => hs d (List.mem_cons_of_mem c hd)) (.inr rfl)]
      rfl

theorem not_literalSpace {c : CodePoint} (h : IsDigit c) : isLiteralSpace c = false := by
  unfold IsDigit at h
  unfold isLiteralSpace
  rw [Bool.or_eq_false_iff, Bool.or_eq_false_iff]
  refine ⟨⟨?_, ?_⟩, ?_⟩
  · rw [Bool.and_eq_false_iff]
    exact .inr (by simp; omega)
  · simp only [beq_eq_false_iff_ne]
    omega
  · rw [Bool.and_eq_false_iff]
    exact .inl (by simp; omega)

theorem dropSpace_digits {s : PyStr} (h : Digits s) : s.dropWhile isLiteralSpace = s := by
  cases s with
  | nil => rfl
  | cons c s => rw [List.dropWhile_cons_of_neg (by simp [not_literalSpace (h c (List.mem_cons_self ..))])]

theorem foldl_digits (s : PyStr) : (s.map fun c => c.val - 48).foldl (fun acc d => acc * 10 + d) 0 = digitsValue s := by
  rw [List.foldl_map]
  rfl

theorem intOf_natText {n : ℕ} (hn : n < 10 ^ maxStrDigits) : intOf (natText n) = some (n : ℤ) := by
  have hdigits := digits_natText n
  have hrev : Digits (natText n).reverse := fun c hc => hdigits c (List.mem_reverse.mp hc)
  obtain ⟨c, t, ht⟩ := List.exists_cons_of_ne_nil (natText_ne_nil n)
  have hc : 48 ≤ c.val ∧ c.val ≤ 57 := hdigits c (by rw [ht]; exact List.mem_cons_self ..)
  have hneg : ¬ ((natText n).head?.map Fin.val = some 0x2D) := by
    rw [ht]
    simp only [List.head?_cons, Option.map_some, Option.some.injEq]
    omega
  have hplus : ¬ ((natText n).head?.map Fin.val = some 0x2B) := by
    rw [ht]
    simp only [List.head?_cons, Option.map_some, Option.some.injEq]
    omega
  have hlen := natText_length hn
  unfold intOf
  simp only [dropSpace_digits hdigits, dropSpace_digits hrev, List.reverse_reverse, hneg, hplus, or_self, if_false,
    literalDigits_digits false hdigits (.inl (natText_ne_nil n)), List.length_map]
  rw [if_neg (by omega), foldl_digits, digitsValue_natText]

/-! ## Records -/

/-- The line format carries the key: it holds no separator and no line break. -/
def Carries (key : PyStr) : Prop := bar ∉ key ∧ ∀ c ∈ key, ¬ IsLineBreak c

-- over the characters of the key, not over all code points
instance (key : PyStr) : Decidable (Carries key) :=
  haveI := List.decidableBAll (fun c => ¬ IsLineBreak c) key
  inferInstanceAs (Decidable (bar ∉ key ∧ ∀ c ∈ key, ¬ IsLineBreak c))

theorem not_break_of_printable {s : PyStr} (h : Printable s) : ∀ c ∈ s, ¬ IsLineBreak c := by
  intro c hc hbreak
  have hc := h c hc
  simp only [IsLineBreak, List.mem_cons, List.not_mem_nil, or_false] at hbreak
  omega

/-- The record of an envelope whose key is carried. -/
structure RecordOf (e : CanonicalIngestionEnvelope) (r : TopicRecord) : Prop where
  carries : Carries e.aggregateRef
  key : r.key = e.aggregateRef
  value : dumps e.toMapping = .ok r.value

theorem readMessages_line {e : CanonicalIngestionEnvelope} (hc : Carries e.aggregateRef) {line : PyStr}
    (hline : lineOf e = .ok line) :
    ∃ r, RecordOf e r ∧ readMessages (inputLines (line ++ [newline])) = ([r], true) := by
  obtain ⟨text, htext, h⟩ := bind_eq_ok.1 hline
  have hprint := not_break_of_printable (printable_dumps _ _ htext)
  have hnl : newline ∉ line := by
    cases h
    have hbar : newline ∉ py "|" := by decide
    simp only [List.mem_append, not_or]
    refine ⟨⟨fun hmem => hc.2 _ hmem (by decide), hbar⟩, fun hmem => hprint _ hmem (by decide)⟩
  refine ⟨⟨e.aggregateRef, text⟩, ⟨hc, rfl, htext⟩, ?_⟩
  have hshape : line = e.aggregateRef ++ bar :: text := by
    cases h
    simp [show py "|" = [bar] by decide]
  rw [inputLines_line hnl, hshape, readMessages, parseMessage_line hc.1]
  rfl

variable (broker : Broker)

/-- The printed record, without its newline. -/
def Broker.body (topic : List TopicRecord) (index : ℕ) (r : TopicRecord) : PyStr :=
  py "Partition:" ++ natText (broker.partitionOf r.key).val ++ bar :: (py "Offset:" ++
    natText (broker.offsetOf topic index r.key) ++ bar :: (r.key ++ bar :: r.value))

theorem printed_eq (topic : List TopicRecord) (index : ℕ) (r : TopicRecord) :
    broker.printed topic index r = broker.body topic index r ++ [newline] := by
  have hoffset : py "|Offset:" = bar :: py "Offset:" := by decide
  have hbar : py "|" = [bar] := by decide
  unfold Broker.printed Broker.body
  rw [hoffset, hbar]
  simp only [List.append_assoc, List.cons_append, List.nil_append]

/-- What the consumer prints in front of the key. -/
def Broker.heading (topic : List TopicRecord) (index : ℕ) (key : PyStr) : PyStr :=
  py "Partition:" ++ natText (broker.partitionOf key).val ++ bar :: (py "Offset:" ++
    natText (broker.offsetOf topic index key) ++ [bar])

theorem body_eq_heading (topic : List TopicRecord) (index : ℕ) (r : TopicRecord) :
    broker.body topic index r = broker.heading topic index r.key ++ (r.key ++ bar :: r.value) := by
  unfold Broker.body Broker.heading
  simp only [List.append_assoc, List.cons_append, List.nil_append]

theorem not_break_heading (topic : List TopicRecord) (index : ℕ) (key : PyStr) :
    ∀ c ∈ broker.heading topic index key, ¬ IsLineBreak c := by
  have hnat : ∀ n, ∀ c ∈ natText n, ¬ IsLineBreak c :=
    fun n => not_break_of_printable (printable_digits (digits_natText n))
  have hword : ∀ s : String, ((py s).all fun c => 0x20 ≤ c.val && c.val ≤ 0x7E) = true → ∀ c ∈ py s, ¬ IsLineBreak c :=
    fun s hs => not_break_of_printable (printable_of_check hs)
  have hbar : ¬ IsLineBreak bar := by decide
  intro c hc
  unfold Broker.heading at hc
  simp only [List.mem_append, List.mem_cons, List.not_mem_nil, or_false] at hc
  rcases hc with (hc | hc) | rfl | (hc | hc) | rfl
  · exact hword "Partition:" (by decide) c hc
  · exact hnat _ c hc
  · exact hbar
  · exact hword "Offset:" (by decide) c hc
  · exact hnat _ c hc
  · exact hbar

theorem bar_not_mem_labelled {label : String} (h : bar ∉ py label) (n : ℕ) : bar ∉ py label ++ natText n := by
  rw [List.mem_append, not_or]
  exact ⟨h, fun hmem => absurd (natText_digits n bar hmem) (by decide)⟩

theorem intField_labelled (label : String) {n : ℕ} (hn : n < 10 ^ maxStrDigits) :
    intField label (py label ++ natText n) = .ok (n : ℤ) := by
  rw [intField, if_pos (List.prefix_append _ _), List.drop_left, intOf_natText hn]
  rfl

theorem partition_lt (key : PyStr) : (broker.partitionOf key).val < 10 ^ maxStrDigits :=
  lt_of_lt_of_le (broker.partitionOf key).isLt (le_trans (by norm_num : (3 : ℕ) ≤ 10 ^ 1)
    (Nat.pow_le_pow_right (by omega) (by decide)))

theorem offset_lt (topic : List TopicRecord) (index : ℕ) (key : PyStr) :
    broker.offsetOf topic index key < 10 ^ maxStrDigits :=
  lt_of_lt_of_le (Nat.mod_lt _ (by norm_num)) (le_trans (by norm_num : (2 : ℕ) ^ 63 ≤ 10 ^ 19)
    (Nat.pow_le_pow_right (by omega) (by decide)))

/-- The record a line is read as, if its envelope is taken back. -/
def Broker.readRecord (topic : List TopicRecord) (index : ℕ) (r : TopicRecord) (e : CanonicalIngestionEnvelope) :
    Except EventError DeliveredRecord :=
  (CanonicalIngestionEnvelope.fromMapping (StandardJson.reread e.toMapping)).map fun envelope =>
    ⟨(broker.partitionOf r.key).val, broker.offsetOf topic index r.key, envelope⟩

theorem readLine_body {e : CanonicalIngestionEnvelope} {r : TopicRecord} (h : RecordOf e r) (topic : List TopicRecord)
    (index : ℕ) :
    readLine (broker.body topic index r) = (broker.readRecord topic index r e).map some := by
  obtain ⟨hcarries, hkey, hvalue⟩ := h
  have hprefix : py "Partition:" <+: broker.body topic index r := by
    unfold Broker.body
    rw [List.append_assoc]
    exact List.prefix_append _ _
  have hbars : splitBars 3 (broker.body topic index r) =
      [py "Partition:" ++ natText (broker.partitionOf r.key).val,
        py "Offset:" ++ natText (broker.offsetOf topic index r.key), r.key, r.value] := by
    unfold Broker.body
    rw [splitBars_line (bar_not_mem_labelled (by decide) _), splitBars_line (bar_not_mem_labelled (by decide) _),
      splitBars_line (by rw [hkey]; exact hcarries.1), splitBars]
  rw [readLine, if_pos hprefix, hbars]
  dsimp only
  rw [loads_dumps hvalue, intField_labelled _ (partition_lt broker r.key),
    intField_labelled _ (offset_lt broker topic index r.key), Broker.readRecord]
  simp only [Except.mapError, bind, Except.bind]
  cases CanonicalIngestionEnvelope.fromMapping (StandardJson.reread e.toMapping) <;> rfl

theorem not_break_body {e : CanonicalIngestionEnvelope} {r : TopicRecord} (h : RecordOf e r) (topic : List TopicRecord)
    (index : ℕ) : ∀ c ∈ broker.body topic index r, ¬ IsLineBreak c := by
  obtain ⟨hcarries, hkey, hvalue⟩ := h
  have hval := not_break_of_printable (printable_dumps _ _ hvalue)
  intro c hc
  rw [body_eq_heading, List.mem_append, List.mem_append, List.mem_cons] at hc
  rcases hc with hc | hc | rfl | hc
  · exact not_break_heading broker topic index r.key c hc
  · exact hcarries.2 c (by rwa [hkey] at hc)
  · decide
  · exact hval c hc

/-! ## The whole journal -/

/-- The topic holds the records of these envelopes, in this order. -/
def Holds (written : List CanonicalIngestionEnvelope) (topic : List TopicRecord) : Prop :=
  List.Forall₂ RecordOf written topic

theorem readLines_cons (line : PyStr) (lines : List PyStr) :
    readLines (line :: lines) = (do
      let record ← readLine line
      let records ← readLines lines
      return record.toList ++ records) := by
  unfold readLines
  rw [List.mapM_cons]
  cases readLine line with
  | error error => rfl
  | ok record =>
    cases lines.mapM readLine with
    | error error => rfl
    | ok records => cases record <;> rfl

theorem Holds.recordOf {written : List CanonicalIngestionEnvelope} {topic : List TopicRecord} (h : Holds written topic)
    {index : ℕ} {r : TopicRecord} (hr : topic[index]? = some r) : ∃ e, written[index]? = some e ∧ RecordOf e r := by
  obtain ⟨hlt, rfl⟩ := List.getElem?_eq_some_iff.mp hr
  have hlen := h.length_eq
  exact ⟨written[index], List.getElem?_eq_getElem _, (List.forall₂_iff_get.mp h).2 index (by omega) hlt⟩

theorem splitlines_output {written : List CanonicalIngestionEnvelope} {topic : List TopicRecord}
    (h : Holds written topic) (indices : List ℕ) :
    splitlines (indices.flatMap fun index => (topic[index]?.map (broker.printed topic index)).getD []) =
      indices.filterMap fun index => topic[index]?.map (broker.body topic index) := by
  induction indices with
  | nil => rfl
  | cons index indices ih =>
    rw [List.flatMap_cons]
    cases hr : topic[index]? with
    | none =>
      rw [List.filterMap_cons_none (by rw [hr]; rfl)]
      simpa using ih
    | some r =>
      obtain ⟨e, -, hrec⟩ := h.recordOf hr
      rw [List.filterMap_cons_some (by rw [hr]; rfl), Option.map_some, Option.getD_some, printed_eq, List.append_assoc,
        List.singleton_append, splitlines_line (not_break_body broker hrec topic index), ih]

/-- What the consumer's lines are read as: the records of the delivery, each if its envelope is taken back. -/
theorem readLines_output {written : List CanonicalIngestionEnvelope} {topic : List TopicRecord}
    (h : Holds written topic) (indices : List ℕ) {records : List DeliveredRecord} :
    readLines (indices.filterMap fun index => topic[index]?.map (broker.body topic index)) = .ok records →
      records.map DeliveredRecord.envelope = (indices.filterMap (written[·]?)).map CanonicalIngestionEnvelope.reread ∧
        ∀ e ∈ indices.filterMap (written[·]?), e.Valid := by
  induction indices generalizing records with
  | nil =>
    intro hread
    cases hread
    exact ⟨rfl, by simp⟩
  | cons index indices ih =>
    intro hread
    cases hr : topic[index]? with
    | none =>
      have hw : written[index]? = none := by
        rw [List.getElem?_eq_none_iff] at hr ⊢
        rw [h.length_eq]
        exact hr
      rw [List.filterMap_cons_none (by rw [hr]; rfl)] at hread
      rw [List.filterMap_cons_none hw]
      exact ih hread
    | some r =>
      obtain ⟨e, hw, hrec⟩ := h.recordOf hr
      rw [List.filterMap_cons_some (by rw [hr]; rfl), readLines_cons, readLine_body broker hrec] at hread
      obtain ⟨record, hrecord, hread⟩ := bind_ok_iff.1 hread
      obtain ⟨rest, hrest, hread⟩ := bind_ok_iff.1 hread
      cases hread
      obtain ⟨delivered, hdelivered, rfl⟩ := map_eq_ok hrecord
      obtain ⟨envelope, henvelope, rfl⟩ := map_eq_ok hdelivered
      obtain ⟨hvalid, rfl⟩ := fromMapping_reread.1 henvelope
      obtain ⟨henvelopes, hall⟩ := ih hrest
      rw [List.filterMap_cons_some hw]
      refine ⟨?_, ?_⟩
      · simp [henvelopes]
      · intro f hf
        rcases List.mem_cons.mp hf with rfl | hf
        · exact hvalid
        · exact hall f hf

theorem mem_delivered {α : Type} {items : List α} {indices : List ℕ} (hnd : indices.Nodup)
    (hlen : (indices.filterMap (items[·]?)).length = items.length) {a : α} (ha : a ∈ items) :
    a ∈ indices.filterMap (items[·]?) := by
  obtain ⟨inside, hinside⟩ : ∃ inside, inside = indices.filter (· < items.length) := ⟨_, rfl⟩
  have hcount : inside.length = items.length := by
    rw [← hlen, hinside]
    clear hlen hnd hinside
    induction indices with
    | nil => rfl
    | cons index indices ih =>
      by_cases hlt : index < items.length
      · rw [List.filter_cons_of_pos (by simpa using hlt), List.filterMap_cons_some (List.getElem?_eq_getElem hlt),
          List.length_cons, List.length_cons, ih]
      · rw [List.filter_cons_of_neg (by simpa using hlt),
          List.filterMap_cons_none (List.getElem?_eq_none (by omega)), ih]
  have hset : inside.toFinset = Finset.range items.length := by
    apply Finset.eq_of_subset_of_card_le
    · intro index hindex
      rw [List.mem_toFinset, hinside, List.mem_filter] at hindex
      simpa using hindex.2
    · rw [List.toFinset_card_of_nodup (hinside ▸ hnd.filter _), Finset.card_range, hcount]
  obtain ⟨index, hlt, rfl⟩ := List.getElem_of_mem ha
  have hmem : index ∈ inside := by
    rw [← List.mem_toFinset, hset]
    exact Finset.mem_range.mpr hlt
  rw [hinside, List.mem_filter] at hmem
  exact List.mem_filterMap.mpr ⟨index, hmem.1, List.getElem?_eq_getElem hlt⟩

theorem consume_output {written : List CanonicalIngestionEnvelope} {topic : List TopicRecord}
    (h : Holds written topic) {delivery : Delivery} {records : List DeliveredRecord}
    (hread : consume (broker.output topic delivery) topic.length = .ok records) :
    ∀ e ∈ written, e.reread ∈ records.map DeliveredRecord.envelope := by
  obtain ⟨lines, hlines, hread⟩ := bind_ok_iff.1 hread
  obtain ⟨_, hcount, hread⟩ := bind_ok_iff.1 hread
  cases hread
  rw [refuseIf_eq_ok, not_not] at hcount
  rw [Broker.output, splitlines_output broker h] at hlines
  obtain ⟨henvelopes, -⟩ := readLines_output broker h delivery.indices hlines
  have hlen : (delivery.indices.filterMap (written[·]?)).length = written.length := by
    have hmap := congrArg List.length henvelopes
    rw [List.length_map, List.length_map, hcount] at hmap
    rw [← hmap, h.length_eq]
  intro e he
  rw [henvelopes]
  exact List.mem_map_of_mem (mem_delivered delivery.nodup hlen he)

end OcorRuntime.Events

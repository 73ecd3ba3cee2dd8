import OcorRuntime.Canonical.NumberReading

/-! A canonical text reads back as a value with that text. `settle` is the value a
document holds once it has been written and read: numbers as the reader returns them,
sequences as lists, objects in key order. Reading changes nothing a second time. -/
namespace OcorRuntime.Canonical
set_option autoImplicit false
set_option maxHeartbeats 250000
set_option maxRecDepth 120000

/-! ## Values as the reader returns them -/

/-- A number read from its own text. -/
def settleNumber (v : PyValue) : PyValue :=
  match serialize v with
  | .error _ => v
  | .ok text => match decodeText text with
    | .ok u => u
    | .error _ => v

def settle : PyValue → PyValue
  | .int n => settleNumber (.int n)
  | .float x => settleNumber (.float x)
  | .list xs => .list (xs.map settle)
  | .tuple xs => .list (xs.map settle)
  | .mapping es =>
    .mapping (((es.map fun e => (keyText e.1, settle e.2)).insertionSort KeyLe).map fun e => (.str e.1, e.2))
  | v => v
termination_by v => sizeOf v
decreasing_by
  all_goals simp_wf
  · exact Nat.lt_add_left 1 (List.sizeOf_lt_of_mem ‹_›)
  · exact Nat.lt_add_left 1 (List.sizeOf_lt_of_mem ‹_›)
  · exact sizeOf_entry_lt ‹_›

attribute [local grind =] settle

/-- Every object inside has distinct keys, as a dictionary does. -/
def Keyed : PyValue → Prop
  | .list xs => ∀ x ∈ xs, Keyed x
  | .tuple xs => ∀ x ∈ xs, Keyed x
  | .mapping es => (es.map Prod.fst).Nodup ∧ ∀ e ∈ es, Keyed e.2
  | _ => True
termination_by v => sizeOf v
decreasing_by
  all_goals simp_wf
  · exact Nat.lt_add_left 1 (List.sizeOf_lt_of_mem ‹_›)
  · exact Nat.lt_add_left 1 (List.sizeOf_lt_of_mem ‹_›)
  · exact sizeOf_entry_lt ‹_›

attribute [local grind =] Keyed

/-- The members of an object once read, in key order. -/
def settledMembers (es : List (MappingKey × PyValue)) : List (PyStr × PyValue) :=
  (es.map fun e => (keyText e.1, settle e.2)).insertionSort KeyLe

theorem settle_mapping (es : List (MappingKey × PyValue)) :
    settle (.mapping es) = .mapping ((settledMembers es).map fun e => (.str e.1, e.2)) := by
  rw [settle, settledMembers]

/-! ## Reading is a function of the text -/

theorem ReadsAs.decode {text : PyStr} {v : PyValue} (h : ReadsAs text v) : decodeText text = .ok v := by
  obtain ⟨c, t, hct, hc⟩ := h.head
  have hskip : skipSpace text = text := by
    rw [hct]
    exact skipSpace_cons hc.not_space t
  have hscan := h.scan (text.length + 1) [] (by omega) (Or.inl rfl)
  rw [List.append_nil] at hscan
  rw [decodeText, hskip, hscan]
  rfl

/-! ## Numbers -/

theorem settleNumber_eq {v u : PyValue} {text : PyStr} (hv : serialize v = .ok text) (hr : ReadsAs text u) :
    settleNumber v = u := by
  rw [settleNumber, hv]
  dsimp only
  rw [hr.decode]

theorem serializeFloat_reads {x : Binary64} {text : PyStr} (h : serializeFloat x = .ok text) :
    ∃ u, ReadsAs text u ∧ serialize u = .ok text := by
  cases x with
  | finite x =>
    by_cases hz : x.IsZero
    · rw [serializeFloat, if_pos hz] at h
      have hzero : serialize (.int 0) = .ok text := by
        rw [← h]
        decide
      have hread : Reads (.int 0) := reads_int (by decide)
      have htext : text = render (.int 0) := by
        rw [← Except.ok.inj h, render]
        decide
      exact ⟨.int 0, htext ▸ hread, hzero⟩
    · have ht : serializeFloat (.finite x) = .ok (floatText x) := by
        have := serialize_finite hz
        rwa [serialize] at this
      rw [h] at ht
      rw [Except.ok.inj ht]
      exact readsAs_floatText hz
  | infinite s => cases h
  | nan => cases h

theorem serializeInteger_reads {n : ℤ} {text : PyStr} (h : serializeInteger n = .ok text) :
    ∃ u, ReadsAs text u ∧ serialize u = .ok text := by
  by_cases hn : n.natAbs ≤ maxSafeInteger
  · refine ⟨.int n, ?_, by rw [serialize]; exact h⟩
    rw [serializeInteger, if_pos hn] at h
    have hread : Reads (.int n) := reads_int hn
    rw [Reads, render] at hread
    exact Except.ok.inj h ▸ hread
  · rw [serializeInteger, if_neg hn] at h
    split at h
    · split_ifs at h
      exact serializeFloat_reads h
    · cases h

theorem settleNumber_spec {v : PyValue} {text : PyStr} (hv : serialize v = .ok text)
    (h : ∃ u, ReadsAs text u ∧ serialize u = .ok text) :
    ReadsAs text (settleNumber v) ∧ serialize (settleNumber v) = .ok text := by
  obtain ⟨u, hu, hs⟩ := h
  rw [settleNumber_eq hv hu]
  exact ⟨hu, hs⟩

/-! ## Objects -/

/-- The text of a value that has one. -/
def textOf (v : PyValue) : PyStr := (serialize v).toOption.getD []

theorem serialize_textOf {v : PyValue} {text : PyStr} (h : serialize v = .ok text) : serialize v = .ok (textOf v) := by
  rw [textOf, h]
  rfl

theorem textOf_eq {v : PyValue} {text : PyStr} (h : serialize v = .ok text) : textOf v = text := by
  rw [textOf, h]
  rfl

def memberLine (m : PyStr × PyValue) : PyStr := stringText m.1 ++ py ":" ++ textOf m.2

/-- The members of an object in the order they are written. -/
def writtenMembers (es : List (MappingKey × PyValue)) : List (PyStr × PyValue) :=
  (es.map fun e => (keyText e.1, e.2)).insertionSort KeyLe

theorem mem_writtenMembers {es : List (MappingKey × PyValue)} {m : PyStr × PyValue} (hm : m ∈ writtenMembers es) :
    ∃ e ∈ es, m = (keyText e.1, e.2) := by
  rw [writtenMembers, List.mem_insertionSort] at hm
  obtain ⟨e, he, rfl⟩ := List.mem_map.mp hm
  exact ⟨e, he, rfl⟩

/-- Text keys and values that have a text. -/
structure Writable (es : List (MappingKey × PyValue)) : Prop where
  keys : ∀ e ∈ es, ∃ k, e.1 = .str k ∧ Scalar k
  values : ∀ e ∈ es, serialize e.2 = .ok (textOf e.2)

theorem Writable.scalar {es : List (MappingKey × PyValue)} (h : Writable es) {e : MappingKey × PyValue} (he : e ∈ es) :
    Scalar (keyText e.1) := by
  obtain ⟨k, hk, hs⟩ := h.keys e he
  rw [hk]
  exact hs

theorem serialize_writable {es : List (MappingKey × PyValue)} (h : Writable es) :
    serialize (.mapping es) = .ok (py "\x7b" ++ joinCommas ((writtenMembers es).map memberLine) ++ py "\x7d") := by
  have hstr : ∀ e ∈ es, (MappingKey.str? e.1).isSome = true := by
    intro e he
    obtain ⟨k, hk, -⟩ := h.keys e he
    rw [hk]
    rfl
  have hentries : serializeEntries es =
      (es.map fun e => (keyText e.1, e.2)).map fun m => (m.1, (.ok (textOf m.2) : Except PyError PyStr)) := by
    rw [serializeEntries_eq h.keys, List.map_map]
    exact List.map_congr_left fun e he => by rw [Function.comp_apply, h.values e he]
  have hsorted : (serializeEntries es).insertionSort KeyLe =
      (writtenMembers es).map fun m => (m.1, (.ok (textOf m.2) : Except PyError PyStr)) := by
    rw [hentries, writtenMembers]
    exact (List.map_insertionSort KeyLe KeyLe (fun m => (m.1, (.ok (textOf m.2) : Except PyError PyStr)))
      _ fun _ _ _ _ => Iff.rfl).symm
  have hvalid : (serializeEntries es).mapM (fun entry => utf16SortKey entry.1) =
      .ok ((serializeEntries es).map fun entry => utf16BeEncode entry.1) := by
    refine mapM_ok fun x hx => utf16SortKey_ok ?_
    rw [hentries, List.map_map] at hx
    obtain ⟨e, he, rfl⟩ := List.mem_map.mp hx
    exact h.scalar he
  have hmembers : ((serializeEntries es).insertionSort KeyLe).mapM member =
      .ok ((writtenMembers es).map memberLine) := by
    rw [hsorted, mapM_ok (g := fun x => match x.2 with | .ok t => stringText x.1 ++ py ":" ++ t | .error _ => []),
      List.map_map]
    · rfl
    · intro x hx
      obtain ⟨m, hm, rfl⟩ := List.mem_map.mp hx
      obtain ⟨e, he, rfl⟩ := mem_writtenMembers hm
      rw [member, serializeString_ok (h.scalar he)]
      rfl
  rw [serialize, if_pos hstr, hvalid, hmembers]
  rfl

theorem writable_of_serialize {es : List (MappingKey × PyValue)} {text : PyStr}
    (h : serialize (.mapping es) = .ok text) : Writable es := by
  have hfull := h
  rw [serialize] at h
  split_ifs at h with hstr
  obtain ⟨keys, hk, -⟩ := bind_eq_ok.1 h
  have hkeys : ∀ e ∈ es, ∃ k, e.1 = .str k ∧ Scalar k := by
    rintro ⟨key, value⟩ he
    have hsome := hstr _ he
    cases key with
    | other n => cases hsome
    | str k =>
      refine ⟨k, rfl, ?_⟩
      obtain ⟨y, hy⟩ := mapM_mem_ok hk _ (mem_serializeEntries he)
      unfold utf16SortKey validateScalarString at hy
      by_contra hs
      rw [if_neg hs] at hy
      cases hy
  refine ⟨hkeys, ?_⟩
  rintro ⟨key, value⟩ he
  obtain ⟨k, hkey, -⟩ := hkeys _ he
  dsimp only at hkey
  subst hkey
  obtain ⟨t, ht⟩ := serialize_member hfull he
  exact serialize_textOf ht

instance : Std.Total (KeyLe (α := PyValue)) := ⟨fun a b => le_total (utf16BeEncode a.1) (utf16BeEncode b.1)⟩

instance : IsTrans (PyStr × PyValue) KeyLe := ⟨fun _ _ _ hab hbc => le_trans (α := Bytes) hab hbc⟩

theorem writtenMembers_settled (es : List (MappingKey × PyValue)) :
    writtenMembers ((settledMembers es).map fun e => (.str e.1, e.2)) = settledMembers es := by
  rw [writtenMembers, List.map_map]
  have hid : ((fun e : MappingKey × PyValue => (keyText e.1, e.2)) ∘ fun e : PyStr × PyValue => (.str e.1, e.2)) = id :=
    rfl
  rw [hid, List.map_id]
  exact (List.pairwise_insertionSort KeyLe _).insertionSort_eq

/-- Sorting looks at the keys only, so that members are settled before or after it. -/
theorem settledMembers_eq (es : List (MappingKey × PyValue)) :
    settledMembers es = (writtenMembers es).map fun m => (m.1, settle m.2) := by
  have h := List.map_insertionSort KeyLe KeyLe (fun m : PyStr × PyValue => (m.1, settle m.2))
    (es.map fun e => (keyText e.1, e.2)) fun _ _ _ _ => Iff.rfl
  rw [List.map_map] at h
  exact h.symm

theorem settledMembers_keys_nodup {es : List (MappingKey × PyValue)} (h : Writable es) (hnd : (es.map Prod.fst).Nodup) :
    ((settledMembers es).map Prod.fst).Nodup := by
  have hperm : ((settledMembers es).map Prod.fst).Perm ((es.map Prod.fst).map keyText) := by
    have := (List.perm_insertionSort KeyLe (es.map fun e => (keyText e.1, settle e.2))).map Prod.fst
    rw [List.map_map] at this ⊢
    exact this
  rw [hperm.nodup_iff]
  refine hnd.map_on fun a ha b hb hab => ?_
  obtain ⟨e, he, rfl⟩ := List.mem_map.mp ha
  obtain ⟨f, hf, rfl⟩ := List.mem_map.mp hb
  obtain ⟨k, hk, -⟩ := h.keys e he
  obtain ⟨j, hj, -⟩ := h.keys f hf
  rw [hk, hj] at hab ⊢
  exact congrArg MappingKey.str hab

/-! ## The fixed point -/

/-- The text reads back as the settled value, which has that text. -/
def Settles (v : PyValue) : Prop :=
  ∀ text, serialize v = .ok text → ReadsAs text (settle v) ∧ serialize (settle v) = .ok text

theorem settles_items {xs : List PyValue} (ih : ∀ x ∈ xs, Settles x) {texts : List PyStr}
    (h : serializeItems xs = .ok texts) :
    (∀ u ∈ texts.zip (xs.map settle), ReadsAs u.1 u.2) ∧ texts.length = xs.length ∧
      serializeItems (xs.map settle) = .ok texts := by
  induction xs generalizing texts with
  | nil =>
    rw [serializeItems] at h
    cases h
    exact ⟨by simp, rfl, by rw [List.map_nil, serializeItems]⟩
  | cons x xs ihxs =>
    rw [serializeItems] at h
    obtain ⟨part, hpart, h⟩ := bind_eq_ok.1 h
    obtain ⟨parts, hparts, heq⟩ := bind_eq_ok.1 h
    cases heq
    obtain ⟨hread, hlen, hser⟩ := ihxs (fun y hy => ih y (List.mem_cons_of_mem x hy)) hparts
    obtain ⟨hx, hsx⟩ := ih x List.mem_cons_self part hpart
    refine ⟨?_, by rw [List.length_cons, List.length_cons, hlen], ?_⟩
    · rw [List.map_cons, List.zip_cons_cons]
      intro u hu
      rcases List.mem_cons.mp hu with rfl | hu
      · exact hx
      · exact hread u hu
    · rw [List.map_cons, serializeItems, hsx, hser]
      rfl

theorem settles_sequence {xs : List PyValue} (ih : ∀ x ∈ xs, Settles x) {text : PyStr}
    (h : (do let parts ← serializeItems xs; return py "[" ++ joinCommas parts ++ py "]") = Except.ok (ε := PyError) text) :
    ReadsAs text (.list (xs.map settle)) ∧ serialize (.list (xs.map settle)) = .ok text := by
  obtain ⟨parts, hparts, heq⟩ := bind_eq_ok.1 h
  cases heq
  obtain ⟨hread, hlen, hser⟩ := settles_items ih hparts
  have hlen' : parts.length = (xs.map settle).length := by rw [List.length_map, hlen]
  have hlist := readsAs_list hread
  rw [List.map_fst_zip hlen'.le, List.map_snd_zip hlen'.ge] at hlist
  refine ⟨hlist, ?_⟩
  rw [serialize, hser]
  rfl

theorem settles_mapping {es : List (MappingKey × PyValue)} (hnd : (es.map Prod.fst).Nodup)
    (ih : ∀ e ∈ es, Settles e.2) : Settles (.mapping es) := by
  intro text h
  have hw := writable_of_serialize h
  have htext := serialize_writable hw
  rw [h] at htext
  have hmember : ∀ m ∈ writtenMembers es, Scalar m.1 ∧ ReadsAs (textOf m.2) (settle m.2) ∧
      serialize (settle m.2) = .ok (textOf m.2) := by
    intro m hm
    obtain ⟨e, he, rfl⟩ := mem_writtenMembers hm
    exact ⟨hw.scalar he, ih e he _ (hw.values e he)⟩
  have hsettled : Writable ((settledMembers es).map fun e => (.str e.1, e.2)) := by
    constructor
    · intro e he
      obtain ⟨m, hm, rfl⟩ := List.mem_map.mp he
      rw [settledMembers_eq] at hm
      obtain ⟨w, hw, rfl⟩ := List.mem_map.mp hm
      exact ⟨w.1, rfl, (hmember w hw).1⟩
    · intro e he
      obtain ⟨m, hm, rfl⟩ := List.mem_map.mp he
      rw [settledMembers_eq] at hm
      obtain ⟨w, hw, rfl⟩ := List.mem_map.mp hm
      exact serialize_textOf (hmember w hw).2.2
  have hlines : (settledMembers es).map memberLine = (writtenMembers es).map memberLine := by
    rw [settledMembers_eq, List.map_map]
    refine List.map_congr_left fun m hm => ?_
    rw [Function.comp_apply, memberLine, memberLine, textOf_eq (hmember m hm).2.2]
  rw [settle_mapping]
  constructor
  · have hread := @readsAs_mapping ((writtenMembers es).map fun m => (m.1, textOf m.2, settle m.2)) (by
      have := settledMembers_keys_nodup hw hnd
      rw [settledMembers_eq, List.map_map] at this
      rw [List.map_map]
      exact this) (by
      intro m hm
      obtain ⟨w, hw, rfl⟩ := List.mem_map.mp hm
      exact ⟨(hmember w hw).1, (hmember w hw).2.1⟩)
    rw [List.map_map, List.map_map] at hread
    rw [Except.ok.inj htext, settledMembers_eq, List.map_map]
    exact hread
  · rw [serialize_writable hsettled, writtenMembers_settled, hlines, htext]

/-- **A canonical text reads back as a value with that text.** -/
theorem settles (v : PyValue) (hk : Keyed v) : Settles v := by
  induction v using PyValue.induct_on with
  | none =>
    intro text h
    rw [serialize] at h
    cases h
    rw [settle]
    · exact ⟨by have := reads_none; rwa [Reads, render] at this, rfl⟩
    all_goals simp
  | bool b =>
    intro text h
    rw [settle]
    · refine ⟨?_, h⟩
      cases b
      · rw [serialize] at h
        cases h
        have := reads_false
        rwa [Reads, render] at this
      · rw [serialize] at h
        cases h
        have := reads_true
        rwa [Reads, render] at this
    all_goals simp
  | int n =>
    intro text h
    rw [settle]
    exact settleNumber_spec h (serializeInteger_reads (by rwa [serialize] at h))
  | float x =>
    intro text h
    rw [settle]
    exact settleNumber_spec h (serializeFloat_reads (by rwa [serialize] at h))
  | str s =>
    intro text h
    rw [settle]
    · refine ⟨?_, h⟩
      have hs := scalar_of_serialize h
      rw [serialize, serializeString_ok hs] at h
      cases h
      have := reads_str hs
      rwa [Reads, render] at this
    all_goals simp
  | list xs ih | tuple xs ih =>
    intro text h
    rw [Keyed] at hk
    rw [serialize] at h
    rw [settle]
    exact settles_sequence (fun x hx => ih x hx (hk x hx)) h
  | mapping es ih =>
    rw [Keyed] at hk
    exact settles_mapping hk.1 fun e he => ih e he (hk.2 e he)
  | other t =>
    intro text h
    rw [serialize] at h
    cases h

/-! ## The characters of a text -/

theorem numberText_serializeFloat {x : Binary64} {text : PyStr} (h : serializeFloat x = .ok text) : NumberText text := by
  cases x with
  | finite x =>
    by_cases hz : x.IsZero
    · rw [serializeFloat, if_pos hz] at h
      cases h
      exact numberText_py (by decide)
    · obtain ⟨digits, position, hlayout, hd, -⟩ := layoutFloat_parts hz
      rw [serializeFloat, if_neg hz, hlayout] at h
      cases h
      rw [numberText_append]
      refine ⟨?_, numberText_layoutDigits hd.digits position⟩
      split_ifs
      · exact numberText_py (by decide)
      · exact fun c hc => by cases hc
  | infinite s => cases h
  | nan => cases h

theorem numberText_serializeInteger {n : ℤ} {text : PyStr} (h : serializeInteger n = .ok text) : NumberText text := by
  unfold serializeInteger at h
  split_ifs at h
  · cases h
    exact numberText_intText n
  · split at h
    · split_ifs at h
      exact numberText_serializeFloat h
    · cases h

theorem printable_number {s : PyStr} (h : NumberText s) : ∀ c ∈ s, 0x20 ≤ c.val := by
  intro c hc
  have hchar := h c hc
  unfold NumberChar IsDigit at hchar
  omega

theorem printable_enclosed {left right : PyStr} {parts : List PyStr} (hl : ∀ c ∈ left, 0x20 ≤ c.val)
    (hr : ∀ c ∈ right, 0x20 ≤ c.val) (h : ∀ t ∈ parts, ∀ c ∈ t, 0x20 ≤ c.val) :
    ∀ c ∈ left ++ joinCommas parts ++ right, 0x20 ≤ c.val := by
  intro c hc
  rw [List.mem_append, List.mem_append] at hc
  rcases hc with (hc | hc) | hc
  · exact hl c hc
  · rcases mem_joinCommas hc with hc | ⟨t, ht, hct⟩
    · omega
    · exact h t ht c hct
  · exact hr c hc

theorem mapM_mem_of_ok {α β : Type} {f : α → Except PyError β} {l : List α} {ys : List β} (h : l.mapM f = .ok ys) :
    ∀ y ∈ ys, ∃ x ∈ l, f x = .ok y := by
  have hall := mapM_eq_ok h
  clear h
  induction hall with
  | nil => simp
  | @cons x y l ys hxy _ ih =>
    intro z hz
    rcases List.mem_cons.mp hz with rfl | hz
    · exact ⟨x, List.mem_cons_self, hxy⟩
    · obtain ⟨w, hw, hwz⟩ := ih z hz
      exact ⟨w, List.mem_cons_of_mem x hw, hwz⟩

theorem serialize_printable (v : PyValue) : ∀ text, serialize v = .ok text → ∀ c ∈ text, 0x20 ≤ c.val := by
  have hitems : ∀ xs : List PyValue, (∀ x ∈ xs, ∀ text, serialize x = .ok text → ∀ c ∈ text, 0x20 ≤ c.val) →
      ∀ text, (do let parts ← serializeItems xs; return py "[" ++ joinCommas parts ++ py "]") =
        Except.ok (ε := PyError) text → ∀ c ∈ text, 0x20 ≤ c.val := by
    intro xs ih text h
    obtain ⟨parts, hparts, heq⟩ := bind_eq_ok.1 h
    cases heq
    rw [serializeItems_eq] at hparts
    refine printable_enclosed (printable_of_all (by decide)) (printable_of_all (by decide)) fun t ht => ?_
    obtain ⟨x, hx, hxt⟩ := mapM_mem_of_ok hparts t ht
    exact ih x hx t hxt
  induction v using PyValue.induct_on with
  | none =>
    intro text h
    rw [serialize] at h
    cases h
    exact printable_of_all (by decide)
  | bool b =>
    intro text h
    cases b <;>
    · rw [serialize] at h
      cases h
      exact printable_of_all (by decide)
  | int n =>
    intro text h
    rw [serialize] at h
    exact printable_number (numberText_serializeInteger h)
  | float x =>
    intro text h
    rw [serialize] at h
    exact printable_number (numberText_serializeFloat h)
  | str s =>
    intro text h
    have hs := scalar_of_serialize h
    rw [serialize, serializeString_ok hs] at h
    cases h
    exact fun c hc => stringText_printable hc
  | list xs ih | tuple xs ih =>
    intro text h
    rw [serialize] at h
    exact hitems xs ih text h
  | mapping es ih =>
    intro text h
    have hw := writable_of_serialize h
    rw [serialize_writable hw] at h
    cases h
    refine printable_enclosed (printable_of_all (by decide)) (printable_of_all (by decide)) fun t ht => ?_
    obtain ⟨m, hm, rfl⟩ := List.mem_map.mp ht
    obtain ⟨e, he, rfl⟩ := mem_writtenMembers hm
    intro c hc
    rw [memberLine, List.mem_append, List.mem_append] at hc
    rcases hc with (hc | hc) | hc
    · exact stringText_printable hc
    · exact printable_of_all (s := py ":") (by decide) c hc
    · exact ih e he _ (hw.values e he) c hc
  | other t =>
    intro text h
    rw [serialize] at h
    cases h

/-! ## Settled values -/

/-! ## Loading -/

theorem canonicalize_eq_ok {v : PyValue} {bytes : Bytes} :
    canonicalize v = .ok bytes ↔ ∃ text, serialize v = .ok text ∧ utf8Encode text = bytes := by
  rw [canonicalize]
  constructor
  · intro h
    obtain ⟨text, ht, heq⟩ := bind_eq_ok.1 h
    exact ⟨text, ht, Except.ok.inj heq⟩
  · rintro ⟨text, ht, rfl⟩
    rw [ht]
    rfl

theorem canonicalize_settle {v : PyValue} (hk : Keyed v) {bytes : Bytes} (h : canonicalize v = .ok bytes) :
    canonicalize (settle v) = .ok bytes := by
  obtain ⟨text, ht, rfl⟩ := canonicalize_eq_ok.1 h
  exact canonicalize_eq_ok.2 ⟨text, (settles v hk text ht).2, rfl⟩

/-- **Loading the canonical bytes of a value returns its settled form.** -/
theorem loadIJson_bytes {v : PyValue} (hk : Keyed v) {bytes : Bytes} (h : canonicalize v = .ok bytes) :
    loadIJson (.bytes bytes) = .ok (settle v) := by
  have hagain := canonicalize_settle hk h
  obtain ⟨text, ht, rfl⟩ := canonicalize_eq_ok.1 h
  obtain ⟨hread, -⟩ := settles v hk text ht
  obtain ⟨c, t, hct, hc⟩ := hread.head
  have hdetect : detectEncoding (utf8Encode text) = .utf8 := by
    have hz := serialize_printable v text ht
    rw [hct] at hz ⊢
    exact detectEncoding_utf8 hc hz
  have hloads : jsonLoads (.bytes (utf8Encode text)) = .ok (settle v) := by
    rw [jsonLoads, hdetect, decodeBytes, utf8Decode_encode]
    exact hread.decode
  rw [loadIJson, hloads]
  dsimp only
  rw [hagain]
  rfl

end OcorRuntime.Canonical

import OcorRuntime.Canonical.Scan

/-! Canonical bytes determine the JSON value. `reads_canon` closes the induction over
values, `loadIJson_canonicalize` is the round trip, and injectivity follows from it
together with the normal form. -/
namespace OcorRuntime.Canonical
set_option autoImplicit false
set_option maxHeartbeats 250000
set_option maxRecDepth 120000

/-! ## Every value reads back -/

theorem not_prefix_cons {a c : CodePoint} (h : a ≠ c) (p t : PyStr) : ¬ a :: p <+: c :: t := by
  rw [List.cons_prefix_cons]
  exact fun hp => h hp.1

theorem py_null : py "null" = codePoint 0x6E :: py "ull" := by decide
theorem py_true : py "true" = codePoint 0x74 :: py "rue" := by decide
theorem py_false : py "false" = codePoint 0x66 :: py "alse" := by decide
theorem py_nan : py "NaN" = codePoint 0x4E :: py "aN" := by decide
theorem py_infinity : py "Infinity" = codePoint 0x49 :: py "nfinity" := by decide
theorem py_negInfinity : py "-Infinity" = codePoint 0x2D :: codePoint 0x49 :: py "nfinity" := by decide

theorem reads_literal {u : PyValue} (c : CodePoint) (tail : PyStr) (hr : render u = c :: tail) (hc : Start c)
    (hscan : ∀ fuel rest, scanOnce (fuel + 1) (c :: (tail ++ rest)) = .ok (u, rest)) : Reads u where
  head := ⟨c, tail, hr, hc⟩
  scan := by
    intro fuel rest hf _
    rw [hr, List.length_cons] at hf
    obtain ⟨n, rfl⟩ : ∃ n, fuel = n + 1 := ⟨fuel - 1, by omega⟩
    rw [hr, List.cons_append]
    exact hscan n rest

theorem reads_none : Reads .none := by
  refine reads_literal (codePoint 0x6E) (py "ull") (by rw [render, py_null]) (by unfold Start; decide) ?_
  intro fuel rest
  have hp : py "null" <+: codePoint 0x6E :: (py "ull" ++ rest) := ⟨rest, by rw [py_null]; rfl⟩
  rw [scanOnce, if_neg (by decide), if_neg (by decide), if_neg (by decide), if_pos hp]
  rfl

theorem reads_true : Reads (.bool true) := by
  refine reads_literal (codePoint 0x74) (py "rue") (by rw [render, py_true]) (by unfold Start; decide) ?_
  intro fuel rest
  have hn : ¬ py "null" <+: codePoint 0x74 :: (py "rue" ++ rest) := by
    rw [py_null]
    exact not_prefix_cons (by decide) _ _
  have hp : py "true" <+: codePoint 0x74 :: (py "rue" ++ rest) := ⟨rest, by rw [py_true]; rfl⟩
  rw [scanOnce, if_neg (by decide), if_neg (by decide), if_neg (by decide), if_neg hn, if_pos hp]
  rfl

theorem reads_false : Reads (.bool false) := by
  refine reads_literal (codePoint 0x66) (py "alse") (by rw [render, py_false]) (by unfold Start; decide) ?_
  intro fuel rest
  have hn : ¬ py "null" <+: codePoint 0x66 :: (py "alse" ++ rest) := by
    rw [py_null]
    exact not_prefix_cons (by decide) _ _
  have ht : ¬ py "true" <+: codePoint 0x66 :: (py "alse" ++ rest) := by
    rw [py_true]
    exact not_prefix_cons (by decide) _ _
  have hp : py "false" <+: codePoint 0x66 :: (py "alse" ++ rest) := ⟨rest, by rw [py_false]; rfl⟩
  rw [scanOnce, if_neg (by decide), if_neg (by decide), if_neg (by decide), if_neg hn, if_neg ht, if_pos hp]
  rfl

theorem reads_str {s : PyStr} (hs : Scalar s) : Reads (.str s) := by
  refine reads_literal quote (s.flatMap escapeChar ++ [quote]) (by rw [render]; rfl)
    (by unfold Start; decide) ?_
  intro fuel rest
  rw [scanOnce, if_pos (by decide), List.append_assoc, List.singleton_append, scanString_text hs]
  rfl

theorem intText_shape (n : ℤ) : ∃ c tail, intText n = c :: tail ∧
    (IsDigit c ∨ c = codePoint 0x2D ∧ ∃ d ds, tail = d :: ds ∧ IsDigit d) := by
  obtain ⟨c, ds, ht⟩ := List.exists_cons_of_ne_nil (natText_ne_nil n.natAbs)
  have hc := natText_digits n.natAbs c (by rw [ht]; exact List.mem_cons_self ..)
  unfold intText
  split_ifs
  · exact ⟨codePoint 0x2D, c :: ds, by rw [ht]; rfl, Or.inr ⟨rfl, c, ds, rfl, hc⟩⟩
  · exact ⟨c, ds, ht, Or.inl hc⟩

theorem reads_int {n : ℤ} (hn : n.natAbs ≤ maxSafeInteger) : Reads (.int n) := by
  obtain ⟨c, tail, ht, hshape⟩ := intText_shape n
  have hval : 48 ≤ c.val ∧ c.val ≤ 57 ∨ c.val = 0x2D := by
    rcases hshape with h | ⟨rfl, -⟩
    · exact Or.inl h
    · exact Or.inr (by decide)
  have hne : ∀ k : ℕ, k < 0x110000 → k ≠ 0x2D → (k < 48 ∨ 57 < k) → codePoint k ≠ c := by
    intro k hk h1 h2 he
    have := congrArg Fin.val he
    rw [codePoint_val k hk] at this
    omega
  refine ⟨⟨c, tail, by rw [render, ht], by unfold Start; omega⟩, ?_⟩
  intro fuel rest hf hrest
  have hscan := scanNumber_intText hn hrest
  rw [render] at hf ⊢
  rw [ht] at hf hscan ⊢
  rw [List.length_cons] at hf
  obtain ⟨m, rfl⟩ : ∃ m, fuel = m + 1 := ⟨fuel - 1, by omega⟩
  have hinf : ¬ py "-Infinity" <+: c :: (tail ++ rest) := by
    rw [py_negInfinity, List.cons_prefix_cons]
    rintro ⟨rfl, hp⟩
    rcases hshape with h | ⟨-, d, ds, rfl, hd⟩
    · exact absurd h (by decide)
    · rw [List.cons_append, List.cons_prefix_cons] at hp
      rw [← hp.1] at hd
      exact absurd hd (by decide)
  rw [List.cons_append] at hscan ⊢
  rw [scanOnce, if_neg (by omega), if_neg (by omega), if_neg (by omega), py_null, py_true, py_false, py_nan, py_infinity,
    if_neg (not_prefix_cons (hne _ (by omega) (by omega) (by omega)) _ _),
    if_neg (not_prefix_cons (hne _ (by omega) (by omega) (by omega)) _ _),
    if_neg (not_prefix_cons (hne _ (by omega) (by omega) (by omega)) _ _),
    if_neg (not_prefix_cons (hne _ (by omega) (by omega) (by omega)) _ _),
    if_neg (not_prefix_cons (hne _ (by omega) (by omega) (by omega)) _ _), if_neg hinf, hscan]

theorem joinCommas_head {c : CodePoint} {t first : PyStr} (texts : List PyStr) (h : first = c :: t) :
    ∃ t', joinCommas (first :: texts) = c :: t' := by
  cases texts with
  | nil => exact ⟨t, by rw [joinCommas_singleton, h]⟩
  | cons x texts => exact ⟨_, by rw [joinCommas_cons, h]; rfl⟩

theorem readsAs_list {us : List TextOf} (h : ∀ u ∈ us, ReadsAs u.1 u.2) :
    ReadsAs (py "[" ++ joinCommas (us.map Prod.fst) ++ py "]") (.list (us.map Prod.snd)) := by
  have hopen : py "[" = [codePoint 0x5B] := by decide
  have hclose : py "]" = [codePoint 0x5D] := by decide
  rw [hopen, hclose, List.append_assoc, List.singleton_append]
  refine ⟨⟨_, _, rfl, by unfold Start; decide⟩, ?_⟩
  intro fuel rest hf hrest
  rw [List.length_cons, List.length_append, List.length_singleton] at hf
  obtain ⟨n, rfl⟩ : ∃ n, fuel = n + 1 := ⟨fuel - 1, by omega⟩
  rw [List.cons_append, List.append_assoc, List.singleton_append, scanOnce, if_neg (by decide), if_neg (by decide),
    if_pos (by decide)]
  cases us with
  | nil =>
    rw [List.map_nil, show joinCommas [] = [] from rfl, List.nil_append, skipSpace_cons (by decide)]
    rfl
  | cons u us =>
    obtain ⟨c, t, hct, hstart⟩ := (h u (List.mem_cons_self ..)).head
    obtain ⟨t', ht'⟩ := joinCommas_head (us.map Prod.fst) hct
    have hitems := scanItems_reads u us h n rest (by omega)
    rw [List.map_cons, List.map_cons] at hitems
    rw [List.map_cons, List.map_cons]
    rw [ht', List.cons_append] at hitems ⊢
    rw [skipSpace_cons hstart.not_space]
    dsimp only
    rw [if_neg (by unfold Start at hstart; omega), hitems]
    rfl

theorem reads_list {us : List PyValue} (h : ∀ u ∈ us, Reads u) : Reads (.list us) := by
  have hall : ∀ p ∈ us.map fun u => (render u, u), ReadsAs p.1 p.2 := by
    intro p hp
    obtain ⟨u, hu, rfl⟩ := List.mem_map.mp hp
    exact h u hu
  have hread := readsAs_list hall
  rw [List.map_map, List.map_map] at hread
  unfold Reads
  rw [render]
  simpa [Function.comp_def] using hread

theorem readsAs_mapping {ms : List MemberOf} (hnd : (ms.map Prod.fst).Nodup)
    (h : ∀ m ∈ ms, Scalar m.1 ∧ ReadsAs m.2.1 m.2.2) :
    ReadsAs (py "\x7b" ++ joinCommas (ms.map memberText) ++ py "\x7d")
      (.mapping (ms.map fun m => (.str m.1, m.2.2))) := by
  have hopen : py "\x7b" = [codePoint 0x7B] := by decide
  have hclose : py "\x7d" = [codePoint 0x7D] := by decide
  have hpairs : rejectDuplicateKeys (ms.map MemberOf.pair) = .ok (.mapping (ms.map fun m => (.str m.1, m.2.2))) := by
    rw [rejectDuplicateKeys, if_pos (by rw [List.map_map]; exact hnd), List.map_map]
    rfl
  rw [hopen, hclose, List.append_assoc, List.singleton_append]
  refine ⟨⟨_, _, rfl, by unfold Start; decide⟩, ?_⟩
  intro fuel rest hf hrest
  rw [List.length_cons, List.length_append, List.length_singleton] at hf
  obtain ⟨n, rfl⟩ : ∃ n, fuel = n + 1 := ⟨fuel - 1, by omega⟩
  rw [List.cons_append, List.append_assoc, List.singleton_append, scanOnce, if_neg (by decide), if_pos (by decide)]
  cases ms with
  | nil =>
    rw [List.map_nil, show joinCommas [] = [] from rfl, List.nil_append, skipSpace_cons (by decide)]
    rfl
  | cons m ms =>
    obtain ⟨t', ht'⟩ := joinCommas_head (ms.map memberText) (show memberText m = quote :: _ from rfl)
    have hmembers := scanMembers_reads m ms h n rest (by omega)
    rw [List.map_cons (f := memberText)] at hmembers
    rw [List.map_cons (f := memberText)]
    rw [ht', List.cons_append] at hmembers ⊢
    rw [skipSpace_cons (by decide)]
    dsimp only
    rw [if_neg (by decide), hmembers]
    simp only [bind, Except.bind, hpairs]
    rfl

theorem reads_mapping {ms : List (PyStr × PyValue)} (hnd : (ms.map Prod.fst).Nodup)
    (h : ∀ m ∈ ms, Scalar m.1 ∧ Reads m.2) : Reads (.mapping (ms.map fun m => (.str m.1, m.2))) := by
  have hall : ∀ p ∈ ms.map fun m => (m.1, render m.2, m.2), Scalar p.1 ∧ ReadsAs p.2.1 p.2.2 := by
    intro p hp
    obtain ⟨m, hm, rfl⟩ := List.mem_map.mp hp
    exact h m hm
  have hread := readsAs_mapping (by rw [List.map_map]; exact hnd) hall
  rw [List.map_map, List.map_map] at hread
  unfold Reads
  rw [render, List.map_map]
  exact hread

theorem reads_canon (v : PyValue) (hv : IJson v) : Reads (canon v) := by
  induction v using PyValue.induct_on with
  | none => rw [canon]; exact reads_none; all_goals simp
  | bool b =>
    rw [canon]
    · cases b
      · exact reads_false
      · exact reads_true
    all_goals simp
  | int n =>
    rw [IJson] at hv
    rw [canon]
    · exact reads_int hv
    all_goals simp
  | float x => simp [IJson] at hv
  | str s =>
    rw [IJson] at hv
    rw [canon]
    · exact reads_str hv
    all_goals simp
  | list xs ih | tuple xs ih =>
    rw [IJson] at hv
    rw [canon]
    refine reads_list fun u hu => ?_
    obtain ⟨x, hx, rfl⟩ := List.mem_map.mp hu
    exact ih x hx (hv x hx)
  | mapping es ih =>
    rw [IJson] at hv
    have hke := fun e he => (hv.2 e he).1
    rw [canon_mapping]
    refine reads_mapping ?_ fun m hm => ?_
    · exact (((List.perm_insertionSort KeyLe _).map Prod.fst).nodup_iff).mpr (canonMembers_keys_nodup hke hv.1)
    · rw [List.mem_insertionSort] at hm
      refine ⟨scalar_canonMembers hke hm, ?_⟩
      obtain ⟨e, he, rfl⟩ := List.mem_map.mp hm
      exact ih e he (hv.2 e he).2
  | other t => simp [IJson] at hv

/-! ## Decoding the bytes -/

theorem mem_joinCommas {c : CodePoint} : ∀ {texts : List PyStr}, c ∈ joinCommas texts →
    c.val = 0x2C ∨ ∃ t ∈ texts, c ∈ t
  | [], h => by simp [joinCommas] at h
  | [x], h => by
      rw [joinCommas_singleton] at h
      exact Or.inr ⟨x, List.mem_cons_self .., h⟩
  | x :: y :: texts, h => by
      rw [joinCommas_cons, List.mem_append, List.mem_cons] at h
      rcases h with h | rfl | h
      · exact Or.inr ⟨x, List.mem_cons_self .., h⟩
      · exact Or.inl (by decide)
      · rcases mem_joinCommas h with h | ⟨t, ht, hc⟩
        · exact Or.inl h
        · exact Or.inr ⟨t, List.mem_cons_of_mem x ht, hc⟩

theorem printable_of_all {s : PyStr} (h : (s.all fun c => 0x20 ≤ c.val) = true) : ∀ c ∈ s, 0x20 ≤ c.val := by
  intro c hc
  simpa using List.all_eq_true.mp h c hc

theorem escapeChar_printable {c d : CodePoint} (h : d ∈ escapeChar c) : 0x20 ≤ d.val := by
  unfold escapeChar at h
  split_ifs at h with h1 h2 h3 h4 h5 h6 h7 h8
  iterate 7 exact printable_of_all (by decide) d h
  · have hhex : ∀ n < 16, 0x20 ≤ (hexDigit n).val := by decide
    rcases List.mem_append.mp h with h | h
    · exact printable_of_all (by decide) d h
    · simp only [List.mem_cons, List.not_mem_nil, or_false] at h
      rcases h with rfl | rfl | rfl | rfl
      · exact hhex 0 (by omega)
      · exact hhex 0 (by omega)
      · exact hhex _ (by omega)
      · exact hhex _ (by omega)
  · rw [List.mem_singleton.mp h]
    omega

theorem stringText_printable {s : PyStr} {d : CodePoint} (h : d ∈ stringText s) : 0x20 ≤ d.val := by
  simp only [stringText, List.cons_append, List.mem_cons, List.mem_append, List.mem_flatMap, List.not_mem_nil,
    or_false] at h
  rcases h with rfl | ⟨c, -, hd⟩ | rfl
  · decide
  · exact escapeChar_printable hd
  · decide

theorem render_printable (u : PyValue) : ∀ c ∈ render u, 0x20 ≤ c.val := by
  have hopen : ∀ c ∈ py "[", 0x20 ≤ c.val := printable_of_all (by decide)
  have hclose : ∀ c ∈ py "]", 0x20 ≤ c.val := printable_of_all (by decide)
  have hbrace : ∀ c ∈ py "\x7b", 0x20 ≤ c.val := printable_of_all (by decide)
  have hbrace' : ∀ c ∈ py "\x7d", 0x20 ≤ c.val := printable_of_all (by decide)
  have hcolon : ∀ c ∈ py ":", 0x20 ≤ c.val := printable_of_all (by decide)
  induction u using PyValue.induct_on with
  | none => rw [render]; exact printable_of_all (by decide)
  | bool b => cases b <;> rw [render] <;> exact printable_of_all (by decide)
  | int n =>
    rw [render]
    intro c hc
    have hdigit : ∀ c ∈ natText n.natAbs, 0x20 ≤ c.val := by
      intro c hc
      have := natText_digits _ c hc
      unfold IsDigit at this
      omega
    unfold intText at hc
    split_ifs at hc
    · rcases List.mem_append.mp hc with h | h
      · exact printable_of_all (by decide) c h
      · exact hdigit c h
    · exact hdigit c hc
  | float x => simp [render]
  | other t => simp [render]
  | str s =>
    rw [render]
    exact fun c hc => stringText_printable hc
  | list xs ih | tuple xs ih =>
    rw [render]
    intro c hc
    rcases List.mem_append.mp hc with h | h
    · rcases List.mem_append.mp h with h | h
      · exact hopen c h
      · rcases mem_joinCommas h with h | ⟨t, ht, hct⟩
        · omega
        · obtain ⟨x, hx, rfl⟩ := List.mem_map.mp ht
          exact ih x hx c hct
    · exact hclose c h
  | mapping es ih =>
    rw [render]
    intro c hc
    rcases List.mem_append.mp hc with h | h
    · rcases List.mem_append.mp h with h | h
      · exact hbrace c h
      · rcases mem_joinCommas h with h | ⟨t, ht, hct⟩
        · omega
        · obtain ⟨e, he, rfl⟩ := List.mem_map.mp ht
          rcases List.mem_append.mp hct with h | h
          · rcases List.mem_append.mp h with h | h
            · exact stringText_printable h
            · exact hcolon c h
          · exact ih e he c h
    · exact hbrace' c h

theorem utf8Char_printable {c : CodePoint} (hc : 0x20 ≤ c.val) : ∀ b ∈ utf8Char c, 0x20 ≤ b.val := by
  have hlt := c.isLt
  have hne : ∀ n : ℕ, 0x20 ≤ n → n < 256 → 0x20 ≤ (byte n).val := by
    intro n h0 h1
    rw [byte_val n h1]
    omega
  intro b hb
  unfold utf8Char at hb
  dsimp only at hb
  split_ifs at hb
  all_goals
    simp only [List.mem_cons, List.not_mem_nil, or_false] at hb
  · rw [hb]; exact hne _ (by omega) (by omega)
  · rcases hb with rfl | rfl <;> exact hne _ (by omega) (by omega)
  · rcases hb with rfl | rfl | rfl <;> exact hne _ (by omega) (by omega)
  · rcases hb with rfl | rfl | rfl | rfl <;> exact hne _ (by omega) (by omega)

theorem detectEncoding_utf8 {c : CodePoint} {t : PyStr} (hc : Start c) (ht : ∀ d ∈ c :: t, 0x20 ≤ d.val) :
    detectEncoding (utf8Encode (c :: t)) = .utf8 := by
  unfold Start at hc
  have hchar : utf8Char c = [byte c.val] := by
    unfold utf8Char
    exact if_pos hc.2.1
  have hrest : ∀ b ∈ utf8Encode t, 0x20 ≤ b.val := by
    intro b hb
    obtain ⟨d, hd, hbd⟩ := List.mem_flatMap.mp hb
    exact utf8Char_printable (ht d (List.mem_cons_of_mem c hd)) b hbd
  have henc : utf8Encode (c :: t) = byte c.val :: utf8Encode t := by
    simp [utf8Encode, hchar]
  have hfirst : ∀ a : ℕ, (a ≤ 0x20 ∨ 0x80 ≤ a) → ∀ p, ¬ StartsWith (a :: p) (byte c.val :: utf8Encode t) := by
    intro a ha p hp
    have := (List.cons_prefix_cons.mp hp).1
    rw [byte_val _ (by omega)] at this
    omega
  rw [henc]
  unfold detectEncoding
  rw [if_neg (by rintro (h | h) <;> exact hfirst _ (by decide) _ h),
    if_neg (by rintro (h | h) <;> exact hfirst _ (by decide) _ h), if_neg (hfirst _ (by decide) _)]
  have h0 : 0x20 ≤ (byte c.val).val := utf8Char_printable (c := c) (by omega) _ (by rw [hchar]; exact List.mem_cons_self ..)
  cases hb : utf8Encode t with
  | nil => rfl
  | cons b1 bs =>
    have h1 : 0x20 ≤ b1.val := hrest b1 (by rw [hb]; exact List.mem_cons_self ..)
    split
    · next heq =>
      obtain ⟨rfl, rfl, -⟩ : _ ∧ _ ∧ _ := by simpa using heq
      rw [if_neg (by omega), if_neg (by omega)]
    · next heq =>
      obtain ⟨rfl, rfl, -⟩ : _ ∧ _ ∧ _ := by simpa using heq
      rw [if_neg (by omega), if_neg (by omega)]
    · rfl

theorem decodeText_reads {u : PyValue} (h : Reads u) : decodeText (render u) = .ok u := by
  obtain ⟨c, t, hct, hc⟩ := h.head
  have hskip : skipSpace (render u) = render u := by
    rw [hct]
    exact skipSpace_cons hc.not_space t
  have hscan := h.scan ((render u).length + 1) [] (by omega) (Or.inl rfl)
  rw [List.append_nil] at hscan
  rw [decodeText, hskip, hscan]
  rfl

/-! ## The round trip -/

theorem iJson_canon (v : PyValue) (hv : IJson v) : IJson (canon v) := by
  induction v using PyValue.induct_on with
  | none | bool b | int n | float x | str s | other t =>
    rw [canon]
    · exact hv
    all_goals simp
  | list xs ih | tuple xs ih =>
    rw [IJson] at hv
    rw [canon, IJson]
    intro u hu
    obtain ⟨x, hx, rfl⟩ := List.mem_map.mp hu
    exact ih x hx (hv x hx)
  | mapping es ih =>
    rw [IJson] at hv
    have hke := fun e he => (hv.2 e he).1
    rw [canon_mapping, IJson, List.map_map]
    refine ⟨?_, fun e he => ?_⟩
    · have hkeys := (((List.perm_insertionSort KeyLe _).map Prod.fst).nodup_iff).mpr (canonMembers_keys_nodup hke hv.1)
      have hinj : Function.Injective MappingKey.str := fun _ _ h => MappingKey.str.inj h
      have := hkeys.map hinj
      rwa [List.map_map] at this
    · obtain ⟨m, hm, rfl⟩ := List.mem_map.mp he
      rw [List.mem_insertionSort] at hm
      refine ⟨⟨m.1, rfl, scalar_canonMembers hke hm⟩, ?_⟩
      obtain ⟨f, hf, rfl⟩ := List.mem_map.mp hm
      exact ih f hf (hv.2 f hf).2

theorem sameJson_canon (v : PyValue) (hv : IJson v) : SameJson v (canon v) := by
  induction v using PyValue.induct_on with
  | none => rw [canon]; exact .none; all_goals simp
  | bool b => rw [canon]; exact .bool b; all_goals simp
  | int n => rw [canon]; exact .int n; all_goals simp
  | str s => rw [canon]; exact .str s; all_goals simp
  | float x => simp [IJson] at hv
  | other t => simp [IJson] at hv
  | list xs ih | tuple xs ih =>
    rw [IJson] at hv
    rw [canon]
    refine .sequence rfl rfl ?_
    rw [List.forall₂_map_right_iff, List.forall₂_same]
    exact fun x hx => ih x hx (hv x hx)
  | mapping es ih =>
    rw [IJson] at hv
    have hke := fun e he => (hv.2 e he).1
    have hmem : ∀ k u, (k, u) ∈ (((canonMembers es).insertionSort KeyLe).map fun e => (MappingKey.str e.1, e.2)) ↔
        ∃ v, (k, v) ∈ es ∧ canon v = u := by
      intro k u
      simp only [List.mem_map, List.mem_insertionSort, Prod.mk.injEq, Prod.exists]
      constructor
      · rintro ⟨j, w, hm, rfl, rfl⟩
        exact (mem_canonMembers hke j w).mp hm
      · rintro ⟨v, hm, rfl⟩
        obtain ⟨j, hj, -⟩ := hke _ hm
        simp only at hj
        subst hj
        exact ⟨j, _, (mem_canonMembers hke j _).mpr ⟨v, hm, rfl⟩, rfl, rfl⟩
    rw [canon_mapping]
    refine .mapping (fun k => ?_) fun k x y hx hy => ?_
    · simp only [List.mem_map (f := Prod.fst), Prod.exists, exists_and_right, exists_eq_right, hmem]
      constructor
      · rintro ⟨x, hx⟩
        exact ⟨canon x, x, hx, rfl⟩
      · rintro ⟨-, x, hx, -⟩
        exact ⟨x, hx⟩
    · obtain ⟨z, hz, rfl⟩ := (hmem k y).mp hy
      rw [value_unique hv.1 hx hz]
      exact ih _ hz (hv.2 _ hz).2

theorem canonicalize_eq {v : PyValue} (hv : IJson v) : canonicalize v = .ok (utf8Encode (render (canon v))) := by
  rw [canonicalize, serialize_eq v hv]
  rfl

theorem loadIJson_canon {v : PyValue} (hv : IJson v) :
    loadIJson (.bytes (utf8Encode (render (canon v)))) = .ok (canon v) := by
  have hr := reads_canon v hv
  obtain ⟨c, t, hct, hc⟩ := hr.head
  have hdetect : detectEncoding (utf8Encode (render (canon v))) = .utf8 := by
    have hz := render_printable (canon v)
    rw [hct] at hz ⊢
    exact detectEncoding_utf8 hc hz
  have hloads : jsonLoads (.bytes (utf8Encode (render (canon v)))) = .ok (canon v) := by
    rw [jsonLoads, hdetect, decodeBytes, utf8Decode_encode]
    exact decodeText_reads hr
  rw [loadIJson, hloads]
  simp only [canonicalize_eq (iJson_canon v hv)]
  rfl

theorem canonicalize_eq_iff_canon {v w : PyValue} (hv : IJson v) (hw : IJson w) :
    canonicalize v = canonicalize w ↔ canon v = canon w := by
  constructor
  · intro h
    rw [canonicalize_eq hv, canonicalize_eq hw] at h
    have hl := loadIJson_canon hv
    rw [Except.ok.inj h, loadIJson_canon hw] at hl
    exact (Except.ok.inj hl).symm
  · intro h
    rw [canonicalize_eq hv, canonicalize_eq hw, h]

/-- **Canonicalization is injective and load_i_json inverts it.** On I-JSON values without floats, two
values have the same canonical bytes exactly when they are the same JSON value, and loading the
canonical bytes of a value returns that JSON value. -/
theorem canonicalize_injective_and_loads (v w : PyValue) (hv : IJson v) (hw : IJson w) :
    (canonicalize v = canonicalize w ↔ SameJson v w) ∧
      ∃ bytes u, canonicalize v = .ok bytes ∧ loadIJson (.bytes bytes) = .ok u ∧ SameJson v u := by
  refine ⟨?_, ?_⟩
  · rw [canonicalize_eq_iff_canon hv hw]
    exact ⟨sameJson_of_canon_eq v w hv hw, canon_eq_of_sameJson v w hv hw⟩
  · refine ⟨_, canon v, canonicalize_eq hv, loadIJson_canon hv, ?_⟩
    exact sameJson_canon v hv

theorem canonicalize_injective_and_loads_reordered :
    let v : PyValue := .mapping [(.str (py "b"), .list [.int (-1), .none]), (.str (py "a"), .str (py "\"é"))]
    let w : PyValue := .mapping [(.str (py "a"), .str (py "\"é")), (.str (py "b"), .tuple [.int (-1), .none])]
    IJson v ∧ IJson w ∧ (canonicalize v = canonicalize w ↔ SameJson v w) ∧
      ∃ bytes u, canonicalize v = .ok bytes ∧ loadIJson (.bytes bytes) = .ok u ∧ SameJson v u := by
  intro v w
  have ha : Scalar (py "a") := by decide
  have hb : Scalar (py "b") := by decide
  have hs : Scalar (py "\"é") := by decide
  have hab : py "b" ≠ py "a" := by decide
  have hone : 1 ≤ maxSafeInteger := by decide
  have hv : IJson v := by simp [v, IJson, ha, hb, hs, hab, hone]
  have hw : IJson w := by simp [w, IJson, ha, hb, hs, hab.symm, hone]
  exact ⟨hv, hw, canonicalize_injective_and_loads v w hv hw⟩

/-! ## Loaded objects -/

theorem map_eq_ok {ε α β : Type} {x : Except ε α} {f : α → β} {b : β} (h : x.map f = .ok b) :
    ∃ a, x = .ok a ∧ f a = b := by
  cases x with
  | error e => cases h
  | ok a => exact ⟨a, rfl, Except.ok.inj h⟩

theorem parseInteger_ne_mapping {neg : Bool} {digits : PyStr} {es : List (MappingKey × PyValue)} :
    parseInteger neg digits ≠ .ok (.mapping es) := by
  intro h
  unfold parseInteger at h
  split at h
  · split_ifs at h <;> cases h
  · cases h

theorem scanUnsigned_ne_mapping {neg : Bool} {s rest : PyStr} {es : List (MappingKey × PyValue)} :
    scanUnsigned neg s ≠ .ok (.mapping es, rest) := by
  intro h
  unfold scanUnsigned at h
  split at h
  · cases h
  · dsimp only at h
    split_ifs at h
    · obtain ⟨value, hvalue, heq⟩ := map_eq_ok h
      cases heq
      exact parseInteger_ne_mapping hvalue
    · cases h

theorem scanNumber_ne_mapping {s rest : PyStr} {es : List (MappingKey × PyValue)} :
    scanNumber s ≠ .ok (.mapping es, rest) := by
  intro h
  unfold scanNumber at h
  split at h
  · split_ifs at h <;> exact scanUnsigned_ne_mapping h
  · cases h

end OcorRuntime.Canonical

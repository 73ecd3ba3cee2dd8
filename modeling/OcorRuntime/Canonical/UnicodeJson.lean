import OcorRuntime.Canonical.StandardRoundTrip

/-! `json.dumps(value, ensure_ascii=False, sort_keys=True, separators=(",", ":"))` as UTF-8: characters beyond
ASCII are written as they are, so a text with a lone surrogate has no bytes. What has bytes is read back by
`json.loads` as its normal form. -/
namespace OcorRuntime.UnicodeJson
open Canonical StandardJson
set_option autoImplicit false
set_option maxHeartbeats 250000
set_option maxRecDepth 120000

/-! ## Writing and reading -/

def dumpMember (entry : PyStr × Except PyError PyStr) : Except PyError PyStr := do
  let text ← entry.2
  return stringText entry.1 ++ py ":" ++ text

mutual
def dumps : PyValue → Except PyError PyStr
  | .none => .ok (py "null")
  | .bool true => .ok (py "true")
  | .bool false => .ok (py "false")
  | .int n => dumpInteger n
  | .float x => .ok (dumpFloat x)
  | .str s => .ok (stringText s)
  | .list items => do
    let texts ← dumpItems items
    return py "[" ++ joinCommas texts ++ py "]"
  | .tuple items => do
    let texts ← dumpItems items
    return py "[" ++ joinCommas texts ++ py "]"
  | .mapping entries => do
    refuseIf (¬ entries.all fun entry => (MappingKey.str? entry.1).isSome) ⟨.typeError, "keys must be str", []⟩
    let texts ← ((dumpEntries entries).insertionSort MemberLe).mapM dumpMember
    return py "\x7b" ++ joinCommas texts ++ py "\x7d"
  | .other name => .error ⟨.typeError, "Object of type %s is not JSON serializable", [.text (py name)]⟩
def dumpItems : List PyValue → Except PyError (List PyStr)
  | [] => .ok []
  | item :: items => do
    let text ← dumps item
    let texts ← dumpItems items
    return text :: texts
def dumpEntries : List (MappingKey × PyValue) → List (PyStr × Except PyError PyStr)
  | [] => []
  | (.str key, item) :: entries => (key, dumps item) :: dumpEntries entries
  | (.other _, _) :: entries => dumpEntries entries
end

attribute [local grind =] dumps dumpItems dumpEntries

/-- `text.encode("utf-8")`. -/
def encodeUtf8 (text : PyStr) : Except PyError Bytes := do
  refuseIf (¬ Scalar text) ⟨.valueError, "UnicodeEncodeError", []⟩
  return utf8Encode text

/-- `raw.decode("utf-8")`. -/
def decodeUtf8 (raw : Bytes) : Except PyError PyStr := do
  let text ← orRaise (utf8Decode raw) ⟨.valueError, "UnicodeDecodeError", []⟩
  refuseIf (¬ Scalar text) ⟨.valueError, "UnicodeDecodeError", []⟩
  return text

theorem encodeUtf8_eq_ok {text : PyStr} {raw : Bytes} :
    encodeUtf8 text = .ok raw ↔ Scalar text ∧ utf8Encode text = raw := by
  rw [encodeUtf8, check_bind_eq_ok, refuseIf_eq_ok, not_not]
  refine and_congr_right fun _ => ?_
  simp [pure, Except.pure]

theorem decodeUtf8_encode {text : PyStr} (h : Scalar text) : decodeUtf8 (utf8Encode text) = .ok text := by
  rw [decodeUtf8, utf8Decode_encode]
  simp [orRaise, refuseIf, h, bind, Except.bind, pure, Except.pure]

/-! ## Texts without lone surrogates -/

theorem scalar_append {s t : PyStr} : Scalar (s ++ t) ↔ Scalar s ∧ Scalar t := by
  unfold Scalar
  exact List.forall_mem_append

theorem scalar_of_mem_join : ∀ {texts : List PyStr}, Scalar (joinCommas texts) → ∀ text ∈ texts, Scalar text
  | [], _, text, htext => absurd htext List.not_mem_nil
  | [x], h, text, htext => by
      rw [joinCommas_singleton] at h
      rwa [List.mem_singleton.mp htext]
  | x :: y :: texts, h, text, htext => by
      rw [joinCommas_cons] at h
      obtain ⟨hx, hrest⟩ := scalar_append.1 h
      rcases List.mem_cons.mp htext with rfl | htext
      · exact hx
      · exact scalar_of_mem_join (fun c hc => hrest c (List.mem_cons_of_mem _ hc)) text htext

theorem scalar_of_stringText {s : PyStr} (h : Scalar (stringText s)) : Scalar s := by
  intro c hc hsur
  refine h c ?_ hsur
  have hplain : escapeChar c = [c] := by
    obtain ⟨hlow, -⟩ := hsur
    unfold escapeChar
    rw [if_neg (by omega), if_neg (by omega), if_neg (by omega), if_neg (by omega), if_neg (by omega),
      if_neg (by omega), if_neg (by omega), if_neg (by omega)]
  refine List.mem_append_left _ (List.mem_cons_of_mem _ (List.mem_flatMap.mpr ⟨c, hc, ?_⟩))
  rw [hplain]
  exact List.mem_singleton_self c

theorem rejoin_scalar {s : PyStr} (h : Scalar s) : rejoin s = s :=
  (rejoin_eq_self_iff s).mpr (noSplitPair_of_scalar h)

/-! ## What is written reads back -/

theorem scanString_stringText {s : PyStr} (hs : Scalar s) (rest : PyStr) :
    scanString (s.flatMap escapeChar ++ [quote] ++ rest) = .ok (rejoin s, rest) := by
  rw [List.append_assoc, List.singleton_append, scanString_text hs, rejoin_scalar hs]

theorem loadsTo_str {s : PyStr} (hs : Scalar s) : LoadsTo (stringText s) (.str (rejoin s)) := by
  refine loadsTo_literal quote (s.flatMap escapeChar ++ [quote]) rfl (by unfold Start; decide) ?_
  intro fuel rest _
  rw [loadOnce, if_pos (by decide), scanString_stringText hs]
  rfl

theorem dumpItems_loads {xs : List PyValue} {texts : List PyStr}
    (ih : ∀ x ∈ xs, ∀ text, dumps x = .ok text → Scalar text → LoadsTo text (reread x)) (h : dumpItems xs = .ok texts)
    (hs : ∀ text ∈ texts, Scalar text) :
    ∃ ps : List (PyStr × PyValue), ps.map Prod.fst = texts ∧ ps.map Prod.snd = xs.map reread ∧
      ∀ p ∈ ps, LoadsTo p.1 p.2 := by
  induction xs generalizing texts with
  | nil =>
    rw [dumpItems] at h
    cases h
    exact ⟨[], rfl, rfl, by simp⟩
  | cons x xs ihxs =>
    rw [dumpItems] at h
    obtain ⟨text, htext, h⟩ := bind_eq_ok.1 h
    obtain ⟨rest, hrest, h⟩ := bind_eq_ok.1 h
    cases h
    obtain ⟨ps, hfst, hsnd, hps⟩ := ihxs (fun y hy => ih y (List.mem_cons_of_mem x hy)) hrest
      fun t ht => hs t (List.mem_cons_of_mem _ ht)
    refine ⟨(text, reread x) :: ps, by rw [List.map_cons, hfst], by rw [List.map_cons, hsnd, List.map_cons], ?_⟩
    intro p hp
    rcases List.mem_cons.mp hp with rfl | hp
    · exact ih x (List.mem_cons_self ..) text htext (hs text (List.mem_cons_self ..))
    · exact hps p hp

theorem dumpMembers_loads {ms : List (PyStr × PyValue)} {texts : List PyStr}
    (ih : ∀ m ∈ ms, ∀ text, dumps m.2 = .ok text → Scalar text → LoadsTo text (reread m.2))
    (h : (ms.map fun m => (m.1, dumps m.2)).mapM dumpMember = .ok texts) (hs : ∀ text ∈ texts, Scalar text) :
    ∃ members : List Member, members.map Member.line = texts ∧
      members.map Member.pair = ms.map (fun m => (rejoin m.1, reread m.2)) ∧ ∀ m ∈ members, m.Loads := by
  induction ms generalizing texts with
  | nil =>
    cases h
    exact ⟨[], rfl, rfl, by simp⟩
  | cons m ms ihms =>
    rw [List.map_cons, List.mapM_cons] at h
    obtain ⟨line, hline, h⟩ := bind_eq_ok.1 h
    obtain ⟨rest, hrest, h⟩ := bind_eq_ok.1 h
    cases h
    obtain ⟨text, htext, hline⟩ := bind_eq_ok.1 hline
    cases hline
    obtain ⟨hname, hvalue⟩ := scalar_append.1 (hs _ (List.mem_cons_self ..))
    have hkey := scalar_of_stringText (scalar_append.1 hname).1
    obtain ⟨members, hlines, hpairs, hmembers⟩ := ihms (fun y hy => ih y (List.mem_cons_of_mem m hy)) hrest
      fun t ht => hs t (List.mem_cons_of_mem _ ht)
    refine ⟨⟨stringText m.1, rejoin m.1, text, reread m.2⟩ :: members, ?_, ?_, ?_⟩
    · rw [List.map_cons, hlines]
      rfl
    · rw [List.map_cons, hpairs]
      rfl
    · intro p hp
      rcases List.mem_cons.mp hp with rfl | hp
      · exact ⟨⟨_, rfl, scanString_stringText hkey⟩, ih m (List.mem_cons_self ..) text htext hvalue⟩
      · exact hmembers p hp

theorem dumpEntries_eq {es : List (MappingKey × PyValue)} (h : ∀ e ∈ es, (MappingKey.str? e.1).isSome) :
    dumpEntries es = (es.map fun e => (keyText e.1, e.2)).map fun m => (m.1, dumps m.2) := by
  induction es with
  | nil => rw [dumpEntries, List.map_nil, List.map_nil]
  | cons e es ih =>
    have hrest := ih fun f hf => h f (List.mem_cons_of_mem e hf)
    have hkey := h e (List.mem_cons_self ..)
    obtain ⟨key, value⟩ := e
    cases key with
    | str key =>
      rw [dumpEntries, hrest]
      rfl
    | other index => cases hkey

theorem dumps_mapping {es : List (MappingKey × PyValue)} (h : ∀ e ∈ es, (MappingKey.str? e.1).isSome) :
    dumps (.mapping es) = (do
      let texts ← ((sortedMembers es).map fun m => (m.1, dumps m.2)).mapM dumpMember
      return py "\x7b" ++ joinCommas texts ++ py "\x7d") := by
  have hall : ¬ ¬ (es.all fun entry => (MappingKey.str? entry.1).isSome) = true := by
    rw [not_not, List.all_eq_true]
    exact h
  rw [dumps, refuseIf, if_neg hall, dumpEntries_eq h, map_insertionSort_member]
  rfl

theorem dumps_mapping_eq_ok {es : List (MappingKey × PyValue)} {text : PyStr} (h : dumps (.mapping es) = .ok text) :
    (∀ e ∈ es, (MappingKey.str? e.1).isSome) ∧
      ∃ texts, ((sortedMembers es).map fun m => (m.1, dumps m.2)).mapM dumpMember = .ok texts ∧
        text = py "\x7b" ++ joinCommas texts ++ py "\x7d" := by
  have hkeys : ∀ e ∈ es, (MappingKey.str? e.1).isSome := by
    rw [dumps] at h
    obtain ⟨hkeys, -⟩ := check_bind_eq_ok.1 h
    rwa [refuseIf_eq_ok, not_not, List.all_eq_true] at hkeys
  rw [dumps_mapping hkeys] at h
  obtain ⟨texts, htexts, h⟩ := bind_eq_ok.1 h
  cases h
  exact ⟨hkeys, texts, htexts, rfl⟩

theorem loadsTo_dumps (v : PyValue) :
    ∀ text, dumps v = .ok text → Scalar text → LoadsTo text (reread v) := by
  have hsequence : ∀ xs : List PyValue,
      (∀ x ∈ xs, ∀ text, dumps x = .ok text → Scalar text → LoadsTo text (reread x)) →
      ∀ texts, dumpItems xs = .ok texts → Scalar (py "[" ++ joinCommas texts ++ py "]") →
        LoadsTo (py "[" ++ joinCommas texts ++ py "]") (.list (xs.map reread)) := by
    intro xs ih texts htexts hs
    have hjoin := (scalar_append.1 (scalar_append.1 hs).1).2
    obtain ⟨ps, rfl, hsnd, hps⟩ := dumpItems_loads ih htexts (scalar_of_mem_join hjoin)
    rw [← hsnd]
    exact loadsTo_list hps
  induction v using PyValue.induct_on with
  | none =>
    intro text h _
    rw [dumps] at h
    cases h
    rw [reread]
    · exact loadsTo_none
    all_goals simp
  | bool b =>
    intro text h _
    cases b with
    | true =>
      rw [dumps] at h
      cases h
      rw [reread]
      · exact loadsTo_true
      all_goals simp
    | false =>
      rw [dumps] at h
      cases h
      rw [reread]
      · exact loadsTo_false
      all_goals simp
  | int n =>
    intro text h _
    rw [dumps, dumpInteger] at h
    obtain ⟨hn, h⟩ := check_bind_eq_ok.1 h
    rw [refuseIf_eq_ok, not_le] at hn
    cases h
    rw [reread]
    · exact loadsTo_int hn
    all_goals simp
  | float x =>
    intro text h _
    rw [dumps] at h
    cases h
    rw [reread]
    · exact loadsTo_float x
    all_goals simp
  | str s =>
    intro text h hs
    rw [dumps] at h
    cases h
    rw [reread]
    exact loadsTo_str (scalar_of_stringText hs)
  | list xs ih =>
    intro text h hs
    rw [dumps] at h
    obtain ⟨texts, htexts, h⟩ := bind_eq_ok.1 h
    cases h
    rw [reread]
    exact hsequence xs ih texts htexts hs
  | tuple xs ih =>
    intro text h hs
    rw [dumps] at h
    obtain ⟨texts, htexts, h⟩ := bind_eq_ok.1 h
    cases h
    rw [reread]
    exact hsequence xs ih texts htexts hs
  | mapping es ih =>
    intro text h hs
    obtain ⟨-, texts, htexts, rfl⟩ := dumps_mapping_eq_ok h
    have hmembers : ∀ m ∈ sortedMembers es, ∀ text, dumps m.2 = .ok text → Scalar text → LoadsTo text (reread m.2) := by
      intro m hm
      obtain ⟨e, he, rfl⟩ := mem_sortedMembers.1 hm
      exact ih e he
    have hjoin := (scalar_append.1 (scalar_append.1 hs).1).2
    obtain ⟨members, rfl, hpairs, hloads⟩ := dumpMembers_loads hmembers htexts (scalar_of_mem_join hjoin)
    rw [reread_mapping, ← hpairs]
    exact loadsTo_mapping hloads
  | other t =>
    intro text h _
    rw [dumps] at h
    cases h

/-- **`json.loads` after `json.dumps(ensure_ascii=False)`.** What can be encoded is read back as its normal form. -/
theorem loads_dumps {v : PyValue} {text : PyStr} (h : dumps v = .ok text) (hs : Scalar text) :
    loads text = .ok (reread v) :=
  loads_of_loadsTo (loadsTo_dumps v text h hs)

end OcorRuntime.UnicodeJson

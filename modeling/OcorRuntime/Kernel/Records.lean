import OcorRuntime.Canonical.Integers
import OcorRuntime.Canonical.RoundTrip
import OcorRuntime.Kernel.GovernedContext

/-! Records written as mappings with literal keys: when their canonical bytes exist, and that
the bytes determine the text of each member. -/
namespace OcorRuntime.Kernel
open Canonical
set_option autoImplicit false
set_option maxHeartbeats 250000

/-! ## Literal texts -/

theorem toNat_valid (c : Char) : c.toNat < 0xD800 ∨ 0xDFFF < c.toNat ∧ c.toNat < 0x110000 := c.valid

theorem py_injective : Function.Injective py := by
  intro s t h
  refine String.toList_inj.mp (List.map_injective_iff.mpr ?_ h)
  intro c d hcd
  have hc := toNat_valid c
  have hd := toNat_valid d
  have hval := congrArg Fin.val hcd
  rw [codePoint_val _ (by omega), codePoint_val _ (by omega)] at hval
  exact Char.toNat_inj.mp hval

@[simp] theorem scalar_py (s : String) : Scalar (py s) := by
  intro c hc
  obtain ⟨d, -, rfl⟩ := List.mem_map.mp hc
  have hd := toNat_valid d
  unfold IsSurrogate
  rw [codePoint_val _ (by omega)]
  omega

@[simp] theorem scalar_append {s t : PyStr} : Scalar (s ++ t) ↔ Scalar s ∧ Scalar t := by
  simp only [Scalar, List.mem_append, or_imp, forall_and]

/-! ## Values -/

@[simp] theorem iJson_str {s : PyStr} : IJson (.str s) ↔ Scalar s := by rw [IJson]

@[simp] theorem iJson_int {n : ℤ} : IJson (.int n) ↔ n.natAbs ≤ maxSafeInteger := by rw [IJson]

@[simp] theorem iJson_bool {b : Bool} : IJson (.bool b) ↔ True := by rw [IJson]

@[simp] theorem iJson_none : IJson .none ↔ True := by rw [IJson]

theorem iJson_strings {items : List PyStr} : IJson (strings items) ↔ ∀ s ∈ items, Scalar s := by
  rw [strings, IJson]
  simp

theorem iJson_fields {entries : List (String × Option PyValue)} (hkeys : (entries.map Prod.fst).Nodup)
    (hvalues : ∀ entry ∈ entries, ∀ v ∈ entry.2, IJson v) : IJson (fields entries) := by
  rw [fields, IJson]
  refine ⟨?_, ?_⟩
  · induction entries with
    | nil => simp
    | cons entry entries ih =>
      obtain ⟨hfresh, hrest⟩ := List.nodup_cons.mp hkeys
      have hrec := ih hrest fun e he => hvalues e (List.mem_cons_of_mem _ he)
      cases hv : entry.2 with
      | none => simpa [List.filterMap_cons, hv] using hrec
      | some v =>
        simp only [List.filterMap_cons, hv, Option.map_some, List.map_cons, List.nodup_cons]
        refine ⟨?_, hrec⟩
        intro hmem
        obtain ⟨e, he, heq⟩ := List.mem_map.mp hmem
        obtain ⟨e', he', hsome⟩ := List.mem_filterMap.mp he
        obtain ⟨w, -, rfl⟩ := Option.map_eq_some_iff.mp hsome
        have hname : e'.1 = entry.1 := py_injective (MappingKey.str.inj heq)
        exact hfresh (List.mem_map.mpr ⟨e', he', hname⟩)
  · intro e he
    obtain ⟨entry, hentry, hsome⟩ := List.mem_filterMap.mp he
    obtain ⟨v, hv, rfl⟩ := Option.map_eq_some_iff.mp hsome
    exact ⟨⟨py entry.1, rfl, scalar_py _⟩, hvalues entry hentry v hv⟩

theorem canon_canon {v : PyValue} (hv : IJson v) : canon (canon v) = canon v :=
  (canon_eq_of_sameJson v (canon v) hv (iJson_canon v hv) (sameJson_canon v hv)).symm

theorem canon_mapping_find {es : List (MappingKey × PyValue)} (h : IJson (.mapping es)) :
    ∃ ms, canon (.mapping es) = .mapping ms ∧ (∀ key v, (key, v) ∈ es → Dict.find ms key = some (canon v)) ∧
      ∀ key, key ∈ ms.map Prod.fst ↔ key ∈ es.map Prod.fst := by
  rw [IJson] at h
  have hkeys := fun e he => (h.2 e he).1
  refine ⟨_, canon_mapping es, ?_, ?_⟩
  · intro key v hmem
    obtain ⟨name, rfl, -⟩ := hkeys _ hmem
    have hnodup : ((((canonMembers es).insertionSort KeyLe).map fun e => (MappingKey.str e.1, e.2)).map
        Prod.fst).Nodup := by
      have hsorted : (((canonMembers es).insertionSort KeyLe).map Prod.fst).Nodup :=
        (((List.perm_insertionSort KeyLe _).map Prod.fst).nodup_iff).mpr (canonMembers_keys_nodup hkeys h.1)
      rw [List.map_map]
      have hcomp : (Prod.fst ∘ fun e : PyStr × PyValue => (MappingKey.str e.1, e.2)) = MappingKey.str ∘ Prod.fst := rfl
      rw [hcomp, ← List.map_map]
      exact hsorted.map fun _ _ => MappingKey.str.inj
    refine (Dict.find_eq_some_iff hnodup _ _).mpr (List.mem_map.mpr ⟨(name, canon v), ?_, rfl⟩)
    exact (List.mem_insertionSort KeyLe).mpr ((mem_canonMembers hkeys name _).mpr ⟨v, hmem, rfl⟩)
  · intro key
    simp only [List.mem_map, List.mem_insertionSort, exists_exists_and_eq_and]
    constructor
    · rintro ⟨⟨name, u⟩, hm, rfl⟩
      obtain ⟨v, hv, -⟩ := (mem_canonMembers hkeys name u).mp hm
      exact ⟨_, hv, rfl⟩
    · rintro ⟨e, he, rfl⟩
      obtain ⟨name, hname, -⟩ := hkeys e he
      refine ⟨(name, canon e.2), (mem_canonMembers hkeys name _).mpr ⟨e.2, ?_, rfl⟩, hname.symm⟩
      rw [← hname]
      exact he

theorem mem_fields {entries : List (String × Option PyValue)} {key : MappingKey} {v : PyValue} :
    (key, v) ∈ (entries.filterMap fun entry => entry.2.map fun value => (MappingKey.str (py entry.1), value)) ↔
      ∃ name, (name, some v) ∈ entries ∧ key = .str (py name) := by
  rw [List.mem_filterMap]
  constructor
  · rintro ⟨⟨name, value⟩, hmem, hsome⟩
    obtain ⟨w, rfl, heq⟩ := Option.map_eq_some_iff.mp hsome
    cases heq
    exact ⟨name, hmem, rfl⟩
  · rintro ⟨name, hmem, rfl⟩
    exact ⟨_, hmem, rfl⟩

theorem canon_fields_find {entries : List (String × Option PyValue)} (h : IJson (fields entries)) :
    ∃ ms, canon (fields entries) = .mapping ms ∧
      (∀ name v, (name, some v) ∈ entries → Dict.find ms (.str (py name)) = some (canon v)) ∧
      ∀ key, key ∈ ms.map Prod.fst ↔ ∃ name v, (name, some v) ∈ entries ∧ key = .str (py name) := by
  obtain ⟨ms, hms, hfind, hkeys⟩ := canon_mapping_find h
  refine ⟨ms, hms, fun name v hmem => hfind _ v (mem_fields.2 ⟨name, hmem, rfl⟩), fun key => ?_⟩
  rw [hkeys]
  constructor
  · intro hkey
    obtain ⟨⟨key', v⟩, hmem, rfl⟩ := List.mem_map.mp hkey
    obtain ⟨name, hentry, hname⟩ := mem_fields.1 hmem
    exact ⟨name, v, hentry, hname⟩
  · rintro ⟨name, v, hmem, rfl⟩
    exact List.mem_map.mpr ⟨_, mem_fields.2 ⟨name, hmem, rfl⟩, rfl⟩

/-! ## Texts that end where they say -/

/-- In front of a delimiter, neither text can be taken for a part of the other. -/
def Cut (t u : PyStr) : Prop :=
  ∀ rest rest', Stop rest → Stop rest' → t ++ rest = u ++ rest' → t = u ∧ rest = rest'

theorem cut_of_iJson {v w : PyValue} (hv : IJson v) (hw : IJson w) : Cut (render (canon v)) (render (canon w)) := by
  intro rest rest' hrest hrest' h
  have hread := (reads_canon v hv).scan ((render (canon v)).length + (render (canon w)).length) rest (by omega) hrest
  rw [h, (reads_canon w hw).scan _ rest' (by omega) hrest'] at hread
  simp only [Except.ok.injEq, Prod.mk.injEq] at hread
  exact ⟨by rw [hread.1], hread.2.symm⟩

theorem takeWhile_number {t rest : PyStr} (ht : NumberText t) (hrest : Stop rest) :
    (t ++ rest).takeWhile (fun c => NumberChar c) = t := by
  rw [List.takeWhile_append_of_pos fun c hc => by simpa using ht c hc]
  rcases hrest with rfl | ⟨c, tail, rfl, hc⟩
  · simp
  · have hnot : ¬ NumberChar c := by
      unfold NumberChar IsDigit
      omega
    simp [hnot]

theorem cut_of_numbers {t u : PyStr} (ht : NumberText t) (hu : NumberText u) : Cut t u := by
  intro rest rest' hrest hrest' h
  have heq : t = u := by rw [← takeWhile_number ht hrest, h, takeWhile_number hu hrest']
  subst heq
  exact ⟨rfl, List.append_cancel_left h⟩

/-! ## Members -/

/-- One key with the texts of its value in two records. -/
structure Aligned where
  key : PyStr
  left : PyStr
  right : PyStr

def Aligned.leftText (m : Aligned) : PyStr := stringText m.key ++ py ":" ++ m.left
def Aligned.rightText (m : Aligned) : PyStr := stringText m.key ++ py ":" ++ m.right

theorem aligned_joinCommas : ∀ {ms : List Aligned}, (∀ m ∈ ms, Cut m.left m.right) →
    ∀ {rest rest' : PyStr}, Stop rest → Stop rest' →
      joinCommas (ms.map Aligned.leftText) ++ rest = joinCommas (ms.map Aligned.rightText) ++ rest' →
      ∀ m ∈ ms, m.left = m.right
  | [], _, _, _, _, _, _ => fun m hm => by cases hm
  | [a], hcut, rest, rest', hrest, hrest', h => by
      simp only [List.map_cons, List.map_nil, joinCommas_singleton, Aligned.leftText, Aligned.rightText,
        List.append_assoc, List.append_cancel_left_eq] at h
      intro m hm
      obtain rfl := List.mem_singleton.mp hm
      exact (hcut m hm _ _ hrest hrest' h).1
  | a :: b :: ms, hcut, rest, rest', hrest, hrest', h => by
      simp only [List.map_cons, joinCommas_cons] at h
      rw [← List.map_cons, ← List.map_cons] at h
      simp only [Aligned.leftText, Aligned.rightText, List.append_assoc, List.cons_append,
        List.append_cancel_left_eq] at h
      obtain ⟨hhead, htail⟩ := hcut a List.mem_cons_self _ _ (stop_cons _ (by decide)) (stop_cons _ (by decide)) h
      have ih := aligned_joinCommas (fun m hm => hcut m (List.mem_cons_of_mem a hm)) hrest hrest' (List.cons.inj htail).2
      intro m hm
      rcases List.mem_cons.mp hm with rfl | hm
      · exact hhead
      · exact ih m hm

/-- A key with what serializing its value gives in two records. -/
abbrev Paired := PyStr × Except PyError PyStr × Except PyError PyStr

def Paired.align (m : Paired) : Aligned := ⟨m.1, m.2.1.toOption.getD [], m.2.2.toOption.getD []⟩

theorem members_eq {entries : List (PyStr × Except PyError PyStr)} {members : List PyStr}
    (h : entries.mapM member = .ok members) :
    (∀ e ∈ entries, ∃ t, e.2 = .ok t) ∧
      members = entries.map fun e => stringText e.1 ++ py ":" ++ e.2.toOption.getD [] := by
  have hall := mapM_eq_ok h
  clear h
  induction hall with
  | nil => simp
  | @cons e text entries members hmember _ ih =>
    unfold member at hmember
    obtain ⟨key, hkey, hmember⟩ := bind_eq_ok.1 hmember
    obtain ⟨value, hvalue, heq⟩ := bind_eq_ok.1 hmember
    cases heq
    have hscalar : Scalar e.1 := scalar_of_serialize (by rw [serialize]; exact hkey)
    rw [serializeString_ok hscalar] at hkey
    cases hkey
    refine ⟨?_, ?_⟩
    · intro e' he'
      rcases List.mem_cons.mp he' with rfl | he'
      · exact ⟨value, hvalue⟩
      · exact ih.1 e' he'
    · rw [List.map_cons, ← ih.2, hvalue]
      rfl

theorem serialize_mapping_eq_ok {es : List (MappingKey × PyValue)} (hkeys : ∀ e ∈ es, ∃ k, e.1 = .str k ∧ Scalar k)
    {text : PyStr} (h : serialize (.mapping es) = .ok text) :
    ∃ members, ((es.map fun e => (keyText e.1, serialize e.2)).insertionSort KeyLe).mapM member = .ok members ∧
      text = py "\x7b" ++ joinCommas members ++ py "\x7d" := by
  rw [serialize] at h
  split_ifs at h
  obtain ⟨_, -, h⟩ := bind_eq_ok.1 h
  obtain ⟨members, hmembers, h⟩ := bind_eq_ok.1 h
  rw [serializeEntries_eq hkeys] at hmembers
  exact ⟨members, hmembers, (Except.ok.inj h).symm⟩

/-- **The text of a record determines the text of each member.** Two records with the same keys, whose members can be
told apart in front of a delimiter, have the same canonical text only if each member has. -/
theorem serialize_mapping_members {es fs : List (MappingKey × PyValue)} (hsame : es.map Prod.fst = fs.map Prod.fst)
    (hkeys : ∀ e ∈ es, ∃ k, e.1 = .str k ∧ Scalar k) {text : PyStr} (hes : serialize (.mapping es) = .ok text)
    (hfs : serialize (.mapping fs) = .ok text)
    (hcut : ∀ p ∈ es.zip fs, ∀ t u, serialize p.1.2 = .ok t → serialize p.2.2 = .ok u → Cut t u) :
    ∀ p ∈ es.zip fs, ∃ t, serialize p.1.2 = .ok t ∧ serialize p.2.2 = .ok t := by
  have hlength : es.length = fs.length := by simpa using congrArg List.length hsame
  have hkeys' : ∀ f ∈ fs, ∃ k, f.1 = .str k ∧ Scalar k := by
    intro f hf
    have hmem : f.1 ∈ es.map Prod.fst := hsame ▸ List.mem_map_of_mem hf
    obtain ⟨e, he, heq⟩ := List.mem_map.mp hmem
    rw [← heq]
    exact hkeys e he
  -- both lists of members come from one list of pairs, sorted once
  obtain ⟨pairs, hpairs⟩ : ∃ pairs : List Paired,
      pairs = (es.zip fs).map fun p => (keyText p.1.1, serialize p.1.2, serialize p.2.2) := ⟨_, rfl⟩
  have hzip : (es.zip fs).map Prod.fst = es ∧ (es.zip fs).map Prod.snd = fs :=
    ⟨List.map_fst_zip (by omega), List.map_snd_zip (by omega)⟩
  have hkey : ∀ p ∈ es.zip fs, p.1.1 = p.2.1 := by
    rw [← List.forall₂_eq_eq_eq, List.forall₂_map_left_iff, List.forall₂_map_right_iff, List.forall₂_iff_zip] at hsame
    exact fun p hp => hsame.2 hp
  have hleft : (es.map fun e => (keyText e.1, serialize e.2)) = pairs.map fun m => (m.1, m.2.1) := by
    conv_lhs => rw [← hzip.1]
    rw [hpairs, List.map_map, List.map_map]
    rfl
  have hright : (fs.map fun f => (keyText f.1, serialize f.2)) = pairs.map fun m => (m.1, m.2.2) := by
    conv_lhs => rw [← hzip.2]
    rw [hpairs, List.map_map, List.map_map]
    refine List.map_congr_left fun p hp => ?_
    simp only [Function.comp_apply, hkey p hp]
  obtain ⟨members, hmembers, htext⟩ := serialize_mapping_eq_ok hkeys hes
  obtain ⟨members', hmembers', htext'⟩ := serialize_mapping_eq_ok hkeys' hfs
  have hsort : ∀ g : Paired → Except PyError PyStr, (pairs.map fun m => (m.1, g m)).insertionSort KeyLe =
      (pairs.insertionSort KeyLe).map fun m => (m.1, g m) := by
    intro g
    exact (List.map_insertionSort KeyLe KeyLe (fun m : Paired => (m.1, g m)) pairs fun _ _ _ _ => Iff.rfl).symm
  rw [hleft, hsort fun m => m.2.1] at hmembers
  rw [hright, hsort fun m => m.2.2] at hmembers'
  obtain ⟨hok, rfl⟩ := members_eq hmembers
  obtain ⟨hok', rfl⟩ := members_eq hmembers'
  -- what is left of the two texts between the braces
  have hbody := htext.symm.trans htext'
  rw [List.append_assoc, List.append_assoc, List.append_cancel_left_eq] at hbody
  obtain ⟨sorted, hsorted⟩ : ∃ sorted, sorted = pairs.insertionSort KeyLe := ⟨_, rfl⟩
  rw [← hsorted] at hok hok' hbody
  have hmem : ∀ m : Paired, m ∈ sorted ↔ m ∈ pairs := fun m => by rw [hsorted, List.mem_insertionSort]
  have hcutS : ∀ m ∈ sorted.map Paired.align, Cut m.left m.right := by
    intro a ha
    obtain ⟨m, hm, rfl⟩ := List.mem_map.mp ha
    obtain ⟨t, ht⟩ := hok _ (List.mem_map_of_mem hm)
    obtain ⟨u, hu⟩ := hok' _ (List.mem_map_of_mem hm)
    obtain ⟨p, hp, rfl⟩ := List.mem_map.mp (hpairs ▸ (hmem m).mp hm)
    have hcutp := hcut p hp t u ht hu
    simp only [Paired.align, show serialize p.1.2 = .ok t from ht, show serialize p.2.2 = .ok u from hu]
    exact hcutp
  have hjoined : joinCommas ((sorted.map Paired.align).map Aligned.leftText) ++ py "\x7d" =
      joinCommas ((sorted.map Paired.align).map Aligned.rightText) ++ py "\x7d" := by
    rw [List.map_map, List.map_map]
    rw [List.map_map, List.map_map] at hbody
    exact hbody
  have hstop : Stop (py "\x7d") := stop_cons [] (by decide)
  have hequal := aligned_joinCommas hcutS hstop hstop hjoined
  intro p hp
  have hm : (keyText p.1.1, serialize p.1.2, serialize p.2.2) ∈ sorted :=
    (hmem _).mpr (hpairs ▸ List.mem_map_of_mem hp)
  obtain ⟨t, ht⟩ := hok _ (List.mem_map_of_mem hm)
  obtain ⟨u, hu⟩ := hok' _ (List.mem_map_of_mem hm)
  have htu := hequal _ (List.mem_map_of_mem hm)
  simp only [Paired.align, show serialize p.1.2 = .ok t from ht, show serialize p.2.2 = .ok u from hu] at htu
  refine ⟨t, ht, ?_⟩
  rw [show serialize p.2.2 = .ok u from hu]
  exact congrArg Except.ok htu.symm

/-! ## Records of texts and counts -/

/-- Texts, lists of texts, booleans and `None`. -/
def Textual : PyValue → Prop
  | .none | .bool _ | .str _ => True
  | .list items => ∀ item ∈ items, ∃ s, item = .str s
  | _ => False

theorem textual_strings (items : List PyStr) : Textual (strings items) := by
  intro item h
  obtain ⟨s, -, rfl⟩ := List.mem_map.mp h
  exact ⟨s, rfl⟩

theorem canon_textual {v : PyValue} (h : Textual v) : canon v = v := by
  cases v with
  | none => simp [canon]
  | bool b => simp [canon]
  | str s => simp [canon]
  | list items =>
    rw [canon]
    congr 1
    conv_rhs => rw [← List.map_id items]
    refine List.map_congr_left fun item hitem => ?_
    obtain ⟨s, rfl⟩ := h item hitem
    simp [canon]
  | int n => exact h.elim
  | float x => exact h.elim
  | mapping es => exact h.elim
  | tuple items => exact h.elim
  | other n => exact h.elim

theorem iJson_of_textual {v : PyValue} (h : Textual v) {t : PyStr} (ht : serialize v = .ok t) : IJson v := by
  cases v with
  | none => simp
  | bool b => simp
  | str s => exact iJson_str.2 (scalar_of_serialize ht)
  | list items =>
    rw [IJson]
    rw [serialize] at ht
    obtain ⟨parts, hparts, -⟩ := bind_eq_ok.1 ht
    rw [serializeItems_eq] at hparts
    intro item hitem
    obtain ⟨s, rfl⟩ := h item hitem
    obtain ⟨u, hu⟩ := mapM_mem_ok hparts _ hitem
    exact iJson_str.2 (scalar_of_serialize hu)
  | int n => exact h.elim
  | float x => exact h.elim
  | mapping es => exact h.elim
  | tuple items => exact h.elim
  | other n => exact h.elim

/-- Both textual, or both a positive count: values whose texts tell them apart. -/
def Comparable (v w : PyValue) : Prop :=
  (Textual v ∧ Textual w) ∨ ∃ m n : ℤ, v = .int m ∧ w = .int n ∧ 0 < m ∧ 0 < n

theorem Comparable.cut {v w : PyValue} (h : Comparable v w) {t u : PyStr} (ht : serialize v = .ok t)
    (hu : serialize w = .ok u) : Cut t u := by
  rcases h with ⟨hv, hw⟩ | ⟨m, n, rfl, rfl, hm, hn⟩
  · have hvj := iJson_of_textual hv ht
    have hwj := iJson_of_textual hw hu
    rw [serialize_eq v hvj] at ht
    rw [serialize_eq w hwj] at hu
    cases ht
    cases hu
    exact cut_of_iJson hvj hwj
  · rw [serialize] at ht hu
    exact cut_of_numbers (numberText_of_serializeInteger hm ht) (numberText_of_serializeInteger hn hu)

theorem Comparable.eq_of_serialize {v w : PyValue} (h : Comparable v w) {t : PyStr} (ht : serialize v = .ok t)
    (hu : serialize w = .ok t) : v = w := by
  rcases h with ⟨hv, hw⟩ | ⟨m, n, rfl, rfl, hm, hn⟩
  · have hbytes : canonicalize v = canonicalize w := by rw [canonicalize, canonicalize, ht, hu]
    rw [canonicalize_eq_iff_canon (iJson_of_textual hv ht) (iJson_of_textual hw hu), canon_textual hv,
      canon_textual hw] at hbytes
    exact hbytes
  · rw [serialize] at ht hu
    rw [serializeInteger_injective hm hn ht hu]

theorem utf8Encode_injective : Function.Injective utf8Encode := by
  intro s t h
  have hs := utf8Decode_encode s
  rw [h, utf8Decode_encode] at hs
  exact (Option.some.inj hs).symm

/-- **The canonical bytes of a record determine it.** -/
theorem canonicalize_mapping_injective {es fs : List (MappingKey × PyValue)}
    (hsame : List.Forall₂ (fun e f => e.1 = f.1 ∧ Comparable e.2 f.2) es fs)
    (hkeys : ∀ e ∈ es, ∃ k, e.1 = .str k ∧ Scalar k) {bytes : Bytes} (hes : canonicalize (.mapping es) = .ok bytes)
    (hfs : canonicalize (.mapping fs) = .ok bytes) : es = fs := by
  unfold canonicalize at hes hfs
  obtain ⟨text, htext, hencoded⟩ := bind_eq_ok.1 hes
  obtain ⟨text', htext', hencoded'⟩ := bind_eq_ok.1 hfs
  obtain rfl : text = text' := utf8Encode_injective (Except.ok.inj (hencoded.trans hencoded'.symm))
  have hzip := List.forall₂_iff_zip.mp hsame
  have hfst : es.map Prod.fst = fs.map Prod.fst := by
    rw [← List.forall₂_eq_eq_eq, List.forall₂_map_left_iff, List.forall₂_map_right_iff]
    exact hsame.imp fun _ _ h => h.1
  have hmembers := serialize_mapping_members hfst hkeys htext htext' fun p hp t u ht hu => (hzip.2 hp).2.cut ht hu
  rw [← List.forall₂_eq_eq_eq, List.forall₂_iff_zip]
  refine ⟨hzip.1, fun {e f} hp => ?_⟩
  obtain ⟨t, ht, hu⟩ := hmembers _ hp
  obtain ⟨hkey, hcomparable⟩ := hzip.2 hp
  exact Prod.ext hkey (hcomparable.eq_of_serialize ht hu)

end OcorRuntime.Kernel

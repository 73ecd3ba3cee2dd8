import OcorRuntime.Canonical.RoundTrip
import OcorRuntime.Canonical.StandardNumbers

/-! `json.loads` of what `json.dumps` wrote. `loads_dumps` holds of every value that is written at all; `reread`
says what comes back: tuples as lists, objects in key order, and texts with their surrogates joined. -/
namespace OcorRuntime.StandardJson
open Canonical
set_option autoImplicit false
set_option maxHeartbeats 250000
set_option maxRecDepth 120000

/-- The members of an object in the order they are written. -/
def sortedMembers (es : List (MappingKey × PyValue)) : List (PyStr × PyValue) :=
  (es.map fun e => (keyText e.1, e.2)).insertionSort MemberLe

/-- What a value is read back as. -/
def reread : PyValue → PyValue
  | .str s => .str (rejoin s)
  | .list xs => .list (xs.map reread)
  | .tuple xs => .list (xs.map reread)
  | .mapping es => dictOf (((es.map fun e => (keyText e.1, reread e.2)).insertionSort MemberLe).map fun m => (rejoin m.1, m.2))
  | v => v
termination_by v => sizeOf v
decreasing_by
  all_goals simp_wf
  · exact Nat.lt_add_left 1 (List.sizeOf_lt_of_mem ‹_›)
  · exact Nat.lt_add_left 1 (List.sizeOf_lt_of_mem ‹_›)
  · exact sizeOf_entry_lt ‹_›

attribute [local grind =] reread

theorem map_insertionSort_member {α β : Type} (f : α → β) (l : List (PyStr × α)) :
    (l.map fun m => (m.1, f m.2)).insertionSort MemberLe = (l.insertionSort MemberLe).map fun m => (m.1, f m.2) :=
  (List.map_insertionSort MemberLe MemberLe (fun m : PyStr × α => (m.1, f m.2)) l fun _ _ _ _ => Iff.rfl).symm

theorem reread_mapping (es : List (MappingKey × PyValue)) :
    reread (.mapping es) = dictOf ((sortedMembers es).map fun m => (rejoin m.1, reread m.2)) := by
  have hmap : (es.map fun e => (keyText e.1, reread e.2)) =
      (es.map fun e => (keyText e.1, e.2)).map fun m => (m.1, reread m.2) := by
    rw [List.map_map]
    rfl
  rw [reread, hmap, map_insertionSort_member, List.map_map]
  rfl

theorem mem_sortedMembers {es : List (MappingKey × PyValue)} {m : PyStr × PyValue} :
    m ∈ sortedMembers es ↔ ∃ e ∈ es, (keyText e.1, e.2) = m := by
  rw [sortedMembers, List.mem_insertionSort, List.mem_map]

/-! ## Texts that load -/

/-- The text reads as `v` in front of any delimiter. -/
structure LoadsTo (text : PyStr) (v : PyValue) : Prop where
  head : ∃ c t, text = c :: t ∧ Start c
  scan : ∀ fuel rest, text.length ≤ fuel → Stop rest → loadOnce fuel (text ++ rest) = .ok (v, rest)

theorem loadsTo_literal {text : PyStr} {v : PyValue} (c : CodePoint) (tail : PyStr) (htext : text = c :: tail)
    (hc : Start c) (hscan : ∀ fuel rest, Stop rest → loadOnce (fuel + 1) (c :: (tail ++ rest)) = .ok (v, rest)) :
    LoadsTo text v where
  head := ⟨c, tail, htext, hc⟩
  scan := by
    intro fuel rest hf hrest
    rw [htext, List.length_cons] at hf
    obtain ⟨n, rfl⟩ : ∃ n, fuel = n + 1 := ⟨fuel - 1, by omega⟩
    rw [htext, List.cons_append]
    exact hscan n rest hrest

theorem loadsTo_none : LoadsTo (py "null") .none := by
  refine loadsTo_literal (codePoint 0x6E) (py "ull") py_null (by unfold Start; decide) ?_
  intro fuel rest _
  have hp : py "null" <+: codePoint 0x6E :: (py "ull" ++ rest) := ⟨rest, by rw [py_null]; rfl⟩
  rw [loadOnce, if_neg (by decide), if_neg (by decide), if_neg (by decide), if_pos hp]
  rfl

theorem loadsTo_true : LoadsTo (py "true") (.bool true) := by
  refine loadsTo_literal (codePoint 0x74) (py "rue") py_true (by unfold Start; decide) ?_
  intro fuel rest _
  have hp : py "true" <+: codePoint 0x74 :: (py "rue" ++ rest) := ⟨rest, by rw [py_true]; rfl⟩
  rw [loadOnce, if_neg (by decide), if_neg (by decide), if_neg (by decide), py_null,
    if_neg (not_prefix_cons (by decide) _ _), if_pos hp]
  rfl

theorem loadsTo_false : LoadsTo (py "false") (.bool false) := by
  refine loadsTo_literal (codePoint 0x66) (py "alse") py_false (by unfold Start; decide) ?_
  intro fuel rest _
  have hp : py "false" <+: codePoint 0x66 :: (py "alse" ++ rest) := ⟨rest, by rw [py_false]; rfl⟩
  rw [loadOnce, if_neg (by decide), if_neg (by decide), if_neg (by decide), py_null, py_true,
    if_neg (not_prefix_cons (by decide) _ _), if_neg (not_prefix_cons (by decide) _ _), if_pos hp]
  rfl

theorem loadsTo_nan : LoadsTo (py "NaN") (.float .nan) := by
  refine loadsTo_literal (codePoint 0x4E) (py "aN") py_nan (by unfold Start; decide) ?_
  intro fuel rest _
  have hp : py "NaN" <+: codePoint 0x4E :: (py "aN" ++ rest) := ⟨rest, by rw [py_nan]; rfl⟩
  rw [loadOnce, if_neg (by decide), if_neg (by decide), if_neg (by decide), py_null, py_true, py_false,
    if_neg (not_prefix_cons (by decide) _ _), if_neg (not_prefix_cons (by decide) _ _),
    if_neg (not_prefix_cons (by decide) _ _), if_pos hp]
  rfl

theorem loadsTo_infinity : LoadsTo (py "Infinity") (.float (.infinite false)) := by
  refine loadsTo_literal (codePoint 0x49) (py "nfinity") py_infinity (by unfold Start; decide) ?_
  intro fuel rest _
  have hp : py "Infinity" <+: codePoint 0x49 :: (py "nfinity" ++ rest) := ⟨rest, by rw [py_infinity]; rfl⟩
  rw [loadOnce, if_neg (by decide), if_neg (by decide), if_neg (by decide), py_null, py_true, py_false, py_nan,
    if_neg (not_prefix_cons (by decide) _ _), if_neg (not_prefix_cons (by decide) _ _),
    if_neg (not_prefix_cons (by decide) _ _), if_neg (not_prefix_cons (by decide) _ _), if_pos hp]
  rfl

theorem loadsTo_negInfinity : LoadsTo (py "-Infinity") (.float (.infinite true)) := by
  refine loadsTo_literal (codePoint 0x2D) (py "Infinity") (by decide) (by unfold Start; decide) ?_
  intro fuel rest _
  have hp : py "-Infinity" <+: codePoint 0x2D :: (py "Infinity" ++ rest) := ⟨rest, by rw [py_negInfinity]; rfl⟩
  rw [loadOnce, if_neg (by decide), if_neg (by decide), if_neg (by decide), py_null, py_true, py_false, py_nan,
    py_infinity, if_neg (not_prefix_cons (by decide) _ _), if_neg (not_prefix_cons (by decide) _ _),
    if_neg (not_prefix_cons (by decide) _ _), if_neg (not_prefix_cons (by decide) _ _),
    if_neg (not_prefix_cons (by decide) _ _), ← py_infinity, if_pos hp]
  rfl

theorem scanString_asciiText (s rest : PyStr) :
    scanString (s.flatMap asciiChar ++ [quote] ++ rest) = .ok (rejoin s, rest) := by
  rw [List.append_assoc, List.singleton_append, scanString_ascii]

theorem loadsTo_str (s : PyStr) : LoadsTo (asciiText s) (.str (rejoin s)) := by
  refine loadsTo_literal quote (s.flatMap asciiChar ++ [quote]) rfl (by unfold Start; decide) ?_
  intro fuel rest _
  rw [loadOnce, if_pos (by decide), scanString_asciiText]
  rfl

theorem loadsTo_number {neg : Bool} {body : PyStr} {v : PyValue} (d : CodePoint) (t : PyStr) (hbody : body = d :: t)
    (hd : IsDigit d) (hload : ∀ rest, Stop rest → loadUnsigned neg (body ++ rest) = .ok (v, rest)) :
    LoadsTo ((if neg then py "-" else []) ++ body) v := by
  have hdigit : 48 ≤ d.val ∧ d.val ≤ 57 := hd
  have hne : ∀ k : ℕ, k < 0x110000 → (k < 48 ∨ 57 < k) → codePoint k ≠ d := by
    intro k hk h he
    have := congrArg Fin.val he
    rw [codePoint_val k hk] at this
    omega
  cases neg with
  | false =>
    simp only [Bool.false_eq_true, if_false, List.nil_append]
    refine loadsTo_literal d t hbody (by unfold Start; omega) ?_
    intro fuel rest hrest
    have h := hload rest hrest
    rw [hbody, List.cons_append] at h
    rw [loadOnce, if_neg (by omega), if_neg (by omega), if_neg (by omega), py_null, py_true, py_false, py_nan,
      py_infinity, py_negInfinity, if_neg (not_prefix_cons (hne _ (by omega) (by omega)) _ _),
      if_neg (not_prefix_cons (hne _ (by omega) (by omega)) _ _),
      if_neg (not_prefix_cons (hne _ (by omega) (by omega)) _ _),
      if_neg (not_prefix_cons (hne _ (by omega) (by omega)) _ _),
      if_neg (not_prefix_cons (hne _ (by omega) (by omega)) _ _),
      if_neg (not_prefix_cons (hne _ (by omega) (by omega)) _ _), loadNumber, if_neg (by omega), h]
  | true =>
    have hm : py "-" = [codePoint 0x2D] := by decide
    simp only [if_true]
    rw [hm]
    refine loadsTo_literal (codePoint 0x2D) body rfl (by unfold Start; decide) ?_
    intro fuel rest hrest
    have hinf : ¬ py "-Infinity" <+: codePoint 0x2D :: (body ++ rest) := by
      rw [py_negInfinity, List.cons_prefix_cons, hbody, List.cons_append]
      rintro ⟨-, hp⟩
      exact not_prefix_cons (hne _ (by omega) (by omega)) _ _ hp
    rw [loadOnce, if_neg (by decide), if_neg (by decide), if_neg (by decide), py_null, py_true, py_false, py_nan,
      py_infinity, if_neg (not_prefix_cons (by decide) _ _), if_neg (not_prefix_cons (by decide) _ _),
      if_neg (not_prefix_cons (by decide) _ _), if_neg (not_prefix_cons (by decide) _ _),
      if_neg (not_prefix_cons (by decide) _ _), if_neg hinf, loadNumber, if_pos (by decide), hload rest hrest]

theorem loadsTo_int {n : ℤ} (hn : n.natAbs < 10 ^ maxStrDigits) : LoadsTo (intText n) (.int n) := by
  obtain ⟨d, t, ht⟩ := List.exists_cons_of_ne_nil (natText_ne_nil n.natAbs)
  have hd := natText_digits n.natAbs d (by rw [ht]; exact List.mem_cons_self ..)
  have hval : (if decide (n < 0) = true then -(n.natAbs : ℤ) else n.natAbs) = n := by
    split_ifs with h
    · rw [decide_eq_true_eq] at h
      omega
    · rw [decide_eq_true_eq] at h
      omega
  have h := loadsTo_number d t ht hd fun rest hrest => loadUnsigned_natText (decide (n < 0)) hn hrest
  rw [hval] at h
  unfold intText
  split_ifs with hneg
  · simpa [hneg] using h
  · simpa [hneg] using h

theorem reprAbs_head (x : FiniteFloat) : ∃ d t, x.reprAbs = d :: t ∧ IsDigit d := by
  obtain ⟨d, t, ht⟩ := List.exists_cons_of_ne_nil (natText_ne_nil x.shortest.1)
  have hd := natText_digits x.shortest.1 d (by rw [ht]; exact List.mem_cons_self ..)
  have hzero : ∀ u, ∃ e s, py "0" ++ u = e :: s ∧ IsDigit e := fun u => ⟨digitChar 0, u, rfl, by decide⟩
  unfold FiniteFloat.reprAbs
  dsimp only
  rw [ht]
  split_ifs with h1 h2 h3 h4
  · exact ⟨digitChar 0, py ".0", rfl, by decide⟩
  all_goals first
    | exact ⟨d, _, rfl, hd⟩
    | exact ⟨digitChar 0, _, rfl, by decide⟩
    | skip
  obtain ⟨k, hk⟩ : ∃ k, ((((d :: t).length : ℕ) : ℤ) + x.shortest.2).toNat = k + 1 :=
    ⟨((((d :: t).length : ℕ) : ℤ) + x.shortest.2).toNat - 1, by omega⟩
  rw [hk]
  exact ⟨d, _, rfl, hd⟩

theorem loadsTo_float (x : Binary64) : LoadsTo (dumpFloat x) (.float x) := by
  cases x with
  | nan => exact loadsTo_nan
  | infinite neg =>
    cases neg with
    | false => exact loadsTo_infinity
    | true => exact loadsTo_negInfinity
  | finite x =>
    obtain ⟨d, t, ht, hd⟩ := reprAbs_head x
    refine loadsTo_number d t ht hd fun rest hrest => ?_
    by_cases hx : x.IsZero
    · unfold FiniteFloat.reprAbs
      rw [if_pos hx, loadUnsigned_zero x.neg hrest]
      obtain ⟨neg, mantissa, exponent, hcanonical⟩ := x
      have hm : mantissa = 0 := hx
      have he : exponent = -1074 := by omega
      subst hm he
      rfl
    · exact loadUnsigned_reprAbs hx hrest

/-! ## Containers -/

theorem loadItems_loads : ∀ (p : PyStr × PyValue) (ps : List (PyStr × PyValue)), (∀ x ∈ p :: ps, LoadsTo x.1 x.2) →
    ∀ fuel rest, (joinCommas ((p :: ps).map Prod.fst)).length + 1 ≤ fuel →
      loadItems fuel (joinCommas ((p :: ps).map Prod.fst) ++ codePoint 0x5D :: rest) = .ok ((p :: ps).map Prod.snd, rest)
  | p, ps, _, 0, rest, hf => by omega
  | p, [], hr, fuel + 1, rest, hf => by
      rw [List.map_singleton, joinCommas_singleton] at hf ⊢
      rw [loadItems, (hr p (List.mem_cons_self ..)).scan fuel _ (by omega) (stop_cons rest (by decide))]
      simp only [bind, Except.bind, skipSpace_cons (show ¬ IsSpace (codePoint 0x5D) by decide),
        show (codePoint 0x5D).val = 0x5D by decide, if_true]
      rfl
  | p, q :: ps, hr, fuel + 1, rest, hf => by
      have hp := hr p (List.mem_cons_self ..)
      have hq := hr q (List.mem_cons_of_mem p (List.mem_cons_self ..))
      simp only [List.map_cons] at hf ⊢
      rw [joinCommas_cons] at hf ⊢
      rw [List.length_append, List.length_cons] at hf
      obtain ⟨c, t, hct, hstart⟩ := hq.head
      obtain ⟨t', ht'⟩ := joinCommas_head (ps.map Prod.fst) hct
      have hskip : skipSpace (joinCommas (q.1 :: ps.map Prod.fst) ++ codePoint 0x5D :: rest) =
          joinCommas (q.1 :: ps.map Prod.fst) ++ codePoint 0x5D :: rest := by
        rw [ht']
        exact skipSpace_cons hstart.not_space _
      have hpos : 0 < p.1.length := by
        obtain ⟨c', u, h', -⟩ := hp.head
        rw [h']
        exact Nat.succ_pos _
      have ih := loadItems_loads q ps (fun x hx => hr x (List.mem_cons_of_mem p hx)) fuel rest
        (by rw [List.map_cons]; omega)
      rw [List.map_cons] at ih
      rw [List.append_assoc, List.cons_append, loadItems, hp.scan fuel _ (by omega) (stop_cons _ (by decide))]
      simp only [bind, Except.bind, skipSpace_cons (show ¬ IsSpace (codePoint 0x2C) by decide),
        show (codePoint 0x2C).val = 0x2C by decide, show ¬ (0x2C : ℕ) = 0x5D by decide, if_false, if_true, hskip, ih]
      rfl

theorem loadsTo_list {ps : List (PyStr × PyValue)} (h : ∀ p ∈ ps, LoadsTo p.1 p.2) :
    LoadsTo (py "[" ++ joinCommas (ps.map Prod.fst) ++ py "]") (.list (ps.map Prod.snd)) := by
  have hopen : py "[" = [codePoint 0x5B] := by decide
  have hclose : py "]" = [codePoint 0x5D] := by decide
  have htext : py "[" ++ joinCommas (ps.map Prod.fst) ++ py "]" =
      codePoint 0x5B :: (joinCommas (ps.map Prod.fst) ++ [codePoint 0x5D]) := by
    rw [hopen, hclose]
    rfl
  refine ⟨⟨_, _, htext, by unfold Start; decide⟩, ?_⟩
  intro fuel rest hf _
  rw [htext] at hf ⊢
  rw [List.length_cons, List.length_append, List.length_singleton] at hf
  obtain ⟨n, rfl⟩ : ∃ n, fuel = n + 1 := ⟨fuel - 1, by omega⟩
  rw [List.cons_append, List.append_assoc, List.singleton_append, loadOnce, if_neg (by decide), if_neg (by decide),
    if_pos (by decide)]
  cases ps with
  | nil =>
    rw [List.map_nil, show joinCommas [] = [] from rfl, List.nil_append, skipSpace_cons (by decide)]
    rfl
  | cons p ps =>
    obtain ⟨c, t, hct, hstart⟩ := (h p (List.mem_cons_self ..)).head
    obtain ⟨t', ht'⟩ := joinCommas_head (ps.map Prod.fst) hct
    have hitems := loadItems_loads p ps h n rest (by omega)
    rw [List.map_cons] at hitems ⊢
    rw [ht', List.cons_append] at hitems ⊢
    rw [skipSpace_cons hstart.not_space]
    dsimp only
    rw [if_neg (by unfold Start at hstart; omega), hitems]
    rfl

/-- A member: the literals of its key and its value, and what they read as. -/
structure Member where
  name : PyStr
  key : PyStr
  text : PyStr
  value : PyValue

namespace Member

def line (m : Member) : PyStr := m.name ++ py ":" ++ m.text

def pair (m : Member) : PyStr × PyValue := (m.key, m.value)

structure Loads (m : Member) : Prop where
  name : ∃ t, m.name = quote :: t ∧ ∀ rest, scanString (t ++ rest) = .ok (m.key, rest)
  text : LoadsTo m.text m.value

end Member

theorem loadMembers_head {m : Member} (hm : m.Loads) (fuel : ℕ) (rest : PyStr)
    (hf : m.line.length ≤ fuel) (hrest : Stop rest) :
    loadMembers (fuel + 1) (m.line ++ rest) = (do
      match skipSpace rest with
      | d :: rest =>
        if d.val = 0x7D then return ([m.pair], rest)
        else if d.val = 0x2C then
          let (pairs, rest) ← loadMembers fuel (skipSpace rest)
          return (m.pair :: pairs, rest)
        else .error .decode
      | [] => .error .decode) := by
  obtain ⟨name, key, text, value⟩ := m
  obtain ⟨⟨u, hname, hkey⟩, hvalue⟩ := hm
  obtain ⟨c, t, hct, hstart⟩ := hvalue.head
  dsimp only at hname
  have hcolon : py ":" = [codePoint 0x3A] := by decide
  have htext : Member.line ⟨name, key, text, value⟩ ++ rest = quote :: (u ++ codePoint 0x3A :: (text ++ rest)) := by
    simp [Member.line, hname, hcolon]
  have hlen : text.length ≤ fuel := by
    simp only [Member.line, List.length_append] at hf
    omega
  have hskip : skipSpace (text ++ rest) = text ++ rest := by
    dsimp only at hct
    rw [hct]
    exact skipSpace_cons hstart.not_space _
  rw [htext, loadMembers]
  simp only [show quote.val = 0x22 by decide, if_true, hkey, bind, Except.bind,
    skipSpace_cons (show ¬ IsSpace (codePoint 0x3A) by decide), show (codePoint 0x3A).val = 0x3A by decide, hskip,
    hvalue.scan fuel rest hlen hrest]
  all_goals rfl

theorem Member.Loads.head {m : Member} (hm : m.Loads) : ∃ t, m.line = quote :: t := by
  obtain ⟨u, hname, -⟩ := hm.name
  exact ⟨_, by rw [Member.line, hname]; rfl⟩

theorem loadMembers_loads : ∀ (m : Member) (ms : List Member), (∀ x ∈ m :: ms, x.Loads) →
    ∀ fuel rest, (joinCommas ((m :: ms).map Member.line)).length + 1 ≤ fuel →
      loadMembers fuel (joinCommas ((m :: ms).map Member.line) ++ codePoint 0x7D :: rest) =
        .ok ((m :: ms).map Member.pair, rest)
  | m, ms, _, 0, rest, hf => by omega
  | m, [], hr, fuel + 1, rest, hf => by
      rw [List.map_singleton, joinCommas_singleton] at hf ⊢
      rw [loadMembers_head (hr m (List.mem_cons_self ..)) fuel _ (by omega) (stop_cons rest (by decide)),
        skipSpace_cons (by decide)]
      rfl
  | m, n :: ms, hr, fuel + 1, rest, hf => by
      simp only [List.map_cons] at hf ⊢
      rw [joinCommas_cons] at hf ⊢
      rw [List.length_append, List.length_cons] at hf
      obtain ⟨_, hline⟩ := (hr m (List.mem_cons_self ..)).head
      have hpos : 0 < m.line.length := by
        rw [hline]
        exact Nat.succ_pos _
      obtain ⟨_, hline'⟩ := (hr n (List.mem_cons_of_mem m (List.mem_cons_self ..))).head
      obtain ⟨t', ht'⟩ := joinCommas_head (ms.map Member.line) hline'
      have hskip : skipSpace (joinCommas (n.line :: ms.map Member.line) ++ codePoint 0x7D :: rest) =
          joinCommas (n.line :: ms.map Member.line) ++ codePoint 0x7D :: rest := by
        rw [ht']
        exact skipSpace_cons (show ¬ IsSpace quote by decide) _
      have ih := loadMembers_loads n ms (fun x hx => hr x (List.mem_cons_of_mem m hx)) fuel rest
        (by rw [List.map_cons]; omega)
      rw [List.map_cons] at ih
      rw [List.append_assoc, List.cons_append, loadMembers_head (hr m (List.mem_cons_self ..)) fuel _ (by omega)
        (stop_cons _ (by decide)), skipSpace_cons (by decide)]
      simp only [show (codePoint 0x2C).val = 0x2C by decide, show ¬ (0x2C : ℕ) = 0x7D by decide, if_false, if_true,
        hskip, ih, bind, Except.bind]
      rfl

theorem loadsTo_mapping {ms : List Member} (h : ∀ m ∈ ms, m.Loads) :
    LoadsTo (py "\x7b" ++ joinCommas (ms.map Member.line) ++ py "\x7d") (dictOf (ms.map Member.pair)) := by
  have hopen : py "\x7b" = [codePoint 0x7B] := by decide
  have hclose : py "\x7d" = [codePoint 0x7D] := by decide
  have htext : py "\x7b" ++ joinCommas (ms.map Member.line) ++ py "\x7d" =
      codePoint 0x7B :: (joinCommas (ms.map Member.line) ++ [codePoint 0x7D]) := by
    rw [hopen, hclose]
    rfl
  refine ⟨⟨_, _, htext, by unfold Start; decide⟩, ?_⟩
  intro fuel rest hf _
  rw [htext] at hf ⊢
  rw [List.length_cons, List.length_append, List.length_singleton] at hf
  obtain ⟨n, rfl⟩ : ∃ n, fuel = n + 1 := ⟨fuel - 1, by omega⟩
  rw [List.cons_append, List.append_assoc, List.singleton_append, loadOnce, if_neg (by decide), if_pos (by decide)]
  cases ms with
  | nil =>
    rw [List.map_nil, show joinCommas [] = [] from rfl, List.nil_append, skipSpace_cons (by decide)]
    rfl
  | cons m ms =>
    obtain ⟨_, hline⟩ := (h m (List.mem_cons_self ..)).head
    obtain ⟨t', ht'⟩ := joinCommas_head (ms.map Member.line) hline
    have hmembers := loadMembers_loads m ms h n rest (by omega)
    rw [List.map_cons] at hmembers
    rw [List.map_cons (f := Member.line)]
    rw [ht', List.cons_append] at hmembers ⊢
    rw [skipSpace_cons (by decide)]
    dsimp only
    rw [if_neg (by decide), hmembers]
    rfl

/-! ## Every value that is written reads back -/

theorem dumpItems_loads {xs : List PyValue} {texts : List PyStr}
    (ih : ∀ x ∈ xs, ∀ text, dumps x = .ok text → LoadsTo text (reread x)) (h : dumpItems xs = .ok texts) :
    ∃ ps : List (PyStr × PyValue), ps.map Prod.fst = texts ∧ ps.map Prod.snd = xs.map reread ∧
      ∀ p ∈ ps, LoadsTo p.1 p.2 := by
  induction xs generalizing texts with
  | nil =>
    rw [dumpItems] at h
    cases h
    exact ⟨[], rfl, rfl, by simp⟩
  | cons x xs ihxs =>
    rw [dumpItems] at h
    obtain ⟨text, htext, h⟩ := bind_eq_ok.1 h
    obtain ⟨rest, hrest, h⟩ := bind_eq_ok.1 h
    cases h
    obtain ⟨ps, hfst, hsnd, hps⟩ := ihxs (fun y hy => ih y (List.mem_cons_of_mem x hy)) hrest
    refine ⟨(text, reread x) :: ps, by rw [List.map_cons, hfst], by rw [List.map_cons, hsnd, List.map_cons], ?_⟩
    intro p hp
    rcases List.mem_cons.mp hp with rfl | hp
    · exact ih x (List.mem_cons_self ..) text htext
    · exact hps p hp

theorem dumpMembers_loads {ms : List (PyStr × PyValue)} {texts : List PyStr}
    (ih : ∀ m ∈ ms, ∀ text, dumps m.2 = .ok text → LoadsTo text (reread m.2))
    (h : (ms.map fun m => (m.1, dumps m.2)).mapM dumpMember = .ok texts) :
    ∃ members : List Member, members.map Member.line = texts ∧
      members.map Member.pair = ms.map (fun m => (rejoin m.1, reread m.2)) ∧
      ∀ m ∈ members, m.Loads := by
  induction ms generalizing texts with
  | nil =>
    cases h
    exact ⟨[], rfl, rfl, by simp⟩
  | cons m ms ihms =>
    rw [List.map_cons, List.mapM_cons] at h
    obtain ⟨line, hline, h⟩ := bind_eq_ok.1 h
    obtain ⟨rest, hrest, h⟩ := bind_eq_ok.1 h
    cases h
    obtain ⟨text, htext, hline⟩ := bind_eq_ok.1 hline
    cases hline
    obtain ⟨members, hlines, hpairs, hmembers⟩ := ihms (fun y hy => ih y (List.mem_cons_of_mem m hy)) hrest
    refine ⟨⟨asciiText m.1, rejoin m.1, text, reread m.2⟩ :: members, ?_, ?_, ?_⟩
    · rw [List.map_cons, hlines]
      rfl
    · rw [List.map_cons, hpairs]
      rfl
    · intro p hp
      rcases List.mem_cons.mp hp with rfl | hp
      · exact ⟨⟨_, rfl, scanString_asciiText m.1⟩, ih m (List.mem_cons_self ..) text htext⟩
      · exact hmembers p hp

theorem dumpEntries_eq {es : List (MappingKey × PyValue)} (h : ∀ e ∈ es, (MappingKey.str? e.1).isSome) :
    dumpEntries es = (es.map fun e => (keyText e.1, e.2)).map fun m => (m.1, dumps m.2) := by
  induction es with
  | nil => rw [dumpEntries, List.map_nil, List.map_nil]
  | cons e es ih =>
    have hrest := ih fun f hf => h f (List.mem_cons_of_mem e hf)
    have hkey := h e (List.mem_cons_self ..)
    obtain ⟨key, value⟩ := e
    cases key with
    | str key =>
      rw [dumpEntries, hrest]
      rfl
    | other index => cases hkey

theorem dumps_mapping_eq_ok {es : List (MappingKey × PyValue)} {text : PyStr} (h : dumps (.mapping es) = .ok text) :
    (∀ e ∈ es, (MappingKey.str? e.1).isSome) ∧
      ∃ texts, ((sortedMembers es).map fun m => (m.1, dumps m.2)).mapM dumpMember = .ok texts ∧
        text = py "\x7b" ++ joinCommas texts ++ py "\x7d" := by
  rw [dumps] at h
  obtain ⟨hkeys, h⟩ := check_bind_eq_ok.1 h
  obtain ⟨texts, htexts, h⟩ := bind_eq_ok.1 h
  rw [refuseIf_eq_ok, not_not, List.all_eq_true] at hkeys
  cases h
  rw [dumpEntries_eq hkeys, map_insertionSort_member] at htexts
  exact ⟨hkeys, texts, htexts, rfl⟩

theorem loadsTo_dumps (v : PyValue) : ∀ text, dumps v = .ok text → LoadsTo text (reread v) := by
  induction v using PyValue.induct_on with
  | none =>
    intro text h
    rw [dumps] at h
    cases h
    rw [reread]
    · exact loadsTo_none
    all_goals simp
  | bool b =>
    intro text h
    cases b with
    | true =>
      rw [dumps] at h
      cases h
      rw [reread]
      · exact loadsTo_true
      all_goals simp
    | false =>
      rw [dumps] at h
      cases h
      rw [reread]
      · exact loadsTo_false
      all_goals simp
  | int n =>
    intro text h
    rw [dumps, dumpInteger] at h
    obtain ⟨hn, h⟩ := check_bind_eq_ok.1 h
    rw [refuseIf_eq_ok, not_le] at hn
    cases h
    rw [reread]
    · exact loadsTo_int hn
    all_goals simp
  | float x =>
    intro text h
    rw [dumps] at h
    cases h
    rw [reread]
    · exact loadsTo_float x
    all_goals simp
  | str s =>
    intro text h
    rw [dumps] at h
    cases h
    rw [reread]
    exact loadsTo_str s
  | list xs ih =>
    intro text h
    rw [dumps] at h
    obtain ⟨texts, htexts, h⟩ := bind_eq_ok.1 h
    cases h
    obtain ⟨ps, rfl, hsnd, hps⟩ := dumpItems_loads ih htexts
    rw [reread, ← hsnd]
    exact loadsTo_list hps
  | tuple xs ih =>
    intro text h
    rw [dumps] at h
    obtain ⟨texts, htexts, h⟩ := bind_eq_ok.1 h
    cases h
    obtain ⟨ps, rfl, hsnd, hps⟩ := dumpItems_loads ih htexts
    rw [reread, ← hsnd]
    exact loadsTo_list hps
  | mapping es ih =>
    intro text h
    obtain ⟨-, texts, htexts, rfl⟩ := dumps_mapping_eq_ok h
    have hmembers : ∀ m ∈ sortedMembers es, ∀ text, dumps m.2 = .ok text → LoadsTo text (reread m.2) := by
      intro m hm
      obtain ⟨e, he, rfl⟩ := mem_sortedMembers.1 hm
      exact ih e he
    obtain ⟨members, rfl, hpairs, hloads⟩ := dumpMembers_loads hmembers htexts
    rw [reread_mapping, ← hpairs]
    exact loadsTo_mapping hloads
  | other t =>
    intro text h
    rw [dumps] at h
    cases h

theorem loads_of_loadsTo {text : PyStr} {v : PyValue} (h : LoadsTo text v) : loads text = .ok v := by
  obtain ⟨c, t, rfl, hc⟩ := h.head
  have hskip : skipSpace (c :: t) = c :: t := skipSpace_cons hc.not_space t
  have hmark : ¬ [codePoint 0xFEFF] <+: c :: t := by
    apply not_prefix_cons
    rintro rfl
    exact absurd hc.2.1 (by decide)
  have hscan := h.scan ((c :: t).length + 1) [] (by omega) (.inl rfl)
  rw [List.append_nil] at hscan
  unfold loads
  rw [if_neg hmark, hskip, hscan]
  rfl

/-- **`json.loads` after `json.dumps`.** Whatever is written is read back as its normal form. -/
theorem loads_dumps {v : PyValue} {text : PyStr} (h : dumps v = .ok text) : loads text = .ok (reread v) :=
  loads_of_loadsTo (loadsTo_dumps v text h)

/-! ## What is written is printable ASCII -/

/-- Space to tilde. -/
def Printable (s : PyStr) : Prop := ∀ c ∈ s, 0x20 ≤ c.val ∧ c.val ≤ 0x7E

@[simp] theorem printable_nil : Printable [] := by simp [Printable]

@[simp] theorem printable_cons {c : CodePoint} {s : PyStr} :
    Printable (c :: s) ↔ (0x20 ≤ c.val ∧ c.val ≤ 0x7E) ∧ Printable s := by
  simp [Printable]

@[simp] theorem printable_append {s t : PyStr} : Printable (s ++ t) ↔ Printable s ∧ Printable t := by
  unfold Printable
  constructor
  · intro h
    exact ⟨fun c hc => h c (List.mem_append_left t hc), fun c hc => h c (List.mem_append_right s hc)⟩
  · rintro ⟨hs, ht⟩ c hc
    exact (List.mem_append.mp hc).elim (hs c) (ht c)

theorem printable_of_check {s : PyStr} (h : (s.all fun c => 0x20 ≤ c.val && c.val ≤ 0x7E) = true) : Printable s := by
  intro c hc
  have := List.all_eq_true.mp h c hc
  simpa using this

theorem printable_digits {s : PyStr} (h : Digits s) : Printable s := by
  intro c hc
  have := h c hc
  unfold IsDigit at this
  omega

theorem printable_unicodeEscape (n : ℕ) : Printable (unicodeEscape n) := by
  have hex : ∀ d, 0x20 ≤ (hexDigit (d % 16)).val ∧ (hexDigit (d % 16)).val ≤ 0x7E := by
    intro d
    rw [hexDigit_val (Nat.mod_lt _ (by omega))]
    split_ifs <;> omega
  unfold unicodeEscape
  simp only [printable_cons, hex, printable_nil, and_true]
  decide

theorem printable_asciiChar (c : CodePoint) : Printable (asciiChar c) := by
  unfold asciiChar
  split_ifs with h1 h2 h3 h4 h5 h6 h7 h8 h9
  iterate 7 exact printable_of_check (by decide)
  · simpa using h8
  · exact printable_unicodeEscape _
  · exact printable_append.2 ⟨printable_unicodeEscape _, printable_unicodeEscape _⟩

theorem printable_asciiText (s : PyStr) : Printable (asciiText s) := by
  unfold asciiText
  have hbody : Printable (s.flatMap asciiChar) := by
    intro d hd
    obtain ⟨c, -, hc⟩ := List.mem_flatMap.mp hd
    exact printable_asciiChar c d hc
  have hquote : 0x20 ≤ quote.val ∧ quote.val ≤ 0x7E := by decide
  simp [hbody, hquote]

theorem printable_intText (n : ℤ) : Printable (intText n) := by
  have hdigits := printable_digits (digits_natText n.natAbs)
  unfold intText
  split_ifs
  · exact printable_append.2 ⟨printable_of_check (by decide), hdigits⟩
  · exact hdigits

theorem printable_reprAbs (x : FiniteFloat) : Printable x.reprAbs := by
  have hd := digits_natText x.shortest.1
  have htake : ∀ n, Printable ((natText x.shortest.1).take n) := fun n => printable_digits (digits_take hd n)
  have hdrop : ∀ n, Printable ((natText x.shortest.1).drop n) := fun n => printable_digits (digits_drop hd n)
  have hzeros : ∀ n, Printable (List.replicate n (digitChar 0)) := fun n => printable_digits (digits_zeros n)
  have hnat : ∀ n, Printable (natText n) := fun n => printable_digits (digits_natText n)
  have hwords : Printable (py "0.0") ∧ Printable (py ".") ∧ Printable (py "e") ∧ Printable (py "-") ∧
      Printable (py "+") ∧ Printable (py "0") ∧ Printable (py "0.") ∧ Printable (py ".0") := by
    refine ⟨?_, ?_, ?_, ?_, ?_, ?_, ?_, ?_⟩ <;> exact printable_of_check (by decide)
  unfold FiniteFloat.reprAbs
  dsimp only
  split_ifs <;> simp [htake, hdrop, hzeros, hnat, hwords, -List.drop_one]

theorem printable_dumpFloat (x : Binary64) : Printable (dumpFloat x) := by
  cases x with
  | nan => exact printable_of_check (by decide)
  | infinite neg => cases neg <;> exact printable_of_check (by decide)
  | finite x =>
    rw [dumpFloat, printable_append]
    refine ⟨?_, printable_reprAbs x⟩
    split_ifs
    · exact printable_of_check (by decide)
    · exact printable_nil

theorem printable_joinCommas : ∀ {texts : List PyStr}, (∀ text ∈ texts, Printable text) → Printable (joinCommas texts)
  | [], _ => by simp [joinCommas]
  | [text], h => by
      rw [joinCommas_singleton]
      exact h text (List.mem_cons_self ..)
  | text :: next :: texts, h => by
      have ih := printable_joinCommas fun t ht => h t (List.mem_cons_of_mem text ht)
      have hcomma : 0x20 ≤ (codePoint 0x2C).val ∧ (codePoint 0x2C).val ≤ 0x7E := by decide
      rw [joinCommas_cons, printable_append, printable_cons]
      exact ⟨h text (List.mem_cons_self ..), hcomma, ih⟩

theorem printable_dumpItems {xs : List PyValue} {texts : List PyStr}
    (ih : ∀ x ∈ xs, ∀ text, dumps x = .ok text → Printable text) (h : dumpItems xs = .ok texts) :
    ∀ text ∈ texts, Printable text := by
  induction xs generalizing texts with
  | nil =>
    rw [dumpItems] at h
    cases h
    simp
  | cons x xs ihxs =>
    rw [dumpItems] at h
    obtain ⟨text, htext, h⟩ := bind_eq_ok.1 h
    obtain ⟨rest, hrest, h⟩ := bind_eq_ok.1 h
    cases h
    intro t ht
    rcases List.mem_cons.mp ht with rfl | ht
    · exact ih x (List.mem_cons_self ..) t htext
    · exact ihxs (fun y hy => ih y (List.mem_cons_of_mem x hy)) hrest t ht

theorem printable_dumpMembers {ms : List (PyStr × PyValue)} {texts : List PyStr}
    (ih : ∀ m ∈ ms, ∀ text, dumps m.2 = .ok text → Printable text)
    (h : (ms.map fun m => (m.1, dumps m.2)).mapM dumpMember = .ok texts) : ∀ text ∈ texts, Printable text := by
  induction ms generalizing texts with
  | nil =>
    cases h
    simp
  | cons m ms ihms =>
    rw [List.map_cons, List.mapM_cons] at h
    obtain ⟨line, hline, h⟩ := bind_eq_ok.1 h
    obtain ⟨rest, hrest, h⟩ := bind_eq_ok.1 h
    cases h
    obtain ⟨text, htext, hline⟩ := bind_eq_ok.1 hline
    cases hline
    intro t ht
    rcases List.mem_cons.mp ht with rfl | ht
    · rw [printable_append, printable_append]
      exact ⟨⟨printable_asciiText m.1, printable_of_check (by decide)⟩, ih m (List.mem_cons_self ..) text htext⟩
    · exact ihms (fun y hy => ih y (List.mem_cons_of_mem m hy)) hrest t ht

theorem printable_dumps (v : PyValue) : ∀ text, dumps v = .ok text → Printable text := by
  have hbrackets : Printable (py "[") ∧ Printable (py "]") ∧ Printable (py "\x7b") ∧ Printable (py "\x7d") := by
    refine ⟨?_, ?_, ?_, ?_⟩ <;> exact printable_of_check (by decide)
  obtain ⟨hopen, hclose, hbegin, hend⟩ := hbrackets
  induction v using PyValue.induct_on with
  | none =>
    intro text h
    rw [dumps] at h
    cases h
    exact printable_of_check (by decide)
  | bool b =>
    intro text h
    cases b <;> rw [dumps] at h <;> cases h <;> exact printable_of_check (by decide)
  | int n =>
    intro text h
    rw [dumps, dumpInteger] at h
    obtain ⟨-, h⟩ := check_bind_eq_ok.1 h
    cases h
    exact printable_intText n
  | float x =>
    intro text h
    rw [dumps] at h
    cases h
    exact printable_dumpFloat x
  | str s =>
    intro text h
    rw [dumps] at h
    cases h
    exact printable_asciiText s
  | list xs ih =>
    intro text h
    rw [dumps] at h
    obtain ⟨texts, htexts, h⟩ := bind_eq_ok.1 h
    cases h
    simp [hopen, hclose, printable_joinCommas (printable_dumpItems ih htexts)]
  | tuple xs ih =>
    intro text h
    rw [dumps] at h
    obtain ⟨texts, htexts, h⟩ := bind_eq_ok.1 h
    cases h
    simp [hopen, hclose, printable_joinCommas (printable_dumpItems ih htexts)]
  | mapping es ih =>
    intro text h
    obtain ⟨-, texts, htexts, rfl⟩ := dumps_mapping_eq_ok h
    have hmembers : ∀ m ∈ sortedMembers es, ∀ text, dumps m.2 = .ok text → Printable text := by
      intro m hm
      obtain ⟨e, he, rfl⟩ := mem_sortedMembers.1 hm
      exact ih e he
    simp [hbegin, hend, printable_joinCommas (printable_dumpMembers hmembers htexts)]
  | other t =>
    intro text h
    rw [dumps] at h
    cases h

end OcorRuntime.StandardJson

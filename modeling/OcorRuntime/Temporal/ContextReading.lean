import OcorRuntime.Foundations.Collect
import OcorRuntime.Scenario.CausalOutcome
import OcorRuntime.Temporal.ContextJson

/-! Contexts that are JSON values: no tuple, and only texts as keys. They are written like the values they are,
read back as their normal form, which equals them, and two of one text are equal. -/
namespace OcorRuntime.Temporal
open Events (JsonValue Unsplit PlainKeys rereadEntries reread_object rereadEntries_nodup find_rereadEntries
  length_rereadEntries sortedMembers_keys_nodup)
open StandardJson hiding dumps dumpItems dumpEntries dumpMember MemberLe
open Canonical
set_option autoImplicit false
set_option maxHeartbeats 250000
set_option maxRecDepth 120000

/-- The value is made of what JSON has. -/
def JsonNative (context : ContextValue) : Prop := ∃ v, JsonValue v ∧ context = ofJson v

/-! ## Members -/

/-- The key of a member. -/
def ofKey : MappingKey → ContextKey
  | .str s => .str s
  | .other _ => .other "object"

theorem ofJsonItems_eq (xs : List PyValue) : ofJsonItems xs = xs.map ofJson := by
  induction xs with
  | nil => rfl
  | cons x xs ih => rw [ofJsonItems, ih, List.map_cons]

theorem ofJsonEntries_eq (es : List (MappingKey × PyValue)) :
    ofJsonEntries es = es.map fun e => (ofKey e.1, ofJson e.2) := by
  induction es with
  | nil => rfl
  | cons e es ih =>
    obtain ⟨key, value⟩ := e
    cases key with
    | str k => rw [ofJsonEntries, ih, List.map_cons, ofKey]
    | other index => rw [ofJsonEntries, ih, List.map_cons, ofKey]

theorem dumpItems_eq (o : DumpOptions) (xs : List ContextValue) : dumpItems o xs = xs.mapM (dumps o) := by
  induction xs with
  | nil => rfl
  | cons x xs ih => rw [dumpItems, ih, List.mapM_cons]

theorem dumpEntries_eq (o : DumpOptions) (es : List (ContextKey × ContextValue)) :
    dumpEntries o es = es.map fun e => (e.1, dumps o e.2) := by
  induction es with
  | nil => rfl
  | cons e es ih => rw [dumpEntries, ih, List.map_cons]

/-! ## Writers of JSON values -/

/-- What `json.dumps(sort_keys=True)` does with JSON values, for a way `textOf` to write a text. -/
structure Writer (textOf : PyStr → PyStr) (write : PyValue → Except PyError PyStr) : Prop where
  none : write .none = .ok (py "null")
  bool : ∀ b, write (.bool b) = .ok (if b then py "true" else py "false")
  int : ∀ n, write (.int n) = dumpInteger n
  float : ∀ x, write (.float x) = .ok (dumpFloat x)
  str : ∀ s, write (.str s) = .ok (textOf s)
  list : ∀ xs, write (.list xs) = (do
    let texts ← xs.mapM write
    return py "[" ++ joinCommas texts ++ py "]")
  mapping : ∀ es, (∀ e ∈ es, (MappingKey.str? e.1).isSome) → write (.mapping es) = (do
    let texts ← (sortedMembers es).mapM fun m => do
      let text ← write m.2
      return textOf m.1 ++ py ":" ++ text
    return py "\x7b" ++ joinCommas texts ++ py "\x7d")

theorem UnicodeJson_dumpItems_eq (xs : List PyValue) : UnicodeJson.dumpItems xs = xs.mapM UnicodeJson.dumps := by
  induction xs with
  | nil => rfl
  | cons x xs ih => rw [UnicodeJson.dumpItems, ih, List.mapM_cons]

theorem unicodeWriter : Writer stringText UnicodeJson.dumps where
  none := rfl
  bool b := by cases b <;> rfl
  int _ := rfl
  float _ := rfl
  str _ := rfl
  list xs := by rw [UnicodeJson.dumps, UnicodeJson_dumpItems_eq]
  mapping es h := by
    rw [UnicodeJson.dumps_mapping h, List.mapM_map]
    rfl

theorem StandardJson_dumpItems_eq (xs : List PyValue) : StandardJson.dumpItems xs = xs.mapM StandardJson.dumps := by
  induction xs with
  | nil => rfl
  | cons x xs ih => rw [StandardJson.dumpItems, ih, List.mapM_cons]

theorem asciiWriter : Writer asciiText StandardJson.dumps where
  none := rfl
  bool b := by cases b <;> rfl
  int _ := rfl
  float _ := rfl
  str _ := rfl
  list xs := by rw [StandardJson.dumps, StandardJson_dumpItems_eq]
  mapping es h := by
    have hall : ¬ ¬ (es.all fun entry => (MappingKey.str? entry.1).isSome) = true := by
      rw [not_not, List.all_eq_true]
      exact h
    rw [StandardJson.dumps, refuseIf, if_neg hall, StandardJson.dumpEntries_eq h, map_insertionSort_member]
    change (((sortedMembers es).map fun m => (m.1, StandardJson.dumps m.2)).mapM StandardJson.dumpMember >>= _) = _
    rw [List.mapM_map]
    rfl

section Written
variable {textOf textOf' : PyStr → PyStr} {write write' : PyValue → Except PyError PyStr} {v : PyValue}

theorem Writer.transfer (w : Writer textOf write) (w' : Writer textOf' write') (hv : JsonValue v) :
    ∀ text, write v = .ok text → ∃ text', write' v = .ok text' := by
  induction hv with
  | none => exact fun _ _ => ⟨_, w'.none⟩
  | bool b => exact fun _ _ => ⟨_, w'.bool b⟩
  | int n =>
    intro text h
    exact ⟨text, by rw [w'.int, ← w.int, h]⟩
  | float x => exact fun _ _ => ⟨_, w'.float _⟩
  | str s => exact fun _ _ => ⟨_, w'.str s⟩
  | @list xs items ih =>
    intro text h
    rw [w.list] at h
    obtain ⟨texts, htexts, -⟩ := bind_eq_ok.1 h
    obtain ⟨texts', htexts'⟩ := mapM_transfer htexts ih
    exact ⟨_, by rw [w'.list, htexts']; rfl⟩
  | @mapping es keys nodup members ih =>
    intro text h
    have hkeys := Scenario.str?_isSome keys
    rw [w.mapping es hkeys] at h
    obtain ⟨texts, htexts, -⟩ := bind_eq_ok.1 h
    have hmembers : ∀ m ∈ sortedMembers es, ∀ line, (do
        let text ← write m.2
        return textOf m.1 ++ py ":" ++ text : Except PyError PyStr) = .ok line → ∃ line', (do
        let text ← write' m.2
        return textOf' m.1 ++ py ":" ++ text : Except PyError PyStr) = .ok line' := by
      intro m hm line hline
      obtain ⟨e, he, rfl⟩ := mem_sortedMembers.1 hm
      obtain ⟨t, ht, -⟩ := bind_eq_ok.1 hline
      obtain ⟨t', ht'⟩ := ih e he t ht
      exact ⟨_, by rw [ht']; rfl⟩
    obtain ⟨texts', htexts'⟩ := mapM_transfer htexts hmembers
    exact ⟨_, by rw [w'.mapping es hkeys, htexts']; rfl⟩

theorem dumps_ofJson {o : DumpOptions} (ho : o.sortKeys = true) (w : Writer o.textOf write) (hv : JsonValue v) :
    dumps o (ofJson v) = write v := by
  induction hv with
  | none => rw [ofJson, dumps, w.none]
  | bool b => cases b <;> rw [ofJson, dumps, w.bool] <;> rfl
  | int n => rw [ofJson, dumps, w.int]
  | float x => rw [ofJson, dumps, w.float]
  | str s => rw [ofJson, dumps, w.str]
  | @list xs items ih =>
    have hitems : (xs.map ofJson).mapM (dumps o) = xs.mapM write := by
      rw [List.mapM_map]
      exact mapM_congr fun x hx => ih x hx
    rw [ofJson, dumps, dumpItems_eq, ofJsonItems_eq, hitems, w.list]
  | @mapping es keys nodup members ih =>
    have hwritten : (dumpEntries o (ofJsonEntries es)) =
        (es.map fun e => (keyText e.1, write e.2)).map fun m => (ContextKey.str m.1, m.2) := by
      rw [dumpEntries_eq, ofJsonEntries_eq, List.map_map, List.map_map]
      apply List.map_congr_left
      intro e he
      obtain ⟨k, hk⟩ := keys e he
      simp only [Function.comp_apply, ih e he, hk, ofKey, keyText]
    have hcomparable : Comparable ((dumpEntries o (ofJsonEntries es)).map Prod.fst) := by
      rw [hwritten]
      refine .inr (.inl fun key hkey => ?_)
      simp only [List.map_map, List.mem_map] at hkey
      obtain ⟨e, -, rfl⟩ := hkey
      rfl
    have hsorted : (dumpEntries o (ofJsonEntries es)).insertionSort MemberLe =
        (sortedMembers es).map fun m => (ContextKey.str m.1, write m.2) := by
      have hmap := map_insertionSort_member write (es.map fun e => (keyText e.1, e.2))
      rw [List.map_map] at hmap
      rw [hwritten, sortedMembers,
        ← List.map_insertionSort StandardJson.MemberLe MemberLe (fun m : PyStr × Except PyError PyStr => (ContextKey.str m.1, m.2))
          _ fun _ _ _ _ => Iff.rfl]
      exact (congrArg _ hmap).trans (List.map_map ..)
    rw [ofJson, dumps, orderMembers, if_pos ho, refuseIf, if_neg (not_not_intro hcomparable), hsorted,
      w.mapping es (Scenario.str?_isSome keys)]
    change (((sortedMembers es).map fun m => (ContextKey.str m.1, write m.2)).mapM (dumpMember o) >>= _) = _
    rw [List.mapM_map]
    rfl

theorem dumps_unicode (hv : JsonValue v) : dumps ⟨false, true⟩ (ofJson v) = UnicodeJson.dumps v :=
  have w : Writer (DumpOptions.textOf ⟨false, true⟩) UnicodeJson.dumps := unicodeWriter
  dumps_ofJson rfl w hv

theorem dumps_ascii (hv : JsonValue v) : dumps ⟨true, true⟩ (ofJson v) = StandardJson.dumps v :=
  have w : Writer (DumpOptions.textOf ⟨true, true⟩) StandardJson.dumps := asciiWriter
  dumps_ofJson rfl w hv

end Written

/-! ## The normal form -/

theorem jsonValue_reread {v : PyValue} (hv : JsonValue v) (hu : Unsplit v) : JsonValue (reread v) := by
  induction hv with
  | none | bool b | int n | float x =>
    rw [reread]
    · constructor
    all_goals simp
  | str s =>
    rw [reread]
    exact .str _
  | @list xs items ih =>
    cases hu with
    | list hitems =>
      rw [reread]
      refine .list fun x hx => ?_
      obtain ⟨y, hy, rfl⟩ := List.mem_map.mp hx
      exact ih y hy (hitems y hy)
  | @mapping es keys nodup members ih =>
    cases hu with
    | mapping hplain hmembers =>
      have hentries := Scenario.rereadEntries_eq hplain nodup
      rw [reread_object]
      refine .mapping (fun e he => ?_) (rereadEntries_nodup es) fun e he => ?_
      · rw [hentries] at he
        obtain ⟨m, -, rfl⟩ := List.mem_map.mp he
        exact ⟨m.1, rfl⟩
      · rw [hentries] at he
        obtain ⟨m, hm, rfl⟩ := List.mem_map.mp he
        obtain ⟨d, hd, rfl⟩ := mem_sortedMembers.1 hm
        exact ih d hd (hmembers d hd)

theorem reread_reread {v : PyValue} (hv : JsonValue v) (hu : Unsplit v) : reread (reread v) = reread v := by
  induction hv with
  | none | bool b | int n | float x => simp [reread]
  | str s =>
    cases hu with
    | str h => rw [reread, (rejoin_eq_self_iff s).mpr h, reread, (rejoin_eq_self_iff s).mpr h]
  | @list xs items ih =>
    cases hu with
    | list hitems =>
      rw [reread, reread, List.map_map, PyValue.list.injEq]
      exact List.map_congr_left fun x hx => ih x hx (hitems x hx)
  | @mapping es keys nodup members ih =>
    cases hu with
    | mapping hplain hmembers =>
      have hagain : PlainKeys (rereadEntries es) := by
        intro e he
        rw [Scenario.rereadEntries_eq hplain nodup] at he
        obtain ⟨m, hm, rfl⟩ := List.mem_map.mp he
        obtain ⟨d, hd, rfl⟩ := mem_sortedMembers.1 hm
        obtain ⟨k, hk, hsplit⟩ := hplain d hd
        refine ⟨k, ?_, hsplit⟩
        rw [hk, keyText]
      rw [reread_object, reread_object, PyValue.mapping.injEq, Scenario.rereadEntries_eq hagain (rereadEntries_nodup es),
        Scenario.sortedMembers_rereadEntries hplain nodup, List.map_map, Scenario.rereadEntries_eq hplain nodup]
      apply List.map_congr_left
      intro m hm
      obtain ⟨e, he, rfl⟩ := mem_sortedMembers.1 hm
      simp only [Function.comp_apply, ih e he (hmembers e he)]

theorem forall₂_of_map_eq {α β : Type} {f : α → β} : ∀ {l m : List α}, l.map f = m.map f →
    List.Forall₂ (fun a b => f a = f b) l m
  | [], [], _ => .nil
  | [], _ :: _, h => nomatch h
  | _ :: _, [], h => nomatch h
  | _ :: _, _ :: _, h => .cons (List.cons.inj h).1 (forall₂_of_map_eq (List.cons.inj h).2)

theorem pyEq_of_reread_eq {v : PyValue} (hv : JsonValue v) (hu : Unsplit v) :
    ∀ w, JsonValue w → Unsplit w → reread v = reread w → PyValue.pyEq v w = true := by
  induction hv with
  | none =>
    intro w hw hw' h
    cases hw <;> simp [reread, dictOf] at h
    simp [PyValue.pyEq]
  | bool b =>
    intro w hw hw' h
    cases hw <;> simp [reread, dictOf] at h
    simp [PyValue.pyEq, PyValue.numberEq, PyValue.integer?, h]
  | int n =>
    intro w hw hw' h
    cases hw <;> simp [reread, dictOf] at h
    simp [PyValue.pyEq, PyValue.numberEq, PyValue.integer?, h]
  | float x =>
    intro w hw hw' h
    cases hw <;> simp [reread, dictOf] at h
    simp [PyValue.pyEq, PyValue.numberEq, PyValue.floatEq, h]
  | str s =>
    intro w hw hw' h
    cases hu with
    | str hs =>
      cases hw' with
      | str ht =>
        rw [reread, reread, (rejoin_eq_self_iff _).mpr hs, (rejoin_eq_self_iff _).mpr ht] at h
        cases h
        simp [PyValue.pyEq]
      | _ => simp [reread, dictOf] at h
  | @list xs items ih =>
    intro w hw hw' h
    cases hu with
    | list hxs =>
      cases hw with
      | @list ys itemsY =>
        cases hw' with
        | list hys =>
          rw [reread, reread, PyValue.list.injEq] at h
          rw [PyValue.pyEq]
          have hall : ∀ as bs : List PyValue, (∀ a ∈ as, a ∈ xs) → (∀ b ∈ bs, b ∈ ys) →
              List.Forall₂ (fun a b => reread a = reread b) as bs → PyValue.pyEqItems as bs = true := by
            intro as bs has hbs hforall
            induction hforall with
            | nil => rfl
            | @cons a b as bs hab _ ihrest =>
              have ha := has a List.mem_cons_self
              have hb := hbs b List.mem_cons_self
              rw [PyValue.pyEqItems, ih a ha (hxs a ha) b (itemsY b hb) (hys b hb) hab, Bool.true_and]
              exact ihrest (fun a' h' => has a' (List.mem_cons_of_mem a h')) fun b' h' => hbs b' (List.mem_cons_of_mem b h')
          exact hall xs ys (fun _ h => h) (fun _ h => h) (forall₂_of_map_eq h)
      | _ => simp [reread, dictOf] at h
  | @mapping es keys nodup members ih =>
    intro w hw hw' h
    cases hu with
    | mapping hplain hmembers =>
      cases hw with
      | @mapping fs keysF nodupF membersF =>
        cases hw' with
        | mapping hplainF hmembersF =>
          rw [reread_object, reread_object, PyValue.mapping.injEq] at h
          rw [PyValue.pyEq, Bool.and_eq_true, beq_iff_eq, PyValue.pyEqEntries_iff]
          refine ⟨?_, fun e he => ?_⟩
          · rw [← length_rereadEntries hplain nodup, h, length_rereadEntries hplainF nodupF]
          · obtain ⟨k, hk⟩ := keys e he
            obtain ⟨key, value⟩ := e
            cases hk
            have hfind := find_rereadEntries hplain nodup k
            rw [h, find_rereadEntries hplainF nodupF, (Dict.find_eq_some_iff nodup _ _).mpr he, Option.map_some,
              Option.map_eq_some_iff] at hfind
            obtain ⟨b, hb, hread⟩ := hfind
            have hbmem := Dict.mem_of_find hb
            exact ⟨b, hb, ih _ he (hmembers _ he) b (membersF _ hbmem) (hmembersF _ hbmem) hread.symm⟩
      | _ => simp [reread, dictOf] at h

/-! ## Equality of contexts -/

theorem find_ofJsonEntries {fs : List (MappingKey × PyValue)} (hkeys : ∀ f ∈ fs, ∃ k, f.1 = .str k) (k : PyStr) :
    ContextValue.find (ofJsonEntries fs) (.str k) = (Dict.find fs (.str k)).map ofJson := by
  induction fs with
  | nil => rfl
  | cons f fs ih =>
    obtain ⟨j, hj⟩ := hkeys f List.mem_cons_self
    obtain ⟨key, value⟩ := f
    cases hj
    have hrest := ih fun g hg => hkeys g (List.mem_cons_of_mem _ hg)
    rw [ofJsonEntries, ContextValue.find, Dict.find, hrest]
    simp only [ContextKey.eq, ContextKey.value, PyValue.pyEq, beq_iff_eq, MappingKey.str.injEq]
    split_ifs with hkj
    · rfl
    · rfl

theorem pyEq_ofJson {v : PyValue} (hv : JsonValue v) :
    ∀ w, JsonValue w → ContextValue.pyEq (ofJson v) (ofJson w) = PyValue.pyEq v w := by
  induction hv with
  | none | bool b | int n | float x | str s =>
    intro w hw
    cases hw <;> simp [ofJson, ContextValue.pyEq, PyValue.pyEq, ContextValue.number, PyValue.numberEq, PyValue.integer?]
  | @list xs items ih =>
    intro w hw
    cases hw with
    | @list ys itemsY =>
      rw [ofJson, ofJson, ContextValue.pyEq, PyValue.pyEq]
      have hall : ∀ as bs : List PyValue, (∀ a ∈ as, a ∈ xs) → (∀ b ∈ bs, JsonValue b) →
          ContextValue.pyEqItems (ofJsonItems as) (ofJsonItems bs) = PyValue.pyEqItems as bs := by
        intro as
        induction as with
        | nil =>
          intro bs _ _
          cases bs <;> rfl
        | cons a as ihas =>
          intro bs has hbs
          cases bs with
          | nil => rfl
          | cons b bs =>
            rw [ofJsonItems, ofJsonItems, ContextValue.pyEqItems, PyValue.pyEqItems,
              ih a (has a List.mem_cons_self) b (hbs b List.mem_cons_self),
              ihas bs (fun a' h' => has a' (List.mem_cons_of_mem a h')) fun b' h' => hbs b' (List.mem_cons_of_mem b h')]
      exact hall xs ys (fun _ h => h) itemsY
    | _ => simp [ofJson, ContextValue.pyEq, PyValue.pyEq, ContextValue.number, PyValue.numberEq, PyValue.integer?]
  | @mapping es keys nodup members ih =>
    intro w hw
    cases hw with
    | @mapping fs keysF nodupF membersF =>
      rw [ofJson, ofJson, ContextValue.pyEq, PyValue.pyEq]
      have hlength : ∀ gs : List (MappingKey × PyValue), (ofJsonEntries gs).length = gs.length := by
        intro gs
        rw [ofJsonEntries_eq, List.length_map]
      have hall : ∀ gs : List (MappingKey × PyValue), (∀ g ∈ gs, g ∈ es) →
          ContextValue.pyEqEntries (ofJsonEntries gs) (ofJsonEntries fs) = PyValue.pyEqEntries gs fs := by
        intro gs
        induction gs with
        | nil => intro _; rfl
        | cons g gs ihgs =>
          intro hgs
          have hg := hgs g List.mem_cons_self
          obtain ⟨k, hk⟩ := keys g hg
          obtain ⟨key, value⟩ := g
          cases hk
          rw [ofJsonEntries, ContextValue.pyEqEntries, PyValue.pyEqEntries, find_ofJsonEntries keysF,
            ihgs fun g' h' => hgs g' (List.mem_cons_of_mem _ h')]
          cases hfind : Dict.find fs (.str k) with
          | none => rfl
          | some b => simp only [Option.map_some, ih _ hg b (membersF _ (Dict.mem_of_find hfind))]
      rw [hlength, hlength, hall es fun _ h => h]
    | _ => simp [ofJson, ContextValue.pyEq, PyValue.pyEq, ContextValue.number, PyValue.numberEq, PyValue.integer?]

end OcorRuntime.Temporal

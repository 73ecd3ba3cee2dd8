import OcorRuntime.Canonical.UnicodeJson
import OcorRuntime.Events.Readability

/-! Causal outcomes and the bytes they are sealed as (`c7/runtime.py`, the encoding part of
`c7/adapters/seaweedfs.py`). `decode_sealedPayload`: the sealed bytes of an outcome whose lineage is a JSON
value decode to an outcome equal to it. -/
namespace OcorRuntime.Scenario
open Canonical Events StandardJson
set_option autoImplicit false
set_option maxHeartbeats 250000
set_option maxRecDepth 120000

/-! ## Outcomes -/

def isText : PyValue → Bool
  | .str _ => true
  | _ => false

def isTextKey : MappingKey → Bool
  | .str _ => true
  | .other _ => false

/-- `details: Mapping[str, str]`, `lineage: Mapping[str, Any]`. -/
structure CausalOutcome where
  status : PyStr
  reasonCode : Option PyStr
  method : Option PyStr
  effect : Option PyStr
  details : Dict MappingKey PyValue
  described : ∀ e ∈ details.entries, isTextKey e.1 ∧ isText e.2
  assumptions : List PyStr
  lineage : Dict MappingKey PyValue
  traced : ∀ e ∈ lineage.entries, isTextKey e.1
  reproducibilityDigest : PyStr

namespace CausalOutcome

/-- `==` of the dataclass. -/
def eq (a b : CausalOutcome) : Bool :=
  a.status == b.status && a.reasonCode == b.reasonCode && a.method == b.method && a.effect == b.effect &&
    PyValue.pyEq (.mapping a.details.entries) (.mapping b.details.entries) && a.assumptions == b.assumptions &&
    PyValue.pyEq (.mapping a.lineage.entries) (.mapping b.lineage.entries) &&
    a.reproducibilityDigest == b.reproducibilityDigest

end CausalOutcome

def sealedResultError (code message : String) : PyError := ⟨.sealedResultError code, message, []⟩

def optionalText : Option PyStr → PyValue
  | some s => .str s
  | none => .none

def bodyFields (o : CausalOutcome) : List (MappingKey × PyValue) :=
  [(.str (py "status"), .str o.status), (.str (py "reason_code"), optionalText o.reasonCode),
    (.str (py "method"), optionalText o.method), (.str (py "effect"), optionalText o.effect),
    (.str (py "details"), .mapping o.details.entries), (.str (py "assumptions"), .list (o.assumptions.map .str)),
    (.str (py "lineage"), .mapping o.lineage.entries)]

/-- `_body`. -/
def body (o : CausalOutcome) : PyValue := .mapping (bodyFields o)

/-- `_encode`. -/
def encode (value : PyValue) : Except PyError Bytes := do
  let text ← UnicodeJson.dumps value
  UnicodeJson.encodeUtf8 text

/-- `canonical_digest` of `c7/runtime.py`. -/
def canonicalDigest (value : PyValue) : Except PyError PyStr := do
  let encoded ← encode value
  return Sha256.hexdigest encoded

def sealedPayload (outcome : CausalOutcome) : Except PyError Bytes := do
  let payload ← encode (body outcome)
  let canonical ← canonicalDigest (body outcome)
  refuseIf (Sha256.hexdigest payload ≠ canonical ∨ Sha256.hexdigest payload ≠ outcome.reproducibilityDigest)
    (sealedResultError "OUTCOME_DIGEST_MISMATCH" "the reproducibility digest is not the digest of the outcome content")
  return payload

/-! ## Decoding -/

def tampered (message : String) : PyError := sealedResultError "SEALED_RESULT_TAMPERED" message

def typesError : PyError := tampered "the sealed content does not have the causal outcome types"

/-- `json.loads(payload.decode("utf-8"))`. -/
def parsePayload (payload : Bytes) : Except PyError PyValue :=
  match UnicodeJson.decodeUtf8 payload >>= loads with
  | .ok value => .ok value
  | .error _ => .error (tampered "the sealed content is not canonical JSON")

/-- `BODY_FIELDS`. -/
def bodyNames : List MappingKey :=
  ["status", "reason_code", "method", "effect", "details", "assumptions", "lineage"].map fun name => .str (py name)

def textOf : PyValue → Except PyError PyStr
  | .str s => .ok s
  | _ => .error typesError

def optionalTextOf : PyValue → Except PyError (Option PyStr)
  | .none => .ok none
  | .str s => .ok (some s)
  | _ => .error typesError

/-- `isinstance(value, dict)`; a parsed object has texts as keys, each once. -/
def objectOf : PyValue → Except PyError {d : Dict MappingKey PyValue // ∀ e ∈ d.entries, isTextKey e.1}
  | .mapping es =>
    if h : (es.map Prod.fst).Nodup ∧ ∀ e ∈ es, isTextKey e.1 then .ok ⟨⟨es, h.1⟩, h.2⟩ else .error typesError
  | _ => .error typesError

def textsOf : PyValue → Except PyError (List PyStr)
  | .list items => items.mapM textOf
  | _ => .error typesError

/-- `body[name]`. -/
def member (entries : List (MappingKey × PyValue)) (name : String) : Except PyError PyValue :=
  orRaise (Dict.find entries (.str (py name))) ⟨.keyError, "%r", [.text (py name)]⟩

/-- The members of the body, with their types checked. -/
def outcomeOf (entries : List (MappingKey × PyValue)) (reproducibilityDigest : PyStr) : Except PyError CausalOutcome := do
  let status ← member entries "status" >>= textOf
  let reasonCode ← member entries "reason_code" >>= optionalTextOf
  let method ← member entries "method" >>= optionalTextOf
  let effect ← member entries "effect" >>= optionalTextOf
  let details ← member entries "details" >>= objectOf
  let described ← require (∀ e ∈ details.val.entries, isText e.2) typesError
  let assumptions ← member entries "assumptions" >>= textsOf
  let lineage ← member entries "lineage" >>= objectOf
  return {
    status, reasonCode, method, effect
    details := details.val, described := fun e he => ⟨details.property e he, described.down e he⟩
    assumptions
    lineage := lineage.val, traced := lineage.property
    reproducibilityDigest }

/-- `_decode`. -/
def decode (payload : Bytes) (reproducibilityDigest : PyStr) : Except PyError CausalOutcome := do
  refuseIf (Sha256.hexdigest payload ≠ reproducibilityDigest) (tampered "the sealed content does not match its digest")
  let value ← parsePayload payload
  match value with
  | .mapping entries => do
    refuseIf (¬ ((∀ e ∈ entries, e.1 ∈ bodyNames) ∧ ∀ name ∈ bodyNames, name ∈ entries.map Prod.fst))
      (tampered "the sealed content is not a canonical causal outcome")
    let again ← encode value
    refuseIf (again ≠ payload) (tampered "the sealed content is not a canonical causal outcome")
    let canonical ← canonicalDigest value
    refuseIf (canonical ≠ reproducibilityDigest) (tampered "the sealed content does not match its digest")
    outcomeOf entries reproducibilityDigest
  | _ => .error (tampered "the sealed content is not a canonical causal outcome")

/-! ## JSON values, written again after they were read -/

theorem rereadEntries_eq {es : List (MappingKey × PyValue)} (hkeys : PlainKeys es) (hnd : (es.map Prod.fst).Nodup) :
    rereadEntries es = (sortedMembers es).map fun m => (.str m.1, reread m.2) := by
  have hplain : ((sortedMembers es).map fun m => (rejoin m.1, reread m.2)) =
      (sortedMembers es).map fun m => (m.1, reread m.2) := by
    apply List.map_congr_left
    intro m hm
    obtain ⟨e, he, rfl⟩ := mem_sortedMembers.1 hm
    obtain ⟨j, hj, hsplit⟩ := hkeys e he
    rw [hj, keyText, (rejoin_eq_self_iff j).mpr hsplit]
  have hnodup := (sortedMembers_keys_nodup hkeys hnd).map fun _ _ h => MappingKey.str.inj h
  rw [List.map_map] at hnodup
  rw [rereadEntries, hplain, Dict.foldl_put_of_nodup (fun m : PyStr × PyValue => MappingKey.str m.1) (fun m => m.2),
    List.nil_append, List.map_map]
  · rfl
  · rw [List.map_nil, List.nil_append, List.map_map]
    exact hnodup

theorem sortedMembers_rereadEntries {es : List (MappingKey × PyValue)} (hkeys : PlainKeys es)
    (hnd : (es.map Prod.fst).Nodup) :
    sortedMembers (rereadEntries es) = (sortedMembers es).map fun m => (m.1, reread m.2) := by
  have : Std.Total (MemberLe (α := PyValue)) := ⟨fun a b => le_total a.1 b.1⟩
  have : IsTrans (PyStr × PyValue) MemberLe := ⟨fun _ _ _ h1 h2 => le_trans (α := PyStr) h1 h2⟩
  rw [rereadEntries_eq hkeys hnd, sortedMembers, List.map_map]
  exact (map_insertionSort_member reread _).trans
    (congrArg _ (List.pairwise_insertionSort MemberLe _).insertionSort_eq)

theorem str?_isSome {es : List (MappingKey × PyValue)} (h : ∀ e ∈ es, ∃ k, e.1 = .str k) :
    ∀ e ∈ es, (Canonical.MappingKey.str? e.1).isSome := by
  intro e he
  obtain ⟨k, hk⟩ := h e he
  rw [hk]
  rfl

theorem dumps_reread {v : PyValue} (hv : JsonValue v) (hu : Unsplit v) :
    UnicodeJson.dumps (reread v) = UnicodeJson.dumps v := by
  induction hv with
  | none | bool b | int n | float x =>
    rw [reread]
    all_goals simp
  | str s =>
    cases hu with
    | str h => rw [reread, (rejoin_eq_self_iff s).mpr h]
  | @list xs items ih =>
    cases hu with
    | list hitems =>
      have hall : ∀ ys : List PyValue, (∀ y ∈ ys, y ∈ xs) →
          UnicodeJson.dumpItems (ys.map reread) = UnicodeJson.dumpItems ys := by
        intro ys
        induction ys with
        | nil => intro _; rfl
        | cons y ys ihys =>
          intro hys
          have hy := hys y List.mem_cons_self
          rw [List.map_cons, UnicodeJson.dumpItems, UnicodeJson.dumpItems, ih y hy (hitems y hy),
            ihys fun z hz => hys z (List.mem_cons_of_mem y hz)]
      rw [reread, UnicodeJson.dumps, UnicodeJson.dumps, hall xs fun _ h => h]
  | @mapping es keys nodup members ih =>
    cases hu with
    | mapping hplain hmembers =>
      have hread : ∀ e ∈ rereadEntries es, ∃ k, e.1 = .str k := by
        intro e he
        rw [rereadEntries_eq hplain nodup] at he
        obtain ⟨m, -, rfl⟩ := List.mem_map.mp he
        exact ⟨m.1, rfl⟩
      have hsame : (sortedMembers (rereadEntries es)).map (fun m => (m.1, UnicodeJson.dumps m.2)) =
          (sortedMembers es).map fun m => (m.1, UnicodeJson.dumps m.2) := by
        rw [sortedMembers_rereadEntries hplain nodup, List.map_map]
        apply List.map_congr_left
        intro m hm
        obtain ⟨e, he, rfl⟩ := mem_sortedMembers.1 hm
        simp only [Function.comp_apply, ih e he (hmembers e he)]
      rw [reread_object, UnicodeJson.dumps_mapping (str?_isSome hread), UnicodeJson.dumps_mapping (str?_isSome keys), hsame]

theorem dumpItems_mem {xs : List PyValue} {texts : List PyStr} (h : UnicodeJson.dumpItems xs = .ok texts) :
    ∀ x ∈ xs, ∃ t, UnicodeJson.dumps x = .ok t ∧ t ∈ texts := by
  induction xs generalizing texts with
  | nil => simp
  | cons y xs ih =>
    rw [UnicodeJson.dumpItems] at h
    obtain ⟨text, htext, h⟩ := bind_eq_ok.1 h
    obtain ⟨rest, hrest, h⟩ := bind_eq_ok.1 h
    cases h
    intro x hx
    rcases List.mem_cons.mp hx with rfl | hx
    · exact ⟨text, htext, List.mem_cons_self⟩
    · obtain ⟨t, ht, hmem⟩ := ih hrest x hx
      exact ⟨t, ht, List.mem_cons_of_mem text hmem⟩

theorem dumpMembers_mem {ms : List (PyStr × PyValue)} {texts : List PyStr}
    (h : (ms.map fun m => (m.1, UnicodeJson.dumps m.2)).mapM UnicodeJson.dumpMember = .ok texts) :
    ∀ m ∈ ms, ∃ t, UnicodeJson.dumps m.2 = .ok t ∧ stringText m.1 ++ py ":" ++ t ∈ texts := by
  induction ms generalizing texts with
  | nil => simp
  | cons n ms ih =>
    rw [List.map_cons, List.mapM_cons] at h
    obtain ⟨line, hline, h⟩ := bind_eq_ok.1 h
    obtain ⟨rest, hrest, h⟩ := bind_eq_ok.1 h
    cases h
    obtain ⟨text, htext, hline⟩ := bind_eq_ok.1 hline
    cases hline
    intro m hm
    rcases List.mem_cons.mp hm with rfl | hm
    · exact ⟨text, htext, List.mem_cons_self⟩
    · obtain ⟨t, ht, hmem⟩ := ih hrest m hm
      exact ⟨t, ht, List.mem_cons_of_mem _ hmem⟩

theorem unsplit_of_dumps {v : PyValue} (hv : JsonValue v) :
    ∀ text, UnicodeJson.dumps v = .ok text → Scalar text → Unsplit v := by
  induction hv with
  | none => exact fun _ _ _ => .none
  | bool b => exact fun _ _ _ => .bool b
  | int n => exact fun _ _ _ => .int n
  | float x => exact fun _ _ _ => .float _
  | str s =>
    intro text h hs
    rw [UnicodeJson.dumps] at h
    cases h
    exact .str (noSplitPair_of_scalar (UnicodeJson.scalar_of_stringText hs))
  | @list xs items ih =>
    intro text h hs
    rw [UnicodeJson.dumps] at h
    obtain ⟨texts, htexts, h⟩ := bind_eq_ok.1 h
    cases h
    have hjoin := (UnicodeJson.scalar_append.1 (UnicodeJson.scalar_append.1 hs).1).2
    refine .list fun x hx => ?_
    obtain ⟨t, ht, hmem⟩ := dumpItems_mem htexts x hx
    exact ih x hx t ht (UnicodeJson.scalar_of_mem_join hjoin t hmem)
  | @mapping es keys nodup members ih =>
    intro text h hs
    obtain ⟨-, texts, htexts, rfl⟩ := UnicodeJson.dumps_mapping_eq_ok h
    have hjoin := (UnicodeJson.scalar_append.1 (UnicodeJson.scalar_append.1 hs).1).2
    have hline : ∀ e ∈ es, ∃ t, UnicodeJson.dumps e.2 = .ok t ∧ stringText (keyText e.1) ++ py ":" ++ t ∈ texts := by
      intro e he
      exact dumpMembers_mem htexts _ (mem_sortedMembers.2 ⟨e, he, rfl⟩)
    refine .mapping (fun e he => ?_) fun e he => ?_
    · obtain ⟨k, hk⟩ := keys e he
      obtain ⟨t, -, hmem⟩ := hline e he
      have hname := (UnicodeJson.scalar_append.1 (UnicodeJson.scalar_of_mem_join hjoin _ hmem)).1
      have hkey := UnicodeJson.scalar_of_stringText (UnicodeJson.scalar_append.1 hname).1
      rw [hk] at hkey
      exact ⟨k, hk, noSplitPair_of_scalar hkey⟩
    · obtain ⟨t, ht, hmem⟩ := hline e he
      exact ih e he t ht (UnicodeJson.scalar_append.1 (UnicodeJson.scalar_of_mem_join hjoin _ hmem)).2

/-! ## Sealed bytes decode to the outcome -/

theorem encode_eq_ok {value : PyValue} {payload : Bytes} :
    encode value = .ok payload ↔
      ∃ text, UnicodeJson.dumps value = .ok text ∧ Scalar text ∧ utf8Encode text = payload := by
  rw [encode, bind_eq_ok]
  simp only [UnicodeJson.encodeUtf8_eq_ok]

theorem sealedPayload_eq_ok {o : CausalOutcome} {payload : Bytes} (h : sealedPayload o = .ok payload) :
    encode (body o) = .ok payload ∧ Sha256.hexdigest payload = o.reproducibilityDigest := by
  rw [sealedPayload] at h
  obtain ⟨raw, hraw, h⟩ := bind_eq_ok.1 h
  obtain ⟨canonical, -, h⟩ := bind_eq_ok.1 h
  obtain ⟨hdigest, h⟩ := check_bind_eq_ok.1 h
  rw [refuseIf_eq_ok, not_or, not_not, not_not] at hdigest
  cases h
  exact ⟨hraw, hdigest.2⟩

theorem sealedPayload_of_encode {o : CausalOutcome} {payload : Bytes} (hencode : encode (body o) = .ok payload)
    (hdigest : Sha256.hexdigest payload = o.reproducibilityDigest) : sealedPayload o = .ok payload := by
  simp only [sealedPayload, canonicalDigest, hencode, refuseIf, hdigest, bind, Except.bind, pure, Except.pure, ne_eq,
    not_true_eq_false, or_self, if_false]

theorem textKeys_of {es : List (MappingKey × PyValue)} (h : ∀ e ∈ es, isTextKey e.1) : ∀ e ∈ es, ∃ k, e.1 = .str k := by
  intro e he
  have hkey := h e he
  cases hk : e.1 with
  | str k => exact ⟨k, rfl⟩
  | other n =>
    rw [hk] at hkey
    cases hkey

theorem jsonValue_details (o : CausalOutcome) : JsonValue (.mapping o.details.entries) := by
  refine .mapping (textKeys_of fun e he => (o.described e he).1) o.details.nodup fun e he => ?_
  have htext := (o.described e he).2
  cases hv : e.2 with
  | str s => exact .str s
  | _ =>
    rw [hv] at htext
    cases htext

theorem jsonValue_optionalText (s : Option PyStr) : JsonValue (optionalText s) := by
  cases s with
  | none => exact .none
  | some s => exact .str s

theorem bodyFields_keys (o : CausalOutcome) : (bodyFields o).map Prod.fst = bodyNames := rfl

theorem bodyFields_nodup (o : CausalOutcome) : ((bodyFields o).map Prod.fst).Nodup := by
  rw [bodyFields_keys]
  decide

theorem bodyFields_textKeys (o : CausalOutcome) : ∀ e ∈ bodyFields o, ∃ k, e.1 = .str k := by
  refine textKeys_of fun e he => ?_
  have hkey : e.1 ∈ bodyNames := by
    rw [← bodyFields_keys o]
    exact List.mem_map_of_mem he
  have hall : ∀ k ∈ bodyNames, isTextKey k = true := by decide
  exact hall e.1 hkey

theorem jsonValue_body {o : CausalOutcome} (h : JsonValue (.mapping o.lineage.entries)) : JsonValue (body o) := by
  refine .mapping (bodyFields_textKeys o) (bodyFields_nodup o) fun e he => ?_
  simp only [bodyFields, List.mem_cons, List.not_mem_nil, or_false] at he
  rcases he with rfl | rfl | rfl | rfl | rfl | rfl | rfl
  · exact .str _
  · exact jsonValue_optionalText _
  · exact jsonValue_optionalText _
  · exact jsonValue_optionalText _
  · exact jsonValue_details o
  · refine .list fun x hx => ?_
    obtain ⟨s, -, rfl⟩ := List.mem_map.mp hx
    exact .str s
  · exact h

theorem reread_text {s : PyStr} (h : Unsplit (.str s)) : reread (.str s) = .str s := by
  cases h with
  | str h => rw [reread, (rejoin_eq_self_iff s).mpr h]

theorem reread_optionalText {s : Option PyStr} (h : Unsplit (optionalText s)) :
    reread (optionalText s) = optionalText s := by
  cases s with
  | none =>
    rw [optionalText, reread]
    all_goals simp
  | some s => exact reread_text h

theorem reread_texts {ts : List PyStr} (h : Unsplit (.list (ts.map .str))) :
    reread (.list (ts.map .str)) = .list (ts.map .str) := by
  cases h with
  | list hitems =>
    rw [reread, List.map_map]
    congr 1
    apply List.map_congr_left
    intro t ht
    exact reread_text (hitems _ (List.mem_map_of_mem ht))

theorem textsOf_texts (ts : List PyStr) : textsOf (.list (ts.map .str)) = .ok ts := by
  have h : (ts.map PyValue.str).mapM textOf = .ok ts := by
    induction ts with
    | nil => rfl
    | cons t ts ih =>
      rw [List.map_cons, List.mapM_cons, ih]
      rfl
  exact h

theorem optionalTextOf_optionalText (s : Option PyStr) : optionalTextOf (optionalText s) = .ok s := by
  cases s <;> rfl

theorem objectOf_reread {es : List (MappingKey × PyValue)} (hplain : PlainKeys es) (hnd : (es.map Prod.fst).Nodup) :
    ∃ d, objectOf (reread (.mapping es)) = .ok d ∧ d.val.entries = rereadEntries es := by
  have hkeys : ∀ e ∈ rereadEntries es, isTextKey e.1 := by
    intro e he
    rw [rereadEntries_eq hplain hnd] at he
    obtain ⟨m, -, rfl⟩ := List.mem_map.mp he
    rfl
  rw [reread_object, objectOf, dif_pos ⟨rereadEntries_nodup es, hkeys⟩]
  exact ⟨_, rfl, rfl⟩

theorem isText_rereadEntries {es : List (MappingKey × PyValue)} (hplain : PlainKeys es)
    (hnd : (es.map Prod.fst).Nodup) (h : ∀ e ∈ es, isText e.2) : ∀ e ∈ rereadEntries es, isText e.2 := by
  intro e he
  rw [rereadEntries_eq hplain hnd] at he
  obtain ⟨m, hm, rfl⟩ := List.mem_map.mp he
  obtain ⟨f, hf, rfl⟩ := mem_sortedMembers.1 hm
  have htext := h f hf
  cases hv : f.2 with
  | str s => simp [reread, isText]
  | _ =>
    rw [hv] at htext
    cases htext

theorem outcomeOf_reread {o : CausalOutcome} (hjson : JsonValue (.mapping o.lineage.entries)) (hu : Unsplit (body o)) :
    ∃ o', outcomeOf (rereadEntries (bodyFields o)) o.reproducibilityDigest = .ok o' ∧ o.eq o' = true := by
  cases hu with
  | mapping hplain hmembers =>
  have hmember : ∀ name v, Dict.find (bodyFields o) (.str (py name)) = some v →
      member (rereadEntries (bodyFields o)) name = .ok (reread v) := by
    intro name v hfind
    rw [member, find_rereadEntries hplain (bodyFields_nodup o), hfind]
    rfl
  have hunsplit : ∀ name v, Dict.find (bodyFields o) (.str (py name)) = some v → Unsplit v := by
    intro name v hfind
    exact hmembers _ (Dict.mem_of_find hfind)
  have hdetails : Unsplit (.mapping o.details.entries) := hunsplit "details" _ (by rfl)
  have hlineage : Unsplit (.mapping o.lineage.entries) := hunsplit "lineage" _ (by rfl)
  have hequal := (pyEq_reread (jsonValue_details o)).mpr hdetails
  have hequal' := (pyEq_reread hjson).mpr hlineage
  rw [reread_object] at hequal hequal'
  cases hdetails with
  | mapping hplainD _ =>
  cases hlineage with
  | mapping hplainL _ =>
  obtain ⟨details, hd, hdentries⟩ := objectOf_reread hplainD o.details.nodup
  obtain ⟨lineage, hl, hlentries⟩ := objectOf_reread hplainL o.lineage.nodup
  have htexts : ∀ e ∈ details.val.entries, isText e.2 := by
    rw [hdentries]
    exact isText_rereadEntries hplainD o.details.nodup fun e he => (o.described e he).2
  unfold outcomeOf
  rw [hmember "status" _ rfl, hmember "reason_code" _ rfl, hmember "method" _ rfl, hmember "effect" _ rfl,
    hmember "details" _ rfl, hmember "assumptions" _ rfl, hmember "lineage" _ rfl,
    reread_text (hunsplit "status" _ rfl), reread_optionalText (hunsplit "reason_code" _ rfl),
    reread_optionalText (hunsplit "method" _ rfl), reread_optionalText (hunsplit "effect" _ rfl),
    reread_texts (hunsplit "assumptions" _ rfl)]
  simp only [bind, Except.bind, textOf, optionalTextOf_optionalText, textsOf_texts, hd, hl, require, dif_pos htexts]
  refine ⟨_, rfl, ?_⟩
  simp only [CausalOutcome.eq, beq_self_eq_true, Bool.and_eq_true, Bool.true_and, and_true]
  rw [hdentries, hlentries]
  exact ⟨hequal, hequal'⟩

/-- **The sealed bytes of an outcome decode to an outcome equal to it.** -/
theorem decode_sealedPayload {o : CausalOutcome} {payload : Bytes} (h : sealedPayload o = .ok payload)
    (hjson : JsonValue (.mapping o.lineage.entries)) :
    ∃ o', decode payload o.reproducibilityDigest = .ok o' ∧ o.eq o' = true := by
  obtain ⟨hencode, hdigest⟩ := sealedPayload_eq_ok h
  obtain ⟨text, hdumps, hscalar, hpayload⟩ := encode_eq_ok.1 hencode
  have hbody := jsonValue_body hjson
  have hu := unsplit_of_dumps hbody text hdumps hscalar
  have hread : reread (body o) = .mapping (rereadEntries (bodyFields o)) := reread_object _
  have hparse : parsePayload payload = .ok (.mapping (rereadEntries (bodyFields o))) := by
    rw [parsePayload, ← hpayload, UnicodeJson.decodeUtf8_encode hscalar]
    simp only [bind, Except.bind, UnicodeJson.loads_dumps hdumps hscalar, hread]
  have hagain : encode (.mapping (rereadEntries (bodyFields o))) = .ok payload := by
    rw [← hread, encode, dumps_reread hbody hu]
    exact hencode
  have hnames : (∀ e ∈ rereadEntries (bodyFields o), e.1 ∈ bodyNames) ∧
      ∀ name ∈ bodyNames, name ∈ (rereadEntries (bodyFields o)).map Prod.fst := by
    cases hu with
    | mapping hplain _ =>
    have hkeys : ∀ k, k ∈ (rereadEntries (bodyFields o)).map Prod.fst ↔ k ∈ bodyNames := by
      intro k
      rw [rereadEntries_eq hplain (bodyFields_nodup o), List.map_map, ← bodyFields_keys o]
      simp only [List.mem_map, Function.comp_apply]
      constructor
      · rintro ⟨m, hm, rfl⟩
        obtain ⟨e, he, rfl⟩ := mem_sortedMembers.1 hm
        obtain ⟨j, hj, -⟩ := hplain e he
        exact ⟨e, he, by rw [hj, keyText]⟩
      · rintro ⟨e, he, rfl⟩
        obtain ⟨j, hj, -⟩ := hplain e he
        exact ⟨_, mem_sortedMembers.2 ⟨e, he, rfl⟩, by rw [hj, keyText]⟩
    exact ⟨fun e he => (hkeys e.1).mp (List.mem_map_of_mem he), fun name hname => (hkeys name).mpr hname⟩
  obtain ⟨o', ho', heq⟩ := outcomeOf_reread hjson hu
  refine ⟨o', ?_, heq⟩
  rw [decode, refuseIf, if_neg (not_not.mpr hdigest), hparse]
  simp only [bind, Except.bind, refuseIf, if_neg (not_not.mpr hnames), not_true_eq_false, if_false, hagain,
    canonicalDigest, pure, Except.pure, hdigest, ne_eq, ho']

end OcorRuntime.Scenario

import OcorRuntime.Memory.ContextRendering
import OcorRuntime.Memory.EligibilityLaws
import OcorRuntime.Memory.JournalLaws
import OcorRuntime.Memory.Ranking

/-! A context is exactly its header and the longest prefix of its permitted blocks that fits, a line each. A line
is made of the version it belongs to, its text with the decided spans replaced, and its position: no text
reaches into the line of another block. -/
namespace OcorRuntime.Memory
open Canonical Kernel
set_option autoImplicit false
set_option maxHeartbeats 250000

/-! ## Lines -/

theorem newline_notMem_canonicalize {v : PyValue} {line : Bytes} (h : canonicalize v = .ok line) : newline ∉ line := by
  obtain ⟨text, htext, rfl⟩ := canonicalize_eq_ok.1 h
  intro hmem
  obtain ⟨c, hc, hbyte⟩ := List.mem_flatMap.mp hmem
  have hlow := utf8Char_printable (serialize_printable v text htext c hc) newline hbyte
  revert hlow
  decide

/-- The data of a block: the text with exactly the spans of the redactions replaced, each by its marker. -/
def Redacts (profile : ContextRenderingProfile) (text : PyStr) (redactions : List Redaction) (data : PyStr) : Prop :=
  ∃ markers : List PyStr,
    List.Forall₂ (fun r marker => formatMarker r.reasonCode 0 profile.redactionMarker = .ok marker) redactions markers ∧
      weave (gaps text 0 (redactions.map Redaction.span)) (covered text (redactions.map Redaction.span)) = text ∧
      data = weave (gaps text 0 (redactions.map Redaction.span)) markers

theorem renderParts_eq_ok {profile : ContextRenderingProfile} {entry : Selected} {text : PyStr} {cursor : ℕ}
    {redactions : List Redaction} {parts refs : List PyStr}
    (h : renderParts profile entry text cursor redactions = .ok (parts, refs)) :
    ∃ markers : List PyStr,
      List.Forall₂ (fun r marker => formatMarker r.reasonCode 0 profile.redactionMarker = .ok marker) redactions markers ∧
        parts.flatten = weave (gaps text cursor (redactions.map Redaction.span)) markers := by
  induction redactions generalizing cursor parts refs with
  | nil =>
    cases h
    exact ⟨[], .nil, by simp [gaps, weave]⟩
  | cons r rest ih =>
    obtain ⟨marker, hmarker, h⟩ := bind_eq_ok.1 h
    obtain ⟨profileDigest, -, h⟩ := bind_eq_ok.1 h
    obtain ⟨digest, -, h⟩ := bind_eq_ok.1 h
    obtain ⟨⟨others, otherRefs⟩, hothers, h⟩ := bind_eq_ok.1 h
    cases h
    obtain ⟨markers, hmarkers, hflatten⟩ := ih hothers
    refine ⟨marker :: markers, .cons hmarker hmarkers, ?_⟩
    rw [List.flatten_cons, List.flatten_cons, hflatten, List.map_cons, gaps, weave, List.append_assoc]

/-- The line of a version at a position of the context. -/
def BlockLine (profile : ContextRenderingProfile) (position : ℕ) (visit : Visit) (line : Bytes) : Prop :=
  ∃ data, Redacts profile visit.text visit.decision.redactions data ∧
    canonicalize (blockMapping position visit.item visit.entry data) = .ok line

theorem render_eq_ok {visit : Visit} {profile : ContextRenderingProfile} {position : ℕ} {block : EntryMap × Bytes}
    (h : render position visit.item visit.entry visit.text visit.decision.redactions profile = .ok block) :
    ∃ line, block.2 = line ++ [newline] ∧ BlockLine profile position visit line := by
  obtain ⟨⟨parts, refs⟩, hparts, h⟩ := bind_eq_ok.1 h
  obtain ⟨line, hline, h⟩ := bind_eq_ok.1 h
  cases h
  obtain ⟨markers, hmarkers, hdata⟩ := renderParts_eq_ok hparts
  have hcovered := weave_covered visit.decision.apart
  rw [List.drop_zero] at hcovered
  exact ⟨line, rfl, parts.flatten, ⟨markers, hmarkers, hcovered, hdata⟩, hline⟩

/-! ## Blocks that fit -/

section Filling
variable (budget : ℕ) (blocks : List (EntryMap × Bytes)) {f : Filling}

theorem put_truncated (h : f.truncated ≠ []) :
    (blocks.foldl (Filling.put budget) f).context = f.context ∧ (blocks.foldl (Filling.put budget) f).included = f.included := by
  induction blocks generalizing f with
  | nil => exact ⟨rfl, rfl⟩
  | cons block rest ih =>
    have hput : Filling.put budget f block = { f with
        truncated := f.truncated ++ [block.1.entry.ref]
        blocks := f.blocks ++ [fields (block.1.toMembers ++ [("included", some (.bool (decide
          (f.truncated = [] ∧ f.context.length + block.2.length ≤ budget))))])] } :=
      if_neg fun hfits => h hfits.1
    rw [List.foldl_cons, hput]
    exact ih (by simp)

theorem put_fitting (h : f.truncated = []) :
    (blocks.foldl (Filling.put budget) f).context = f.context ++
        (blocks.take (fitting (fun block => block.2.length) budget f.context.length blocks)).flatMap Prod.snd ∧
      (blocks.foldl (Filling.put budget) f).included = f.included ++
        (blocks.take (fitting (fun block => block.2.length) budget f.context.length blocks)).map Prod.fst := by
  induction blocks generalizing f with
  | nil => simp
  | cons block rest ih =>
    rw [List.foldl_cons, fitting]
    by_cases hfits : f.context.length + block.2.length ≤ budget
    · have hput : Filling.put budget f block = { f with
          context := f.context ++ block.2
          included := f.included ++ [block.1]
          blocks := f.blocks ++ [fields (block.1.toMembers ++ [("included", some (.bool (decide
            (f.truncated = [] ∧ f.context.length + block.2.length ≤ budget))))])] } := if_pos ⟨h, hfits⟩
      obtain ⟨hcontext, hincluded⟩ := ih (f := Filling.put budget f block) (by rw [hput]; exact h)
      rw [hcontext, hincluded, if_pos hfits, hput]
      simp [List.take_succ_cons, List.length_append]
    · have hput : Filling.put budget f block = { f with
          truncated := f.truncated ++ [block.1.entry.ref]
          blocks := f.blocks ++ [fields (block.1.toMembers ++ [("included", some (.bool (decide
            (f.truncated = [] ∧ f.context.length + block.2.length ≤ budget))))])] } := if_neg fun hall => hfits hall.2
      obtain ⟨hcontext, hincluded⟩ := put_truncated budget rest (f := Filling.put budget f block) (by rw [hput]; simp)
      rw [hcontext, hincluded, if_neg hfits, hput]
      simp

end Filling

/-! ## Decisions -/

/-- A checked span as the policy gave it. -/
def Redaction.given (r : Redaction) : RedactionSpan := ⟨.int r.span.start, .int r.span.stop, .str r.reasonCode⟩

theorem offset_eq_ok {value : PyValue} {n : ℤ} (h : offset value = .ok n) : value = .int n := by
  unfold offset at h
  split at h
  · cases h
    rfl
  · cases h

theorem require_eq_ok {ε : Type} {p : Prop} [Decidable p] {e : ε} {x : PLift p} (_ : require p e = .ok x) : p := x.down

theorem validate_eq_ok {span : RedactionSpan} {length : ℕ}
    {r : {r : Redaction // r.span.start < r.span.stop ∧ r.span.stop ≤ length ∧ IsReasonCode r.reasonCode}}
    (h : span.validate length = .ok r) : span = r.1.given := by
  unfold RedactionSpan.validate at h
  obtain ⟨start, hstart, h⟩ := bind_eq_ok.1 h
  obtain ⟨stop, hstop, h⟩ := bind_eq_ok.1 h
  obtain ⟨⟨hspan⟩, -, h⟩ := bind_eq_ok.1 h
  dsimp only at h
  split at h
  · next reason hreason =>
    obtain ⟨⟨hclosed⟩, -, h⟩ := bind_eq_ok.1 h
    cases h
    obtain ⟨first, last, code⟩ := span
    dsimp only at hstart hstop hreason
    rw [offset_eq_ok hstart, offset_eq_ok hstop, hreason]
    simp only [Redaction.given, RedactionSpan.mk.injEq, PyValue.int.injEq, and_true]
    constructor <;> omega
  · cases h

theorem checkSpans_eq_ok {length previousEnd : ℕ} {spans : List RedactionSpan}
    {l : {l : List Redaction // Apart length previousEnd (l.map Redaction.span)}}
    (h : checkSpans length previousEnd spans = .ok l) : spans = l.1.map Redaction.given := by
  induction spans generalizing previousEnd with
  | nil =>
    cases h
    rfl
  | cons span rest ih =>
    rw [checkSpans] at h
    split at h
    · cases h
    · next r hr =>
      obtain ⟨⟨hafter⟩, -, h⟩ := bind_eq_ok.1 h
      obtain ⟨others, hothers, h⟩ := bind_eq_ok.1 h
      cases h
      rw [List.map_cons, ← validate_eq_ok hr, ← ih hothers]

/-- A decision as the policy gave it. -/
def ContextPolicyDecision.given {length : ℕ} (d : ContextPolicyDecision length) (context : GovernedContext) :
    ContextPolicyAnswer :=
  ⟨.bool d.permitted, .str d.decisionRef, .str context.policyBundleDigest, some (d.redactions.map Redaction.given)⟩

theorem checkDecision_eq_ok {answer : Option ContextPolicyAnswer} {length : ℕ} {context : GovernedContext}
    {d : ContextPolicyDecision length} (h : checkDecision answer length context = .ok d) :
    answer = some (d.given context) := by
  unfold checkDecision at h
  split at h
  · next permitted c decisionRef policyBundleDigest redactions =>
    obtain ⟨hbundle, h⟩ := check_bind_eq_ok.1 h
    rw [refuseIf_eq_ok, not_not] at hbundle
    obtain ⟨spans, hspans, h⟩ := bind_eq_ok.1 h
    cases h
    rw [ContextPolicyDecision.given, ← checkSpans_eq_ok hspans, hbundle]
  · cases h

/-! ## Runs -/

section Runs
variable {σ : Type} {ports : ContextPorts σ} {plan : ContextPlan} {parsed : ContextRequest} {s s' : σ}

theorem settled_eq_ok {α : Type} {x : Except PyError α} {a : α} (h : settled x s = (.ok a, s')) : x = .ok a := by
  obtain ⟨hx, -⟩ := Op.lift_eq_ok.1 h
  cases x with
  | ok b =>
    cases hx
    rfl
  | error e => cases hx

theorem compareTexts_eq_ok {a b : PyStr} (h : compareTexts a b = .ok true) : a = b := by
  unfold compareTexts at h
  split_ifs at h
  exact of_decide_eq_true (Except.ok.inj h)

/-- What the turn of a version left: its content, read and bound to its digests, and the decision of the policy. -/
structure Visited (ports : ContextPorts σ) (plan : ContextPlan) (parsed : ContextRequest) (visit : Visit) : Prop where
  decoded : decodeStrict visit.payload = some visit.text
  bound : sha256Urn visit.payload = visit.entry.contentDigest
  identified : digestOf visit.item.toMapping = .ok visit.entry.itemDigest
  decided : ∃ s s', ports.authorizeContext visit.item visit.text plan.search.context parsed.targetModelRef s =
    (.ok (some (visit.decision.given plan.search.context)), s')

theorem readEntry_eq_ok {entry : Selected} {candidate : SearchCandidate} {materialized : MaterializedVersion} {text : PyStr}
    (h : readEntry ports plan entry s = (.ok (candidate, materialized, text), s')) :
    decodeStrict materialized.payload = some text ∧ sha256Urn materialized.payload = entry.contentDigest ∧
      digestOf materialized.item.toMapping = .ok entry.itemDigest := by
  unfold readEntry at h
  obtain ⟨found, s₁, -, h⟩ := Op.bind_eq_ok.1 h
  obtain ⟨version, s₂, -, h⟩ := Op.bind_eq_ok.1 h
  obtain ⟨itemDigest, s₃, hdigest, h⟩ := Op.bind_eq_ok.1 h
  obtain ⟨sameItem, s₄, hitem, h⟩ := Op.bind_eq_ok.1 h
  obtain ⟨u, s₅, hrefused, h⟩ := Op.bind_eq_ok.1 h
  obtain ⟨sameContent, s₆, hcontent, h⟩ := Op.bind_eq_ok.1 h
  obtain ⟨u', s₇, hrefused', h⟩ := Op.bind_eq_ok.1 h
  obtain ⟨held, s₈, hheld, h⟩ := Op.bind_eq_ok.1 h
  obtain ⟨again, s₉, hagain, h⟩ := Op.bind_eq_ok.1 h
  obtain ⟨read, s₁₀, htext, h⟩ := Op.bind_eq_ok.1 h
  cases h
  have hsame : sameItem = true := by
    simpa using refuseIf_eq_ok.1 (settled_eq_ok hrefused)
  have hsame' : sameContent = true := by
    simpa using refuseIf_eq_ok.1 (settled_eq_ok hrefused')
  subst hsame hsame'
  refine ⟨orRaise_eq_ok.1 (settled_eq_ok htext), compareTexts_eq_ok (settled_eq_ok hcontent), ?_⟩
  rw [← compareTexts_eq_ok (settled_eq_ok hitem)]
  exact settled_eq_ok hdigest

theorem decideContext_eq_ok {item : GovernedMemoryItem} {text : PyStr} {context : GovernedContext} {target : PyStr}
    {d : ContextPolicyDecision text.length} (h : decideContext ports item text context target s = (.ok d, s')) :
    ∃ s₁, ports.authorizeContext item text context target s = (.ok (some (d.given context)), s₁) := by
  obtain ⟨answer, s₁, hanswer, h⟩ := Op.bind_eq_ok.1 h
  rw [checkDecision_eq_ok (settled_eq_ok h)] at hanswer
  rcases hrun : ports.authorizeContext item text context target s with ⟨outcome, s₂⟩
  cases outcome with
  | ok a =>
    rw [Op.guarded_of_ok hrun] at hanswer
    cases hanswer
    exact ⟨_, rfl⟩
  | error e =>
    rw [Op.guarded_of_error hrun] at hanswer
    cases e with
    | exception e =>
      dsimp only at hanswer
      split_ifs at hanswer
      · cases hanswer
      · cases hanswer
    | interrupt => cases hanswer

/-- The block of a version that is permitted at its place, and none of one that is not. -/
def Placed (profile : ContextRenderingProfile) (position : ℕ) (visit : Visit) : Prop :=
  if visit.decision.permitted then
    ∃ block, visit.block = some block ∧
      render position visit.item visit.entry visit.text visit.decision.redactions profile = .ok block
  else visit.block = none

theorem visitEntry_eq_ok {count : ℕ} {entry : Selected} {visit : Visit}
    (h : visitEntry ports plan parsed count entry s = (.ok visit, s')) :
    visit.entry = entry ∧ Visited ports plan parsed visit ∧ Placed parsed.profile (count + 1) visit := by
  obtain ⟨⟨candidate, materialized, text⟩, s₁, hread, h⟩ := Op.bind_eq_ok.1 h
  obtain ⟨decision, s₂, hdecision, h⟩ := Op.bind_eq_ok.1 h
  obtain ⟨hdecoded, hbound, hidentified⟩ := readEntry_eq_ok hread
  obtain ⟨s₃, hanswer⟩ := decideContext_eq_ok hdecision
  split_ifs at h with hpermitted
  · obtain ⟨block, s₄, hblock, h⟩ := Op.bind_eq_ok.1 h
    cases h
    refine ⟨rfl, ⟨hdecoded, hbound, hidentified, s₁, s₃, hanswer⟩, ?_⟩
    rw [Placed, if_pos hpermitted]
    exact ⟨block, rfl, settled_eq_ok hblock⟩
  · cases h
    refine ⟨rfl, ⟨hdecoded, hbound, hidentified, s₁, s₃, hanswer⟩, ?_⟩
    rw [Placed, if_neg hpermitted]

/-- The versions of a run that the policy permits. -/
def permitted (visits : List Visit) : List Visit := visits.filter fun visit => visit.decision.permitted

/-- Each permitted version has its block, at its position. -/
def Ordered (profile : ContextRenderingProfile) (count : ℕ) (visits : List Visit) : Prop :=
  (visits.filterMap Visit.block).length = (permitted visits).length ∧
    ∀ i visit block, (permitted visits)[i]? = some visit → (visits.filterMap Visit.block)[i]? = some block →
      render (count + i + 1) visit.item visit.entry visit.text visit.decision.redactions profile = .ok block

theorem visitEntries_eq_ok {count : ℕ} {selected : List Selected} {visits : List Visit}
    (h : visitEntries ports plan parsed count selected s = (.ok visits, s')) :
    visits.map Visit.entry = selected ∧ (∀ visit ∈ visits, Visited ports plan parsed visit) ∧
      Ordered parsed.profile count visits := by
  induction selected generalizing count visits s s' with
  | nil =>
    cases h
    exact ⟨rfl, fun visit hvisit => (List.not_mem_nil hvisit).elim, rfl, fun i visit block hi => by simp [permitted] at hi⟩
  | cons entry rest ih =>
    rw [visitEntries] at h
    obtain ⟨visit, s₁, hvisit, h⟩ := Op.bind_eq_ok.1 h
    obtain ⟨others, s₂, hothers, h⟩ := Op.bind_eq_ok.1 h
    cases h
    obtain ⟨hentry, hvisited, hplaced⟩ := visitEntry_eq_ok hvisit
    obtain ⟨hentries, hall, hlength, hblocks⟩ := ih hothers
    refine ⟨by rw [List.map_cons, hentry, hentries], fun v hv => ?_, ?_⟩
    · rcases List.mem_cons.mp hv with rfl | hv
      · exact hvisited
      · exact hall v hv
    · unfold Placed at hplaced
      split_ifs at hplaced with hpermitted
      · obtain ⟨block, hblock, hrender⟩ := hplaced
        have hkept : permitted (visit :: others) = visit :: permitted others := List.filter_cons_of_pos hpermitted
        have hmap : (visit :: others).filterMap Visit.block = block :: others.filterMap Visit.block :=
          List.filterMap_cons_some hblock
        rw [hblock, Option.isSome_some, if_pos rfl] at hblocks
        refine ⟨by rw [hkept, hmap, List.length_cons, List.length_cons, hlength], fun i v b hv hb => ?_⟩
        rw [hkept] at hv
        rw [hmap] at hb
        cases i with
        | zero =>
          cases hv
          cases hb
          exact hrender
        | succ i =>
          have hrec := hblocks i v b hv hb
          rwa [show count + (i + 1) + 1 = count + 1 + i + 1 by omega]
      · have hkept : permitted (visit :: others) = permitted others := List.filter_cons_of_neg hpermitted
        have hmap : (visit :: others).filterMap Visit.block = others.filterMap Visit.block :=
          List.filterMap_cons_none hplaced
        rw [hplaced, Option.isSome_none, if_neg Bool.false_ne_true] at hblocks
        rw [Ordered, hkept, hmap]
        exact ⟨hlength, hblocks⟩

/-! ## Contexts -/

/-- A context as the lines it is made of: the header, and of the lines of all permitted versions the longest
prefix that fits. -/
structure Rendered (plan : ContextPlan) (parsed : ContextRequest) (versions : List Visit) (built : Built) (head : Bytes)
    (lines : List Bytes) : Prop where
  header : header plan parsed = .ok (head ++ [newline])
  length_eq : lines.length = versions.length
  line : ∀ i version line, versions[i]? = some version → lines[i]? = some line →
    BlockLine parsed.profile (i + 1) version line
  included_le : built.included.length ≤ lines.length
  context : built.context = framed newline (head :: lines.take built.included.length)
  split : built.context.splitOn newline = head :: lines.take built.included.length ++ [[]]
  budget : built.context.length ≤ parsed.maxContextBytes
  longest : ∀ j ≤ lines.length, (framed newline (head :: lines.take j)).length ≤ parsed.maxContextBytes →
    j ≤ built.included.length

theorem lines_of_ordered {profile : ContextRenderingProfile} {visits : List Visit} (h : Ordered profile 0 visits) :
    ∃ lines : List Bytes, (visits.filterMap Visit.block).map Prod.snd = lines.map (fun line => line ++ [newline]) ∧
      lines.length = (permitted visits).length ∧
      ∀ i version line, (permitted visits)[i]? = some version → lines[i]? = some line →
        BlockLine profile (i + 1) version line := by
  obtain ⟨hlength, hblocks⟩ := h
  refine ⟨(visits.filterMap Visit.block).map fun block => block.2.dropLast, ?_, by rw [List.length_map, hlength], ?_⟩
  · rw [List.map_map]
    refine List.map_congr_left fun block hblock => ?_
    obtain ⟨i, hi, hget⟩ := List.getElem_of_mem hblock
    obtain ⟨version, hversion⟩ : ∃ version, (permitted visits)[i]? = some version :=
      ⟨_, List.getElem?_eq_getElem (hlength ▸ hi)⟩
    obtain ⟨line, hline, -⟩ := render_eq_ok (hblocks i version block hversion (List.getElem?_eq_some_iff.mpr ⟨hi, hget⟩))
    simp only [Function.comp_apply, hline, List.dropLast_concat]
  · intro i version line hversion hline
    rw [List.getElem?_map] at hline
    obtain ⟨block, hblock, rfl⟩ := Option.map_eq_some_iff.mp hline
    obtain ⟨line, hline, hmade⟩ := render_eq_ok (hblocks i version block hversion hblock)
    have hposition : 0 + i + 1 = i + 1 := by omega
    rw [hposition] at hmade
    rw [hline, List.dropLast_concat]
    exact hmade

theorem header_eq_ok {bytes : Bytes} (h : header plan parsed = .ok bytes) :
    ∃ head, bytes = head ++ [newline] ∧ newline ∉ head := by
  obtain ⟨profileDigest, -, h⟩ := bind_eq_ok.1 h
  obtain ⟨queryDigest, -, h⟩ := bind_eq_ok.1 h
  obtain ⟨line, hline, h⟩ := bind_eq_ok.1 h
  exact ⟨line, (Except.ok.inj h).symm, newline_notMem_canonicalize hline⟩

/-- Some of the lines, after the header, are as long as the bytes of their blocks together. -/
theorem framed_take {head : Bytes} {lines : List Bytes} {blocks : List (EntryMap × Bytes)}
    (h : blocks.map Prod.snd = lines.map fun line => line ++ [newline]) (k : ℕ) :
    framed newline (head :: lines.take k) = head ++ [newline] ++ (blocks.take k).flatMap Prod.snd := by
  rw [framed, List.flatMap_cons, List.flatMap_def, List.flatMap_def, List.map_take, List.map_take, h]

theorem length_framed_take {head : Bytes} {lines : List Bytes} {blocks : List (EntryMap × Bytes)}
    (h : blocks.map Prod.snd = lines.map fun line => line ++ [newline]) (k : ℕ) :
    (framed newline (head :: lines.take k)).length =
      (head ++ [newline]).length + totalSize (fun block : EntryMap × Bytes => block.2.length) (blocks.take k) := by
  rw [framed_take h, List.length_append, List.length_flatMap, totalSize]

theorem rendered_of_finish {selected : List Selected} {visits : List Visit} {built : Built}
    (hordered : Ordered parsed.profile 0 visits) (h : finish plan parsed selected visits = .ok built) :
    ∃ head lines, Rendered plan parsed (permitted visits) built head lines := by
  obtain ⟨bytes, hheader, h⟩ := bind_eq_ok.1 h
  obtain ⟨hbudget, h⟩ := check_bind_eq_ok.1 h
  obtain ⟨core, -, h⟩ := bind_eq_ok.1 h
  cases h
  rw [refuseIf_eq_ok, not_lt] at hbudget
  obtain ⟨head, rfl, hplain⟩ := header_eq_ok hheader
  obtain ⟨lines, hlines, hlength, hmade⟩ := lines_of_ordered hordered
  obtain ⟨blocks, hblocks⟩ : ∃ blocks, blocks = visits.filterMap Visit.block := ⟨_, rfl⟩
  rw [← hblocks] at hlines ⊢
  obtain ⟨hcontext, hincluded⟩ := put_fitting parsed.maxContextBytes blocks (f := ⟨head ++ [newline], [], [], []⟩) rfl
  obtain ⟨k, hk⟩ : ∃ k, k = fitting (fun block : EntryMap × Bytes => block.2.length) parsed.maxContextBytes
    (head ++ [newline]).length blocks := ⟨_, rfl⟩
  dsimp only at hcontext hincluded
  rw [← hk] at hcontext hincluded
  have hle : k ≤ blocks.length := by
    rw [hk]
    exact fitting_le_length
  have hcount : lines.length = blocks.length := by
    have hsame := congrArg List.length hlines
    rw [List.length_map, List.length_map] at hsame
    exact hsame.symm
  have hnumber : (blocks.foldl (Filling.put parsed.maxContextBytes) ⟨head ++ [newline], [], [], []⟩).included.length = k := by
    rw [hincluded, List.nil_append, List.length_map, List.length_take]
    omega
  have hframed : (blocks.foldl (Filling.put parsed.maxContextBytes) ⟨head ++ [newline], [], [], []⟩).context =
      framed newline (head :: lines.take k) := by
    rw [hcontext, framed_take hlines]
  refine ⟨head, lines, hheader, hlength, hmade, ?_, ?_, ?_, ?_, fun j hj hfits => ?_⟩
  · rw [hnumber]
    omega
  · rw [hnumber]
    exact hframed
  · rw [hnumber, hframed]
    refine splitOn_framed fun line hline => ?_
    rcases List.mem_cons.mp hline with rfl | hline
    · exact hplain
    · obtain ⟨i, hi, hget⟩ := List.getElem_of_mem (List.mem_of_mem_take hline)
      obtain ⟨data, -, hcanonical⟩ := hmade i _ line (List.getElem?_eq_getElem (by omega))
        (List.getElem?_eq_some_iff.mpr ⟨hi, hget⟩)
      exact newline_notMem_canonicalize hcanonical
  · rw [hframed, length_framed_take hlines, hk]
    exact totalSize_take_fitting hbudget
  · rw [hnumber, hk]
    rw [length_framed_take hlines] at hfits
    exact le_fitting (by omega) hfits

/-! ## Lines of different blocks -/

/-- Two versions whose lines are made of the same values. -/
def SameContent (v w : Visit) : Prop :=
  v.item = w.item ∧ v.entry = w.entry ∧ v.text = w.text ∧ v.decision.redactions = w.decision.redactions

theorem markers_unique {profile : ContextRenderingProfile} {redactions : List Redaction} {markers others : List PyStr}
    (h : List.Forall₂ (fun r marker => formatMarker r.reasonCode 0 profile.redactionMarker = .ok marker) redactions markers)
    (h' : List.Forall₂ (fun r marker => formatMarker r.reasonCode 0 profile.redactionMarker = .ok marker) redactions others) :
    markers = others := by
  induction h generalizing others with
  | nil =>
    cases h'
    rfl
  | cons hmarker _ ih =>
    cases h' with
    | cons hother hrest =>
      rw [Except.ok.inj (hmarker.symm.trans hother), ih hrest]

theorem blockLine_unique {profile : ContextRenderingProfile} {position : ℕ} {v w : Visit} {line line' : Bytes}
    (hsame : SameContent v w) (h : BlockLine profile position v line) (h' : BlockLine profile position w line') :
    line = line' := by
  obtain ⟨hitem, hentry, htext, hredactions⟩ := hsame
  obtain ⟨data, ⟨markers, hmarkers, -, hdata⟩, hline⟩ := h
  obtain ⟨data', ⟨markers', hmarkers', -, hdata'⟩, hline'⟩ := h'
  rw [← hredactions] at hmarkers'
  have hmarked := markers_unique hmarkers hmarkers'
  have hequal : data = data' := by rw [hdata, hdata', hredactions, htext, hmarked]
  rw [hitem, hentry, hequal] at hline
  exact Except.ok.inj (hline.symm.trans hline')

theorem length_framed (lines : List Bytes) :
    (framed newline lines).length = ((lines.map List.length).map (· + 1)).sum := by
  rw [framed, List.length_flatMap, List.map_map]
  refine congrArg List.sum (List.map_congr_left fun line _ => ?_)
  rw [List.length_append, List.length_singleton, Function.comp_apply]

theorem Rendered.included_iff {versions : List Visit} {built : Built} {head : Bytes} {lines : List Bytes}
    (h : Rendered plan parsed versions built head lines) {i : ℕ} :
    i < built.included.length ↔
      i < lines.length ∧ (framed newline (head :: lines.take (i + 1))).length ≤ parsed.maxContextBytes := by
  constructor
  · intro hi
    have hle := h.included_le
    have hbudget := h.budget
    rw [h.context] at hbudget
    refine ⟨by omega, le_trans ?_ hbudget⟩
    have hsub : (lines.take (i + 1)).Sublist (lines.take built.included.length) :=
      (List.take_prefix_take_left (by omega)).sublist
    rw [length_framed, length_framed]
    exact ((hsub.cons_cons head).map _ |>.map _).sum_le_sum fun _ _ => Nat.zero_le _
  · rintro ⟨hi, hfits⟩
    exact h.longest (i + 1) hi hfits

/-- Two contexts, and the version in which they differ: every other line they both have is the same, the lines before
it are in both or in neither, and if its own line is as long in both, so are all the others. -/
structure Unreached (j : ℕ) (built built' : Built) (lines lines' : List Bytes) : Prop where
  same : ∀ i ≠ j, i < built.included.length → i < built'.included.length → lines[i]? = lines'[i]?
  before : ∀ i < j, (i < built.included.length ↔ i < built'.included.length)
  number : lines[j]?.map List.length = lines'[j]?.map List.length → built.included.length = built'.included.length

theorem Rendered.unreached {plan' : ContextPlan} {parsed' : ContextRequest} {versions versions' : List Visit}
    {built built' : Built} {head : Bytes} {lines lines' : List Bytes} {j : ℕ}
    (h : Rendered plan parsed versions built head lines) (h' : Rendered plan' parsed' versions' built' head lines')
    (hprofile : parsed'.profile = parsed.profile) (hbudget : parsed'.maxContextBytes = parsed.maxContextBytes)
    (hothers : ∀ i ≠ j, Option.Rel SameContent versions[i]? versions'[i]?) : Unreached j built built' lines lines' := by
  have hsame : ∀ i ≠ j, lines[i]? = lines'[i]? := by
    intro i hi
    have hrel := hothers i hi
    cases hv : versions[i]? with
    | none =>
      rw [hv] at hrel
      cases hw : versions'[i]? with
      | none =>
        rw [List.getElem?_eq_none_iff] at hv hw
        have hlength := h.length_eq
        have hlength' := h'.length_eq
        rw [List.getElem?_eq_none (by omega), List.getElem?_eq_none (by omega)]
      | some w =>
        rw [hw] at hrel
        cases hrel
    | some v =>
      rw [hv] at hrel
      cases hw : versions'[i]? with
      | none =>
        rw [hw] at hrel
        cases hrel
      | some w =>
        rw [hw] at hrel
        cases hrel with
        | some hcontent =>
          obtain ⟨hiv, -⟩ := List.getElem?_eq_some_iff.mp hv
          obtain ⟨hiw, -⟩ := List.getElem?_eq_some_iff.mp hw
          have hlength := h.length_eq
          have hlength' := h'.length_eq
          have hline := List.getElem?_eq_getElem (l := lines) (i := i) (by omega)
          have hline' := List.getElem?_eq_getElem (l := lines') (i := i) (by omega)
          have hmade' := h'.line i w _ hw hline'
          rw [hprofile] at hmade'
          rw [hline, hline', blockLine_unique hcontent (h.line i v _ hv hline) hmade']
  have htake : ∀ i ≤ j, lines.take i = lines'.take i := by
    intro i hi
    refine List.ext_getElem? fun k => ?_
    rw [List.getElem?_take, List.getElem?_take]
    split_ifs with hk
    · exact hsame k (by omega)
    · rfl
  refine ⟨fun i hi _ _ => hsame i hi, fun i hi => ?_, fun hlength => ?_⟩
  · have hbound : i < lines.length ↔ i < lines'.length := by
      have hnone := congrArg (· = none) (hsame i (by omega))
      simp only [List.getElem?_eq_none_iff, eq_iff_iff] at hnone
      omega
    rw [h.included_iff, h'.included_iff, htake (i + 1) hi, hbudget, hbound]
  · have hlengths : lines.map List.length = lines'.map List.length := by
      refine List.ext_getElem? fun k => ?_
      rw [List.getElem?_map, List.getElem?_map]
      by_cases hk : k = j
      · rw [hk]
        exact hlength
      · rw [hsame k hk]
    have hnumber : lines.length = lines'.length := by
      have hmaps := congrArg List.length hlengths
      rwa [List.length_map, List.length_map] at hmaps
    have hsize : ∀ k, (framed newline (head :: lines.take k)).length = (framed newline (head :: lines'.take k)).length := by
      intro k
      have hmaps : (head :: lines.take k).map List.length = (head :: lines'.take k).map List.length := by
        rw [List.map_cons, List.map_cons, List.map_take, List.map_take, hlengths]
      rw [length_framed, length_framed, hmaps]
    have hiff : ∀ i, i < built.included.length ↔ i < built'.included.length := by
      intro i
      rw [h.included_iff, h'.included_iff, hsize, hnumber, hbudget]
    have hfirst := hiff built.included.length
    have hsecond := hiff built'.included.length
    omega

/-- `core["truncation_record"]["included_count"]`. -/
def includedCount : PyValue → Option PyValue
  | .mapping core =>
    match member core "truncation_record" with
    | some (.mapping record) => member record "included_count"
    | _ => none
  | _ => none

theorem member_named {columns : List (String × Option PyValue)} (names : List String) (k : ℕ) {name : String}
    {cell : Option PyValue} (hnames : columns.map Prod.fst = names)
    (hnd : (names.map fun name => MappingKey.str (py name)).Nodup) (h : columns[k]? = some (name, cell)) :
    member (columns.filterMap fun column => column.2.map fun value => (.str (py column.1), value)) name = cell := by
  refine member_fields ?_ h
  rw [← hnames, List.map_map] at hnd
  exact hnd

theorem includedCount_coreRecord {selected : List Selected} {visits : List Visit} {filling : Filling} {core : PyValue}
    (h : coreRecord plan parsed selected visits filling = .ok core) :
    includedCount core = some (.int filling.included.length) := by
  obtain ⟨queryDigest, -, h⟩ := bind_eq_ok.1 h
  obtain ⟨profileDigest, -, h⟩ := bind_eq_ok.1 h
  obtain ⟨rankingProfileDigest, -, h⟩ := bind_eq_ok.1 h
  cases h
  unfold includedCount fields
  dsimp only
  rw [member_named ["query_digest", "governed_context_digest", "target_model_ref", "max_context_bytes",
    "rendering_profile_ref", "rendering_profile_digest", "ordering_profile_ref", "representation_versions",
    "ranking_profile_digest", "candidates", "policy_excluded_item_version_refs", "blocks", "truncation_record",
    "context_ref", "context_digest"] 12 rfl (by decide) rfl]
  exact member_named ["strategy", "max_context_bytes", "context_bytes", "candidate_count", "included_count",
    "truncated_item_version_refs"] 4 rfl (by decide) rfl

/-! ## Main result -/

/-- **A context is within its budget and consists of its header line and one line per included block, the canonical
JSON of a permitted version whose data is its text with exactly the decided spans replaced; the included blocks are
the longest prefix of the permitted ones that fits. The text of a version reaches no line but its own.** -/
theorem context_exact {σ : Type} (ports : ContextPorts σ) (plan : ContextPlan) (parsed : ContextRequest)
    (selected : List Selected) (s s' : σ) (built : Built) (h : build ports plan parsed selected s = (.ok built, s')) :
    ∃ visits head lines, visits.map Visit.entry = selected ∧ (∀ visit ∈ visits, Visited ports plan parsed visit) ∧
      Rendered plan parsed (permitted visits) built head lines ∧
      includedCount built.core = some (.int built.included.length) ∧
      ∀ (plan' : ContextPlan) (parsed' : ContextRequest) (versions' : List Visit) (built' : Built) (lines' : List Bytes)
        (j : ℕ), Rendered plan' parsed' versions' built' head lines' → parsed'.profile = parsed.profile →
          parsed'.maxContextBytes = parsed.maxContextBytes →
          (∀ i ≠ j, Option.Rel SameContent (permitted visits)[i]? versions'[i]?) → Unreached j built built' lines lines' := by
  obtain ⟨u, s₁, hheld, h⟩ := Op.bind_eq_ok.1 h
  obtain ⟨visits, s₂, hvisits, h⟩ := Op.bind_eq_ok.1 h
  obtain ⟨u', s₃, hagain, h⟩ := Op.bind_eq_ok.1 h
  obtain ⟨u'', s₄, hheld', h⟩ := Op.bind_eq_ok.1 h
  have hfinish := settled_eq_ok h
  obtain ⟨hentries, hvisited, hordered⟩ := visitEntries_eq_ok hvisits
  obtain ⟨head, lines, hrendered⟩ := rendered_of_finish hordered hfinish
  refine ⟨visits, head, lines, hentries, hvisited, hrendered, ?_, ?_⟩
  · obtain ⟨bytes, -, hfinish⟩ := bind_eq_ok.1 hfinish
    obtain ⟨-, hfinish⟩ := check_bind_eq_ok.1 hfinish
    obtain ⟨core, hcore, hfinish⟩ := bind_eq_ok.1 hfinish
    cases hfinish
    exact includedCount_coreRecord hcore
  · intro plan' parsed' versions' built' lines' j hother hprofile hbudget hothers
    exact hrendered.unreached hother hprofile hbudget hothers

end Runs

/-! ### A context of one note -/

section Sample
variable (itemDigest contentDigest : PyStr)

def notedText : PyStr := py "ab\nc"

def notedItem : GovernedMemoryItem := ⟨{ rankedFields "m" with contentDigest := contentDigest }, rfl⟩

def notedEntry : Selected := ⟨py "m", 1, itemDigest, contentDigest⟩

def notedContext : GovernedContext where
  tenantId := py "t"
  organizationId := py "o"
  domainId := py "d"
  compartments := [py "alpha"]
  classificationMarkingRef := py "marking"
  purpose := py "analysis"
  effectivePrincipalId := py "owner"
  actorChain := [py "a"]
  ontologyReleaseDigest := py "digest"
  policyBundleDigest := py "digest"
  correlationId := py "c"

def notedCandidate : SearchCandidate :=
  ⟨⟨{ memoryItemId := py "m", memoryVersion := 1, item := notedItem contentDigest, itemDigest := itemDigest,
      auditRef := py "a", partition := MemoryPartition.forItem (notedItem contentDigest), contentObjectRef := py "object",
      pointers := [], stagedAt := 0 }, .committed, some 0⟩,
    notedItem contentDigest, MemoryPartition.forItem (notedItem contentDigest)⟩

def notedAnswer : ContextPolicyAnswer :=
  ⟨.bool true, .str (py "r"), .str (py "digest"), some [⟨.int 0, .int 1, .str (py "PII")⟩]⟩

/-- The first character of the note is redacted. -/
def notedPorts : ContextPorts Unit where
  requireStopEpoch _ := pure ()
  exact _ _ _ := pure (some (notedCandidate itemDigest contentDigest))
  read _ := pure ⟨notedItem contentDigest, utf8Encode notedText⟩
  authorizeContext _ _ _ _ := pure (some notedAnswer)

theorem notedPlan_listed : [py "SEMANTIC"] ≠ [] ∧ [py "DOMAIN"] ≠ [] := by decide

def notedPlan : ContextPlan where
  search := ⟨⟨[.semantic], [.domain], ⟨none, none, none, []⟩, none⟩, notedContext, [], 0, 0,
    ⟨[py "SEMANTIC"], [py "DOMAIN"], 0, 0, none, none, none, [], notedPlan_listed⟩, by rfl⟩
  query := .mapping []
  rankingProfile := .mapping []
  representationVersions := .mapping []
  gcsDigest := py "digest"
  stopEpoch := 0

def notedRequest (maxContextBytes : ℕ) : ContextRequest where
  context := notedContext
  gcsDigest := py "digest"
  operationId := py "op"
  deadline := 0
  searchRequest := .mapping []
  targetModelRef := py "model"
  maxContextBytes := maxContextBytes
  profile := { named := by decide, implemented := ⟨rfl, rfl⟩, marked := by decide }

variable {itemDigest contentDigest}

theorem compareTexts_self (bytes : Bytes) : compareTexts (sha256Urn bytes) (sha256Urn bytes) = .ok true := by
  have hascii : ((sha256Urn bytes ++ sha256Urn bytes).all fun c => c.val < 0x80) = true := by
    refine List.all_eq_true.mpr fun c hc => ?_
    have hone : c ∈ urnOf bytes := (List.mem_append.mp hc).elim id id
    simpa using urnOf_ascii bytes c hone
  rw [compareTexts, if_pos hascii, decide_eq_true rfl]

theorem settled_ok {σ α : Type} (a : α) (s : σ) : settled (.ok a) s = (.ok a, s) := rfl

theorem requireUnchanged_noted {previous : Option SearchCandidate}
    (hdigest : compareTexts itemDigest itemDigest = .ok true)
    (h : ∀ p ∈ previous, p = notedCandidate itemDigest contentDigest) :
    requireUnchanged (notedPorts itemDigest contentDigest) notedPlan (notedEntry itemDigest contentDigest) previous () =
      (.ok (notedCandidate itemDigest contentDigest), ()) := by
  have hunchanged : isUnchanged (notedEntry itemDigest contentDigest) previous (notedCandidate itemDigest contentDigest) =
      .ok true := by
    refine allOf_eq_true.2 fun check hcheck => ?_
    simp only [List.mem_cons, List.not_mem_nil, or_false] at hcheck
    rcases hcheck with rfl | rfl | rfl
    · exact hdigest
    · exact congrArg Except.ok (decide_eq_true rfl)
    · cases previous with
      | none => rfl
      | some p => simp [h p rfl]
  have hfound : (notedPorts itemDigest contentDigest).exact notedPlan (py "m") 1 () =
      (.ok (some (notedCandidate itemDigest contentDigest)), ()) := rfl
  have hpassed : ∀ e : PyError, refuseIf (true = false) e = .ok () := fun e => if_neg (by decide)
  rw [requireUnchanged]
  refine (Op.bind_of_ok hfound).trans ?_
  rw [orRaise, Op.bind_of_ok (settled_ok _ _), hunchanged, Op.bind_of_ok (settled_ok _ _), hpassed,
    Op.bind_of_ok (settled_ok _ _)]
  rfl

theorem noted_reads : Scalar (formatUtcTimestamp 0) ∧
    (checkSpans notedText.length 0 [⟨.int 0, .int 1, .str (py "PII")⟩]).toOption.isSome = true := by
  decide

theorem iJson_notedItem (h : Scalar contentDigest) : IJson (notedItem contentDigest).toMapping := by
  have hcreated := noted_reads.1
  refine iJson_fields (by simp only [List.map_cons, List.map_nil]; decide) ?_
  simp only [List.forall_mem_cons, List.not_mem_nil, false_imp_iff, implies_true, and_true, Option.mem_def,
    Option.some.injEq, forall_eq', notedItem, rankedFields, Option.map_none, Option.bind_none, reduceCtorEq, iJson_str,
    iJson_int, iJson_bool, iJson_strings, scalar_py, h, hcreated]
  simp [maxSafeInteger]

theorem readEntry_noted (hitem : digestOf (notedItem contentDigest).toMapping = .ok itemDigest)
    (hdigest : compareTexts itemDigest itemDigest = .ok true)
    (hcontent : compareTexts (sha256Urn (utf8Encode notedText)) contentDigest = .ok true) :
    readEntry (notedPorts itemDigest contentDigest) notedPlan (notedEntry itemDigest contentDigest) () =
      (.ok (notedCandidate itemDigest contentDigest, ⟨notedItem contentDigest, utf8Encode notedText⟩, notedText), ()) := by
  have hfirst := @requireUnchanged_noted itemDigest contentDigest none hdigest (fun _ h => nomatch h)
  have hagain := @requireUnchanged_noted itemDigest contentDigest (some (notedCandidate itemDigest contentDigest)) hdigest
    (fun _ h => (Option.some.inj h).symm)
  have hread : (notedPorts itemDigest contentDigest).read (notedCandidate itemDigest contentDigest) () =
      (.ok ⟨notedItem contentDigest, utf8Encode notedText⟩, ()) := rfl
  have hheld : (notedPorts itemDigest contentDigest).requireStopEpoch notedPlan () = (.ok (), ()) := rfl
  have hdecoded : decodeStrict (utf8Encode notedText) = some notedText := by
    rw [decodeStrict, utf8Decode_encode]
    decide
  have hpassed : ∀ e : PyError, refuseIf (true = false) e = .ok () := fun e => if_neg (by decide)
  rw [readEntry, Op.bind_of_ok hfirst, Op.bind_of_ok hread, hitem, Op.bind_of_ok (settled_ok _ _)]
  have hitem' : compareTexts itemDigest (notedEntry itemDigest contentDigest).itemDigest = .ok true := hdigest
  have hcontent' : compareTexts (sha256Urn (utf8Encode notedText)) (notedEntry itemDigest contentDigest).contentDigest =
      .ok true := hcontent
  rw [hitem', Op.bind_of_ok (settled_ok _ _), hpassed, Op.bind_of_ok (settled_ok _ _), hcontent',
    Op.bind_of_ok (settled_ok _ _), hpassed, Op.bind_of_ok (settled_ok _ _), Op.bind_of_ok hheld, Op.bind_of_ok hagain,
    hdecoded]
  rfl

def notedRedaction : Redaction := ⟨⟨0, 1⟩, py "PII"⟩

theorem decideContext_noted : ∃ d : ContextPolicyDecision notedText.length,
    decideContext (notedPorts itemDigest contentDigest) (notedItem contentDigest) notedText notedContext (py "model") () =
      (.ok d, ()) ∧ d.permitted = true ∧ d.redactions = [notedRedaction] := by
  have hspans : ∃ spans, checkSpans notedText.length 0 [⟨.int 0, .int 1, .str (py "PII")⟩] = .ok spans := by
    have hsome := noted_reads.2
    cases hchecked : checkSpans notedText.length 0 [⟨.int 0, .int 1, .str (py "PII")⟩] with
    | error e =>
      rw [hchecked] at hsome
      cases hsome
    | ok spans => exact ⟨spans, rfl⟩
  obtain ⟨spans, hspans⟩ := hspans
  have hbundle : ∀ e : PyError, refuseIf (PyValue.str (py "digest") ≠ .str notedContext.policyBundleDigest) e = .ok () :=
    fun e => if_neg (not_not.mpr rfl)
  have hchecked : checkDecision (some notedAnswer) notedText.length notedContext = .ok ⟨true, py "r", spans.1, spans.2⟩ :=
    check_bind_eq_ok.2 ⟨hbundle _, bind_eq_ok.2 ⟨spans, hspans, rfl⟩⟩
  have hanswer : (notedPorts itemDigest contentDigest).authorizeContext (notedItem contentDigest) notedText notedContext
      (py "model") () = (.ok (some notedAnswer), ()) := rfl
  refine ⟨⟨true, py "r", spans.1, spans.2⟩, ?_, rfl, ?_⟩
  · rw [decideContext, Op.bind_of_ok (Op.guarded_of_ok hanswer), hchecked]
    rfl
  · have hinjective : Function.Injective Redaction.given := by
      rintro ⟨⟨a, b⟩, c⟩ ⟨⟨a', b'⟩, c'⟩ hsame
      simpa [Redaction.given, and_assoc] using hsame
    have hmaps : [notedRedaction].map Redaction.given = spans.1.map Redaction.given := checkSpans_eq_ok hspans
    exact (List.map_injective_iff.mpr hinjective hmaps).symm

theorem iJson_profile (n : ℕ) : IJson (notedRequest n).profile.toMapping := by
  refine iJson_fields (by simp only [List.map_cons, List.map_nil]; decide) ?_
  simp [notedRequest]

theorem profile_noted (n : ℕ) :
    (notedRequest n).profile.digest = .ok (urnOf (bytesOf (notedRequest n).profile.toMapping)) :=
  digestOf_eq (iJson_profile n)

theorem render_noted (n : ℕ) (hitem : Scalar itemDigest) (hcontent : Scalar contentDigest) :
    ∃ block, render 1 (notedItem contentDigest) (notedEntry itemDigest contentDigest) notedText [notedRedaction]
      (notedRequest n).profile = .ok block := by
  have hmarker : formatMarker (py "PII") 0 (notedRequest n).profile.redactionMarker = .ok (py "[REDACTED:PII]") := by
    show formatMarker (py "PII") 0 (py "[REDACTED:\x7breason_code\x7d]") = _
    decide
  have href : Scalar (notedEntry itemDigest contentDigest).ref := by
    have hplain : Scalar (memoryVersionRef (py "m") 1) := by decide
    exact hplain
  have hreference : ∀ profileDigest : PyStr, Scalar profileDigest →
      IJson (fields ([("memory_version_ref", some (.str (notedEntry itemDigest contentDigest).ref)),
        ("item_digest", some (.str itemDigest)), ("rendering_profile_digest", some (.str profileDigest))] ++
          notedRedaction.toMembers)) := by
    intro profileDigest hprofile
    refine iJson_fields ?_ ?_
    · simp only [Redaction.toMembers, List.cons_append, List.nil_append, List.map_cons, List.map_nil]
      decide
    · simp [Redaction.toMembers, notedRedaction, href, hitem, hprofile, maxSafeInteger]
  have hblock : ∀ data : PyStr, Scalar data →
      IJson (blockMapping 1 (notedItem contentDigest) (notedEntry itemDigest contentDigest) data) := by
    intro data hdata
    refine iJson_fields (by simp only [List.map_cons, List.map_nil]; decide) ?_
    simp [notedEntry, hcontent, hdata, notedItem, rankedFields, iJson_strings, maxSafeInteger, sortedTexts]
    exact href
  obtain ⟨refs, hparts⟩ : ∃ refs, renderParts (notedRequest n).profile (notedEntry itemDigest contentDigest) notedText 0
      [notedRedaction] = .ok ([[], py "[REDACTED:PII]", py "b\nc"], refs) :=
    ⟨_, bind_eq_ok.2 ⟨_, hmarker, bind_eq_ok.2 ⟨_, profile_noted n,
      bind_eq_ok.2 ⟨_, digestOf_eq (hreference _ (scalar_urnOf _)), rfl⟩⟩⟩⟩
  exact ⟨_, bind_eq_ok.2 ⟨_, hparts, bind_eq_ok.2 ⟨_, canonicalize_eq (hblock _ (by decide)), rfl⟩⟩⟩

theorem visitEntries_noted (n : ℕ) (hitem : digestOf (notedItem contentDigest).toMapping = .ok itemDigest)
    (hdigest : compareTexts itemDigest itemDigest = .ok true)
    (hcontent : compareTexts (sha256Urn (utf8Encode notedText)) contentDigest = .ok true)
    (hscalar : Scalar itemDigest ∧ Scalar contentDigest) :
    ∃ visits, visitEntries (notedPorts itemDigest contentDigest) notedPlan (notedRequest n) 0
        [notedEntry itemDigest contentDigest] () = (.ok visits, ()) ∧
      ∀ visit ∈ visits, visit.entry = notedEntry itemDigest contentDigest ∧
        visit.candidate = notedCandidate itemDigest contentDigest := by
  obtain ⟨d, hdecision, hpermitted, hredactions⟩ :=
    @decideContext_noted itemDigest contentDigest
  obtain ⟨block, hblock⟩ := render_noted n hscalar.1 hscalar.2
  have hvisit : visitEntry (notedPorts itemDigest contentDigest) notedPlan (notedRequest n) 0
      (notedEntry itemDigest contentDigest) () = (.ok ⟨notedEntry itemDigest contentDigest,
        notedCandidate itemDigest contentDigest, notedItem contentDigest, utf8Encode notedText, notedText, d,
        some block⟩, ()) := by
    rw [visitEntry, Op.bind_of_ok (readEntry_noted hitem hdigest hcontent)]
    refine (Op.bind_of_ok hdecision).trans ?_
    rw [if_pos hpermitted, hredactions, hblock]
    rfl
  have hrest : visitEntries (notedPorts itemDigest contentDigest) notedPlan (notedRequest n) 1 [] () = (.ok [], ()) := rfl
  refine ⟨[⟨notedEntry itemDigest contentDigest, notedCandidate itemDigest contentDigest, notedItem contentDigest,
    utf8Encode notedText, notedText, d, some block⟩], ?_, fun visit hv => ?_⟩
  · rw [visitEntries, Op.bind_of_ok hvisit]
    exact Op.bind_of_ok hrest
  · rw [List.mem_singleton] at hv
    rw [hv]
    exact ⟨rfl, rfl⟩

theorem header_noted : ∃ bytes, header notedPlan (notedRequest 0) = .ok bytes := by
  have hquery : IJson notedPlan.query := by
    rw [notedPlan, IJson]
    simp
  have hheader : ∀ profileDigest queryDigest : PyStr, Scalar profileDigest → Scalar queryDigest →
      IJson (fields [("context_format", some (.str (notedRequest 0).profile.profileRef)),
        ("rendering_profile_digest", some (.str profileDigest)), ("data_role", some (.str (py contextRole))),
        ("notice", some (.str (py contextNotice))), ("query_digest", some (.str queryDigest)),
        ("governed_context_digest", some (.str notedPlan.gcsDigest)),
        ("target_model_ref", some (.str (notedRequest 0).targetModelRef))]) := by
    intro profileDigest queryDigest hprofile hdigest
    refine iJson_fields (by simp only [List.map_cons, List.map_nil]; decide) ?_
    simp [hprofile, hdigest, notedRequest, notedPlan]
  exact ⟨_, bind_eq_ok.2 ⟨_, profile_noted 0, bind_eq_ok.2 ⟨_, digestOf_eq hquery,
    bind_eq_ok.2 ⟨_, canonicalize_eq (hheader _ _ (scalar_urnOf _) (scalar_urnOf _)), rfl⟩⟩⟩⟩

theorem finish_noted : ∃ n, ∀ visits selected, ∃ built, finish notedPlan (notedRequest n) selected visits = .ok built := by
  obtain ⟨bytes, hbytes⟩ := header_noted
  have hheader : header notedPlan (notedRequest bytes.length) = .ok bytes := hbytes
  have hquery : IJson notedPlan.query := by
    rw [notedPlan, IJson]
    simp
  refine ⟨bytes.length, fun visits selected => ?_⟩
  have hcore : ∀ filling, ∃ core, coreRecord notedPlan (notedRequest bytes.length) selected visits filling = .ok core :=
    fun filling => ⟨_, bind_eq_ok.2 ⟨_, digestOf_eq hquery, bind_eq_ok.2 ⟨_, profile_noted _,
      bind_eq_ok.2 ⟨_, digestOf_eq hquery, rfl⟩⟩⟩⟩
  obtain ⟨core, hcore⟩ := hcore ((visits.filterMap Visit.block).foldl (Filling.put bytes.length) ⟨bytes, [], [], []⟩)
  exact ⟨_, bind_eq_ok.2 ⟨bytes, hheader, check_bind_eq_ok.2
    ⟨refuseIf_eq_ok.2 (lt_irrefl bytes.length), bind_eq_ok.2 ⟨core, hcore, rfl⟩⟩⟩⟩

theorem build_noted (hitem : digestOf (notedItem contentDigest).toMapping = .ok itemDigest)
    (hdigest : compareTexts itemDigest itemDigest = .ok true)
    (hcontent : compareTexts (sha256Urn (utf8Encode notedText)) contentDigest = .ok true)
    (hscalar : Scalar itemDigest ∧ Scalar contentDigest) :
    ∃ n built, build (notedPorts itemDigest contentDigest) notedPlan (notedRequest n)
      [notedEntry itemDigest contentDigest] () = (.ok built, ()) := by
  obtain ⟨n, hfinish⟩ := finish_noted
  obtain ⟨visits, hvisits, hall⟩ := visitEntries_noted n hitem hdigest hcontent hscalar
  obtain ⟨built, hbuilt⟩ := hfinish visits [notedEntry itemDigest contentDigest]
  have hheld : (notedPorts itemDigest contentDigest).requireStopEpoch notedPlan () = (.ok (), ()) := rfl
  have hagain : ∀ l : List Visit, (∀ visit ∈ l, visit.entry = notedEntry itemDigest contentDigest ∧
      visit.candidate = notedCandidate itemDigest contentDigest) →
      (l.forM fun visit => do
        let _ ← requireUnchanged (notedPorts itemDigest contentDigest) notedPlan visit.entry (some visit.candidate)
        pure ()) () = (.ok (), ()) := by
    intro l hl
    induction l with
    | nil => rfl
    | cons visit l ih =>
      obtain ⟨hentry, hcandidate⟩ := hl visit List.mem_cons_self
      have hone := @requireUnchanged_noted itemDigest contentDigest (some (notedCandidate itemDigest contentDigest)) hdigest
        (fun _ h => (Option.some.inj h).symm)
      have hturn : (do
          let _ ← requireUnchanged (notedPorts itemDigest contentDigest) notedPlan visit.entry (some visit.candidate)
          pure () : Op Unit Raised Unit) () = (.ok (), ()) := by
        rw [hentry, hcandidate, Op.bind_of_ok hone]
        rfl
      exact (Op.bind_of_ok hturn).trans (ih fun v hv => hl v (List.mem_cons_of_mem visit hv))
  refine ⟨n, built, ?_⟩
  rw [build, Op.bind_of_ok hheld, Op.bind_of_ok hvisits, Op.bind_of_ok (hagain visits hall), Op.bind_of_ok hheld, hbuilt]
  rfl

end Sample

theorem context_exact_sample : ∃ n ports entry built visits head lines,
    build ports notedPlan (notedRequest n) [entry] () = (.ok built, ()) ∧ visits.map Visit.entry = [entry] ∧
      Rendered notedPlan (notedRequest n) (permitted visits) built head lines := by
  obtain ⟨contentDigest, hcontent⟩ : ∃ d, d = sha256Urn (utf8Encode notedText) := ⟨_, rfl⟩
  have hscalar : Scalar contentDigest := hcontent ▸ scalar_urnOf _
  have hsame : compareTexts (sha256Urn (utf8Encode notedText)) contentDigest = .ok true :=
    hcontent ▸ compareTexts_self _
  obtain ⟨n, built, hbuild⟩ := build_noted (digestOf_eq (iJson_notedItem hscalar)) (compareTexts_self _) hsame
    ⟨scalar_urnOf _, hscalar⟩
  obtain ⟨visits, head, lines, hentries, -, hrendered, -⟩ := context_exact _ notedPlan (notedRequest n) _ () () built hbuild
  exact ⟨n, _, _, built, visits, head, lines, hbuild, hentries, hrendered⟩

end OcorRuntime.Memory

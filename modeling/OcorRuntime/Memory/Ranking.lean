import Mathlib.Data.Rat.Defs
import Mathlib.Algebra.Order.Ring.Rat
import OcorRuntime.Foundations.GreedySelection
import OcorRuntime.Memory.Eligibility

/-! The ranking of search candidates (`memory/retrieval.py`): the score of a candidate falls with
every candidate of its source that was ranked before it, and candidates that were not checked yet
are checked when they are chosen. -/
namespace OcorRuntime.Memory
open Canonical Kernel
set_option autoImplicit false
set_option maxHeartbeats 250000

variable {R : Type}

/-! ## Candidates -/

/-- `_Candidate`. -/
structure RankCandidate (R : Type) extends SearchCandidate where
  lexical : Option R
  vector : Option R
  /-- Checked already. -/
  validated : Bool

namespace RankCandidate

def ref (c : RankCandidate R) : PyStr := c.stored.staged.memoryVersionRef

def validate (c : RankCandidate R) : RankCandidate R := { c with validated := true }

end RankCandidate

/-- The last candidate of each reference. -/
def remainingOf (candidates : List (RankCandidate R)) : Dict PyStr (RankCandidate R) :=
  candidates.foldl (fun remaining c => remaining.set c.ref c) .empty

/-- What `_eligible` answers for an item and a version. -/
abbrev Eligibility := PyStr → ℕ → Except PyError (Option SearchCandidate)

/-- The same stage is still eligible. -/
def unchanged (c : RankCandidate R) (fresh : Option SearchCandidate) : Bool :=
  fresh.any fun fresh => fresh.stored.staged.stageDigest = c.stored.staged.stageDigest

/-- The check when a candidate is chosen. -/
def recheck (eligible : Eligibility) (c : RankCandidate R) : Except PyError Bool :=
  if c.validated then .ok true
  else (eligible c.stored.staged.memoryItemId c.stored.staged.memoryVersion).map (unchanged c)

/-! ## Candidates that pass -/

/-- The candidate passes its check, by answers that are fixed. -/
def passes (answer : PyStr → ℕ → Option SearchCandidate) (c : RankCandidate R) : Bool :=
  c.validated || unchanged c (answer c.stored.staged.memoryItemId c.stored.staged.memoryVersion)

/-- If a candidate passes, the last candidate of its reference does. -/
def LastDecides (answer : PyStr → ℕ → Option SearchCandidate) (candidates : List (RankCandidate R)) : Prop :=
  ∀ c ∈ candidates, passes answer c = true →
    ∀ last, (candidates.filter fun d => d.ref = c.ref).getLast? = some last → passes answer last = true

variable {answer : PyStr → ℕ → Option SearchCandidate} {candidates : List (RankCandidate R)}

theorem lastDecides_of_nodup (h : (candidates.map RankCandidate.ref).Nodup) : LastDecides answer candidates := by
  intro c hc hpasses last hlast
  obtain ⟨hmem, href⟩ := List.mem_filter.mp (List.mem_of_getLast? hlast)
  rwa [List.inj_on_of_nodup_map h hmem hc (of_decide_eq_true href)]

theorem remainingOf_get? (candidates : List (RankCandidate R)) (k : PyStr) :
    (remainingOf candidates).get? k = (candidates.filter fun c => c.ref = k).getLast? := by
  have hget := Dict.get?_foldl_set RankCandidate.ref id candidates Dict.empty k
  rwa [Option.map_id, Dict.get?_empty, Option.or_none] at hget

theorem getLast?_filter_of_last {α : Type} {p : α → Bool} {l : List α}
    (h : ∀ a ∈ l, p a = true → ∀ last, l.getLast? = some last → p last = true) :
    (l.filter p).getLast? = l.getLast?.filter p := by
  cases hlast : l.getLast? with
  | none =>
    rw [List.getLast?_eq_none_iff.mp hlast]
    rfl
  | some last =>
    obtain ⟨front, rfl⟩ := List.getLast?_eq_some_iff.mp hlast
    cases hp : p last with
    | true => simp [hp, Option.filter_some]
    | false =>
      have hnone : (front ++ [last]).filter p = [] := List.filter_eq_nil_iff.mpr fun a ha hpa => by
        rw [h a ha hpa last hlast] at hp
        cases hp
      rw [hnone, Option.filter_some, hp]
      rfl

theorem keeps_filter (h : LastDecides answer candidates) (mark : RankCandidate R → RankCandidate R)
    (hmark : ∀ c, (mark c).ref = c.ref) :
    GreedySelection.Keeps (passes answer) mark (remainingOf candidates)
      (remainingOf ((candidates.filter (passes answer)).map mark)) := by
  intro k
  have hfilter : ((candidates.filter (passes answer)).map mark).filter (fun c => c.ref = k) =
      ((candidates.filter fun c => c.ref = k).filter (passes answer)).map mark := by
    rw [List.filter_map, List.filter_filter, List.filter_filter]
    congr 1
    refine List.filter_congr fun c _ => ?_
    rw [Function.comp_apply, hmark, Bool.and_comm]
  rw [remainingOf_get?, remainingOf_get?, hfilter, List.getLast?_map, getLast?_filter_of_last]
  intro c hc hpasses last hlast
  obtain ⟨hmem, href⟩ := List.mem_filter.mp hc
  rw [← of_decide_eq_true href] at hlast
  exact h c hmem hpasses last hlast

theorem recheck_answer (c : RankCandidate R) :
    recheck (fun id version => .ok (answer id version)) c = .ok (passes answer c) := by
  unfold recheck passes
  cases c.validated <;> rfl

theorem mem_of_remaining {p : PyStr × RankCandidate R} (h : p ∈ (remainingOf candidates).entries) : p.2 ∈ candidates := by
  rw [Dict.mem_entries_iff, remainingOf_get?] at h
  exact (List.mem_filter.mp (List.mem_of_getLast? h)).1

/-! ## Scores -/

/-- What a ranking asks of floats besides their order and arithmetic. -/
structure Floats (R : Type) where
  isFinite : R → Bool
  /-- `0.5 ** x`. -/
  halfPower : R → R
  /-- `total_seconds()` of microseconds. -/
  totalSeconds : ℤ → R
  /-- The float of an `int` or a `float`. -/
  ofValue : PyValue → R

/-- `dict(...)` of pairs. -/
def tableOf (pairs : List (PyStr × R)) : Dict PyStr R := pairs.foldl (fun table pair => table.set pair.1 pair.2) .empty

theorem tableOf_isSome {pairs : List (PyStr × R)} {name : PyStr} (h : name ∈ pairs.map Prod.fst) :
    ((tableOf pairs).get? name).isSome = true := by
  obtain ⟨pair, hmem, rfl⟩ := List.mem_map.mp h
  rw [tableOf, Dict.get?_foldl_set, Dict.get?_empty, Option.or_none, Option.isSome_map]
  refine List.getLast?_isSome.mpr (List.ne_nil_of_mem (List.mem_filter.mpr ⟨hmem, ?_⟩))
  exact decide_eq_true rfl

/-- What of a `RankingProfile` the ranking reads, with the checks of `__post_init__`. -/
structure RankingProfile {R : Type} [LinearOrder R] [Zero R] [One R] (floats : Floats R) where
  lexicalWeight : R
  vectorWeight : R
  recencyWeight : R
  confidenceWeight : R
  sourceQualityWeight : R
  recencyHalfLifeSeconds : ℕ
  diversityPenalty : R
  candidatePool : ℕ
  sourceQuality : List (PyStr × R)
  taintPolicy : List (PyStr × R)
  weights : ∀ w ∈ [lexicalWeight, vectorWeight, recencyWeight, confidenceWeight, sourceQualityWeight, diversityPenalty],
    floats.isFinite w = true ∧ 0 ≤ w
  bounds : 1 ≤ recencyHalfLifeSeconds ∧ 1 ≤ candidatePool ∧ candidatePool ≤ 100
  covers : ∀ name, name ∈ sourceQuality.map Prod.fst ↔ ∃ kind : SourceKind, name = py kind.value
  multipliers : ∀ pair ∈ sourceQuality ++ taintPolicy, floats.isFinite pair.2 = true ∧ 0 ≤ pair.2 ∧ pair.2 ≤ 1

theorem RankingProfile.quality_isSome [LinearOrder R] [Zero R] [One R] {floats : Floats R} (profile : RankingProfile floats)
    (kind : SourceKind) : ((tableOf profile.sourceQuality).get? (py kind.value)).isSome = true :=
  tableOf_isSome ((profile.covers _).mpr ⟨kind, rfl⟩)

variable [LinearOrder R] [Zero R] [One R] [Add R] [Mul R] [Div R] [NatCast R] {floats : Floats R}

section scores
variable (profile : RankingProfile floats) (now : Instant) (perSource : Dict PyStr ℕ) (c : RankCandidate R)

namespace RankingProfile

def quality (kind : SourceKind) : R := ((tableOf profile.sourceQuality).get? (py kind.value)).get (profile.quality_isSome kind)

/-- The smallest multiplier of the labels. -/
def policy (taintLabels : List PyStr) : R :=
  (taintLabels.map fun label => ((tableOf profile.taintPolicy).get? label).getD 1).min?.getD 1

/-- `1.0 / (1.0 + diversity_penalty * repeats)`. -/
def diversity (repeats : ℕ) : R := 1 / (1 + profile.diversityPenalty * (repeats : R))

end RankingProfile

/-- `per_source[source_ref]`. -/
def repeats : ℕ := (perSource.get? c.item.sourceRef).getD 0

structure Factors (R : Type) where
  lexical : R
  vector : R
  recency : R
  confidence : R
  sourceQuality : R
  policy : R

namespace Factors

def ofCandidate : Factors R where
  lexical := c.lexical.getD 0
  vector := c.vector.getD 0
  recency := floats.halfPower
    (max 0 (floats.totalSeconds (now - c.item.validFrom)) / (profile.recencyHalfLifeSeconds : R))
  confidence := floats.ofValue c.item.confidence
  sourceQuality := profile.quality c.item.sourceKind
  policy := profile.policy c.item.taintLabels

def relevance (f : Factors R) : R :=
  profile.lexicalWeight * f.lexical + profile.vectorWeight * f.vector + profile.recencyWeight * f.recency +
    profile.confidenceWeight * f.confidence + profile.sourceQualityWeight * f.sourceQuality

/-- `FACTOR_NAMES`, with their values. -/
def named (f : Factors R) (diversity : R) : List (String × R) :=
  [("lexical", f.lexical), ("vector", f.vector), ("recency", f.recency), ("confidence", f.confidence),
    ("source_quality", f.sourceQuality), ("diversity", diversity), ("policy", f.policy)]

end Factors

/-- `base[ref][0] * diversity`; the last candidate of a reference is also the one that remains. -/
def scoreAt : R :=
  let factors := Factors.ofCandidate profile now c
  factors.relevance profile * factors.policy * profile.diversity (repeats perSource c)

end scores

/-! ## The ranking -/

/-- A candidate, its score and its factors. -/
structure Ranked (R : Type) where
  candidate : RankCandidate R
  score : R
  factors : List (String × R)

def ranking (profile : RankingProfile floats) (now : Instant) (eligible : Eligibility) :
    GreedySelection PyStr (RankCandidate R) R (Dict PyStr ℕ) (Ranked R) PyError where
  score := scoreAt profile now
  accept := recheck eligible
  count perSource c := perSource.set c.item.sourceRef (repeats perSource c + 1)
  emit perSource c := ⟨c.validate, scoreAt profile now perSource c,
    (Factors.ofCandidate profile now c).named (profile.diversity (repeats perSource c))⟩

/-- `_rank`. -/
def rank (profile : RankingProfile floats) (now : Instant) (eligible : Eligibility) (topK : ℕ)
    (candidates : List (RankCandidate R)) : Except PyError (List (Ranked R)) :=
  (ranking profile now eligible).select topK .empty (remainingOf candidates)

/-! ## Dropping late -/

/-- **Dropping candidates when they are chosen ranks as if those that do not pass had been removed before, whether the
rest is checked again or not, if a candidate that passes is not followed by one of its reference that does not.** -/
theorem rank_drops_late : ∀ (R : Type) [LinearOrder R] [Zero R] [One R] [Add R] [Mul R] [Div R] [NatCast R] (floats : Floats R)
    (profile : RankingProfile floats) (now : Instant) (answer : PyStr → ℕ → Option SearchCandidate) (candidates : List (RankCandidate R)) (topK : ℕ),
    LastDecides answer candidates →
      ∃ ranked, rank profile now (fun id version => .ok (answer id version)) topK candidates = .ok ranked ∧
        rank profile now (fun id version => .ok (answer id version)) topK (candidates.filter (passes answer)) = .ok ranked ∧
        ∀ eligible, rank profile now eligible topK ((candidates.filter (passes answer)).map RankCandidate.validate) =
          .ok ranked := by
  intro R _ _ _ _ _ _ _ floats profile now answer candidates topK h
  have hdrops : ∀ (eligible : Eligibility) (mark : RankCandidate R → RankCandidate R),
      GreedySelection.Marks (ranking profile now fun id version => .ok (answer id version)) (ranking profile now eligible) mark →
      (∀ c, (mark c).ref = c.ref) → (∀ c, passes answer c = true → recheck eligible (mark c) = .ok true) →
      rank profile now (fun id version => .ok (answer id version)) topK candidates =
        rank profile now eligible topK ((candidates.filter (passes answer)).map mark) := by
    intro eligible mark hmarks href haccept
    refine GreedySelection.select_eq_of_keeps hmarks (fun p _ => recheck_answer p.2) (fun p hp => ?_)
      (keeps_filter h mark href) topK _
    obtain ⟨c, hc, hmark⟩ := List.mem_map.mp (mem_of_remaining hp)
    rw [← hmark]
    exact haccept c (List.mem_filter.mp hc).2
  obtain ⟨ranked, hranked⟩ : ∃ ranked, rank profile now (fun id version => .ok (answer id version)) topK candidates =
      .ok ranked := GreedySelection.run_returns (fun c => ⟨_, recheck_answer c⟩) _ _ _
  refine ⟨ranked, hranked, ?_, fun eligible => ?_⟩
  · have hagain := hdrops _ id ⟨fun _ _ => rfl, fun _ _ => rfl, fun _ _ => rfl⟩ (fun _ => rfl) fun c hc => by
      rw [id_eq, recheck_answer, hc]
    rw [← hranked, hagain, List.map_id]
  · rw [← hranked]
    exact (hdrops eligible RankCandidate.validate ⟨fun _ _ => rfl, fun _ _ => rfl, fun _ _ => rfl⟩ (fun _ => rfl)
      fun c _ => rfl).symm

/-! ## Two stages of one version -/

def rationals : Floats ℚ where
  isFinite _ := true
  halfPower x := (1 / 2) ^ x.num.toNat
  totalSeconds n := n / 1000000
  ofValue value := (value.integer?.getD 0 : ℤ)

/-- The default profile. -/
def balanced : RankingProfile rationals where
  lexicalWeight := 35 / 100
  vectorWeight := 35 / 100
  recencyWeight := 1 / 10
  confidenceWeight := 1 / 10
  sourceQualityWeight := 1 / 10
  recencyHalfLifeSeconds := 7 * 24 * 3600
  diversityPenalty := 1 / 2
  candidatePool := 16
  sourceQuality := [(py "DERIVED_SUMMARY", 6 / 10), (py "EVIDENCE", 1), (py "HUMAN_INPUT", 8 / 10),
    (py "MEMORY_CONSOLIDATION", 6 / 10), (py "MODEL_OUTPUT", 4 / 10), (py "OBSERVATION", 9 / 10), (py "PREFERENCE", 7 / 10),
    (py "PROCEDURE", 8 / 10), (py "TOOL_RESULT", 8 / 10)]
  taintPolicy := [(py "DERIVED", 1), (py "EXTERNAL_DATA", 1), (py "HUMAN_SUPPLIED", 1), (py "MODEL_GENERATED", 1 / 2),
    (py "TOOL_OUTPUT", 1)]
  weights := by decide +kernel
  bounds := by decide
  covers name := by
    constructor
    · intro h
      simp only [List.map_cons, List.map_nil, List.mem_cons, List.not_mem_nil, or_false] at h
      rcases h with h | h | h | h | h | h | h | h | h
      exacts [⟨.derivedSummary, h⟩, ⟨.evidence, h⟩, ⟨.humanInput, h⟩, ⟨.memoryConsolidation, h⟩, ⟨.modelOutput, h⟩,
        ⟨.observation, h⟩, ⟨.preference, h⟩, ⟨.procedure, h⟩, ⟨.toolResult, h⟩]
    · rintro ⟨kind, rfl⟩
      cases kind <;> decide
  multipliers := by decide +kernel

def rankedFields (memoryItemId : String) : MemoryFields where
  memoryItemId := py memoryItemId
  memoryVersion := 1
  memoryKind := .semantic
  memoryScope := .domain
  ownerPrincipalId := py "owner"
  tenantId := py "tenant"
  organizationId := py "org"
  domainId := py "domain"
  compartments := [py "alpha"]
  classificationMarkingRef := py "marking"
  purpose := py "analysis"
  contentSchemaRef := py "schema"
  contentRef := py "content"
  contentDigest := py "digest"
  sourceKind := .derivedSummary
  sourceRef := py "source"
  sourceDigest := py "digest"
  evidenceRefs := []
  provenanceRefs := [py "p1"]
  derivedFromRefs := []
  consolidatesRefs := []
  createdAt := 0
  validFrom := 0
  retentionPolicyRef := py "retention"
  confidence := .int 1
  policyBundleDigest := py "digest"
  ontologyReleaseDigest := py "digest"
  governedContextDigest := py "digest"
  instructionEligible := false
  taintLabels := [py "DERIVED"]
  representationKinds := [.structured]
  lifecycleStatus := .active

def rankedItem (memoryItemId : String) : GovernedMemoryItem := ⟨rankedFields memoryItemId, rfl⟩

/-- A committed stage of the first version of an item, not checked yet. -/
def stagedCandidate (memoryItemId auditRef : String) : RankCandidate ℚ :=
  let item := rankedItem memoryItemId
  let staged : StagedVersion := {
    memoryItemId := py memoryItemId
    memoryVersion := 1
    item := item
    itemDigest := py "digest"
    auditRef := py auditRef
    partition := MemoryPartition.forItem item
    contentObjectRef := py "object"
    pointers := []
    stagedAt := 0 }
  { stored := ⟨staged, .committed, some 0⟩, item := item, partition := MemoryPartition.forItem item, lexical := none,
    vector := none, validated := false }

/-- Only the first stage of the first item is eligible. -/
def firstOnly (memoryItemId : PyStr) (_ : ℕ) : Option SearchCandidate :=
  if memoryItemId = py "mem-1" then some (stagedCandidate "mem-1" "a").toSearchCandidate else none

theorem rank_drops_late_sample :
    ∃ ranked, rank balanced 0 (fun id version => .ok (firstOnly id version)) 2
        [stagedCandidate "mem-2" "a", stagedCandidate "mem-1" "a"] = .ok ranked ∧
      rank balanced 0 (fun id version => .ok (firstOnly id version)) 2
        ([stagedCandidate "mem-2" "a", stagedCandidate "mem-1" "a"].filter (passes firstOnly)) = .ok ranked ∧
      ∀ eligible, rank balanced 0 eligible 2
        (([stagedCandidate "mem-2" "a", stagedCandidate "mem-1" "a"].filter (passes firstOnly)).map RankCandidate.validate) =
          .ok ranked :=
  rank_drops_late ℚ rationals balanced 0 firstOnly [stagedCandidate "mem-2" "a", stagedCandidate "mem-1" "a"] 2
    (lastDecides_of_nodup (by decide))

theorem stageDigests : (stagedCandidate "mem-1" "a").stored.staged.stageDigest[11]? = some (codePoint 0x63) ∧
    (stagedCandidate "mem-1" "b").stored.staged.stageDigest[11]? = some (codePoint 0x32) := by
  constructor
  · decide +kernel
  · decide +kernel

theorem stages_differ : (stagedCandidate "mem-1" "a").stored.staged.stageDigest ≠
    (stagedCandidate "mem-1" "b").stored.staged.stageDigest := by
  intro h
  have hdigits := stageDigests.1
  rw [h, stageDigests.2] at hdigits
  exact absurd hdigits (by decide)

theorem passes_eq {R : Type} {answer : PyStr → ℕ → Option SearchCandidate} {c : RankCandidate R} {d : SearchCandidate}
    (hunchecked : c.validated = false)
    (hanswer : answer c.stored.staged.memoryItemId c.stored.staged.memoryVersion = some d) :
    passes answer c = decide (d.stored.staged.stageDigest = c.stored.staged.stageDigest) := by
  rw [passes, hunchecked, hanswer]
  rfl

theorem rank_last {c : RankCandidate R} {profile : RankingProfile floats} {k : PyStr}
    (h : (remainingOf candidates).entries = [(k, c)]) (now : Instant) :
    rank profile now (fun id version => .ok (answer id version)) 1 candidates =
      .ok (if passes answer c = true then [(ranking profile now fun id version => .ok (answer id version)).emit .empty c]
        else []) := by
  have hbest : (ranking profile now fun id version => .ok (answer id version)).best Dict.empty (remainingOf candidates) =
      some (k, c) := by
    rw [GreedySelection.best, h]
    rfl
  have haccept : (ranking profile now fun id version => .ok (answer id version)).accept c = .ok (passes answer c) :=
    recheck_answer c
  rw [rank, GreedySelection.select, h, List.length_singleton, GreedySelection.run, if_pos (show ([] : List (Ranked R)).length < 1 from Nat.one_pos), hbest]
  dsimp only
  rw [haccept]
  cases passes answer c <;> rfl

/-- The eligible stage of a version, then another stage of it: ranking drops both, and not only the second. -/
theorem rank_drops_both : ¬ ∀ (R : Type) [LinearOrder R] [Zero R] [One R] [Add R] [Mul R] [Div R] [NatCast R]
    (floats : Floats R) (profile : RankingProfile floats) (now : Instant) (answer : PyStr → ℕ → Option SearchCandidate)
    (candidates : List (RankCandidate R)) (topK : ℕ), (∀ c ∈ candidates, c.validated = false) →
      rank profile now (fun id version => .ok (answer id version)) topK candidates =
        rank profile now (fun id version => .ok (answer id version)) topK (candidates.filter (passes answer)) := by
  intro h
  let first := stagedCandidate "mem-1" "a"
  let second := stagedCandidate "mem-1" "b"
  have hsame := h ℚ rationals balanced 0 firstOnly [first, second] 1 fun c hc => by
    rcases List.mem_pair.mp hc with rfl | rfl <;> rfl
  have hanswer : firstOnly (py "mem-1") 1 = some first.toSearchCandidate := if_pos rfl
  have hfirst : passes firstOnly first = true := (passes_eq rfl hanswer).trans (decide_eq_true rfl)
  have hsecond : passes firstOnly second = false := (passes_eq rfl hanswer).trans (decide_eq_false stages_differ)
  have hkept : [first, second].filter (passes firstOnly) = [first] := by
    rw [List.filter_cons_of_pos hfirst, List.filter_cons_of_neg (by rw [hsecond]; decide), List.filter_nil]
  have hboth : (remainingOf [first, second]).entries = [(second.ref, second)] := by
    have hput : (remainingOf [first, second]).entries = Dict.put second.ref second [(first.ref, first)] := rfl
    rw [hput, Dict.put, if_pos (show first.ref = second.ref from rfl)]
  have hone : (remainingOf [first]).entries = [(first.ref, first)] := rfl
  rw [hkept, rank_last hboth, rank_last hone, hfirst, hsecond] at hsame
  cases hsame

end OcorRuntime.Memory

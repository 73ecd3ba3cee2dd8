import OcorRuntime.Foundations.WidenedPages
import OcorRuntime.Memory.BoundCandidates
import OcorRuntime.Memory.Ranking

/-! The candidate pool of a search (`memory/retrieval.py`): every partition is asked for its best
hits, more of them as long as too few are eligible and up to a bound, and the pool is the best of
what the partitions gave. -/
namespace OcorRuntime.Memory
open Canonical Kernel
set_option autoImplicit false
set_option maxHeartbeats 250000

/-! ## Hits -/

section judged
variable (eligible : Eligibility) (expectedVersion : PyStr)

/-- What `_index_pool` does with a hit of a version that it has not seen. -/
def judgeHit (hit : BoundHit) : Except PyError (Option (SearchCandidate × Binary64)) := do
  refuseIf (hit.representationVersion ≠ expectedVersion)
    (retrievalError "REPRESENTATION_NOT_READY" "REPRESENTATION_VERSION_MISMATCH"
      "an index hit is not of the pinned representation version")
  let (memoryItemId, memoryVersion) ← parseMemoryVersionRef hit.memoryVersionRef
  let candidate ← eligible memoryItemId memoryVersion
  return (candidate.filter fun c => c.stored.staged.itemDigest = hit.itemDigest).map fun c => (c, hit.score)

/-- The eligible candidates of a ranking, each version once. -/
def eligibleEntries (ranking : List BoundHit) : List (SearchCandidate × Binary64) :=
  (PagedScan.firsts BoundHit.memoryVersionRef [] ranking).filterMap fun hit =>
    (judgeHit eligible expectedVersion hit).toOption.join

/-- The hits of a ranking that are dropped because they are not eligible, each version once. -/
def droppedHits (ranking : List BoundHit) : List BoundHit :=
  (PagedScan.firsts BoundHit.memoryVersionRef [] ranking).filter fun hit =>
    match judgeHit eligible expectedVersion hit with
    | .ok none => true
    | _ => false

variable {eligible expectedVersion}

theorem judgeHit_score {hit : BoundHit} {entry : SearchCandidate × Binary64}
    (h : (judgeHit eligible expectedVersion hit).toOption.join = some entry) : entry.2 = hit.score := by
  cases hjudge : judgeHit eligible expectedVersion hit with
  | error e =>
    rw [hjudge] at h
    cases h
  | ok verdict =>
    rw [hjudge] at h
    have hverdict : verdict = some entry := h
    obtain ⟨-, hrest⟩ := check_bind_eq_ok.1 hjudge
    obtain ⟨⟨memoryItemId, memoryVersion⟩, -, hrest⟩ := bind_eq_ok.1 hrest
    obtain ⟨candidate, -, hreturn⟩ := bind_eq_ok.1 hrest
    rw [← Except.ok.inj hreturn] at hverdict
    obtain ⟨c, -, rfl⟩ := Option.map_eq_some_iff.mp hverdict
    rfl

theorem droppedHits_length_le (ranking : List BoundHit) :
    (droppedHits eligible expectedVersion ranking).length ≤ ranking.length :=
  (List.length_filter_le _ _).trans (PagedScan.firsts_sublist _ _ _).length_le

end judged

/-! ## Order -/

section order
variable {R : Type} [LinearOrder R] (floats : Floats R)

/-- A candidate's score among the floats. -/
def scoreOf (entry : SearchCandidate × Binary64) : R := floats.ofValue (.float entry.2)

/-- The order of the pool: by falling scores, then by references. -/
def Precedes (a b : SearchCandidate × Binary64) : Prop :=
  scoreOf floats b < scoreOf floats a ∨ (scoreOf floats a = scoreOf floats b ∧
    a.1.stored.staged.memoryVersionRef ≤ b.1.stored.staged.memoryVersionRef)

instance (a b : SearchCandidate × Binary64) : Decidable (Precedes floats a b) := inferInstanceAs (Decidable (_ ∨ _))

/-- The scores of a ranking do not rise. -/
def Descending (ranking : List BoundHit) : Prop :=
  ranking.Pairwise fun a b => floats.ofValue (.float b.score) ≤ floats.ofValue (.float a.score)

variable {floats}

theorem Precedes.score_le {a b : SearchCandidate × Binary64} (h : Precedes floats a b) : scoreOf floats b ≤ scoreOf floats a :=
  h.elim le_of_lt fun h => h.1.ge

instance : Std.Total (Precedes floats) where
  total a b := by
    rcases lt_trichotomy (scoreOf floats a) (scoreOf floats b) with h | h | h
    · exact .inr (.inl h)
    · exact (le_total a.1.stored.staged.memoryVersionRef b.1.stored.staged.memoryVersionRef).imp (fun hle => .inr ⟨h, hle⟩)
        fun hle => .inr ⟨h.symm, hle⟩
    · exact .inl (.inl h)

instance : IsTrans _ (Precedes floats) where
  trans a b c := by
    rintro (hab | ⟨hab, href⟩) (hbc | ⟨hbc, href'⟩)
    · exact .inl (hbc.trans hab)
    · exact .inl (hbc ▸ hab)
    · exact .inl (hab ▸ hbc)
    · exact .inr ⟨hab.trans hbc, href.trans href'⟩

theorem eligibleEntries_descending {eligible : Eligibility} {expectedVersion : PyStr} {ranking : List BoundHit}
    (h : Descending floats ranking) :
    (eligibleEntries eligible expectedVersion ranking).Pairwise fun a b => scoreOf floats b ≤ scoreOf floats a := by
  refine List.Pairwise.filterMap _ (fun a b hab entry hentry entry' hentry' => ?_) (h.sublist (PagedScan.firsts_sublist _ _ _))
  rw [scoreOf, scoreOf, judgeHit_score hentry, judgeHit_score hentry']
  exact hab

end order

/-! ## The pool -/

/-- What of `RetrievalLimits` the pool depends on, with the checks of `__post_init__`. -/
structure RetrievalLimits where
  maxTopK : ℕ := 100
  maxCandidates : ℕ := 128
  valid : (1 ≤ maxTopK ∧ maxTopK ≤ 100) ∧ 1 ≤ maxCandidates

/-- What is raised: the error that was met, or that of a partition that reached the bound. -/
def poolError : WidenedPages.Stop PyError → PyError
  | .failed e => e
  | .exceeded => retrievalError "REPRESENTATION_NOT_READY" "RETRIEVAL_BACKPRESSURE"
      "candidate pool exceeds the configured bound"

section pool
variable {R : Type} [LinearOrder R] [Zero R] [One R] {floats : Floats R} (limits : RetrievalLimits)
  (profile : RankingProfile floats) (topK : ℕ) (eligible : Eligibility) (expectedVersion : PyStr)

/-- `_pool`. -/
def poolSize : ℕ := max topK profile.candidatePool

/-- The candidates of one partition: as many as the pool holds, from at most `max_candidates` hits. -/
def widening : WidenedPages BoundHit (SearchCandidate × Binary64) PyStr PyError where
  key := BoundHit.memoryVersionRef
  judge := judgeHit eligible expectedVersion
  places := poolSize profile topK
  bound := limits.maxCandidates
  places_pos := profile.bounds.2.1.trans (le_max_right _ _)
  bound_pos := limits.valid.2

variable (partitions : List MemoryPartition) (fetch : MemoryPartition → ℕ → Except PyError (List BoundHit)) (fuel : ℕ)

/-- The pool, or how collecting it stops; `none` when the fuel does not last. -/
def poolOutcome : Option (Except (WidenedPages.Stop PyError) (List (SearchCandidate × Binary64))) :=
  ((widening limits profile topK eligible expectedVersion).gather fetch fuel partitions).map fun outcome =>
    outcome.map fun found => (found.insertionSort (Precedes floats)).take (poolSize profile topK)

/-- `_index_pool`. -/
def indexPool : Option (Except PyError (List (SearchCandidate × Binary64))) :=
  (poolOutcome limits profile topK eligible expectedVersion partitions fetch fuel).map fun outcome =>
    outcome.mapError poolError

end pool

/-! ## What the pool is -/

/-- Each partition answers with the beginning of its ranking. -/
def rankedFetch (rankings : MemoryPartition → List BoundHit) (partition : MemoryPartition) (limit : ℕ) :
    Except PyError (List BoundHit) := WidenedPages.beginnings (rankings partition) limit

variable {R : Type} [LinearOrder R] [Zero R] [One R] {floats : Floats R}

/-- Collecting comes to an end, the pool is the best of all that is eligible, and backpressure is raised only if of some
partition more hits are dropped than the bound. -/
structure PoolGuarantee (limits : RetrievalLimits) (profile : RankingProfile floats) (topK : ℕ) (eligible : Eligibility)
    (expectedVersion : PyStr) (partitions : List MemoryPartition) (rankings : MemoryPartition → List BoundHit)
    (dropped : List BoundHit → List BoundHit) : Prop where
  ends : ∃ fuel outcome,
    indexPool limits profile topK eligible expectedVersion partitions (rankedFetch rankings) fuel = some outcome
  results : ∀ fuel results,
    indexPool limits profile topK eligible expectedVersion partitions (rankedFetch rankings) fuel = some (.ok results) →
      WidenedPages.IsTop (poolSize profile topK) (scoreOf floats)
        (partitions.flatMap fun partition => eligibleEntries eligible expectedVersion (rankings partition)) results ∧
      results.Pairwise (Precedes floats)
  backpressure : ∀ fuel, poolOutcome limits profile topK eligible expectedVersion partitions (rankedFetch rankings) fuel =
      some (.error .exceeded) →
    ∃ partition ∈ partitions, limits.maxCandidates < (dropped (rankings partition)).length

variable {limits : RetrievalLimits} {profile : RankingProfile floats} {topK : ℕ} {eligible : Eligibility}
  {expectedVersion : PyStr} {partitions : List MemoryPartition} {rankings : MemoryPartition → List BoundHit}

theorem indexPool_ends (limits : RetrievalLimits) (profile : RankingProfile floats) (topK : ℕ) (eligible : Eligibility)
    (expectedVersion : PyStr) (partitions : List MemoryPartition) (rankings : MemoryPartition → List BoundHit) :
    ∃ fuel outcome,
      indexPool limits profile topK eligible expectedVersion partitions (rankedFetch rankings) fuel = some outcome := by
  obtain ⟨outcome, h⟩ : ∃ outcome, (widening limits profile topK eligible expectedVersion).gather (rankedFetch rankings)
      (limits.maxCandidates + 1) partitions = some outcome := WidenedPages.gather_ends rankings partitions
  exact ⟨limits.maxCandidates + 1, _, by rw [indexPool, poolOutcome, h]; rfl⟩

theorem indexPool_results (hranked : ∀ partition ∈ partitions, Descending floats (rankings partition)) {fuel : ℕ}
    {results : List (SearchCandidate × Binary64)}
    (h : indexPool limits profile topK eligible expectedVersion partitions (rankedFetch rankings) fuel = some (.ok results)) :
    WidenedPages.IsTop (poolSize profile topK) (scoreOf floats)
      (partitions.flatMap fun partition => eligibleEntries eligible expectedVersion (rankings partition)) results ∧
    results.Pairwise (Precedes floats) := by
  obtain ⟨outcome, houtcome, hresults⟩ := Option.map_eq_some_iff.mp h
  obtain ⟨gathered, hgather, rfl⟩ := Option.map_eq_some_iff.mp houtcome
  cases gathered with
  | error stop => cases hresults
  | ok found =>
    cases hresults
    have hsorted := List.pairwise_insertionSort (Precedes floats) found
    have hfound : found = partitions.flatMap fun partition =>
        (eligibleEntries eligible expectedVersion (rankings partition)).take (poolSize profile topK) :=
      WidenedPages.gather_results hgather
    refine ⟨WidenedPages.isTop_take (fun partition hp => eligibleEntries_descending (hranked partition hp)) ?_
      (hsorted.imp Precedes.score_le), hsorted.sublist (List.take_sublist _ _)⟩
    rw [← hfound]
    exact List.perm_insertionSort _ _

theorem poolOutcome_exceeded_iff :
    (∃ fuel, poolOutcome limits profile topK eligible expectedVersion partitions (rankedFetch rankings) fuel =
      some (.error .exceeded)) ↔ (widening limits profile topK eligible expectedVersion).Refused rankings partitions := by
  constructor
  · rintro ⟨fuel, h⟩
    obtain ⟨gathered, hgather, hstop⟩ := Option.map_eq_some_iff.mp h
    cases gathered with
    | error stop =>
      cases hstop
      exact WidenedPages.gather_exceeded hgather
    | ok found => cases hstop
  · intro h
    have hgather : (widening limits profile topK eligible expectedVersion).gather (rankedFetch rankings)
        (limits.maxCandidates + 1) partitions = some (.error .exceeded) := WidenedPages.gather_of_refused h
    exact ⟨limits.maxCandidates + 1, by rw [poolOutcome, hgather]; rfl⟩

theorem poolGuarantee_iff (hranked : ∀ partition ∈ partitions, Descending floats (rankings partition))
    (dropped : List BoundHit → List BoundHit) :
    PoolGuarantee limits profile topK eligible expectedVersion partitions rankings dropped ↔
      (¬ (widening limits profile topK eligible expectedVersion).Refused rankings partitions ∨
        ∃ partition ∈ partitions, limits.maxCandidates < (dropped (rankings partition)).length) := by
  rw [← poolOutcome_exceeded_iff, ← imp_iff_not_or]
  constructor
  · rintro h ⟨fuel, hexceeded⟩
    exact h.backpressure fuel hexceeded
  · intro h
    exact ⟨indexPool_ends _ _ _ _ _ _ _, fun fuel results => indexPool_results hranked, fun fuel hexceeded => h ⟨fuel, hexceeded⟩⟩

/-- **The pool is as it is meant to be exactly if no partition is met, before an error, whose first hits up to the bound
are that many and hold fewer eligible versions than the pool has places. Counting hits that are never fetched as dropped,
it also is if a partition has more of them than the bound.** -/
theorem index_pool_bounded : ∀ (R : Type) [LinearOrder R] [Zero R] [One R] (floats : Floats R) (limits : RetrievalLimits)
    (profile : RankingProfile floats) (topK : ℕ) (eligible : Eligibility) (expectedVersion : PyStr)
    (partitions : List MemoryPartition) (rankings : MemoryPartition → List BoundHit),
    (∀ partition ∈ partitions, Descending floats (rankings partition)) →
      (PoolGuarantee limits profile topK eligible expectedVersion partitions rankings
          (fun ranking => droppedHits eligible expectedVersion (ranking.take limits.maxCandidates)) ↔
        ¬ (widening limits profile topK eligible expectedVersion).Refused rankings partitions) ∧
      (PoolGuarantee limits profile topK eligible expectedVersion partitions rankings (droppedHits eligible expectedVersion) ↔
        (¬ (widening limits profile topK eligible expectedVersion).Refused rankings partitions ∨
          ∃ partition ∈ partitions, limits.maxCandidates < (droppedHits eligible expectedVersion (rankings partition)).length)) := by
  intro R _ _ _ floats limits profile topK eligible expectedVersion partitions rankings hranked
  refine ⟨?_, poolGuarantee_iff hranked _⟩
  rw [poolGuarantee_iff hranked, or_iff_left]
  rintro ⟨partition, -, hdropped⟩
  have hle := (hdropped.trans_le (droppedHits_length_le _)).trans_le (List.length_take_le _ _)
  exact lt_irrefl _ hle

/-! ## A bound below the pool -/

/-- A hit of the first item. -/
def sampleHit : BoundHit where
  memoryVersionRef := py "urn:ocor:memory:mem-1:v1"
  itemDigest := py "digest"
  contentDigest := py "digest"
  storeRef := py "store"
  representationKind := py "FULL_TEXT"
  representationVersion := py "version"
  classificationMarkingRef := py "marking"
  score := Binary64.ofInt 1

def sampleEligibility : Eligibility := fun memoryItemId version => .ok (firstOnly memoryItemId version)

/-- One eligible hit, with room for it and with a bound of one hit. -/
theorem index_pool_bounded_sample :
    (PoolGuarantee ⟨100, 128, by decide⟩ balanced 1 sampleEligibility (py "version") [samplePartition]
        (fun _ => [sampleHit]) (fun ranking => droppedHits sampleEligibility (py "version") (ranking.take 128)) ↔
      ¬ (widening ⟨100, 128, by decide⟩ balanced 1 sampleEligibility (py "version")).Refused (fun _ => [sampleHit])
        [samplePartition]) ∧
    (PoolGuarantee ⟨100, 128, by decide⟩ balanced 1 sampleEligibility (py "version") [samplePartition]
        (fun _ => [sampleHit]) (droppedHits sampleEligibility (py "version")) ↔
      (¬ (widening ⟨100, 128, by decide⟩ balanced 1 sampleEligibility (py "version")).Refused (fun _ => [sampleHit])
          [samplePartition] ∨
        ∃ partition ∈ [samplePartition], 128 < (droppedHits sampleEligibility (py "version") [sampleHit]).length)) :=
  index_pool_bounded ℚ rationals ⟨100, 128, by decide⟩ balanced 1 sampleEligibility (py "version") [samplePartition]
    (fun _ => [sampleHit]) fun _ _ => List.pairwise_singleton _ _

theorem sampleHit_collected : ∃ results,
    (widening ⟨100, 1, by decide⟩ balanced 1 sampleEligibility (py "version")).collect [sampleHit] [] = .ok results ∧
      results.length ≤ 1 := by
  have hparse : parseMemoryVersionRef sampleHit.memoryVersionRef = .ok (py "mem-1", 1) := by decide
  have hjudge : judgeHit sampleEligibility (py "version") sampleHit = .ok _ :=
    check_bind_eq_ok.2 ⟨refuseIf_eq_ok.2 (not_not.mpr rfl),
      bind_eq_ok.2 ⟨_, hparse, bind_eq_ok.2 ⟨_, rfl, rfl⟩⟩⟩
  have hcollect : (widening ⟨100, 1, by decide⟩ balanced 1 sampleEligibility (py "version")).collect [sampleHit] [] =
      .ok _ := except_bind_eq_ok.2 ⟨_, hjudge, except_bind_eq_ok.2 ⟨[], rfl, rfl⟩⟩
  refine ⟨_, hcollect, ?_⟩
  rw [List.append_nil]
  exact Option.length_toList_le

/-- With a bound of one hit and a pool of sixteen, one eligible hit is refused, and nothing was dropped. -/
theorem pool_refused_undropped : ¬ ∀ (R : Type) [LinearOrder R] [Zero R] [One R] (floats : Floats R)
    (limits : RetrievalLimits) (profile : RankingProfile floats) (topK : ℕ) (eligible : Eligibility) (expectedVersion : PyStr)
    (partitions : List MemoryPartition) (rankings : MemoryPartition → List BoundHit),
    (∀ partition ∈ partitions, Descending floats (rankings partition)) →
      PoolGuarantee limits profile topK eligible expectedVersion partitions rankings (droppedHits eligible expectedVersion) := by
  intro h
  have hguarantee := h ℚ rationals ⟨100, 1, by decide⟩ balanced 1 sampleEligibility (py "version") [samplePartition]
    (fun _ => [sampleHit]) fun _ _ => List.pairwise_singleton _ _
  obtain ⟨results, hcollect, hlen⟩ := sampleHit_collected
  have hoverflows : (widening ⟨100, 1, by decide⟩ balanced 1 sampleEligibility (py "version")).Overflows [sampleHit] :=
    ⟨le_rfl, results, hcollect, hlen.trans_lt (by decide)⟩
  have hrefused : (widening ⟨100, 1, by decide⟩ balanced 1 sampleEligibility (py "version")).Refused (fun _ => [sampleHit])
      [samplePartition] := ⟨[], samplePartition, [], rfl, fun q hq => absurd hq List.not_mem_nil, hoverflows⟩
  obtain ⟨fuel, hexceeded⟩ := poolOutcome_exceeded_iff.2 hrefused
  obtain ⟨partition, -, hdropped⟩ := hguarantee.backpressure fuel hexceeded
  exact absurd (hdropped.trans_le (droppedHits_length_le [sampleHit])) (lt_irrefl 1)

end OcorRuntime.Memory

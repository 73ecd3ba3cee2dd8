import OcorRuntime.Projection.Drift

/-! Rebuilds beside an honest projector: the projection is written by rebuilds and by a
projector that applies canonical commits in commit order, and may lag behind them. -/
namespace OcorRuntime.Projection.Detector
open Kernel
set_option autoImplicit false
set_option maxHeartbeats 250000

/-- The `apply_commit` call that projects a canonical commit. -/
def projected (c : CanonicalCommit) : Commit := ⟨c.aggregateRef, c.commitId, c.stateDigest⟩

/-- The detector, and how far the projector has come in the canonical log. -/
structure Tracked where
  detector : Detector
  position : ℕ

inductive Action
  | commit (c : CanonicalCommit)
  /-- The projector applies the canonical commit of this index. -/
  | project (index : ℕ)
  | rebuild (tenantId aggregateType aggregateRef : PyStr)

/-- A commit id is taken once; the projector never turns back. -/
def act (t : Tracked) : Action → Tracked
  | .commit c =>
    if c.commitId ∈ t.detector.canonical.map CanonicalCommit.commitId then t
    else { t with detector := t.detector.step (.commit c) }
  | .project index =>
    match t.detector.canonical[index]? with
    | none => t
    | some c =>
      if t.position ≤ index then ⟨t.detector.step (.apply (projected c)), index + 1⟩ else t
  | .rebuild tenantId aggregateType aggregateRef =>
    { t with detector := t.detector.step (.rebuild tenantId aggregateType aggregateRef) }

/-- The detector after the actions, from empty stores. -/
def afterActions (actions : List Action) : Detector := (run act ⟨initial, 0⟩ actions).detector

/-! ## What every run keeps -/

structure Sound (s : Detector) : Prop where
  distinct : (s.canonical.map CanonicalCommit.commitId).Nodup
  written : ∀ factId fact, s.projection.facts.get? factId = some fact → fact.commitId ≠ []

theorem written_of_applied {d d' : Database} {c : Commit} (h : Database.Applied d d' c) (hc : c.commitId ≠ [])
    (hd : ∀ factId fact, d.facts.get? factId = some fact → fact.commitId ≠ []) :
    ∀ factId fact, d'.facts.get? factId = some fact → fact.commitId ≠ [] := by
  intro factId fact hfact
  rw [h.facts] at hfact
  split_ifs at hfact with hsame
  · cases hfact
    exact hc
  · exact hd factId fact hfact

theorem sound_apply {s : Detector} (h : Sound s) (c : Commit) : Sound (s.step (.apply c)) := by
  refine ⟨h.distinct, ?_⟩
  by_cases hc : Database.Accepted c
  · exact written_of_applied (Database.applyOrRefuse_of_accepted hc s.projection) hc.1.2.1 h.written
  · intro factId fact hfact
    rw [step, Database.applyOrRefuse_of_not_accepted hc] at hfact
    exact h.written factId fact hfact

theorem peek_of_sound {s : Detector} (h : Sound s) {aggregateRef : PyStr} (href : aggregateRef ≠ [] ∧ Scalar aggregateRef) :
    peekServedPayloadDigest s.projection aggregateRef =
      .ok ((s.projection.facts.get? aggregateRef).map fun fact => Database.servedDigest fact.payload) := by
  cases hfact : s.projection.facts.get? aggregateRef with
  | none => exact peek_of_none href hfact
  | some fact => exact peek_of_fact href hfact (h.written aggregateRef fact hfact)

section Rebuild
variable {s : Detector} {tenantId aggregateType aggregateRef : PyStr} {canonical : CanonicalCommit}

theorem ref_of_canonicalOf (h : s.canonicalOf tenantId aggregateType aggregateRef = some canonical) :
    aggregateRef ≠ [] ∧ Scalar aggregateRef := by
  rw [← (canonicalOf_ref h).2]
  exact canonical.located

theorem rebuild_of_lagging (h : Sound s) (hcanonical : s.canonicalOf tenantId aggregateType aggregateRef = some canonical)
    {fact : Fact} (hfact : s.projection.facts.get? aggregateRef = some fact)
    (hlag : Database.servedDigest fact.payload ≠ Database.servedDigest canonical.stateDigest) :
    (rebuild tenantId aggregateType aggregateRef s).2 = { s with quarantined := insert aggregateRef s.quarantined } := by
  have hpeek := peek_of_sound h (ref_of_canonicalOf hcanonical)
  rw [hfact] at hpeek
  rw [rebuild_of_drift hcanonical hpeek hlag]

theorem rebuild_of_current (h : Sound s) (hcanonical : s.canonicalOf tenantId aggregateType aggregateRef = some canonical)
    (hcurrent : ∀ fact, s.projection.facts.get? aggregateRef = some fact →
      Database.servedDigest fact.payload = Database.servedDigest canonical.stateDigest) :
    ∃ projection, Database.Applied s.projection projection ⟨aggregateRef, canonical.commitId, canonical.stateDigest⟩ ∧
      (rebuild tenantId aggregateType aggregateRef s).2 =
        { s with projection := projection, quarantined := s.quarantined.erase aggregateRef } := by
  have hpeek := peek_of_sound h (ref_of_canonicalOf hcanonical)
  have hmatch : ∀ digest ∈ (s.projection.facts.get? aggregateRef).map fun fact => Database.servedDigest fact.payload,
      digest = Database.servedDigest canonical.stateDigest := by
    intro digest hdigest
    obtain ⟨fact, hfact, rfl⟩ := Option.map_eq_some_iff.mp hdigest
    exact hcurrent fact hfact
  obtain ⟨projection, happlied, hrebuild⟩ := rebuild_of_match hcanonical hpeek hmatch
  exact ⟨projection, happlied, by rw [hrebuild]⟩

theorem sound_rebuild (h : Sound s) (tenantId aggregateType aggregateRef : PyStr) :
    Sound (s.step (.rebuild tenantId aggregateType aggregateRef)) := by
  rw [step]
  cases hcanonical : s.canonicalOf tenantId aggregateType aggregateRef with
  | none =>
    have hrefused : (rebuild tenantId aggregateType aggregateRef s).2 = s := by
      simp [rebuild, hcanonical, orRaise]
    rwa [hrefused]
  | some canonical =>
    by_cases hcurrent : ∀ fact, s.projection.facts.get? aggregateRef = some fact →
        Database.servedDigest fact.payload = Database.servedDigest canonical.stateDigest
    · obtain ⟨projection, happlied, hstate⟩ := rebuild_of_current h hcanonical hcurrent
      rw [hstate]
      exact ⟨h.distinct, written_of_applied happlied canonical.identified.1 h.written⟩
    · push Not at hcurrent
      obtain ⟨fact, hfact, hlag⟩ := hcurrent
      rw [rebuild_of_lagging h hcanonical hfact hlag]
      exact ⟨h.distinct, h.written⟩

end Rebuild

theorem sound_act {t : Tracked} (h : Sound t.detector) (action : Action) : Sound (act t action).detector := by
  cases action with
  | commit c =>
    rw [act]
    split_ifs with hused
    · exact h
    · refine ⟨?_, h.written⟩
      rw [step, List.map_append, List.nodup_append]
      refine ⟨h.distinct, List.nodup_singleton _, ?_⟩
      intro a ha b hb
      rw [List.map_singleton, List.mem_singleton] at hb
      rintro rfl
      exact hused (hb ▸ ha)
  | project index =>
    rw [act]
    split
    · exact h
    · split_ifs
      · exact sound_apply h _
      · exact h
  | rebuild tenantId aggregateType aggregateRef => exact sound_rebuild h tenantId aggregateType aggregateRef

theorem sound_afterActions (actions : List Action) : Sound (afterActions actions) := by
  have hstep : ∀ (t : Tracked) (action : Action), Sound t.detector → Sound (act t action).detector :=
    fun _ action h => sound_act h action
  have hstart : Sound initial := ⟨List.nodup_nil, fun _ _ h => by cases h⟩
  exact run_induction hstep hstart actions

/-! ## When a rebuild reconciles -/

/-- `b` was committed after `a`. -/
def Later (log : List CanonicalCommit) (a b : CanonicalCommit) : Prop :=
  ∃ i j : ℕ, i < j ∧ log[i]? = some a ∧ log[j]? = some b

/-- The rebuild clears the aggregate, serves its current state and does not turn the watermark back. -/
structure Reconciles (s : Detector) (tenantId aggregateType aggregateRef : PyStr) (canonical : CanonicalCommit) : Prop where
  cleared : aggregateRef ∉ (rebuild tenantId aggregateType aggregateRef s).2.quarantined
  served : peekServedPayloadDigest (rebuild tenantId aggregateType aggregateRef s).2.projection aggregateRef =
    .ok (some (Database.servedDigest canonical.stateDigest))
  forward : ∀ a b, Later s.canonical a b → s.projection.currentWatermark = some b.commitId →
    (rebuild tenantId aggregateType aggregateRef s).2.projection.currentWatermark ≠ some a.commitId

/-- The projection has no fact of the aggregate or serves its current state, and its watermark is no later commit. -/
structure UpToDate (s : Detector) (aggregateRef : PyStr) (canonical : CanonicalCommit) : Prop where
  digest : ∀ fact, s.projection.facts.get? aggregateRef = some fact →
    Database.servedDigest fact.payload = Database.servedDigest canonical.stateDigest
  watermark : ∀ b, Later s.canonical canonical b → s.projection.currentWatermark ≠ some b.commitId

theorem eq_of_later {s : Detector} (h : Sound s) {a b canonical : CanonicalCommit} (hlater : Later s.canonical a b)
    (hmem : canonical ∈ s.canonical) (hid : canonical.commitId = a.commitId) : canonical = a := by
  obtain ⟨i, -, -, ha, -⟩ := hlater
  exact List.inj_on_of_nodup_map h.distinct hmem (List.mem_of_getElem? ha) hid

/-- **When a rebuild reconciles.** In every run in which only rebuilds and an honest projector write the projection, the
rebuild of an aggregate with a canonical commit reconciles it exactly when the projection was not behind on it. -/
theorem rebuild_reconciles_iff (actions : List Action) (tenantId aggregateType aggregateRef : PyStr)
    (canonical : CanonicalCommit)
    (hcanonical : (afterActions actions).canonicalOf tenantId aggregateType aggregateRef = some canonical) :
    Reconciles (afterActions actions) tenantId aggregateType aggregateRef canonical ↔
      UpToDate (afterActions actions) aggregateRef canonical := by
  have hsound := sound_afterActions actions
  generalize afterActions actions = s at hcanonical hsound ⊢
  constructor
  · intro h
    have hdigest : ∀ fact, s.projection.facts.get? aggregateRef = some fact →
        Database.servedDigest fact.payload = Database.servedDigest canonical.stateDigest := by
      intro fact hfact
      by_contra hlag
      have hcleared := h.cleared
      rw [rebuild_of_lagging hsound hcanonical hfact hlag] at hcleared
      exact hcleared (Finset.mem_insert_self _ _)
    refine ⟨hdigest, fun b hlater hmark => ?_⟩
    obtain ⟨projection, happlied, hstate⟩ := rebuild_of_current hsound hcanonical hdigest
    have hforward := h.forward canonical b hlater hmark
    rw [hstate] at hforward
    exact hforward (by rw [Database.currentWatermark, happlied.watermarks]; rfl)
  · intro h
    obtain ⟨projection, happlied, hstate⟩ := rebuild_of_current hsound hcanonical h.digest
    refine ⟨?_, ?_, ?_⟩
    · rw [hstate]
      exact Finset.notMem_erase _ _
    · rw [hstate]
      have hfact := happlied.facts aggregateRef
      rw [if_pos rfl] at hfact
      have hpeek := peek_of_fact (ref_of_canonicalOf hcanonical) hfact canonical.identified.1
      exact hpeek
    · intro a b hlater hmark hback
      rw [hstate, Database.currentWatermark, happlied.watermarks] at hback
      have hsame := eq_of_later hsound hlater (canonicalOf_ref hcanonical).1 (Option.some.inj hback)
      exact h.watermark b (hsame ▸ hlater) hmark

theorem fact_named : py "fact-1" ≠ [] ∧ Scalar (py "fact-1") := by decide

def secondCanonical : CanonicalCommit :=
  sampleCanonical "fact-1" "commit-2" (codePoint 0x31) fact_named (by decide) (by decide)

def otherCanonical : CanonicalCommit :=
  sampleCanonical "fact-2" "commit-3" (codePoint 0x32) (by decide) (by decide) (by decide)

/-- The first rebuild of an aggregate that was never projected. -/
theorem rebuild_reconciles_first :
    (afterActions [.commit firstCanonical]).canonicalOf (py "tenant") (py "MissionObject") (py "fact-1") =
        some firstCanonical ∧
      Reconciles (afterActions [.commit firstCanonical]) (py "tenant") (py "MissionObject") (py "fact-1")
        firstCanonical := by
  refine ⟨rfl, (rebuild_reconciles_iff _ _ _ _ _ rfl).mpr ⟨?_, ?_⟩⟩
  · intro fact hfact
    cases hfact
  · intro b _ hmark
    cases hmark

/-- A commit that is not projected yet, and a commit of another aggregate that is. -/
theorem lagging_rebuild_does_not_reconcile :
    (¬ ∀ (actions : List Action) (tenantId aggregateType aggregateRef : PyStr) (canonical : CanonicalCommit),
      (afterActions actions).canonicalOf tenantId aggregateType aggregateRef = some canonical →
      aggregateRef ∉ (rebuild tenantId aggregateType aggregateRef (afterActions actions)).2.quarantined) ∧
    ¬ ∀ (actions : List Action) (tenantId aggregateType aggregateRef : PyStr) (canonical a b : CanonicalCommit),
      (afterActions actions).canonicalOf tenantId aggregateType aggregateRef = some canonical →
      Later (afterActions actions).canonical a b →
      (afterActions actions).projection.currentWatermark = some b.commitId →
      (rebuild tenantId aggregateType aggregateRef (afterActions actions)).2.projection.currentWatermark ≠
        some a.commitId := by
  constructor
  · intro h
    have hcanonical : (afterActions [.commit firstCanonical, .project 0, .commit secondCanonical]).canonicalOf
        (py "tenant") (py "MissionObject") (py "fact-1") = some secondCanonical := rfl
    have hfact : (afterActions [.commit firstCanonical, .project 0, .commit secondCanonical]).projection.facts.get?
        (py "fact-1") = some ⟨firstCanonical.commitId, firstCanonical.stateDigest⟩ := by decide
    have hcleared := h _ _ _ _ secondCanonical hcanonical
    rw [rebuild_of_lagging (sound_afterActions _) hcanonical hfact (by decide +kernel)] at hcleared
    exact hcleared (Finset.mem_insert_self _ _)
  · intro h
    have hcanonical : (afterActions [.commit firstCanonical, .project 0, .commit otherCanonical, .project 1]).canonicalOf
        (py "tenant") (py "MissionObject") (py "fact-1") = some firstCanonical := rfl
    have hfact : (afterActions [.commit firstCanonical, .project 0, .commit otherCanonical, .project 1]).projection.facts.get?
        (py "fact-1") = some ⟨firstCanonical.commitId, firstCanonical.stateDigest⟩ := by decide
    have hforward := h _ _ _ _ firstCanonical firstCanonical otherCanonical hcanonical ⟨0, 1, by decide, rfl, rfl⟩ (by decide)
    obtain ⟨projection, happlied, hstate⟩ := rebuild_of_current (sound_afterActions _) hcanonical (fun fact hfact' => by
      cases hfact.symm.trans hfact'
      rfl)
    rw [hstate, Database.currentWatermark, happlied.watermarks] at hforward
    exact hforward rfl

end OcorRuntime.Projection.Detector

import Mathlib.Data.Finset.Insert
import OcorRuntime.Projection.Consistency

/-! Rebuild and drift reconciliation (`c4/rebuild.py`). The canonical store is the log
of its commits in commit order; `PostgresC3Service.read` answers with the last commit
of an aggregate. The projection can also be changed from outside. -/
namespace OcorRuntime.Projection
open Kernel
set_option autoImplicit false
set_option maxHeartbeats 250000

def driftError (reason message : String) (args : List ErrorArg) : PyError := ⟨.driftError reason, message, args⟩

/-- A canonical commit, as `CanonicalSnapshot` reports it. -/
structure CanonicalCommit where
  tenantId : PyStr
  aggregateType : PyStr
  aggregateRef : PyStr
  commitId : PyStr
  stateDigest : PyStr
  located : aggregateRef ≠ [] ∧ Scalar aggregateRef
  identified : commitId ≠ [] ∧ Scalar commitId
  digested : IsDigest stateDigest

/-- `ProjectionDriftDetector`, with the canonical store and the projection it works on. -/
structure Detector where
  canonical : List CanonicalCommit
  projection : Database
  quarantined : Finset PyStr

structure RebuildReport where
  aggregateRef : PyStr
  canonicalCommit : PyStr
  driftDetected : Bool
  quarantined : Bool
deriving DecidableEq

namespace Detector

def initial : Detector := ⟨[], .initial, ∅⟩

/-- `PostgresC3Service.read`: the last commit of the aggregate. -/
def canonicalOf (s : Detector) (tenantId aggregateType aggregateRef : PyStr) : Option CanonicalCommit :=
  (s.canonical.filter fun c =>
    decide (c.tenantId = tenantId ∧ c.aggregateType = aggregateType ∧ c.aggregateRef = aggregateRef)).getLast?

def systemDigest : PyStr := py "urn:sha256:" ++ List.replicate 64 (codePoint 0x30)

def systemContext : GovernedContext where
  tenantId := py "urn:ocor:tenant:system"
  organizationId := py "urn:ocor:org:system"
  domainId := py "urn:ocor:domain:system"
  compartments := [py "urn:ocor:compartment:system"]
  classificationMarkingRef := systemDigest
  purpose := py "c4-drift-reconciliation"
  effectivePrincipalId := py "urn:ocor:principal:c4-drift-detector"
  actorChain := [py "urn:ocor:principal:c4-drift-detector"]
  ontologyReleaseDigest := systemDigest
  policyBundleDigest := systemDigest
  correlationId := py "018f2f95-01b2-7cc3-8d4e-000000000000"

/-- `_peek_request`. -/
def peekRequest (aggregateRef : PyStr) : NamedQueryRequest where
  requestId := py "018f2f95-01b2-7cc3-8d4e-000000000000"
  parameters := Dict.empty.set (py "fact_id") (.str aggregateRef)
  governedContext := systemContext
  governedContextDigest := systemContext.digest
  consistency := ⟨.bestAvailable, none, by simp, by simp⟩
  identified := by decide
  bound := ⟨isDigest_hexdigest _, rfl⟩
  pinned := by decide

/-- `_peek_served_payload_digest`. -/
def peekServedPayloadDigest (projection : Database) (aggregateRef : PyStr) : Except PyError (Option PyStr) :=
  match projection.read (peekRequest aggregateRef) with
  | .ok response => .ok (some response.resultDigest)
  | .error e =>
    match e.cls with
    | .c2Error "RESULT_NOT_FOUND" => .ok none
    | .c2Error _ => .error (driftError "BACKEND_ERROR" e.message e.args)
    | _ => .error e

def rebuild (tenantId aggregateType aggregateRef : PyStr) : Op Detector PyError RebuildReport := do
  let s ← Op.read
  let canonical ← Op.lift (orRaise (s.canonicalOf tenantId aggregateType aggregateRef)
    (driftError "CANONICAL_NOT_FOUND" "no canonical commit exists for %r" [.text aggregateRef]))
  let served ← Op.lift (peekServedPayloadDigest s.projection aggregateRef)
  if served.any fun digest => decide (digest ≠ Database.servedDigest canonical.stateDigest) then
    Op.update fun s => { s with quarantined := insert aggregateRef s.quarantined }
    return ⟨aggregateRef, canonical.commitId, true, true⟩
  else
    let projection ← Op.lift (s.projection.applyCommit ⟨aggregateRef, canonical.commitId, canonical.stateDigest⟩)
    Op.update fun s => { s with projection := projection, quarantined := s.quarantined.erase aggregateRef }
    return ⟨aggregateRef, canonical.commitId, false, false⟩

def readIfHealthy (s : Detector) (aggregateRef : PyStr) (request : NamedQueryRequest) :
    Except PyError NamedQueryResponse :=
  if aggregateRef ∈ s.quarantined then
    .error (c2Error "PROJECTION_QUARANTINED" "%r is quarantined pending reconciliation" [.text aggregateRef])
  else s.projection.read request

/-! ## What a rebuild does -/

theorem factIdOf_peekRequest {aggregateRef : PyStr} (h : aggregateRef ≠ []) :
    Database.factIdOf (peekRequest aggregateRef) = some aggregateRef := by
  have hget : (peekRequest aggregateRef).parameters.get? (py "fact_id") = some (.str aggregateRef) :=
    Dict.get?_set_self _ _ _
  unfold Database.factIdOf
  rw [hget]
  cases aggregateRef with
  | nil => exact absurd rfl h
  | cons c rest => rfl

theorem peek_of_fact {d : Database} {aggregateRef : PyStr} {fact : Fact} (href : aggregateRef ≠ [] ∧ Scalar aggregateRef)
    (hfound : d.facts.get? aggregateRef = some fact) (hcommit : fact.commitId ≠ []) :
    peekServedPayloadDigest d aggregateRef = .ok (some (Database.servedDigest fact.payload)) := by
  have hserves : d.Serves (peekRequest aggregateRef) aggregateRef fact :=
    ⟨factIdOf_peekRequest href.1, href.2, hfound, hcommit, trivial⟩
  obtain ⟨response, hread, hdigest, -⟩ := Database.read_of_serves hserves
  rw [peekServedPayloadDigest, hread, ← hdigest]

theorem peek_of_none {d : Database} {aggregateRef : PyStr} (href : aggregateRef ≠ [] ∧ Scalar aggregateRef)
    (hnone : d.facts.get? aggregateRef = none) : peekServedPayloadDigest d aggregateRef = .ok none := by
  obtain ⟨served, hcreate, -, -, hverify⟩ :=
    Database.create_served (peekRequest aggregateRef) d.shownWatermark_ne_nil d.shownWatermark_ne_nil
  have hbest : (peekRequest aggregateRef).consistency.verifyServed served = .ok served :=
    ConsistencyRequirement.verifyServed_of_met trivial
  have hread : d.read (peekRequest aggregateRef) = .error (c2Error "RESULT_NOT_FOUND"
      "no fact projected for %r as of watermark %r"
      [.text aggregateRef, .text (d.currentWatermark.getD (py "None"))]) := by
    simp only [Database.read, factIdOf_peekRequest href.1, Database.readFact, Database.lookupFact, if_pos href.2, hnone,
      Option.map_none, Option.getD_none, bind, Except.bind, hcreate, hverify, hbest, orRaise]
  rw [peekServedPayloadDigest, hread]
  rfl

section Rebuild
variable {s : Detector} {tenantId aggregateType aggregateRef : PyStr} {canonical : CanonicalCommit}

theorem canonicalOf_ref (h : s.canonicalOf tenantId aggregateType aggregateRef = some canonical) :
    canonical ∈ s.canonical ∧ canonical.aggregateRef = aggregateRef := by
  have hmem := List.mem_of_getLast? h
  rw [List.mem_filter] at hmem
  exact ⟨hmem.1, (of_decide_eq_true hmem.2).2.2⟩

theorem rebuild_of_drift (hcanonical : s.canonicalOf tenantId aggregateType aggregateRef = some canonical) {served : PyStr}
    (hpeek : peekServedPayloadDigest s.projection aggregateRef = .ok (some served))
    (hdrift : served ≠ Database.servedDigest canonical.stateDigest) :
    rebuild tenantId aggregateType aggregateRef s =
      (.ok ⟨aggregateRef, canonical.commitId, true, true⟩, { s with quarantined := insert aggregateRef s.quarantined }) := by
  simp [rebuild, hcanonical, orRaise, hpeek, hdrift]

theorem rebuild_of_match (hcanonical : s.canonicalOf tenantId aggregateType aggregateRef = some canonical)
    {served : Option PyStr} (hpeek : peekServedPayloadDigest s.projection aggregateRef = .ok served)
    (hmatch : ∀ digest ∈ served, digest = Database.servedDigest canonical.stateDigest) :
    ∃ projection, Database.Applied s.projection projection ⟨aggregateRef, canonical.commitId, canonical.stateDigest⟩ ∧
      rebuild tenantId aggregateType aggregateRef s = (.ok ⟨aggregateRef, canonical.commitId, false, false⟩,
        { s with projection := projection, quarantined := s.quarantined.erase aggregateRef }) := by
  have href := (canonicalOf_ref hcanonical).2
  have hdigest : canonical.stateDigest ≠ [] ∧ Scalar canonical.stateDigest := isDigest_text canonical.digested
  have haccepted : Database.Accepted ⟨aggregateRef, canonical.commitId, canonical.stateDigest⟩ :=
    ⟨⟨href ▸ canonical.located.1, canonical.identified.1, hdigest.1⟩, href ▸ canonical.located.2, canonical.identified.2,
      hdigest.2⟩
  obtain ⟨projection, happly, happlied⟩ := Database.applyCommit_of_accepted haccepted s.projection
  refine ⟨projection, happlied, ?_⟩
  cases served with
  | none => simp [rebuild, hcanonical, orRaise, hpeek, happly]
  | some digest =>
    have hsame := hmatch digest rfl
    simp [rebuild, hcanonical, orRaise, hpeek, hsame, happly]

end Rebuild

/-! ## Reading under a quarantine -/

/-- What may happen to the detector and its stores. -/
inductive Event
  | commit (c : CanonicalCommit)
  | apply (c : Commit)
  | rebuild (tenantId aggregateType aggregateRef : PyStr)
  /-- A change of the projection from outside. -/
  | tamper (projection : Database)

def step (s : Detector) : Event → Detector
  | .commit c => { s with canonical := s.canonical ++ [c] }
  | .apply c => { s with projection := s.projection.applyOrRefuse c }
  | .rebuild tenantId aggregateType aggregateRef => (rebuild tenantId aggregateType aggregateRef s).2
  | .tamper projection => { s with projection := projection }

/-- No response carries a fact that is quarantined when it is served. -/
def QuarantineKept (s : Detector) (aggregateRef : PyStr) (request : NamedQueryRequest) : Prop :=
  ∀ response factId, s.readIfHealthy aggregateRef request = .ok response →
    Database.factIdOf request = some factId → factId ∉ s.quarantined

/-- The fact the request can be served is quarantined only together with the aggregate that is checked. -/
def GuardCovers (s : Detector) (aggregateRef : PyStr) (request : NamedQueryRequest) : Prop :=
  ∀ factId fact, s.projection.Serves request factId fact → factId ∈ s.quarantined → aggregateRef ∈ s.quarantined

/-- **When a quarantine is kept.** In every state a run reaches, `read_if_healthy` serves no quarantined fact exactly
when a quarantined fact that the projection would serve is covered by the aggregate passed beside the request. -/
theorem quarantine_kept_iff (events : List Event) (aggregateRef : PyStr) (request : NamedQueryRequest) :
    QuarantineKept (run step initial events) aggregateRef request ↔
      GuardCovers (run step initial events) aggregateRef request := by
  generalize run step initial events = s
  constructor
  · intro h factId fact hserves hquarantined
    by_contra hclear
    obtain ⟨response, hread, -⟩ := Database.read_of_serves hserves
    refine h response factId ?_ hserves.named hquarantined
    rw [readIfHealthy, if_neg hclear]
    exact hread
  · intro h response factId hread hname hquarantined
    unfold readIfHealthy at hread
    split_ifs at hread with hclear
    obtain ⟨factId', fact, hserves, -⟩ := Database.serves_of_read hread
    cases hname.symm.trans hserves.named
    exact hclear (h factId fact hserves hquarantined)

/-- A canonical commit whose state digest repeats one digit. -/
def sampleCanonical (aggregateRef commitId : String) (digit : CodePoint)
    (hr : py aggregateRef ≠ [] ∧ Scalar (py aggregateRef)) (hc : py commitId ≠ [] ∧ Scalar (py commitId))
    (hd : IsDigest (py "urn:sha256:" ++ List.replicate 64 digit)) : CanonicalCommit where
  tenantId := py "tenant"
  aggregateType := py "MissionObject"
  aggregateRef := py aggregateRef
  commitId := py commitId
  stateDigest := py "urn:sha256:" ++ List.replicate 64 digit
  located := hr
  identified := hc
  digested := hd

def firstCanonical : CanonicalCommit :=
  sampleCanonical "fact-1" "commit-1" (codePoint 0x30) (by decide) (by decide) (by decide)

/-- The canonical commit of `fact-1` is projected with another payload. -/
def driftedEvents : List Event := [.commit firstCanonical, .apply ⟨py "fact-1", py "commit-1", py "V1"⟩]

theorem rebuild_drifted : rebuild (py "tenant") (py "MissionObject") (py "fact-1") (run step initial driftedEvents) =
    (.ok ⟨py "fact-1", py "commit-1", true, true⟩,
      { run step initial driftedEvents with quarantined := {py "fact-1"} }) := by
  have hfact : (run step initial driftedEvents).projection.facts.get? (py "fact-1") = some ⟨py "commit-1", py "V1"⟩ := by
    decide
  have hcanonical : (run step initial driftedEvents).canonicalOf (py "tenant") (py "MissionObject") (py "fact-1") =
      some firstCanonical := rfl
  exact rebuild_of_drift hcanonical (peek_of_fact (by decide) hfact (by decide)) (by decide +kernel)

/-- `read_if_healthy` of another aggregate serves the quarantined fact. -/
theorem quarantined_fact_is_served : ¬ ∀ (events : List Event) (aggregateRef : PyStr) (request : NamedQueryRequest),
    QuarantineKept (run step initial events) aggregateRef request := by
  intro h
  let request := Database.sampleRequest (py "fact-1") ⟨.bestAvailable, none, by simp, by simp⟩
  have hkept := h (driftedEvents ++ [.rebuild (py "tenant") (py "MissionObject") (py "fact-1")]) (py "fact-2") request
  have hstate : run step initial (driftedEvents ++ [.rebuild (py "tenant") (py "MissionObject") (py "fact-1")]) =
      { run step initial driftedEvents with quarantined := {py "fact-1"} } := by
    rw [run_append]
    exact congrArg Prod.snd rebuild_drifted
  rw [hstate] at hkept
  have hserves : (run step initial driftedEvents).projection.Serves request (py "fact-1") ⟨py "commit-1", py "V1"⟩ :=
    ⟨by decide, by decide, by decide, by decide, trivial⟩
  obtain ⟨response, hread, -⟩ := Database.read_of_serves hserves
  refine hkept response (py "fact-1") ?_ hserves.named (Finset.mem_singleton_self _)
  rw [readIfHealthy, if_neg (by decide)]
  exact hread

end Detector
end OcorRuntime.Projection

import OcorRuntime.Foundations.Run
import OcorRuntime.Projection.TypeDB

/-! Consistency modes over histories of commits: after any sequence of `apply_commit`
calls the projection shows, of each fact, its last applied write, and as watermark the
last applied commit. -/
namespace OcorRuntime.Projection.Database
open Kernel
set_option autoImplicit false
set_option maxHeartbeats 250000

/-- The database after the calls, from the empty one. -/
def after (calls : List Commit) : Database := run applyOrRefuse initial calls

/-- The calls that were applied, in order. -/
def applied (calls : List Commit) : List Commit := calls.filter fun c => decide (Accepted c)

def lastApplied (calls : List Commit) : Option Commit := (applied calls).getLast?

/-- The last applied write of a fact. -/
def lastWrite (calls : List Commit) (factId : PyStr) : Option Commit :=
  ((applied calls).filter fun c => decide (c.factId = factId)).getLast?

/-! ## The database mirrors the history -/

structure Mirrors (d : Database) (calls : List Commit) : Prop where
  facts : ∀ factId, d.facts.get? factId = (lastWrite calls factId).map fun c => ⟨c.commitId, c.payload⟩
  watermarks : d.watermarks = ((lastApplied calls).map Commit.commitId).toList

theorem applied_append (calls : List Commit) (c : Commit) :
    applied (calls ++ [c]) = if Accepted c then applied calls ++ [c] else applied calls := by
  unfold applied
  rw [List.filter_append]
  split_ifs with h <;> simp [h]

theorem mirrors_step {d : Database} {calls : List Commit} (h : Mirrors d calls) (c : Commit) :
    Mirrors (d.applyOrRefuse c) (calls ++ [c]) := by
  by_cases hc : Accepted c
  · have hnew := applyOrRefuse_of_accepted hc d
    constructor
    · intro factId
      rw [hnew.facts, lastWrite, applied_append, if_pos hc, List.filter_append, h.facts, lastWrite]
      by_cases hf : c.factId = factId <;> simp [hf]
    · rw [hnew.watermarks, lastApplied, applied_append, if_pos hc]
      simp
  · rw [applyOrRefuse_of_not_accepted hc]
    constructor
    · intro factId
      rw [h.facts, lastWrite, lastWrite, applied_append, if_neg hc]
    · rw [h.watermarks, lastApplied, lastApplied, applied_append, if_neg hc]

theorem mirrors_after (calls : List Commit) : Mirrors (after calls) calls := by
  induction calls using List.reverseRecOn with
  | nil => exact ⟨fun _ => rfl, rfl⟩
  | append_singleton calls c ih =>
    rw [after, run_append]
    exact mirrors_step ih c

/-! ## Facts of the history -/

theorem accepted_of_mem_applied {calls : List Commit} {c : Commit} (h : c ∈ applied calls) : Accepted c :=
  of_decide_eq_true (List.mem_filter.mp h).2

theorem mem_of_lastWrite {calls : List Commit} {factId : PyStr} {c : Commit} (h : lastWrite calls factId = some c) :
    c ∈ applied calls ∧ c.factId = factId := by
  have hmem := List.mem_of_getLast? h
  rw [List.mem_filter] at hmem
  exact ⟨hmem.1, of_decide_eq_true hmem.2⟩

theorem lastApplied_of_mem {calls : List Commit} {c : Commit} (h : c ∈ applied calls) :
    ∃ last, lastApplied calls = some last := by
  cases hlast : lastApplied calls with
  | some last => exact ⟨last, rfl⟩
  | none =>
    rw [List.getLast?_eq_none_iff.mp hlast] at h
    cases h

theorem eq_of_commitId_eq {calls : List Commit} (hdistinct : (calls.map Commit.commitId).Nodup) {a b : Commit}
    (ha : a ∈ applied calls) (hb : b ∈ applied calls) (h : a.commitId = b.commitId) : a = b :=
  List.inj_on_of_nodup_map hdistinct (List.mem_of_mem_filter ha) (List.mem_of_mem_filter hb) h

theorem lastWrite_of_lastApplied {calls : List Commit} {last : Commit} (h : lastApplied calls = some last) :
    lastWrite calls last.factId = some last := by
  obtain ⟨init, hinit⟩ := List.getLast?_eq_some_iff.mp h
  rw [lastWrite, hinit, List.filter_append]
  simp

theorem shownWatermark_after {calls : List Commit} {last : Commit} (h : lastApplied calls = some last) :
    (after calls).shownWatermark = last.commitId := by
  have hmarks := (mirrors_after calls).watermarks
  rw [h] at hmarks
  have hne : last.commitId ≠ [] := (accepted_of_mem_applied (List.mem_of_getLast? h)).1.2.1
  unfold shownWatermark currentWatermark
  rw [hmarks]
  cases hid : last.commitId with
  | nil => exact absurd hid hne
  | cons c rest => simp [hid]

/-- When a fact of the history is served: its requirement is met by the last commit and by the fact's own. -/
theorem serves_after_iff {calls : List Commit} {request : NamedQueryRequest} {factId : PyStr} {last : Commit}
    (hname : factIdOf request = some factId) (hlast : lastApplied calls = some last) (fact : Fact) :
    Serves (after calls) request factId fact ↔
      ∃ c, lastWrite calls factId = some c ∧ fact = ⟨c.commitId, c.payload⟩ ∧
        request.consistency.Met last.commitId c.commitId := by
  have hmark := shownWatermark_after hlast
  constructor
  · intro h
    have hfound := h.found
    rw [(mirrors_after calls).facts] at hfound
    obtain ⟨c, hc, rfl⟩ := Option.map_eq_some_iff.mp hfound
    exact ⟨c, hc, rfl, hmark ▸ h.met⟩
  · rintro ⟨c, hc, rfl, hmet⟩
    obtain ⟨hmem, hfact⟩ := mem_of_lastWrite hc
    have haccepted := accepted_of_mem_applied hmem
    refine ⟨hname, hfact ▸ haccepted.2.1, ?_, haccepted.1.2.1, hmark ▸ hmet⟩
    rw [(mirrors_after calls).facts, hc]
    rfl

/-! ## The modes -/

/-- What the two strong modes promise of one request after the calls. -/
structure ModesHold (calls : List Commit) (request : NamedQueryRequest) : Prop where
  exactSound : ∀ factId commit response, factIdOf request = some factId → request.consistency.mode = .exactAtCommit →
    request.consistency.requiredCommit = some commit → (after calls).read request = .ok response →
    ∃ last write, lastApplied calls = some last ∧ last.commitId = commit ∧ lastWrite calls factId = some write ∧
      response.resultDigest = servedDigest write.payload
  exactComplete : ∀ factId last, factIdOf request = some factId → request.consistency.mode = .exactAtCommit →
    lastApplied calls = some last → request.consistency.requiredCommit = some last.commitId →
    (lastWrite calls factId).isSome → ∃ response, (after calls).read request = .ok response
  atLeastComplete : ∀ factId commit, factIdOf request = some factId → request.consistency.mode = .atLeastCommit →
    commit ∈ applied calls → request.consistency.requiredCommit = some commit.commitId →
    (lastWrite calls factId).isSome → ∃ response, (after calls).read request = .ok response

/-- An applied commit that is required for an existing fact is the last one, and in the exact mode it wrote the fact. -/
def PinnedLast (calls : List Commit) (request : NamedQueryRequest) : Prop :=
  ∀ factId commit, factIdOf request = some factId → (lastWrite calls factId).isSome → commit ∈ applied calls →
    request.consistency.requiredCommit = some commit.commitId →
    (request.consistency.mode = .exactAtCommit → lastApplied calls = some commit → commit.factId = factId) ∧
    (request.consistency.mode = .atLeastCommit → lastApplied calls = some commit)

/-- A read that returns, by the last applied commit and the last write of the fact. -/
theorem read_after_eq_ok {calls : List Commit} {request : NamedQueryRequest} {response : NamedQueryResponse}
    (h : (after calls).read request = .ok response) : ∃ factId last write, factIdOf request = some factId ∧
      lastApplied calls = some last ∧ lastWrite calls factId = some write ∧
      request.consistency.Met last.commitId write.commitId ∧ response.resultDigest = servedDigest write.payload := by
  obtain ⟨factId, fact, hserves, hdigest⟩ := serves_of_read h
  have hfound := hserves.found
  rw [(mirrors_after calls).facts] at hfound
  obtain ⟨write, hwrite, -⟩ := Option.map_eq_some_iff.mp hfound
  obtain ⟨last, hlast⟩ := lastApplied_of_mem (mem_of_lastWrite hwrite).1
  obtain ⟨write', hwrite', rfl, hmet⟩ := (serves_after_iff hserves.named hlast fact).mp hserves
  exact ⟨factId, last, write', hserves.named, hlast, hwrite', hmet, hdigest⟩

theorem read_after_of_met {calls : List Commit} {request : NamedQueryRequest} {factId : PyStr} {last write : Commit}
    (hname : factIdOf request = some factId) (hlast : lastApplied calls = some last)
    (hwrite : lastWrite calls factId = some write) (hmet : request.consistency.Met last.commitId write.commitId) :
    ∃ response, (after calls).read request = .ok response := by
  have hserves := (serves_after_iff hname hlast ⟨write.commitId, write.payload⟩).mpr ⟨write, hwrite, rfl, hmet⟩
  obtain ⟨response, hread, -⟩ := read_of_serves hserves
  exact ⟨response, hread⟩

theorem met_exact {r : ConsistencyRequirement} {watermark commit : PyStr} (h : r.mode = .exactAtCommit) :
    r.Met watermark commit ↔ r.requiredCommit = some watermark ∧ r.requiredCommit = some commit := by
  unfold ConsistencyRequirement.Met
  rw [h]

theorem met_atLeast {r : ConsistencyRequirement} {watermark commit : PyStr} (h : r.mode = .atLeastCommit) :
    r.Met watermark commit ↔ r.requiredCommit = some watermark := by
  unfold ConsistencyRequirement.Met
  rw [h]

theorem exact_read_sound {calls : List Commit} {request : NamedQueryRequest} {response : NamedQueryResponse}
    {factId commit : PyStr} (hname : factIdOf request = some factId)
    (hmode : request.consistency.mode = .exactAtCommit) (hcommit : request.consistency.requiredCommit = some commit)
    (h : (after calls).read request = .ok response) :
    ∃ last write, lastApplied calls = some last ∧ last.commitId = commit ∧ lastWrite calls factId = some write ∧
      response.resultDigest = servedDigest write.payload := by
  obtain ⟨factId', last, write, hname', hlast, hwrite, hmet, hdigest⟩ := read_after_eq_ok h
  cases hname.symm.trans hname'
  have hrequired := ((met_exact hmode).mp hmet).1
  rw [hcommit] at hrequired
  exact ⟨last, write, hlast, (Option.some.inj hrequired).symm, hwrite, hdigest⟩

/-- **Which strong reads the projection answers.** An exact read that returns is sound. The modes hold of a request
exactly when the applied commit it requires is the last one and, in the exact mode, the one that wrote the fact. -/
theorem consistency_modes_hold_iff (calls : List Commit) (hdistinct : (calls.map Commit.commitId).Nodup)
    (request : NamedQueryRequest) : ModesHold calls request ↔ PinnedLast calls request := by
  constructor
  · intro h factId commit hname hexists hmem hrequired
    constructor
    · intro hmode hlast
      obtain ⟨response, hread⟩ := h.exactComplete factId commit hname hmode hlast hrequired hexists
      obtain ⟨factId', last, write, hname', hlast', hwrite, hmet, -⟩ := read_after_eq_ok hread
      cases hname.symm.trans hname'
      have hwritten := ((met_exact hmode).mp hmet).2
      rw [hrequired] at hwritten
      obtain ⟨hwmem, hwfact⟩ := mem_of_lastWrite hwrite
      rw [eq_of_commitId_eq hdistinct hmem hwmem (Option.some.inj hwritten)]
      exact hwfact
    · intro hmode
      obtain ⟨response, hread⟩ := h.atLeastComplete factId commit hname hmode hmem hrequired hexists
      obtain ⟨_, last, _, _, hlast, _, hmet, _⟩ := read_after_eq_ok hread
      have hpassed := (met_atLeast hmode).mp hmet
      rw [hrequired] at hpassed
      have hlmem : last ∈ applied calls := List.mem_of_getLast? hlast
      rw [eq_of_commitId_eq hdistinct hmem hlmem (Option.some.inj hpassed)]
      exact hlast
  · intro h
    refine ⟨fun _ _ _ => exact_read_sound, ?_, ?_⟩
    · intro factId last hname hmode hlast hrequired hexists
      have hmem : last ∈ applied calls := List.mem_of_getLast? hlast
      have hfact := (h factId last hname hexists hmem hrequired).1 hmode hlast
      have hwrite := lastWrite_of_lastApplied hlast
      rw [hfact] at hwrite
      exact read_after_of_met hname hlast hwrite ((met_exact hmode).mpr ⟨hrequired, hrequired⟩)
    · intro factId commit hname hmode hmem hrequired hexists
      have hlast := (h factId commit hname hexists hmem hrequired).2 hmode
      obtain ⟨write, hwrite⟩ := Option.isSome_iff_exists.mp hexists
      exact read_after_of_met hname hlast hwrite ((met_atLeast hmode).mpr hrequired)

/-! ## Two facts -/

/-- Two commits, to one fact each. -/
def sampleCalls : List Commit :=
  [⟨py "fact-1", py "commit-1", py "V1"⟩, ⟨py "fact-2", py "commit-2", py "V2"⟩]

def zeroDigest : PyStr := py "urn:sha256:" ++ List.replicate 64 (codePoint 0x30)

def sampleContext : GovernedContext where
  tenantId := py "urn:ocor:tenant:synthetic"
  organizationId := py "urn:ocor:org:synthetic"
  domainId := py "urn:ocor:domain:logistics"
  compartments := [py "urn:ocor:compartment:alpha"]
  classificationMarkingRef := zeroDigest
  purpose := py "c4"
  effectivePrincipalId := py "urn:ocor:principal:analyst-1"
  actorChain := [py "urn:ocor:principal:analyst-1"]
  ontologyReleaseDigest := zeroDigest
  policyBundleDigest := zeroDigest
  correlationId := py "018f2f95-01b2-7cc3-8d4e-123456789abc"

/-- A request for a fact under the sample context. -/
def sampleRequest (factId : PyStr) (consistency : ConsistencyRequirement) : NamedQueryRequest where
  requestId := py "018f2f95-01b2-7cc3-8d4e-123456789abc"
  parameters := Dict.empty.set (py "fact_id") (.str factId)
  governedContext := sampleContext
  governedContextDigest := sampleContext.digest
  consistency := consistency
  identified := by decide
  bound := ⟨isDigest_hexdigest _, rfl⟩
  pinned := by decide

def atLeast (commit : String) (h : some (py commit) ≠ some []) : ConsistencyRequirement :=
  ⟨.atLeastCommit, some (py commit), by simp, h⟩

def exactAt (commit : String) (h : some (py commit) ≠ some []) : ConsistencyRequirement :=
  ⟨.exactAtCommit, some (py commit), by simp, h⟩

theorem sampleCalls_distinct : (sampleCalls.map Commit.commitId).Nodup := by decide

/-- The second commit is last and wrote the second fact: its exact read holds what is promised. -/
theorem consistency_modes_hold_second :
    (sampleCalls.map Commit.commitId).Nodup ∧
      ModesHold sampleCalls (sampleRequest (py "fact-2") (exactAt "commit-2" (by decide))) := by
  refine ⟨sampleCalls_distinct, (consistency_modes_hold_iff sampleCalls sampleCalls_distinct _).mpr ?_⟩
  intro factId commit hname hexists hmem hrequired
  have hfact : factIdOf (sampleRequest (py "fact-2") (exactAt "commit-2" (by decide))) = some (py "fact-2") := by decide
  cases hfact.symm.trans hname
  refine ⟨fun _ hlast => ?_, fun hmode => ?_⟩
  · have hsecond : lastApplied sampleCalls = some ⟨py "fact-2", py "commit-2", py "V2"⟩ := by decide
    cases hsecond.symm.trans hlast
    rfl
  · cases hmode

/-- After both commits the first fact cannot be read at the last commit, nor at least at its own. -/
theorem older_fact_is_not_served :
    ¬ ∀ (calls : List Commit) (request : NamedQueryRequest), (calls.map Commit.commitId).Nodup → ModesHold calls request := by
  intro h
  have hmodes := h sampleCalls (sampleRequest (py "fact-1") (atLeast "commit-1" (by decide))) sampleCalls_distinct
  have hfact : factIdOf (sampleRequest (py "fact-1") (atLeast "commit-1" (by decide))) = some (py "fact-1") := by decide
  obtain ⟨response, hread⟩ := hmodes.atLeastComplete (py "fact-1") ⟨py "fact-1", py "commit-1", py "V1"⟩ hfact rfl
    (by decide) rfl (by decide)
  obtain ⟨_, last, _, _, hlast, _, hmet, _⟩ := read_after_eq_ok hread
  have hsecond : lastApplied sampleCalls = some ⟨py "fact-2", py "commit-2", py "V2"⟩ := by decide
  cases hsecond.symm.trans hlast
  have hpassed := (met_atLeast rfl).mp hmet
  revert hpassed
  decide

end OcorRuntime.Projection.Database

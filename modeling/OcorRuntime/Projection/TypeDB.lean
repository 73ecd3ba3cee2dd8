import OcorRuntime.Projection.NamedQuery

/-! The retained TypeDB projection (`c4/typedb_adapter.py`). The database holds facts,
keyed by their id, and watermarks; a write transaction runs all of its statements or
none. TypeDB takes Unicode text: a query with a surrogate code point is refused. -/
namespace OcorRuntime.Projection
open Kernel
set_option autoImplicit false
set_option maxHeartbeats 250000

/-- A `c4-fact` entity: the commit that last wrote it and its payload. -/
structure Fact where
  commitId : PyStr
  payload : PyStr
deriving DecidableEq

/-- The arguments of `apply_commit`. -/
structure Commit where
  factId : PyStr
  commitId : PyStr
  payload : PyStr
deriving DecidableEq

structure Database where
  facts : Dict PyStr Fact
  /-- The `c4-watermark` entities, in the order a query answers them. -/
  watermarks : List PyStr

namespace Database

def initial : Database := ⟨.empty, []⟩

/-! ## The database -/

inductive Statement
  | deleteFact (factId : PyStr)
  | insertFact (factId commitId payload : PyStr)
  | deleteWatermarks
  | insertWatermark (commitId : PyStr)

/-- The string literals of the statement's query. -/
def Statement.literals : Statement → List PyStr
  | .deleteFact factId => [factId]
  | .insertFact factId commitId payload => [factId, commitId, payload]
  | .deleteWatermarks => []
  | .insertWatermark commitId => [commitId]

def execute (d : Database) : Statement → Database
  | .deleteFact factId => { d with facts := d.facts.erase factId }
  | .insertFact factId commitId payload => { d with facts := d.facts.set factId ⟨commitId, payload⟩ }
  | .deleteWatermarks => { d with watermarks := [] }
  | .insertWatermark commitId => { d with watermarks := d.watermarks ++ [commitId] }

def adapterError (message : String) : PyError := ⟨.foreign "TypeDBAdapterError", message, []⟩

/-- `_write`. -/
def write (d : Database) (statements : List Statement) : Except PyError Database :=
  if (statements.flatMap Statement.literals).all fun literal => decide (Scalar literal) then
    .ok (statements.foldl execute d)
  else .error (adapterError "write failed")

/-! ## The adapter -/

def currentWatermark (d : Database) : Option PyStr := d.watermarks.head?

/-- `_lookup_fact`. -/
def lookupFact (d : Database) (factId : PyStr) : Except PyError (Option Fact) :=
  if Scalar factId then .ok (d.facts.get? factId) else .error (adapterError "read failed")

/-- The statements of `apply_commit`: a prior fact and a prior watermark are replaced. -/
def commitStatements (d : Database) (c : Commit) (existingFact : Option Fact) : List Statement :=
  (if existingFact.isSome then [.deleteFact c.factId] else []) ++ [.insertFact c.factId c.commitId c.payload] ++
    (if d.currentWatermark.isSome then [.deleteWatermarks] else []) ++ [.insertWatermark c.commitId]

def applyCommit (d : Database) (c : Commit) : Except PyError Database := do
  let _ ← required "fact_id" c.factId
  let _ ← required "commit_id" c.commitId
  let _ ← required "payload" c.payload
  let existingFact ← d.lookupFact c.factId
  d.write (d.commitStatements c existingFact)

def noWatermarkSentinel : PyStr := py "urn:ocor:commit:none"

/-- `watermark or NO_WATERMARK_SENTINEL`. -/
def shownWatermark (d : Database) : PyStr :=
  match d.currentWatermark with
  | some (c :: watermark) => c :: watermark
  | _ => noWatermarkSentinel

/-- The digest a fact is served with. -/
def servedDigest (payload : PyStr) : PyStr := sha256Urn (utf8Encode payload)

/-- `read`, once the request's `fact_id` is known to be a text. -/
def readFact (d : Database) (request : NamedQueryRequest) (factId : PyStr) : Except PyError NamedQueryResponse := do
  let found ← d.lookupFact factId
  let canonicalCommit := (found.map Fact.commitId).getD d.shownWatermark
  let served ← ServedContext.create (py "main") request.governedContext.ontologyReleaseDigest canonicalCommit
    d.shownWatermark 0 request.governedContextDigest request.governedContext.policyBundleDigest
  let _ ← request.verifyServed served
  let fact ← orRaise found (c2Error "RESULT_NOT_FOUND" "no fact projected for %r as of watermark %r"
    [.text factId, .text (d.currentWatermark.getD (py "None"))])
  return {
    requestId := request.requestId
    resultRef := py "urn:ocor:c4-fact:" ++ factId
    resultDigest := servedDigest fact.payload
    served := served
    identified := request.identified
    named := List.append_ne_nil_of_left_ne_nil (by decide) factId
    digested := isDigest_hexdigest _ }

/-- The request's `fact_id`, when it is a non-empty text. -/
def factIdOf (request : NamedQueryRequest) : Option PyStr :=
  match request.parameters.get? (py "fact_id") with
  | some (.str (c :: factId)) => some (c :: factId)
  | _ => none

def read (d : Database) (request : NamedQueryRequest) : Except PyError NamedQueryResponse :=
  match factIdOf request with
  | none => .error (c2Error "QUERY_CONTRACT_INVALID" "fact_id parameter is required" [])
  | some factId => d.readFact request factId

/-! ## What a commit does -/

/-- The values the adapter and the database accept: non-empty Unicode text. -/
def Accepted (c : Commit) : Prop :=
  (c.factId ≠ [] ∧ c.commitId ≠ [] ∧ c.payload ≠ []) ∧ Scalar c.factId ∧ Scalar c.commitId ∧ Scalar c.payload

instance (c : Commit) : Decidable (Accepted c) := inferInstanceAs (Decidable (_ ∧ _))

/-- The fact is replaced, the watermark moves to the commit, and nothing else changes. -/
structure Applied (d d' : Database) (c : Commit) : Prop where
  facts : ∀ factId, d'.facts.get? factId = if c.factId = factId then some ⟨c.commitId, c.payload⟩ else d.facts.get? factId
  watermarks : d'.watermarks = [c.commitId]

theorem applied_statements (d : Database) (c : Commit) (existingFact : Option Fact) :
    Applied d ((d.commitStatements c existingFact).foldl execute d) c := by
  constructor
  · intro factId
    have herase : ((d.facts.erase c.factId).set c.factId ⟨c.commitId, c.payload⟩).get? factId =
        (d.facts.set c.factId ⟨c.commitId, c.payload⟩).get? factId := by
      rw [Dict.get?_set, Dict.get?_set, Dict.get?_erase]
      split_ifs <;> rfl
    rw [← Dict.get?_set]
    unfold commitStatements
    cases existingFact <;> cases d.currentWatermark <;> simp [execute, herase]
  · unfold commitStatements currentWatermark
    cases existingFact <;> cases hmarks : d.watermarks <;> simp [execute, hmarks]

theorem literals_statements (d : Database) (c : Commit) (existingFact : Option Fact) :
    (((d.commitStatements c existingFact).flatMap Statement.literals).all fun literal => decide (Scalar literal)) = true ↔
      Scalar c.factId ∧ Scalar c.commitId ∧ Scalar c.payload := by
  unfold commitStatements
  cases existingFact <;> cases d.currentWatermark <;> simp [Statement.literals] <;> tauto

theorem applyCommit_of_accepted {c : Commit} (h : Accepted c) (d : Database) :
    ∃ d', d.applyCommit c = .ok d' ∧ Applied d d' c := by
  obtain ⟨⟨hf, hc, hp⟩, hsf, hsc, hsp⟩ := h
  refine ⟨_, ?_, applied_statements d c (d.facts.get? c.factId)⟩
  have hall := (literals_statements d c (d.facts.get? c.factId)).mpr ⟨hsf, hsc, hsp⟩
  simp [applyCommit, required, require, hf, hc, hp, lookupFact, hsf, write, hall, bind, Except.bind]

theorem accepted_of_applyCommit {c : Commit} {d d' : Database} (h : d.applyCommit c = .ok d') : Accepted c := by
  unfold applyCommit at h
  obtain ⟨hf, -, h⟩ := bind_eq_ok.1 h
  obtain ⟨hc, -, h⟩ := bind_eq_ok.1 h
  obtain ⟨hp, -, h⟩ := bind_eq_ok.1 h
  obtain ⟨existing, -, h⟩ := bind_eq_ok.1 h
  unfold write at h
  split_ifs at h with hall
  exact ⟨⟨hf.down, hc.down, hp.down⟩, (literals_statements d c existing).mp hall⟩

/-- A commit is applied, or refused with nothing written. -/
def applyOrRefuse (d : Database) (c : Commit) : Database := (d.applyCommit c).toOption.getD d

theorem applyOrRefuse_of_accepted {c : Commit} (h : Accepted c) (d : Database) : Applied d (d.applyOrRefuse c) c := by
  obtain ⟨d', heq, happlied⟩ := applyCommit_of_accepted h d
  rwa [applyOrRefuse, heq]

theorem applyOrRefuse_of_not_accepted {c : Commit} (h : ¬ Accepted c) (d : Database) : d.applyOrRefuse c = d := by
  unfold applyOrRefuse
  cases heq : d.applyCommit c with
  | error e => rfl
  | ok d' => exact absurd (accepted_of_applyCommit heq) h

/-! ## What a read serves -/

/-- The request names the fact, and the projection's watermark and the fact's commit meet its requirement. -/
structure Serves (d : Database) (request : NamedQueryRequest) (factId : PyStr) (fact : Fact) : Prop where
  named : factIdOf request = some factId
  text : Scalar factId
  found : d.facts.get? factId = some fact
  committed : fact.commitId ≠ []
  met : request.consistency.Met d.shownWatermark fact.commitId

theorem shownWatermark_ne_nil (d : Database) : d.shownWatermark ≠ [] := by
  unfold shownWatermark
  split
  · exact List.cons_ne_nil _ _
  · decide

/-- A context built from the request's own bindings passes the checks of `ServedContext`. -/
theorem create_served (request : NamedQueryRequest) {commit watermark : PyStr} (hc : commit ≠ []) (hw : watermark ≠ []) :
    ∃ served, ServedContext.create (py "main") request.governedContext.ontologyReleaseDigest commit watermark 0
        request.governedContextDigest request.governedContext.policyBundleDigest = .ok served ∧
      served.canonicalCommit = commit ∧ served.projectionWatermark = watermark ∧
      request.verifyServed served = request.consistency.verifyServed served := by
  have hdigest : ∀ {field : String} {value : PyStr} (h : IsDigest value), digest field value = .ok ⟨h⟩ := by
    intro field value h
    have hne : value ≠ [] := fun hnil => by
      have hlength := h.1
      rw [hnil] at hlength
      cases hlength
    simp [digest, required, require, hne, h, bind, Except.bind]
  refine ⟨⟨py "main", request.governedContext.ontologyReleaseDigest, commit, watermark, 0, request.governedContextDigest,
    request.governedContext.policyBundleDigest, ⟨by decide, hc, hw⟩, ⟨request.pinned.1, request.bound.1, request.pinned.2⟩,
    le_refl 0⟩, ?_, rfl, rfl, ?_⟩
  · have hmain : py "main" ≠ [] := by decide
    simp [ServedContext.create, required, require, hmain, hc, hw, hdigest request.pinned.1, hdigest request.bound.1,
      hdigest request.pinned.2, bind, Except.bind, pure, Except.pure]
  · simp [NamedQueryRequest.verifyServed]

theorem commit_of_create {branch release commit watermark context bundle : PyStr} {age : ℤ} {served : ServedContext}
    (h : ServedContext.create branch release commit watermark age context bundle = .ok served) : commit ≠ [] := by
  unfold ServedContext.create at h
  obtain ⟨_, _, h⟩ := bind_eq_ok.1 h
  obtain ⟨hcommit, _⟩ := bind_eq_ok.1 h
  exact hcommit.down

theorem read_of_serves {d : Database} {request : NamedQueryRequest} {factId : PyStr} {fact : Fact}
    (h : Serves d request factId fact) :
    ∃ response, d.read request = .ok response ∧ response.resultDigest = servedDigest fact.payload ∧
      response.resultRef = py "urn:ocor:c4-fact:" ++ factId := by
  obtain ⟨served, hcreate, hcommit, hmark, hverify⟩ := create_served request h.committed d.shownWatermark_ne_nil
  have hmet : request.verifyServed served = .ok served := by
    rw [hverify]
    refine ConsistencyRequirement.verifyServed_of_met ?_
    rw [hcommit, hmark]
    exact h.met
  refine ⟨⟨request.requestId, py "urn:ocor:c4-fact:" ++ factId, servedDigest fact.payload, served, request.identified,
    List.append_ne_nil_of_left_ne_nil (by decide) factId, isDigest_hexdigest _⟩, ?_, rfl, rfl⟩
  simp [read, h.named, readFact, lookupFact, h.text, h.found, hcreate, hmet, orRaise, bind, Except.bind, pure, Except.pure]

theorem serves_of_read {d : Database} {request : NamedQueryRequest} {response : NamedQueryResponse}
    (h : d.read request = .ok response) : ∃ factId fact, Serves d request factId fact ∧
      response.resultDigest = servedDigest fact.payload := by
  unfold read at h
  cases hname : factIdOf request with
  | none =>
    rw [hname] at h
    cases h
  | some factId =>
    rw [hname] at h
    unfold readFact at h
    obtain ⟨found, hfound, h⟩ := bind_eq_ok.1 h
    obtain ⟨served, hcreate, h⟩ := bind_eq_ok.1 h
    obtain ⟨_, hverify, h⟩ := bind_eq_ok.1 h
    obtain ⟨fact, hfact, h⟩ := bind_eq_ok.1 h
    cases h
    cases orRaise_eq_ok.1 hfact
    unfold lookupFact at hfound
    split_ifs at hfound with htext
    have hcommit : fact.commitId ≠ [] := commit_of_create hcreate
    obtain ⟨served', hcreate', hshown, hmark, hsame⟩ := create_served request hcommit d.shownWatermark_ne_nil
    cases hcreate.symm.trans hcreate'
    refine ⟨factId, fact, ⟨hname, htext, Except.ok.inj hfound, hcommit, ?_⟩, rfl⟩
    by_contra hunmet
    rw [← hmark, ← hshown] at hunmet
    obtain ⟨e, he⟩ := ConsistencyRequirement.verifyServed_of_not_met hunmet
    rw [hsame, he] at hverify
    cases hverify

end Database
end OcorRuntime.Projection

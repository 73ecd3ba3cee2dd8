import OcorRuntime.Marking.Scheme
import OcorRuntime.Memory.MemoryRuns

/-! Lineage of admitted memory (`memory/model.py`). A version names the versions it
supersedes, corrects, derives from or consolidates; an admission checks only those. Over
a run of admissions the checks add up: marking, taint and tenant are handed down every
chain of references, and no chain returns. -/
namespace OcorRuntime.Memory
open Kernel Marking
set_option autoImplicit false
set_option maxHeartbeats 250000

/-! ## Markings -/

/-- `LatticeMarkingResolver`: the digests of markings and the labels they stand for. -/
structure LatticeMarkingResolver where
  scheme : MarkingSchemeDefinition
  labels : Dict PyStr PyStr
  /-- `scheme.leq(label, label)` raises on an unknown label. -/
  known : ∀ ref label, labels.get? ref = some label → label ∈ scheme.labels
  /-- "marking refs must map to distinct labels". -/
  distinct : ∀ ref ref' label, labels.get? ref = some label → labels.get? ref' = some label → ref = ref'

namespace LatticeMarkingResolver
variable (r : LatticeMarkingResolver)

/-- `_refs`. -/
def refs : Dict PyStr PyStr := r.labels.entries.foldl (fun found entry => found.set entry.2 entry.1) .empty

/-- `_label`. -/
def label (ref : PyStr) : Except PyError PyStr :=
  orRaise (r.labels.get? ref) (admissionError "POLICY_DENIED" "MARKING_UNKNOWN" "marking ref is not in the lattice")

def labelAll : List PyStr → Except PyError (List PyStr)
  | [] => .ok []
  | ref :: refs => do
    let label ← r.label ref
    let labels ← labelAll refs
    return label :: labels

def dominates (upper lower : PyStr) : Except PyError Bool := do
  let upper ← r.label upper
  let lower ← r.label lower
  r.scheme.dominates upper lower

def join (refs : List PyStr) : Except PyError PyStr := do
  let labels ← r.labelAll refs
  let joined ← r.scheme.join labels
  orRaise (r.refs.get? joined) (admissionError "POLICY_DENIED" "MARKING_UNKNOWN" "marking join has no declared ref")

/-- One marking is at least as restrictive as the other. -/
def Dominates (upper lower : PyStr) : Prop :=
  ∃ high low, r.labels.get? upper = some high ∧ r.labels.get? lower = some low ∧ r.scheme.Leq low high

theorem dominates_eq_true {upper lower : PyStr} : r.dominates upper lower = .ok true ↔ r.Dominates upper lower := by
  unfold dominates label Dominates
  simp only [bind_eq_ok, orRaise_eq_ok]
  constructor
  · rintro ⟨high, hhigh, low, hlow, h⟩
    refine ⟨high, low, hhigh, hlow, ?_⟩
    rw [MarkingSchemeDefinition.dominates, r.scheme.leq_eq_ok (r.known _ _ hlow) (r.known _ _ hhigh)] at h
    exact of_decide_eq_true (Except.ok.inj h)
  · rintro ⟨high, low, hhigh, hlow, hle⟩
    refine ⟨high, hhigh, low, hlow, ?_⟩
    rw [MarkingSchemeDefinition.dominates, r.scheme.leq_eq_ok (r.known _ _ hlow) (r.known _ _ hhigh),
      decide_eq_true hle]

theorem Dominates.refl {upper lower : PyStr} (h : r.Dominates upper lower) : r.Dominates upper upper := by
  obtain ⟨high, low, hhigh, -, -⟩ := h
  exact ⟨high, high, hhigh, hhigh, r.scheme.lattice.refl high (r.known _ _ hhigh)⟩

theorem Dominates.trans {upper middle lower : PyStr} (h : r.Dominates upper middle) (h' : r.Dominates middle lower) :
    r.Dominates upper lower := by
  obtain ⟨high, mid, hhigh, hmid, hle⟩ := h
  obtain ⟨mid', low, hmid', hlow, hle'⟩ := h'
  rw [hmid] at hmid'
  cases hmid'
  exact ⟨high, low, hhigh, hlow, r.scheme.lattice.trans low (r.known _ _ hlow) mid hle' high hle⟩

theorem labelAll_eq_ok {refs labels : List PyStr} (h : r.labelAll refs = .ok labels) :
    (∀ label ∈ labels, label ∈ r.scheme.labels) ∧ ∀ ref ∈ refs, ∃ label ∈ labels, r.labels.get? ref = some label := by
  induction refs generalizing labels with
  | nil =>
    cases h
    simp
  | cons ref refs ih =>
    unfold labelAll label at h
    simp only [bind_eq_ok, orRaise_eq_ok] at h
    obtain ⟨label, hlabel, rest, hrest, hlabels⟩ := h
    cases hlabels
    obtain ⟨hknown, hfound⟩ := ih hrest
    refine ⟨List.forall_mem_cons.mpr ⟨r.known ref label hlabel, hknown⟩, List.forall_mem_cons.mpr ⟨?_, ?_⟩⟩
    · exact ⟨label, List.mem_cons_self, hlabel⟩
    · intro other hother
      obtain ⟨l, hl, hget⟩ := hfound other hother
      exact ⟨l, List.mem_cons_of_mem _ hl, hget⟩

/-- The label of a ref that `_refs` holds is the one it is found under. -/
theorem labels_of_refs {ref label : PyStr} (h : r.refs.get? label = some ref) : r.labels.get? ref = some label := by
  have hfold (entries : List (PyStr × PyStr)) (found : Dict PyStr PyStr)
      (hfound : ∀ l f, found.get? l = some f → r.labels.get? f = some l)
      (hentries : ∀ entry ∈ entries, r.labels.get? entry.1 = some entry.2) (l f : PyStr)
      (hget : (entries.foldl (fun found entry => found.set entry.2 entry.1) found).get? l = some f) :
      r.labels.get? f = some l := by
    induction entries generalizing found with
    | nil => exact hfound l f hget
    | cons entry entries ih =>
      refine ih (found.set entry.2 entry.1) (fun l' f' hset => ?_)
        (fun e he => hentries e (List.mem_cons_of_mem _ he)) hget
      rw [Dict.get?_set] at hset
      split_ifs at hset with hl
      · cases hset
        rw [← hl]
        exact hentries entry List.mem_cons_self
      · exact hfound l' f' hset
  exact hfold r.labels.entries .empty (by simp) (fun entry he => (Dict.mem_entries_iff _ _ _).mp he) label ref h

theorem dominates_join {refs : List PyStr} {joined ref : PyStr} (h : r.join refs = .ok joined) (hmem : ref ∈ refs) :
    r.Dominates joined ref := by
  unfold join at h
  simp only [bind_eq_ok, orRaise_eq_ok] at h
  obtain ⟨labels, hlabels, top, htop, hjoined⟩ := h
  obtain ⟨hknown, hfound⟩ := r.labelAll_eq_ok hlabels
  obtain ⟨label, hlabel, hget⟩ := hfound ref hmem
  obtain ⟨j, hj⟩ := r.scheme.exists_isJoin hknown
  rw [r.scheme.join_eq hknown hj] at htop
  rw [← Except.ok.inj htop] at hjoined
  exact ⟨j, label, r.labels_of_refs hjoined, hget, hj.upper label hlabel⟩

end LatticeMarkingResolver

/-! ## Chains of references -/

/-- The version names the source. -/
def Derives (ledger : VersionLedger) (version source : AdmittedMemoryVersion) : Prop :=
  ∃ ref ∈ version.item.lineageRefs, ∃ slot, versionRef? ref = some slot ∧ ledger.get slot.1 slot.2 = some source

/-- What a version takes over from a source: its marking and taint at least, and its tenant. -/
structure Inherits (r : LatticeMarkingResolver) (version source : AdmittedMemoryVersion) : Prop where
  marking : r.dominates version.item.classificationMarkingRef source.item.classificationMarkingRef = .ok true
  taint : ∀ label ∈ source.item.taintLabels, label ∈ version.item.taintLabels
  tenant : source.item.tenantId = version.item.tenantId

theorem Inherits.trans {r : LatticeMarkingResolver} {version middle source : AdmittedMemoryVersion}
    (h : Inherits r version middle) (h' : Inherits r middle source) : Inherits r version source := by
  refine ⟨?_, fun label hlabel => h.taint label (h'.taint label hlabel), h'.tenant.trans h.tenant⟩
  rw [r.dominates_eq_true]
  exact .trans r (r.dominates_eq_true.1 h.marking) (r.dominates_eq_true.1 h'.marking)

/-- Every reference of the version resolves. -/
def Resolved (ledger : VersionLedger) (version : AdmittedMemoryVersion) : Prop :=
  ∀ ref ∈ version.item.lineageRefs, ∃ slot source, versionRef? ref = some slot ∧ ledger.get slot.1 slot.2 = some source

theorem Resolved.append {ledger : VersionLedger} {version : AdmittedMemoryVersion} (h : Resolved ledger version)
    (new : AdmittedMemoryVersion) : Resolved (ledger ++ [new]) version := by
  intro ref href
  obtain ⟨slot, source, hslot, hget⟩ := h ref href
  exact ⟨slot, source, hslot, by rw [VersionLedger.get_append, hget, Option.some_or]⟩

theorem Resolved.derives_of_append {ledger : VersionLedger} {version source new : AdmittedMemoryVersion}
    (h : Resolved ledger version) (hderives : Derives (ledger ++ [new]) version source) :
    Derives ledger version source := by
  obtain ⟨ref, href, slot, hslot, hget⟩ := hderives
  obtain ⟨slot', found, hslot', hfound⟩ := h ref href
  rw [hslot] at hslot'
  cases hslot'
  rw [VersionLedger.get_append, hfound, Option.some_or] at hget
  exact ⟨ref, href, slot, hslot, hfound.trans hget⟩

/-- A ledger whose every version was checked against the versions it names. The rank puts
each version after those. -/
structure Sound (r : LatticeMarkingResolver) (ledger : VersionLedger) : Prop where
  resolved : ∀ version ∈ ledger, Resolved ledger version
  own : ∀ version ∈ ledger, Inherits r version version
  inherits : ∀ version ∈ ledger, ∀ source, Derives ledger version source → Inherits r version source
  eligible : ∀ version ∈ ledger, version.item.instructionEligible = true →
    py "MODEL_GENERATED" ∉ version.item.taintLabels
  ranked : ∃ rank : AdmittedMemoryVersion → ℕ, (∀ version ∈ ledger, rank version < ledger.length) ∧
    ∀ version ∈ ledger, ∀ source, Derives ledger version source → rank source < rank version

theorem Derives.mem {ledger : VersionLedger} {version source : AdmittedMemoryVersion} (h : Derives ledger version source) :
    source ∈ ledger := by
  obtain ⟨ref, -, slot, -, hget⟩ := h
  exact (VersionLedger.get_eq_some hget).1

theorem Sound.of_mem {r : LatticeMarkingResolver} {ledger : VersionLedger} (h : Sound r ledger)
    {version source : AdmittedMemoryVersion} (hmem : version ∈ ledger)
    (hchain : Relation.ReflTransGen (Derives ledger) version source) :
    source ∈ ledger ∧ Inherits r version source := by
  induction hchain with
  | refl => exact ⟨hmem, h.own version hmem⟩
  | tail _ hstep ih => exact ⟨hstep.mem, ih.2.trans (h.inherits _ ih.1 _ hstep)⟩

theorem Sound.acyclic {r : LatticeMarkingResolver} {ledger : VersionLedger} (h : Sound r ledger)
    {version : AdmittedMemoryVersion} (hmem : version ∈ ledger) :
    ¬ Relation.TransGen (Derives ledger) version version := by
  obtain ⟨rank, -, hrank⟩ := h.ranked
  have hless (source : AdmittedMemoryVersion) (hchain : Relation.TransGen (Derives ledger) version source) :
      source ∈ ledger ∧ rank source < rank version := by
    induction hchain with
    | single hstep => exact ⟨hstep.mem, hrank version hmem _ hstep⟩
    | tail _ hstep ih => exact ⟨hstep.mem, (hrank _ ih.1 _ hstep).trans ih.2⟩
  exact fun hloop => (hless version hloop).2.ne rfl

/-! ## Admission -/

/-- The admission service that takes its markings from the resolver. -/
def AdmissionService.withMarkings {ω : Type} (a : AdmissionService ω) (r : LatticeMarkingResolver) : AdmissionService ω :=
  { a with dominates := r.dominates, join := r.join }

section Admission
variable {ω : Type} {a : AdmissionService ω} {r : LatticeMarkingResolver} {ledger : VersionLedger}
  {record : AdmittedMemoryVersion} {sources : List GovernedMemoryItem}
  (h : Examined (a.withMarkings r) ledger record.item sources)
include h

theorem Examined.source {ref : PyStr} (href : ref ∈ record.item.lineageRefs) :
    ∃ source ∈ sources, Resolves ledger record.item ref source := by
  obtain ⟨i, hi, rfl⟩ := List.mem_iff_getElem.mp href
  have hlength := h.resolved.length_eq
  exact ⟨_, List.get_mem sources ⟨i, hlength ▸ hi⟩, h.resolved.get hi (hlength ▸ hi)⟩

theorem Examined.references : Resolved ledger record := by
  intro ref href
  obtain ⟨source, -, ⟨slot, found, hslot, hget, -⟩, -, -⟩ := h.source href
  exact ⟨slot, found, hslot, hget⟩

theorem Examined.dominates_required : ∃ required, r.Dominates record.item.classificationMarkingRef required ∧
    ∀ source ∈ sources, r.Dominates required source.classificationMarkingRef := by
  obtain ⟨others, required, hjoin, hdominates⟩ := h.marking
  refine ⟨required, r.dominates_eq_true.1 hdominates, fun source hsource => r.dominates_join hjoin ?_⟩
  exact List.mem_append_right _ (List.mem_map_of_mem hsource)

theorem Examined.inherits {source : AdmittedMemoryVersion} (hderives : Derives ledger record source) :
    Inherits r record source := by
  obtain ⟨ref, href, slot, hslot, hget⟩ := hderives
  obtain ⟨item, hmem, ⟨slot', found, hslot', hfound, rfl⟩, -, htenant⟩ := h.source href
  rw [hslot] at hslot'
  cases hslot'
  rw [hget] at hfound
  cases hfound
  obtain ⟨required, hown, hsources⟩ := h.dominates_required
  exact ⟨r.dominates_eq_true.2 (.trans r hown (hsources _ hmem)), h.taint _ hmem, htenant⟩

theorem Examined.own : Inherits r record record := by
  obtain ⟨required, hown, -⟩ := h.dominates_required
  exact ⟨r.dominates_eq_true.2 (.refl r hown), fun _ hlabel => hlabel, rfl⟩

theorem Sound.append (hsound : Sound r ledger) : Sound r (ledger ++ [record]) := by
  obtain ⟨rank, hbound, hrank⟩ := hsound.ranked
  have hnames (version : AdmittedMemoryVersion) (hmem : version ∈ ledger ++ [record]) : Resolved ledger version := by
    rcases List.mem_append.mp hmem with hold | hlast
    · exact hsound.resolved version hold
    · rw [List.mem_singleton.mp hlast]
      exact h.references
  refine ⟨fun version hmem => (hnames version hmem).append record, fun version hmem => ?_, fun version hmem source hderives => ?_,
    fun version hmem => ?_, ?_⟩
  · rcases List.mem_append.mp hmem with hold | hlast
    · exact hsound.own version hold
    · rw [List.mem_singleton.mp hlast]
      exact h.own
  · have hbefore := (hnames version hmem).derives_of_append hderives
    rcases List.mem_append.mp hmem with hold | hlast
    · exact hsound.inherits version hold source hbefore
    · rw [List.mem_singleton.mp hlast] at hbefore ⊢
      exact h.inherits hbefore
  · rcases List.mem_append.mp hmem with hold | hlast
    · exact hsound.eligible version hold
    · rw [List.mem_singleton.mp hlast]
      exact h.eligible
  · classical
    refine ⟨fun version => if version ∈ ledger then rank version else ledger.length, fun version hmem => ?_,
      fun version hmem source hderives => ?_⟩
    · dsimp only
      rw [List.length_append, List.length_singleton]
      split_ifs with hold
      · exact (hbound version hold).trans (Nat.lt_succ_self _)
      · exact Nat.lt_succ_self _
    · have hbefore := (hnames version hmem).derives_of_append hderives
      dsimp only
      rw [if_pos hbefore.mem]
      split_ifs with hold
      · exact hrank version hold source hbefore
      · exact hbound source hbefore.mem

end Admission

theorem Sound.admits {ω : Type} {a : AdmissionService ω} {r : LatticeMarkingResolver} {s s' : Stores ω}
    (h : Sound r s.ledger) (hadmits : Relation.ReflTransGen (Admits (a.withMarkings r)) s s') : Sound r s'.ledger := by
  induction hadmits with
  | refl => exact h
  | tail _ hstep ih =>
    cases hstep with
    | outside o => exact ih
    | entry fits event keyed examined => exact ih.append examined

/-- One call of `admit`, with what its collaborators do meanwhile. -/
structure AdmissionCall where
  env : AdmissionEnv
  request : AdmissionRequest
  binding : Option VerifiedGovernedContextBinding
  payload : Bytes

/-- The stores after a call of `admit`, whether it returned or raised. -/
def AdmissionService.step {ω : Type} (a : AdmissionService ω) (s : Stores ω) (call : AdmissionCall) : Stores ω :=
  (a.admitMemory call.env call.request call.binding call.payload ⟨s, 0⟩).2.stores

/-- No version reached from another by references is hidden behind it. -/
structure NotLaundered (r : LatticeMarkingResolver) (ledger : VersionLedger) : Prop where
  resolved : ∀ version ∈ ledger, Resolved ledger version
  inherits : ∀ version ∈ ledger, ∀ source, Relation.ReflTransGen (Derives ledger) version source → Inherits r version source
  acyclic : ∀ version ∈ ledger, ¬ Relation.TransGen (Derives ledger) version version
  eligible : ∀ version ∈ ledger, version.item.instructionEligible = true →
    ∀ source, Relation.ReflTransGen (Derives ledger) version source → py "MODEL_GENERATED" ∉ source.item.taintLabels

/-- **Nothing is laundered through lineage.** After every run of admissions, whatever the
collaborators answer and wherever a call is cut off: the references of every version resolve;
along every chain of them the marking dominates, the taint is contained and the tenant stays;
no chain returns; and a version that may instruct has no model-generated one behind it. -/
theorem AdmissionService.lineage_not_laundered {ω : Type} (a : AdmissionService ω) (r : LatticeMarkingResolver)
    (outside : ω) (calls : List AdmissionCall) :
    NotLaundered r (run (a.withMarkings r).step (MemorySystem.initial outside) calls).ledger := by
  have hempty : Sound r (MemorySystem.initial outside).ledger :=
    ⟨List.forall_mem_nil _, List.forall_mem_nil _, List.forall_mem_nil _, List.forall_mem_nil _,
      fun _ => 0, List.forall_mem_nil _, List.forall_mem_nil _⟩
  have hrun (s : Stores ω) (hs : Sound r s.ledger) : Sound r (run (a.withMarkings r).step s calls).ledger := by
    induction calls generalizing s with
    | nil => exact hs
    | cons call calls ih =>
      have hruns := (a.withMarkings r).runs_admitMemory (s := s) call.env call.request call.binding call.payload
      exact ih _ (hs.admits (hruns 0).1)
  have hsound := hrun _ hempty
  refine ⟨hsound.resolved, fun version hmem source hchain => (hsound.of_mem hmem hchain).2,
    fun version hmem => hsound.acyclic hmem, fun version hmem heligible source hchain hgenerated => ?_⟩
  exact hsound.eligible version hmem heligible ((hsound.of_mem hmem hchain).2.taint _ hgenerated)

end OcorRuntime.Memory

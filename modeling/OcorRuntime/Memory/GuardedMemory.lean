import OcorRuntime.Memory.ConsolidationWrites
import OcorRuntime.Memory.MemoryRuns

/-! Runs of guarded derived memory: any sequence of admissions under the guard,
consolidations and corrections, each cut off anywhere, with the process starting anew in
between. Derived versions come from the service alone, and a dissent keeps its content. -/
namespace OcorRuntime.Memory
open Canonical Kernel
set_option autoImplicit false
set_option maxHeartbeats 250000

variable {ω : Type}

/-! ## Lines of versions -/

/-- What a later version of an item keeps of an earlier one. -/
structure Succeeds (head item : GovernedMemoryItem) : Prop where
  kind : item.memoryKind = head.memoryKind
  consolidated : head.sourceKind = .memoryConsolidation → item.sourceKind = .memoryConsolidation
  dissent : head.memoryKind = .dissent → item.contentDigest = head.contentDigest

theorem Succeeds.refl (item : GovernedMemoryItem) : Succeeds item item := ⟨rfl, id, fun _ => rfl⟩

theorem Succeeds.trans {a b d : GovernedMemoryItem} (h : Succeeds a b) (h' : Succeeds b d) : Succeeds a d :=
  ⟨h'.kind.trans h.kind, fun ha => h'.consolidated (h.consolidated ha),
    fun ha => (h'.dissent (h.kind.trans ha)).trans (h.dissent ha)⟩

/-- A ledger built by appends, whose versions succeed each other. -/
structure VersionLedger.Descends (ledger : VersionLedger) : Prop where
  ordered : ledger.Ordered
  succeeds : ∀ head ∈ ledger, ∀ record ∈ ledger, head.item.memoryItemId = record.item.memoryItemId →
    head.item.memoryVersion + 1 = record.item.memoryVersion → Succeeds head.item record.item

namespace VersionLedger.Descends
variable {ledger : VersionLedger}

theorem append {record : AdmittedMemoryVersion} (h : ledger.Descends) (fits : Fits ledger record)
    (succeeds : 1 < record.item.memoryVersion → ∃ head,
      ledger.get record.item.memoryItemId (record.item.memoryVersion - 1) = some head ∧ Succeeds head.item record.item) :
    VersionLedger.Descends (ledger ++ [record]) := by
  refine ⟨.snoc h.ordered fits.next fits.fresh fits.verified, fun head hhead other hother hitem hversion => ?_⟩
  rcases List.mem_append.mp hhead with hhead | hhead
  · rcases List.mem_append.mp hother with hother | hother
    · exact h.succeeds head hhead other hother hitem hversion
    · rw [List.mem_singleton.mp hother] at hitem hversion ⊢
      have hpos := (h.ordered.version_bounds hhead).1
      obtain ⟨found, hget, hsucceeds⟩ := succeeds (by omega)
      have hsame := h.ordered.get_of_mem hhead
      rw [hitem, show head.item.memoryVersion = record.item.memoryVersion - 1 by omega, hget] at hsame
      cases hsame
      exact hsucceeds
  · rw [List.mem_singleton.mp hhead] at hitem hversion
    rcases List.mem_append.mp hother with hother | hother
    · have hlater := fits.later h.ordered hother hitem.symm
      omega
    · rw [List.mem_singleton.mp hother] at hversion
      omega

theorem of_le (h : ledger.Descends) {head record : AdmittedMemoryVersion} (hhead : head ∈ ledger) (hrecord : record ∈ ledger)
    (hitem : head.item.memoryItemId = record.item.memoryItemId)
    (hle : head.item.memoryVersion ≤ record.item.memoryVersion) : Succeeds head.item record.item := by
  -- by induction on the versions from `head` on
  obtain ⟨n, hn⟩ := Nat.exists_eq_add_of_le hle
  induction n generalizing record with
  | zero =>
    rw [h.ordered.eq_of_slot hhead hrecord hitem hn.symm]
    exact .refl _
  | succ n ih =>
    have hbound := (h.ordered.version_bounds hrecord).2
    have hpos := (h.ordered.version_bounds hhead).1
    have hexists : ∃ found, ledger.get record.item.memoryItemId (head.item.memoryVersion + n) = some found :=
      h.ordered.exists_get (by omega) (by omega)
    obtain ⟨before, hget⟩ := hexists
    obtain ⟨hmem, hsame, hnumber⟩ := VersionLedger.get_eq_some hget
    have hbefore := ih hmem (hitem.trans hsame.symm) (by omega) hnumber
    exact hbefore.trans (h.succeeds before hmem record hrecord hsame (by omega))

end VersionLedger.Descends

theorem VersionLedger.Ordered.nodup {ledger : VersionLedger} (h : ledger.Ordered) : ledger.Nodup := by
  induction h with
  | nil => exact List.nodup_nil
  | @snoc earlier last before next fresh verified ih =>
    refine List.nodup_append.mpr ⟨ih, List.nodup_singleton last, fun record hmem other hother heq => ?_⟩
    have hbounds := (before.version_bounds hmem).2
    rw [heq, List.mem_singleton.mp hother] at hbounds
    omega

/-! ## Admissions -/

section Admissions
variable {a : AdmissionService ω} {candidate : MemoryFields} {G : VersionLedger → GovernedMemoryItem → Prop}
  {s s' : Stores ω}

theorem GovernedMemoryItem.ext_fields {item other : GovernedMemoryItem} (h : item.toMemoryFields = other.toMemoryFields) :
    item = other := by
  cases item
  cases other
  cases h
  rfl

/-- What a ledger takes under a policy stays a descending ledger, if what is granted succeeds its predecessor. -/
theorem Enrolls.descends (h : Relation.ReflTransGen (Enrolls a candidate G) s s') (hledger : s.ledger.Descends)
    (hG : ∀ ledger item head, GovernedMemoryItem.toMemoryFields item = candidate → G ledger item →
      1 < item.memoryVersion → ledger.get item.memoryItemId (item.memoryVersion - 1) = some head →
        item.memoryKind = head.item.memoryKind → Succeeds head.item item) : s'.ledger.Descends := by
  induction h with
  | refl => exact hledger
  | tail _ hstep ih =>
    cases hstep with
    | outside => exact ih
    | @entry record payload sources fits event keyed asked checked granted =>
      refine ih.append fits fun hlater => ?_
      obtain ⟨head, hget, hsame⟩ := checked.predecessor hlater
      simp only [AdmissionService.identity, Prod.mk.injEq] at hsame
      exact ⟨head, hget, hG _ _ head asked granted hlater hget hsame.2.2.2.1.symm⟩

theorem Enrolls.appended (h : Relation.ReflTransGen (Enrolls a candidate G) s s') :
    ∃ added, s'.ledger = s.ledger ++ added ∧ ∀ record ∈ added, record.item.toMemoryFields = candidate ∧
      ∃ ledger, G ledger record.item := by
  induction h with
  | refl => exact ⟨[], (List.append_nil _).symm, List.forall_mem_nil _⟩
  | tail _ hstep ih =>
    obtain ⟨added, hadded, hall⟩ := ih
    cases hstep with
    | outside => exact ⟨added, hadded, hall⟩
    | @entry record payload sources fits event keyed asked checked granted =>
      refine ⟨added ++ [record], ?_, ?_⟩
      · dsimp only
        rw [hadded, List.append_assoc]
      · intro other hother
        rcases List.mem_append.mp hother with hold | hnew
        · exact hall other hold
        · rw [List.mem_singleton.mp hnew]
          exact ⟨asked, _, granted⟩

end Admissions

/-! ## The invariant -/

/-- What a derivation of the run was. -/
structure Made (str : PyValue → PyStr) (s : ConsolidationState ω) (d : Derivation) (derived : Derived) : Prop where
  made : IsDerived str s derived
  digest : d.itemDigest = derived.item.digest
  payload : d.payload = derived.payload
  appended : ∀ record ∈ d.appended, record ∈ s.stores.ledger ∧ record.item = derived.item

/-- The state of the stores and the registry between two calls. -/
structure GuardedMemory (str : PyValue → PyStr) (s : ConsolidationState ω) : Prop where
  idle : s.registry.expected = .empty
  ledger : s.stores.ledger.Descends
  derived : ∀ record ∈ s.stores.ledger, record.item.sourceKind = .memoryConsolidation →
    ∃ d ∈ s.registry.derivations, record ∈ d.appended
  made : ∀ d ∈ s.registry.derivations, ∃ derived, Made str s d derived
  apart : s.registry.derivations.Pairwise fun d d' => ∀ record ∈ d.appended, record ∉ d'.appended

theorem Made.mono {c : ConsolidationService ω} {s s' : ConsolidationState ω} {d : Derivation} {derived : Derived}
    (h : Made c.str s d derived) (hmoved : Relation.ReflTransGen (Consolidates c) s s') : Made c.str s' d derived :=
  ⟨h.made.mono hmoved, h.digest, h.payload, fun record hmem =>
    ⟨(Consolidates.ledger_prefix hmoved).subset (h.appended record hmem).1, (h.appended record hmem).2⟩⟩

theorem Expected.count_empty (itemDigest : PyStr) : Expected.count .empty itemDigest = 0 := rfl

theorem Expected.release_expect_empty (itemDigest : PyStr) :
    Expected.release (Expected.expect .empty itemDigest) itemDigest = .empty := by
  have hcount : Expected.count (Expected.expect .empty itemDigest) itemDigest = 1 := by
    unfold Expected.count Expected.expect
    rw [Dict.get?_set_self, Option.getD_some, Expected.count_empty]
  unfold Expected.release
  rw [if_pos (by omega)]
  simp [Expected.expect, Dict.erase, Dict.set, Dict.empty, Dict.put]

/-- A derived item succeeds its predecessor: it is a first version, or no dissent. -/
theorem IsDerived.succeeds {str : PyValue → PyStr} {s : ConsolidationState ω} {derived : Derived}
    {head item : GovernedMemoryItem} (h : IsDerived str s derived) (hitem : item.toMemoryFields = derived.item.toMemoryFields)
    (hlater : 1 < item.memoryVersion) (hkind : item.memoryKind = head.memoryKind) : Succeeds head item := by
  rw [GovernedMemoryItem.ext_fields hitem] at hlater hkind ⊢
  refine ⟨hkind, fun _ => h.consolidated, fun hdissent => ?_⟩
  cases h.origin with
  | dissent kind first => omega
  | summary kind first summary => omega
  | correction mem consolidated kind carries corrected binds correction =>
    exact absurd (carries.2.1.symm.trans (hkind.trans hdissent)) kind

theorem succeeds_of_not_guards {ledger : VersionLedger} {head : AdmittedMemoryVersion} {item : GovernedMemoryItem}
    (h : ¬ Guards ledger item) (hlater : 1 < item.memoryVersion)
    (hget : ledger.get item.memoryItemId (item.memoryVersion - 1) = some head)
    (hkind : item.memoryKind = head.item.memoryKind) : Succeeds head.item item := by
  refine ⟨hkind, fun hhead => absurd (.inr ⟨hlater, head, hget, .inl hhead⟩) h, fun hdissent => ?_⟩
  by_contra hne
  exact h (.inr ⟨hlater, head, hget, .inr ⟨hdissent, Ne.symm hne⟩⟩)

theorem not_guards_of_granted {ledger : VersionLedger} {item : GovernedMemoryItem} (h : Granted .empty ledger item) :
    ¬ Guards ledger item := by
  intro hguards
  have hcount := h hguards
  rw [Expected.count_empty] at hcount
  exact absurd hcount (lt_irrefl 0)

namespace GuardedMemory
variable {c : ConsolidationService ω} {s s' : ConsolidationState ω}

/-- A step that leaves the ledger, the expected digests and the derivations keeps the invariant. -/
theorem of_same (h : GuardedMemory c.str s) (hstep : Consolidates c s s') (hledger : s'.stores.ledger = s.stores.ledger)
    (hexpected : s'.registry.expected = s.registry.expected)
    (hderivations : s'.registry.derivations = s.registry.derivations) : GuardedMemory c.str s' := by
  refine ⟨hexpected.trans h.idle, hledger ▸ h.ledger, ?_, ?_, hderivations ▸ h.apart⟩
  · rw [hledger, hderivations]
    exact h.derived
  · rw [hderivations]
    intro d hd
    obtain ⟨derived, hmade⟩ := h.made d hd
    exact ⟨derived, hmade.mono (.single hstep)⟩

theorem admission {t t' : Stores ω} {r : Registry} {candidate : MemoryFields} (h : GuardedMemory c.str ⟨t, r⟩)
    (enrolls : Enrolls c.admission candidate (Granted r.expected) t t') : GuardedMemory c.str ⟨t', r⟩ := by
  have hstep : Consolidates c ⟨t, r⟩ ⟨t', r⟩ := .admission enrolls
  have hidle : r.expected = .empty := h.idle
  rw [hidle] at enrolls
  refine ⟨hidle, ?_, fun record hmem hsource => ?_, fun d hd => ?_, h.apart⟩
  · refine Enrolls.descends (.single enrolls) h.ledger fun ledger item head _ granted hlater hget hkind => ?_
    exact succeeds_of_not_guards (not_guards_of_granted granted) hlater hget hkind
  · obtain ⟨added, hadded, hall⟩ := Enrolls.appended (.single enrolls)
    dsimp only at hmem
    rw [hadded] at hmem
    rcases List.mem_append.mp hmem with hold | hnew
    · exact h.derived record hold hsource
    · obtain ⟨-, ledger, granted⟩ := hall record hnew
      exact absurd (.inl hsource) (not_guards_of_granted granted)
  · obtain ⟨derived, hmade⟩ := h.made d hd
    exact ⟨derived, hmade.mono (.single hstep)⟩

theorem derivation {t t' : Stores ω} {r : Registry} {derived : Derived} (h : GuardedMemory c.str ⟨t, r⟩)
    (made : IsDerived c.str ⟨t, r⟩ derived) (enrolls : Relation.ReflTransGen (Enrolls c.admission
      derived.item.toMemoryFields (Granted (r.expected.expect derived.item.digest))) t t') :
    GuardedMemory c.str ⟨t', { r with
      expected := (r.expected.expect derived.item.digest).release derived.item.digest
      derivations := r.derivations ++ [⟨derived.item.digest, derived.payload, t'.ledger.drop t.ledger.length⟩] }⟩ := by
  have hmoved := Relation.ReflTransGen.single (Consolidates.derivation made enrolls)
  have hidle : r.expected = .empty := h.idle
  have hledger : t'.ledger.Descends := by
    refine Enrolls.descends enrolls h.ledger fun ledger item head asked _ hlater _ hkind => ?_
    exact made.succeeds asked hlater hkind
  obtain ⟨added, hadded, hall⟩ := Enrolls.appended enrolls
  have hdrop : t'.ledger.drop t.ledger.length = added := by rw [hadded, List.drop_left]
  have happended : ∀ record ∈ added, record ∈ t'.ledger ∧ record.item = derived.item := fun record hmem =>
    ⟨hadded ▸ List.mem_append_right _ hmem, GovernedMemoryItem.ext_fields (hall record hmem).1⟩
  refine ⟨?_, hledger, fun record hmem hsource => ?_, fun d hd => ?_, ?_⟩
  · dsimp only
    rw [hidle, Expected.release_expect_empty]
  · dsimp only at hmem ⊢
    rw [hdrop]
    rw [hadded] at hmem
    rcases List.mem_append.mp hmem with hold | hnew
    · obtain ⟨d, hd, hin⟩ := h.derived record hold hsource
      exact ⟨d, List.mem_append_left _ hd, hin⟩
    · exact ⟨_, List.mem_append_right _ (List.mem_singleton.mpr rfl), hnew⟩
  · rcases List.mem_append.mp hd with hold | hnew
    · obtain ⟨earlier, hmade⟩ := h.made d hold
      exact ⟨earlier, hmade.mono hmoved⟩
    · rw [List.mem_singleton.mp hnew]
      exact ⟨derived, made.mono hmoved, rfl, rfl, hdrop ▸ happended⟩
  · refine List.pairwise_append.mpr ⟨h.apart, List.pairwise_singleton _ _, fun d hd d' hd' record hmem hmem' => ?_⟩
    rw [List.mem_singleton.mp hd', hdrop] at hmem'
    obtain ⟨earlier, hmade⟩ := h.made d hd
    have hnodup := hledger.ordered.nodup
    rw [hadded] at hnodup
    exact (List.nodup_append.mp hnodup).2.2 record (hmade.appended record hmem).1 record hmem' rfl

theorem consolidates (h : GuardedMemory c.str s) (hstep : Consolidates c s s') : GuardedMemory c.str s' := by
  cases hstep with
  | quiet r hquiet => exact h.of_same (.quiet r hquiet) (Quiet.ledger_eq (.single hquiet)) rfl rfl
  | references t r references => exact h.of_same (.references t r references) rfl rfl rfl
  | reading t r payload => exact h.of_same (.reading t r payload) rfl rfl rfl
  | record appends => exact h.of_same (.record appends) rfl rfl rfl
  | admission enrolls => exact h.admission enrolls
  | derivation made enrolls => exact h.derivation made enrolls

theorem moved (h : GuardedMemory c.str s) (hmoved : Relation.ReflTransGen (Consolidates c) s s') :
    GuardedMemory c.str s' := by
  induction hmoved with
  | refl => exact h
  | tail _ hstep ih => exact ih.consolidates hstep

end GuardedMemory

/-! ## Runs -/

namespace ConsolidationService
variable (c : ConsolidationService ω)

theorem guardedMemory_step {s : ConsolidationState ω} (h : GuardedMemory c.str s) (call : ConsolidationCall) :
    GuardedMemory c.str (c.step s call) := by
  cases call with
  | admission env request binding payload => exact h.moved (c.goes_admitGuarded env request binding payload 0).1
  | consolidation env request binding => exact h.moved (c.goes_consolidate env request binding 0).1
  | correction env request binding => exact h.moved (c.goes_correct env request binding 0).1
  | restart =>
    refine ⟨rfl, h.ledger, h.derived, fun d hd => ?_, h.apart⟩
    obtain ⟨derived, hmade⟩ := h.made d hd
    refine ⟨derived, ⟨hmade.made.consolidated, hmade.made.content, ?_⟩, hmade.digest, hmade.payload, hmade.appended⟩
    exact hmade.made.origin.mono (List.prefix_refl _) (List.prefix_refl _)

theorem guardedMemory_initial (outside : ω) : GuardedMemory c.str (initial outside) :=
  ⟨rfl, ⟨.nil, List.forall_mem_nil _⟩, List.forall_mem_nil _, List.forall_mem_nil _, List.Pairwise.nil⟩

theorem guardedMemory_run (outside : ω) (calls : List ConsolidationCall) :
    GuardedMemory c.str (run c.step (initial outside) calls) := by
  have hstep : ∀ s call, GuardedMemory c.str s → GuardedMemory c.str (c.step s call) := fun _ call h =>
    c.guardedMemory_step h call
  exact run_induction hstep (c.guardedMemory_initial outside) calls

/-- The version was appended while the service admitted the item with exactly its digest. -/
def AppendedByService (s : ConsolidationState ω) (record : AdmittedMemoryVersion) : Prop :=
  ∃ d ∈ s.registry.derivations, d.itemDigest = record.item.digest ∧ record ∈ d.appended

/-- **Derived memory is guarded**, after every run of admissions under the guard,
consolidations and corrections, whatever the collaborators answer and wherever a call is cut
off: the versions of a dissent have one content, a consolidated version and every version
after one were appended by the service for exactly their digest, and between calls the guard
expects nothing. -/
theorem derived_memory_is_guarded (outside : ω) (calls : List ConsolidationCall) :
    (∀ version ∈ (run c.step (initial outside) calls).stores.ledger,
      ∀ other ∈ (run c.step (initial outside) calls).stores.ledger,
        version.item.memoryItemId = other.item.memoryItemId → version.item.memoryKind = .dissent →
          other.item.contentDigest = version.item.contentDigest) ∧
    (∀ version ∈ (run c.step (initial outside) calls).stores.ledger, version.item.sourceKind = .memoryConsolidation →
      ∀ later ∈ (run c.step (initial outside) calls).stores.ledger,
        version.item.memoryItemId = later.item.memoryItemId → version.item.memoryVersion ≤ later.item.memoryVersion →
          AppendedByService (run c.step (initial outside) calls) later) ∧
    (run c.step (initial outside) calls).registry.expected = .empty := by
  have h := c.guardedMemory_run outside calls
  refine ⟨fun version hversion other hother hitem hdissent => ?_, fun version hversion hsource later hlater hitem hle => ?_,
    h.idle⟩
  · rcases le_total version.item.memoryVersion other.item.memoryVersion with hle | hle
    · exact (h.ledger.of_le hversion hother hitem hle).dissent hdissent
    · have hsucceeds := h.ledger.of_le hother hversion hitem.symm hle
      exact (hsucceeds.dissent (hsucceeds.kind.symm.trans hdissent)).symm
  · have hsource' := (h.ledger.of_le hversion hlater hitem hle).consolidated hsource
    obtain ⟨d, hd, hmem⟩ := h.derived later hlater hsource'
    obtain ⟨derived, hmade⟩ := h.made d hd
    refine ⟨d, hd, ?_, hmem⟩
    rw [hmade.digest, (hmade.appended later hmem).2]

end ConsolidationService
end OcorRuntime.Memory

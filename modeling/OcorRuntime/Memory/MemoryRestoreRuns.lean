import OcorRuntime.Foundations.Collect
import OcorRuntime.Memory.MemoryRestore
import OcorRuntime.Memory.RestoreRuns

/-! What the boundary of restored memory gives out over every run: a response stands between
two comparisons of the stores with the manifest of the last successful opening, each
followed by the stop epoch of that opening, and a failure closes the boundary. -/
namespace OcorRuntime.Memory
open Canonical Kernel
set_option autoImplicit false
set_option maxHeartbeats 250000

/-- The call is one of the window. -/
def Within (first last n : ℕ) : Prop := first ≤ n ∧ n < last

theorem Within.mono {first last first' last' n : ℕ} (h : Within first last n) (hfirst : first' ≤ first) (hlast : last ≤ last') :
    Within first' last' n := ⟨Nat.le_trans hfirst h.1, Nat.lt_of_lt_of_le h.2 hlast⟩

/-! ## What one comparison establishes -/

section Compared
variable (env : MemoryRestoreEnv) (partitionDigest : PyStr) (entry : ManifestEntry) (tombstone : Option TombstoneEntry)
  (first last : ℕ)

/-- The item has the tombstone's epoch on its head record. -/
def DeletedSince : Prop :=
  ∃ t, tombstone = some t ∧ MemoryRestoreGate.deletedAfter tombstone (entry.get "deletion_epoch") = .ok true ∧
    ∃ head record, (∃ n, Within first last n ∧ env.metadataHead n entry.memoryItemId = .ok head) ∧
      (∃ n, Within first last n ∧ env.ledgerGet n entry.memoryItemId head = .ok (some record)) ∧
      record.item.deletionEpoch = some t.deletionEpoch

/-- The item's head, its row and its versions are what the manifest recorded. -/
structure AsRecorded (head : ℕ) (record : AdmittedMemoryVersion) (stored : StoredVersion) : Prop where
  headRead : ∃ n, Within first last n ∧ env.metadataHead n entry.memoryItemId = .ok head
  headVersion : PyValue.pyEq (.int head) (entry.get "head_version") = true
  latestRead : ∃ n, Within first last n ∧ env.ledgerLatest n entry.memoryItemId = .ok head
  recordRead : ∃ n, Within first last n ∧ env.ledgerGet n entry.memoryItemId head = .ok (some record)
  rowRead : ∃ n, Within first last n ∧ env.metadataGet n entry.memoryItemId head = .ok (some stored)
  committed : stored.state = .committed
  placed : stored.staged.partition.digest = partitionDigest
  stage : PyValue.pyEq (.str stored.staged.stageDigest) (entry.get "stage_digest") = true
  bound : record.itemDigest = stored.staged.itemDigest
  epoch : PyValue.pyEq (epochValue record.item.deletionEpoch) (entry.get "deletion_epoch") = true
  pointers : ∃ representations, entry.get "representations" = .list representations ∧
    sameEpochs stored.staged.pointers representations = .ok true
  digests : ∃ versions, List.Forall₂ (fun v r => ∃ n, Within first last n ∧ env.ledgerGet n entry.memoryItemId v = .ok r)
      (List.range' 1 head) versions ∧
    PyValue.pyEq (.list (versions.map fun r => textValue (r.map fun record => record.itemDigest)))
      (entry.get "item_digests") = true
  audits : ∃ rows, List.Forall₂ (fun v r => ∃ n, Within first last n ∧ env.metadataGet n entry.memoryItemId v = .ok r)
      (List.range' 1 head) rows ∧
    PyValue.pyEq (.list (rows.map fun r => textValue (r.map fun stored => stored.staged.auditRef)))
      (entry.get "audit_refs") = true

/-- What one comparison finds of an item of the manifest. -/
def ItemVerified : Prop :=
  DeletedSince env entry tombstone first last ∨
    (MemoryRestoreGate.deletedAfter tombstone (entry.get "deletion_epoch") = .ok false ∧
      ∃ head record stored, AsRecorded env partitionDigest entry first last head record stored)

end Compared

/-- A comparison of the stores with the manifest that passed, by the readings of its window. -/
structure Verified (env : MemoryRestoreEnv) (manifest : BackupManifest) (obligations : List TombstoneEntry) (first last : ℕ) :
    Prop where
  only : ∃ n rows, Within first last n ∧ env.versionsIn n manifest.partitionDigest = .ok rows ∧
    ∀ row ∈ rows, row.staged.memoryItemId ∈ manifest.entries.map ManifestEntry.memoryItemId
  items : ∀ entry ∈ manifest.entries,
    ItemVerified env manifest.partitionDigest entry (obligationOf obligations entry.memoryItemId) first last

section Windows
variable {env : MemoryRestoreEnv} {partitionDigest : PyStr} {entry : ManifestEntry} {tombstone : Option TombstoneEntry}
  {first last first' last' : ℕ}

theorem read_mono {answer : ℕ → Prop} (h : ∃ n, Within first last n ∧ answer n) (hfirst : first' ≤ first)
    (hlast : last ≤ last') : ∃ n, Within first' last' n ∧ answer n :=
  h.imp fun _ hn => ⟨hn.1.mono hfirst hlast, hn.2⟩

theorem ItemVerified.mono (h : ItemVerified env partitionDigest entry tombstone first last) (hfirst : first' ≤ first)
    (hlast : last ≤ last') : ItemVerified env partitionDigest entry tombstone first' last' := by
  rcases h with ⟨t, ht, hdeleted, head, record, hhead, hrecord, hepoch⟩ | ⟨hlive, head, record, stored, h⟩
  · exact .inl ⟨t, ht, hdeleted, head, record, read_mono hhead hfirst hlast, read_mono hrecord hfirst hlast, hepoch⟩
  · obtain ⟨versions, hversions, hdigests⟩ := h.digests
    obtain ⟨rows, hrows, haudits⟩ := h.audits
    exact .inr ⟨hlive, head, record, stored,
      { h with
        headRead := read_mono h.headRead hfirst hlast
        latestRead := read_mono h.latestRead hfirst hlast
        recordRead := read_mono h.recordRead hfirst hlast
        rowRead := read_mono h.rowRead hfirst hlast
        digests := ⟨versions, hversions.imp fun _ _ hr => read_mono hr hfirst hlast, hdigests⟩
        audits := ⟨rows, hrows.imp fun _ _ hr => read_mono hr hfirst hlast, haudits⟩ }⟩

end Windows

/-! ## The parts of a comparison -/

section Parts
variable {α : Type} {env : MemoryRestoreEnv} {m : MemoryRestoreGate}

theorem orClosed_eq_ok {error : PyError} {x : Restoring α} {s s' : Asking (GateState (Option OpenRestore))} {a : α} :
    orClosed error x s = (.ok a, s') ↔ x s = (.ok a, s') := by
  unfold orClosed
  rcases hx : x s with ⟨outcome, mid⟩
  cases outcome with
  | ok b => rw [Op.guarded_of_ok hx]
  | error why =>
    rw [Op.guarded_of_error hx]
    cases why <;> simp

theorem orClosed_keeps {error : PyError} {x : Restoring α} (h : Op.Keeps Onward x) : Op.Keeps Onward (orClosed error x) := by
  refine h.guarded fun why => ?_
  cases why
  · exact Op.Keeps.raise _
  · exact Op.Keeps.raise _

theorem restoreCheck_eq_ok {bad : Prop} [Decidable bad] {error : PyError} {s s' : Asking (GateState (Option OpenRestore))} :
    restoreCheck bad error s = (.ok (), s') ↔ ¬ bad ∧ s = s' := by
  rw [restoreCheck, Op.lift_eq_ok, refuseIf_eq_ok]

theorem restoreCheck_keeps {R : Asking (GateState (Option OpenRestore)) → Asking (GateState (Option OpenRestore)) → Prop}
    [Std.Refl R] (bad : Prop) [Decidable bad] (error : PyError) : Op.Keeps R (restoreCheck bad error) := Op.Keeps.lift _

namespace MemoryRestoreGate

theorem epoch_keeps : Op.Keeps Onward (m.epoch env) :=
  Op.Keeps.bind (orClosed_keeps (Onward.ask _)) fun _ => Op.Keeps.lift _

theorem epoch_eq_ok {s s' : Asking (GateState (Option OpenRestore))} {epoch : ℕ} (h : m.epoch env s = (.ok epoch, s')) :
    env.stopEpoch s.calls m.context = .ok (some epoch) ∧ s' = ⟨s.calls + 1, s.own⟩ := by
  obtain ⟨answer, mid, hask, hlift⟩ := Op.bind_eq_ok.1 h
  obtain ⟨hanswer, rfl⟩ := ask_eq_ok.1 (orClosed_eq_ok.1 hask)
  obtain ⟨hsome, rfl⟩ := Op.lift_eq_ok.1 hlift
  rw [orRaise_eq_ok] at hsome
  exact ⟨hsome ▸ hanswer, rfl⟩

theorem checkEpoch_keeps (expected : ℕ) : Op.Keeps Onward (m.checkEpoch env expected) :=
  Op.Keeps.bind epoch_keeps fun _ => restoreCheck_keeps _ _

theorem checkEpoch_eq_ok {expected : ℕ} {s s' : Asking (GateState (Option OpenRestore))}
    (h : m.checkEpoch env expected s = (.ok (), s')) :
    env.stopEpoch s.calls m.context = .ok (some expected) ∧ s' = ⟨s.calls + 1, s.own⟩ := by
  obtain ⟨epoch, mid, hepoch, hcheck⟩ := Op.bind_eq_ok.1 h
  obtain ⟨hread, rfl⟩ := epoch_eq_ok hepoch
  obtain ⟨hsame, rfl⟩ := restoreCheck_eq_ok.1 hcheck
  exact ⟨not_not.mp hsame ▸ hread, rfl⟩

theorem headOf_keeps (memoryItemId : PyStr) : Op.Keeps Onward (headOf env memoryItemId) := by
  refine Op.Keeps.bind (Onward.ask _) fun head => ?_
  split_ifs
  · exact Op.Keeps.pure _
  · exact Op.Keeps.bind (Onward.ask _) fun _ => Op.Keeps.bind (Onward.ask _) fun _ => Op.Keeps.pure _

theorem headOf_eq_ok {memoryItemId : PyStr} {s s' : Asking (GateState (Option OpenRestore))} {head : ℕ}
    {record : Option AdmittedMemoryVersion} {stored : Option StoredVersion}
    (h : headOf env memoryItemId s = (.ok (head, record, stored), s')) :
    Onward s s' ∧ (∃ n, Within s.calls s'.calls n ∧ env.metadataHead n memoryItemId = .ok head) ∧
      (∀ r, record = some r → ∃ n, Within s.calls s'.calls n ∧ env.ledgerGet n memoryItemId head = .ok (some r)) ∧
      ∀ r, stored = some r → ∃ n, Within s.calls s'.calls n ∧ env.metadataGet n memoryItemId head = .ok (some r) := by
  have hkeeps : Onward s (headOf env memoryItemId s).2 := headOf_keeps memoryItemId s
  rw [h] at hkeeps
  obtain ⟨head', mid, hask, h⟩ := Op.bind_eq_ok.1 h
  obtain ⟨hhead, rfl⟩ := ask_eq_ok.1 hask
  split_ifs at h with hzero
  · cases h
    exact ⟨hkeeps, ⟨s.calls, ⟨Nat.le_refl _, Nat.lt_succ_self _⟩, hhead⟩, (fun _ hr => nomatch hr), fun _ hr => nomatch hr⟩
  · obtain ⟨record', mid, hask, h⟩ := Op.bind_eq_ok.1 h
    obtain ⟨hrecord, rfl⟩ := ask_eq_ok.1 hask
    obtain ⟨stored', mid, hask, h⟩ := Op.bind_eq_ok.1 h
    obtain ⟨hstored, rfl⟩ := ask_eq_ok.1 hask
    cases h
    dsimp only at hrecord hstored
    have hwindow : Within s.calls (s.calls + 1 + 1 + 1) s.calls ∧ Within s.calls (s.calls + 1 + 1 + 1) (s.calls + 1) ∧
        Within s.calls (s.calls + 1 + 1 + 1) (s.calls + 1 + 1) := by
      simp only [Within]
      omega
    exact ⟨hkeeps, ⟨s.calls, hwindow.1, hhead⟩, fun r hr => ⟨s.calls + 1, hwindow.2.1, hr ▸ hrecord⟩,
      fun r hr => ⟨s.calls + 1 + 1, hwindow.2.2, hr ▸ hstored⟩⟩

theorem readings_eq_ok {γ : Type} {answer : ℕ → ℕ → Except Raised (Option γ)} {text : Option γ → PyValue} {versions : List ℕ}
    {values : List PyValue} {s s' : Asking (GateState (Option OpenRestore))}
    (h : (Op.collect (fun v => do
      let r ← ask fun n => answer n v
      return text r) versions : Restoring (List PyValue)) s = (.ok values, s')) :
    Onward s s' ∧ ∃ rs, List.Forall₂ (fun v r => ∃ n, Within s.calls s'.calls n ∧ answer n v = .ok r) versions rs ∧
      values = rs.map text := by
  obtain ⟨honward, hitems⟩ := Op.Keeps.collect_eq_ok (R := Onward)
    (fun v => Op.Keeps.bind (Onward.ask _) fun r => Op.Keeps.pure _) h
  refine ⟨honward, factor_of_forall₂ (hitems.imp ?_)⟩
  rintro v value ⟨first, last, hfirst, hone, hlast⟩
  obtain ⟨r, mid, hask, hreturn⟩ := Op.bind_eq_ok.1 hone
  obtain ⟨hread, rfl⟩ := ask_eq_ok.1 hask
  cases hreturn
  have hafter : first.calls + 1 ≤ s'.calls := hlast.1
  exact ⟨r, ⟨first.calls, ⟨hfirst.1, hafter⟩, hread⟩, rfl⟩

theorem readings_keeps {γ : Type} {answer : ℕ → ℕ → Except Raised (Option γ)} {text : Option γ → PyValue}
    {versions : List ℕ} :
    Op.Keeps Onward (Op.collect (fun v => do
      let r ← ask fun n => answer n v
      return text r) versions : Restoring (List PyValue)) :=
  Op.Keeps.collect fun _ => Op.Keeps.bind (Onward.ask _) fun _ => Op.Keeps.pure _

theorem compareVersions_keeps (partitionDigest : PyStr) (entry : ManifestEntry) (head : ℕ) (record : AdmittedMemoryVersion)
    (stored : StoredVersion) : Op.Keeps Onward (compareVersions env partitionDigest entry head record stored) := by
  refine Op.Keeps.bind readings_keeps fun _ => Op.Keeps.bind readings_keeps fun _ => ?_
  refine Op.Keeps.bind (restoreCheck_keeps _ _) fun _ => Op.Keeps.bind (Onward.ask _) fun _ => ?_
  exact restoreCheck_keeps _ _

theorem compareLive_keeps (partitionDigest : PyStr) (entry : ManifestEntry) (tombstone : Option TombstoneEntry) (head : ℕ)
    (record : Option AdmittedMemoryVersion) (stored : Option StoredVersion) :
    Op.Keeps Onward (compareLive env partitionDigest entry tombstone head record stored) := by
  refine Op.Keeps.bind (Op.Keeps.lift _) fun _ => Op.Keeps.bind (restoreCheck_keeps _ _) fun _ => ?_
  refine Op.Keeps.bind (Op.Keeps.lift _) fun _ => Op.Keeps.bind (Op.Keeps.lift _) fun _ => ?_
  refine Op.Keeps.bind (restoreCheck_keeps _ _) fun _ => ?_
  split
  · refine Op.Keeps.bind (Op.Keeps.lift _) fun _ => Op.Keeps.bind (restoreCheck_keeps _ _) fun _ => ?_
    exact compareVersions_keeps _ _ _ _ _
  · exact Op.Keeps.raise _

theorem verifyEntry_keeps (partitionDigest : PyStr) (obligations : List TombstoneEntry) (entry : ManifestEntry) :
    Op.Keeps Onward (verifyEntry env partitionDigest obligations entry) := by
  refine Op.Keeps.bind (headOf_keeps _) fun found => Op.Keeps.bind (Op.Keeps.lift _) fun deleted => ?_
  split_ifs
  · exact Op.Keeps.bind (restoreCheck_keeps _ _) fun _ => Op.Keeps.pure _
  · exact Op.Keeps.bind (compareLive_keeps _ _ _ _ _ _) fun _ => Op.Keeps.pure _

theorem verify_keeps (manifest : BackupManifest) (obligations : List TombstoneEntry) :
    Op.Keeps Onward (verify env manifest obligations) := by
  refine Op.Keeps.bind (Onward.ask _) fun _ => Op.Keeps.bind (restoreCheck_keeps _ _) fun _ => ?_
  exact Op.Keeps.bind (Op.Keeps.collect (verifyEntry_keeps _ _)) fun _ => Op.Keeps.pure _

theorem compareLive_eq_ok {partitionDigest : PyStr} {entry : ManifestEntry} {tombstone : Option TombstoneEntry} {head : ℕ}
    {record : Option AdmittedMemoryVersion} {stored : Option StoredVersion} {first : ℕ}
    {s s' : Asking (GateState (Option OpenRestore))}
    (h : compareLive env partitionDigest entry tombstone head record stored s = (.ok (), s')) (hfirst : first ≤ s.calls)
    (hhead : ∃ n, Within first s.calls n ∧ env.metadataHead n entry.memoryItemId = .ok head)
    (hrecord : ∀ r, record = some r → ∃ n, Within first s.calls n ∧ env.ledgerGet n entry.memoryItemId head = .ok (some r))
    (hstored : ∀ r, stored = some r → ∃ n, Within first s.calls n ∧ env.metadataGet n entry.memoryItemId head = .ok (some r)) :
    ∃ record stored, AsRecorded env partitionDigest entry first s'.calls head record stored := by
  obtain ⟨_, _, hlift, h⟩ := Op.bind_eq_ok.1 h
  obtain ⟨-, rfl⟩ := Op.lift_eq_ok.1 hlift
  obtain ⟨_, _, hcheck, h⟩ := Op.bind_eq_ok.1 h
  obtain ⟨-, rfl⟩ := restoreCheck_eq_ok.1 hcheck
  obtain ⟨r, _, hlift, h⟩ := Op.bind_eq_ok.1 h
  obtain ⟨hr, rfl⟩ := Op.lift_eq_ok.1 hlift
  rw [orRaise_eq_ok] at hr
  obtain ⟨row, _, hlift, h⟩ := Op.bind_eq_ok.1 h
  obtain ⟨hrow, rfl⟩ := Op.lift_eq_ok.1 hlift
  rw [orRaise_eq_ok] at hrow
  obtain ⟨_, _, hcheck, h⟩ := Op.bind_eq_ok.1 h
  obtain ⟨hepoch, rfl⟩ := restoreCheck_eq_ok.1 hcheck
  generalize hrepresentations : entry.get "representations" = value at h
  cases value with
  | list representations =>
    obtain ⟨same, _, hlift, h⟩ := Op.bind_eq_ok.1 h
    obtain ⟨hsame, rfl⟩ := Op.lift_eq_ok.1 hlift
    rw [mapError_eq_ok] at hsame
    obtain ⟨_, _, hcheck, h⟩ := Op.bind_eq_ok.1 h
    obtain ⟨htrue, rfl⟩ := restoreCheck_eq_ok.1 hcheck
    rw [Bool.not_eq_false] at htrue
    rw [htrue] at hsame
    rw [compareVersions] at h
    obtain ⟨digests, s1, hdigests, h⟩ := Op.bind_eq_ok.1 h
    obtain ⟨honward1, versions, hversions, rfl⟩ := readings_eq_ok hdigests
    obtain ⟨auditRefs, s2, haudits, h⟩ := Op.bind_eq_ok.1 h
    obtain ⟨honward2, rows, hrows, rfl⟩ := readings_eq_ok haudits
    obtain ⟨_, _, hcheck, h⟩ := Op.bind_eq_ok.1 h
    obtain ⟨hversion, rfl⟩ := restoreCheck_eq_ok.1 hcheck
    obtain ⟨latest, _, hask, h⟩ := Op.bind_eq_ok.1 h
    obtain ⟨hlatest, rfl⟩ := ask_eq_ok.1 hask
    obtain ⟨hrest, rfl⟩ := restoreCheck_eq_ok.1 h
    simp only [not_or, not_not, Bool.not_eq_false] at hrest hversion hepoch
    obtain ⟨rfl, hcommitted, hstage, hplaced, hbound, hd, ha⟩ := hrest
    have h1 := honward1.1
    have h2 := honward2.1
    refine ⟨r, row, { headRead := read_mono hhead (Nat.le_refl _) (by dsimp only; omega), headVersion := hversion,
                      latestRead := ⟨s2.calls, ⟨by omega, Nat.lt_succ_self _⟩, hlatest⟩,
                      recordRead := read_mono (hrecord r hr) (Nat.le_refl _) (by dsimp only; omega),
                      rowRead := read_mono (hstored row hrow) (Nat.le_refl _) (by dsimp only; omega),
                      committed := hcommitted, placed := hplaced, stage := hstage, bound := hbound, epoch := hepoch,
                      pointers := ⟨representations, hrepresentations, hsame⟩,
                      digests := ⟨versions, hversions.imp fun _ _ hr => read_mono hr hfirst (by dsimp only; omega), hd⟩,
                      audits := ⟨rows, hrows.imp fun _ _ hr => read_mono hr (by omega) (by dsimp only; omega), ha⟩ }⟩
  | _ => cases h

theorem verifyEntry_eq_ok {partitionDigest : PyStr} {obligations : List TombstoneEntry} {entry : ManifestEntry}
    {s s' : Asking (GateState (Option OpenRestore))} {deleted : Bool}
    (h : verifyEntry env partitionDigest obligations entry s = (.ok deleted, s')) :
    ItemVerified env partitionDigest entry (obligationOf obligations entry.memoryItemId) s.calls s'.calls := by
  obtain ⟨⟨head, record, stored⟩, mid, hheadOf, h⟩ := Op.bind_eq_ok.1 h
  obtain ⟨honward, hhead, hrecord, hstored⟩ := headOf_eq_ok hheadOf
  obtain ⟨gone, _, hlift, h⟩ := Op.bind_eq_ok.1 h
  obtain ⟨hgone, rfl⟩ := Op.lift_eq_ok.1 hlift
  rw [mapError_eq_ok] at hgone
  split_ifs at h with hdeleted
  · obtain ⟨_, _, hcheck, h⟩ := Op.bind_eq_ok.1 h
    obtain ⟨hrequired, rfl⟩ := restoreCheck_eq_ok.1 hcheck
    cases h
    subst hdeleted
    obtain ⟨r, hr, t, ht, hepoch⟩ := not_not.mp hrequired
    exact .inl ⟨t, ht, hgone, head, r, hhead, hrecord r hr, hepoch⟩
  · obtain ⟨_, _, hcompare, h⟩ := Op.bind_eq_ok.1 h
    cases h
    rw [Bool.not_eq_true] at hdeleted
    subst hdeleted
    obtain ⟨r, row, hexact⟩ := compareLive_eq_ok hcompare honward.1 hhead hrecord hstored
    exact .inr ⟨hgone, head, r, row, hexact⟩

/-- A comparison that returns has verified every item of the manifest, and no other has a version. -/
theorem verify_eq_ok {manifest : BackupManifest} {obligations : List TombstoneEntry} {result : List PyStr × ℕ}
    {s s' : Asking (GateState (Option OpenRestore))} (h : verify env manifest obligations s = (.ok result, s')) :
    Verified env manifest obligations s.calls s'.calls ∧ Onward s s' := by
  have hkeeps : Onward s (verify env manifest obligations s).2 := verify_keeps manifest obligations s
  rw [h] at hkeeps
  refine ⟨?_, hkeeps⟩
  obtain ⟨rows, _, hask, h⟩ := Op.bind_eq_ok.1 h
  obtain ⟨hrows, rfl⟩ := ask_eq_ok.1 hask
  obtain ⟨_, _, hcheck, h⟩ := Op.bind_eq_ok.1 h
  obtain ⟨honly, rfl⟩ := restoreCheck_eq_ok.1 hcheck
  obtain ⟨deleted, last, hcollect, h⟩ := Op.bind_eq_ok.1 h
  cases h
  obtain ⟨honward, hitems⟩ := Op.Keeps.collect_eq_ok (R := Onward) (verifyEntry_keeps _ _) hcollect
  have hwindow : s.calls + 1 ≤ s'.calls := honward.1
  refine ⟨⟨s.calls, rows, ⟨Nat.le_refl _, hwindow⟩, hrows, not_not.mp honly⟩, fun entry hentry => ?_⟩
  have hmem : entry ∈ manifest.sorted := List.mem_insertionSort _ |>.mpr hentry
  obtain ⟨_, -, first, last', hbefore, hone, hafter⟩ := exists_of_forall₂_left hitems hmem
  have hstart : s.calls + 1 ≤ first.calls := hbefore.1
  exact (verifyEntry_eq_ok hone).mono (by omega) hafter.1

end MemoryRestoreGate
end Parts

end OcorRuntime.Memory

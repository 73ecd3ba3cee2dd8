import OcorRuntime.Foundations.HashChain
import OcorRuntime.Foundations.Run
import OcorRuntime.Memory.RestoreGate

/-! What a closed restore boundary gives out over every run: a response has a clean inventory
under the reconciled checkpoint right before it and right after it, and a failure closes
the boundary until the next reconciliation. -/
namespace OcorRuntime.Memory
open Canonical Kernel
set_option autoImplicit false
set_option maxHeartbeats 250000

/-! ## How the state moves -/

section Moves
variable {ρ : Type}

/-- Calls were made; the snapshot and what the owner keeps are as before. -/
def Holding (s s' : Asking (GateState ρ)) : Prop :=
  s.calls ≤ s'.calls ∧ s'.own.snapshot = s.own.snapshot ∧ s'.own.owner = s.own.owner

instance : Std.Refl (Holding (ρ := ρ)) := ⟨fun _ => ⟨Nat.le_refl _, rfl, rfl⟩⟩

instance : IsTrans (Asking (GateState ρ)) Holding :=
  ⟨fun _ _ _ h h' => ⟨Nat.le_trans h.1 h'.1, h'.2.1.trans h.2.1, h'.2.2.trans h.2.2⟩⟩

/-- Calls were made; what the owner keeps is as before. -/
def Owned (s s' : Asking (GateState ρ)) : Prop := s.calls ≤ s'.calls ∧ s'.own.owner = s.own.owner

instance : Std.Refl (Owned (ρ := ρ)) := ⟨fun _ => ⟨Nat.le_refl _, rfl⟩⟩

instance : IsTrans (Asking (GateState ρ)) Owned := ⟨fun _ _ _ h h' => ⟨Nat.le_trans h.1 h'.1, h'.2.trans h.2⟩⟩

theorem Holding.owned {α : Type} {x : Gated ρ α} (h : Op.Keeps Holding x) : Op.Keeps Owned x :=
  fun s => ⟨(h s).1, (h s).2.2⟩

theorem Holding.ask {α : Type} (answer : ℕ → Except Raised α) : Op.Keeps Holding (ask answer : Gated ρ α) :=
  fun _ => ⟨Nat.le_succ _, rfl, rfl⟩

end Moves

/-! ## What each part establishes -/

section Parts
variable {ρ α : Type} {env : RestoreEnv} {gate : DeletionRestoreGate}

theorem orRecovery_eq_ok {code : String} {x : Gated ρ α} {s s' : Asking (GateState ρ)} {a : α} :
    orRecovery code x s = (.ok a, s') ↔ x s = (.ok a, s') := by
  unfold orRecovery
  rcases hx : x s with ⟨outcome, mid⟩
  cases outcome with
  | ok b => rw [Op.guarded_of_ok hx]
  | error why =>
    rw [Op.guarded_of_error hx]
    cases why <;> simp

theorem orRecovery_keeps {R : Asking (GateState ρ) → Asking (GateState ρ) → Prop} [Std.Refl R]
    [IsTrans (Asking (GateState ρ)) R] {code : String} {x : Gated ρ α} (h : Op.Keeps R x) :
    Op.Keeps R (orRecovery code x) := by
  refine h.guarded fun why => ?_
  cases why
  · exact Op.Keeps.raise _
  · exact Op.Keeps.raise _

theorem recoveryCheck_eq_ok {bad : Prop} [Decidable bad] {code : String} {s s' : Asking (GateState ρ)} :
    recoveryCheck bad code s = (.ok (), s') ↔ ¬ bad ∧ s = s' := by
  rw [recoveryCheck, Op.lift_eq_ok, refuseIf_eq_ok]

theorem recoveryCheck_keeps {R : Asking (GateState ρ) → Asking (GateState ρ) → Prop} [Std.Refl R] (bad : Prop)
    [Decidable bad] (code : String) : Op.Keeps R (recoveryCheck bad code) := Op.Keeps.lift _

namespace DeletionRestoreGate

theorem record_keeps (action outcome reasonCode : String) :
    Op.Keeps (Onward (σ := GateState ρ)) (gate.record env action outcome reasonCode) := by
  intro s
  unfold record
  refine Op.Keeps.guarded ?_ (fun why => ?_) s
  · split_ifs
    · exact Onward.ask _
    · exact Op.Keeps.raise _
  · cases why
    · exact Op.Keeps.raise _
    · exact Op.Keeps.raise _

theorem holding_of_onward {x : Gated ρ α} (h : Op.Keeps Onward x) : Op.Keeps Holding x := by
  intro s
  obtain ⟨hcalls, hown⟩ := h s
  exact ⟨hcalls, by rw [hown], by rw [hown]⟩

theorem guard_keeps {R : Asking (GateState ρ) → Asking (GateState ρ) → Prop} [Std.Refl R]
    [IsTrans (Asking (GateState ρ)) R] (hR : ∀ s s', Onward s s' → R s s') {boundary : String} {x : Gated ρ α}
    (h : Op.Keeps R x) : Op.Keeps R (gate.guard env boundary x) := by
  have hrecord (action outcome reasonCode : String) :
      Op.Keeps R (gate.record env action outcome reasonCode : Gated ρ Unit) :=
    fun s => hR _ _ (record_keeps action outcome reasonCode s)
  refine Op.Keeps.bind (hrecord _ _ _) fun _ => h.guarded fun why => ?_
  cases why with
  | interrupt => exact Op.Keeps.raise _
  | exception e =>
    dsimp only
    split_ifs
    · exact Op.Keeps.raise _
    · exact Op.Keeps.bind (hrecord _ _ _) fun _ => Op.Keeps.raise _

theorem guard_eq_ok {boundary : String} {x : Gated ρ α} {s s' : Asking (GateState ρ)} {a : α}
    (h : gate.guard env boundary x s = (.ok a, s')) : ∃ first, Onward s first ∧ x first = (.ok a, s') := by
  obtain ⟨_, first, hrecord, h⟩ := Op.bind_eq_ok.1 h
  refine ⟨first, ?_, ?_⟩
  · have hr : Onward s (gate.record env (boundary ++ ".attempted") "ATTEMPTED" "RECOVERY_ACCESS" s).2 :=
      record_keeps (boundary ++ ".attempted") "ATTEMPTED" "RECOVERY_ACCESS" s
    rwa [hrecord] at hr
  · rcases hx : x first with ⟨outcome, mid⟩
    cases outcome with
    | ok b => rwa [Op.guarded_of_ok hx] at h
    | error why =>
      rw [Op.guarded_of_error hx] at h
      cases why with
      | interrupt => cases h
      | exception e =>
        dsimp only at h
        split_ifs at h
        · cases h
        · obtain ⟨_, _, -, h⟩ := Op.bind_eq_ok.1 h
          cases h

theorem checkpoint_keeps : Op.Keeps Holding (checkpoint env : Gated ρ DeletionJournalCheckpoint) := by
  refine Op.Keeps.bind (orRecovery_keeps (Holding.ask _)) fun answer => ?_
  exact Op.Keeps.bind (Op.Keeps.lift _) fun c => Op.Keeps.bind (fun s => ⟨Nat.le_refl _, rfl, rfl⟩) fun _ => Op.Keeps.pure c

theorem checkpoint_eq_ok {s s' : Asking (GateState ρ)} {c : DeletionJournalCheckpoint}
    (h : checkpoint env s = (.ok c, s')) :
    env.current s.calls = .ok (some c) ∧ s'.calls = s.calls + 1 ∧ Holding s s' := by
  have hkeeps : Holding s (checkpoint env s).2 := checkpoint_keeps s
  rw [h] at hkeeps
  obtain ⟨answer, mid, hask, h⟩ := Op.bind_eq_ok.1 h
  obtain ⟨hanswer, rfl⟩ := ask_eq_ok.1 (orRecovery_eq_ok.1 hask)
  obtain ⟨_, _, hlift, h⟩ := Op.bind_eq_ok.1 h
  obtain ⟨hsome, rfl⟩ := Op.lift_eq_ok.1 hlift
  rw [orRaise_eq_ok] at hsome
  rw [Op.update_bind] at h
  cases h
  exact ⟨hsome ▸ hanswer, rfl, hkeeps⟩

theorem read_keeps (expected : DeletionJournalCheckpoint) :
    Op.Keeps Onward (DeletionJournalSnapshot.read env expected : Gated ρ DeletionJournalSnapshot) := by
  refine Op.Keeps.bind (orRecovery_keeps ?_) fun snapshot => ?_
  · exact Op.Keeps.bind (Onward.ask _) fun data => Op.Keeps.lift _
  · exact Op.Keeps.bind (recoveryCheck_keeps _ _) fun _ => Op.Keeps.pure _

theorem read_eq_ok {expected : DeletionJournalCheckpoint} {s s' : Asking (GateState ρ)} {disk : DeletionJournalSnapshot}
    (h : DeletionJournalSnapshot.read env expected s = (.ok disk, s')) :
    ∃ data, env.journal s.calls = .ok data ∧ DeletionJournalSnapshot.decode data = .ok disk ∧
      disk.checkpoint = expected ∧ s' = ⟨s.calls + 1, s.own⟩ := by
  obtain ⟨snapshot, mid, hread, h⟩ := Op.bind_eq_ok.1 h
  obtain ⟨data, mid', hask, hdecode⟩ := Op.bind_eq_ok.1 (orRecovery_eq_ok.1 hread)
  obtain ⟨hdata, rfl⟩ := ask_eq_ok.1 hask
  obtain ⟨hdecoded, rfl⟩ := Op.lift_eq_ok.1 hdecode
  obtain ⟨_, _, hcheck, h⟩ := Op.bind_eq_ok.1 h
  obtain ⟨hsame, rfl⟩ := recoveryCheck_eq_ok.1 hcheck
  cases h
  refine ⟨data, hdata, ?_, not_not.mp hsame, rfl⟩
  cases hd : DeletionJournalSnapshot.decode data with
  | ok d =>
    rw [hd] at hdecoded
    cases hdecoded
    rfl
  | error e =>
    rw [hd] at hdecoded
    cases hdecoded

theorem inventory_keeps (entry : TombstoneEntry) (name : PyStr) :
    Op.Keeps Onward (inventory env entry name : Gated ρ Unit) :=
  Op.Keeps.bind (orRecovery_keeps (Onward.ask _)) fun _ => recoveryCheck_keeps _ _

theorem inventory_eq_ok {entry : TombstoneEntry} {name : PyStr} {s s' : Asking (GateState ρ)}
    (h : inventory env entry name s = (.ok (), s')) :
    env.residue s.calls name entry = .ok (some []) ∧ s'.calls = s.calls + 1 := by
  obtain ⟨residue, mid, hask, h⟩ := Op.bind_eq_ok.1 h
  obtain ⟨hresidue, rfl⟩ := ask_eq_ok.1 (orRecovery_eq_ok.1 hask)
  obtain ⟨hempty, rfl⟩ := recoveryCheck_eq_ok.1 h
  exact ⟨not_not.mp hempty ▸ hresidue, rfl⟩

/-! ## A clean inventory -/

/-- At calls of the window the authority named the checkpoint, the journal on disk decoded to it, and every
participant reported no residue of any of the obligations; the authority's checkpoint was the same at its end. -/
structure Clean (gate : DeletionRestoreGate) (env : RestoreEnv) (snapshot : DeletionJournalSnapshot) (first last : ℕ) :
    Prop where
  named : ∃ n, first ≤ n ∧ n < last ∧ env.current n = .ok (some snapshot.checkpoint)
  still : first < last ∧ env.current (last - 1) = .ok (some snapshot.checkpoint)
  journal : ∃ n data disk, first ≤ n ∧ n < last ∧ env.journal n = .ok data ∧
    DeletionJournalSnapshot.decode data = .ok disk ∧ disk.checkpoint = snapshot.checkpoint
  empty : ∀ entry ∈ snapshot.obligations, ∀ name ∈ gate.participants,
    ∃ n, first ≤ n ∧ n < last ∧ env.residue n name entry = .ok (some [])

theorem check_keeps (snapshot : DeletionJournalSnapshot) : Op.Keeps Holding (gate.check env snapshot : Gated ρ Unit) := by
  refine Op.Keeps.bind checkpoint_keeps fun expected => ?_
  refine Op.Keeps.bind (recoveryCheck_keeps _ _) fun _ => ?_
  refine Op.Keeps.bind (holding_of_onward (read_keeps expected)) fun _ => ?_
  refine Op.Keeps.bind (recoveryCheck_keeps _ _) fun _ => ?_
  refine Op.Keeps.bind (holding_of_onward ?_) fun _ => ?_
  · exact Op.Keeps.forM fun entry _ => Op.Keeps.forM fun name _ => inventory_keeps entry name
  · exact Op.Keeps.bind checkpoint_keeps fun _ => recoveryCheck_keeps _ _

theorem check_eq_ok {snapshot : DeletionJournalSnapshot} {s s' : Asking (GateState ρ)}
    (h : gate.check env snapshot s = (.ok (), s')) : Clean gate env snapshot s.calls s'.calls ∧ Holding s s' := by
  have hkeeps : Holding s (gate.check env snapshot s).2 := check_keeps snapshot s
  rw [h] at hkeeps
  refine ⟨?_, hkeeps⟩
  obtain ⟨expected, s1, hcheckpoint, h⟩ := Op.bind_eq_ok.1 h
  obtain ⟨hcurrent, hcalls1, -⟩ := checkpoint_eq_ok hcheckpoint
  obtain ⟨_, s2, hcheck, h⟩ := Op.bind_eq_ok.1 h
  obtain ⟨hsame, rfl⟩ := recoveryCheck_eq_ok.1 hcheck
  have hexpected : expected = snapshot.checkpoint := not_not.mp hsame
  obtain ⟨disk, s2, hread, h⟩ := Op.bind_eq_ok.1 h
  obtain ⟨data, hdata, hdecode, hdisk, rfl⟩ := read_eq_ok hread
  obtain ⟨_, _, hvalid, h⟩ := Op.bind_eq_ok.1 h
  obtain ⟨-, rfl⟩ := recoveryCheck_eq_ok.1 hvalid
  obtain ⟨_, s3, hloop, h⟩ := Op.bind_eq_ok.1 h
  obtain ⟨hlater, hentries⟩ := Op.Keeps.forM_eq_ok
    (fun entry => Op.Keeps.forM fun name _ => inventory_keeps entry name) hloop
  obtain ⟨again, s4, hcheckpoint', h⟩ := Op.bind_eq_ok.1 h
  obtain ⟨hcurrent', hcalls4, -⟩ := checkpoint_eq_ok hcheckpoint'
  obtain ⟨hstill, rfl⟩ := recoveryCheck_eq_ok.1 h
  have hagain : again = snapshot.checkpoint := (not_not.mp hstill).trans hexpected
  have hwindow : s1.calls + 1 ≤ s3.calls := hlater.1
  refine ⟨⟨s.calls, Nat.le_refl _, by omega, hexpected ▸ hcurrent⟩, ⟨by omega, ?_⟩,
    ⟨s1.calls, data, disk, by omega, by omega, hdata, hdecode, hdisk.trans hexpected⟩, fun entry hentry name hname => ?_⟩
  · rw [hcalls4, Nat.add_sub_cancel, ← hagain]
    exact hcurrent'
  · obtain ⟨first, last, hbefore, hnames, hafter⟩ := hentries entry hentry
    obtain ⟨-, hinventories⟩ := Op.Keeps.forM_eq_ok (fun name => inventory_keeps entry name) hnames
    obtain ⟨first', last', hbefore', hone, hafter'⟩ := hinventories name hname
    obtain ⟨hresidue, hnext⟩ := inventory_eq_ok hone
    have h1 : s1.calls + 1 ≤ first.calls := hbefore.1
    have h2 := hbefore'.1
    have h3 := hafter'.1
    have h4 := hafter.1
    exact ⟨first'.calls, by omega, by omega, hresidue⟩

/-! ## Serving and reconciling -/

theorem setSnapshot_owned (snapshot : Option DeletionJournalSnapshot) :
    Op.Keeps Owned (setSnapshot snapshot : Gated ρ Unit) := fun _ => ⟨Nat.le_refl _, rfl⟩

theorem onward_owned {s s' : Asking (GateState ρ)} (h : Onward s s') : Owned s s' := ⟨h.1, by rw [h.2]⟩

theorem serve_owned {action : Gated ρ α} (haction : Op.Keeps Owned action) : Op.Keeps Owned (gate.serve env action) := by
  refine Op.Keeps.guarded (guard_keeps (fun _ _ => onward_owned) ?_) fun why => ?_
  · refine Op.Keeps.bind Op.Keeps.read fun s => Op.Keeps.bind (Op.Keeps.lift _) fun snapshot => ?_
    refine Op.Keeps.bind (Holding.owned (check_keeps snapshot)) fun _ => Op.Keeps.bind haction fun response => ?_
    exact Op.Keeps.bind (Holding.owned (check_keeps snapshot)) fun _ => Op.Keeps.pure response
  · exact Op.Keeps.bind (setSnapshot_owned none) fun _ => Op.Keeps.raise why

/-- **A response is given out between two clean inventories** under the snapshot of the gate. -/
theorem serve_eq_ok {action : Gated ρ α} (haction : Op.Keeps Holding action) {s s' : Asking (GateState ρ)} {response : α}
    (h : gate.serve env action s = (.ok response, s')) :
    ∃ snapshot first last, s.own.snapshot = some snapshot ∧ Clean gate env snapshot s.calls first.calls ∧
      action first = (.ok response, last) ∧ Clean gate env snapshot last.calls s'.calls ∧ Holding s first ∧
      Holding s s' := by
  have hserved : gate.guard env "deletionRestore.serve" (do
      let s ← Op.read
      let snapshot ← Op.lift (orRaise s.own.snapshot (.exception (recoveryError "RESTORE_NOT_RECONCILED")))
      gate.check env snapshot
      let response ← action
      gate.check env snapshot
      return response) s = (.ok response, s') := by
    unfold serve at h
    generalize hx : gate.guard env "deletionRestore.serve" _ s = result at h
    obtain ⟨outcome, mid⟩ := result
    cases outcome with
    | ok b => rwa [Op.guarded_of_ok hx] at h
    | error why =>
      rw [Op.guarded_of_error hx] at h
      obtain ⟨_, _, -, h⟩ := Op.bind_eq_ok.1 h
      cases h
  obtain ⟨start, honward, hbody⟩ := guard_eq_ok hserved
  rw [Op.read_bind] at hbody
  obtain ⟨snapshot, _, hlift, hbody⟩ := Op.bind_eq_ok.1 hbody
  obtain ⟨hsnapshot, rfl⟩ := Op.lift_eq_ok.1 hlift
  rw [orRaise_eq_ok] at hsnapshot
  obtain ⟨_, first, hfirst, hbody⟩ := Op.bind_eq_ok.1 hbody
  obtain ⟨response', last, hresponse, hbody⟩ := Op.bind_eq_ok.1 hbody
  obtain ⟨_, end_, hlast, hbody⟩ := Op.bind_eq_ok.1 hbody
  cases hbody
  obtain ⟨hcleanFirst, hholdFirst⟩ := check_eq_ok hfirst
  obtain ⟨hcleanLast, hholdLast⟩ := check_eq_ok hlast
  have hhold := haction first
  rw [hresponse] at hhold
  have hstart : Holding s start := ⟨honward.1, by rw [honward.2], by rw [honward.2]⟩
  refine ⟨snapshot, first, last, ?_, ?_, hresponse, hcleanLast, IsTrans.trans _ _ _ hstart hholdFirst,
    IsTrans.trans _ _ _ (IsTrans.trans _ _ _ hstart hholdFirst) (IsTrans.trans _ _ _ hhold hholdLast)⟩
  · rw [← hsnapshot, honward.2]
  · have hle := honward.1
    refine ⟨?_, ⟨Nat.lt_of_le_of_lt hle hcleanFirst.still.1, hcleanFirst.still.2⟩, ?_, fun entry hentry name hname => ?_⟩
    · exact hcleanFirst.named.imp fun n hn => ⟨Nat.le_trans hle hn.1, hn.2⟩
    · obtain ⟨n, data, disk, hn, hrest⟩ := hcleanFirst.journal
      exact ⟨n, data, disk, Nat.le_trans hle hn, hrest⟩
    · exact (hcleanFirst.empty entry hentry name hname).imp fun n hn => ⟨Nat.le_trans hle hn.1, hn.2⟩

theorem serve_error {action : Gated ρ α} {s s' : Asking (GateState ρ)} {why : Raised}
    (h : gate.serve env action s = (.error why, s')) : s'.own.snapshot = none := by
  unfold serve at h
  generalize hx : gate.guard env "deletionRestore.serve" _ s = result at h
  obtain ⟨outcome, mid⟩ := result
  cases outcome with
  | ok b =>
    rw [Op.guarded_of_ok hx] at h
    cases h
  | error why' =>
    rw [Op.guarded_of_error hx, setSnapshot, Op.update_bind] at h
    cases h
    rfl

theorem reconcile_owned : Op.Keeps Owned (gate.reconcile env : Gated ρ DeletionReconciliationReceipt) := by
  refine Op.Keeps.bind (setSnapshot_owned none) fun _ => guard_keeps (fun _ _ => onward_owned) ?_
  refine Op.Keeps.bind (Holding.owned checkpoint_keeps) fun expected => ?_
  refine Op.Keeps.bind (Holding.owned (holding_of_onward (read_keeps expected))) fun snapshot => ?_
  refine Op.Keeps.bind (recoveryCheck_keeps _ _) fun _ => Op.Keeps.bind ?_ fun _ => ?_
  · exact Op.Keeps.forM fun entry _ => Op.Keeps.forM fun name _ => Holding.owned (orRecovery_keeps (Holding.ask _))
  · refine Op.Keeps.bind (Holding.owned (check_keeps snapshot)) fun _ => ?_
    exact Op.Keeps.bind (setSnapshot_owned _) fun _ => Op.Keeps.pure _

/-- A reconciliation leaves the snapshot it read from the journal, under the checkpoint of its receipt. -/
theorem reconcile_eq_ok {s s' : Asking (GateState ρ)} {receipt : DeletionReconciliationReceipt}
    (h : gate.reconcile env s = (.ok receipt, s')) :
    ∃ snapshot, s'.own.snapshot = some snapshot ∧
      receipt = ⟨snapshot.checkpoint, snapshot.obligations.length⟩ ∧ Owned s s' ∧
      ∃ n data, s.calls ≤ n ∧ n < s'.calls ∧ env.journal n = .ok data ∧
        DeletionJournalSnapshot.decode data = .ok snapshot := by
  have howned : Owned s (gate.reconcile env s).2 := reconcile_owned s
  rw [h] at howned
  rw [reconcile, setSnapshot, Op.update_bind] at h
  obtain ⟨start, honward, h⟩ := guard_eq_ok h
  obtain ⟨expected, s1, hcheckpoint, h⟩ := Op.bind_eq_ok.1 h
  obtain ⟨-, hcalls, -⟩ := checkpoint_eq_ok hcheckpoint
  obtain ⟨snapshot, s2, hread, h⟩ := Op.bind_eq_ok.1 h
  obtain ⟨data, hdata, hdecode, -, rfl⟩ := read_eq_ok hread
  obtain ⟨_, _, hvalid, h⟩ := Op.bind_eq_ok.1 h
  obtain ⟨-, rfl⟩ := recoveryCheck_eq_ok.1 hvalid
  obtain ⟨_, s3, hpurges, h⟩ := Op.bind_eq_ok.1 h
  obtain ⟨hlater, -⟩ := Op.Keeps.forM_eq_ok (R := Later) (fun entry => Op.Keeps.forM fun name _ =>
    orRecovery_keeps (Later.of_onward (Onward.ask _))) hpurges
  obtain ⟨_, s4, hcheck, h⟩ := Op.bind_eq_ok.1 h
  obtain ⟨-, hhold⟩ := check_eq_ok hcheck
  rw [setSnapshot, Op.update_bind] at h
  cases h
  have h1 : s.calls ≤ start.calls := honward.1
  have h2 : s1.calls + 1 ≤ s3.calls := hlater
  have h3 := hhold.1
  exact ⟨snapshot, rfl, rfl, howned, s1.calls, data, by omega, by dsimp only; omega, hdata, hdecode⟩

theorem reconcile_error {s s' : Asking (GateState ρ)} {why : Raised}
    (h : gate.reconcile env s = (.error why, s')) : s'.own.snapshot = none := by
  rw [reconcile, setSnapshot, Op.update_bind] at h
  have hholds : Holding ⟨s.calls, { s.own with snapshot := none }⟩ s' := by
    refine Op.Fails.bind (R := Holding) (holding_of_onward (record_keeps _ _ _)) (fun _ => ?_) _ _ _ h
    refine Op.Fails.guarded ?_ fun why => ?_
    · -- the snapshot is set last of all, so whatever raised did so before
      refine Op.Fails.bind checkpoint_keeps fun expected => ?_
      refine Op.Fails.bind (holding_of_onward (read_keeps expected)) fun snapshot => ?_
      refine Op.Fails.bind (recoveryCheck_keeps _ _) fun _ => Op.Fails.bind ?_ fun _ => ?_
      · exact Op.Keeps.forM fun entry _ => Op.Keeps.forM fun name _ => orRecovery_keeps (Holding.ask _)
      · exact Op.Fails.bind (check_keeps snapshot) fun _ => Op.Fails.update_pure _ _
    · cases why with
      | interrupt => exact (Op.Keeps.raise _).fails
      | exception e =>
        dsimp only
        split_ifs
        · exact (Op.Keeps.raise _).fails
        · exact Op.Fails.bind (holding_of_onward (record_keeps _ _ _)) fun _ => (Op.Keeps.raise _).fails
  exact hholds.2.1

end DeletionRestoreGate
end Parts

/-! ## A checkpoint fixes the journal below it -/

namespace DeletionJournalSnapshot

/-- The digest a line of the journal hands on. -/
def lineDigest (sequence : ℕ) (previous : PyStr) (line : Bytes) : PyStr :=
  match decodeLine previous sequence line with
  | .ok (_, digest) => digest
  | .error _ => []

/-- Two different lines of one place, or lines after different digests, that decode to the same digest. -/
def JournalCollision (data data' : Bytes) : Prop :=
  ∃ i line line' previous previous' entry entry' digest, (splitLines data)[i]? = some line ∧
    (splitLines data')[i]? = some line' ∧ (previous, line) ≠ (previous', line') ∧
    decodeLine previous (i + 1) line = .ok (entry, digest) ∧ decodeLine previous' (i + 1) line' = .ok (entry', digest)

theorem decodeStep_eq_ok {s s' : DecodeState} {line : Bytes} (h : decodeStep s line = .ok s') :
    ∃ entry digest, decodeLine s.previous (s.entries.length + 1) line = .ok (entry, digest) ∧
      s'.entries = s.entries ++ [entry] ∧ s'.previous = digest := by
  obtain ⟨⟨entry, digest⟩, hline, h⟩ := bind_eq_ok.1 h
  obtain ⟨_, -, h⟩ := bind_eq_ok.1 h
  split at h
  · cases h
  · cases h
    exact ⟨entry, digest, hline, rfl, rfl⟩

/-- The decoder follows the chain of the digests, and decodes every line at its place. -/
theorem decodeLines_chain {lines : List Bytes} {s s' : DecodeState} (h : decodeLines s lines = .ok s') :
    s'.entries.length = s.entries.length + lines.length ∧
      s'.previous = chainHead lineDigest (s.entries.length + 1) s.previous lines ∧
      ∀ i line, lines[i]? = some line → ∃ entry,
        decodeLine (chainHead lineDigest (s.entries.length + 1) s.previous (lines.take i)) (s.entries.length + 1 + i) line =
          .ok (entry, lineDigest (s.entries.length + 1 + i)
            (chainHead lineDigest (s.entries.length + 1) s.previous (lines.take i)) line) := by
  induction lines generalizing s with
  | nil =>
    cases h
    exact ⟨rfl, rfl, fun i line hi => by simp at hi⟩
  | cons first lines ih =>
    obtain ⟨mid, hstep, hrest⟩ := bind_eq_ok.1 h
    obtain ⟨entry, digest, hline, hentries, hprevious⟩ := decodeStep_eq_ok hstep
    have hdigest : lineDigest (s.entries.length + 1) s.previous first = digest := by
      rw [lineDigest, hline]
    have hlength : mid.entries.length = s.entries.length + 1 := by
      rw [hentries, List.length_append, List.length_singleton]
    obtain ⟨hcount, hhead, hplaces⟩ := ih hrest
    rw [hlength] at hcount hhead hplaces
    rw [hprevious, ← hdigest] at hhead hplaces
    refine ⟨by rw [hcount, List.length_cons]; omega, by rw [hhead, chainHead], fun i line hi => ?_⟩
    cases i with
    | zero =>
      rw [List.getElem?_cons_zero, Option.some.injEq] at hi
      subst hi
      exact ⟨entry, by rw [List.take_zero, chainHead, Nat.add_zero, hdigest, hline]⟩
    | succ i =>
      rw [List.getElem?_cons_succ] at hi
      have hplace := hplaces i line hi
      rw [List.take_succ_cons, chainHead]
      rw [show s.entries.length + 1 + 1 + i = s.entries.length + 1 + (i + 1) by omega] at hplace
      exact hplace

theorem decode_eq_ok {data : Bytes} {snapshot : DeletionJournalSnapshot} (h : decode data = .ok snapshot) :
    ∃ s, decodeLines start (splitLines data) = .ok s ∧ snapshot.entries = s.entries ∧
      snapshot.checkpoint.sequence = s.entries.length ∧ snapshot.checkpoint.head = s.previous := by
  have hchecked : decodeChecked data = .ok snapshot := by
    unfold decode at h
    cases hd : decodeChecked data with
    | ok a =>
      rw [hd] at h
      exact h
    | error e =>
      rw [hd] at h
      cases h
  obtain ⟨_, -, h⟩ := bind_eq_ok.1 hchecked
  obtain ⟨s, hlines, h⟩ := bind_eq_ok.1 h
  obtain ⟨checkpoint, hmake, h⟩ := bind_eq_ok.1 h
  cases h
  unfold DeletionJournalCheckpoint.make at hmake
  split_ifs at hmake
  cases hmake
  exact ⟨s, hlines, rfl, rfl, rfl⟩

/-- **A checkpoint fixes the entries below it**, up to a collision of the lines at hand. -/
theorem entries_eq_or_collision {data data' : Bytes} {snapshot disk : DeletionJournalSnapshot}
    (h : decode data = .ok snapshot) (h' : decode data' = .ok disk) (hsame : disk.checkpoint = snapshot.checkpoint) :
    disk.entries = snapshot.entries ∨ JournalCollision data data' := by
  obtain ⟨s, hlines, hentries, hsequence, hhead⟩ := decode_eq_ok h
  obtain ⟨s', hlines', hentries', hsequence', hhead'⟩ := decode_eq_ok h'
  obtain ⟨hcount, hprevious, hplaces⟩ := decodeLines_chain hlines
  obtain ⟨hcount', hprevious', hplaces'⟩ := decodeLines_chain hlines'
  have hlength : (splitLines data).length = (splitLines data').length := by
    have hlengths : s'.entries.length = s.entries.length := by
      rw [← hsequence, ← hsequence', hsame]
    omega
  have hchain : chainHead lineDigest 1 genesis (splitLines data) = chainHead lineDigest 1 genesis (splitLines data') := by
    refine hprevious.symm.trans (Eq.trans ?_ hprevious')
    rw [← hhead, ← hhead', hsame]
  rcases chain_eq_or_collision hlength hchain with heq | ⟨i, line, line', hi, hi', hne, hdigest⟩
  · rw [heq, hlines'] at hlines
    cases hlines
    exact .inl (hentries'.trans hentries.symm)
  · obtain ⟨entry, hentry⟩ := hplaces i line hi
    obtain ⟨entry', hentry'⟩ := hplaces' i line' hi'
    rw [show start.entries.length + 1 + i = i + 1 from Nat.add_comm 1 i] at hentry hentry'
    rw [Nat.add_comm 1 i] at hdigest
    refine .inr ⟨i, line, line', _, _, entry, entry', _, hi, hi', hne, hentry, ?_⟩
    exact hentry'.trans (congrArg (fun digest => Except.ok (entry', digest)) hdigest.symm)

end DeletionJournalSnapshot

/-! ## Runs -/

inductive GateCall
  | reconcile
  | serve
deriving DecidableEq

inductive GateAnswer (α : Type)
  | reconciled (receipt : DeletionReconciliationReceipt)
  | served (response : α)

namespace DeletionRestoreGate

section Runs
variable {α : Type} (gate : DeletionRestoreGate) (env : RestoreEnv) (action : ℕ → Except Raised α)

/-- One call of the gate; the callback answers by the number of the call, like every port. -/
def perform : GateCall → Gated Unit (GateAnswer α)
  | .reconcile => do
    let receipt ← gate.reconcile env
    return .reconciled receipt
  | .serve => do
    let response ← gate.serve env (ask action)
    return .served response

def step (s : Asking (GateState Unit)) (call : GateCall) : Asking (GateState Unit) := (gate.perform env action call s).2

/-- What a run of the gate puts out: its calls with how they ended. -/
def ended (s : Asking (GateState Unit)) (call : GateCall) : List (GateCall × Except Raised (GateAnswer α)) :=
  [(call, (gate.perform env action call s).1)]

def initial : Asking (GateState Unit) := ⟨0, .closed ()⟩

/-- The last reconciliation of the log returned the receipt, and every call since has served a response. -/
def Reconciled (log : List (GateCall × Except Raised (GateAnswer α))) (receipt : DeletionReconciliationReceipt) : Prop :=
  ∃ before after, log = before ++ (.reconcile, .ok (.reconciled receipt)) :: after ∧
    ∀ entry ∈ after, ∃ response, entry = (.serve, .ok (.served response))

/-- What a reconciled gate holds: the journal's snapshot, read in the last reconciliation. -/
def Opened (s : Asking (GateState Unit)) (log : List (GateCall × Except Raised (GateAnswer α))) : Prop :=
  ∀ snapshot, s.own.snapshot = some snapshot →
    Reconciled log ⟨snapshot.checkpoint, snapshot.obligations.length⟩ ∧
      ∃ n data, env.journal n = .ok data ∧ DeletionJournalSnapshot.decode data = .ok snapshot

variable {gate env action}

theorem opened_step {s : Asking (GateState Unit)} {log : List (GateCall × Except Raised (GateAnswer α))}
    (h : Opened env s log) (call : GateCall) :
    Opened env (gate.step env action s call) (log ++ gate.ended env action s call) := by
  intro snapshot hsnapshot
  unfold step at hsnapshot
  unfold ended
  cases call with
  | reconcile =>
    simp only [perform] at hsnapshot ⊢
    rcases hrun : gate.reconcile env s with ⟨outcome, s'⟩
    cases outcome with
    | ok receipt =>
      rw [Op.bind_of_ok hrun] at hsnapshot ⊢
      obtain ⟨held, hheld, rfl, -, n, data, -, -, hdata, hdecode⟩ := reconcile_eq_ok hrun
      obtain rfl : held = snapshot := Option.some.inj (hheld.symm.trans hsnapshot)
      exact ⟨⟨log, [], rfl, List.forall_mem_nil _⟩, n, data, hdata, hdecode⟩
    | error why =>
      rw [Op.bind_of_error hrun, reconcile_error hrun] at hsnapshot
      cases hsnapshot
  | serve =>
    simp only [perform] at hsnapshot ⊢
    rcases hrun : gate.serve env (ask action) s with ⟨outcome, s'⟩
    cases outcome with
    | ok response =>
      rw [Op.bind_of_ok hrun] at hsnapshot ⊢
      obtain ⟨held, first, last, hheld, -, -, -, -, hholds⟩ := serve_eq_ok (Holding.ask action) hrun
      obtain ⟨⟨before, after, rfl, hafter⟩, hjournal⟩ := h snapshot (hholds.2.1 ▸ hsnapshot)
      refine ⟨⟨before, after ++ [(.serve, .ok (.served response))], ?_, ?_⟩, hjournal⟩
      · rw [List.append_assoc]
        rfl
      · intro entry hentry
        rcases List.mem_append.mp hentry with hentry | hentry
        · exact hafter entry hentry
        · exact ⟨response, List.mem_singleton.mp hentry⟩
    | error why =>
      rw [Op.bind_of_error hrun, serve_error hrun] at hsnapshot
      cases hsnapshot

theorem opened_run (calls : List GateCall) :
    Opened env (run (gate.step env action) initial calls) (trace (gate.step env action) (gate.ended env action) initial calls) := by
  have h0 : Opened (α := α) env initial [] := fun snapshot h => by cases h
  have hall : AllSteps (gate.step env action) (fun _ _ => True) initial calls :=
    allSteps_of_forall (fun _ _ _ => trivial) _
  have hstep (s : Asking (GateState Unit)) (log : List (GateCall × Except Raised (GateAnswer α))) (call : GateCall)
      (h : Opened env s log) (_ : True) :
      Opened env (gate.step env action s call) (log ++ gate.ended env action s call) := opened_step h call
  have h := trace_induction hstep h0 hall
  rwa [List.nil_append] at h

end Runs

/-- **Nothing is served from an unreconciled restore**, in any run of reconciliations and
services, whatever the authority, the journal, the participants, the callback and the audit
sink answer at each call. -/
theorem restore_gate_serves_reconciled {α : Type} (gate : DeletionRestoreGate) (env : RestoreEnv)
    (action : ℕ → Except Raised α) (calls : List GateCall) (response : α) (s' : Asking (GateState Unit))
    (h : gate.perform env action .serve (run (gate.step env action) initial calls) = (.ok (.served response), s')) :
    ∃ snapshot n0 data0 k,
      Reconciled (trace (gate.step env action) (gate.ended env action) initial calls)
        ⟨snapshot.checkpoint, snapshot.obligations.length⟩ ∧
      env.journal n0 = .ok data0 ∧ DeletionJournalSnapshot.decode data0 = .ok snapshot ∧
      action k = .ok response ∧
      Clean gate env snapshot (run (gate.step env action) initial calls).calls k ∧ Clean gate env snapshot (k + 1) s'.calls ∧
      ∀ data disk, DeletionJournalSnapshot.decode data = .ok disk → disk.checkpoint = snapshot.checkpoint →
        disk.obligations = snapshot.obligations ∨ DeletionJournalSnapshot.JournalCollision data0 data := by
  obtain ⟨answer, mid, hserve, hreturn⟩ := Op.bind_eq_ok.1 h
  cases hreturn
  obtain ⟨snapshot, first, last, hsnapshot, hbefore, haction, hafter, -, -⟩ := serve_eq_ok (Holding.ask action) hserve
  obtain ⟨hanswer, rfl⟩ := ask_eq_ok.1 haction
  obtain ⟨hreconciled, n0, data0, hdata0, hdecode0⟩ := opened_run calls snapshot hsnapshot
  refine ⟨snapshot, n0, data0, first.calls, hreconciled, hdata0, hdecode0, hanswer, hbefore, hafter, ?_⟩
  intro data disk hdecode hsame
  refine (DeletionJournalSnapshot.entries_eq_or_collision hdecode0 hdecode hsame).imp (fun hentries => ?_) id
  rw [DeletionJournalSnapshot.obligations, DeletionJournalSnapshot.obligations, hentries]

/-! A restore without tombstones. -/

def sampleGate : DeletionRestoreGate where
  participants := [py "memory-metadata"]
  recoveryPoint := py "urn:ocor:recovery-point:" ++ List.replicate 64 (codePoint 0x30)
  audited := true
  named := by decide
  pointed := by decide

def sampleCheckpoint : DeletionJournalCheckpoint := ⟨0, genesis, 0, by decide⟩

/-- The journal is empty, and every port works. -/
def sampleEnv : RestoreEnv where
  current _ := .ok (some sampleCheckpoint)
  journal _ := .ok []
  purge _ _ _ := .ok ()
  residue _ _ _ := .ok (some [])
  audit _ _ := .ok ()
  clock _ := 0

theorem restore_gate_serves_reconciled_sample : ∃ snapshot k,
    (Reconciled (α := ℕ) (trace (sampleGate.step sampleEnv fun _ => .ok 7) (sampleGate.ended sampleEnv fun _ => .ok 7) initial
      [.reconcile]) ⟨snapshot.checkpoint, snapshot.obligations.length⟩) ∧
    Clean sampleGate sampleEnv snapshot (run (sampleGate.step sampleEnv fun _ => .ok 7) initial [.reconcile]).calls k := by
  obtain ⟨snapshot, -, -, k, hreconciled, -, -, -, hbefore, -⟩ := restore_gate_serves_reconciled sampleGate sampleEnv
    (fun _ => .ok 7) [.reconcile] 7 _ (by rfl)
  exact ⟨snapshot, k, hreconciled, hbefore⟩

end DeletionRestoreGate

end OcorRuntime.Memory

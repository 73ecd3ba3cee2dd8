import OcorRuntime.Memory.MemoryRestoreRuns

/-! Restored memory is given out only while it matches the manifest, over every run of
openings and services: the stores, the journal, the authorities, the custodian, the
callback and the audit sink may answer differently at every call. -/
namespace OcorRuntime.Memory
open Canonical Kernel
set_option autoImplicit false
set_option maxHeartbeats 250000

namespace MemoryRestoreGate

section Parts
variable {α : Type} {env : MemoryRestoreEnv} {m : MemoryRestoreGate} {action : ℕ → Except Raised α}

theorem record_keeps (action outcome detailCode : String) (manifestDigest : Option PyStr) :
    Op.Keeps Onward (m.record env action outcome detailCode manifestDigest) :=
  Op.Keeps.bind (orClosed_keeps (Onward.ask _)) fun _ => Op.Keeps.pure _

theorem denied_keeps (action : String) (error : PyError) (manifestDigest : Option PyStr) :
    Op.Keeps Onward (m.denied env action error manifestDigest) :=
  Op.Keeps.bind (record_keeps _ _ _ _) fun _ => Op.Keeps.pure _

theorem owned_of_onward {x : Restoring α} (h : Op.Keeps Onward x) : Op.Keeps Owned x := fun s => DeletionRestoreGate.onward_owned (h s)

theorem onward_of_eq_ok {x : Restoring α} (h : Op.Keeps Onward x) {s s' : Asking (GateState (Option OpenRestore))} {a : α}
    (hx : x s = (.ok a, s')) : Onward s s' := by
  have hs := h s
  rwa [hx] at hs

/-! ## One service -/

/-- A comparison that passed, followed by a reading of the stop epoch the boundary was opened at. -/
structure Matches (m : MemoryRestoreGate) (env : MemoryRestoreEnv) (opened : OpenRestore) (obligations : List TombstoneEntry)
    (first last : ℕ) : Prop where
  verified : Verified env opened.manifest obligations first last
  epoch : env.stopEpoch last m.context = .ok (some opened.epoch)

theorem materialise_keeps (opened : OpenRestore) (obligations : List TombstoneEntry) :
    Op.Keeps Onward (m.materialise env action opened obligations) := by
  refine Op.Keeps.bind (verify_keeps _ _) fun _ => Op.Keeps.bind (checkEpoch_keeps _) fun _ => ?_
  refine Op.Keeps.bind (Onward.ask _) fun response => Op.Keeps.bind (checkEpoch_keeps _) fun _ => ?_
  exact Op.Keeps.bind (verify_keeps _ _) fun _ => Op.Keeps.bind (checkEpoch_keeps _) fun _ => Op.Keeps.pure _

theorem materialise_eq_ok {opened : OpenRestore} {obligations : List TombstoneEntry} {response : α}
    {s s' : Asking (GateState (Option OpenRestore))}
    (h : m.materialise env action opened obligations s = (.ok response, s')) :
    ∃ before after, Matches m env opened obligations s.calls before ∧ action (before + 1) = .ok response ∧
      env.stopEpoch (before + 2) m.context = .ok (some opened.epoch) ∧
      Matches m env opened obligations (before + 3) after ∧ s'.calls = after + 1 := by
  obtain ⟨_, s1, hbefore, h⟩ := Op.bind_eq_ok.1 h
  obtain ⟨hverified, -⟩ := verify_eq_ok hbefore
  obtain ⟨_, s2, hepoch, h⟩ := Op.bind_eq_ok.1 h
  obtain ⟨hstop, rfl⟩ := checkEpoch_eq_ok hepoch
  obtain ⟨response', s3, hask, h⟩ := Op.bind_eq_ok.1 h
  obtain ⟨haction, rfl⟩ := ask_eq_ok.1 hask
  obtain ⟨_, s4, hepoch', h⟩ := Op.bind_eq_ok.1 h
  obtain ⟨hstop', rfl⟩ := checkEpoch_eq_ok hepoch'
  obtain ⟨_, s5, hafter, h⟩ := Op.bind_eq_ok.1 h
  obtain ⟨hverified', -⟩ := verify_eq_ok hafter
  obtain ⟨_, s6, hepoch'', h⟩ := Op.bind_eq_ok.1 h
  obtain ⟨hstop'', rfl⟩ := checkEpoch_eq_ok hepoch''
  cases h
  exact ⟨s1.calls, s5.calls, ⟨hverified, hstop⟩, haction, hstop', ⟨hverified', hstop''⟩, rfl⟩

/-- What a service that returns found, within the window of its calls. -/
def Served (m : MemoryRestoreGate) (env : MemoryRestoreEnv) (action : ℕ → Except Raised α) (opened : OpenRestore)
    (response : α) (first last : ℕ) : Prop :=
  ∃ n data journal start before after, Within first start n ∧ env.journal n = .ok data ∧
    DeletionJournalSnapshot.decode data = .ok journal ∧ journal.checkpoint = opened.receipt.checkpoint ∧
    Matches m env opened journal.obligations start before ∧ action (before + 1) = .ok response ∧
    Matches m env opened journal.obligations (before + 3) after ∧ after < last

theorem serveOpen_keeps (opened : Option OpenRestore) : Op.Keeps Owned (m.serveOpen env action opened) := by
  refine Op.Keeps.bind (Op.Keeps.lift _) fun opened => Op.Keeps.bind (owned_of_onward (checkEpoch_keeps _)) fun _ => ?_
  refine Op.Keeps.bind (owned_of_onward (DeletionRestoreGate.read_keeps _)) fun journal => ?_
  refine Op.Keeps.bind (DeletionRestoreGate.serve_owned (owned_of_onward (materialise_keeps _ _))) fun response => ?_
  refine Op.Keeps.bind (owned_of_onward (checkEpoch_keeps _)) fun _ => ?_
  refine Op.Keeps.bind (owned_of_onward (record_keeps _ _ _ _)) fun _ => ?_
  exact Op.Keeps.bind (owned_of_onward (checkEpoch_keeps _)) fun _ => Op.Keeps.pure _

theorem serveOpen_eq_ok {owner : Option OpenRestore} {response : α} {s s' : Asking (GateState (Option OpenRestore))}
    (h : m.serveOpen env action owner s = (.ok response, s')) :
    ∃ opened, owner = some opened ∧ Served m env action opened response s.calls s'.calls := by
  obtain ⟨opened, _, hlift, h⟩ := Op.bind_eq_ok.1 h
  obtain ⟨howner, rfl⟩ := Op.lift_eq_ok.1 hlift
  rw [orRaise_eq_ok] at howner
  refine ⟨opened, howner, ?_⟩
  obtain ⟨_, s1, hepoch, h⟩ := Op.bind_eq_ok.1 h
  obtain ⟨-, rfl⟩ := checkEpoch_eq_ok hepoch
  obtain ⟨journal, s2, hread, h⟩ := Op.bind_eq_ok.1 h
  obtain ⟨data, hdata, hdecode, hcheckpoint, rfl⟩ := DeletionRestoreGate.read_eq_ok hread
  obtain ⟨response', s3, hserve, h⟩ := Op.bind_eq_ok.1 h
  obtain ⟨snapshot, first, last, -, hclean, hmaterialise, hclean', hstart, hend⟩ :=
    DeletionRestoreGate.serve_eq_ok (DeletionRestoreGate.holding_of_onward (materialise_keeps _ _)) hserve
  obtain ⟨before, after, hbefore, haction, -, hafter, hcalls⟩ := materialise_eq_ok hmaterialise
  obtain ⟨_, s4, hepoch', h⟩ := Op.bind_eq_ok.1 h
  obtain ⟨-, rfl⟩ := checkEpoch_eq_ok hepoch'
  obtain ⟨_, s5, hrecord, h⟩ := Op.bind_eq_ok.1 h
  have hrecorded := (onward_of_eq_ok (record_keeps _ _ _ _) hrecord).1
  obtain ⟨_, s6, hepoch'', h⟩ := Op.bind_eq_ok.1 h
  obtain ⟨-, rfl⟩ := checkEpoch_eq_ok hepoch''
  cases h
  have hfirst : s.calls + 1 + 1 ≤ first.calls := hstart.1
  have hlast : last.calls < s3.calls := hclean'.still.1
  refine ⟨s.calls + 1, data, journal, first.calls, before, after, ⟨by omega, by omega⟩, hdata, hdecode, hcheckpoint, hbefore,
    haction, hafter, ?_⟩
  dsimp only at hrecorded ⊢
  omega

theorem serve_eq_ok {response : α} {s s' : Asking (GateState (Option OpenRestore))}
    (h : m.serve env action s = (.ok response, s')) :
    ∃ opened, s.own.owner = some opened ∧ s'.own.owner = some opened ∧
      Served m env action opened response s.calls s'.calls := by
  rw [serve, Op.read_bind] at h
  rcases hx : m.serveOpen env action s.own.owner s with ⟨outcome, mid⟩
  cases outcome with
  | ok b =>
    rw [Op.guarded_of_ok hx] at h
    cases h
    obtain ⟨opened, howner, hserved⟩ := serveOpen_eq_ok hx
    have hkeeps : Owned s (m.serveOpen env action s.own.owner s).2 := serveOpen_keeps s.own.owner s
    rw [hx] at hkeeps
    exact ⟨opened, howner, hkeeps.2.trans howner, hserved⟩
  | error why =>
    rw [Op.guarded_of_error hx, setOpen, Op.update_bind] at h
    cases why with
    | interrupt => cases h
    | exception e =>
      obtain ⟨_, _, -, h⟩ := Op.bind_eq_ok.1 h
      cases h

theorem serve_error {s s' : Asking (GateState (Option OpenRestore))} {why : Raised}
    (h : m.serve env action s = (.error why, s')) : s'.own.owner = none := by
  rw [serve, Op.read_bind] at h
  rcases hx : m.serveOpen env action s.own.owner s with ⟨outcome, mid⟩
  cases outcome with
  | ok b =>
    rw [Op.guarded_of_ok hx] at h
    cases h
  | error why =>
    rw [Op.guarded_of_error hx, setOpen, Op.update_bind] at h
    have howned : Owned ⟨mid.calls, { mid.own with owner := none }⟩ s' := by
      cases why with
      | interrupt => exact (Op.Keeps.raise _).fails _ _ _ h
      | exception e => exact (Op.Keeps.bind (owned_of_onward (denied_keeps _ _ _)) fun _ => Op.Keeps.raise _).fails _ _ _ h
    exact howned.2

/-! ## One opening -/

/-- What an opening that returns established, within the window of its calls. -/
structure OpenedFrom (m : MemoryRestoreGate) (env : MemoryRestoreEnv) (payload : Option Bytes) (signature : PyValue)
    (opened : OpenRestore) (first last : ℕ) : Prop where
  epoch : env.stopEpoch first m.context = .ok (some opened.epoch)
  authenticated : ∃ n, Within first last n ∧ env.verify n payload signature = .ok true
  decoded : ∃ bytes, payload = some bytes ∧ BackupManifest.decode? bytes = some opened.manifest ∧
    opened.receipt.manifestDigest = sha256Urn bytes
  matched : ∃ n data journal start before, Within first start n ∧ env.journal n = .ok data ∧
    DeletionJournalSnapshot.decode data = .ok journal ∧ journal.checkpoint = opened.receipt.checkpoint ∧
    Matches m env opened journal.obligations start before ∧ before < last

theorem authenticate_keeps (payload : Option Bytes) (signature : PyValue) :
    Op.Keeps Onward (authenticate env payload signature) := by
  refine Op.Keeps.bind (orClosed_keeps (Onward.ask _)) fun _ => Op.Keeps.bind (restoreCheck_keeps _ _) fun _ => ?_
  exact Op.Keeps.bind (Op.Keeps.lift _) fun _ => Op.Keeps.bind (Op.Keeps.lift _) fun _ => Op.Keeps.pure _

theorem authenticate_eq_ok {payload : Option Bytes} {signature : PyValue} {bytes : Bytes} {manifest : BackupManifest}
    {s s' : Asking (GateState (Option OpenRestore))}
    (h : authenticate env payload signature s = (.ok (bytes, manifest), s')) :
    env.verify s.calls payload signature = .ok true ∧ payload = some bytes ∧ BackupManifest.decode? bytes = some manifest ∧
      s' = ⟨s.calls + 1, s.own⟩ := by
  obtain ⟨verified, s1, hverify, h⟩ := Op.bind_eq_ok.1 h
  obtain ⟨hanswer, rfl⟩ := ask_eq_ok.1 (orClosed_eq_ok.1 hverify)
  obtain ⟨_, _, hcheck, h⟩ := Op.bind_eq_ok.1 h
  obtain ⟨htrue, rfl⟩ := restoreCheck_eq_ok.1 hcheck
  obtain ⟨bytes', _, hlift, h⟩ := Op.bind_eq_ok.1 h
  obtain ⟨hbytes, rfl⟩ := Op.lift_eq_ok.1 hlift
  rw [orRaise_eq_ok] at hbytes
  obtain ⟨manifest', _, hlift', h⟩ := Op.bind_eq_ok.1 h
  obtain ⟨hmanifest, rfl⟩ := Op.lift_eq_ok.1 hlift'
  rw [orRaise_eq_ok] at hmanifest
  cases h
  rw [Bool.not_eq_false] at htrue
  exact ⟨htrue ▸ hanswer, hbytes, hmanifest, rfl⟩

theorem currentCheckpoint_keeps (manifest : BackupManifest) : Op.Keeps Onward (currentCheckpoint env manifest) :=
  Op.Keeps.bind (orClosed_keeps (Onward.ask _)) fun _ => Op.Keeps.bind (Op.Keeps.lift _) fun _ => restoreCheck_keeps _ _

/-- Only an authenticated payload opens the boundary, and it is opened on its manifest. -/
theorem openRestore_eq_ok {payload : Option Bytes} {signature : PyValue} {receipt : MemoryRestoreReceipt}
    {s s' : Asking (GateState (Option OpenRestore))}
    (h : m.openRestore env payload signature s = (.ok receipt, s')) :
    ∃ opened, s'.own.owner = some opened ∧ opened.receipt = receipt ∧
      OpenedFrom m env payload signature opened s.calls s'.calls := by
  obtain ⟨epoch, s1, hepoch, h⟩ := Op.bind_eq_ok.1 h
  obtain ⟨hstop, rfl⟩ := epoch_eq_ok hepoch
  obtain ⟨⟨bytes, manifest⟩, s2, hauthenticate, h⟩ := Op.bind_eq_ok.1 h
  obtain ⟨hverify, hbytes, hdecode, rfl⟩ := authenticate_eq_ok hauthenticate
  obtain ⟨_, _, hcheck, h⟩ := Op.bind_eq_ok.1 h
  obtain ⟨-, rfl⟩ := restoreCheck_eq_ok.1 hcheck
  obtain ⟨_, s3, hepoch1, h⟩ := Op.bind_eq_ok.1 h
  obtain ⟨-, rfl⟩ := checkEpoch_eq_ok hepoch1
  obtain ⟨_, _, hcheck1, h⟩ := Op.bind_eq_ok.1 h
  obtain ⟨-, rfl⟩ := restoreCheck_eq_ok.1 hcheck1
  obtain ⟨_, s4, hcurrent, h⟩ := Op.bind_eq_ok.1 h
  have h4 := (onward_of_eq_ok (currentCheckpoint_keeps _) hcurrent).1
  obtain ⟨_, s5, hepoch2, h⟩ := Op.bind_eq_ok.1 h
  obtain ⟨-, rfl⟩ := checkEpoch_eq_ok hepoch2
  obtain ⟨reconciled, s6, hreconcile, h⟩ := Op.bind_eq_ok.1 h
  obtain ⟨-, -, -, howned, -⟩ := DeletionRestoreGate.reconcile_eq_ok hreconcile
  obtain ⟨journal, s7, hread, h⟩ := Op.bind_eq_ok.1 h
  obtain ⟨data, hdata, hjournal, hcheckpoint, rfl⟩ := DeletionRestoreGate.read_eq_ok hread
  obtain ⟨_, s8, hepoch3, h⟩ := Op.bind_eq_ok.1 h
  obtain ⟨-, rfl⟩ := checkEpoch_eq_ok hepoch3
  obtain ⟨⟨deleted, verifiedItems⟩, s9, hcompare, h⟩ := Op.bind_eq_ok.1 h
  obtain ⟨hverified, h9⟩ := verify_eq_ok hcompare
  obtain ⟨_, s10, hepoch4, h⟩ := Op.bind_eq_ok.1 h
  obtain ⟨hstop', rfl⟩ := checkEpoch_eq_ok hepoch4
  obtain ⟨auditRef, s11, hrecord, h⟩ := Op.bind_eq_ok.1 h
  have h11 := (onward_of_eq_ok (record_keeps _ _ _ _) hrecord).1
  obtain ⟨_, s12, hepoch5, h⟩ := Op.bind_eq_ok.1 h
  obtain ⟨-, rfl⟩ := checkEpoch_eq_ok hepoch5
  rw [setOpen, Op.update_bind] at h
  cases h
  have h6 := howned.1
  have h9' := h9.1
  refine ⟨_, rfl, rfl, ⟨hstop, ⟨s.calls + 1, ?_, hverify⟩, ⟨bytes, hbytes, hdecode, rfl⟩, s6.calls, data, journal,
    s6.calls + 1 + 1, s9.calls, ?_, hdata, hjournal, hcheckpoint, ⟨hverified, hstop'⟩, ?_⟩⟩
  all_goals
    simp only [Within]
    dsimp only at h4 h6 h9' h11 ⊢
    omega

theorem openRestore_fails (payload : Option Bytes) (signature : PyValue) :
    Op.Fails Owned (m.openRestore env payload signature) := by
  refine Op.Fails.bind (owned_of_onward epoch_keeps) fun epoch => ?_
  refine Op.Fails.bind (owned_of_onward (authenticate_keeps _ _)) fun found => ?_
  refine Op.Fails.bind (restoreCheck_keeps _ _) fun _ => Op.Fails.bind (owned_of_onward (checkEpoch_keeps _)) fun _ => ?_
  refine Op.Fails.bind (restoreCheck_keeps _ _) fun _ => ?_
  refine Op.Fails.bind (owned_of_onward (currentCheckpoint_keeps _)) fun _ => ?_
  refine Op.Fails.bind (owned_of_onward (checkEpoch_keeps _)) fun _ => ?_
  refine Op.Fails.bind DeletionRestoreGate.reconcile_owned fun reconciled => ?_
  refine Op.Fails.bind (owned_of_onward (DeletionRestoreGate.read_keeps _)) fun journal => ?_
  refine Op.Fails.bind (owned_of_onward (checkEpoch_keeps _)) fun _ => ?_
  refine Op.Fails.bind (owned_of_onward (verify_keeps _ _)) fun compared => ?_
  refine Op.Fails.bind (owned_of_onward (checkEpoch_keeps _)) fun _ => ?_
  refine Op.Fails.bind (owned_of_onward (record_keeps _ _ _ _)) fun _ => ?_
  -- the boundary is set open last of all, so whatever raised did so before
  exact Op.Fails.bind (owned_of_onward (checkEpoch_keeps _)) fun _ => Op.Fails.update_pure _ _

theorem opened_eq_ok {payload : Option Bytes} {signature : PyValue} {receipt : MemoryRestoreReceipt}
    {s s' : Asking (GateState (Option OpenRestore))}
    (h : m.opened env payload signature s = (.ok receipt, s')) :
    ∃ opened, s'.own.owner = some opened ∧ opened.receipt = receipt ∧
      OpenedFrom m env payload signature opened s.calls s'.calls := by
  rw [opened, setOpen, Op.update_bind] at h
  generalize hclosed : (⟨s.calls, { s.own with owner := none }⟩ : Asking (GateState (Option OpenRestore))) = closed at h
  rcases hx : m.openRestore env payload signature closed with ⟨outcome, mid⟩
  cases outcome with
  | ok b =>
    rw [Op.guarded_of_ok hx] at h
    cases h
    have hopened := openRestore_eq_ok hx
    rwa [← hclosed] at hopened
  | error why =>
    rw [Op.guarded_of_error hx] at h
    cases why with
    | interrupt => cases h
    | exception e =>
      obtain ⟨_, _, -, h⟩ := Op.bind_eq_ok.1 h
      cases h

theorem opened_error {payload : Option Bytes} {signature : PyValue} {why : Raised}
    {s s' : Asking (GateState (Option OpenRestore))} (h : m.opened env payload signature s = (.error why, s')) :
    s'.own.owner = none := by
  rw [opened, setOpen, Op.update_bind] at h
  refine (Op.Fails.guarded (R := Owned) (openRestore_fails payload signature) (fun why => ?_) _ _ _ h).2
  cases why with
  | interrupt => exact (Op.Keeps.raise _).fails
  | exception e => exact (Op.Keeps.bind (owned_of_onward (denied_keeps _ _ _)) fun _ => Op.Keeps.raise _).fails

end Parts
end MemoryRestoreGate

/-! ## Runs -/

inductive RestoreCall
  | opening (payload : Option Bytes) (signature : PyValue)
  | serve

inductive RestoreAnswer (α : Type)
  | opened (receipt : MemoryRestoreReceipt)
  | served (response : α)

/-- A call of a run, how it ended, and the window of its calls of the ports. -/
structure RestoreLogEntry (α : Type) where
  call : RestoreCall
  outcome : Except Raised (RestoreAnswer α)
  first : ℕ
  last : ℕ

namespace MemoryRestoreGate

section Runs
variable {α : Type} (m : MemoryRestoreGate) (env : MemoryRestoreEnv) (action : ℕ → Except Raised α)

/-- One call of the boundary; the callback answers by the number of the call, like every port. -/
def perform : RestoreCall → Restoring (RestoreAnswer α)
  | .opening payload signature => do
    let receipt ← m.opened env payload signature
    return .opened receipt
  | .serve => do
    let response ← m.serve env action
    return .served response

def step (s : Asking (GateState (Option OpenRestore))) (call : RestoreCall) : Asking (GateState (Option OpenRestore)) :=
  (m.perform env action call s).2

/-- What a run puts out: its calls with how they ended, and when. -/
def ended (s : Asking (GateState (Option OpenRestore))) (call : RestoreCall) : List (RestoreLogEntry α) :=
  [⟨call, (m.perform env action call s).1, s.calls, (m.perform env action call s).2.calls⟩]

def initial : Asking (GateState (Option OpenRestore)) := ⟨0, .closed none⟩

/-- The last opening of the log succeeded on this manifest, and every call since has served a response. -/
def LastOpened (log : List (RestoreLogEntry α)) (opened : OpenRestore) : Prop :=
  ∃ before after payload signature first last,
    log = before ++ ⟨.opening payload signature, .ok (.opened opened.receipt), first, last⟩ :: after ∧
    OpenedFrom m env payload signature opened first last ∧
    ∀ entry ∈ after, entry.call = .serve ∧ ∃ response, entry.outcome = .ok (.served response)

/-- What an open boundary holds is what its last opening found. -/
def HoldsOpened (s : Asking (GateState (Option OpenRestore))) (log : List (RestoreLogEntry α)) : Prop :=
  ∀ opened, s.own.owner = some opened → LastOpened m env log opened

variable {m env action}

theorem perform_opening {payload : Option Bytes} {signature : PyValue} {answer : RestoreAnswer α}
    {s s' : Asking (GateState (Option OpenRestore))}
    (h : m.perform env action (.opening payload signature) s = (.ok answer, s')) :
    ∃ opened, answer = .opened opened.receipt ∧ s'.own.owner = some opened ∧
      OpenedFrom m env payload signature opened s.calls s'.calls := by
  obtain ⟨receipt, mid, hopened, hreturn⟩ := Op.bind_eq_ok.1 h
  cases hreturn
  obtain ⟨opened, howner, rfl, hfrom⟩ := opened_eq_ok hopened
  exact ⟨opened, rfl, howner, hfrom⟩

theorem perform_serve {answer : RestoreAnswer α} {s s' : Asking (GateState (Option OpenRestore))}
    (h : m.perform env action .serve s = (.ok answer, s')) :
    ∃ opened response, answer = .served response ∧ s.own.owner = some opened ∧ s'.own.owner = some opened ∧
      Served m env action opened response s.calls s'.calls := by
  obtain ⟨response, mid, hserve, hreturn⟩ := Op.bind_eq_ok.1 h
  cases hreturn
  obtain ⟨opened, howner, howner', hserved⟩ := serve_eq_ok hserve
  exact ⟨opened, response, rfl, howner, howner', hserved⟩

theorem perform_error {call : RestoreCall} {why : Raised} {s s' : Asking (GateState (Option OpenRestore))}
    (h : m.perform env action call s = (.error why, s')) : s'.own.owner = none := by
  cases call with
  | opening payload signature =>
    rcases Op.bind_eq_error.1 h with h | ⟨_, _, -, h⟩
    · exact opened_error h
    · cases h
  | serve =>
    rcases Op.bind_eq_error.1 h with h | ⟨_, _, -, h⟩
    · exact serve_error h
    · cases h

theorem holdsOpened_step {s : Asking (GateState (Option OpenRestore))} {log : List (RestoreLogEntry α)}
    (h : HoldsOpened m env s log) (call : RestoreCall) :
    HoldsOpened m env (m.step env action s call) (log ++ m.ended env action s call) := by
  intro opened howner
  unfold step at howner
  unfold ended
  rcases hrun : m.perform env action call s with ⟨outcome, s'⟩
  rw [hrun] at howner
  cases outcome with
  | error why =>
    rw [perform_error hrun] at howner
    cases howner
  | ok answer =>
    cases call with
    | opening payload signature =>
      obtain ⟨opened', rfl, howner', hfrom⟩ := perform_opening hrun
      obtain rfl : opened' = opened := Option.some.inj (howner'.symm.trans howner)
      exact ⟨log, [], payload, signature, s.calls, s'.calls, rfl, hfrom, List.forall_mem_nil _⟩
    | serve =>
      obtain ⟨opened', response, rfl, hbefore, hafter, -⟩ := perform_serve hrun
      obtain rfl : opened' = opened := Option.some.inj (hafter.symm.trans howner)
      obtain ⟨before, after, payload, signature, first, last, rfl, hfrom, hserved⟩ := h opened' hbefore
      refine ⟨before, after ++ [⟨.serve, .ok (.served response), s.calls, s'.calls⟩], payload, signature, first, last, ?_,
        hfrom, fun entry hentry => ?_⟩
      · rw [List.append_assoc]
        rfl
      · rcases List.mem_append.mp hentry with hentry | hentry
        · exact hserved entry hentry
        · obtain rfl := List.mem_singleton.mp hentry
          exact ⟨rfl, response, rfl⟩

theorem holdsOpened_run (calls : List RestoreCall) :
    HoldsOpened m env (run (m.step env action) initial calls)
      (trace (m.step env action) (m.ended env action) initial calls) := by
  have h0 : HoldsOpened (α := α) m env initial [] := fun opened h => by cases h
  have hall : AllSteps (m.step env action) (fun _ _ => True) initial calls :=
    allSteps_of_forall (fun _ _ _ => trivial) _
  have hstep (s : Asking (GateState (Option OpenRestore))) (log : List (RestoreLogEntry α)) (call : RestoreCall)
      (h : HoldsOpened m env s log) (_ : True) :
      HoldsOpened m env (m.step env action s call) (log ++ m.ended env action s call) := holdsOpened_step h call
  have h := trace_induction hstep h0 hall
  rwa [List.nil_append] at h

end Runs

/-- **Restored memory is served only while it matches the manifest**, in any run of openings
and services with any payloads and signatures, whatever every port answers at each call.
After the run: a response comes with the last opening, succeeded and with nothing but
services since, and stands between two comparisons that passed, each followed by the stop
epoch of that opening; a call that raises leaves the boundary closed; a payload opens it only
where the custodian answered `True` for it. -/
theorem restored_memory_matches_manifest {α : Type} (m : MemoryRestoreGate) (env : MemoryRestoreEnv)
    (action : ℕ → Except Raised α) (calls : List RestoreCall) (call : RestoreCall) :
    let s := run (m.step env action) initial calls
    let log := trace (m.step env action) (m.ended env action) initial calls
    (∀ response s', m.perform env action call s = (.ok (.served response), s') →
      ∃ opened, LastOpened m env log opened ∧ Served m env action opened response s.calls s'.calls) ∧
    (∀ why s', m.perform env action call s = (.error why, s') →
      s'.own.owner = none ∧ ∀ response, (m.perform env action .serve s').1 ≠ .ok (.served response)) ∧
    (∀ payload signature s', call = .opening payload signature →
      (∀ n, Within s.calls s'.calls n → env.verify n payload signature ≠ .ok true) →
      (m.perform env action call s).2 = s' → s'.own.owner = none) := by
  intro s log
  refine ⟨fun response s' h => ?_, fun why s' h => ?_, fun payload signature s' hcall hverify h => ?_⟩
  · cases call with
    | opening payload signature =>
      obtain ⟨opened, hanswer, -⟩ := perform_opening h
      cases hanswer
    | serve =>
      obtain ⟨opened, response', hanswer, howner, -, hserved⟩ := perform_serve h
      cases hanswer
      exact ⟨opened, holdsOpened_run calls opened howner, hserved⟩
  · have hclosed := perform_error h
    refine ⟨hclosed, fun response hserve => ?_⟩
    obtain ⟨opened, -, -, howner, -⟩ := perform_serve (Prod.ext hserve rfl)
    rw [hclosed] at howner
    cases howner
  · subst hcall
    rcases hrun : m.perform env action (.opening payload signature) s with ⟨outcome, mid⟩
    obtain rfl : mid = s' := by
      rw [hrun] at h
      exact h
    cases outcome with
    | error why => exact perform_error hrun
    | ok answer =>
      obtain ⟨opened, -, -, hfrom⟩ := perform_opening hrun
      obtain ⟨n, hn, hanswer⟩ := hfrom.authenticated
      exact absurd hanswer (hverify n hn)

end MemoryRestoreGate
end OcorRuntime.Memory

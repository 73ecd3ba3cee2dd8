import OcorRuntime.Commits.Serialization

/-! What a serial run leaves: for each aggregate a gapless history of its commands, for each commit its binding and its
entry in the outbox, and nothing to reconcile. A writer that acquires an epoch fences every earlier one. -/
namespace OcorRuntime.Commits
open Canonical Kernel
set_option autoImplicit false
set_option maxHeartbeats 250000

/-! ## Documents of one commit -/

theorem idempotencyDocument_eq_ok {commit : C3Commit} {key : PyStr} {binding : C3Idempotency}
    (h : idempotencyDocument commit = .ok (key, binding)) :
    documentKey (idempotencyParts commit) = .ok key ∧ binding.commitId = commit.commitId ∧
      binding.commandDigest = commit.commandDigest := by
  obtain ⟨key, hkey, h⟩ := bind_eq_ok.1 h
  cases h
  exact ⟨hkey, rfl, rfl⟩

theorem outboxDocument_eq_ok {commit : C3Commit} {key : PyStr} {entry : C3OutboxEntry}
    (h : outboxDocument commit = .ok (key, entry)) :
    documentKey [commit.outboxEventId] = .ok key ∧ entry.eventId = commit.outboxEventId ∧
      entry.commitId = commit.commitId ∧ entry.branch = commit.branch := by
  obtain ⟨payload, -, h⟩ := bind_eq_ok.1 h
  obtain ⟨key, hkey, h⟩ := bind_eq_ok.1 h
  cases h
  exact ⟨hkey, rfl, rfl, rfl⟩

theorem CommitCommand.keys_eq_ok {command : CommitCommand} {keys : CommandKeys} (h : command.keys = .ok keys) :
    documentKey [command.tenantId, command.aggregateType, command.aggregateRef] = .ok keys.aggregate ∧
      documentKey [command.tenantId, command.aggregateType, command.aggregateRef, command.idempotencyKey] =
        .ok keys.idempotency := by
  obtain ⟨aggregate, haggregate, h⟩ := bind_eq_ok.1 h
  obtain ⟨idempotency, hidempotency, h⟩ := bind_eq_ok.1 h
  cases h
  exact ⟨haggregate, hidempotency⟩

theorem Committable.binding {db : Database} {command : CommitCommand} {now : Instant} {keys : CommandKeys}
    {revised : Revised} {fence : C3WriterFence} (h : Committable db command now keys revised fence) :
    idempotencyDocument revised.commit = .ok (keys.idempotency, revised.binding) := by
  have hof := Revised.of_eq_ok h.revised_eq
  obtain ⟨key, hbinding⟩ := hof.binding
  have hkey := (idempotencyDocument_eq_ok hbinding).1
  rw [hof.scope, (CommitCommand.keys_eq_ok h.keys_eq).2] at hkey
  cases hkey
  exact hbinding

/-! ## Consistency -/

/-- Each commit has its binding and its entry, there are no others, and an acknowledgement is of an entry. -/
structure Consistent (db : Database) : Prop where
  keyed : ∀ key commit, db.commits.get? key = some commit → documentKey [commit.commitId] = .ok key
  branch : ∀ key commit, db.commits.get? key = some commit → commit.branch = mainBranch
  fenced : ∀ key commit, db.commits.get? key = some commit → commit.writerEpoch ≤ db.epoch
  bound : ∀ key commit, db.commits.get? key = some commit → ∃ bindingKey binding,
    idempotencyDocument commit = .ok (bindingKey, binding) ∧ db.idempotency.get? bindingKey = some binding
  relayed : ∀ key commit, db.commits.get? key = some commit → ∃ entryKey entry,
    outboxDocument commit = .ok (entryKey, entry) ∧ db.outbox.get? entryKey = some entry
  bindings : ∀ bindingKey binding, db.idempotency.get? bindingKey = some binding → ∃ key commit,
    db.commits.get? key = some commit ∧ idempotencyDocument commit = .ok (bindingKey, binding)
  entries : ∀ entryKey entry, db.outbox.get? entryKey = some entry → ∃ key commit,
    db.commits.get? key = some commit ∧ outboxDocument commit = .ok (entryKey, entry)
  attempts : ∀ attemptKey attempt, db.attempts.get? attemptKey = some attempt →
    documentKey [attempt.eventId] = .ok attemptKey ∧ (∃ entry, db.outbox.get? attemptKey = some entry) ∧
      attempt.writerEpoch ≤ db.epoch

theorem Consistent.empty : Consistent .empty :=
  ⟨nofun, nofun, nofun, nofun, nofun, nofun, nofun, nofun⟩

theorem get?_set_cases {δ : Type} {documents : Dict PyStr δ} {key k : PyStr} {document d : δ}
    (h : (documents.set key document).get? k = some d) : k = key ∧ d = document ∨ documents.get? k = some d := by
  by_cases hkey : key = k
  · subst hkey
    rw [Dict.get?_set_self] at h
    exact .inl ⟨rfl, (Option.some.inj h).symm⟩
  · rw [Dict.get?_set_of_ne _ _ hkey] at h
    exact .inr h

theorem Database.epoch_of_fence {db : Database} {fence : C3WriterFence} (h : db.fence = some fence) :
    db.epoch = fence.writerEpoch := by
  rw [Database.epoch, h]
  rfl

theorem Consistent.commit {db : Database} (hc : Consistent db) {command : CommitCommand} {now : Instant}
    {keys : CommandKeys} {revised : Revised} {fence : C3WriterFence} (h : Committable db command now keys revised fence) :
    Consistent (db.commitRevised keys revised) := by
  have hof := Revised.of_eq_ok h.revised_eq
  have hstays : ∀ key commit, db.commits.get? key = some commit →
      (db.commits.set revised.commitKey revised.commit).get? key = some commit :=
    fun _ _ => get?_set_of_fresh _ h.commitFresh
  constructor
  · intro key commit hget
    rcases get?_set_cases hget with ⟨rfl, rfl⟩ | hget
    · exact hof.commitKey
    · exact hc.keyed key commit hget
  · intro key commit hget
    rcases get?_set_cases hget with ⟨rfl, rfl⟩ | hget
    · exact hof.branch.trans h.branch
    · exact hc.branch key commit hget
  · intro key commit hget
    rcases get?_set_cases hget with ⟨rfl, rfl⟩ | hget
    · exact (hof.epoch_eq.trans (Database.epoch_of_fence h.fenced).symm).le
    · exact hc.fenced key commit hget
  · intro key commit hget
    rcases get?_set_cases hget with ⟨rfl, rfl⟩ | hget
    · exact ⟨_, _, h.binding, Dict.get?_set_self _ _ _⟩
    · obtain ⟨bindingKey, binding, hdocument, hbound⟩ := hc.bound key commit hget
      exact ⟨bindingKey, binding, hdocument, get?_set_of_fresh _ h.unbound hbound⟩
  · intro key commit hget
    rcases get?_set_cases hget with ⟨rfl, rfl⟩ | hget
    · exact ⟨_, _, hof.entry, Dict.get?_set_self _ _ _⟩
    · obtain ⟨entryKey, entry, hdocument, hrelayed⟩ := hc.relayed key commit hget
      exact ⟨entryKey, entry, hdocument, get?_set_of_fresh _ h.entryFresh hrelayed⟩
  · intro bindingKey binding hget
    rcases get?_set_cases hget with ⟨rfl, rfl⟩ | hget
    · exact ⟨_, _, Dict.get?_set_self _ _ _, h.binding⟩
    · obtain ⟨key, commit, hcommit, hdocument⟩ := hc.bindings bindingKey binding hget
      exact ⟨key, commit, hstays key commit hcommit, hdocument⟩
  · intro entryKey entry hget
    rcases get?_set_cases hget with ⟨rfl, rfl⟩ | hget
    · exact ⟨_, _, Dict.get?_set_self _ _ _, hof.entry⟩
    · obtain ⟨key, commit, hcommit, hdocument⟩ := hc.entries entryKey entry hget
      exact ⟨key, commit, hstays key commit hcommit, hdocument⟩
  · intro attemptKey attempt hget
    obtain ⟨hkey, ⟨entry, hentry⟩, hepoch⟩ := hc.attempts attemptKey attempt hget
    exact ⟨hkey, ⟨entry, get?_set_of_fresh _ h.entryFresh hentry⟩, hepoch⟩

theorem Consistent.step {db db' : Database} {step : Serial} (hc : Consistent db) (h : SerialStep db step db') :
    Consistent db' := by
  cases h with
  | acquire writerId =>
    exact { hc with
      fenced := fun key commit hget => (hc.fenced key commit hget).trans (Nat.le_succ _)
      attempts := fun key attempt hget =>
        have h := hc.attempts key attempt hget
        ⟨h.1, h.2.1, h.2.2.trans (Nat.le_succ _)⟩ }
  | commit h => exact hc.commit h
  | acknowledge hkey hentry hbranch hfence hfresh =>
    refine { hc with attempts := fun attemptKey attempt hget => ?_ }
    rcases get?_set_cases hget with ⟨rfl, rfl⟩ | hget
    · exact ⟨hkey, ⟨_, hentry⟩, (Database.epoch_of_fence hfence).ge⟩
    · exact hc.attempts attemptKey attempt hget

theorem SerialRun.consistent {db : Database} {steps : List Serial} (h : SerialRun .empty steps db) : Consistent db := by
  generalize hempty : Database.empty = start at h
  induction h with
  | nil =>
    subst hempty
    exact .empty
  | snoc _ hstep ih => exact ih.step hstep

/-! ## Documents that can be made again -/

inductive Derived
  | binding (key : PyStr) (document : C3Idempotency)
  | entry (key : PyStr) (document : C3OutboxEntry)
deriving DecidableEq

def Derived.In (db : Database) : Derived → Prop
  | .binding key document => db.idempotency.get? key = some document
  | .entry key document => db.outbox.get? key = some document

instance (db : Database) : (d : Derived) → Decidable (d.In db)
  | .binding key document => inferInstanceAs (Decidable (db.idempotency.get? key = some document))
  | .entry key document => inferInstanceAs (Decidable (db.outbox.get? key = some document))

def Derived.commitId : Derived → PyStr
  | .binding _ document => document.commitId
  | .entry _ document => document.commitId

def Derived.repair : Derived → Repair
  | .binding key document => (.idempotencyAbsent key, .insertIdempotency key document)
  | .entry key document => (.entryAbsent key, .insertEntry key document)

/-- What is derived from a commit. -/
def derivedOf (commit : C3Commit) : List Derived :=
  ((idempotencyDocument commit).toOption.map fun d => .binding d.1 d.2).toList ++
    ((outboxDocument commit).toOption.map fun d => .entry d.1 d.2).toList

def Database.ordered (db : Database) : List C3Commit :=
  db.commits.values.mergeSort fun a b => decide (a.commitId ≤ b.commitId)

/-- What is missing, in the order it is restored in. -/
def Database.lacking (db : Database) : List Derived := (db.ordered.flatMap derivedOf).filter fun d => ¬ d.In db

/-- Some bindings and outbox entries are gone, and nothing else. -/
structure Lost (db lost : Database) : Prop where
  fence : lost.fence = db.fence
  aggregates : lost.aggregates = db.aggregates
  commits : lost.commits = db.commits
  attempts : lost.attempts = db.attempts
  derived : ∀ d : Derived, d.In lost → d.In db

theorem Lost.refl (db : Database) : Lost db db := ⟨rfl, rfl, rfl, rfl, fun _ h => h⟩

theorem Consistent.derivedOf {db : Database} (hc : Consistent db) {commit : C3Commit} (h : commit ∈ db.commits.values) :
    ∃ bindingKey binding entryKey entry, idempotencyDocument commit = .ok (bindingKey, binding) ∧
      outboxDocument commit = .ok (entryKey, entry) ∧
      Commits.derivedOf commit = [.binding bindingKey binding, .entry entryKey entry] ∧
      (Derived.binding bindingKey binding).In db ∧ (Derived.entry entryKey entry).In db := by
  obtain ⟨key, hget⟩ := (db.commits.mem_values_iff commit).mp h
  obtain ⟨bindingKey, binding, hbinding, hbound⟩ := hc.bound key commit hget
  obtain ⟨entryKey, entry, hentry, hrelayed⟩ := hc.relayed key commit hget
  refine ⟨bindingKey, binding, entryKey, entry, hbinding, hentry, ?_, hbound, hrelayed⟩
  rw [Commits.derivedOf, hbinding, hentry]
  rfl

theorem Consistent.eq_of_commitId {db : Database} (hc : Consistent db) {a b : C3Commit} (ha : a ∈ db.commits.values)
    (hb : b ∈ db.commits.values) (h : a.commitId = b.commitId) : a = b := by
  obtain ⟨k, hk⟩ := (db.commits.mem_values_iff a).mp ha
  obtain ⟨k', hk'⟩ := (db.commits.mem_values_iff b).mp hb
  have hkey := hc.keyed k a hk
  rw [h, hc.keyed k' b hk'] at hkey
  cases hkey
  exact Option.some.inj (hk.symm.trans hk')

theorem take_concat (lost : Database) (ds : List Derived) (limit : ℕ) {d : Derived} {present : Prop} [Decidable present]
    (h : present ↔ d.In lost) :
    (if ¬ present ∧ ((ds.take limit).map Derived.repair).length < limit then (ds.take limit).map Derived.repair ++ [d.repair]
      else (ds.take limit).map Derived.repair) =
      ((ds ++ [d].filter fun d => ¬ d.In lost).take limit).map Derived.repair := by
  rw [List.length_map, List.length_take]
  by_cases hpresent : present
  · rw [if_neg (fun h => h.1 hpresent), List.filter_cons_of_neg (by simpa using h.mp hpresent), List.filter_nil,
      List.append_nil]
  · rw [List.filter_cons_of_pos (by simpa using (not_congr h).mp hpresent), List.filter_nil]
    by_cases hroom : ds.length < limit
    · rw [if_pos ⟨hpresent, by omega⟩, List.take_of_length_le (by omega), List.take_of_length_le (by simp; omega),
        List.map_append]
      rfl
    · rw [if_neg (fun h => by omega), List.take_append_of_le_length (by omega)]

theorem inserted_missing {δ : Type} {table lost : Dict PyStr δ}
    (hsub : ∀ key document, lost.get? key = some document → table.get? key = some document) {key : PyStr} {document : δ}
    (hin : table.get? key = some document) (hmissing : ¬ lost.get? key = some document) :
    lost.get? key = none ∧ inserted lost key document = some (lost.set key document) ∧
      ∀ k d, (lost.set key document).get? k = some d ↔ lost.get? k = some d ∨ k = key ∧ d = document := by
  have habsent : lost.get? key = none := by
    cases hget : lost.get? key with
    | none => rfl
    | some document' =>
      cases hin.symm.trans (hsub key document' hget)
      exact absurd hget hmissing
  refine ⟨habsent, inserted_eq_some.2 ⟨habsent, rfl⟩, fun k d => ?_⟩
  by_cases hkey : key = k
  · subst hkey
    simp [habsent, eq_comm]
  · simp [Dict.get?_set_of_ne _ _ hkey, Ne.symm hkey]

section Losses
variable {db lost : Database} (hc : Consistent db) (hl : Lost db lost) {commit : C3Commit}
  (hcommit : commit ∈ db.commits.values)

include hc hl hcommit

theorem mem_bound_iff {key : PyStr} {binding : C3Idempotency} (hdocument : idempotencyDocument commit = .ok (key, binding)) :
    commit.commitId ∈ lost.bound ↔ (Derived.binding key binding).In lost := by
  constructor
  · intro h
    obtain ⟨binding', hmem, hid⟩ := List.mem_map.mp h
    obtain ⟨key', hget⟩ := (lost.idempotency.mem_values_iff binding').mp hmem
    obtain ⟨k, commit', hget', hdocument'⟩ := hc.bindings key' binding' (hl.derived (.binding key' binding') hget)
    have hsame : commit' = commit := hc.eq_of_commitId ((db.commits.mem_values_iff commit').mpr ⟨k, hget'⟩) hcommit
      ((idempotencyDocument_eq_ok hdocument').2.1.symm.trans hid)
    subst hsame
    cases hdocument.symm.trans hdocument'
    exact hget
  · intro h
    exact List.mem_map.mpr ⟨binding, (lost.idempotency.mem_values_iff binding).mpr ⟨key, h⟩,
      (idempotencyDocument_eq_ok hdocument).2.1⟩

theorem mem_relayable_iff {key : PyStr} {entry : C3OutboxEntry} (hdocument : outboxDocument commit = .ok (key, entry)) :
    commit.commitId ∈ lost.relayable ↔ (Derived.entry key entry).In lost := by
  constructor
  · intro h
    obtain ⟨entry', hmem, hid⟩ := List.mem_map.mp h
    obtain ⟨key', hget⟩ := (lost.outbox.mem_values_iff entry').mp (List.mem_filter.mp hmem).1
    obtain ⟨k, commit', hget', hdocument'⟩ := hc.entries key' entry' (hl.derived (.entry key' entry') hget)
    have hsame : commit' = commit := hc.eq_of_commitId ((db.commits.mem_values_iff commit').mpr ⟨k, hget'⟩) hcommit
      ((outboxDocument_eq_ok hdocument').2.2.1.symm.trans hid)
    subst hsame
    cases hdocument.symm.trans hdocument'
    exact hget
  · intro h
    obtain ⟨key', hget⟩ := (db.commits.mem_values_iff commit).mp hcommit
    obtain ⟨-, -, hid, hbranch⟩ := outboxDocument_eq_ok hdocument
    exact List.mem_map.mpr ⟨entry, List.mem_filter.mpr ⟨(lost.outbox.mem_values_iff entry).mpr ⟨key, h⟩,
      decide_eq_true (hbranch.trans (hc.branch key' commit hget))⟩, hid⟩

theorem repairCommit_eq (limit : ℕ) (ds : List Derived) :
    repairCommit lost limit ((ds.take limit).map Derived.repair) commit =
      .ok (((ds ++ (derivedOf commit).filter fun d => ¬ d.In lost).take limit).map Derived.repair) := by
  obtain ⟨key, hget⟩ := (db.commits.mem_values_iff commit).mp hcommit
  obtain ⟨bindingKey, binding, entryKey, entry, hbinding, hentry, hderived, -, -⟩ := hc.derivedOf hcommit
  have hbound := mem_bound_iff hc hl hcommit hbinding
  have hrelayable := mem_relayable_iff hc hl hcommit hentry
  have hpasses : ∀ repairs : List Repair, repairCommit lost limit repairs commit = .ok (
      let repairs' := if commit.commitId ∉ lost.bound ∧ repairs.length < limit then
        repairs ++ [(Derived.binding bindingKey binding).repair] else repairs
      if commit.commitId ∉ lost.relayable ∧ repairs'.length < limit then
        repairs' ++ [(Derived.entry entryKey entry).repair] else repairs') := by
    intro repairs
    rw [repairCommit, if_neg (not_not.mpr (hc.branch key commit hget)), hbinding, hentry]
    simp only [bind, Except.bind, pure, Except.pure, Derived.repair]
    split_ifs <;> rfl
  rw [hpasses, take_concat lost ds limit hbound, take_concat lost _ limit hrelayable, hderived, List.append_assoc,
    ← List.filter_append]
  rfl

omit hcommit in
theorem repairs_eq (limit : ℕ) : lost.repairs limit = .ok ((lost.lacking.take limit).map Derived.repair) := by
  have hall : ∀ (commits : List C3Commit) (ds : List Derived), (∀ c ∈ commits, c ∈ db.commits.values) →
      commits.foldlM (repairCommit lost limit) ((ds.take limit).map Derived.repair) =
        .ok (((ds ++ (commits.flatMap derivedOf).filter fun d => ¬ d.In lost).take limit).map Derived.repair) := by
    intro commits
    induction commits with
    | nil => exact fun ds _ => by simp [pure, Except.pure]
    | cons c commits ih =>
      intro ds hmem
      rw [List.foldlM_cons, repairCommit_eq hc hl (hmem c List.mem_cons_self), List.flatMap_cons, List.filter_append,
        ← List.append_assoc]
      exact ih _ fun c' hc' => hmem c' (List.mem_cons_of_mem _ hc')
  have h := hall lost.ordered [] fun c hmem => hl.commits ▸ List.mem_mergeSort.mp hmem
  rwa [List.take_nil, List.map_nil, List.nil_append] at h

omit hl in
theorem commitId_of_mem_derivedOf {d : Derived} (hd : d ∈ derivedOf commit) : d.commitId = commit.commitId := by
  obtain ⟨bindingKey, binding, entryKey, entry, hbinding, hentry, hderived, -, -⟩ := hc.derivedOf hcommit
  rw [hderived] at hd
  rcases List.mem_pair.mp hd with rfl | rfl
  · exact (idempotencyDocument_eq_ok hbinding).2.1
  · exact (outboxDocument_eq_ok hentry).2.2.1

omit hcommit in
theorem mem_derived {d : Derived} (hd : d ∈ lost.ordered.flatMap derivedOf) : d.In db := by
  obtain ⟨c, hmem, hd⟩ := List.mem_flatMap.mp hd
  obtain ⟨bindingKey, binding, entryKey, entry, -, -, hderived, hbound, hrelayed⟩ :=
    hc.derivedOf (hl.commits ▸ List.mem_mergeSort.mp hmem)
  rw [hderived] at hd
  rcases List.mem_pair.mp hd with rfl | rfl
  exacts [hbound, hrelayed]

omit hcommit in
theorem nodup_derived : (lost.ordered.flatMap derivedOf).Nodup := by
  have hmem : ∀ c ∈ lost.ordered, c ∈ db.commits.values := fun c h => hl.commits ▸ List.mem_mergeSort.mp h
  have hvalues : db.commits.values.Nodup := by
    refine List.Nodup.map_on (fun x hx y hy hxy => ?_) db.commits.nodup.of_map
    have hkx := hc.keyed x.1 x.2 ((db.commits.mem_entries_iff x.1 x.2).mp hx)
    rw [hxy, hc.keyed y.1 y.2 ((db.commits.mem_entries_iff y.1 y.2).mp hy)] at hkx
    exact Prod.ext (Except.ok.inj hkx).symm hxy
  rw [List.nodup_flatMap]
  constructor
  · intro c h
    obtain ⟨bindingKey, binding, entryKey, entry, -, -, hderived, -, -⟩ := hc.derivedOf (hmem c h)
    simp [hderived]
  · have hordered : lost.ordered.Nodup := (List.mergeSort_perm _ _).nodup_iff.mpr (hl.commits ▸ hvalues)
    refine hordered.imp_of_mem fun {a b} ha hb hne => ?_
    intro d hda hdb
    refine hne (hc.eq_of_commitId (hmem a ha) (hmem b hb) ?_)
    rw [← commitId_of_mem_derivedOf hc (hmem a ha) hda, commitId_of_mem_derivedOf hc (hmem b hb) hdb]

omit hc hcommit in
theorem insert_one {d : Derived} (hin : d.In db) (hmissing : ¬ d.In lost) : d.repair.1.Holds lost ∧
    ∃ restored, Write.apply lost d.repair.2 = some restored ∧ Lost db restored ∧
      ∀ d' : Derived, d'.In restored ↔ d'.In lost ∨ d' = d := by
  cases d with
  | binding key document =>
    obtain ⟨habsent, hinserted, hget⟩ := inserted_missing (fun k d => hl.derived (.binding k d)) hin hmissing
    have hderived : ∀ d' : Derived, d'.In { lost with idempotency := lost.idempotency.set key document } ↔
        d'.In lost ∨ d' = .binding key document := by
      intro d'
      cases d' <;> simp [Derived.In, hget]
    refine ⟨habsent, { lost with idempotency := lost.idempotency.set key document },
      congrArg (Option.map _) hinserted, ⟨hl.fence, hl.aggregates, hl.commits, hl.attempts, fun d' h => ?_⟩, hderived⟩
    rcases (hderived d').mp h with h | rfl
    exacts [hl.derived d' h, hin]
  | entry key document =>
    obtain ⟨habsent, hinserted, hget⟩ := inserted_missing (fun k d => hl.derived (.entry k d)) hin hmissing
    have hderived : ∀ d' : Derived, d'.In { lost with outbox := lost.outbox.set key document } ↔
        d'.In lost ∨ d' = .entry key document := by
      intro d'
      cases d' <;> simp [Derived.In, hget]
    refine ⟨habsent, { lost with outbox := lost.outbox.set key document },
      congrArg (Option.map _) hinserted, ⟨hl.fence, hl.aggregates, hl.commits, hl.attempts, fun d' h => ?_⟩, hderived⟩
    rcases (hderived d').mp h with h | rfl
    exacts [hl.derived d' h, hin]

end Losses

theorem insert_lacking {db : Database} : ∀ {ds : List Derived} {lost : Database}, Lost db lost →
    (∀ d ∈ ds, d.In db ∧ ¬ d.In lost) → ds.Nodup →
    ∃ restored, (ds.map fun d => d.repair.2).foldlM Write.apply lost = some restored ∧ Lost db restored ∧
      ∀ d : Derived, d.In restored ↔ d.In lost ∨ d ∈ ds
  | [], lost, hl, _, _ => ⟨lost, rfl, hl, fun d => by simp⟩
  | d :: ds, lost, hl, hin, hnodup => by
    obtain ⟨hfresh, hnodup⟩ := List.nodup_cons.mp hnodup
    obtain ⟨-, next, happly, hnext, hderived⟩ := insert_one hl (hin d List.mem_cons_self).1 (hin d List.mem_cons_self).2
    obtain ⟨restored, hrest, hrestored, hall⟩ := @insert_lacking db ds next hnext (fun d' hd' =>
      ⟨(hin d' (List.mem_cons_of_mem _ hd')).1, fun h => by
        rcases (hderived d').mp h with h | rfl
        exacts [(hin d' (List.mem_cons_of_mem _ hd')).2 h, hfresh hd']⟩) hnodup
    refine ⟨restored, ?_, hrestored, fun d' => ?_⟩
    · rw [List.map_cons, List.foldlM_cons, happly]
      exact hrest
    · rw [hall, hderived, List.mem_cons, or_assoc]

theorem Consistent.repairs {db : Database} (hc : Consistent db) (limit : ℕ) : db.repairs limit = .ok [] := by
  have hnone : db.lacking = [] := by
    refine List.filter_eq_nil_iff.mpr fun d hd => ?_
    simpa using mem_derived hc (.refl db) hd
  rw [repairs_eq hc (.refl db), hnone, List.take_nil, List.map_nil]

/-! ## Fencing -/

/-- Whatever was written since is of no earlier epoch. -/
structure Fenced (db db' : Database) : Prop extends Grown db db' where
  commits_since : ∀ key commit, db'.commits.get? key = some commit → db.commits.get? key = none →
    db.epoch ≤ commit.writerEpoch
  attempts_since : ∀ key attempt, db'.attempts.get? key = some attempt → db.attempts.get? key = none →
    db.epoch ≤ attempt.writerEpoch

theorem get?_none_or {δ : Type} (documents : Dict PyStr δ) (key : PyStr) :
    documents.get? key = none ∨ ∃ document, documents.get? key = some document := by
  cases documents.get? key with
  | none => exact .inl rfl
  | some document => exact .inr ⟨document, rfl⟩

theorem Fenced.trans {db db' db'' : Database} (h : Fenced db db') (h' : Fenced db' db'') : Fenced db db'' where
  toGrown := h.toGrown.trans h'.toGrown
  commits_since key commit hget hnone := by
    rcases get?_none_or db'.commits key with hmid | ⟨commit', hmid⟩
    · exact h.epoch.trans (h'.commits_since key commit hget hmid)
    · cases (h'.commits key commit' hmid).symm.trans hget
      exact h.commits_since key commit hmid hnone
  attempts_since key attempt hget hnone := by
    rcases get?_none_or db'.attempts key with hmid | ⟨attempt', hmid⟩
    · exact h.epoch.trans (h'.attempts_since key attempt hget hmid)
    · cases (h'.attempts key attempt' hmid).symm.trans hget
      exact h.attempts_since key attempt hmid hnone

theorem SerialStep.fenced {db db' : Database} {step : Serial} (h : SerialStep db step db') : Fenced db db' := by
  have hgrown := h.grown
  cases h with
  | acquire writerId =>
    exact ⟨hgrown, fun _ _ hget hnone => (nomatch hnone.symm.trans hget), fun _ _ hget hnone => (nomatch hnone.symm.trans hget)⟩
  | commit h =>
    refine ⟨hgrown, fun key commit hget hnone => ?_, fun _ _ hget hnone => (nomatch hnone.symm.trans hget)⟩
    rcases get?_set_cases hget with ⟨rfl, rfl⟩ | hget
    · rw [(Revised.of_eq_ok h.revised_eq).epoch_eq, Database.epoch_of_fence h.fenced]
    · cases hnone.symm.trans hget
  | acknowledge hkey hentry hbranch hfence hfresh =>
    refine ⟨hgrown, fun _ _ hget hnone => (nomatch hnone.symm.trans hget), fun key attempt hget hnone => ?_⟩
    rcases get?_set_cases hget with ⟨rfl, rfl⟩ | hget
    · exact (Database.epoch_of_fence hfence).le
    · cases hnone.symm.trans hget

theorem Fenced.refl (db : Database) : Fenced db db :=
  ⟨.refl db, fun _ _ hget hnone => (nomatch hnone.symm.trans hget), fun _ _ hget hnone => (nomatch hnone.symm.trans hget)⟩

theorem SerialRun.fenced {db db' : Database} {steps : List Serial} (h : SerialRun db steps db') : Fenced db db' :=
  h.induct_on Fenced.refl (fun _ _ _ => Fenced.trans) fun _ _ _ => SerialStep.fenced

/-! ## The history of an aggregate -/

/-- The commits of an aggregate document, in the order they were made in. -/
def Database.history (db : Database) (key : PyStr) : List C3Commit :=
  db.commits.values.filter fun commit =>
    (documentKey [commit.tenantId, commit.aggregateType, commit.aggregateRef]).toOption = some key

/-- The commands of an aggregate document that were committed. -/
def commandsOn (key : PyStr) (steps : List Serial) : List CommitCommand :=
  steps.filterMap fun
    | .commit command _ => if command.keys.toOption.map CommandKeys.aggregate = some key then some command else none
    | _ => none

/-- The text of the state after one command. -/
def foldState (state : Option PyStr) (command : CommitCommand) : Except PyError (Option PyStr) := do
  let merged ← mergedState state command.canonicalDelta
  let text ← serialize merged
  return some text

/-- An aggregate is what its commands make of nothing, each of which saw the revision before its own, and its commits
are theirs, numbered from one. -/
structure Traced (commands : List CommitCommand) (history : List C3Commit) (aggregate : Option C3Aggregate) : Prop where
  digests : history.map C3Commit.commandDigest = commands.map CommitCommand.commandDigest
  revisions : history.map C3Commit.toRevision = List.range' 1 (revisionOf aggregate)
  sources : history.map C3Commit.fromRevision = List.range (revisionOf aggregate)
  expected : commands.map CommitCommand.expectedRevision = (List.range (revisionOf aggregate)).map Nat.cast
  state : commands.foldlM foldState none = .ok (aggregate.map C3Aggregate.stateJson)
  stateDigest : ∀ a ∈ aggregate, a.stateDigest = py "urn:sha256:" ++ Sha256.hexdigest (utf8Encode a.stateJson)
  last : aggregate.map (fun a => (a.revision, a.commitId, a.stateDigest)) =
    history.getLast?.map fun commit => (commit.toRevision, commit.commitId, commit.stateDigest)

theorem values_set_of_fresh {δ : Type} (documents : Dict PyStr δ) {key : PyStr} (document : δ)
    (hfresh : documents.get? key = none) : (documents.set key document).values = documents.values ++ [document] := by
  have hkey : key ∉ documents.entries.map Prod.fst := by
    intro hmem
    obtain ⟨d, hd⟩ := (documents.mem_keys_iff key).mp hmem
    cases hfresh.symm.trans hd
  have hentries : (documents.set key document).entries = documents.entries ++ [(key, document)] := Dict.put_of_notMem hkey
  rw [Dict.values, hentries, List.map_append]
  rfl

theorem canonicalDigest_eq_ok {value : PyValue} {digest text : PyStr} (h : canonicalDigest value = .ok digest)
    (htext : serialize value = .ok text) : digest = py "urn:sha256:" ++ Sha256.hexdigest (utf8Encode text) := by
  obtain ⟨hash, hhash, h⟩ := bind_eq_ok.1 h
  obtain ⟨bytes, hbytes, hhash⟩ := bind_eq_ok.1 hhash
  obtain ⟨text', htext', hbytes⟩ := bind_eq_ok.1 hbytes
  cases htext.symm.trans htext'
  cases hbytes
  cases hhash
  cases h
  rfl

theorem Committable.traced {db : Database} {steps : List Serial} {command : CommitCommand} {now : Instant}
    {keys : CommandKeys} {revised : Revised} {fence : C3WriterFence} (h : Committable db command now keys revised fence)
    {key : PyStr} (ht : Traced (commandsOn key steps) (db.history key) (db.aggregates.get? key)) :
    Traced (commandsOn key (steps ++ [.commit command now])) ((db.commitRevised keys revised).history key)
      ((db.commitRevised keys revised).aggregates.get? key) := by
  have hof := Revised.of_eq_ok h.revised_eq
  have hscope := hof.scope
  simp only [idempotencyParts, List.cons.injEq, and_true] at hscope
  obtain ⟨htenant, htype, hreference, -⟩ := hscope
  have hkeyed : documentKey [revised.commit.tenantId, revised.commit.aggregateType, revised.commit.aggregateRef] =
      .ok keys.aggregate := by
    rw [htenant, htype, hreference]
    exact (CommitCommand.keys_eq_ok h.keys_eq).1
  have hcommands : commandsOn key (steps ++ [.commit command now]) =
      commandsOn key steps ++ if keys.aggregate = key then [command] else [] := by
    rw [commandsOn, List.filterMap_append, commandsOn]
    congr 1
    by_cases hkey : keys.aggregate = key <;> simp [h.keys_eq, Except.toOption, hkey]
  have hhistory : (db.commitRevised keys revised).history key =
      db.history key ++ if keys.aggregate = key then [revised.commit] else [] := by
    rw [Database.history, Database.commitRevised, values_set_of_fresh _ _ h.commitFresh, List.filter_append]
    congr 1
    by_cases hkey : keys.aggregate = key <;> simp [hkeyed, Except.toOption, hkey]
  rw [hcommands, hhistory]
  by_cases hkey : keys.aggregate = key
  · subst hkey
    rw [if_pos rfl, if_pos rfl, Database.commitRevised, Dict.get?_set_self]
    obtain ⟨state, hmerged, htext, hdigest⟩ := hof.state
    have hrevision : revisionOf (some revised.aggregate) = revisionOf (db.aggregates.get? keys.aggregate) + 1 := hof.revision
    constructor
    · rw [List.map_append, List.map_append, ht.digests, List.map_singleton, List.map_singleton, hof.digest]
    · rw [List.map_append, ht.revisions, hrevision, List.range'_1_concat, List.map_singleton, hof.target, Nat.add_comm 1]
    · rw [List.map_append, ht.sources, hrevision, List.range_succ, List.map_singleton, hof.source]
    · rw [List.map_append, ht.expected, hrevision, List.range_succ, List.map_append, List.map_singleton, List.map_singleton,
        h.expected]
    · have hfold : foldState ((db.aggregates.get? keys.aggregate).map C3Aggregate.stateJson) command =
          .ok (some revised.aggregate.stateJson) :=
        bind_eq_ok.2 ⟨state, hmerged, bind_eq_ok.2 ⟨_, htext, rfl⟩⟩
      rw [List.foldlM_append, ht.state]
      exact bind_eq_ok.2 ⟨_, rfl, bind_eq_ok.2 ⟨_, hfold, rfl⟩⟩
    · intro a ha
      cases ha
      exact canonicalDigest_eq_ok hdigest htext
    · rw [List.getLast?_concat, Option.map_some, Option.map_some, hof.revision, hof.target, hof.commitId, hof.stateDigest]
  · rw [if_neg hkey, if_neg hkey, List.append_nil, List.append_nil, Database.commitRevised, Dict.get?_set_of_ne _ _ hkey]
    exact ht

theorem SerialRun.traced {db : Database} {steps : List Serial} (h : SerialRun .empty steps db) (key : PyStr) :
    Traced (commandsOn key steps) (db.history key) (db.aggregates.get? key) := by
  generalize hempty : Database.empty = start at h
  induction h with
  | nil =>
    subst hempty
    exact ⟨rfl, rfl, rfl, rfl, rfl, nofun, rfl⟩
  | @snoc db' db'' steps step _ hstep ih =>
    cases hstep with
    | commit h => exact h.traced ih
    | acquire writerId =>
      rw [commandsOn, List.filterMap_append]
      exact (List.append_nil (commandsOn key steps)).symm ▸ ih
    | acknowledge hkey hentry hbranch hfence hfresh =>
      rw [commandsOn, List.filterMap_append]
      exact (List.append_nil (commandsOn key steps)).symm ▸ ih

end OcorRuntime.Commits

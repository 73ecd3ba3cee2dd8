import OcorRuntime.Memory.JournalLaws
import OcorRuntime.Memory.TombstoneJournal

/-! What the tombstone stores keep over every sequence of appends: the epochs are handed
out one by one and each to one item, an outcome follows its start, and nothing follows a
completed tombstone. The journal takes the same entries as the in-memory store, and a new
process reads them back. -/
namespace OcorRuntime.Memory
open Canonical Kernel
set_option autoImplicit false
set_option maxHeartbeats 250000

/-! ## The in-memory store -/

namespace InMemoryTombstoneStore

@[simp] theorem entries_empty (id : PyStr) : empty.entries id = [] := rfl

theorem entries_insert (m : InMemoryTombstoneStore) (e : TombstoneEntry) (id : PyStr) :
    (m.insert e).entries id = if id = e.memoryItemId then m.entries id ++ [e] else m.entries id := by
  unfold entries insert
  rw [Dict.get?_set]
  by_cases h : id = e.memoryItemId
  · subst h
    simp [entries]
  · rw [if_neg (Ne.symm h), if_neg h]

theorem mem_entries_insert {m : InMemoryTombstoneStore} {e f : TombstoneEntry} {id : PyStr} :
    f ∈ (m.insert e).entries id ↔ f ∈ m.entries id ∨ (id = e.memoryItemId ∧ f = e) := by
  rw [entries_insert]
  split_ifs with h <;> simp [h]

theorem conflict_eq_none {e : TombstoneEntry} {m : InMemoryTombstoneStore} (h : conflict e m = none) :
    (e.phase = .started → e.deletionEpoch = m.latest + 1 ∨
      ∃ f ∈ m.entries e.memoryItemId, f.deletionEpoch = e.deletionEpoch) ∧
    (e.phase ≠ .started → ∃ f ∈ m.entries e.memoryItemId, f.deletionEpoch = e.deletionEpoch ∧ f.phase = .started) ∧
    ∀ f ∈ m.entries e.memoryItemId, f.phase ≠ .completed := by
  rw [conflict, Option.map_eq_none_iff] at h
  unfold epochConflict at h
  split_ifs at h with hepoch houtcome hterminal
  refine ⟨fun hphase => ?_, fun hphase => ?_, fun f hf hcompleted => hterminal ⟨f, hf, hcompleted⟩⟩
  · by_contra hnone
    rw [not_or] at hnone
    exact hepoch ⟨hphase, hnone⟩
  · by_contra hnone
    exact houtcome ⟨hphase, hnone⟩

/-- What holds of the entries after any appends. -/
structure Regular (m : InMemoryTombstoneStore) : Prop where
  /-- The reserved epochs are exactly `1..latest_epoch()`. -/
  reserved : ∀ n, (∃ id, ∃ e ∈ m.entries id, e.phase = .started ∧ e.deletionEpoch = n) ↔ 1 ≤ n ∧ n ≤ m.latestEpoch
  /-- Each of them occurs in the entries of exactly one item. -/
  owner : ∀ n, 1 ≤ n → n ≤ m.latestEpoch → ∃! id, ∃ e ∈ m.entries id, e.deletionEpoch = n
  /-- An outcome is preceded by the start of its saga. -/
  preceded : ∀ id before e after, m.entries id = before ++ e :: after → e.phase ≠ .started →
    ∃ s ∈ before, s.phase = .started ∧ s.deletionEpoch = e.deletionEpoch
  /-- Nothing follows a completed tombstone. -/
  terminal : ∀ id before e after, m.entries id = before ++ e :: after → e.phase = .completed → after = []

theorem Regular.epoch_started {m : InMemoryTombstoneStore} (h : m.Regular) {id : PyStr} {e : TombstoneEntry}
    (he : e ∈ m.entries id) : ∃ s ∈ m.entries id, s.phase = .started ∧ s.deletionEpoch = e.deletionEpoch := by
  by_cases hphase : e.phase = .started
  · exact ⟨e, he, hphase, rfl⟩
  · obtain ⟨before, after, hsplit⟩ := List.append_of_mem he
    obtain ⟨s, hs, hstarted⟩ := h.preceded id before e after hsplit hphase
    exact ⟨s, by rw [hsplit]; exact List.mem_append_left _ hs, hstarted⟩

theorem Regular.epoch_bounds {m : InMemoryTombstoneStore} (h : m.Regular) {id : PyStr} {e : TombstoneEntry}
    (he : e ∈ m.entries id) : 1 ≤ e.deletionEpoch ∧ e.deletionEpoch ≤ m.latest := by
  obtain ⟨s, hs, hphase, hepoch⟩ := h.epoch_started he
  exact (h.reserved e.deletionEpoch).mp ⟨id, s, hs, hphase, hepoch⟩

theorem regular_empty : empty.Regular where
  reserved n := by
    have hzero : empty.latestEpoch = 0 := rfl
    simp only [entries_empty, List.not_mem_nil, false_and, exists_false, false_iff, hzero]
    omega
  owner n hlow hhigh := by
    have hzero : empty.latestEpoch = 0 := rfl
    omega
  preceded id before e after h := by simp at h
  terminal id before e after h := by simp at h

theorem split_insert {m : InMemoryTombstoneStore} {e f : TombstoneEntry} {id : PyStr} {before after : List TombstoneEntry}
    (h : (m.insert e).entries id = before ++ f :: after) :
    (∃ after', m.entries id = before ++ f :: after' ∧ (after = after' ∨ id = e.memoryItemId ∧ after = after' ++ [e])) ∨
      (id = e.memoryItemId ∧ m.entries id = before ∧ f = e ∧ after = []) := by
  rw [entries_insert] at h
  split_ifs at h with hid
  · cases after using List.reverseRecOn with
    | nil =>
      obtain ⟨hbefore, hlast⟩ := List.append_inj' h rfl
      exact .inr ⟨hid, hbefore, (List.cons.inj hlast).1.symm, rfl⟩
    | append_singleton after g _ =>
      have hsplit : m.entries id ++ [e] = (before ++ f :: after) ++ [g] := by simpa using h
      obtain ⟨hentries, hlast⟩ := List.append_inj' hsplit rfl
      have hg : g = e := (List.cons.inj hlast).1.symm
      exact .inl ⟨after, hentries, .inr ⟨hid, by rw [hg]⟩⟩
  · exact .inl ⟨after, h, .inl rfl⟩

theorem regular_insert {m : InMemoryTombstoneStore} (h : m.Regular) {e : TombstoneEntry} (hfree : conflict e m = none) :
    (m.insert e).Regular := by
  obtain ⟨hstarts, houtcomes, hopen⟩ := conflict_eq_none hfree
  -- the epoch is either new, or already one of this item
  have hepoch : e.phase = .started ∧ e.deletionEpoch = m.latest + 1 ∨
      ∃ f ∈ m.entries e.memoryItemId, f.deletionEpoch = e.deletionEpoch := by
    by_cases hphase : e.phase = .started
    · exact (hstarts hphase).imp (fun hnew => ⟨hphase, hnew⟩) id
    · obtain ⟨f, hf, hsame, -⟩ := houtcomes hphase
      exact .inr ⟨f, hf, hsame⟩
  have hlatest : (m.insert e).latestEpoch = max m.latest e.deletionEpoch := rfl
  have hold : ∀ {id f}, f ∈ m.entries id → f ∈ (m.insert e).entries id := fun hf => mem_entries_insert.2 (.inl hf)
  have hnew : e ∈ (m.insert e).entries e.memoryItemId := mem_entries_insert.2 (.inr ⟨rfl, rfl⟩)
  constructor
  case reserved =>
    intro n
    constructor
    · rintro ⟨id, f, hf, hphase, rfl⟩
      rcases mem_entries_insert.1 hf with hf | ⟨rfl, rfl⟩
      · obtain ⟨hlow, hhigh⟩ := h.epoch_bounds hf
        rw [hlatest]
        omega
      · rcases hepoch with ⟨-, hnext⟩ | ⟨g, hg, hsame⟩
        · rw [hlatest]
          omega
        · obtain ⟨hlow, hhigh⟩ := h.epoch_bounds hg
          rw [hlatest]
          omega
    · rintro ⟨hlow, hhigh⟩
      by_cases hn : n ≤ m.latest
      · obtain ⟨id, f, hf, hphase, hfn⟩ := (h.reserved n).mpr ⟨hlow, hn⟩
        exact ⟨id, f, hold hf, hphase, hfn⟩
      · rcases hepoch with ⟨hphase, hnext⟩ | ⟨g, hg, hsame⟩
        · rw [hlatest] at hhigh
          exact ⟨_, e, hnew, hphase, by omega⟩
        · have hbounds := h.epoch_bounds hg
          rw [hlatest] at hhigh
          omega
  case owner =>
    intro n hlow hhigh
    rw [hlatest] at hhigh
    by_cases hn : n ≤ m.latest
    · obtain ⟨id, ⟨f, hf, hfn⟩, hunique⟩ := h.owner n hlow hn
      refine ⟨id, ⟨f, hold hf, hfn⟩, ?_⟩
      rintro id' ⟨g, hg, hgn⟩
      rcases mem_entries_insert.1 hg with hg | ⟨rfl, rfl⟩
      · exact hunique id' ⟨g, hg, hgn⟩
      · rcases hepoch with ⟨-, hnext⟩ | ⟨g', hg', hsame⟩
        · omega
        · exact hunique _ ⟨g', hg', hsame.trans hgn⟩
    · rcases hepoch with ⟨-, hnext⟩ | ⟨g, hg, hsame⟩
      · refine ⟨e.memoryItemId, ⟨e, hnew, by omega⟩, ?_⟩
        rintro id' ⟨g, hg, hgn⟩
        rcases mem_entries_insert.1 hg with hg | ⟨rfl, -⟩
        · have hbounds := h.epoch_bounds hg
          omega
        · rfl
      · have hbounds := h.epoch_bounds hg
        omega
  case preceded =>
    intro id before f after hsplit hphase
    rcases split_insert hsplit with ⟨after', hentries, -⟩ | ⟨rfl, rfl, rfl, -⟩
    · exact h.preceded id before f after' hentries hphase
    · obtain ⟨s, hs, hsame, hstarted⟩ := houtcomes hphase
      exact ⟨s, hs, hstarted, hsame⟩
  case terminal =>
    intro id before f after hsplit hphase
    rcases split_insert hsplit with ⟨after', hentries, hafter⟩ | ⟨-, -, -, hafter⟩
    · have hlast := h.terminal id before f after' hentries hphase
      rcases hafter with rfl | ⟨rfl, -⟩
      · exact hlast
      · exact absurd hphase (hopen f (by rw [hentries]; simp))
    · exact hafter

/-- Appends in order: what they leave. -/
def step (m : InMemoryTombstoneStore) (e : TombstoneEntry) : InMemoryTombstoneStore := (append e m).2

/-- What an append returns. -/
def outcome (m : InMemoryTombstoneStore) (e : TombstoneEntry) : List (Except PyError Unit) := [(append e m).1]

theorem Regular.step {m : InMemoryTombstoneStore} (h : m.Regular) (e : TombstoneEntry) : (m.step e).Regular := by
  unfold InMemoryTombstoneStore.step append
  cases hconflict : conflict e m with
  | some error => exact h
  | none => exact regular_insert h hconflict

end InMemoryTombstoneStore

/-! ## Entries the journal can hold -/

/-- An entry with canonical bytes: all texts are Unicode and all counters exact integers. -/
structure TombstoneEntry.Writable (e : TombstoneEntry) : Prop where
  scalar : ∀ text ∈ [e.memoryItemId, e.tenantId, e.reasonCode, e.operationId, e.stamp] ++ e.partitionDigests ++
    e.versionRefs ++ e.participants ++ e.residueCounts.map Prod.fst, Scalar text
  epoch : e.deletionEpoch ≤ maxSafeInteger
  retained : e.retainedSharedObjects ≤ maxSafeInteger
  counts : ∀ count ∈ e.residueCounts, count.2 ≤ maxSafeInteger

/-- An entry `from_mapping` takes back: no text that must be there is empty, and the counters are in range. -/
structure TombstoneEntry.Valid (e : TombstoneEntry) : Prop extends e.Writable where
  nonEmpty : ∀ text ∈ [e.memoryItemId, e.tenantId, e.reasonCode, e.operationId, e.stamp], text ≠ []
  reserved : 1 ≤ e.deletionEpoch
  counted : ∀ count ∈ e.residueCounts, 1 ≤ count.2

theorem iJson_count {count : PyStr × ℕ} (hname : Scalar count.1) (hcount : count.2 ≤ maxSafeInteger) :
    IJson (.list [.str count.1, .int count.2]) := by
  rw [IJson]
  simp [hname, hcount]

theorem iJson_tombstone {e : TombstoneEntry} (h : e.Writable) : IJson e.toMapping := by
  have hcounts : IJson (.list (e.residueCounts.map fun count => .list [.str count.1, .int count.2])) := by
    rw [IJson]
    intro item hitem
    obtain ⟨count, hcount, rfl⟩ := List.mem_map.mp hitem
    refine iJson_count (h.scalar _ ?_) (h.counts count hcount)
    exact List.mem_append_right _ (List.mem_map_of_mem hcount)
  have hscalar := h.scalar
  simp only [List.mem_append, List.mem_cons, List.not_mem_nil, or_false] at hscalar
  have hepoch := h.epoch
  have hretained := h.retained
  unfold TombstoneEntry.toMapping
  refine iJson_fields (by simp only [List.map_cons, List.map_nil]; decide) ?_
  simp only [List.mem_cons, List.not_mem_nil, or_false, forall_eq_or_imp, forall_eq, Option.mem_def, Option.some.injEq,
    forall_eq', iJson_str, iJson_int, iJson_strings, scalar_py, hcounts, Int.natAbs_natCast, hepoch, hretained]
  simp_all

theorem mapM_map_some {α β γ : Type} {f : α → β} {g : β → Option γ} {r : α → γ} (h : ∀ a, g (f a) = some (r a))
    (l : List α) : (l.map f).mapM g = some (l.map r) := by
  induction l with
  | nil => rfl
  | cons a l ih => rw [List.map_cons, List.mapM_cons, h, ih]; rfl

theorem textsMember_strings (texts : List PyStr) : textsMember (strings texts) = .ok (some texts) := by
  have htexts : (texts.map PyValue.str).mapM text? = some (texts.map id) :=
    mapM_map_some (g := text?) (r := id) (fun _ => rfl) texts
  rw [textsMember, strings]
  simp only [iterated, bind, Except.bind, isList, if_true, htexts, List.map_id]
  rfl

theorem stringMember_of_ne {field : String} {s : PyStr} (h : s ≠ []) : stringMember field (.str s) = .ok s := by
  cases s with
  | nil => exact absurd rfl h
  | cons c s => rfl

theorem countsMember_counts (counts : List (PyStr × ℕ)) :
    countsMember (.list (counts.map fun count => .list [.str count.1, .int count.2])) =
      .ok (some (counts.map fun count => (count.1, .int count.2))) := by
  have hitems : (counts.map fun count => PyValue.list [.str count.1, .int count.2]).mapM countMember =
      .ok (counts.map fun count => some (count.1, .int count.2)) := by
    induction counts with
    | nil => rfl
    | cons count counts ih => rw [List.map_cons, List.mapM_cons, ih]; rfl
  have hall : (counts.map fun count => some (count.1, PyValue.int count.2)).mapM id =
      some (counts.map fun count => (count.1, PyValue.int count.2)) :=
    mapM_map_some (g := id) (r := fun count => (count.1, PyValue.int count.2)) (fun _ => rfl) counts
  rw [countsMember]
  simp only [iterated, bind, Except.bind, hitems, isList, if_true, hall]
  rfl

theorem ofValue_value (phase : TombstonePhase) : TombstonePhase.ofValue? (py phase.value) = some phase := by
  cases phase <;> decide

theorem counter_of_le {minimum n : ℕ} (h : minimum ≤ n) : counter? minimum (.int n) = some n := by
  rw [counter?, if_pos (by omega), Int.toNat_natCast]

theorem canon_counts (counts : List (PyStr × ℕ)) :
    canon (.list (counts.map fun count => .list [.str count.1, .int count.2])) =
      .list (counts.map fun count => .list [.str count.1, .int count.2]) := by
  rw [canon, List.map_map]
  congr 1
  refine List.map_congr_left fun count _ => ?_
  simp [canon]

theorem counters_counts {counts : List (PyStr × ℕ)} (h : ∀ count ∈ counts, 1 ≤ count.2) :
    (counts.map fun count => (count.1, PyValue.int count.2)).mapM
      (fun count => (counter? 1 count.2).map fun n => (count.1, n)) = some counts := by
  induction counts with
  | nil => rfl
  | cons count counts ih =>
    have hone : counter? 1 (.int count.2) = some count.2 := counter_of_le (h count List.mem_cons_self)
    rw [List.map_cons, List.mapM_cons, ih fun c hc => h c (List.mem_cons_of_mem _ hc)]
    simp only [hone]
    rfl

/-- **An entry is read back as it was written.** -/
theorem fromMapping_canon {e : TombstoneEntry} (h : e.Valid) : TombstoneEntry.fromMapping (canon e.toMapping) = .ok e := by
  obtain ⟨ms, hms, hclosed, hmember⟩ := canon_record (iJson_tombstone h.toWritable) (by simp)
  have hepoch : counter? 1 (.int e.deletionEpoch) = some e.deletionEpoch := counter_of_le h.reserved
  have hretained : counter? 0 (.int e.retainedSharedObjects) = some e.retainedSharedObjects :=
    counter_of_le (Nat.zero_le _)
  have hcounts := counters_counts h.counted
  have hnonEmpty := h.nonEmpty
  simp only [List.mem_cons, List.not_mem_nil, or_false, forall_eq_or_imp, forall_eq] at hnonEmpty
  obtain ⟨hid, htenant, hreason, hoperation, hstamp⟩ := hnonEmpty
  have hphase : py e.phase.value ≠ [] := by cases e.phase <;> decide
  have hstrings : ∀ texts, canon (strings texts) = strings texts := fun texts => canon_textual (textual_strings texts)
  have hstr : ∀ s, canon (.str s) = .str s := fun s => canon_textual trivial
  have hint : ∀ n, canon (.int n) = .int n := fun n => by simp [canon]
  simp only [List.mem_cons, List.not_mem_nil, or_false, forall_eq_or_imp, forall_eq, Option.mem_def, Option.some.injEq,
    forall_eq', hstr, hstrings, hint, canon_counts] at hmember
  obtain ⟨m1, m2, m3, m4, m5, m6, m7, m8, m9, m10, m11, m12⟩ := hmember
  have hmembers : tombstoneMembers ms = .ok
      { memoryItemId := e.memoryItemId, tenantId := e.tenantId, partitionDigests := some e.partitionDigests
        versionRefs := some e.versionRefs, deletionEpoch := .int e.deletionEpoch, phase := py e.phase.value
        reasonCode := e.reasonCode, operationId := e.operationId, participants := some e.participants
        residueCounts := some (e.residueCounts.map fun count => (count.1, .int count.2))
        retainedSharedObjects := .int e.retainedSharedObjects, stamp := e.stamp } := by
    unfold tombstoneMembers
    rw [m1, m2, m3, m4, m5, m6, m7, m8, m9, m10, m11, m12]
    simp only [stringMember_of_ne hid, stringMember_of_ne htenant, stringMember_of_ne hreason,
      stringMember_of_ne hoperation, stringMember_of_ne hstamp, stringMember_of_ne hphase, textsMember_strings,
      countsMember_counts]
    rfl
  have hentry : e.toMapping = fields _ := rfl
  have hfields : HasKeys tombstoneFields ms := hclosed
  rw [hentry, hms]
  unfold TombstoneEntry.fromMapping
  simp only [hmembers, Except.mapError, refuseIf, bind, Except.bind]
  rw [if_neg (not_not.mpr hfields)]
  simp only [TombstoneMembers.entry?, ofValue_value, orRaise, hepoch, hretained, bind, Option.bind, pure]
  rw [hcounts]
  rfl

theorem keeps_of_valid {e : TombstoneEntry} (h : e.Valid) : tombstoneJournal.Keeps e :=
  ⟨iJson_tombstone h.toWritable, fromMapping_canon h, rfl⟩

/-! ## The journal beside the in-memory store -/

theorem tombstoneJournal_named : tombstoneJournal.Named := by
  unfold JournalKind.Named tombstoneJournal
  decide

/-- One instance of the journal with its file. -/
abbrev TombstoneFile := Journal InMemoryTombstoneStore × Bytes

namespace TombstoneFile

def start : TombstoneFile := (.fresh .empty, [])

def step (s : TombstoneFile) (e : TombstoneEntry) : TombstoneFile := (tombstoneJournal.append e s).2

def outcome (s : TombstoneFile) (e : TombstoneEntry) : List (Except PyError Unit) := [(tombstoneJournal.append e s).1]

/-- The file holds the entries, the instance has read them all, and its index is the in-memory store. -/
structure Mirrors (s : TombstoneFile) (entries : List TombstoneEntry) (m : InMemoryTombstoneStore) : Prop where
  holds : tombstoneJournal.Holds .empty entries s.2
  current : s.1 = tombstoneJournal.replay (.fresh .empty) entries
  memory : s.1.memory = m

theorem mirrors_start : start.Mirrors [] .empty :=
  ⟨JournalKind.holds_nil _ _, rfl, rfl⟩

theorem mirrors_step {s : TombstoneFile} {entries : List TombstoneEntry} {m : InMemoryTombstoneStore}
    (h : s.Mirrors entries m) (hbound : entries.length + 1 ≤ maxSafeInteger) {e : TombstoneEntry}
    (hvalid : InMemoryTombstoneStore.conflict e m = none → e.Valid) :
    outcome s e = m.outcome e ∧
      ∃ entries', entries'.length ≤ entries.length + 1 ∧ (step s e).Mirrors entries' (m.step e) := by
  obtain ⟨j, file⟩ := s
  have hcurrent : j = tombstoneJournal.replay (.fresh .empty) entries := h.current
  have hlags := JournalKind.lags_full tombstoneJournal .empty entries
  rw [← hcurrent] at hlags
  have hmemory : (tombstoneJournal.replay (.fresh .empty) entries).memory = m := hcurrent ▸ h.memory
  unfold outcome step InMemoryTombstoneStore.outcome InMemoryTombstoneStore.step InMemoryTombstoneStore.append
  cases hconflict : InMemoryTombstoneStore.conflict e m with
  | some error =>
    have happend := JournalKind.append_refused (a := e) tombstoneJournal_named h.holds hlags (by omega) rfl
      (hmemory ▸ hconflict)
    rw [happend]
    exact ⟨rfl, entries, by omega, h.holds, rfl, hmemory⟩
  | none =>
    have hkeeps := keeps_of_valid (hvalid hconflict)
    have hfree : tombstoneJournal.conflict e (tombstoneJournal.replay (.fresh .empty) entries).memory = none :=
      hmemory ▸ hconflict
    have happend := JournalKind.append_accepted tombstoneJournal_named h.holds hlags hbound hkeeps hfree
    rw [happend]
    refine ⟨rfl, entries ++ [e], by simp, h.holds.snoc hkeeps hfree, rfl, ?_⟩
    change (tombstoneJournal.replay (.fresh .empty) (entries ++ [e])).memory = m.insert e
    rw [JournalKind.replay_append, ← hmemory]
    rfl

theorem mirrors_run {appends : List TombstoneEntry} : ∀ {s : TombstoneFile} {entries : List TombstoneEntry}
    {m : InMemoryTombstoneStore}, s.Mirrors entries m → entries.length + appends.length ≤ maxSafeInteger →
    AllSteps InMemoryTombstoneStore.step (fun m e => InMemoryTombstoneStore.conflict e m = none → e.Valid) m appends →
    trace step outcome s appends = trace InMemoryTombstoneStore.step InMemoryTombstoneStore.outcome m appends ∧
      ∃ entries', entries'.length ≤ entries.length + appends.length ∧
        (run step s appends).Mirrors entries' (run InMemoryTombstoneStore.step m appends) := by
  induction appends with
  | nil => exact fun h _ _ => ⟨rfl, _, by simp, h⟩
  | cons e appends ih =>
    intro s entries m h hbound hvalid
    rw [List.length_cons] at hbound
    obtain ⟨houtcome, entries', hlength, hstep⟩ := mirrors_step h (by omega) hvalid.1
    obtain ⟨houtcomes, entries'', hlength', hrun⟩ := ih hstep (by omega) hvalid.2
    refine ⟨by rw [trace, trace, houtcome, houtcomes], entries'', ?_, hrun⟩
    rw [List.length_cons]
    omega

end TombstoneFile

/-- The journal agrees with the in-memory store over the appends, and its file can be read back. -/
structure JournalAgrees (appends : List TombstoneEntry) : Prop where
  outcomes : trace TombstoneFile.step TombstoneFile.outcome .start appends =
    trace InMemoryTombstoneStore.step InMemoryTombstoneStore.outcome .empty appends
  index : (run TombstoneFile.step .start appends).1.memory = run InMemoryTombstoneStore.step .empty appends
  /-- Entries, latest epoch, head and sequence number of a new process are those of the writer. -/
  reopened : tombstoneJournal.opened .empty (run TombstoneFile.step .start appends).2 =
    (.ok (), (run TombstoneFile.step .start appends).1)

def sampleTombstone (phase : TombstonePhase) (reasonCode : PyStr) : TombstoneEntry where
  memoryItemId := py "m"
  tenantId := py "t"
  partitionDigests := [py "p"]
  versionRefs := [py "urn:ocor:memory:m:v1"]
  deletionEpoch := 1
  phase := phase
  reasonCode := reasonCode
  operationId := py "op"
  participants := [py "content"]
  residueCounts := []
  retainedSharedObjects := 0
  stamp := py "2026-01-01T00:00:00Z"

theorem writable_sampleTombstone (phase : TombstonePhase) {reasonCode : PyStr} (h : Scalar reasonCode) :
    (sampleTombstone phase reasonCode).Writable where
  scalar := by simp [sampleTombstone, h]
  epoch := show 1 ≤ maxSafeInteger by decide
  retained := Nat.zero_le _
  counts := by simp [sampleTombstone]

theorem valid_sampleTombstone (phase : TombstonePhase) : (sampleTombstone phase (py "user")).Valid where
  toWritable := writable_sampleTombstone phase (scalar_py _)
  nonEmpty := by
    simp only [sampleTombstone]
    decide
  reserved := le_rfl
  counted := by simp [sampleTombstone]

theorem fromMapping_sampleTombstone (phase : TombstonePhase) :
    ∃ error, TombstoneEntry.fromMapping (canon (sampleTombstone phase []).toMapping) = .error error := by
  have hblank : Scalar ([] : PyStr) := by simp [Scalar]
  obtain ⟨ms, hms, hclosed, hmember⟩ := canon_record (iJson_tombstone (writable_sampleTombstone phase hblank)) (by simp)
  have hstrings : ∀ texts, canon (strings texts) = strings texts := fun texts => canon_textual (textual_strings texts)
  have hstr : ∀ s, canon (.str s) = .str s := fun s => canon_textual trivial
  simp only [List.mem_cons, List.not_mem_nil, or_false, forall_eq_or_imp, forall_eq, Option.mem_def, Option.some.injEq,
    forall_eq', hstr, hstrings] at hmember
  obtain ⟨m1, m2, m3, m4, -, m6, m7, -⟩ := hmember
  have hphase : py (sampleTombstone phase []).phase.value ≠ [] := by cases phase <;> decide
  have hmembers : ∃ error, tombstoneMembers ms = .error error := by
    unfold tombstoneMembers
    rw [m1, m2, m3, m4, m6, m7]
    simp only [stringMember_of_ne hphase, textsMember_strings]
    exact ⟨_, rfl⟩
  obtain ⟨error, herror⟩ := hmembers
  have hfields : HasKeys tombstoneFields ms := hclosed
  have hentry : (sampleTombstone phase []).toMapping = fields _ := rfl
  rw [hentry, hms]
  unfold TombstoneEntry.fromMapping
  simp only [herror, Except.mapError, refuseIf, bind, Except.bind]
  rw [if_neg (not_not.mpr hfields)]
  exact ⟨_, rfl⟩

end OcorRuntime.Memory

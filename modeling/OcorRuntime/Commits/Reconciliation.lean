import OcorRuntime.Commits.Answers

/-! Reconciliation after a loss. Bindings and outbox entries can be made again from their commits: a call of `reconcile`
restores as many of the lost ones as its limit allows, and what it restores is what was lost. -/
namespace OcorRuntime.Commits
open Canonical Kernel
set_option autoImplicit false
set_option linter.all false

/-! ## Calls of `reconcile` -/

/-- A call with nobody else around, each of its requests answered. -/
def alone {α : Type} (x : Call α) (s : Backend) : Except Failure α × Backend := x.answered (fun s q => serve s q .answered) s

theorem alone_bind {α β : Type} {x : Call α} {f : α → Call β} {s s' : Backend} {a : α} (h : alone x s = (.ok a, s')) :
    alone (x >>= f) s = alone (f a) s' :=
  Session.answered_bind h

theorem alone_request {q : Request} {s s' : Backend} {answer : Answer} (h : serve s q .answered = (s', answer)) :
    alone (Session.request q) s = (.ok answer, s') := by
  rw [alone, Session.request, Session.answered, h]
  rfl

theorem alone_checkFence {adapter : ℕ} {s : Backend} {fence : C3WriterFence} (hfence : s.database.fence = some fence)
    (hepoch : s.epochs adapter = some fence.writerEpoch) :
    alone (checkFence adapter s.database) s = (.ok fence.writerEpoch, s) := by
  have hremembered : alone (rememberedEpoch adapter) s = (.ok fence.writerEpoch, s) := by
    have hserve : serve s (.readEpoch adapter) .answered = (s, .epoch (some fence.writerEpoch)) := by
      rw [serve, hepoch]
    rw [rememberedEpoch, alone_bind (alone_request hserve)]
    rfl
  rw [checkFence, alone_bind hremembered, refuse, if_neg (not_not.mpr (Database.epoch_of_fence hfence))]
  rfl

theorem alone_transact {s : Backend} {conditions : List Condition} {writes : List Write} {db' : Database}
    (h : s.database.transact conditions writes = some db') :
    alone (transact conditions writes) s = (.ok true, { s with database := db' }) := by
  have hhandle : handle s.database (.transact conditions writes) = (db', .applied true) := by
    rw [handle, h]
  have hserve : serve s (.server (.transact conditions writes)) .answered = ({ s with database := db' }, .applied true) := by
    rw [serve, hhandle]
  rw [transact, alone_bind (alone_request hserve)]
  rfl

theorem filter_notMem_take {α : Type} [DecidableEq α] {l : List α} (h : l.Nodup) (n : ℕ) :
    (l.filter fun a => a ∉ l.take n) = l.drop n := by
  have hdisjoint := List.disjoint_take_drop h (Nat.le_refl n)
  have hsplit : (l.take n ++ l.drop n).filter (fun a => a ∉ l.take n) = l.drop n := by
    rw [List.filter_append, List.filter_eq_nil_iff.mpr fun a ha => by simpa using ha, List.nil_append,
      List.filter_eq_self.mpr fun a ha => by simpa using fun h => hdisjoint h ha]
  rwa [List.take_append_drop] at hsplit

/-- One call restores what its limit allows, and leaves the rest to the next ones. -/
theorem alone_reconcile {db : Database} (hc : Consistent db) {s : Backend} (hl : Lost db s.database)
    {fence : C3WriterFence} (hfence : db.fence = some fence) {adapter : ℕ} (hepoch : s.epochs adapter = some fence.writerEpoch)
    {limit : ℤ} (hlimit : 0 < limit) : ∃ restored,
      alone (reconcile adapter limit) s =
        (.ok (s.database.lacking.take limit.toNat).length, { s with database := restored }) ∧
      Lost db restored ∧ restored.lacking = s.database.lacking.drop limit.toNat := by
  have hnodup : s.database.lacking.Nodup := (nodup_derived hc hl).filter _
  have htaken : ∀ d ∈ s.database.lacking.take limit.toNat, d.In db ∧ ¬ d.In s.database := by
    intro d hd
    obtain ⟨hmem, hmissing⟩ := List.mem_filter.mp (List.mem_of_mem_take hd)
    exact ⟨mem_derived hc hl hmem, of_decide_eq_true hmissing⟩
  obtain ⟨restored, hwrites, hrestored, hderived⟩ := insert_lacking hl htaken (hnodup.sublist (List.take_sublist ..))
  have hordered : restored.ordered = s.database.ordered := by
    rw [Database.ordered, Database.ordered, hrestored.commits, hl.commits]
  refine ⟨restored, ?_, hrestored, ?_⟩
  · have hpositive : alone (positiveLimit limit) s = (.ok limit.toNat, s) := by
      rw [positiveLimit, refuse, if_neg (by omega)]
      rfl
    have hsnapshot : alone snapshot s = (.ok s.database, s) := rfl
    have hrepairs : alone (computed (s.database.repairs limit.toNat)) s =
        (.ok ((s.database.lacking.take limit.toNat).map Derived.repair), s) := by
      rw [repairs_eq hc hl]
      rfl
    have hattempt : alone (reconcileAttempt adapter limit.toNat) s =
        (.ok (some (s.database.lacking.take limit.toNat).length), { s with database := restored }) := by
      rw [reconcileAttempt, alone_bind hsnapshot, alone_bind (alone_checkFence (hl.fence.trans hfence) hepoch),
        alone_bind hrepairs]
      by_cases hnone : s.database.lacking.take limit.toNat = []
      · rw [hnone] at hwrites ⊢
        cases hwrites
        rfl
      · have happlied : s.database.transact
            (.writerEpoch fence.writerEpoch :: ((s.database.lacking.take limit.toNat).map Derived.repair).map Prod.fst)
            (((s.database.lacking.take limit.toNat).map Derived.repair).map Prod.snd) = some restored := by
          refine transact_eq_some.2 ⟨fun c hmem => ?_, by rwa [List.map_map]⟩
          rcases List.mem_cons.mp hmem with rfl | hmem
          · exact congrArg (Option.map C3WriterFence.writerEpoch) (hl.fence.trans hfence)
          · rw [List.map_map] at hmem
            obtain ⟨d, hd, rfl⟩ := List.mem_map.mp hmem
            exact (insert_one hl (htaken d hd).1 (htaken d hd).2).1
        rw [if_neg (fun h => hnone (List.map_eq_nil_iff.mp h)), alone_bind (alone_transact happlied), if_pos rfl,
          List.length_map]
        rfl
    rw [reconcile, alone_bind hpositive, maxConditionalAttempts, attempts, alone_bind hattempt]
    rfl
  · rw [← filter_notMem_take hnodup]
    generalize s.database.lacking.take limit.toNat = taken at hderived
    rw [Database.lacking, Database.lacking, hordered, List.filter_filter]
    refine List.filter_congr fun d _ => ?_
    simp [hderived, and_comm]

theorem exists_commit_of_derived {db : Database} (hc : Consistent db) {d : Derived} (h : d.In db) :
    ∃ commit ∈ db.commits.values, d ∈ derivedOf commit := by
  cases d with
  | binding key document =>
    obtain ⟨k, commit, hget, hdocument⟩ := hc.bindings key document h
    refine ⟨commit, (db.commits.mem_values_iff commit).mpr ⟨k, hget⟩, ?_⟩
    simp [derivedOf, hdocument, Except.toOption]
  | entry key document =>
    obtain ⟨k, commit, hget, hdocument⟩ := hc.entries key document h
    refine ⟨commit, (db.commits.mem_values_iff commit).mpr ⟨k, hget⟩, ?_⟩
    simp [derivedOf, hdocument, Except.toOption]

theorem restored_of_lacking {db lost : Database} (hc : Consistent db) (hl : Lost db lost) (hnone : lost.lacking = [])
    (d : Derived) : d.In lost ↔ d.In db := by
  refine ⟨hl.derived d, fun h => ?_⟩
  obtain ⟨commit, hmem, hd⟩ := exists_commit_of_derived hc h
  have hordered : commit ∈ lost.ordered := List.mem_mergeSort.mpr (hl.commits.symm ▸ hmem)
  have hpresent := List.filter_eq_nil_iff.mp hnone d (List.mem_flatMap.mpr ⟨commit, hordered, hd⟩)
  simpa using hpresent

/-- The store after so many calls of one adapter, one after the other. -/
def reconcileTimes (adapter : ℕ) (limit : ℤ) : ℕ → Backend → Backend
  | 0, s => s
  | n + 1, s => (alone (reconcile adapter limit) (reconcileTimes adapter limit n s)).2

/-- A writer acquires an epoch. -/
def acquisition : List (Turn AdapterCall Fate) :=
  [.start (.acquireWriter 0 (py "writer")), .answer 0 .answered, .answer 0 .answered, .answer 0 .answered]

end OcorRuntime.Commits

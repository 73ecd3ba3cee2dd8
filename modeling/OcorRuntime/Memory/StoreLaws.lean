import OcorRuntime.Memory.Stores

/-! Laws of the version stores: when an append, a stage or a commit goes through and what
it changes, and what a ledger built by appends alone looks like: the versions of an item
are numbered without a gap, and slots and keys are unique. -/
namespace OcorRuntime.Memory
open Kernel
set_option autoImplicit false
set_option maxHeartbeats 250000

theorem nodup_eraseDups {α : Type} [BEq α] [LawfulBEq α] (items : List α) : items.eraseDups.Nodup := by
  induction hn : items.length using Nat.strong_induction_on generalizing items with
  | _ n ih =>
    cases items with
    | nil => simp
    | cons item rest =>
      rw [List.eraseDups_cons, List.nodup_cons]
      refine ⟨?_, ih _ ?_ _ rfl⟩
      · rw [List.mem_eraseDups]
        simp
      · rw [← hn, List.length_cons]
        exact Nat.lt_succ_of_le (List.length_filter_le _ _)

/-! ## The ledger -/

namespace VersionLedger
variable {ledger : VersionLedger} {record : AdmittedMemoryVersion} {memoryItemId : PyStr} {version : ℕ}

theorem append_eq_ok {extended : VersionLedger} :
    ledger.append record = .ok extended ↔ record.verify = .ok () ∧
      ledger.get record.item.memoryItemId record.item.memoryVersion = none ∧
      record.item.memoryVersion = ledger.latestVersion record.item.memoryItemId + 1 ∧
      ledger.byIdempotencyKey record.idempotencyKey = none ∧ extended = ledger ++ [record] := by
  unfold append occupancyConflict
  simp only [bind_eq_ok, refuseIf_eq_ok, pure, Except.pure, Except.ok.injEq, not_or, Bool.not_eq_true,
    Option.isSome_eq_false_iff, Option.isNone_iff_eq_none, ne_eq, not_not]
  constructor
  · rintro ⟨_, hverify, _, ⟨_, ⟨hslot, -⟩, _, hnext, hkey⟩, rfl⟩
    exact ⟨hverify, hslot, hnext, hkey, rfl⟩
  · rintro ⟨hverify, hslot, hnext, hkey, rfl⟩
    refine ⟨(), hverify, (), ⟨(), ⟨hslot, ?_⟩, (), hnext, hkey⟩, rfl⟩
    omega

theorem get_eq_some (h : ledger.get memoryItemId version = some record) :
    record ∈ ledger ∧ record.InSlot memoryItemId version :=
  ⟨List.mem_of_find?_eq_some h, by simpa using List.find?_some h⟩

theorem byKey_eq_some {key : IdempotencyKey} (h : ledger.byIdempotencyKey key = some record) :
    record ∈ ledger ∧ record.idempotencyKey = key :=
  ⟨List.mem_of_find?_eq_some h, by simpa using List.find?_some h⟩

theorem latestVersion_append (ledger : VersionLedger) (record : AdmittedMemoryVersion) (memoryItemId : PyStr) :
    latestVersion (ledger ++ [record]) memoryItemId =
      if record.item.memoryItemId = memoryItemId then record.item.memoryVersion else ledger.latestVersion memoryItemId := by
  unfold latestVersion
  rw [List.filter_append]
  by_cases h : record.item.memoryItemId = memoryItemId
  · simp [h]
  · simp [h]

theorem get_append (ledger : VersionLedger) (record : AdmittedMemoryVersion) (memoryItemId : PyStr) (version : ℕ) :
    get (ledger ++ [record]) memoryItemId version =
      (ledger.get memoryItemId version).or (if record.InSlot memoryItemId version then some record else none) := by
  unfold get
  rw [List.find?_append]
  by_cases h : record.InSlot memoryItemId version
  · simp [h]
  · simp [h]

/-- A ledger built by appends. -/
inductive Ordered : VersionLedger → Prop
  | nil : Ordered []
  | snoc {ledger : VersionLedger} {record : AdmittedMemoryVersion} (before : Ordered ledger)
      (next : record.item.memoryVersion = ledger.latestVersion record.item.memoryItemId + 1)
      (fresh : ledger.byIdempotencyKey record.idempotencyKey = none) (verified : record.verify = .ok ()) :
      Ordered (ledger ++ [record])

namespace Ordered

theorem version_bounds (ordered : Ordered ledger) (hmem : record ∈ ledger) :
    1 ≤ record.item.memoryVersion ∧ record.item.memoryVersion ≤ ledger.latestVersion record.item.memoryItemId := by
  induction ordered with
  | nil => cases hmem
  | @snoc earlier last before next fresh verified ih =>
    rw [latestVersion_append]
    rcases List.mem_append.mp hmem with hold | hnew
    · have hbounds := ih hold
      split_ifs with hitem
      · rw [hitem] at next
        omega
      · exact hbounds
    · rw [List.mem_singleton.mp hnew, if_pos rfl]
      omega

theorem get_of_mem (ordered : Ordered ledger) (hmem : record ∈ ledger) :
    ledger.get record.item.memoryItemId record.item.memoryVersion = some record := by
  induction ordered with
  | nil => cases hmem
  | @snoc earlier last before next fresh verified ih =>
    rw [get_append]
    rcases List.mem_append.mp hmem with hold | hnew
    · rw [ih hold, Option.some_or]
    · rw [List.mem_singleton.mp hnew]
      have hnone : earlier.get last.item.memoryItemId last.item.memoryVersion = none := by
        cases hget : earlier.get last.item.memoryItemId last.item.memoryVersion with
        | none => rfl
        | some other =>
          obtain ⟨hin, hitem, hversion⟩ := get_eq_some hget
          have hbounds := (before.version_bounds hin).2
          rw [hitem, hversion] at hbounds
          omega
      rw [hnone, Option.none_or, if_pos ⟨rfl, rfl⟩]

theorem eq_of_slot (ordered : Ordered ledger) {other : AdmittedMemoryVersion} (hmem : record ∈ ledger)
    (hother : other ∈ ledger) (hitem : record.item.memoryItemId = other.item.memoryItemId)
    (hversion : record.item.memoryVersion = other.item.memoryVersion) : record = other := by
  have hrecord := ordered.get_of_mem hmem
  rw [hitem, hversion, ordered.get_of_mem hother] at hrecord
  exact (Option.some.inj hrecord).symm

theorem exists_get (ordered : Ordered ledger) (hpos : 1 ≤ version) (hle : version ≤ ledger.latestVersion memoryItemId) :
    ∃ found, ledger.get memoryItemId version = some found := by
  induction ordered with
  | nil =>
    have hzero : latestVersion [] memoryItemId = 0 := rfl
    omega
  | @snoc earlier last before next fresh verified ih =>
    rw [latestVersion_append] at hle
    rw [get_append]
    by_cases hold : version ≤ earlier.latestVersion memoryItemId
    · obtain ⟨found, hfound⟩ := ih hold
      exact ⟨found, by rw [hfound, Option.some_or]⟩
    · split_ifs at hle with hitem
      · subst hitem
        have hversion : last.item.memoryVersion = version := by omega
        rw [if_pos ⟨rfl, hversion⟩]
        cases earlier.get last.item.memoryItemId version with
        | none => exact ⟨last, rfl⟩
        | some other => exact ⟨other, rfl⟩
      · omega

end Ordered
end VersionLedger

/-! ## Metadata -/

namespace MetadataStore
variable {m m' : MetadataStore} {memoryItemId : PyStr} {version : ℕ}

theorem stage_eq_ok {staged : StagedVersion} {stored : StoredVersion} :
    m.stage staged = .ok (stored, m') ↔
      (m.get staged.memoryItemId staged.memoryVersion = some stored ∧
        stored.staged.stageDigest = staged.stageDigest ∧ m' = m) ∨
      (m.get staged.memoryItemId staged.memoryVersion = none ∧ stored = ⟨staged, .pending, none⟩ ∧
        m' = { m with rows := m.rows.set (staged.memoryItemId, staged.memoryVersion) stored }) := by
  unfold stage
  cases hget : m.get staged.memoryItemId staged.memoryVersion with
  | none =>
    simp only [Except.ok.injEq, Prod.mk.injEq]
    constructor
    · rintro ⟨rfl, rfl⟩
      exact .inr ⟨trivial, rfl, rfl⟩
    · rintro (⟨h, -, -⟩ | ⟨-, rfl, rfl⟩)
      · cases h
      · exact ⟨rfl, rfl⟩
  | some existing =>
    simp only
    split_ifs with hdigest
    · simp only [Except.ok.injEq, Prod.mk.injEq]
      constructor
      · rintro ⟨rfl, rfl⟩
        exact .inl ⟨rfl, hdigest, rfl⟩
      · rintro (⟨h, -, rfl⟩ | ⟨h, -, -⟩)
        · exact ⟨Option.some.inj h, rfl⟩
        · cases h
    · constructor
      · rintro ⟨⟩
      · rintro (⟨h, hstored, -⟩ | ⟨h, -, -⟩)
        · exact absurd (Option.some.inj h ▸ hstored) hdigest
        · cases h

/-- A commit that goes through finds the version committed, or commits it after its predecessor. -/
theorem commit_eq_ok {stageDigest : PyStr} {committedAt : Instant} {stored : StoredVersion} :
    m.commit memoryItemId version stageDigest committedAt = .ok (stored, m') ↔
      ∃ found, m.get memoryItemId version = some found ∧ found.staged.stageDigest = stageDigest ∧
        ((found.state = .committed ∧ stored = found ∧ m' = m) ∨
          (found.state = .pending ∧ m.head memoryItemId + 1 = version ∧
            stored = ⟨found.staged, .committed, some committedAt⟩ ∧
            m' = ⟨m.rows.set (memoryItemId, version) stored, m.heads.set memoryItemId version⟩)) := by
  unfold commit
  simp only [bind_eq_ok, orRaise_eq_ok, refuseIf_eq_ok, ne_eq, not_not]
  constructor
  · rintro ⟨found, hfound, _, hdigest, h⟩
    refine ⟨found, hfound, hdigest, ?_⟩
    split_ifs at h with hstate
    · cases h
      exact .inl ⟨hstate, rfl, rfl⟩
    · obtain ⟨_, hhead, heq⟩ := bind_eq_ok.1 h
      rw [refuseIf_eq_ok, not_not] at hhead
      cases heq
      have hpending : found.state = .pending := by
        cases hs : found.state with
        | pending => rfl
        | committed => exact absurd hs hstate
      exact .inr ⟨hpending, hhead, rfl, rfl⟩
  · rintro ⟨found, hfound, hdigest, ⟨hstate, rfl, rfl⟩ | ⟨hstate, hhead, rfl, rfl⟩⟩
    · refine ⟨stored, hfound, (), hdigest, ?_⟩
      rw [if_pos hstate]
      rfl
    · refine ⟨found, hfound, (), hdigest, ?_⟩
      rw [if_neg (by rw [hstate]; decide)]
      refine bind_eq_ok.2 ⟨(), ?_, rfl⟩
      rw [refuseIf_eq_ok, not_not]
      exact hhead

end MetadataStore

/-! ## Tombstones -/

end OcorRuntime.Memory

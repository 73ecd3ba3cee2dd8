import Mathlib.Data.List.DropRight
import OcorRuntime.Canonical.NumberReading
import OcorRuntime.Memory.Item

/-! References to memory versions (`memory/model.py`): the item identifier and the version
number in one text, and the expression that takes them apart. A reference determines both;
it is taken apart unless the identifier breaks a line. -/
namespace OcorRuntime.Memory
open Canonical StandardJson
set_option autoImplicit false
set_option maxHeartbeats 250000

def lineFeedChar : CodePoint := codePoint 0x0A

def versionRefPrefix : PyStr := py "urn:ocor:memory:"

def versionMark : PyStr := py ":v"

/-- The groups of `VERSION_REF.fullmatch(ref)`. The digits at the end are the version, as no other place is followed
by digits alone; `.` matches anything but a line feed. -/
def versionRefGroups (ref : PyStr) : Option (PyStr × PyStr) :=
  let rest := ref.drop versionRefPrefix.length
  let version := rest.rtakeWhile fun c => decide (IsDigit c)
  let stem := rest.rdropWhile fun c => decide (IsDigit c)
  let item := stem.take (stem.length - versionMark.length)
  if versionRefPrefix.isPrefixOf ref ∧ versionMark.isSuffixOf stem ∧ (item ≠ [] ∧ lineFeedChar ∉ item) ∧
      (version ≠ [] ∧ version.head? ≠ some (digitChar 0)) then some (item, version)
  else none

/-- `memory_version_ref`; a number of more than 4300 digits is not written. -/
def formatVersionRef (memoryItemId : PyStr) (memoryVersion : ℕ) : Except PyError PyStr := do
  let version ← dumpInteger memoryVersion
  return versionRefPrefix ++ (memoryItemId ++ (versionMark ++ version))

/-- `parse_memory_version_ref`. -/
def parseMemoryVersionRef (ref : PyStr) : Except PyError (PyStr × ℕ) := do
  let (item, version) ← orRaise (versionRefGroups ref)
    (schemaError "VERSION_REF_INVALID" "lineage reference is not a memory version ref")
  refuseIf (maxStrDigits < version.length)
    (⟨.valueError, "Exceeds the limit (4300 digits) for integer string conversion", []⟩ : PyError)
  return (item, digitsValue version)

/-! ## What is matched -/

/-- The groups of a text the expression matches. -/
structure VersionRefMatch (ref item version : PyStr) : Prop where
  ref_eq : ref = versionRefPrefix ++ (item ++ (versionMark ++ version))
  item_ne_nil : item ≠ []
  one_line : lineFeedChar ∉ item
  digits : Digits version
  version_ne_nil : version ≠ []
  head : version.head? ≠ some (digitChar 0)

theorem rtakeWhile_digits (stem : PyStr) {version : PyStr} {c : CodePoint} (hc : ¬ IsDigit c) (hdigits : Digits version) :
    ((stem ++ [c]) ++ version).rtakeWhile (fun c => decide (IsDigit c)) = version ∧
      ((stem ++ [c]) ++ version).rdropWhile (fun c => decide (IsDigit c)) = stem ++ [c] := by
  induction version using List.reverseRecOn with
  | nil =>
    rw [List.append_nil, List.rtakeWhile_concat_neg _ _ _ (by simpa using hc),
      List.rdropWhile_concat_neg _ _ _ (by simpa using hc)]
    exact ⟨rfl, rfl⟩
  | append_singleton version d ih =>
    have hd : IsDigit d := hdigits d (List.mem_append_right version (List.mem_singleton_self d))
    obtain ⟨htake, hdrop⟩ := ih fun e he => hdigits e (List.mem_append_left _ he)
    rw [← List.append_assoc, List.rtakeWhile_concat_pos _ _ _ (by simpa using hd),
      List.rdropWhile_concat_pos _ _ _ (by simpa using hd), htake, hdrop]
    exact ⟨rfl, rfl⟩

theorem versionRefGroups_eq_some {ref item version : PyStr} :
    versionRefGroups ref = some (item, version) ↔ VersionRefMatch ref item version := by
  have hmark : versionMark = [codePoint 0x3A] ++ [codePoint 0x76] := rfl
  constructor
  · intro h
    unfold versionRefGroups at h
    dsimp only at h
    split_ifs at h with hmatch
    obtain ⟨hstart, hsuffix, ⟨hne, hline⟩, hversion, hhead⟩ := hmatch
    obtain ⟨rfl, rfl⟩ := Prod.mk.inj (Option.some.inj h)
    obtain ⟨rest, rfl⟩ := List.isPrefixOf_iff_prefix.mp hstart
    rw [List.drop_left] at hsuffix hne hline hversion hhead ⊢
    obtain ⟨item, hitem⟩ := List.isSuffixOf_iff_suffix.mp hsuffix
    have htake : (rest.rdropWhile fun c => decide (IsDigit c)).take
        ((rest.rdropWhile fun c => decide (IsDigit c)).length - versionMark.length) = item := by
      rw [← hitem, List.length_append, Nat.add_sub_cancel, List.take_left]
    rw [htake] at hne hline ⊢
    refine ⟨?_, hne, hline, fun c hc => ?_, hversion, hhead⟩
    · have hsplit : (rest.rdropWhile fun c => decide (IsDigit c)) ++ (rest.rtakeWhile fun c => decide (IsDigit c)) = rest :=
        List.rdropWhile_append_rtakeWhile
      rw [← List.append_assoc item, hitem, hsplit]
    · have hdigit := List.mem_rtakeWhile_imp hc
      exact of_decide_eq_true hdigit
  · rintro ⟨rfl, hne, hline, hdigits, hversion, hhead⟩
    have hlast : item ++ (versionMark ++ version) = ((item ++ [codePoint 0x3A]) ++ [codePoint 0x76]) ++ version := by
      rw [hmark]
      simp only [List.append_assoc]
    have hletter : ¬ IsDigit (codePoint 0x76) := by decide
    obtain ⟨htake, hdrop⟩ := rtakeWhile_digits (item ++ [codePoint 0x3A]) hletter hdigits
    have hstem : (item ++ [codePoint 0x3A]) ++ [codePoint 0x76] = item ++ versionMark := by
      rw [hmark, List.append_assoc]
    unfold versionRefGroups
    dsimp only
    rw [List.drop_left, hlast, htake, hdrop, hstem, List.length_append, Nat.add_sub_cancel, List.take_left]
    rw [if_pos]
    refine ⟨List.isPrefixOf_iff_prefix.mpr (List.prefix_append _ _), ?_, ⟨hne, hline⟩, hversion, hhead⟩
    exact List.isSuffixOf_iff_suffix.mpr (List.suffix_append _ _)

/-! ## What is written -/

theorem memoryVersionRef_eq (memoryItemId : PyStr) (memoryVersion : ℕ) : memoryVersionRef memoryItemId memoryVersion =
    versionRefPrefix ++ (memoryItemId ++ (versionMark ++ natText memoryVersion)) := by
  unfold memoryVersionRef versionRefPrefix versionMark
  simp only [List.append_assoc]

theorem formatVersionRef_eq_ok {memoryItemId ref : PyStr} {memoryVersion : ℕ} :
    formatVersionRef memoryItemId memoryVersion = .ok ref ↔
      memoryVersion < 10 ^ maxStrDigits ∧ ref = memoryVersionRef memoryItemId memoryVersion := by
  have htext : intText (memoryVersion : ℤ) = natText memoryVersion := by
    rw [intText, if_neg (by omega), Int.natAbs_natCast]
  unfold formatVersionRef dumpInteger
  rw [Int.natAbs_natCast, htext, memoryVersionRef_eq]
  by_cases hlong : 10 ^ maxStrDigits ≤ memoryVersion
  · rw [refuseIf, if_pos hlong]
    constructor
    · intro h
      cases h
    · intro h
      exact absurd h.1 (by omega)
  · rw [refuseIf, if_neg hlong]
    constructor
    · intro h
      cases h
      exact ⟨by omega, rfl⟩
    · rintro ⟨-, rfl⟩
      rfl

theorem head_natText {n : ℕ} (hn : 1 ≤ n) : (natText n).head? ≠ some (digitChar 0) := by
  intro h
  obtain ⟨rest, hrest⟩ := List.head?_eq_some_iff.mp h
  have hvalue := digitsValue_natText n
  rw [hrest, natText_head hrest] at hvalue
  have hzero : digitsValue [digitChar 0] = 0 := rfl
  omega

theorem memoryVersionRef_matches {memoryItemId : PyStr} {memoryVersion : ℕ} (hid : memoryItemId ≠ [])
    (hline : lineFeedChar ∉ memoryItemId) (hversion : 1 ≤ memoryVersion) :
    VersionRefMatch (memoryVersionRef memoryItemId memoryVersion) memoryItemId (natText memoryVersion) where
  ref_eq := memoryVersionRef_eq memoryItemId memoryVersion
  item_ne_nil := hid
  one_line := hline
  digits := digits_natText memoryVersion
  version_ne_nil := natText_ne_nil memoryVersion
  head := head_natText hversion

theorem memoryVersionRef_injective {a b : PyStr} {m n : ℕ} (h : memoryVersionRef a m = memoryVersionRef b n) :
    a = b ∧ m = n := by
  have hmark : codePoint 0x76 ∉ natText m ∧ codePoint 0x76 ∉ natText n :=
    ⟨fun hm => absurd (natText_digits m _ hm) (by decide), fun hn => absurd (natText_digits n _ hn) (by decide)⟩
  rw [memoryVersionRef_eq, memoryVersionRef_eq] at h
  have hrest := List.append_cancel_left h
  have hsplit (item : PyStr) (k : ℕ) : item ++ (versionMark ++ natText k) =
      (item ++ [codePoint 0x3A]) ++ codePoint 0x76 :: natText k := by
    rw [List.append_assoc]
    rfl
  rw [hsplit, hsplit] at hrest
  -- the last letter of the reference is the one in front of the digits
  obtain ⟨hitem, hdigits⟩ := append_cons_inj_right hmark.1 hmark.2 hrest
  refine ⟨List.append_cancel_right hitem, ?_⟩
  have hvalue := congrArg digitsValue hdigits
  rwa [digitsValue_natText, digitsValue_natText] at hvalue

/-! ## What is read back -/

theorem VersionRefMatch.written {ref item version : PyStr} (h : VersionRefMatch ref item version) :
    ref = memoryVersionRef item (digitsValue version) := by
  have hwhole : Whole version := ⟨h.digits, h.version_ne_nil, fun t ht => absurd (by rw [ht]; rfl) h.head⟩
  rw [memoryVersionRef_eq, natText_digitsValue hwhole]
  exact h.ref_eq

/-- A reference that is taken apart is the one written for what it is taken apart into. -/
theorem parseMemoryVersionRef_eq_ok {ref item : PyStr} {memoryVersion : ℕ}
    (h : parseMemoryVersionRef ref = .ok (item, memoryVersion)) :
    ref = memoryVersionRef item memoryVersion ∧ lineFeedChar ∉ item := by
  obtain ⟨⟨item', version⟩, hgroups, hrest⟩ := bind_eq_ok.1 h
  obtain ⟨-, -, hret⟩ := bind_eq_ok.1 hrest
  cases hret
  have hmatch := versionRefGroups_eq_some.1 (orRaise_eq_ok.1 hgroups)
  exact ⟨hmatch.written, hmatch.one_line⟩

theorem parse_memoryVersionRef {memoryItemId : PyStr} {memoryVersion : ℕ} (hid : memoryItemId ≠ [])
    (hversion : 1 ≤ memoryVersion) (hlen : memoryVersion < 10 ^ maxStrDigits) :
    parseMemoryVersionRef (memoryVersionRef memoryItemId memoryVersion) = .ok (memoryItemId, memoryVersion) ↔
      lineFeedChar ∉ memoryItemId := by
  constructor
  · intro h
    exact (parseMemoryVersionRef_eq_ok h).2
  · intro hline
    have hgroups := versionRefGroups_eq_some.2 (memoryVersionRef_matches hid hline hversion)
    have hshort := natText_length hlen
    unfold parseMemoryVersionRef
    refine bind_eq_ok.2 ⟨(memoryItemId, natText memoryVersion), by rw [hgroups]; rfl, ?_⟩
    refine bind_eq_ok.2 ⟨(), if_neg (Nat.not_lt.mpr hshort), ?_⟩
    rw [digitsValue_natText]
    rfl

/-- **A version reference is read back as the item and the version it was written for exactly when the identifier
breaks no line and the number is written at all. Two references are the same only for one version of one item, and
none is read as another version.** -/
theorem version_refs_decoded (memoryItemId : PyStr) (memoryVersion : ℕ) :
    (memoryItemId ≠ [] → 1 ≤ memoryVersion →
      ((∃ ref, formatVersionRef memoryItemId memoryVersion = .ok ref ∧
          parseMemoryVersionRef ref = .ok (memoryItemId, memoryVersion)) ↔
        lineFeedChar ∉ memoryItemId ∧ memoryVersion < 10 ^ maxStrDigits)) ∧
    (∀ b n ref, formatVersionRef memoryItemId memoryVersion = .ok ref → formatVersionRef b n = .ok ref →
      memoryItemId = b ∧ memoryVersion = n) ∧
    ∀ b n ref, formatVersionRef memoryItemId memoryVersion = .ok ref → parseMemoryVersionRef ref = .ok (b, n) →
      memoryItemId = b ∧ memoryVersion = n := by
  refine ⟨?_, ?_, ?_⟩
  · intro hid hversion
    constructor
    · rintro ⟨ref, hformat, hparse⟩
      obtain ⟨hlen, rfl⟩ := formatVersionRef_eq_ok.1 hformat
      exact ⟨(parse_memoryVersionRef hid hversion hlen).mp hparse, hlen⟩
    · rintro ⟨hline, hlen⟩
      exact ⟨_, formatVersionRef_eq_ok.2 ⟨hlen, rfl⟩, (parse_memoryVersionRef hid hversion hlen).mpr hline⟩
  · intro b n ref ha hb
    exact memoryVersionRef_injective ((formatVersionRef_eq_ok.1 ha).2.symm.trans (formatVersionRef_eq_ok.1 hb).2)
  · intro b n ref ha hb
    exact memoryVersionRef_injective ((formatVersionRef_eq_ok.1 ha).2.symm.trans (parseMemoryVersionRef_eq_ok hb).1)

/-- An identifier that looks like a reference itself. -/
theorem version_refs_decoded_mark : ∃ ref, formatVersionRef (py "a:v2") 3 = .ok ref ∧
    parseMemoryVersionRef ref = .ok (py "a:v2", 3) := by
  refine ((version_refs_decoded (py "a:v2") 3).1 (by decide) (by decide)).mpr ⟨by decide, ?_⟩
  exact lt_of_lt_of_le (by decide : 3 < 10 ^ 1) (Nat.pow_le_pow_right (by decide) (by decide))

/-- The reference of an item whose identifier breaks a line is refused. -/
theorem version_refs_refuse_lines : ¬ ∀ memoryItemId memoryVersion, memoryItemId ≠ [] → 1 ≤ memoryVersion →
    ∃ ref, formatVersionRef memoryItemId memoryVersion = .ok ref ∧
      parseMemoryVersionRef ref = .ok (memoryItemId, memoryVersion) := by
  intro h
  obtain ⟨ref, hformat, hparse⟩ := h [lineFeedChar] 1 (by decide) (by decide)
  obtain ⟨-, rfl⟩ := formatVersionRef_eq_ok.1 hformat
  exact (parseMemoryVersionRef_eq_ok hparse).2 (List.mem_singleton_self lineFeedChar)

end OcorRuntime.Memory

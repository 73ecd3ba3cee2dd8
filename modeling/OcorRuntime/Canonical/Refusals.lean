import OcorRuntime.Canonical.Serialize
import OcorRuntime.Foundations.Raising

/-! Canonicalization raises nothing but `CanonicalizationError`, whatever value it is given. -/
namespace OcorRuntime.Canonical
set_option autoImplicit false
set_option maxHeartbeats 250000

def IsCanonicalizationError (e : PyError) : Prop := e.cls = .canonicalizationError

instance : DecidablePred IsCanonicalizationError := fun _ => inferInstanceAs (Decidable (_ = _))

theorem raises_validateScalarString (s : PyStr) : OnlyRaises IsCanonicalizationError (validateScalarString s) := by
  unfold validateScalarString
  split_ifs
  · exact onlyRaises_ok ()
  · exact onlyRaises_error.2 rfl

theorem raises_serializeString (s : PyStr) : OnlyRaises IsCanonicalizationError (serializeString s) :=
  onlyRaises_check.2 ⟨raises_validateScalarString s, fun _ => onlyRaises_ok _⟩

theorem raises_serializeFloat (x : Binary64) : OnlyRaises IsCanonicalizationError (serializeFloat x) := by
  unfold serializeFloat
  split
  · split_ifs <;> exact onlyRaises_ok _
  · exact onlyRaises_error.2 rfl

theorem raises_serializeInteger (n : ℤ) : OnlyRaises IsCanonicalizationError (serializeInteger n) := by
  unfold serializeInteger
  split_ifs
  · exact onlyRaises_ok _
  · split
    · split_ifs
      · exact raises_serializeFloat _
      · exact onlyRaises_error.2 rfl
    · exact onlyRaises_error.2 rfl

theorem raises_serializeItems {items : List PyValue}
    (ih : ∀ item ∈ items, OnlyRaises IsCanonicalizationError (serialize item)) :
    OnlyRaises IsCanonicalizationError (serializeItems items) := by
  induction items with
  | nil => exact onlyRaises_ok []
  | cons item items ihItems =>
    rw [serializeItems]
    refine onlyRaises_bind.2 ⟨ih item List.mem_cons_self, fun part _ => onlyRaises_bind.2 ⟨?_, fun _ _ => onlyRaises_ok _⟩⟩
    exact ihItems fun other hother => ih other (List.mem_cons_of_mem item hother)

theorem raises_serializeEntries {entries : List (MappingKey × PyValue)}
    (ih : ∀ entry ∈ entries, OnlyRaises IsCanonicalizationError (serialize entry.2)) :
    ∀ entry ∈ serializeEntries entries, OnlyRaises IsCanonicalizationError entry.2 := by
  induction entries with
  | nil => exact fun entry hentry => nomatch hentry
  | cons entry entries ihEntries =>
    have hrest := ihEntries fun other hother => ih other (List.mem_cons_of_mem entry hother)
    obtain ⟨key, value⟩ := entry
    cases key with
    | str key =>
      rw [serializeEntries]
      intro other hother
      rcases List.mem_cons.mp hother with rfl | hother
      · exact ih (.str key, value) List.mem_cons_self
      · exact hrest other hother
    | other index =>
      rw [serializeEntries]
      exact hrest

theorem raises_serialize (v : PyValue) : OnlyRaises IsCanonicalizationError (serialize v) := by
  induction v using PyValue.induct_on with
  | none => exact onlyRaises_ok _
  | bool b => cases b <;> exact onlyRaises_ok _
  | int n => exact raises_serializeInteger n
  | float x => exact raises_serializeFloat x
  | str s => exact raises_serializeString s
  | other typeName =>
    rw [serialize]
    exact onlyRaises_error.2 rfl
  | list items ih | tuple items ih =>
    rw [serialize]
    exact onlyRaises_bind.2 ⟨raises_serializeItems ih, fun _ _ => onlyRaises_ok _⟩
  | mapping entries ih =>
    rw [serialize]
    split_ifs
    · refine onlyRaises_bind.2 ⟨onlyRaises_mapM fun entry _ => ?_, fun _ _ => onlyRaises_bind.2
        ⟨onlyRaises_mapM fun entry hentry => ?_, fun _ _ => onlyRaises_ok _⟩⟩
      · exact onlyRaises_check.2 ⟨raises_validateScalarString _, fun _ => onlyRaises_ok _⟩
      · refine onlyRaises_bind.2 ⟨raises_serializeString _, fun _ _ => onlyRaises_bind.2 ⟨?_, fun _ _ => onlyRaises_ok _⟩⟩
        exact raises_serializeEntries ih entry ((List.mem_insertionSort _).mp hentry)
    · exact onlyRaises_error.2 rfl

theorem raises_canonicalize (v : PyValue) : OnlyRaises IsCanonicalizationError (canonicalize v) :=
  onlyRaises_bind.2 ⟨raises_serialize v, fun _ _ => onlyRaises_ok _⟩

end OcorRuntime.Canonical

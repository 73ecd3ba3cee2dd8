import OcorRuntime.Scenario.Backdoor

/-! The sensitivity report: a shift of the control outcomes moves the effect by as much, and
the report says whether it stays positive, not whether it keeps its sign. -/
namespace OcorRuntime.Scenario
open Strata Finset
set_option autoImplicit false
set_option maxHeartbeats 250000

variable {builtins : Builtins} {query : CausalQuery} {model intervention : Record} {rows : List Record}
  {units : List (Observation PyStr)}

theorem shiftedEffect_collected (h : Identifies builtins query model intervention rows units) (shift : ℚ) :
    shiftedEffect (units.foldl addUnit .empty) shift = stratumAverage units - shift := by
  have hm : (#(Strata.keys units) : ℚ) ≠ 0 := Nat.cast_ne_zero.mpr (card_keys_pos h.units_ne_nil).ne'
  have hstratum : ∀ z ∈ Strata.keys units,
      mean (arm units z true) - mean ((arm units z false).map fun value => value + shift) = difference units z - shift := by
    intro z hz
    rw [mean_shift (h.positive z hz).1, difference]
    ring
  rw [shiftedEffect, mean_collected units (g := fun z => difference units z - shift) hstratum, Finset.sum_sub_distrib,
    Finset.sum_const, nsmul_eq_mul, sub_div, mul_div_cancel_left₀ _ hm, stratumAverage]

/-- What is reported as `sign_flipped` of the observations and a shift. -/
def signFlipped (units : List (Observation PyStr)) (shift : ℚ) : Bool :=
  decide (0 < stratumAverage units) != decide (0 < stratumAverage units - shift)

/-- Both negative, both zero or both positive. -/
def SameSign (a b : ℚ) : Prop := (a < 0 ∧ b < 0) ∨ (a = 0 ∧ b = 0) ∨ (0 < a ∧ 0 < b)

instance (a b : ℚ) : Decidable (SameSign a b) := inferInstanceAs (Decidable (_ ∨ _))

theorem Identifies.estimateSensitivity (h : Identifies builtins query model intervention rows units) (shift : ℚ) :
    estimateSensitivity builtins query model intervention rows shift =
      .ok (identified query "ADDITIVE_CONFOUNDING_SHIFT_SENSITIVITY" (stratumAverage units)
        [("confounding_shift", .decimal shift), ("shifted_effect", .decimal (stratumAverage units - shift)),
          ("sign_flipped", .text (boolText (signFlipped units shift)))]) := by
  rw [Scenario.estimateSensitivity, h.stratify]
  show Except.ok (identified query _ _ [_, ("shifted_effect", .decimal (shiftedEffect _ shift)),
    ("sign_flipped", .text (boolText (_ != decide (0 < shiftedEffect _ shift))))]) = _
  rw [shiftedEffect_collected h]
  rfl

/-- A report without a flip means one sign, unless one effect is zero and the other negative. -/
theorem unflipped_iff (a b : ℚ) : (((decide (0 < a) != decide (0 < b)) = false) ↔ SameSign a b) ↔
    ¬ ((a = 0 ∧ b < 0) ∨ (a < 0 ∧ b = 0)) := by
  unfold SameSign
  rcases lt_trichotomy a 0 with ha | rfl | ha <;> rcases lt_trichotomy b 0 with hb | rfl | hb <;>
    simp [*, ne_of_lt, ne_of_gt, not_lt_of_gt]

/-- Turning both signs keeps whether the effect stays positive, unless just one of the two is zero. -/
theorem flipped_neg_iff (a b : ℚ) : (decide (0 < -a) != decide (0 < -b)) = (decide (0 < a) != decide (0 < b)) ↔
    (a = 0 ↔ b = 0) := by
  simp only [Left.neg_pos_iff]
  rcases lt_trichotomy a 0 with ha | rfl | ha <;> rcases lt_trichotomy b 0 with hb | rfl | hb <;>
    simp [*, ne_of_lt, ne_of_gt, not_lt_of_gt]

theorem signFlipped_negated (units : List (Observation PyStr)) (shift : ℚ) : signFlipped (negated units) (-shift) =
    (decide (0 < -stratumAverage units) != decide (0 < -(stratumAverage units - shift))) := by
  rw [signFlipped, stratumAverage_negated, sub_neg_eq_add, neg_sub, neg_add_eq_sub]

/-- The estimate has these figures. -/
def Reports (estimate : Except PyError Estimate) (shift effect shifted : ℚ) (flipped : Bool) : Prop :=
  ∃ e, estimate = .ok e ∧ e.effect = some effect ∧
    e.details = [("confounding_shift", .decimal shift), ("shifted_effect", .decimal shifted),
      ("sign_flipped", .text (boolText flipped))]

theorem Identifies.reports (h : Identifies builtins query model intervention rows units) (shift : ℚ) :
    Reports (Scenario.estimateSensitivity builtins query model intervention rows shift) shift (stratumAverage units)
      (stratumAverage units - shift) (signFlipped units shift) :=
  ⟨_, h.estimateSensitivity shift, rfl, rfl⟩

/-- **The shifted effect is the effect less the shift, and the flip is read off their signs in the same way for negated
outcomes exactly if the effect is zero just when the shift equals it.** -/
theorem sensitivity_reported : ∀ (builtins : Builtins) (query : CausalQuery) (model intervention : Record)
    (rows : List Record) (units : List (Observation PyStr)), Identifies builtins query model intervention rows units →
      ∀ shift : ℚ, ∃ effect, ∃ flipped negatedFlipped : Bool,
        Reports (estimateSensitivity builtins query model intervention rows shift) shift effect (effect - shift) flipped ∧
        (∀ (query' : CausalQuery) (model' intervention' : Record) (rows' : List Record),
          Identifies builtins query' model' intervention' rows' (negated units) →
            Reports (estimateSensitivity builtins query' model' intervention' rows' (-shift)) (-shift) (-effect)
              (-effect - -shift) negatedFlipped) ∧
        (((flipped = false ↔ SameSign effect (effect - shift)) ∧ negatedFlipped = flipped) ↔
          (stratumAverage units = 0 ↔ shift = stratumAverage units)) := by
  intro builtins query model intervention rows units h shift
  refine ⟨stratumAverage units, signFlipped units shift, signFlipped (negated units) (-shift), h.reports shift, ?_, ?_⟩
  · intro query' model' intervention' rows' hnegated
    have hreports := hnegated.reports (-shift)
    rwa [stratumAverage_negated] at hreports
  · rw [signFlipped_negated, signFlipped, unflipped_iff, flipped_neg_iff, sub_eq_zero, eq_comm (a := shift)]
    refine and_iff_right_of_imp fun hzero => ?_
    rintro (⟨heffect, hshifted⟩ | ⟨heffect, hshifted⟩)
    · rw [hzero.mp heffect, sub_self] at hshifted
      exact lt_irrefl 0 hshifted
    · rw [hzero.mpr hshifted] at heffect
      exact lt_irrefl 0 heffect

theorem sensitivity_reported_sample : ∃ effect, ∃ flipped negatedFlipped : Bool,
    Reports (estimateSensitivity sampleBuiltins (queryOf sampleRows) [] sampleIntervention sampleRows 3) 3 effect
      (effect - 3) flipped ∧
    (∀ (query' : CausalQuery) (model' intervention' : Record) (rows' : List Record),
      Identifies sampleBuiltins query' model' intervention' rows' (negated sampleUnits) →
        Reports (estimateSensitivity sampleBuiltins query' model' intervention' rows' (-3)) (-3) (-effect)
          (-effect - -3) negatedFlipped) ∧
    (((flipped = false ↔ SameSign effect (effect - 3)) ∧ negatedFlipped = flipped) ↔
      (stratumAverage sampleUnits = 0 ↔ 3 = stratumAverage sampleUnits)) :=
  sensitivity_reported sampleBuiltins (queryOf sampleRows) [] sampleIntervention sampleRows sampleUnits sample_identifies 3

/-! ## No effect -/

def idleRows : List Record := [sampleRow "a" 1 0, sampleRow "a" 0 0]

def idleUnits : List (Observation PyStr) := [⟨py "a", true, 0⟩, ⟨py "a", false, 0⟩]

theorem idle_evaluated :
    (encode (.list (idleRows.map .mapping))).isOk = true ∧ signFlipped idleUnits 1 = false ∧
      ¬ SameSign (stratumAverage idleUnits) (stratumAverage idleUnits - 1) := by
  decide +kernel

theorem idle_identifies : Identifies sampleBuiltins (queryOf idleRows) [] sampleIntervention idleRows idleUnits where
  valid := queryOf_valid (List.cons_ne_nil _ _) idle_evaluated.1
  read := by decide
  positive := by decide

/-- No effect, and a shift by one: the shifted effect is negative, and no flip is reported. -/
theorem flip_from_zero_unreported : ¬ ∀ (builtins : Builtins) (query : CausalQuery) (model intervention : Record)
    (rows : List Record) (units : List (Observation PyStr)), Identifies builtins query model intervention rows units →
      ∀ (shift effect shifted : ℚ) (flipped : Bool),
        Reports (estimateSensitivity builtins query model intervention rows shift) shift effect shifted flipped →
          (flipped = false ↔ SameSign effect shifted) := by
  intro h
  have hsign := h _ _ _ _ _ _ idle_identifies 1 _ _ _ (Identifies.reports idle_identifies 1)
  exact idle_evaluated.2.2 (hsign.mp idle_evaluated.2.1)

end OcorRuntime.Scenario

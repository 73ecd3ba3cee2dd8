import Mathlib.Algebra.BigOperators.Group.Finset.Basic
import Mathlib.Algebra.BigOperators.Field
import Mathlib.Algebra.Field.Rat
import Mathlib.Tactic.FieldSimp
import Mathlib.Tactic.Ring

/-! Observations in strata, each in one of two arms: the mean difference of the arms in a
stratum, its average over the strata and its average over the observations. -/
namespace OcorRuntime
open Finset
set_option autoImplicit false
set_option maxHeartbeats 250000

structure Observation (κ : Type) where
  stratum : κ
  treated : Bool
  outcome : ℚ
deriving DecidableEq

namespace Strata
variable {κ : Type} [DecidableEq κ] {units : List (Observation κ)}

def mean (values : List ℚ) : ℚ := values.sum / values.length

/-- The strata of the observations, in the order they first occur in. -/
def keys (units : List (Observation κ)) : Finset κ := (units.map Observation.stratum).toFinset

/-- The outcomes of one arm of a stratum. -/
def arm (units : List (Observation κ)) (z : κ) (treated : Bool) : List ℚ :=
  (units.filter fun u => u.stratum = z ∧ u.treated = treated).map Observation.outcome

/-- The observations of a stratum. -/
def size (units : List (Observation κ)) (z : κ) : ℕ := (units.map Observation.stratum).count z

/-- How much the means of the arms of a stratum differ. -/
def difference (units : List (Observation κ)) (z : κ) : ℚ := mean (arm units z true) - mean (arm units z false)

/-- Every stratum counts once. -/
def stratumAverage (units : List (Observation κ)) : ℚ := (∑ z ∈ keys units, difference units z) / #(keys units)

/-- Every stratum counts by the observations it has. -/
def populationAverage (units : List (Observation κ)) : ℚ :=
  ∑ z ∈ keys units, (size units z : ℚ) / units.length * difference units z

/-- The sizes of the strata and their differences do not vary together. -/
def Uncorrelated (units : List (Observation κ)) : Prop :=
  ∑ z ∈ keys units, ((size units z : ℚ) - units.length / #(keys units)) * (difference units z - stratumAverage units) = 0

instance (units : List (Observation κ)) : Decidable (Uncorrelated units) := inferInstanceAs (Decidable (_ = _))

theorem sum_by_stratum (units : List (Observation κ)) (f : κ → ℚ) :
    (units.map fun u => f u.stratum).sum = ∑ z ∈ keys units, (size units z : ℚ) * f z := by
  have h := Finset.sum_list_map_count (units.map Observation.stratum) f
  rw [List.map_map] at h
  refine h.trans (Finset.sum_congr rfl fun z _ => ?_)
  rw [nsmul_eq_mul]
  rfl

theorem populationAverage_eq (units : List (Observation κ)) :
    populationAverage units = (units.map fun u => difference units u.stratum).sum / units.length := by
  rw [sum_by_stratum, Finset.sum_div]
  exact Finset.sum_congr rfl fun z _ => by ring

theorem sum_size (units : List (Observation κ)) : ∑ z ∈ keys units, (size units z : ℚ) = units.length := by
  have h := sum_by_stratum units fun _ => 1
  rw [List.map_const', List.sum_replicate, nsmul_one] at h
  rw [h]
  exact Finset.sum_congr rfl fun z _ => (mul_one _).symm

theorem card_keys_pos (h : units ≠ []) : 0 < #(keys units) := by
  obtain ⟨u, rest, rfl⟩ := List.exists_cons_of_ne_nil h
  exact Finset.card_pos.mpr ⟨u.stratum, by simp [keys]⟩

/-- **The two averages agree exactly if the sizes of the strata and their differences do not vary together.** -/
theorem stratumAverage_eq_iff (h : units ≠ []) : stratumAverage units = populationAverage units ↔ Uncorrelated units := by
  have hn : (units.length : ℚ) ≠ 0 := Nat.cast_ne_zero.mpr (List.length_pos_iff.mpr h).ne'
  have hm : (#(keys units) : ℚ) ≠ 0 := Nat.cast_ne_zero.mpr (card_keys_pos h).ne'
  have hsum : ∑ z ∈ keys units, difference units z = #(keys units) * stratumAverage units := by
    rw [stratumAverage, mul_div_cancel₀ _ hm]
  have hpopulation : ∑ z ∈ keys units, (size units z : ℚ) * difference units z = units.length * populationAverage units := by
    rw [populationAverage_eq, sum_by_stratum, mul_div_cancel₀ _ hn]
  -- the covariance, up to its scale, is the difference of the averages
  have hcovariance : ∑ z ∈ keys units, ((size units z : ℚ) - units.length / #(keys units)) *
      (difference units z - stratumAverage units) = units.length * (populationAverage units - stratumAverage units) := by
    calc ∑ z ∈ keys units, ((size units z : ℚ) - units.length / #(keys units)) * (difference units z - stratumAverage units)
        = ∑ z ∈ keys units, ((size units z : ℚ) * difference units z - stratumAverage units * size units z -
            units.length / #(keys units) * difference units z + units.length / #(keys units) * stratumAverage units) :=
          Finset.sum_congr rfl fun z _ => by ring
      _ = units.length * populationAverage units - stratumAverage units * units.length -
            units.length / #(keys units) * (#(keys units) * stratumAverage units) +
            #(keys units) * (units.length / #(keys units) * stratumAverage units) := by
          rw [Finset.sum_add_distrib, Finset.sum_sub_distrib, Finset.sum_sub_distrib, ← Finset.mul_sum, ← Finset.mul_sum,
            hpopulation, sum_size, hsum, Finset.sum_const, nsmul_eq_mul]
      _ = units.length * (populationAverage units - stratumAverage units) := by
          field_simp
          ring
  unfold Uncorrelated
  rw [hcovariance, mul_eq_zero, or_iff_right hn, sub_eq_zero]
  exact eq_comm

/-! ## Shifted and negated outcomes -/

theorem mean_shift {values : List ℚ} (h : values ≠ []) (s : ℚ) :
    mean (values.map fun value => value + s) = mean values + s := by
  have hn : (values.length : ℚ) ≠ 0 := Nat.cast_ne_zero.mpr (List.length_pos_iff.mpr h).ne'
  rw [mean, List.sum_map_add, List.map_const', List.sum_replicate, List.map_id', List.length_map, nsmul_eq_mul, add_div,
    mul_div_cancel_left₀ _ hn, mean]

theorem mean_neg (values : List ℚ) : mean (values.map fun value => -value) = -mean values := by
  rw [mean, ← List.sum_neg, List.length_map, neg_div, mean]

/-- Every outcome with the other sign. -/
def negated (units : List (Observation κ)) : List (Observation κ) :=
  units.map fun u => { u with outcome := -u.outcome }

theorem keys_negated (units : List (Observation κ)) : keys (negated units) = keys units := by
  rw [keys, negated, List.map_map]
  rfl

theorem arm_negated (units : List (Observation κ)) (z : κ) (treated : Bool) :
    arm (negated units) z treated = (arm units z treated).map fun value => -value := by
  rw [arm, negated, List.filter_map, List.map_map, arm, List.map_map]
  rfl

theorem stratumAverage_negated (units : List (Observation κ)) : stratumAverage (negated units) = -stratumAverage units := by
  have hdifference (z : κ) : difference (negated units) z = -difference units z := by
    rw [difference, arm_negated, arm_negated, mean_neg, mean_neg, difference]
    ring
  rw [stratumAverage, keys_negated, Finset.sum_congr rfl fun z _ => hdifference z, Finset.sum_neg_distrib, neg_div,
    stratumAverage]

end Strata
end OcorRuntime

import Mathlib.Algebra.BigOperators.Fin
import Mathlib.Data.List.GetD
import OcorRuntime.Foundations.Collect
import OcorRuntime.Scenario.CausalRuntime

/-! What the causal estimators compute: the effect of an intervention counts every stratum
once, while the individual effects of the units average to the population effect. -/
namespace OcorRuntime.Scenario
open Canonical Strata Finset
set_option autoImplicit false
set_option maxHeartbeats 250000

/-! ## Strata as they are collected -/

theorem arm_concat (units : List (Observation PyStr)) (u : Observation PyStr) (z : PyStr) (treated : Bool) :
    arm (units ++ [u]) z treated =
      if u.stratum = z ∧ u.treated = treated then arm units z treated ++ [u.outcome] else arm units z treated := by
  unfold arm
  rw [List.filter_append, List.map_append, List.filter_singleton]
  by_cases h : u.stratum = z ∧ u.treated = treated
  · rw [if_pos h, decide_eq_true h]
    rfl
  · rw [if_neg h, decide_eq_false h]
    exact List.append_nil _

theorem arm_of_notMem {units : List (Observation PyStr)} {z : PyStr} (h : z ∉ units.map Observation.stratum)
    (treated : Bool) : arm units z treated = [] := by
  rw [arm, List.map_eq_nil_iff, List.filter_eq_nil_iff]
  intro u hu
  rw [decide_eq_true_eq]
  rintro ⟨rfl, -⟩
  exact h (List.mem_map_of_mem hu)

theorem get?_collected (units : List (Observation PyStr)) (z : PyStr) : (units.foldl addUnit .empty).get? z =
    if z ∈ units.map Observation.stratum then some ⟨arm units z false, arm units z true⟩ else none := by
  induction units using List.reverseRecOn generalizing z with
  | nil => rfl
  | append_singleton units u ih =>
    have hcells : ((units.foldl addUnit .empty).get? u.stratum).getD {} =
        ⟨arm units u.stratum false, arm units u.stratum true⟩ := by
      rw [ih]
      split_ifs with hmem
      · rfl
      · rw [arm_of_notMem hmem, arm_of_notMem hmem]
        rfl
    have hmem : z ∈ (units ++ [u]).map Observation.stratum ↔ z ∈ units.map Observation.stratum ∨ u.stratum = z := by
      rw [List.map_append, List.mem_append, List.map_singleton, List.mem_singleton, eq_comm (a := z)]
    rw [List.foldl_append, List.foldl_cons, List.foldl_nil, addUnit, hcells, Dict.get?_set, arm_concat, arm_concat]
    simp only [hmem]
    by_cases hz : u.stratum = z
    · subst hz
      cases u.treated <;> simp
    · simp only [hz, false_and, if_false, or_false]
      exact ih z

theorem keys_collected (units : List (Observation PyStr)) : (units.foldl addUnit .empty).keys.toFinset = Strata.keys units := by
  ext z
  rw [List.mem_toFinset, Dict.mem_keys_iff, get?_collected, Strata.keys, List.mem_toFinset]
  split_ifs with h
  · exact ⟨fun _ => h, fun _ => ⟨_, rfl⟩⟩
  · simp [h]

theorem mean_collected (units : List (Observation PyStr)) {f : Cells → ℚ} {g : PyStr → ℚ}
    (h : ∀ z ∈ Strata.keys units, f ⟨arm units z false, arm units z true⟩ = g z) :
    mean ((units.foldl addUnit .empty).values.map f) = (∑ z ∈ Strata.keys units, g z) / #(Strata.keys units) := by
  set strata := units.foldl addUnit .empty with hstrata
  have hnodup : strata.keys.Nodup := strata.nodup
  have hvalues : strata.values.map f = strata.keys.map g := by
    rw [Dict.values, Dict.keys, List.map_map, List.map_map]
    refine List.map_congr_left fun entry hentry => ?_
    have hget := (strata.mem_entries_iff entry.1 entry.2).mp hentry
    have hkey : entry.1 ∈ Strata.keys units := by
      rw [← keys_collected, ← hstrata, List.mem_toFinset]
      exact List.mem_map_of_mem hentry
    rw [hstrata, get?_collected, if_pos (List.mem_toFinset.mp hkey)] at hget
    rw [Function.comp_apply, Function.comp_apply, ← Option.some.inj hget]
    exact h entry.1 hkey
  rw [mean, hvalues, List.length_map, ← List.sum_toFinset g hnodup, ← List.toFinset_card_of_nodup hnodup, hstrata,
    keys_collected]

theorem averageEffect_collected (units : List (Observation PyStr)) :
    averageEffect (units.foldl addUnit .empty) = stratumAverage units :=
  mean_collected units fun _ _ => rfl

/-! ## Identified data -/

section
variable {builtins : Builtins} {query : CausalQuery} {model intervention : Record} {rows : List Record}
  {units : List (Observation PyStr)}

/-- The rows pass identification and are read as these observations. -/
structure Identifies (builtins : Builtins) (query : CausalQuery) (model intervention : Record) (rows : List Record)
    (units : List (Observation PyStr)) : Prop where
  valid : validate query model intervention rows = .ok ()
  read : rows.mapM (readUnit builtins query) = .ok units
  positive : ∀ z ∈ Strata.keys units, arm units z false ≠ [] ∧ arm units z true ≠ []

theorem validateAndStratify_eq_ok {effect : ℚ} {strata : Dict PyStr Cells} :
    validateAndStratify builtins query model intervention rows = .ok (effect, strata) ↔
      ∃ units, Identifies builtins query model intervention rows units ∧ strata = units.foldl addUnit .empty ∧
        effect = stratumAverage units := by
  have hpositive (units : List (Observation PyStr)) :
      (¬ ∃ cells ∈ (units.foldl addUnit .empty).values, cells.control = [] ∨ cells.treated = []) ↔
        ∀ z ∈ Strata.keys units, arm units z false ≠ [] ∧ arm units z true ≠ [] := by
    simp only [not_exists, not_and, not_or, Dict.mem_values_iff, get?_collected]
    constructor
    · intro h z hz
      exact h ⟨arm units z false, arm units z true⟩ ⟨z, if_pos (List.mem_toFinset.mp hz)⟩
    · rintro h cells ⟨z, hz⟩
      split_ifs at hz with hmem
      cases hz
      exact h z (List.mem_toFinset.mpr hmem)
  unfold validateAndStratify
  simp only [except_bind_eq_ok, refuseIf_eq_ok]
  constructor
  · rintro ⟨_, hvalid, units, hread, _, hcells, hresult⟩
    cases hresult
    exact ⟨units, ⟨hvalid, hread, (hpositive units).mp hcells⟩, rfl, averageEffect_collected units⟩
  · rintro ⟨units, hidentifies, rfl, rfl⟩
    exact ⟨(), hidentifies.valid, units, hidentifies.read, (), (hpositive units).mpr hidentifies.positive,
      by rw [averageEffect_collected]; rfl⟩

theorem Identifies.stratify (h : Identifies builtins query model intervention rows units) :
    validateAndStratify builtins query model intervention rows = .ok (stratumAverage units, units.foldl addUnit .empty) :=
  validateAndStratify_eq_ok.2 ⟨units, h, rfl, rfl⟩

theorem Identifies.rows_ne_nil (h : Identifies builtins query model intervention rows units) : rows ≠ [] := by
  have hvalid := h.valid
  unfold validate at hvalid
  simp only [except_bind_eq_ok, refuseIf_eq_ok, exists_const] at hvalid
  obtain ⟨_, -, -, _, -, -, _, -, -, -, -, -, hrows, -⟩ := hvalid
  exact hrows

theorem Identifies.forall₂ (h : Identifies builtins query model intervention rows units) :
    List.Forall₂ (fun row u => readUnit builtins query row = .ok u) rows units :=
  forall₂_of_mapM.1 h.read

theorem Identifies.length_eq (h : Identifies builtins query model intervention rows units) : rows.length = units.length :=
  h.forall₂.length_eq

theorem Identifies.units_ne_nil (h : Identifies builtins query model intervention rows units) : units ≠ [] := by
  rw [← List.length_pos_iff, ← h.length_eq, List.length_pos_iff]
  exact h.rows_ne_nil

theorem readUnit_eq_ok {row : Record} {u : Observation PyStr} :
    readUnit builtins query row = .ok u ↔ readRow builtins query row = .ok (u.stratum, if u.treated then 1 else 0, u.outcome) := by
  unfold readUnit
  constructor
  · intro h
    split at h
    · cases h
    · next stratum treated observed hread =>
      split_ifs at h with h0 h1
      · cases h
        rw [hread, h0]
        rfl
      · cases h
        rw [hread, h1]
        rfl
  · intro h
    rw [h]
    obtain ⟨stratum, treated, outcome⟩ := u
    cases treated <;> rfl

/-! ## The estimators -/

theorem Identifies.estimateIntervention (h : Identifies builtins query model intervention rows units) :
    estimateIntervention builtins query model intervention rows =
      .ok (identified query "STRATIFIED_BACKDOOR_ATE" (stratumAverage units) []) := by
  rw [Scenario.estimateIntervention, h.stratify]
  rfl

/-- The outcome of a unit in the other arm: the outcome it has, moved by the difference of its stratum. -/
def imputed (units : List (Observation PyStr)) (u : Observation PyStr) : ℚ :=
  if u.treated then u.outcome - difference units u.stratum else u.outcome + difference units u.stratum

theorem Identifies.estimateCounterfactual (h : Identifies builtins query model intervention rows units) {i : ℕ}
    (hi : i < units.length) : ∃ estimate, estimateCounterfactual builtins query model intervention rows i = .ok estimate ∧
      estimate.effect = some (imputed units units[i]) := by
  have hrow : i < rows.length := by
    rw [h.length_eq]
    exact hi
  have hread : readRow builtins query rows[i] =
      .ok (units[i].stratum, if units[i].treated then 1 else 0, units[i].outcome) :=
    readUnit_eq_ok.1 (h.forall₂.get hrow hi)
  have hstratum : units[i].stratum ∈ units.map Observation.stratum := List.mem_map_of_mem (List.getElem_mem hi)
  have hcells : subscript (units.foldl addUnit .empty) units[i].stratum =
      .ok ⟨arm units units[i].stratum false, arm units units[i].stratum true⟩ :=
    subscript_eq_ok.2 (by rw [get?_collected, if_pos hstratum])
  have hrange : ¬ ¬ (0 ≤ (i : ℤ) ∧ (i : ℤ) < rows.length) := not_not.mpr ⟨by omega, by exact_mod_cast hrow⟩
  unfold Scenario.estimateCounterfactual
  rw [h.stratify]
  simp only [orAbstain, refuseIf, if_neg hrange, Int.toNat_natCast, List.getD_eq_getElem _ _ hrow, hread, hcells, bind,
    Except.bind, pure, Except.pure]
  refine ⟨_, rfl, ?_⟩
  rw [imputed]
  cases units[i].treated with
  | false => rfl
  | true =>
    show some (units[i].outcome + (mean (arm units units[i].stratum false) - mean (arm units units[i].stratum true))) =
      some (units[i].outcome - difference units units[i].stratum)
    rw [difference, sub_eq_add_neg units[i].outcome, neg_sub]

/-- The average of the individual effects, each arm imputed where it was not observed. -/
def imputedAverage (units : List (Observation PyStr)) (counterfactual : ℕ → ℚ) : ℚ :=
  (∑ i : Fin units.length, if units[i.val].treated then units[i.val].outcome - counterfactual i
    else counterfactual i - units[i.val].outcome) / units.length

theorem imputedAverage_eq (units : List (Observation PyStr)) {counterfactual : ℕ → ℚ}
    (h : ∀ i (hi : i < units.length), counterfactual i = imputed units units[i]) :
    imputedAverage units counterfactual = populationAverage units := by
  have hsum : ∑ i : Fin units.length, (if units[i.val].treated then units[i.val].outcome - counterfactual i
      else counterfactual i - units[i.val].outcome) = ∑ i : Fin units.length, difference units units[i.val].stratum := by
    refine Finset.sum_congr rfl fun i _ => ?_
    rw [h i i.isLt, imputed]
    cases units[i.val].treated with
    | false => exact add_sub_cancel_left units[i.val].outcome _
    | true => exact sub_sub_cancel units[i.val].outcome _
  have hlist : (units.map fun u => difference units u.stratum).sum =
      ∑ i : Fin units.length, difference units units[i.val].stratum :=
    (Fin.sum_univ_fun_getElem units fun u => difference units u.stratum).symm
  rw [imputedAverage, hsum, populationAverage_eq, hlist]

/-- **On identified data the individual effects always average to the population effect, and the effect of the
intervention is that one exactly if the sizes of the strata and their differences do not vary together.** -/
theorem backdoor_adjustment : ∀ (builtins : Builtins) (query : CausalQuery) (model intervention : Record)
    (rows : List Record) (units : List (Observation PyStr)), Identifies builtins query model intervention rows units →
      ∃ effect, ∃ counterfactual : ℕ → ℚ,
        (∃ estimate, estimateIntervention builtins query model intervention rows = .ok estimate ∧
          estimate.effect = some effect) ∧
        (∀ i : ℕ, i < rows.length → ∃ estimate,
          estimateCounterfactual builtins query model intervention rows i = .ok estimate ∧
            estimate.effect = some (counterfactual i)) ∧
        ((effect = populationAverage units ∧ effect = imputedAverage units counterfactual) ↔ Uncorrelated units) := by
  intro builtins query model intervention rows units h
  have hbound (i : ℕ) : i < units.length → ∃ estimate,
      estimateCounterfactual builtins query model intervention rows i = .ok estimate ∧
        estimate.effect = some (if hi : i < units.length then imputed units units[i] else 0) := by
    intro hi
    rw [dif_pos hi]
    exact h.estimateCounterfactual hi
  refine ⟨stratumAverage units, fun i => if hi : i < units.length then imputed units units[i] else 0,
    ⟨_, h.estimateIntervention, rfl⟩, fun i hi => hbound i (h.length_eq ▸ hi), ?_⟩
  rw [imputedAverage_eq units fun i hi => dif_pos hi, and_self]
  exact stratumAverage_eq_iff h.units_ne_nil

end

/-! ## Two strata of unequal size -/

/-- What the built-in functions do with texts, integers and digits. -/
def sampleBuiltins : Builtins where
  str
    | .str s => s
    | .int n => intText n
    | _ => []
  int
    | .int n => .ok n
    | _ => .error ⟨.typeError, "int() argument must be a number", []⟩
  decimal text := .ok (digitsValue text)

def sampleRow (stratum : String) (treated outcome : ℤ) : Record :=
  [(.str (py "z"), .str (py stratum)), (.str (py "t"), .int treated), (.str (py "y"), .int outcome)]

def sampleRows : List Record :=
  [sampleRow "a" 1 1, sampleRow "a" 0 0, sampleRow "b" 1 0, sampleRow "b" 1 0, sampleRow "b" 0 0]

def sampleUnits : List (Observation PyStr) :=
  [⟨py "a", true, 1⟩, ⟨py "a", false, 0⟩, ⟨py "b", true, 0⟩, ⟨py "b", true, 0⟩, ⟨py "b", false, 0⟩]

def sampleIntervention : Record := [(.str (py "value"), .int 1), (.str (py "valid_envelope"), .list [.int 0, .int 1])]

def digestOf (value : PyValue) : PyStr := (canonicalDigest value).toOption.getD []

theorem canonicalDigest_eq {value : PyValue} (h : (encode value).isOk = true) : canonicalDigest value = .ok (digestOf value) := by
  unfold digestOf canonicalDigest
  cases hencode : encode value with
  | error e =>
    rw [hencode] at h
    cases h
  | ok encoded => rfl

/-- A query with the given pins. -/
def pinned (modelDigest dataDigest interventionDigest : PyStr) : CausalQuery where
  scenarioBranch := py "scenario/one"
  modelDigest := modelDigest
  dataDigest := dataDigest
  interventionDigest := interventionDigest
  ontologyReleaseDigest := py "release"
  expectedReleaseDigest := py "release"
  treatment := py "t"
  outcome := py "y"
  adjustment := py "z"

theorem pinned_valid {modelDigest dataDigest interventionDigest : PyStr} {rows : List Record} (hrows : rows ≠ [])
    (hmodel : canonicalDigest (.mapping []) = .ok modelDigest)
    (hdata : canonicalDigest (.list (rows.map .mapping)) = .ok dataDigest)
    (hintervention : canonicalDigest (.mapping sampleIntervention) = .ok interventionDigest) :
    validate (pinned modelDigest dataDigest interventionDigest) [] sampleIntervention rows = .ok () := by
  have hinside : insideEnvelope sampleIntervention = .ok true := by decide
  unfold validate
  rw [hmodel, hdata, hintervention, hinside]
  refine except_bind_eq_ok.2 ⟨_, rfl, except_bind_eq_ok.2 ⟨(), refuseIf_eq_ok.2 (not_not.mpr rfl), ?_⟩⟩
  refine except_bind_eq_ok.2 ⟨_, rfl, except_bind_eq_ok.2 ⟨(), refuseIf_eq_ok.2 (not_not.mpr rfl), ?_⟩⟩
  refine except_bind_eq_ok.2 ⟨_, rfl, except_bind_eq_ok.2 ⟨(), refuseIf_eq_ok.2 (not_not.mpr rfl), ?_⟩⟩
  refine except_bind_eq_ok.2 ⟨(), rfl, except_bind_eq_ok.2 ⟨(), rfl, except_bind_eq_ok.2 ⟨(), rfl, ?_⟩⟩⟩
  exact except_bind_eq_ok.2 ⟨(), refuseIf_eq_ok.2 hrows, rfl⟩

/-- The query pinned to the rows. -/
def queryOf (rows : List Record) : CausalQuery :=
  pinned (digestOf (.mapping [])) (digestOf (.list (rows.map .mapping))) (digestOf (.mapping sampleIntervention))

/-- What the samples encode, and the averages of the units, by evaluation. -/
theorem samples_evaluated :
    (encode (.mapping sampleIntervention)).isOk = true ∧ (encode (.list (sampleRows.map .mapping))).isOk = true ∧
      stratumAverage sampleUnits ≠ populationAverage sampleUnits := by
  decide +kernel

theorem queryOf_valid {rows : List Record} (hrows : rows ≠ []) (hencode : (encode (.list (rows.map .mapping))).isOk = true) :
    validate (queryOf rows) [] sampleIntervention rows = .ok () :=
  pinned_valid hrows (canonicalDigest_eq (by decide)) (canonicalDigest_eq hencode)
    (canonicalDigest_eq samples_evaluated.1)

theorem sample_identifies :
    Identifies sampleBuiltins (queryOf sampleRows) [] sampleIntervention sampleRows sampleUnits where
  valid := queryOf_valid (List.cons_ne_nil _ _) samples_evaluated.2.1
  read := by decide
  positive := by decide

theorem backdoor_adjustment_sample : ∃ effect, ∃ counterfactual : ℕ → ℚ,
    (∃ estimate, estimateIntervention sampleBuiltins (queryOf sampleRows) [] sampleIntervention sampleRows = .ok estimate ∧
      estimate.effect = some effect) ∧
    (∀ i : ℕ, i < sampleRows.length → ∃ estimate,
      estimateCounterfactual sampleBuiltins (queryOf sampleRows) [] sampleIntervention sampleRows i = .ok estimate ∧
        estimate.effect = some (counterfactual i)) ∧
    ((effect = populationAverage sampleUnits ∧ effect = imputedAverage sampleUnits counterfactual) ↔
      Uncorrelated sampleUnits) :=
  backdoor_adjustment sampleBuiltins (queryOf sampleRows) [] sampleIntervention sampleRows sampleUnits sample_identifies

/-- One of two units moved in the first stratum, none of three in the second: the effect is a half, the
population effect two fifths. -/
theorem strata_counted_once : ¬ ∀ (builtins : Builtins) (query : CausalQuery) (model intervention : Record)
    (rows : List Record) (units : List (Observation PyStr)), Identifies builtins query model intervention rows units →
      ∃ estimate, estimateIntervention builtins query model intervention rows = .ok estimate ∧
        estimate.effect = some (populationAverage units) := by
  intro h
  obtain ⟨estimate, hestimate, heffect⟩ := h _ _ _ _ _ _ sample_identifies
  rw [Identifies.estimateIntervention sample_identifies] at hestimate
  cases hestimate
  exact samples_evaluated.2.2 (Option.some.inj heffect)

end OcorRuntime.Scenario

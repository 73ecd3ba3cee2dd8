import Mathlib.Data.List.Basic

/-! Runs of a step function over a list of inputs, what their steps put out, and the
induction rules every invariant of this development is derived from: an invariant
kept by each step that meets a condition holds after every run whose steps all
meet it, also when it speaks about the output so far. -/
namespace OcorRuntime
set_option autoImplicit false
set_option maxHeartbeats 250000

section Run
variable {σ ι : Type}

def run (step : σ → ι → σ) (s : σ) (inputs : List ι) : σ := inputs.foldl step s

@[simp] theorem run_nil (step : σ → ι → σ) (s : σ) : run step s [] = s := rfl

@[simp] theorem run_cons (step : σ → ι → σ) (s : σ) (i : ι) (inputs : List ι) :
    run step s (i :: inputs) = run step (step s i) inputs := rfl

theorem run_append (step : σ → ι → σ) (s : σ) (first second : List ι) :
    run step s (first ++ second) = run step (run step s first) second :=
  List.foldl_append

/-- Every step of the run meets `P` in the state it is taken from. -/
def AllSteps (step : σ → ι → σ) (P : σ → ι → Prop) : σ → List ι → Prop
  | _, [] => True
  | s, i :: inputs => P s i ∧ AllSteps step P (step s i) inputs

attribute [local grind =] AllSteps

theorem allSteps_append {step : σ → ι → σ} {P : σ → ι → Prop} (s : σ) (first second : List ι) :
    AllSteps step P s (first ++ second) ↔ AllSteps step P s first ∧ AllSteps step P (run step s first) second := by
  induction first generalizing s with
  | nil => simp [AllSteps]
  | cons i first ih => rw [List.cons_append, AllSteps, AllSteps, ih, run_cons, and_assoc]

theorem allSteps_of_split {step : σ → ι → σ} {P : σ → ι → Prop} {s : σ} {inputs : List ι}
    (h : ∀ before i after, inputs = before ++ i :: after → P (run step s before) i) : AllSteps step P s inputs := by
  induction inputs generalizing s with
  | nil => trivial
  | cons i inputs ih =>
    refine ⟨h [] i inputs rfl, ih fun before j after hsplit => ?_⟩
    exact h (i :: before) j after (by rw [hsplit, List.cons_append])

/-- What the steps of the run put out, in order. -/
def trace {β : Type} (step : σ → ι → σ) (out : σ → ι → List β) : σ → List ι → List β
  | _, [] => []
  | s, i :: inputs => out s i ++ trace step out (step s i) inputs

attribute [local grind =] trace

theorem trace_append {β : Type} (step : σ → ι → σ) (out : σ → ι → List β) (s : σ) (first second : List ι) :
    trace step out s (first ++ second) = trace step out s first ++ trace step out (run step s first) second := by
  induction first generalizing s with
  | nil => rfl
  | cons i first ih => rw [List.cons_append, trace, trace, ih, run_cons, List.append_assoc]

theorem trace_induction {β : Type} {step : σ → ι → σ} {out : σ → ι → List β} {P : σ → ι → Prop}
    {Inv : σ → List β → Prop} (hstep : ∀ s log i, Inv s log → P s i → Inv (step s i) (log ++ out s i)) {s : σ}
    {log : List β} (h0 : Inv s log) {inputs : List ι} (hP : AllSteps step P s inputs) :
    Inv (run step s inputs) (log ++ trace step out s inputs) := by
  induction inputs generalizing s log with
  | nil => rwa [trace, List.append_nil]
  | cons i inputs ih =>
    rw [run_cons, trace, ← List.append_assoc]
    exact ih (hstep s log i h0 hP.1) hP.2

theorem run_induction_of {step : σ → ι → σ} {P : σ → ι → Prop} {Inv : σ → Prop}
    (hstep : ∀ s i, Inv s → P s i → Inv (step s i)) {s : σ} (h0 : Inv s) {inputs : List ι}
    (hP : AllSteps step P s inputs) : Inv (run step s inputs) := by
  induction inputs generalizing s with
  | nil => exact h0
  | cons i inputs ih => exact ih (hstep s i h0 hP.1) hP.2

/-- Where each step from a state of the property keeps it exactly under a condition, every state
of a run has the property exactly if every step meets the condition. -/
theorem run_prefixes_iff {step : σ → ι → σ} {Inv P : σ → Prop} {Q : σ → ι → Prop}
    (hinv : ∀ s i, Inv s → Inv (step s i)) (hstep : ∀ s i, Inv s → P s → (P (step s i) ↔ Q s i)) {s : σ} (h0 : Inv s)
    (hP : P s) (inputs : List ι) :
    (∀ before after, inputs = before ++ after → P (run step s before)) ↔ AllSteps step Q s inputs := by
  induction inputs generalizing s with
  | nil =>
    refine ⟨fun _ => trivial, fun _ before after hsplit => ?_⟩
    rw [(List.append_eq_nil_iff.mp hsplit.symm).1]
    exact hP
  | cons i inputs ih =>
    constructor
    · intro h
      have hnext : P (step s i) := h [i] inputs rfl
      refine ⟨(hstep s i h0 hP).mp hnext, (ih (hinv s i h0) hnext).mp fun before after hsplit => ?_⟩
      exact h (i :: before) after (by rw [hsplit, List.cons_append])
    · rintro ⟨hQ, hrest⟩ before after hsplit
      have hnext := (hstep s i h0 hP).mpr hQ
      cases before with
      | nil => exact hP
      | cons j before =>
        rw [List.cons_append, List.cons.injEq] at hsplit
        obtain ⟨rfl, hsplit⟩ := hsplit
        exact (ih (hinv s i h0) hnext).mpr hrest before after hsplit

theorem run_induction {step : σ → ι → σ} {Inv : σ → Prop}
    (hstep : ∀ s i, Inv s → Inv (step s i)) {s : σ} (h0 : Inv s) (inputs : List ι) :
    Inv (run step s inputs) := by
  induction inputs generalizing s with
  | nil => exact h0
  | cons i inputs ih => exact ih (hstep s i h0)

theorem allSteps_of_trace {β : Type} {step : σ → ι → σ} {out : σ → ι → List β} {Q : β → Prop} {s : σ}
    {inputs : List ι} (h : ∀ b ∈ trace step out s inputs, Q b) :
    AllSteps step (fun s i => ∀ b ∈ out s i, Q b) s inputs := by
  induction inputs generalizing s with
  | nil => trivial
  | cons i inputs ih =>
    refine ⟨fun b hb => h b (List.mem_append_left _ hb), ih fun b hb => h b (List.mem_append_right _ hb)⟩

theorem allSteps_of_forall {step : σ → ι → σ} {P : σ → ι → Prop} {inputs : List ι}
    (h : ∀ i ∈ inputs, ∀ s, P s i) (s : σ) : AllSteps step P s inputs := by
  induction inputs generalizing s with
  | nil => trivial
  | cons i inputs ih =>
    exact ⟨h i (List.mem_cons_self ..) s, ih (fun j hj => h j (List.mem_cons_of_mem i hj)) _⟩

/-- Two conditions that agree in the states of an invariant hold of the same runs. -/
theorem allSteps_congr {step : σ → ι → σ} {P Q : σ → ι → Prop} {Inv : σ → Prop}
    (hstep : ∀ s i, Inv s → Inv (step s i)) (hPQ : ∀ s i, Inv s → (P s i ↔ Q s i)) {s : σ} (h0 : Inv s)
    (inputs : List ι) : AllSteps step P s inputs ↔ AllSteps step Q s inputs := by
  induction inputs generalizing s with
  | nil => exact Iff.rfl
  | cons i inputs ih => exact and_congr (hPQ s i h0) (ih (hstep s i h0))

instance AllSteps.decidable {step : σ → ι → σ} {P : σ → ι → Prop} [∀ s i, Decidable (P s i)] :
    ∀ (s : σ) (inputs : List ι), Decidable (AllSteps step P s inputs)
  | _, [] => isTrue trivial
  | s, i :: inputs =>
    have : Decidable (AllSteps step P (step s i) inputs) := AllSteps.decidable (step s i) inputs
    inferInstanceAs (Decidable (_ ∧ _))

end Run

/-! ## Forward simulation

One step of the concrete machine is matched by the abstract step its label names, or by none; the relation may speak
of what the abstract run has put out so far. -/

section Simulation
variable {σ τ ι κ β : Type} {step : σ → ι → σ} {astep : τ → κ → τ} {out : τ → κ → List β} {label : ι → Option κ}
  {R : σ → τ → List β → Prop}

/-- A simulation, step by step. -/
structure Simulates (step : σ → ι → σ) (astep : τ → κ → τ) (out : τ → κ → List β) (label : ι → Option κ)
    (R : σ → τ → List β → Prop) : Prop where
  visible : ∀ {s t log i k}, R s t log → label i = some k → R (step s i) (astep t k) (log ++ out t k)
  silent : ∀ {s t log i}, R s t log → label i = none → R (step s i) t log

theorem Simulates.run (h : Simulates step astep out label R) {s : σ} {t : τ} {log : List β} (h0 : R s t log)
    (inputs : List ι) :
    R (run step s inputs) (run astep t (inputs.filterMap label)) (log ++ trace astep out t (inputs.filterMap label)) := by
  induction inputs generalizing s t log with
  | nil => rwa [List.filterMap_nil, trace, List.append_nil]
  | cons i inputs ih =>
    cases hlabel : label i with
    | none =>
      rw [List.filterMap_cons_none hlabel, run_cons]
      exact ih (h.silent h0 hlabel)
    | some k =>
      rw [List.filterMap_cons_some hlabel, run_cons, run_cons, trace, ← List.append_assoc]
      exact ih (h.visible h0 hlabel)

end Simulation
end OcorRuntime

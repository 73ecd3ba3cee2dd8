import OcorRuntime.Agent.Sandbox

/-! What leaves the sandbox. Most forms check the value they return; a name, a negation and a
comparison do not, and boolean operators and conditionals hand on what their last part returned. -/
namespace OcorRuntime.Agent
set_option autoImplicit false
set_option maxHeartbeats 250000

variable {W : Type}

/-- The value has a canonical text within the limit. -/
def Bounded (limit : ℤ) (value : PyValue) : Prop :=
  ∃ text, Canonical.serialize value = .ok text ∧ (text.length : ℤ) ≤ limit

theorem bounded_bool {limit : ℤ} {b : Bool} : Bounded limit (.bool b) ↔ (if b then 4 else 5) ≤ limit := by
  cases b with
  | true => exact ⟨fun ⟨_, htext, hlen⟩ => by cases htext; exact hlen, fun hlen => ⟨py "true", rfl, hlen⟩⟩
  | false => exact ⟨fun ⟨_, htext, hlen⟩ => by cases htext; exact hlen, fun hlen => ⟨py "false", rfl, hlen⟩⟩

/-- How an expression is left: through the check, with a binding as it is, or with a truth value. -/
inductive Ending
  | checked
  | binding (id : PyStr)
  | truth (value : Bool)

namespace ExpressionEvaluator
variable (ev : ExpressionEvaluator W)

-- Its equations are derived here, once for the lemmas on each form.
attribute [grind =] evaluate

theorem bounded_eq_ok {value v : PyValue} :
    ev.bounded value = .ok v ↔ v = value ∧ Bounded ev.maxResultCharacters value := by
  unfold bounded Bounded
  cases htext : Canonical.serialize value with
  | error e =>
    constructor
    · intro h
      cases h
    · rintro ⟨-, text, h, -⟩
      cases h
  | ok text =>
    rw [Except.mapError, bind_eq_ok]
    constructor
    · rintro ⟨rendered, hrendered, h⟩
      cases hrendered
      obtain ⟨_, hlen, h⟩ := bind_eq_ok.1 h
      cases h
      exact ⟨rfl, text, rfl, not_lt.mp (refuseIf_eq_ok.1 hlen)⟩
    · rintro ⟨rfl, rendered, hrendered, hlen⟩
      cases hrendered
      exact ⟨text, rfl, bind_eq_ok.2 ⟨(), refuseIf_eq_ok.2 (not_lt.mpr hlen), rfl⟩⟩

/-! ## Forms that check what they return -/

/-- Whatever the operation returns is bounded. -/
def Checked (x : Op (Meter W) PyError PyValue) : Prop :=
  ∀ s v s', x s = (.ok v, s') → Bounded ev.maxResultCharacters v

variable {ev}

theorem Checked.bind {α : Type} {x : Op (Meter W) PyError α} {f : α → Op (Meter W) PyError PyValue}
    (h : ∀ a, ev.Checked (f a)) : ev.Checked (x >>= f) := by
  intro s v s' hrun
  obtain ⟨a, s₁, -, hrest⟩ := Op.bind_eq_ok.1 hrun
  exact h a s₁ v s' hrest

theorem checked_bounded (value : PyValue) : ev.Checked (Op.lift (ev.bounded value)) := by
  intro s v s' hrun
  obtain ⟨rfl, hbounded⟩ := ev.bounded_eq_ok.1 (Op.lift_eq_ok.1 hrun).1
  exact hbounded

theorem checked_attempt (message : String) (x : Except PyError PyValue) : ev.Checked (Op.lift (ev.attempt message x)) := by
  intro s v s' hrun
  obtain ⟨value, -, hvalue⟩ := bind_eq_ok.1 (Op.lift_eq_ok.1 hrun).1
  obtain ⟨rfl, hbounded⟩ := ev.bounded_eq_ok.1 hvalue
  exact hbounded

theorem checked_raise (e : PyError) : ev.Checked (Op.raise e) := by
  intro s v s' hrun
  cases hrun

theorem checked_call (func : Expr) (args : List Expr) (keywords : List (Option PyStr × Expr)) :
    ev.Checked (ev.evaluate (.call func args keywords)) := by
  rw [evaluate.eq_def]
  refine .bind fun _ => ?_
  cases func with
  | name id =>
    refine .bind fun _ => .bind fun _ => .bind fun _ => .bind fun _ => .bind fun _ => .bind fun _ => ?_
    exact checked_bounded _
  | _ => exact checked_raise _

theorem checked_dict (keys : List (Option Expr)) (values : List Expr) : ev.Checked (ev.evaluate (.dict keys values)) := by
  rw [evaluate.eq_def]
  refine .bind fun _ => .bind fun _ => .bind fun _ => .bind fun _ => .bind fun _ => .bind fun _ => ?_
  exact checked_bounded _

theorem checked_binOp (left : Expr) (op : BinaryOperator) (right : Expr) :
    ev.Checked (ev.evaluate (.binOp left op right)) := by
  rw [evaluate.eq_def]
  refine .bind fun _ => ?_
  cases op with
  | other typeName => exact checked_raise _
  | _ => exact .bind fun _ => .bind fun _ => .bind fun _ => checked_attempt _ _

theorem checked_slice (value : Expr) (lower upper step : Option Expr) :
    ev.Checked (ev.evaluate (.slice value lower upper step)) := by
  rw [evaluate.eq_def]
  exact .bind fun _ => .bind fun _ => .bind fun _ => .bind fun _ => .bind fun _ => checked_attempt _ _

/-! ## How an expression is left -/

variable (ev)

mutual
def ending : Expr → Meter W → Ending
  | .name id, _ => .binding id
  | .unaryOp op operand, s =>
    if op = .not then
      match (ev.evaluate operand s.spent).1 with
      | .ok value => .truth (!truthy value)
      | .error _ => .checked
    else .checked
  | .boolOp op values, s => endingUntil op values s.spent
  | .compare left ops comparators, s =>
    match ev.evaluate left s.spent with
    | (.ok value, s') =>
      match (ev.evaluateChain value ops comparators s').1 with
      | .ok holds => .truth holds
      | .error _ => .checked
    | (.error _, _) => .checked
  | .ifExp test body orelse, s =>
    match ev.evaluate test s.spent with
    | (.ok value, s') => if truthy value then ending body s' else ending orelse s'
    | (.error _, _) => .checked
  | _, _ => .checked

def endingUntil (op : BoolOperator) : List Expr → Meter W → Ending
  | [], _ => .truth (op = .and)
  | item :: rest, s =>
    match ev.evaluate item s with
    | (.ok value, s') =>
      if truthy value = decide (op = .and) ∧ rest ≠ [] then endingUntil op rest s' else ending item s
    | (.error _, _) => .checked
end

/-- The value an expression is left with is one the limit allows. -/
def Safe : Ending → Prop
  | .checked => True
  | .binding id => ∀ value, ev.bindings.get? id = some value → Bounded ev.maxResultCharacters value
  | .truth value => (if value then 4 else 5) ≤ ev.maxResultCharacters

variable {ev} {s s' : Meter W} {v : PyValue}

theorem spend_bind {α : Type} {f : Unit → Op (Meter W) PyError α} {a : α} (h : (spend >>= f) s = (.ok a, s')) :
    f () s.spent = (.ok a, s') := by
  obtain ⟨_, s₁, hspend, hrest⟩ := Op.bind_eq_ok.1 h
  unfold spend at hspend
  cases congrArg Prod.snd hspend
  exact hrest

theorem unaryOp_bounded_iff {op : UnaryOperator} {operand : Expr}
    (h : ev.evaluate (.unaryOp op operand) s = (.ok v, s')) :
    Bounded ev.maxResultCharacters v ↔ ev.Safe (ev.ending (.unaryOp op operand) s) := by
  rw [evaluate] at h
  rw [ending]
  obtain ⟨value, s₁, hvalue, hrest⟩ := Op.bind_eq_ok.1 (spend_bind h)
  by_cases hnot : op = .not
  · rw [if_pos hnot] at hrest
    cases hrest
    rw [if_pos hnot, hvalue]
    exact bounded_bool
  · rw [if_neg hnot] at hrest
    rw [if_neg hnot]
    refine iff_of_true ?_ trivial
    split_ifs at hrest
    · exact Checked.bind (fun _ => checked_bounded _) s₁ v s' hrest
    · exact Checked.bind (fun _ => checked_bounded _) s₁ v s' hrest
    · cases hrest

theorem compare_bounded_iff {left : Expr} {ops : List CompareOperator} {comparators : List Expr}
    (h : ev.evaluate (.compare left ops comparators) s = (.ok v, s')) :
    Bounded ev.maxResultCharacters v ↔ ev.Safe (ev.ending (.compare left ops comparators) s) := by
  rw [evaluate] at h
  rw [ending]
  obtain ⟨value, s₁, hvalue, hrest⟩ := Op.bind_eq_ok.1 (spend_bind h)
  obtain ⟨holds, s₂, hholds, hrest⟩ := Op.bind_eq_ok.1 hrest
  cases hrest
  rw [hvalue]
  dsimp only
  rw [hholds]
  exact bounded_bool

mutual
theorem evaluate_bounded_iff : ∀ (e : Expr) {s s' : Meter W} {v : PyValue}, ev.evaluate e s = (.ok v, s') →
    (Bounded ev.maxResultCharacters v ↔ ev.Safe (ev.ending e s))
  | .constant value, s, s', v, h => by
    rw [evaluate] at h
    exact iff_of_true (Checked.bind (fun _ => .bind fun _ => checked_bounded _) s v s' h) (by simp [ending, Safe])
  | .name id, s, s', v, h => by
    rw [evaluate] at h
    rw [ending]
    obtain ⟨hfound, -⟩ := Op.lift_eq_ok.1 (spend_bind h)
    have hget := orRaise_eq_ok.1 hfound
    constructor
    · intro hbounded value hvalue
      cases hget.symm.trans hvalue
      exact hbounded
    · exact fun hsafe => hsafe v hget
  | .list elts, s, s', v, h => by
    rw [evaluate] at h
    exact iff_of_true (Checked.bind (fun _ => .bind fun _ => checked_bounded _) s v s' h) (by simp [ending, Safe])
  | .tuple elts, s, s', v, h => by
    rw [evaluate] at h
    exact iff_of_true (Checked.bind (fun _ => .bind fun _ => checked_bounded _) s v s' h) (by simp [ending, Safe])
  | .dict keys values, s, s', v, h => iff_of_true (checked_dict keys values s v s' h) (by simp [ending, Safe])
  | .unaryOp op operand, s, s', v, h => unaryOp_bounded_iff h
  | .binOp left op right, s, s', v, h => iff_of_true (checked_binOp left op right s v s' h) (by simp [ending, Safe])
  | .boolOp op values, s, s', v, h => by
    rw [evaluate] at h
    rw [ending]
    exact evaluateUntil_bounded_iff values (spend_bind h) fun hnil heq => by
      rw [heq, hnil, endingUntil]
      exact bounded_bool
  | .compare left ops comparators, s, s', v, h => compare_bounded_iff h
  | .ifExp test body orelse, s, s', v, h => by
    rw [evaluate] at h
    rw [ending]
    obtain ⟨value, s₁, hvalue, hrest⟩ := Op.bind_eq_ok.1 (spend_bind h)
    rw [hvalue]
    dsimp only
    by_cases htruthy : truthy value = true
    · rw [if_pos htruthy] at hrest ⊢
      exact evaluate_bounded_iff body hrest
    · rw [if_neg htruthy] at hrest ⊢
      exact evaluate_bounded_iff orelse hrest
  | .subscript value index, s, s', v, h => by
    rw [evaluate] at h
    exact iff_of_true (Checked.bind (fun _ => .bind fun _ => .bind fun _ => checked_attempt _ _) s v s' h)
      (by simp [ending, Safe])
  | .slice value lower upper step, s, s', v, h =>
    iff_of_true (checked_slice value lower upper step s v s' h) (by simp [ending, Safe])
  | .call func args keywords, s, s', v, h =>
    iff_of_true (checked_call func args keywords s v s' h) (by simp [ending, Safe])
  | .starred _, s, s', v, h => by
    rw [evaluate] at h
    cases spend_bind h
  | .other _, s, s', v, h => by
    rw [evaluate] at h
    cases spend_bind h

theorem evaluateUntil_bounded_iff {op : BoolOperator} : ∀ (values : List Expr) {result : PyValue} {s s' : Meter W}
    {v : PyValue}, ev.evaluateUntil op result values s = (.ok v, s') →
    (values = [] → v = result → (Bounded ev.maxResultCharacters v ↔ ev.Safe (ev.endingUntil op values s))) →
    (Bounded ev.maxResultCharacters v ↔ ev.Safe (ev.endingUntil op values s))
  | [], result, s, s', v, h, hnil => by
    rw [evaluateUntil] at h
    cases h
    exact hnil rfl rfl
  | item :: rest, result, s, s', v, h, _ => by
    rw [evaluateUntil] at h
    rw [endingUntil]
    obtain ⟨value, s₁, hvalue, hrest⟩ := Op.bind_eq_ok.1 h
    have hitem := evaluate_bounded_iff item hvalue
    rw [hvalue]
    dsimp only
    by_cases hgoes : truthy value = decide (op = .and)
    · rw [if_pos hgoes] at hrest
      cases rest with
      | nil =>
        rw [if_neg fun hboth => hboth.2 rfl]
        rw [evaluateUntil] at hrest
        cases hrest
        exact hitem
      | cons next rest =>
        rw [if_pos ⟨hgoes, List.cons_ne_nil next rest⟩]
        exact evaluateUntil_bounded_iff (next :: rest) hrest fun hnil => absurd hnil (List.cons_ne_nil next rest)
    · rw [if_neg hgoes] at hrest
      rw [if_neg fun hboth => hgoes hboth.1]
      cases hrest
      exact hitem
end

/-! ## Expressions that are always left safely -/

variable (ev)

mutual
/-- Every name an expression may be left with has a bounded value, and every truth value it may be left with fits. -/
def Trusted : Expr → Prop
  | .name id => ev.Safe (.binding id)
  | .unaryOp op _ => op = .not → 5 ≤ ev.maxResultCharacters
  | .boolOp _ values => TrustedAll values ∧ (values = [] → 5 ≤ ev.maxResultCharacters)
  | .compare _ _ _ => 5 ≤ ev.maxResultCharacters
  | .ifExp _ body orelse => Trusted body ∧ Trusted orelse
  | _ => True

def TrustedAll : List Expr → Prop
  | [] => True
  | item :: rest => Trusted item ∧ TrustedAll rest
end

variable {ev}

theorem safe_truth (h : 5 ≤ ev.maxResultCharacters) (value : Bool) : ev.Safe (.truth value) := by
  change (if value then 4 else 5) ≤ ev.maxResultCharacters
  split_ifs
  · omega
  · exact h

mutual
theorem Trusted.safe : ∀ (e : Expr) (s : Meter W), ev.Trusted e → ev.Safe (ev.ending e s)
  | .name id, s, h => by
    rw [Trusted] at h
    rw [ending]
    exact h
  | .unaryOp op operand, s, h => by
    rw [Trusted] at h
    rw [ending]
    by_cases hnot : op = .not
    · rw [if_pos hnot]
      cases (ev.evaluate operand s.spent).1 with
      | ok value => exact safe_truth (h hnot) _
      | error e => trivial
    · rw [if_neg hnot]
      trivial
  | .boolOp op values, s, h => by
    rw [Trusted] at h
    rw [ending]
    cases values with
    | nil => simpa only [endingUntil] using safe_truth (h.2 rfl) _
    | cons item rest => exact TrustedAll.safe (item :: rest) s.spent h.1 (List.cons_ne_nil item rest)
  | .compare left ops comparators, s, h => by
    rw [Trusted] at h
    rw [ending]
    rcases ev.evaluate left s.spent with ⟨_ | value, s₁⟩
    · trivial
    · dsimp only
      cases (ev.evaluateChain value ops comparators s₁).1 with
      | ok holds => exact safe_truth h holds
      | error e => trivial
  | .ifExp test body orelse, s, h => by
    rw [Trusted] at h
    rw [ending]
    rcases ev.evaluate test s.spent with ⟨_ | value, s₁⟩
    · trivial
    · dsimp only
      split_ifs
      · exact Trusted.safe body s₁ h.1
      · exact Trusted.safe orelse s₁ h.2
  | .constant _, s, _ | .list _, s, _ | .tuple _, s, _ | .dict _ _, s, _ | .binOp _ _ _, s, _ | .subscript _ _, s, _
  | .slice _ _ _ _, s, _ | .call _ _ _, s, _ | .starred _, s, _ | .other _, s, _ => by simp [ending, Safe]

theorem TrustedAll.safe {op : BoolOperator} : ∀ (values : List Expr) (s : Meter W), ev.TrustedAll values → values ≠ [] →
    ev.Safe (ev.endingUntil op values s)
  | [], _, _, hne => absurd rfl hne
  | item :: rest, s, h, _ => by
    rw [TrustedAll] at h
    rw [endingUntil]
    rcases ev.evaluate item s with ⟨_ | value, s₁⟩
    · trivial
    · dsimp only
      split_ifs with hgoes
      · exact TrustedAll.safe rest s₁ h.2 hgoes.2
      · exact Trusted.safe item s h.1
end

end ExpressionEvaluator

/-! ## What leaves the sandbox -/

/-- **The sandbox returns a bounded value exactly if** the expression is left through the check, with a binding whose
value is bounded, or with a truth value that fits: whatever the operators, the tools and the hook do. That is so
whenever every name the expression may be left with is bound to a bounded value, and five characters are allowed or no
negation or comparison is among those ends. -/
theorem execute_bounded_iff (sandbox : StrictSandbox W) (parse : PyStr → Except String ParsedExpression)
    (operators : Operators) (dispatch : Option (ToolDispatch W)) (expression : PyStr) (bindings : Dict PyStr PyValue)
    (tree : ParsedExpression) (hparse : parse expression = .ok tree) (world world' : W) (v : PyValue)
    (hrun : sandbox.execute parse operators dispatch expression bindings world = (.ok v, world')) :
    (Bounded sandbox.maxResultCharacters v ↔ (sandbox.evaluator operators dispatch bindings).Safe
        ((sandbox.evaluator operators dispatch bindings).ending tree.body ⟨sandbox.maxOperations, world⟩)) ∧
      ((sandbox.evaluator operators dispatch bindings).Trusted tree.body → Bounded sandbox.maxResultCharacters v) := by
  obtain ⟨_, w₁, hstrip, hrun⟩ := Op.bind_eq_ok.1 hrun
  obtain ⟨_, w₂, hsize, hrun⟩ := Op.bind_eq_ok.1 hrun
  obtain ⟨parsed, w₃, hparsed, hrun⟩ := Op.bind_eq_ok.1 hrun
  obtain ⟨_, w₄, hnodes, hrun⟩ := Op.bind_eq_ok.1 hrun
  obtain ⟨_, w₅, hnames, hrun⟩ := Op.bind_eq_ok.1 hrun
  rw [hparse] at hparsed
  cases hparsed
  obtain ⟨-, rfl⟩ := Op.lift_eq_ok.1 hstrip
  obtain ⟨-, rfl⟩ := Op.lift_eq_ok.1 hsize
  obtain ⟨-, rfl⟩ := Op.lift_eq_ok.1 hnodes
  obtain ⟨-, rfl⟩ := Op.lift_eq_ok.1 hnames
  rcases heval : (sandbox.evaluator operators dispatch bindings).evaluate tree.body ⟨sandbox.maxOperations, world⟩
    with ⟨outcome, meter⟩
  have hvalue : outcome = .ok v := by
    have hfirst := congrArg Prod.fst hrun
    change ((sandbox.evaluator operators dispatch bindings).evaluate tree.body ⟨sandbox.maxOperations, world⟩).1 = .ok v
      at hfirst
    rw [heval] at hfirst
    exact hfirst
  subst hvalue
  have hiff := ExpressionEvaluator.evaluate_bounded_iff tree.body heval
  exact ⟨hiff, fun htrusted => hiff.mpr (htrusted.safe tree.body _)⟩

/-! A name is bound to a text longer than the limit. -/

namespace LongBinding

def sandbox : StrictSandbox Unit := ⟨.empty, 4096, 256, 1024, 8, by decide⟩

/-- Reads every text as a name. -/
def parse (expression : PyStr) : Except String ParsedExpression := .ok ⟨.name expression, 3⟩

def operators : Operators where
  positive v := .ok v
  negative v := .ok v
  binary _ left _ := .ok left
  compare _ left right := .ok (left.pyEq right)
  subscript target _ := .ok target

end LongBinding

open LongBinding in
theorem execute_bounded_iff_name : Bounded 8 (.str (py "short")) := by
  have hrun : sandbox.execute parse operators none (py "x") (Dict.empty.set (py "x") (.str (py "short"))) () =
      (.ok (.str (py "short")), ()) := by decide
  refine (execute_bounded_iff sandbox parse operators none (py "x") (Dict.empty.set (py "x") (.str (py "short")))
    ⟨.name (py "x"), 3⟩ rfl () () _ hrun).2 fun value hvalue => ?_
  have hbound : (Dict.empty.set (py "x") (.str (py "short")) : Dict PyStr PyValue).get? (py "x") =
      some (.str (py "short")) := by decide
  cases hbound.symm.trans hvalue
  exact ⟨py "\"short\"", by decide, by decide⟩

open LongBinding in
/-- The sandbox returns what the name is bound to, as long as it is. -/
theorem execute_returns_long_binding : ¬ ∀ (sandbox : StrictSandbox Unit)
    (parse : PyStr → Except String ParsedExpression) (operators : Operators) (dispatch : Option (ToolDispatch Unit))
    (expression : PyStr) (bindings : Dict PyStr PyValue) (v : PyValue),
    sandbox.execute parse operators dispatch expression bindings () = (.ok v, ()) →
      Bounded sandbox.maxResultCharacters v := by
  intro h
  have hrun : sandbox.execute parse operators none (py "x") (Dict.empty.set (py "x") (.str (py "too long a text"))) () =
      (.ok (.str (py "too long a text")), ()) := by decide
  obtain ⟨text, htext, hlen⟩ := h _ _ _ _ _ _ _ hrun
  have hserialized : Canonical.serialize (.str (py "too long a text")) = .ok (py "\"too long a text\"") := by decide
  cases hserialized.symm.trans htext
  exact absurd hlen (by decide)

end OcorRuntime.Agent

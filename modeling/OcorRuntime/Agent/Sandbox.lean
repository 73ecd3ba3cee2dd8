import OcorRuntime.Agent.TokenBudget
import OcorRuntime.Foundations.Normalization

/-! The expression sandbox (`c8_agent.py`): an interpreter of Python expressions that admits
a few syntax forms, counts its operations and calls nothing but the tools registered with it.
The parser, the arithmetic of the built-in types and the tools are given from outside. -/
namespace OcorRuntime.Agent
set_option autoImplicit false
set_option maxHeartbeats 250000

/-! ## Expressions -/

inductive UnaryOperator
  | not
  | uAdd
  | uSub
  | invert
deriving DecidableEq

inductive BinaryOperator
  | add
  | sub
  | mult
  | div
  | floorDiv
  | mod
  | pow
  /-- `@`, the shifts and the bitwise operators. -/
  | other (typeName : String)
deriving DecidableEq

inductive BoolOperator
  | and
  | or
deriving DecidableEq

inductive CompareOperator
  | eq
  | notEq
  | lt
  | ltE
  | gt
  | gtE
  | isIn
  | notIn
  /-- `is` and `is not`. -/
  | other (typeName : String)
deriving DecidableEq

/-- The syntax of `ast`, as far as the interpreter tells it apart. -/
inductive Expr
  | constant (value : PyValue)
  | name (id : PyStr)
  | list (elts : List Expr)
  | tuple (elts : List Expr)
  /-- A key that is `None` stands for an unpacked mapping. -/
  | dict (keys : List (Option Expr)) (values : List Expr)
  | unaryOp (op : UnaryOperator) (operand : Expr)
  | binOp (left : Expr) (op : BinaryOperator) (right : Expr)
  | boolOp (op : BoolOperator) (values : List Expr)
  | compare (left : Expr) (ops : List CompareOperator) (comparators : List Expr)
  | ifExp (test body orelse : Expr)
  | subscript (value index : Expr)
  | slice (value : Expr) (lower upper step : Option Expr)
  | call (func : Expr) (args : List Expr) (keywords : List (Option PyStr × Expr))
  | starred (value : Expr)
  /-- Any other form. -/
  | other (typeName : String)

/-- What `ast.parse` makes of an expression, and how many nodes `ast.walk` visits in it. -/
structure ParsedExpression where
  body : Expr
  nodes : ℤ

/-- What a subscript takes: a key or a slice. -/
inductive SubscriptKey
  | key (value : PyValue)
  | slice (lower upper step : PyValue)

/-- The operators of the built-in types, which may raise. -/
structure Operators where
  positive : PyValue → Except PyError PyValue
  negative : PyValue → Except PyError PyValue
  binary : BinaryOperator → PyValue → PyValue → Except PyError PyValue
  /-- Whether the comparison is truthy. -/
  compare : CompareOperator → PyValue → PyValue → Except PyError Bool
  subscript : PyValue → SubscriptKey → Except PyError PyValue

/-! ## The sandbox -/

/-- A tool sees its arguments and the world outside. -/
abbrev Tool (W : Type) : Type := List PyValue → Dict PyStr PyValue → Op W PyError PyValue

/-- The hook decides whether and how a call is made. -/
abbrev ToolDispatch (W : Type) : Type := PyStr → Op W PyError PyValue → Op W PyError PyValue

def sandboxViolation (message : String) (args : List ErrorArg) : PyError := ⟨.sandboxViolation, message, args⟩

def isLetter (c : CodePoint) : Bool := (0x41 ≤ c.val && c.val ≤ 0x5A) || (0x61 ≤ c.val && c.val ≤ 0x7A)

/-- `_SAFE_NAME.fullmatch(name)`. -/
def isSafeName : PyStr → Bool
  | [] => false
  | c :: rest => isLetter c && rest.length ≤ 63 && rest.all fun d => isLetter d || decide (IsDigit d) || d.val == 0x5F

def forbiddenToolNames : List PyStr :=
  [py "breakpoint", py "compile", py "eval", py "exec", py "globals", py "help", py "input", py "locals", py "open",
    py "vars", py "__import__"]

structure StrictSandbox (W : Type) where
  tools : Dict PyStr (Tool W)
  maxSourceCharacters : ℤ
  maxAstNodes : ℤ
  maxOperations : ℤ
  maxResultCharacters : ℤ
  positive : 0 < maxSourceCharacters ∧ 0 < maxAstNodes ∧ 0 < maxOperations ∧ 0 < maxResultCharacters

section Sandbox
variable {W : Type}

namespace StrictSandbox

def registerTool (sandbox : StrictSandbox W) (name : PyStr) (tool : Tool W) : Except PyError (StrictSandbox W) := do
  refuseIf (isSafeName name = false ∨ name ∈ forbiddenToolNames) (sandboxViolation "unsafe tool name: %r" [.text name])
  refuseIf (name ∈ sandbox.tools.keys) (sandboxViolation "sandbox tool is already registered: %r" [.text name])
  return { sandbox with tools := sandbox.tools.set name tool }

/-- `StrictSandbox(tools, ...)`. -/
def create (tools : List (PyStr × Tool W)) (maxSourceCharacters maxAstNodes maxOperations maxResultCharacters : ℤ) :
    Except PyError (StrictSandbox W) := do
  let ⟨positive⟩ ← require
    (0 < maxSourceCharacters ∧ 0 < maxAstNodes ∧ 0 < maxOperations ∧ 0 < maxResultCharacters)
    ⟨.valueError, "sandbox limits must be positive", []⟩
  tools.foldlM (fun sandbox entry => sandbox.registerTool entry.1 entry.2)
    ⟨.empty, maxSourceCharacters, maxAstNodes, maxOperations, maxResultCharacters, positive⟩

end StrictSandbox

/-! ## The interpreter -/

/-- `_ExpressionEvaluator`, without the operations it counts. -/
structure ExpressionEvaluator (W : Type) where
  operators : Operators
  bindings : Dict PyStr PyValue
  tools : Dict PyStr (Tool W)
  maxResultCharacters : ℤ
  dispatch : Option (ToolDispatch W)

/-- The operations left, and the world the tools act on. -/
structure Meter (W : Type) where
  operations : ℤ
  world : W

def Meter.spent (s : Meter W) : Meter W := { s with operations := s.operations - 1 }

/-- Something that happens outside, without the counter. -/
def outside {α : Type} (x : Op W PyError α) : Op (Meter W) PyError α := fun s =>
  let (outcome, world) := x s.world
  (outcome, { s with world })

def spend : Op (Meter W) PyError Unit := fun s =>
  (refuseIf (s.spent.operations < 0) (sandboxViolation "sandbox operation budget exceeded" []), s.spent)

/-- `isinstance(value, (int, float))`. -/
def isNumber : PyValue → Bool
  | .bool _ | .int _ | .float _ => true
  | _ => false

/-- `isinstance(node.value, (str, int, float, bool, type(None)))`. -/
def isLiteral : PyValue → Bool
  | .none | .bool _ | .int _ | .float _ | .str _ => true
  | _ => false

/-- `isinstance(right, int) and abs(right) <= 16`. -/
def isSafeExponent (right : PyValue) : Bool := (right.integer?.map fun n => decide (n.natAbs ≤ 16)).getD false

/-- The texts among the keys, if all are texts. -/
def textKeys : List PyValue → Option (List PyStr)
  | [] => some []
  | .str key :: rest => (textKeys rest).map (key :: ·)
  | _ :: _ => none

namespace ExpressionEvaluator
variable (ev : ExpressionEvaluator W)

/-- `_bounded`. -/
def bounded (value : PyValue) : Except PyError PyValue := do
  let rendered ← (Canonical.serialize value).mapError fun _ => sandboxViolation "sandbox result is not safe I-JSON" []
  refuseIf (ev.maxResultCharacters < rendered.length) (sandboxViolation "sandbox result-size limit exceeded" [])
  return value

/-- `operation(left, right)` inside `try`: a violation passes, anything else becomes one. -/
def attempt (message : String) (x : Except PyError PyValue) : Except PyError PyValue :=
  (x.mapError fun _ => sandboxViolation message []).bind ev.bounded

/-- `call()`. -/
def callTool (name : PyStr) (tool : Tool W) (args : List PyValue) (kwargs : Dict PyStr PyValue) : Op W PyError PyValue :=
  Op.guarded (tool args kwargs) fun _ => Op.raise (sandboxViolation "sandbox tool %r failed" [.text name])

mutual
/-- `evaluate`. -/
def evaluate : Expr → Op (Meter W) PyError PyValue
  | .constant value => do
    spend
    Op.lift (refuseIf (isLiteral value = false) (sandboxViolation "unsupported literal type" []))
    Op.lift (ev.bounded value)
  | .name id => do
    spend
    Op.lift (orRaise (ev.bindings.get? id) (sandboxViolation "unknown sandbox binding: %r" [.text id]))
  | .list elts => do
    spend
    let items ← evaluateAll elts
    Op.lift (ev.bounded (.list items))
  | .tuple elts => do
    spend
    let items ← evaluateAll elts
    Op.lift (ev.bounded (.list items))
  | .dict keys values => do
    spend
    Op.lift (refuseIf (keys.any fun key => key.isNone) (sandboxViolation "dictionary unpacking is forbidden" []))
    let keyValues ← evaluateKeys keys
    let texts ← Op.lift (orRaise (textKeys keyValues) (sandboxViolation "sandbox dictionary keys must be strings" []))
    Op.lift (refuseIf (¬ texts.Nodup) (sandboxViolation "duplicate sandbox dictionary key" []))
    -- `zip(keys, node.values)`
    let items ← evaluateFirst texts.length values
    Op.lift (ev.bounded (.mapping ((texts.zip items).map fun entry => (.str entry.1, entry.2))))
  | .unaryOp op operand => do
    spend
    let value ← evaluate operand
    if op = .not then return .bool (!truthy value)
    else if op = .uAdd ∧ isNumber value then
      let result ← Op.lift (ev.operators.positive value)
      Op.lift (ev.bounded result)
    else if op = .uSub ∧ isNumber value then
      let result ← Op.lift (ev.operators.negative value)
      Op.lift (ev.bounded result)
    else Op.raise (sandboxViolation "unsupported unary operation" [])
  | .binOp left op right => do
    spend
    if let .other _ := op then Op.raise (sandboxViolation "unsupported binary operation" [])
    else
      let leftValue ← evaluate left
      let rightValue ← evaluate right
      Op.lift (refuseIf (op = .pow ∧ isSafeExponent rightValue = false) (sandboxViolation "unsafe exponent" []))
      Op.lift (ev.attempt "binary operation failed" (ev.operators.binary op leftValue rightValue))
  | .boolOp op values => do
    spend
    evaluateUntil op (.bool (op = .and)) values
  | .compare left ops comparators => do
    spend
    let value ← evaluate left
    let holds ← evaluateChain value ops comparators
    return .bool holds
  | .ifExp test body orelse => do
    spend
    let value ← evaluate test
    if truthy value then evaluate body else evaluate orelse
  | .subscript value index => do
    spend
    let target ← evaluate value
    let key ← evaluate index
    Op.lift (ev.attempt "subscript failed" (ev.operators.subscript target (.key key)))
  | .slice value lower upper step => do
    spend
    let target ← evaluate value
    let lowerValue ← evaluateBound lower
    let upperValue ← evaluateBound upper
    let stepValue ← evaluateBound step
    Op.lift (ev.attempt "subscript failed" (ev.operators.subscript target (.slice lowerValue upperValue stepValue)))
  | .call func args keywords => do
    spend
    match func with
    | .name id =>
      let tool ← Op.lift (orRaise (ev.tools.get? id) (sandboxViolation "only registered tool calls are allowed" []))
      Op.lift (refuseIf (args.any fun arg => arg matches .starred _) (sandboxViolation "argument unpacking is forbidden" []))
      Op.lift (refuseIf (keywords.any fun keyword => keyword.1.isNone)
        (sandboxViolation "keyword unpacking is forbidden" []))
      let argValues ← evaluateAll args
      let kwargs ← evaluateKeywords .empty keywords
      let call := callTool id tool argValues kwargs
      let result ← outside (match ev.dispatch with
        | none => call
        | some dispatch => dispatch id call)
      Op.lift (ev.bounded result)
    | _ => Op.raise (sandboxViolation "only registered tool calls are allowed" [])
  | .starred _ => do
    spend
    Op.raise (sandboxViolation "forbidden syntax: Starred" [])
  | .other typeName => do
    spend
    Op.raise (sandboxViolation ("forbidden syntax: " ++ typeName) [])

def evaluateAll : List Expr → Op (Meter W) PyError (List PyValue)
  | [] => return []
  | item :: rest => do
    let value ← evaluate item
    let values ← evaluateAll rest
    return value :: values

def evaluateFirst : ℕ → List Expr → Op (Meter W) PyError (List PyValue)
  | 0, _ => return []
  | _, [] => return []
  | count + 1, item :: rest => do
    let value ← evaluate item
    let values ← evaluateFirst count rest
    return value :: values

def evaluateKeys : List (Option Expr) → Op (Meter W) PyError (List PyValue)
  | [] => return []
  | none :: rest => evaluateKeys rest
  | some key :: rest => do
    let value ← evaluate key
    let values ← evaluateKeys rest
    return value :: values

def evaluateBound : Option Expr → Op (Meter W) PyError PyValue
  | none => return .none
  | some bound => evaluate bound

/-- The keyword arguments; of two with one name the later one counts. -/
def evaluateKeywords (kwargs : Dict PyStr PyValue) : List (Option PyStr × Expr) → Op (Meter W) PyError (Dict PyStr PyValue)
  | [] => return kwargs
  | (name, argument) :: rest => do
    let value ← evaluate argument
    evaluateKeywords (kwargs.set (name.getD (py "None")) value) rest

/-- The loop of a boolean operator: `result` is returned once it decides, or when nothing is left. -/
def evaluateUntil (op : BoolOperator) (result : PyValue) : List Expr → Op (Meter W) PyError PyValue
  | [] => return result
  | item :: rest => do
    let value ← evaluate item
    if truthy value = decide (op = .and) then evaluateUntil op value rest else return value

/-- The chain of a comparison, which ends at the first that fails. -/
def evaluateChain (left : PyValue) : List CompareOperator → List Expr → Op (Meter W) PyError Bool
  | op :: ops, comparator :: rest => do
    if let .other _ := op then Op.raise (sandboxViolation "unsupported comparison" [])
    else
      let right ← evaluate comparator
      let holds ← Op.lift ((ev.operators.compare op left right).mapError fun _ => sandboxViolation "comparison failed" [])
      if holds then evaluateChain right ops rest else return false
  | _, _ => return true
end

end ExpressionEvaluator

/-- The interpreter a call of `execute` sets up. -/
def StrictSandbox.evaluator (sandbox : StrictSandbox W) (operators : Operators) (dispatch : Option (ToolDispatch W))
    (bindings : Dict PyStr PyValue) : ExpressionEvaluator W :=
  ⟨operators, bindings, sandbox.tools, sandbox.maxResultCharacters, dispatch⟩

/-- `execute`. -/
def StrictSandbox.execute (sandbox : StrictSandbox W) (parse : PyStr → Except String ParsedExpression)
    (operators : Operators) (dispatch : Option (ToolDispatch W)) (expression : PyStr) (bindings : Dict PyStr PyValue) :
    Op W PyError PyValue := do
  Op.lift (refuseIf (strip expression = []) (sandboxViolation "sandbox input must be a non-empty expression" []))
  Op.lift (refuseIf (sandbox.maxSourceCharacters < expression.length)
    (sandboxViolation "sandbox source-size limit exceeded" []))
  let tree ← Op.lift ((parse expression).mapError fun _ => sandboxViolation "sandbox accepts expressions only" [])
  Op.lift (refuseIf (sandbox.maxAstNodes < tree.nodes) (sandboxViolation "sandbox AST-size limit exceeded" []))
  Op.lift (refuseIf (bindings.keys.any fun name => !isSafeName name) (sandboxViolation "unsafe binding name" []))
  fun world =>
    let (outcome, meter) := (sandbox.evaluator operators dispatch bindings).evaluate tree.body ⟨sandbox.maxOperations, world⟩
    (outcome, meter.world)

end Sandbox
end OcorRuntime.Agent

import OcorRuntime.Canonical.UnicodeJson

/-! The context mappings of persisted effects and their JSON. A context may hold anything Python's
`json.dumps` takes: tuples, which it writes as arrays, and dictionaries with keys that are no texts, which
it writes as texts. -/
namespace OcorRuntime.Temporal
open Canonical hiding keyText
open StandardJson
set_option autoImplicit false
set_option maxHeartbeats 250000
set_option maxRecDepth 120000

/-! ## Values -/

inductive ContextKey
  | none
  | bool (b : Bool)
  | int (n : ℤ)
  | float (x : Binary64)
  | str (s : PyStr)
  | other (typeName : String)
deriving DecidableEq

inductive ContextValue
  | none
  | bool (b : Bool)
  | int (n : ℤ)
  | float (x : Binary64)
  | str (s : PyStr)
  | list (items : List ContextValue)
  | tuple (items : List ContextValue)
  | mapping (entries : List (ContextKey × ContextValue))
  | other (typeName : String)

namespace ContextKey

/-- The key as a value, to compare it by. -/
def value : ContextKey → PyValue
  | .none => .none
  | .bool b => .bool b
  | .int n => .int n
  | .float x => .float x
  | .str s => .str s
  | .other name => .other name

/-- `==` between keys. -/
def eq (a b : ContextKey) : Bool := PyValue.pyEq a.value b.value

def isText : ContextKey → Bool
  | .str _ => true
  | _ => false

/-- Numerator and denominator of a numeric key. -/
def ratio : ContextKey → Option (ℤ × ℕ)
  | .bool b => some (if b then 1 else 0, 1)
  | .int n => some (n, 1)
  | .float (.finite x) => some ((if x.neg then -1 else 1) * x.ratio.1, x.ratio.2)
  | .float _ => some (0, 1)
  | _ => Option.none

/-- `<=` between two keys of one kind; a number that is not finite is refused when it is written. -/
def Le (a b : ContextKey) : Prop :=
  match a, b with
  | .str s, .str t => s ≤ t
  | a, b => (a.ratio.getD (0, 1)).1 * (b.ratio.getD (0, 1)).2 ≤ (b.ratio.getD (0, 1)).1 * (a.ratio.getD (0, 1)).2

instance : DecidableRel Le
  | .str s, .str t => inferInstanceAs (Decidable (s ≤ t))
  | .str _, .none | .str _, .bool _ | .str _, .int _ | .str _, .float _ | .str _, .other _ =>
    inferInstanceAs (Decidable (_ ≤ (_ : ℤ)))
  | .none, _ | .bool _, _ | .int _, _ | .float _, _ | .other _, _ => inferInstanceAs (Decidable (_ ≤ (_ : ℤ)))

/-- The text a key is written as. -/
def text : ContextKey → Except PyError PyStr
  | .none => .ok (py "null")
  | .bool true => .ok (py "true")
  | .bool false => .ok (py "false")
  | .int n => dumpInteger n
  | .float (.finite x) => .ok (dumpFloat (.finite x))
  | .float _ => .error ⟨.valueError, "Out of range float values are not JSON compliant", []⟩
  | .str s => .ok s
  | .other name => .error ⟨.typeError, "keys must be str, int, float, bool or None, not %s", [.text (py name)]⟩

end ContextKey

/-! ## Writing -/

/-- The options of `json.dumps` a text depends on; separators are `(",", ":")`, and `allow_nan` is false. -/
structure DumpOptions where
  ensureAscii : Bool
  sortKeys : Bool

def DumpOptions.textOf (o : DumpOptions) (s : PyStr) : PyStr := if o.ensureAscii then asciiText s else stringText s

/-- `sorted` compares only texts with texts and numbers with numbers. -/
def Comparable (keys : List ContextKey) : Prop :=
  keys.length ≤ 1 ∨ (∀ key ∈ keys, key.isText) ∨ ∀ key ∈ keys, key.ratio.isSome

instance (keys : List ContextKey) : Decidable (Comparable keys) := inferInstanceAs (Decidable (_ ∨ _ ∨ _))

def MemberLe {α : Type} (a b : ContextKey × α) : Prop := a.1.Le b.1

instance {α : Type} : DecidableRel (MemberLe (α := α)) := fun a b => inferInstanceAs (Decidable (a.1.Le b.1))

def orderMembers {α : Type} (o : DumpOptions) (members : List (ContextKey × α)) :
    Except PyError (List (ContextKey × α)) := do
  if o.sortKeys then
    refuseIf (¬ Comparable (members.map Prod.fst)) ⟨.typeError, "'<' not supported between instances", []⟩
    return members.insertionSort MemberLe
  else return members

def dumpMember (o : DumpOptions) (member : ContextKey × Except PyError PyStr) : Except PyError PyStr := do
  let key ← member.1.text
  let text ← member.2
  return o.textOf key ++ py ":" ++ text

mutual
def dumps (o : DumpOptions) : ContextValue → Except PyError PyStr
  | .none => .ok (py "null")
  | .bool true => .ok (py "true")
  | .bool false => .ok (py "false")
  | .int n => dumpInteger n
  | .float (.finite x) => .ok (dumpFloat (.finite x))
  | .float _ => .error ⟨.valueError, "Out of range float values are not JSON compliant", []⟩
  | .str s => .ok (o.textOf s)
  | .list items => do
    let texts ← dumpItems o items
    return py "[" ++ joinCommas texts ++ py "]"
  | .tuple items => do
    let texts ← dumpItems o items
    return py "[" ++ joinCommas texts ++ py "]"
  | .mapping entries => do
    let members ← orderMembers o (dumpEntries o entries)
    let texts ← members.mapM (dumpMember o)
    return py "\x7b" ++ joinCommas texts ++ py "\x7d"
  | .other name => .error ⟨.typeError, "Object of type %s is not JSON serializable", [.text (py name)]⟩
def dumpItems (o : DumpOptions) : List ContextValue → Except PyError (List PyStr)
  | [] => .ok []
  | item :: items => do
    let text ← dumps o item
    let texts ← dumpItems o items
    return text :: texts
def dumpEntries (o : DumpOptions) : List (ContextKey × ContextValue) → List (ContextKey × Except PyError PyStr)
  | [] => []
  | (key, item) :: entries => (key, dumps o item) :: dumpEntries o entries
end

attribute [local grind =] dumps dumpItems dumpEntries

/-! ## Reading -/

mutual
/-- A JSON value, as it is read into a context. -/
def ofJson : PyValue → ContextValue
  | .none => .none
  | .bool b => .bool b
  | .int n => .int n
  | .float x => .float x
  | .str s => .str s
  | .list items => .list (ofJsonItems items)
  | .tuple items => .tuple (ofJsonItems items)
  | .mapping entries => .mapping (ofJsonEntries entries)
  | .other name => .other name
def ofJsonItems : List PyValue → List ContextValue
  | [] => []
  | item :: items => ofJson item :: ofJsonItems items
def ofJsonEntries : List (MappingKey × PyValue) → List (ContextKey × ContextValue)
  | [] => []
  | (.str key, item) :: entries => (.str key, ofJson item) :: ofJsonEntries entries
  | (.other _, item) :: entries => (.other "object", ofJson item) :: ofJsonEntries entries
end

attribute [local grind =] ofJson ofJsonItems ofJsonEntries

/-- `json.loads`. -/
def loadsContext (text : PyStr) : Except PyError ContextValue := do
  let value ← loads text
  return ofJson value

/-! ## Equality -/

namespace ContextValue

/-- The entry of a key that equals `key`. -/
def find : List (ContextKey × ContextValue) → ContextKey → Option ContextValue
  | [], _ => Option.none
  | (k, value) :: rest, key => if k.eq key then some value else find rest key

/-- The number a value stands for, for `PyValue.numberEq`. -/
def number : ContextValue → PyValue
  | .bool b => .bool b
  | .int n => .int n
  | .float x => .float x
  | _ => .none

mutual
/-- Python's `==`. -/
def pyEq : ContextValue → ContextValue → Bool
  | .none, .none => true
  | .str a, .str b => a == b
  | .list a, .list b => pyEqItems a b
  | .tuple a, .tuple b => pyEqItems a b
  | .mapping a, .mapping b => a.length == b.length && pyEqEntries a b
  | .other a, .other b => a == b
  | a, b => PyValue.numberEq a.number b.number
def pyEqItems : List ContextValue → List ContextValue → Bool
  | [], [] => true
  | a :: as, b :: bs => pyEq a b && pyEqItems as bs
  | _, _ => false
def pyEqEntries : List (ContextKey × ContextValue) → List (ContextKey × ContextValue) → Bool
  | [], _ => true
  | (k, a) :: as, bs =>
    (match find bs k with
      | some b => pyEq a b
      | Option.none => false) && pyEqEntries as bs
end

attribute [local grind =] pyEq pyEqItems pyEqEntries

end ContextValue

example : dumps ⟨false, true⟩ (.mapping [(.int 10, .tuple [.none]), (.int 9, .bool true)]) =
    .ok (py "\x7b\"9\":true,\"10\":[null]\x7d") := by decide

end OcorRuntime.Temporal

import OcorRuntime.Base.Errors
import OcorRuntime.Foundations.Numbers

/-! The values the runtime accepts as documents, payloads and canonicalization
inputs, with Python's equality on them. Frozen mappings (`MappingProxyType`) and
dictionaries are one constructor, lists and tuples are two. -/
namespace OcorRuntime
set_option autoImplicit false
set_option maxHeartbeats 250000

inductive MappingKey
  | str (s : PyStr)
  | other (index : ℕ)
deriving DecidableEq

inductive PyValue
  | none
  | bool (b : Bool)
  | int (n : ℤ)
  | float (x : Binary64)
  | str (s : PyStr)
  | list (items : List PyValue)
  | tuple (items : List PyValue)
  | mapping (entries : List (MappingKey × PyValue))
  | other (typeName : String)

namespace PyValue

/-! ## Induction -/

@[elab_as_elim] theorem induct_on {P : PyValue → Prop} (none : P .none) (bool : ∀ b, P (.bool b))
    (int : ∀ n, P (.int n)) (float : ∀ x, P (.float x)) (str : ∀ s, P (.str s))
    (list : ∀ xs, (∀ x ∈ xs, P x) → P (.list xs)) (tuple : ∀ xs, (∀ x ∈ xs, P x) → P (.tuple xs))
    (mapping : ∀ es, (∀ e ∈ es, P e.2) → P (.mapping es)) (other : ∀ t, P (.other t)) (v : PyValue) : P v := by
  refine @PyValue.rec P (fun xs => ∀ x ∈ xs, P x) (fun es => ∀ e ∈ es, P e.2) (fun e => P e.2)
    none bool int float str list tuple mapping other ?_ ?_ ?_ ?_ (fun _ _ h => h) v
  · simp
  · intro head tail hhead htail x hx
    rcases List.mem_cons.mp hx with rfl | hx
    · exact hhead
    · exact htail x hx
  · simp
  · intro head tail hhead htail e he
    rcases List.mem_cons.mp he with rfl | he
    · exact hhead
    · exact htail e he

/-! ## Structural equality is decidable -/

mutual
def same : PyValue → PyValue → Bool
  | .none, .none => true
  | .bool a, .bool b => a == b
  | .int a, .int b => a == b
  | .float a, .float b => decide (a = b)
  | .str a, .str b => a == b
  | .list a, .list b => sameItems a b
  | .tuple a, .tuple b => sameItems a b
  | .mapping a, .mapping b => sameEntries a b
  | .other a, .other b => a == b
  | _, _ => false
def sameItems : List PyValue → List PyValue → Bool
  | [], [] => true
  | a :: as, b :: bs => same a b && sameItems as bs
  | _, _ => false
def sameEntries : List (MappingKey × PyValue) → List (MappingKey × PyValue) → Bool
  | [], [] => true
  | (k, a) :: as, (j, b) :: bs => decide (k = j) && same a b && sameEntries as bs
  | _, _ => false
end

attribute [local grind =] same sameItems sameEntries

mutual
theorem same_iff : ∀ a b : PyValue, same a b = true ↔ a = b
  | .none, b => by cases b <;> simp [same]
  | .bool _, b => by cases b <;> simp [same]
  | .int _, b => by cases b <;> simp [same]
  | .float _, b => by cases b <;> simp [same]
  | .str _, b => by cases b <;> simp [same]
  | .list as, b => by cases b <;> simp [same, sameItems_iff as]
  | .tuple as, b => by cases b <;> simp [same, sameItems_iff as]
  | .mapping as, b => by cases b <;> simp [same, sameEntries_iff as]
  | .other _, b => by cases b <;> simp [same]
theorem sameItems_iff : ∀ as bs : List PyValue, sameItems as bs = true ↔ as = bs
  | [], bs => by cases bs <;> simp [sameItems]
  | a :: as, bs => by cases bs <;> simp [sameItems, same_iff a, sameItems_iff as]
theorem sameEntries_iff : ∀ as bs : List (MappingKey × PyValue), sameEntries as bs = true ↔ as = bs
  | [], bs => by cases bs <;> simp [sameEntries]
  | (k, a) :: as, bs => by
      cases bs with
      | nil => simp [sameEntries]
      | cons p bs => simp [sameEntries, same_iff a, sameEntries_iff as, Prod.ext_iff]
end

instance : DecidableEq PyValue := fun a b => decidable_of_iff (same a b = true) (same_iff a b)

/-! ## Python's `==` -/

/-- The integer a boolean or an integer stands for. -/
def integer? : PyValue → Option ℤ
  | .bool b => some (if b then 1 else 0)
  | .int n => some n
  | _ => Option.none

/-- `==` between two floats: zeros are equal, not-a-number equals nothing. -/
def floatEq : Binary64 → Binary64 → Bool
  | .finite x, .finite y => decide (x = y) || (decide x.IsZero && decide y.IsZero)
  | .infinite a, .infinite b => a == b
  | _, _ => false

def numberEq (a b : PyValue) : Bool :=
  match a, b with
  | .float x, .float y => floatEq x y
  | .float (.finite x), b => (b.integer?.map fun n => decide (x.EqInt n)).getD false
  | a, .float (.finite y) => (a.integer?.map fun n => decide (y.EqInt n)).getD false
  | a, b => match a.integer?, b.integer? with
    | some m, some n => m == n
    | _, _ => false

mutual
def pyEq : PyValue → PyValue → Bool
  | .none, .none => true
  | .str a, .str b => a == b
  | .list a, .list b => pyEqItems a b
  | .tuple a, .tuple b => pyEqItems a b
  | .mapping a, .mapping b => a.length == b.length && pyEqEntries a b
  | .other a, .other b => a == b
  | a, b => numberEq a b
def pyEqItems : List PyValue → List PyValue → Bool
  | [], [] => true
  | a :: as, b :: bs => pyEq a b && pyEqItems as bs
  | _, _ => false
def pyEqEntries : List (MappingKey × PyValue) → List (MappingKey × PyValue) → Bool
  | [], _ => true
  | (k, a) :: as, bs =>
    (match Dict.find bs k with
      | some b => pyEq a b
      | Option.none => false) && pyEqEntries as bs
end

attribute [local grind =] pyEq pyEqItems pyEqEntries

theorem pyEqEntries_iff (es bs : List (MappingKey × PyValue)) :
    pyEqEntries es bs = true ↔ ∀ e ∈ es, ∃ b, Dict.find bs e.1 = some b ∧ pyEq e.2 b = true := by
  induction es with
  | nil => simp [pyEqEntries]
  | cons e es ih =>
    obtain ⟨k, a⟩ := e
    rw [pyEqEntries, Bool.and_eq_true, ih, List.forall_mem_cons]
    cases Dict.find bs k with
    | none => simp
    | some b => simp

/-- Equality inside a dataclass or a tuple: identical objects are equal without a comparison. -/
def fieldEq (a b : PyValue) : Bool := decide (a = b) || pyEq a b

theorem fieldEq_self (a : PyValue) : fieldEq a a = true := by simp [fieldEq]

end PyValue
end OcorRuntime

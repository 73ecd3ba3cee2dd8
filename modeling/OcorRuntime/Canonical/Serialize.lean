import Mathlib.Data.List.Sort
import OcorRuntime.Canonical.Value
import OcorRuntime.Foundations.Sha256

/-! RFC 8785 canonicalization (`canonical.py`): string escapes, UTF-16 key order,
integers and floats, and the recursive serializer. -/
namespace OcorRuntime.Canonical
set_option autoImplicit false
set_option maxHeartbeats 250000

def maxSafeInteger : ℕ := 9007199254740991

def canonicalizationError (message : String) : PyError := ⟨.canonicalizationError, message, []⟩

/-! ## Strings -/

def validateScalarString (value : PyStr) : Except PyError Unit :=
  if Scalar value then .ok () else .error (canonicalizationError "lone UTF-16 surrogate is not valid I-JSON")

def quote : CodePoint := codePoint 0x22
def backslash : CodePoint := codePoint 0x5C

/-- One character of a string literal: the escape table, then `\u00xx` for the other controls. -/
def escapeChar (c : CodePoint) : PyStr :=
  if c.val = 0x22 then [backslash, quote]
  else if c.val = 0x5C then [backslash, backslash]
  else if c.val = 0x08 then backslash :: py "b"
  else if c.val = 0x09 then backslash :: py "t"
  else if c.val = 0x0A then backslash :: py "n"
  else if c.val = 0x0C then backslash :: py "f"
  else if c.val = 0x0D then backslash :: py "r"
  else if c.val ≤ 0x1F then
    backslash :: py "u" ++ [hexDigit 0, hexDigit 0, hexDigit (c.val / 16), hexDigit (c.val % 16)]
  else [c]

def stringText (value : PyStr) : PyStr := quote :: value.flatMap escapeChar ++ [quote]

def serializeString (value : PyStr) : Except PyError PyStr := do
  validateScalarString value
  return stringText value

def utf16SortKey (value : PyStr) : Except PyError Bytes := do
  validateScalarString value
  return utf16BeEncode value

/-! ## Numbers -/

/-- `while len(digits) > 1 and digits.startswith("0")`, moving the decimal position along. -/
def stripLeadingZeros : PyStr → ℤ → PyStr × ℤ
  | c :: d :: rest, position =>
    if c = digitChar 0 then stripLeadingZeros (d :: rest) (position - 1) else (c :: d :: rest, position)
  | digits, position => (digits, position)

attribute [local grind =] stripLeadingZeros

/-- `while len(digits) > 1 and digits.endswith("0")`. -/
def stripTrailingZeros (digits : PyStr) : PyStr := (stripLeadingZeros digits.reverse 0).1.reverse

def exponentValue (text : PyStr) : ℤ :=
  match text with
  | c :: rest =>
    if c = codePoint 0x2D then -(digitsValue rest : ℤ)
    else if c = codePoint 0x2B then digitsValue rest
    else digitsValue (c :: rest)
  | [] => 0

/-- `text.split(c, 1)` when `c` occurs. -/
def splitOnce (c : CodePoint) (text : PyStr) : PyStr × PyStr :=
  (text.takeWhile (· ≠ c), (text.dropWhile (· ≠ c)).drop 1)

/-- The ECMAScript layout of a rendered positive finite value. -/
def layoutFloat (rendered : PyStr) : PyStr :=
  let e := codePoint 0x65
  let point := codePoint 0x2E
  let (mantissa, exponent) :=
    if e ∈ rendered then ((splitOnce e rendered).1, exponentValue (splitOnce e rendered).2) else (rendered, 0)
  let (digits, decimalPosition) :=
    if point ∈ mantissa then
      let (integerPart, fractionPart) := splitOnce point mantissa
      (integerPart ++ fractionPart, (integerPart.length : ℤ) + exponent)
    else (mantissa, (mantissa.length : ℤ) + exponent)
  let (digits, decimalPosition) := stripLeadingZeros digits decimalPosition
  let digits := stripTrailingZeros digits
  let scientificExponent := decimalPosition - 1
  if 21 ≤ scientificExponent ∨ scientificExponent ≤ -7 then
    let coefficient := digits.take 1 ++ (if 1 < digits.length then py "." ++ digits.drop 1 else [])
    coefficient ++ py "e" ++ (if 0 ≤ scientificExponent then py "+" else []) ++ intText scientificExponent
  else if decimalPosition ≤ 0 then
    py "0." ++ List.replicate decimalPosition.natAbs (digitChar 0) ++ digits
  else if (digits.length : ℤ) ≤ decimalPosition then
    digits ++ List.replicate (decimalPosition.toNat - digits.length) (digitChar 0)
  else digits.take decimalPosition.toNat ++ py "." ++ digits.drop decimalPosition.toNat

def serializeFloat (value : Binary64) : Except PyError PyStr :=
  match value with
  | .finite x =>
    if x.IsZero then .ok (py "0")
    else .ok ((if x.neg then py "-" else []) ++ layoutFloat x.reprAbs)
  | _ => .error (canonicalizationError "NaN and Infinity are not valid I-JSON numbers")

def serializeInteger (value : ℤ) : Except PyError PyStr :=
  if value.natAbs ≤ maxSafeInteger then .ok (intText value)
  else match Binary64.ofInt value with
    | .finite x =>
      if x.EqInt value then serializeFloat (.finite x)
      else .error (canonicalizationError "integer is not exactly representable as an IEEE-754 binary64 value")
    | _ => .error (canonicalizationError "integer is not representable as an IEEE-754 binary64 value")

/-! ## Values -/

def MappingKey.str? : MappingKey → Option PyStr
  | .str s => some s
  | .other _ => none

/-- `",".join(parts)`. -/
def joinCommas (parts : List PyStr) : PyStr := (py ",").intercalate parts

/-- The order of `sorted(value, key=_utf16_sort_key)`. -/
def KeyLe {α : Type} (a b : PyStr × α) : Prop := utf16BeEncode a.1 ≤ utf16BeEncode b.1

instance {α : Type} : DecidableRel (KeyLe (α := α)) := fun _ _ => inferInstanceAs (Decidable (_ ≤ _))

/-- One `"key":value` member, its key escaped before its value is looked at. -/
def member (entry : PyStr × Except PyError PyStr) : Except PyError PyStr := do
  let key ← serializeString entry.1
  let value ← entry.2
  return key ++ py ":" ++ value

mutual
def serialize : PyValue → Except PyError PyStr
  | .none => .ok (py "null")
  | .bool true => .ok (py "true")
  | .bool false => .ok (py "false")
  | .str s => serializeString s
  | .int n => serializeInteger n
  | .float x => serializeFloat x
  | .mapping entries =>
    if ∀ entry ∈ entries, (MappingKey.str? entry.1).isSome then do
      -- every sort key is computed, in iteration order, before the first member is written
      let _ ← (serializeEntries entries).mapM fun entry => utf16SortKey entry.1
      let members ← ((serializeEntries entries).insertionSort KeyLe).mapM member
      return py "\x7b" ++ joinCommas members ++ py "\x7d"
    else .error (canonicalizationError "JSON object keys must be strings")
  | .list items => do
    let parts ← serializeItems items
    return py "[" ++ joinCommas parts ++ py "]"
  | .tuple items => do
    let parts ← serializeItems items
    return py "[" ++ joinCommas parts ++ py "]"
  | .other typeName =>
    .error ⟨.canonicalizationError, "value of type %r is not an I-JSON value", [.text (py typeName)]⟩
def serializeItems : List PyValue → Except PyError (List PyStr)
  | [] => .ok []
  | item :: items => do
    let part ← serialize item
    let parts ← serializeItems items
    return part :: parts
/-- Each string key with the outcome of serializing its value; the outcomes are looked at in key order. -/
def serializeEntries : List (MappingKey × PyValue) → List (PyStr × Except PyError PyStr)
  | [] => []
  | (.str key, value) :: entries => (key, serialize value) :: serializeEntries entries
  | (.other _, _) :: entries => serializeEntries entries
end

attribute [local grind =] serialize serializeItems serializeEntries

def canonicalize (value : PyValue) : Except PyError Bytes := do
  let text ← serialize value
  return utf8Encode text

def canonicalSha256 (value : PyValue) : Except PyError PyStr := do
  let bytes ← canonicalize value
  return Sha256.hexdigest bytes

end OcorRuntime.Canonical

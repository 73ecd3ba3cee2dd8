import OcorRuntime.Canonical.JsonLoads

/-! Python's own `json.dumps(value, sort_keys=True, separators=(",", ":"))` and `json.loads`, without
the hooks of the canonical boundary: text is written in ASCII, the last of two equal keys wins, and
every number is read. Nesting is not bounded here. -/
namespace OcorRuntime.StandardJson
open Canonical
set_option autoImplicit false
set_option maxHeartbeats 250000
set_option maxRecDepth 120000

/-! ## Writing -/

def unicodeEscape (n : ℕ) : PyStr :=
  [backslash, codePoint 0x75, hexDigit (n / 4096 % 16), hexDigit (n / 256 % 16), hexDigit (n / 16 % 16),
    hexDigit (n % 16)]

/-- One character of `encode_basestring_ascii`. -/
def asciiChar (c : CodePoint) : PyStr :=
  if c.val = 0x22 then [backslash, quote]
  else if c.val = 0x5C then [backslash, backslash]
  else if c.val = 0x08 then [backslash, codePoint 0x62]
  else if c.val = 0x09 then [backslash, codePoint 0x74]
  else if c.val = 0x0A then [backslash, codePoint 0x6E]
  else if c.val = 0x0C then [backslash, codePoint 0x66]
  else if c.val = 0x0D then [backslash, codePoint 0x72]
  else if 0x20 ≤ c.val ∧ c.val ≤ 0x7E then [c]
  else if c.val < 0x10000 then unicodeEscape c.val
  else unicodeEscape (0xD800 + (c.val - 0x10000) / 0x400) ++ unicodeEscape (0xDC00 + (c.val - 0x10000) % 0x400)

def asciiText (s : PyStr) : PyStr := quote :: s.flatMap asciiChar ++ [quote]

/-- The digits a conversion between `int` and `str` may have (`sys.int_info.default_max_str_digits`). -/
def maxStrDigits : ℕ := 4300

def dumpInteger (n : ℤ) : Except PyError PyStr := do
  refuseIf (10 ^ maxStrDigits ≤ n.natAbs) ⟨.valueError, "Exceeds the limit (4300 digits) for integer string conversion", []⟩
  return intText n

/-- `float.__repr__`, with the constants of JavaScript. -/
def dumpFloat : Binary64 → PyStr
  | .nan => py "NaN"
  | .infinite neg => py (if neg then "-Infinity" else "Infinity")
  | .finite x => (if x.neg then py "-" else []) ++ x.reprAbs

/-- Members are sorted by their keys, code point by code point. -/
def MemberLe {α : Type} (a b : PyStr × α) : Prop := a.1 ≤ b.1

instance {α : Type} : DecidableRel (MemberLe (α := α)) := fun a b => inferInstanceAs (Decidable (a.1 ≤ b.1))

def dumpMember (entry : PyStr × Except PyError PyStr) : Except PyError PyStr := do
  let text ← entry.2
  return asciiText entry.1 ++ py ":" ++ text

mutual
def dumps : PyValue → Except PyError PyStr
  | .none => .ok (py "null")
  | .bool true => .ok (py "true")
  | .bool false => .ok (py "false")
  | .int n => dumpInteger n
  | .float x => .ok (dumpFloat x)
  | .str s => .ok (asciiText s)
  | .list items => do
    let texts ← dumpItems items
    return py "[" ++ joinCommas texts ++ py "]"
  | .tuple items => do
    let texts ← dumpItems items
    return py "[" ++ joinCommas texts ++ py "]"
  | .mapping entries => do
    refuseIf (¬ entries.all fun entry => (MappingKey.str? entry.1).isSome) ⟨.typeError, "keys must be str", []⟩
    let texts ← ((dumpEntries entries).insertionSort MemberLe).mapM dumpMember
    return py "\x7b" ++ joinCommas texts ++ py "\x7d"
  | .other name => .error ⟨.typeError, "Object of type %s is not JSON serializable", [.text (py name)]⟩
def dumpItems : List PyValue → Except PyError (List PyStr)
  | [] => .ok []
  | item :: items => do
    let text ← dumps item
    let texts ← dumpItems items
    return text :: texts
def dumpEntries : List (MappingKey × PyValue) → List (PyStr × Except PyError PyStr)
  | [] => []
  | (.str key, item) :: entries => (key, dumps item) :: dumpEntries entries
  | (.other _, _) :: entries => dumpEntries entries
end

attribute [local grind =] dumps dumpItems dumpEntries

/-! ## Reading -/

/-- `dict(pairs)`: the last of two equal keys wins. -/
def dictOf (pairs : List (PyStr × PyValue)) : PyValue :=
  .mapping (pairs.foldl (fun es pair => Dict.put (.str pair.1) pair.2 es) [])

def loadInteger (neg : Bool) (digits : PyStr) : Except JsonFault PyValue :=
  if maxStrDigits < digits.length then .error .decode
  else .ok (.int (if neg then -(digitsValue digits : ℤ) else digitsValue digits))

def loadUnsigned (neg : Bool) (s : PyStr) : Except JsonFault (PyValue × PyStr) :=
  match scanDigits s with
  | none => .error .decode
  | some (digits, rest) =>
    let (fraction, rest) := scanFraction rest
    let (exponent, rest) := scanExponent rest
    if fraction = [] ∧ exponent = none then (loadInteger neg digits).map fun v => (v, rest)
    else .ok (.float (Binary64.ofDecimal neg (digitsValue (digits ++ fraction))
      (exponent.getD 0 - fraction.length)), rest)

def loadNumber : PyStr → Except JsonFault (PyValue × PyStr)
  | c :: rest => if c.val = 0x2D then loadUnsigned true rest else loadUnsigned false (c :: rest)
  | [] => .error .decode

mutual
/-- One value at the head of the text. The fuel bounds the nesting and the number of members. -/
def loadOnce : ℕ → PyStr → Except JsonFault (PyValue × PyStr)
  | 0, _ => .error .decode
  | _ + 1, [] => .error .decode
  | fuel + 1, c :: rest =>
    if c.val = 0x22 then (scanString rest).map fun r => (.str r.1, r.2)
    else if c.val = 0x7B then
      match skipSpace rest with
      | [] => .error .decode
      | d :: rest =>
        if d.val = 0x7D then .ok (dictOf [], rest)
        else (loadMembers fuel (d :: rest)).map fun r => (dictOf r.1, r.2)
    else if c.val = 0x5B then
      match skipSpace rest with
      | [] => .error .decode
      | d :: rest =>
        if d.val = 0x5D then .ok (.list [], rest)
        else (loadItems fuel (d :: rest)).map fun r => (.list r.1, r.2)
    else if py "null" <+: c :: rest then .ok (.none, (c :: rest).drop 4)
    else if py "true" <+: c :: rest then .ok (.bool true, (c :: rest).drop 4)
    else if py "false" <+: c :: rest then .ok (.bool false, (c :: rest).drop 5)
    else if py "NaN" <+: c :: rest then .ok (.float .nan, (c :: rest).drop 3)
    else if py "Infinity" <+: c :: rest then .ok (.float (.infinite false), (c :: rest).drop 8)
    else if py "-Infinity" <+: c :: rest then .ok (.float (.infinite true), (c :: rest).drop 9)
    else loadNumber (c :: rest)
def loadItems : ℕ → PyStr → Except JsonFault (List PyValue × PyStr)
  | 0, _ => .error .decode
  | fuel + 1, s => do
    let (value, s) ← loadOnce fuel s
    match skipSpace s with
    | c :: rest =>
      if c.val = 0x5D then return ([value], rest)
      else if c.val = 0x2C then
        let (values, rest) ← loadItems fuel (skipSpace rest)
        return (value :: values, rest)
      else .error .decode
    | [] => .error .decode
def loadMembers : ℕ → PyStr → Except JsonFault (List (PyStr × PyValue) × PyStr)
  | 0, _ => .error .decode
  | fuel + 1, s =>
    match s with
    | [] => .error .decode
    | c :: rest =>
      if c.val = 0x22 then do
        let (key, rest) ← scanString rest
        match skipSpace rest with
        | colon :: rest =>
          if colon.val = 0x3A then
            let (value, rest) ← loadOnce fuel (skipSpace rest)
            match skipSpace rest with
            | d :: rest =>
              if d.val = 0x7D then return ([(key, value)], rest)
              else if d.val = 0x2C then
                let (pairs, rest) ← loadMembers fuel (skipSpace rest)
                return ((key, value) :: pairs, rest)
              else .error .decode
            | [] => .error .decode
          else .error .decode
        | [] => .error .decode
      else .error .decode
end

attribute [local grind =] loadOnce loadItems loadMembers

/-- `json.loads` of a text; a text with the byte order mark of UTF-8 is refused. -/
def loads (s : PyStr) : Except PyError PyValue :=
  match (if [codePoint 0xFEFF] <+: s then .error .decode else do
      let (value, rest) ← loadOnce (s.length + 1) (skipSpace s)
      if skipSpace rest = [] then return value else .error .decode : Except JsonFault PyValue) with
  | .ok value => .ok value
  | .error _ => .error ⟨.valueError, "JSONDecodeError", []⟩

example : dumps (.mapping [(.str (py "b"), .int (-7)), (.str (py "a"), .list [.none, .str [codePoint 0x1F600]])]) =
    .ok (py "\x7b\"a\":[null,\"\\ud83d\\ude00\"],\"b\":-7\x7d") := by decide +kernel

example : loads (py "\x7b\"a\": 1, \"a\": [true]\x7d") = .ok (.mapping [(.str (py "a"), .list [.bool true])]) := by
  decide +kernel

end OcorRuntime.StandardJson

import OcorRuntime.Canonical.Serialize

/-! Parsing: `json.loads` with the hooks `load_i_json` installs (duplicate keys,
non-finite constants, integers kept to the binary64 domain), and `load_i_json`
itself. The scanner follows RFC 8259 and the standard library's extensions to it:
the constants `NaN`, `Infinity` and `-Infinity`, and detection of UTF-16 and
UTF-32 input. -/
namespace OcorRuntime.Canonical
set_option autoImplicit false
set_option maxHeartbeats 250000

/-- Why `json.loads` stopped: a decoding error of its own, or an exception of a hook. -/
inductive JsonFault
  | decode
  | hook (error : PyError)
deriving DecidableEq

/-! ## Encodings -/

inductive Encoding
  | utf8
  | utf8Sig
  | utf16
  | utf16Be
  | utf16Le
  | utf32
  | utf32Be
  | utf32Le
deriving DecidableEq

/-- `b.startswith(mark)`. -/
def StartsWith (mark : List ℕ) (b : Bytes) : Prop := mark <+: b.map Fin.val

instance (mark : List ℕ) (b : Bytes) : Decidable (StartsWith mark b) := inferInstanceAs (Decidable (_ <+: _))

/-- `json.detect_encoding`. -/
def detectEncoding (b : Bytes) : Encoding :=
  if StartsWith [0x00, 0x00, 0xFE, 0xFF] b ∨ StartsWith [0xFF, 0xFE, 0x00, 0x00] b then .utf32
  else if StartsWith [0xFE, 0xFF] b ∨ StartsWith [0xFF, 0xFE] b then .utf16
  else if StartsWith [0xEF, 0xBB, 0xBF] b then .utf8Sig
  else match b with
    | b0 :: b1 :: b2 :: b3 :: _ =>
      if b0.val = 0 then (if b1.val = 0 then .utf32Be else .utf16Be)
      else if b1.val = 0 then (if b2.val = 0 ∧ b3.val = 0 then .utf32Le else .utf16Le)
      else .utf8
    | [b0, b1] => if b0.val = 0 then .utf16Be else if b1.val = 0 then .utf16Le else .utf8
    | _ => .utf8

/-- UTF-16 units joined where a high unit is followed by a low one; lone surrogates pass. -/
def joinUnits : List ℕ → PyStr
  | u :: v :: rest =>
    if 0xD800 ≤ u ∧ u ≤ 0xDBFF ∧ 0xDC00 ≤ v ∧ v ≤ 0xDFFF then
      codePoint (0x10000 + (u - 0xD800) * 0x400 + (v - 0xDC00)) :: joinUnits rest
    else codePoint u :: joinUnits (v :: rest)
  | [u] => [codePoint u]
  | [] => []

def utf16Decode (bigEndian : Bool) : Bytes → Option (List ℕ)
  | [] => some []
  | a :: b :: rest =>
    (utf16Decode bigEndian rest).map ((if bigEndian then a.val * 256 + b.val else b.val * 256 + a.val) :: ·)
  | _ => none

def utf32Decode (bigEndian : Bool) : Bytes → Option PyStr
  | [] => some []
  | a :: b :: c :: d :: rest =>
    let n := if bigEndian then ((a.val * 256 + b.val) * 256 + c.val) * 256 + d.val
      else ((d.val * 256 + c.val) * 256 + b.val) * 256 + a.val
    if n < 0x110000 then (utf32Decode bigEndian rest).map (codePoint n :: ·) else none
  | _ => none

/-- `b.decode(encoding, "surrogatepass")`. -/
def decodeBytes (b : Bytes) : Encoding → Option PyStr
  | .utf8 => utf8Decode b
  | .utf8Sig => utf8Decode (b.drop 3)
  | .utf16 => (utf16Decode (decide (StartsWith [0xFE, 0xFF] b)) (b.drop 2)).map joinUnits
  | .utf16Be => (utf16Decode true b).map joinUnits
  | .utf16Le => (utf16Decode false b).map joinUnits
  | .utf32 => utf32Decode (decide (StartsWith [0x00, 0x00, 0xFE, 0xFF] b)) (b.drop 4)
  | .utf32Be => utf32Decode true b
  | .utf32Le => utf32Decode false b

/-! ## The hooks of `load_i_json` -/

def rejectDuplicateKeys (pairs : List (PyStr × PyValue)) : Except JsonFault PyValue :=
  if (pairs.map Prod.fst).Nodup then .ok (.mapping (pairs.map fun pair => (.str pair.1, pair.2)))
  else .error (.hook (canonicalizationError "duplicate object key"))

def rejectConstant (value : String) : Except JsonFault PyValue :=
  .error (.hook ⟨.canonicalizationError, "non-finite JSON constant: %s", [.text (py value)]⟩)

/-- `parse_integer`: the text's binary64 value decides whether it stays an integer. -/
def parseInteger (neg : Bool) (digits : PyStr) : Except JsonFault PyValue :=
  match Binary64.ofRatio neg (digitsValue digits) 1 with
  | .finite x =>
    if x.AbsLe maxSafeInteger then
      .ok (.int (if neg then -(digitsValue digits : ℤ) else digitsValue digits))
    else .ok (.float (.finite x))
  | _ => .error (.hook (canonicalizationError "integer is not representable as an IEEE-754 binary64 value"))

/-! ## The scanner -/

def IsSpace (c : CodePoint) : Prop := c.val = 0x20 ∨ c.val = 0x09 ∨ c.val = 0x0A ∨ c.val = 0x0D

instance (c : CodePoint) : Decidable (IsSpace c) := inferInstanceAs (Decidable (_ ∨ _))

def skipSpace (s : PyStr) : PyStr := s.dropWhile fun c => IsSpace c

def hexValue (c : CodePoint) : Option ℕ :=
  if 48 ≤ c.val ∧ c.val ≤ 57 then some (c.val - 48)
  else if 97 ≤ c.val ∧ c.val ≤ 102 then some (c.val - 87)
  else if 65 ≤ c.val ∧ c.val ≤ 70 then some (c.val - 55)
  else none

def hexFour (a b c d : CodePoint) : Option ℕ := do
  return (((← hexValue a) * 16 + (← hexValue b)) * 16 + (← hexValue c)) * 16 + (← hexValue d)

def simpleEscape (c : CodePoint) : Option CodePoint :=
  if c.val = 0x22 ∨ c.val = 0x5C ∨ c.val = 0x2F then some c
  else if c.val = 0x62 then some (codePoint 0x08)
  else if c.val = 0x66 then some (codePoint 0x0C)
  else if c.val = 0x6E then some (codePoint 0x0A)
  else if c.val = 0x72 then some (codePoint 0x0D)
  else if c.val = 0x74 then some (codePoint 0x09)
  else none

/-- A string literal after its opening quote: its characters, each with whether it was written
as a `\u` escape, and the text after the closing quote. -/
def scanChars : PyStr → Except JsonFault (List (Bool × CodePoint) × PyStr)
  | [] => .error .decode
  | c :: rest =>
    if c = quote then .ok ([], rest)
    else if c = backslash then
      match rest with
      | [] => .error .decode
      | e :: rest =>
        match simpleEscape e with
        | some plain => (scanChars rest).map fun r => ((false, plain) :: r.1, r.2)
        | none =>
          if e.val = 0x75 then
            match rest with
            | h1 :: h2 :: h3 :: h4 :: rest =>
              match hexFour h1 h2 h3 h4 with
              | some n => (scanChars rest).map fun r => ((true, codePoint n) :: r.1, r.2)
              | none => .error .decode
            | _ => .error .decode
          else .error .decode
    else if c.val ≤ 0x1F then .error .decode
    else (scanChars rest).map fun r => ((false, c) :: r.1, r.2)

/-- An escaped high surrogate followed by an escaped low one is a single character. -/
def joinSurrogates : List (Bool × CodePoint) → PyStr
  | (e, u) :: (f, v) :: rest =>
    if e ∧ f ∧ 0xD800 ≤ u.val ∧ u.val ≤ 0xDBFF ∧ 0xDC00 ≤ v.val ∧ v.val ≤ 0xDFFF then
      codePoint (0x10000 + (u.val - 0xD800) * 0x400 + (v.val - 0xDC00)) :: joinSurrogates rest
    else u :: joinSurrogates ((f, v) :: rest)
  | [(_, u)] => [u]
  | [] => []

def scanString (s : PyStr) : Except JsonFault (PyStr × PyStr) :=
  (scanChars s).map fun r => (joinSurrogates r.1, r.2)

def takeDigits (s : PyStr) : PyStr := s.takeWhile fun c => IsDigit c
def dropDigits (s : PyStr) : PyStr := s.dropWhile fun c => IsDigit c

/-- `0|[1-9][0-9]*` -/
def scanDigits : PyStr → Option (PyStr × PyStr)
  | [] => none
  | c :: rest =>
    if c = digitChar 0 then some ([c], rest)
    else if IsDigit c then some (c :: takeDigits rest, dropDigits rest)
    else none

/-- `(\.[0-9]+)?`, without the point. -/
def scanFraction (s : PyStr) : PyStr × PyStr :=
  match s with
  | c :: rest => if c.val = 0x2E ∧ takeDigits rest ≠ [] then (takeDigits rest, dropDigits rest) else ([], s)
  | [] => ([], [])

/-- `([eE][-+]?[0-9]+)?`, as its value. -/
def scanExponent (s : PyStr) : Option ℤ × PyStr :=
  match s with
  | c :: rest =>
    if c.val = 0x65 ∨ c.val = 0x45 then
      match rest with
      | d :: after =>
        if d.val = 0x2D ∧ takeDigits after ≠ [] then (some (-(digitsValue (takeDigits after) : ℤ)), dropDigits after)
        else if d.val = 0x2B ∧ takeDigits after ≠ [] then (some (digitsValue (takeDigits after)), dropDigits after)
        else if takeDigits rest ≠ [] then (some (digitsValue (takeDigits rest)), dropDigits rest)
        else (none, s)
      | [] => (none, s)
    else (none, s)
  | [] => (none, [])

def scanUnsigned (neg : Bool) (s : PyStr) : Except JsonFault (PyValue × PyStr) :=
  match scanDigits s with
  | none => .error .decode
  | some (digits, rest) =>
    let (fraction, rest) := scanFraction rest
    let (exponent, rest) := scanExponent rest
    if fraction = [] ∧ exponent = none then (parseInteger neg digits).map fun v => (v, rest)
    else .ok (.float (Binary64.ofDecimal neg (digitsValue (digits ++ fraction))
      (exponent.getD 0 - fraction.length)), rest)

def scanNumber : PyStr → Except JsonFault (PyValue × PyStr)
  | c :: rest => if c.val = 0x2D then scanUnsigned true rest else scanUnsigned false (c :: rest)
  | [] => .error .decode

mutual
/-- One value at the head of the text. The fuel bounds the nesting and the number of members. -/
def scanOnce : ℕ → PyStr → Except JsonFault (PyValue × PyStr)
  | 0, _ => .error .decode
  | _ + 1, [] => .error .decode
  | fuel + 1, c :: rest =>
    if c.val = 0x22 then (scanString rest).map fun r => (.str r.1, r.2)
    else if c.val = 0x7B then
      match skipSpace rest with
      | [] => .error .decode
      | d :: rest =>
        if d.val = 0x7D then (rejectDuplicateKeys []).map fun v => (v, rest)
        else do
          let (pairs, rest) ← scanMembers fuel (d :: rest)
          let value ← rejectDuplicateKeys pairs
          return (value, rest)
    else if c.val = 0x5B then
      match skipSpace rest with
      | [] => .error .decode
      | d :: rest =>
        if d.val = 0x5D then .ok (.list [], rest)
        else (scanItems fuel (d :: rest)).map fun r => (.list r.1, r.2)
    else if py "null" <+: c :: rest then .ok (.none, (c :: rest).drop 4)
    else if py "true" <+: c :: rest then .ok (.bool true, (c :: rest).drop 4)
    else if py "false" <+: c :: rest then .ok (.bool false, (c :: rest).drop 5)
    else if py "NaN" <+: c :: rest then (rejectConstant "NaN").map fun v => (v, (c :: rest).drop 3)
    else if py "Infinity" <+: c :: rest then
      (rejectConstant "Infinity").map fun v => (v, (c :: rest).drop 8)
    else if py "-Infinity" <+: c :: rest then
      (rejectConstant "-Infinity").map fun v => (v, (c :: rest).drop 9)
    else scanNumber (c :: rest)
def scanItems : ℕ → PyStr → Except JsonFault (List PyValue × PyStr)
  | 0, _ => .error .decode
  | fuel + 1, s => do
    let (value, s) ← scanOnce fuel s
    match skipSpace s with
    | c :: rest =>
      if c.val = 0x5D then return ([value], rest)
      else if c.val = 0x2C then
        let (values, rest) ← scanItems fuel (skipSpace rest)
        return (value :: values, rest)
      else .error .decode
    | [] => .error .decode
def scanMembers : ℕ → PyStr → Except JsonFault (List (PyStr × PyValue) × PyStr)
  | 0, _ => .error .decode
  | fuel + 1, s =>
    match s with
    | [] => .error .decode
    | c :: rest =>
      if c.val = 0x22 then do
        let (key, rest) ← scanString rest
        match skipSpace rest with
        | colon :: rest =>
          if colon.val = 0x3A then
            let (value, rest) ← scanOnce fuel (skipSpace rest)
            match skipSpace rest with
            | d :: rest =>
              if d.val = 0x7D then return ([(key, value)], rest)
              else if d.val = 0x2C then
                let (pairs, rest) ← scanMembers fuel (skipSpace rest)
                return ((key, value) :: pairs, rest)
              else .error .decode
            | [] => .error .decode
          else .error .decode
        | [] => .error .decode
      else .error .decode
end

attribute [local grind =] scanOnce scanItems scanMembers

/-- `JSONDecoder.decode`: one value, with space around it and nothing after. -/
def decodeText (s : PyStr) : Except JsonFault PyValue := do
  let (value, rest) ← scanOnce (s.length + 1) (skipSpace s)
  if skipSpace rest = [] then return value else .error .decode

inductive Document
  | text (s : PyStr)
  | bytes (b : Bytes)

/-- `json.loads` with the hooks of `load_i_json`. -/
def jsonLoads : Document → Except JsonFault PyValue
  | .text s => if [codePoint 0xFEFF] <+: s then .error .decode else decodeText s
  | .bytes b =>
    match decodeBytes b (detectEncoding b) with
    | some s => decodeText s
    | none => .error .decode

def loadIJson (document : Document) : Except PyError PyValue :=
  match jsonLoads document with
  | .error (.hook error) => .error error
  | .error .decode => .error (canonicalizationError "invalid I-JSON document")
  | .ok parsed => do
    let _ ← canonicalize parsed
    return parsed

end OcorRuntime.Canonical

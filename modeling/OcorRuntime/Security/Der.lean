import OcorRuntime.Base.Gregorian
import OcorRuntime.Events.Backbone
import OcorRuntime.Security.GrantForms

/-! The DER and X.509 reading of the control plane (`security/control_plane.py`). An element
is read at an offset, from its tag octet and its length octets; nothing checks that its
content lies within the data, and a slice ends where the data end. -/
namespace OcorRuntime.Security
set_option autoImplicit false
set_option maxHeartbeats 250000

/-! ## Elements -/

/-- `data[start:stop]`. -/
def slice (data : Bytes) (start stop : ℕ) : Bytes := (data.take stop).drop start

/-- `data[off]`. -/
def octet (data : Bytes) (off : ℕ) : Except PyError ℕ :=
  match data[off]? with
  | some b => .ok b.val
  | none => .error ⟨.foreign "IndexError", "index out of range", []⟩

/-- An element: its tag, and its length and where its content starts and stops. -/
structure Tlv where
  tag : ℕ
  length : ℕ
  start : ℕ
  stop : ℕ
deriving DecidableEq

/-- `_tlv`. -/
def tlv (data : Bytes) (off : ℕ) : Except PyError Tlv := do
  let tag ← octet data off
  let length ← octet data (off + 1)
  if length &&& 0x80 ≠ 0 then
    let count := length &&& 0x7F
    let long := fromBytes (slice data (off + 2) (off + 2 + count))
    return ⟨tag, long, off + 2 + count, off + 2 + count + long⟩
  else return ⟨tag, length, off + 2, off + 2 + length⟩

/-- The content of an element. -/
def Tlv.content (data : Bytes) (element : Tlv) : Bytes := slice data element.start element.stop

theorem tlv_advances {data : Bytes} {off : ℕ} {element : Tlv} (h : tlv data off = .ok element) :
    off + 2 ≤ element.start ∧ element.start ≤ element.stop := by
  simp only [tlv, bind_eq_ok] at h
  obtain ⟨tag, -, length, -, h⟩ := h
  split_ifs at h
  · cases h
    exact ⟨Nat.le_add_right _ _, Nat.le_add_right _ _⟩
  · cases h
    exact ⟨le_rfl, Nat.le_add_right _ _⟩

/-- A loop over the elements from an offset to a limit, one behind the other. -/
def eachElement {σ : Type} (data : Bytes) (limit : ℕ) (step : ℕ → Tlv → σ → Except PyError σ) (off : ℕ) (acc : σ) :
    Except PyError σ :=
  if off < limit then
    match _hread : tlv data off with
    | .error e => .error e
    | .ok element => step off element acc >>= eachElement data limit step element.stop
  else .ok acc
termination_by limit - off
decreasing_by
  have := tlv_advances _hread
  omega

theorem eachElement_eq {σ : Type} (data : Bytes) (limit : ℕ) (step : ℕ → Tlv → σ → Except PyError σ) (off : ℕ) (acc : σ) :
    eachElement data limit step off acc =
      if off < limit then tlv data off >>= fun element => step off element acc >>= eachElement data limit step element.stop
      else .ok acc := by
  rw [eachElement]
  by_cases hoff : off < limit
  · rw [if_pos hoff, if_pos hoff]
    split <;> next h => rw [h]; rfl
  · rw [if_neg hoff, if_neg hoff]

/-- `_split_der_chain`. -/
def splitDerChain (blob : Bytes) : Except PyError (List Bytes) :=
  eachElement blob blob.length (fun off element certs => .ok (certs ++ [slice blob off element.stop])) 0 []

/-! ## The parts of a certificate -/

/-- `_first_oid`. -/
def firstOid (content : Bytes) : Except PyError Bytes := do
  let oid ← tlv content 0
  return oid.content content

/-- `data.decode("ascii")`. -/
def decodeAscii (data : Bytes) : Except PyError PyStr := do
  refuseIf ((data.all fun b => b.val < 0x80) = false) (⟨.valueError, "ordinal not in range(128)", []⟩ : PyError)
  return data.map fun b => codePoint b.val

/-- `int(text)`. -/
def intOfText (text : PyStr) : Except PyError ℤ :=
  orRaise (Events.intOf text) ⟨.valueError, "invalid literal for int() with base 10: %r", [.text text]⟩

/-- `datetime(year, month, day, hour, minute, second, tzinfo=timezone.utc).timestamp()`. -/
def utcTimestamp (year month day hour minute second : ℤ) : Except PyError ℤ := do
  refuseIf (¬ (1 ≤ year ∧ year ≤ 9999)) (⟨.valueError, "year %d is out of range", [.int year]⟩ : PyError)
  refuseIf (¬ (1 ≤ month ∧ month ≤ 12)) (⟨.valueError, "month must be in 1..12", []⟩ : PyError)
  refuseIf (¬ (1 ≤ day ∧ day ≤ daysInMonth year.toNat month.toNat))
    (⟨.valueError, "day is out of range for month", []⟩ : PyError)
  refuseIf (¬ (0 ≤ hour ∧ hour ≤ 23)) (⟨.valueError, "hour must be in 0..23", []⟩ : PyError)
  refuseIf (¬ (0 ≤ minute ∧ minute ≤ 59)) (⟨.valueError, "minute must be in 0..59", []⟩ : PyError)
  refuseIf (¬ (0 ≤ second ∧ second ≤ 59)) (⟨.valueError, "second must be in 0..59", []⟩ : PyError)
  return dayNumber year.toNat month.toNat day.toNat * 86400 + hour * 3600 + minute * 60 + second

/-- `text[start:stop]`. -/
def textSlice (text : PyStr) (start stop : ℕ) : PyStr := (text.take stop).drop start

/-- The five numbers behind a year that ends at `start`. -/
def readUtc (text : PyStr) (year : ℤ) (start : ℕ) : Except PyError ℤ := do
  let month ← intOfText (textSlice text start (start + 2))
  let day ← intOfText (textSlice text (start + 2) (start + 4))
  let hour ← intOfText (textSlice text (start + 4) (start + 6))
  let minute ← intOfText (textSlice text (start + 6) (start + 8))
  let second ← intOfText (textSlice text (start + 8) (start + 10))
  utcTimestamp year month day hour minute second

/-- `text.endswith("Z")`. -/
def endsWithZ (text : PyStr) : Bool := text.getLast? = some (codePoint 0x5A)

/-- A UTCTime or a GeneralizedTime. -/
def readTime (text : PyStr) : Except PyError ℤ := do
  if text.length = 13 ∧ endsWithZ text then
    let yy ← intOfText (textSlice text 0 2)
    readUtc text (if 50 ≤ yy then 1900 + yy else 2000 + yy) 2
  else if text.length = 15 ∧ endsWithZ text then
    let year ← intOfText (textSlice text 0 4)
    readUtc text year 4
  else .error (controlError "SVID_CHAIN_INVALID" "unparseable certificate time" [])

/-- `_parse_time`. -/
def parseTime (raw : Bytes) : Except PyError ℤ := do
  let text ← decodeAscii raw
  readTime text

/-- `_parse_validity`. -/
def parseValidity (content : Bytes) : Except PyError (ℤ × ℤ) := do
  let notBefore ← tlv content 0
  let notAfter ← tlv content notBefore.stop
  let first ← parseTime (notBefore.content content)
  let last ← parseTime (notAfter.content content)
  return (first, last)

/-- `_parse_spki`: the algorithm and the key, without the unused-bits octet of its bit string. -/
def parseSpki (content : Bytes) : Except PyError (Bytes × Bytes) := do
  let algorithm ← tlv content 0
  let oid ← firstOid (algorithm.content content)
  let key ← tlv content algorithm.stop
  return (oid, slice content (key.start + 1) key.stop)

/-- `_OID_SAN`. -/
def oidSan : Bytes := [byte 0x55, byte 0x1D, byte 0x11]

/-- A general name: a `uniformResourceIdentifier` is kept. -/
def addName (names : Bytes) (element : Tlv) (uris : List PyStr) : Except PyError (List PyStr) := do
  if element.tag = 0x86 then
    let uri ← decodeAscii (element.content names)
    return uris ++ [uri]
  else return uris

/-- The value of the subject-alternative-name extension. -/
def addNames (names : Bytes) (uris : List PyStr) : Except PyError (List PyStr) := do
  let sequence ← tlv names 0
  if sequence.tag = 0x30 then eachElement names sequence.stop (fun _ => addName names) sequence.start uris
  else return uris

/-- An extension: its identifier, whether it is critical, and its value. -/
def addExtension (ext : Bytes) (uris : List PyStr) : Except PyError (List PyStr) := do
  let oid ← tlv ext 0
  -- an optional BOOLEAN stands in front of the value
  let pos ← if ext[oid.stop]? = some (byte 0x01) then (do
    let critical ← tlv ext oid.stop
    return critical.stop) else .ok oid.stop
  let value ← tlv ext pos
  if oid.content ext = oidSan then addNames (value.content ext) uris else return uris

/-- `_parse_uri_sans`. -/
def parseUriSans (extensions : Bytes) : Except PyError (List PyStr) := do
  let sequence ← tlv extensions 0
  if sequence.tag ≠ 0x30 then return []
  else eachElement extensions sequence.stop (fun _ element => addExtension (element.content extensions)) sequence.start []

structure Certificate where
  tbsDer : Bytes
  sigalgOid : Bytes
  signature : Bytes
  notBefore : ℤ
  notAfter : ℤ
  spkiOid : Bytes
  keyDer : Bytes
  spkiDer : Bytes
  uriSans : List PyStr

/-- The offset behind an optional element: the version, which is tagged `0xA0`. -/
def skipVersion (der : Bytes) (off : ℕ) : Except PyError ℕ := do
  let tag ← octet der off
  if tag = 0xA0 then
    let version ← tlv der off
    return version.stop
  else return off

/-- The extensions of a certificate, if they follow the key within `tbsCertificate`. -/
def readExtensions (der : Bytes) (off tbsEnd : ℕ) : Except PyError (List PyStr) := do
  if off < tbsEnd then
    let tag ← octet der off
    if tag = 0xA3 then
      let extensions ← tlv der off
      parseUriSans (extensions.content der)
    else return []
  else return []

/-- `_parse_certificate`. -/
def parseCertificate (der : Bytes) : Except PyError Certificate := do
  let outer ← tlv der 0
  refuseIf (outer.tag ≠ 0x30) (controlError "SVID_CHAIN_INVALID" "certificate is not a SEQUENCE" [])
  let tbs ← tlv der outer.start
  refuseIf (tbs.tag ≠ 0x30) (controlError "SVID_CHAIN_INVALID" "tbsCertificate is not a SEQUENCE" [])
  let algorithm ← tlv der tbs.stop
  let sigalgOid ← firstOid (algorithm.content der)
  let signature ← tlv der algorithm.stop
  let off ← skipVersion der tbs.start
  let serialNumber ← tlv der off
  let innerSignature ← tlv der serialNumber.stop
  let issuer ← tlv der innerSignature.stop
  let validity ← tlv der issuer.stop
  let (notBefore, notAfter) ← parseValidity (validity.content der)
  let subject ← tlv der validity.stop
  let spki ← tlv der subject.stop
  let (spkiOid, keyDer) ← parseSpki (spki.content der)
  let uriSans ← readExtensions der spki.stop tbs.stop
  return {
    tbsDer := slice der outer.start tbs.stop
    sigalgOid := sigalgOid
    signature := slice der (signature.start + 1) signature.stop
    notBefore := notBefore
    notAfter := notAfter
    spkiOid := spkiOid
    keyDer := keyDer
    spkiDer := slice der subject.stop spki.stop
    uriSans := uriSans }

end OcorRuntime.Security

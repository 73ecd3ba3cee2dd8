import OcorRuntime.Foundations.Collect
import OcorRuntime.Security.CertificateReading
import OcorRuntime.Security.Ecdsa

/-! The workload identity of the control plane (`SpireWorkloadIdentityProvider.current` in
`security/control_plane.py`, `WorkloadIdentity` in `security/ports.py`): what the SPIRE agent
answered is decoded, its certificates are parsed, and each is verified against the next. -/
namespace OcorRuntime.Security
open P256
set_option autoImplicit false
set_option maxHeartbeats 250000

/-! ## Signatures of certificates -/

inductive KeyKind
  | ecdsa
  | rsa
deriving DecidableEq

/-- `_SIGALG`. -/
def sigalgs : List (Bytes × KeyKind × DigestName) :=
  [([0x2A, 0x86, 0x48, 0xCE, 0x3D, 0x04, 0x03, 0x02].map byte, .ecdsa, .sha256),
    ([0x2A, 0x86, 0x48, 0xCE, 0x3D, 0x04, 0x03, 0x03].map byte, .ecdsa, .sha384),
    ([0x2A, 0x86, 0x48, 0xCE, 0x3D, 0x04, 0x03, 0x04].map byte, .ecdsa, .sha512),
    ([0x2A, 0x86, 0x48, 0x86, 0xF7, 0x0D, 0x01, 0x01, 0x0B].map byte, .rsa, .sha256),
    ([0x2A, 0x86, 0x48, 0x86, 0xF7, 0x0D, 0x01, 0x01, 0x0C].map byte, .rsa, .sha384),
    ([0x2A, 0x86, 0x48, 0x86, 0xF7, 0x0D, 0x01, 0x01, 0x0D].map byte, .rsa, .sha512)]

/-- `_OID_EC_PUBLIC`. -/
def oidEcPublic : Bytes := [0x2A, 0x86, 0x48, 0xCE, 0x3D, 0x02, 0x01].map byte

/-- `_OID_RSA`. -/
def oidRsa : Bytes := [0x2A, 0x86, 0x48, 0x86, 0xF7, 0x0D, 0x01, 0x01, 0x01].map byte

def svidChainInvalid (message : String) : PyError := controlError "SVID_CHAIN_INVALID" message []

/-- `_parse_rsa_public_key`. -/
def parseRsaPublicKey (keyDer : Bytes) : Except PyError PublicKey := do
  let sequence ← tlv keyDer 0
  refuseIf (sequence.tag ≠ 0x30) (svidChainInvalid "RSAPublicKey is not a SEQUENCE")
  let modulus ← tlv keyDer sequence.start
  let exponent ← tlv keyDer modulus.stop
  return ⟨fromBytes (modulus.content keyDer), fromBytes (exponent.content keyDer)⟩

/-- `_parse_ec_point`. -/
def parseEcPoint (keyDer : Bytes) : Except PyError (ℤ × ℤ) := do
  refuseIf (keyDer.head? ≠ some (byte 0x04)) (svidChainInvalid "EC point is not uncompressed")
  let half := (keyDer.length - 1) / 2
  return ((fromBytes (slice keyDer 1 (1 + half)) : ℤ), (fromBytes (keyDer.drop (1 + half)) : ℤ))

/-- `_verify_certificate_signature`. -/
def verifyCertificateSignature (cert issuer : Certificate) : Except PyError Unit := do
  let (kind, digest) ← orRaise (Dict.find sigalgs cert.sigalgOid) (svidChainInvalid "unsupported signature algorithm")
  match kind with
  | .ecdsa => do
    refuseIf (issuer.spkiOid ≠ oidEcPublic) (svidChainInvalid "ECDSA signature but non-EC issuer key")
    let (qx, qy) ← parseEcPoint issuer.keyDer
    let accepted ← ecdsaVerify cert.tbsDer cert.signature qx qy digest
    refuseIf (accepted = false) (svidChainInvalid "ECDSA signature check failed")
  | .rsa => do
    refuseIf (issuer.spkiOid ≠ oidRsa) (svidChainInvalid "RSA signature but non-RSA issuer key")
    let key ← parseRsaPublicKey issuer.keyDer
    let accepted ← rsaVerifyDigest cert.tbsDer cert.signature key digest
    refuseIf (accepted = false) (svidChainInvalid "RSA signature check failed")

/-! ## The identity -/

/-- What the agent answered for the workload, as far as it is read; texts are `str` of the members. -/
structure Svid where
  spiffeId : PyStr
  x509Svid : Option PyStr
  bundle : Option PyStr

structure WorkloadIdentity where
  spiffeId : PyStr
  svidRef : PyStr
  trustBundleDigest : PyStr
  notBefore : ℤ
  expiresAt : ℤ

def unavailable (message : String) (args : List ErrorArg) : PyError :=
  controlError "WORKLOAD_IDENTITY_UNAVAILABLE" message args

/-- `except (KeyError, ValueError)`. -/
def malformedSvid (e : PyError) : PyError :=
  match e.cls with
  | .keyError | .valueError => unavailable "malformed SVID" []
  | _ => e

def Svid.text (member : Option PyStr) (name : String) : Except PyError PyStr :=
  orRaise member ⟨.keyError, "%r", [.text (py name)]⟩

/-- The chain and the trust anchor, decoded. -/
def Svid.material (svid : Svid) : Except PyError (List Bytes × Bytes) := do
  let x509 ← Svid.text svid.x509Svid "x509_svid"
  let blob ← b64Decode x509
  let chain ← splitDerChain blob
  let text ← Svid.text svid.bundle "bundle"
  let bundle ← b64Decode text
  return (chain, bundle)

/-- Whether `SPIFFE_ID` matches in full. -/
def isSpiffeId (text : PyStr) : Bool :=
  let isHost (c : CodePoint) : Bool :=
    (0x61 ≤ c.val && c.val ≤ 0x7A) || (0x30 ≤ c.val && c.val ≤ 0x39) || c.val == 0x2E || c.val == 0x2D
  let isSegment (c : CodePoint) : Bool := isHost c || (0x41 ≤ c.val && c.val ≤ 0x5A) || c.val == 0x5F || c.val == 0x7E
  (py "spiffe://").isPrefixOf text &&
    match (text.drop 9).splitOn (codePoint 0x2F) with
    | host :: segment :: segments =>
      (host ≠ [] && host.all isHost) && (segment :: segments).all fun s => s ≠ [] && s.all isSegment
    | _ => false

/-- Every certificate is verified against the next. -/
def verifyChain : List Certificate → Except PyError Unit
  | child :: issuer :: rest => do
    verifyCertificateSignature child issuer
    verifyChain (issuer :: rest)
  | _ => .ok ()

/-- `_certificate_window`, at the times of two readings of the clock. -/
def certificateWindow (first : Certificate) (rest : List Certificate) (now later : ℤ) : Except PyError (ℤ × ℤ) := do
  let notBefore := rest.foldl (fun latest cert => max latest cert.notBefore) first.notBefore
  let expiresAt := rest.foldl (fun earliest cert => min earliest cert.notAfter) first.notAfter
  refuseIf (now < notBefore * 1000000 ∨ expiresAt * 1000000 ≤ later)
    (controlError "WORKLOAD_IDENTITY_EXPIRED" "SVID chain is outside its window" [])
  return (notBefore, expiresAt)

/-- `WorkloadIdentity(...)` and `require_valid`. -/
def WorkloadIdentity.checked (identity : WorkloadIdentity) (at_ : ℤ) : Except PyError WorkloadIdentity := do
  refuseIf (isSpiffeId identity.spiffeId = false)
    (controlError "WORKLOAD_IDENTITY_INVALID" "workload identity must be a SPIFFE ID" [])
  refuseIf (identity.expiresAt ≤ identity.notBefore)
    (controlError "WORKLOAD_IDENTITY_EXPIRED" "SVID validity window is empty" [])
  refuseIf (at_ < identity.notBefore * 1000000 ∨ identity.expiresAt * 1000000 ≤ at_)
    (controlError "WORKLOAD_IDENTITY_EXPIRED" "SVID is expired" [])
  return identity

/-- The identity that a chain of certificates and its trust anchor show. -/
def attest (spiffeId : PyStr) (leafDer intermediateDer : Bytes) (restDer : List Bytes) (rootDer : Bytes) (clock : ℕ → ℤ) :
    Except PyError WorkloadIdentity := do
  let leaf ← parseCertificate leafDer
  let intermediate ← parseCertificate intermediateDer
  let root ← parseCertificate rootDer
  verifyCertificateSignature leaf intermediate
  verifyCertificateSignature intermediate root
  refuseIf (spiffeId ∉ leaf.uriSans) (unavailable "SVID SAN does not carry the SPIFFE ID" [])
  let parsed ← (leafDer :: intermediateDer :: restDer).mapM parseCertificate
  let certificates := parsed ++ [root]
  verifyChain certificates
  let (notBefore, expiresAt) ← certificateWindow root parsed (clock 0) (clock 1)
  WorkloadIdentity.checked ⟨spiffeId, sha256Urn leafDer, sha256Urn rootDer, notBefore, expiresAt⟩ (clock 2)

/-- `SpireWorkloadIdentityProvider.current`, of an answer of the agent and the readings of the clock. -/
def current (expectedSpiffeId : PyStr) (svid : Svid) (clock : ℕ → ℤ) : Except PyError WorkloadIdentity := do
  refuseIf (svid.spiffeId ≠ expectedSpiffeId) (unavailable "unexpected SPIFFE ID %r" [.text svid.spiffeId])
  let (chain, bundle) ← svid.material.mapError malformedSvid
  match chain with
  | leafDer :: intermediateDer :: restDer => attest svid.spiffeId leafDer intermediateDer restDer bundle clock
  | _ => .error (unavailable "incomplete SVID chain" [])

/-! ## When it fails closed -/

section
variable {α β : Type} {x : Except PyError α} {f : α → Except PyError β}

theorem FailsClosed.bind (hx : FailsClosed x) (hf : ∀ a, x = .ok a → FailsClosed (f a)) : FailsClosed (x >>= f) := by
  cases hcase : x with
  | error e => exact failsClosed_error.2 (hx e hcase)
  | ok a => exact hf a hcase

theorem failsClosed_check {bad : Prop} [Decidable bad] {e : PyError} (he : IsControlError e) : FailsClosed (refuseIf bad e) := by
  by_cases h : bad
  · rw [refuseIf, if_pos h]
    exact failsClosed_error.2 he
  · rw [refuseIf, if_neg h]
    exact failsClosed_ok ()

theorem failsClosed_mapM {γ : Type} {g : γ → Except PyError α} {l : List γ} (h : ∀ c ∈ l, FailsClosed (g c)) :
    FailsClosed (l.mapM g) := by
  induction l with
  | nil =>
    rw [List.mapM_nil]
    exact failsClosed_ok []
  | cons c l ih =>
    rw [List.mapM_cons]
    refine (h c List.mem_cons_self).bind fun a _ => ?_
    exact (ih fun c' hc' => h c' (List.mem_cons_of_mem c hc')).bind fun as _ => failsClosed_ok (a :: as)

end

def indexError : PyError := ⟨.foreign "IndexError", "index out of range", []⟩

theorem octet_error {data : Bytes} {off : ℕ} {e : PyError} (h : octet data off = .error e) : e = indexError := by
  rw [octet] at h
  cases hget : data[off]? with
  | none =>
    rw [hget] at h
    exact (Except.error.inj h).symm
  | some b =>
    rw [hget] at h
    cases h

theorem tlv_error {data : Bytes} {off : ℕ} {e : PyError} (h : tlv data off = .error e) : e = indexError := by
  unfold tlv at h
  cases htag : octet data off with
  | error e' =>
    rw [htag] at h
    cases h
    exact octet_error htag
  | ok tag =>
    cases hlength : octet data (off + 1) with
    | error e' =>
      rw [htag, hlength] at h
      cases h
      exact octet_error hlength
    | ok length =>
      rw [htag, hlength] at h
      change (if _ then _ else _) = _ at h
      split_ifs at h <;> cases h

/-- A chain that cannot be split raises an `IndexError`. -/
theorem splitDerChain_error {blob : Bytes} {e : PyError} (h : splitDerChain blob = .error e) : e = indexError := by
  have hloop : ∀ (n off : ℕ) (acc : List Bytes), blob.length - off = n →
      eachElement blob blob.length (fun off element certs => .ok (certs ++ [slice blob off element.stop])) off acc = .error e →
        e = indexError := by
    intro n
    induction n using Nat.strong_induction_on with
    | _ n ih =>
      intro off acc hn h
      rw [eachElement_eq] at h
      by_cases hoff : off < blob.length
      · rw [if_pos hoff] at h
        cases hread : tlv blob off with
        | error e' =>
          rw [hread] at h
          cases h
          exact tlv_error hread
        | ok element =>
          rw [hread] at h
          have hadvances := tlv_advances hread
          exact ih (blob.length - element.stop) (by omega) element.stop _ rfl h
      · rw [if_neg hoff] at h
        cases h
  exact hloop _ 0 [] rfl h

theorem not_controlError_indexError : ¬ IsControlError indexError := fun ⟨_, h⟩ => nomatch h

theorem failsClosed_splitDerChain (blob : Bytes) :
    FailsClosed ((splitDerChain blob).mapError malformedSvid) ↔ ChainReadable blob := by
  rw [← (readsWhen_splitDerChain blob).ok_iff]
  cases h : splitDerChain blob with
  | ok chain => exact iff_of_true (failsClosed_ok _) ⟨chain, rfl⟩
  | error e =>
    obtain rfl := splitDerChain_error h
    refine iff_of_false (fun hclosed => ?_) fun ⟨_, hok⟩ => nomatch hok
    exact not_controlError_indexError (failsClosed_error.1 hclosed)

/-- The texts of the answer are base64 of these octets. -/
structure Svid.Decoded (svid : Svid) (blob bundle : Bytes) : Prop where
  x509 : ∃ text, svid.x509Svid = some text ∧ b64Decode text = .ok blob
  anchor : ∃ text, svid.bundle = some text ∧ b64Decode text = .ok bundle

section
variable {svid : Svid} {blob bundle : Bytes} {clock : ℕ → ℤ}

theorem Svid.Decoded.material (h : svid.Decoded blob bundle) :
    svid.material = (splitDerChain blob >>= fun chain => pure (chain, bundle)) := by
  obtain ⟨text, htext, hblob⟩ := h.x509
  obtain ⟨text', htext', hbundle⟩ := h.anchor
  rw [Svid.material, Svid.text, htext, Svid.text, htext']
  show (b64Decode text >>= fun blob => splitDerChain blob >>= fun chain => b64Decode text' >>= fun bundle => pure (chain, bundle)) = _
  rw [hblob, hbundle]
  rfl

theorem current_of_split_error (h : svid.Decoded blob bundle) (hchain : ¬ ChainReadable blob) :
    current svid.spiffeId svid clock = .error indexError := by
  rcases readsWhen_splitDerChain blob with ⟨hreadable, -⟩ | ⟨-, e, he, -⟩
  · exact absurd hreadable hchain
  · obtain rfl := splitDerChain_error he
    rw [current, refuseIf, if_neg (not_not.mpr rfl), h.material, he]
    rfl

theorem current_of_split {leaf intermediate : Bytes} {rest : List Bytes} (h : svid.Decoded blob bundle)
    (hchain : splitDerChain blob = .ok (leaf :: intermediate :: rest)) :
    current svid.spiffeId svid clock = attest svid.spiffeId leaf intermediate rest bundle clock := by
  rw [current, refuseIf, if_neg (not_not.mpr rfl), h.material, hchain]
  rfl

theorem failsClosed_verifyChain {certificates : List Certificate}
    (h : ∀ child ∈ certificates, ∀ issuer ∈ certificates, FailsClosed (verifyCertificateSignature child issuer)) :
    FailsClosed (verifyChain certificates) := by
  induction certificates with
  | nil => exact failsClosed_ok ()
  | cons child rest ih =>
    cases rest with
    | nil => exact failsClosed_ok ()
    | cons issuer rest =>
      rw [verifyChain]
      refine (h child List.mem_cons_self issuer (List.mem_cons_of_mem _ List.mem_cons_self)).bind fun _ _ => ih ?_
      exact fun c hc i hi => h c (List.mem_cons_of_mem _ hc) i (List.mem_cons_of_mem _ hi)

/-- The certificates that parsing gives. -/
def Parsed (ders : List Bytes) (cert : Certificate) : Prop := ∃ der ∈ ders, parseCertificate der = .ok cert

theorem failsClosed_attest {spiffeId : PyStr} {leaf intermediate : Bytes} {rest : List Bytes}
    (hreadable : ∀ der ∈ bundle :: leaf :: intermediate :: rest, CertificateReadable der)
    (hverify : ∀ child issuer, Parsed (bundle :: leaf :: intermediate :: rest) child →
      Parsed (bundle :: leaf :: intermediate :: rest) issuer → FailsClosed (verifyCertificateSignature child issuer)) :
    FailsClosed (attest spiffeId leaf intermediate rest bundle clock) := by
  have hparse (der : Bytes) (hder : der ∈ bundle :: leaf :: intermediate :: rest) : FailsClosed (parseCertificate der) :=
    (failsClosed_parseCertificate der).mpr (hreadable der hder)
  have hleaf : leaf ∈ bundle :: leaf :: intermediate :: rest := by simp
  have hintermediate : intermediate ∈ bundle :: leaf :: intermediate :: rest := by simp
  have hbundle : bundle ∈ bundle :: leaf :: intermediate :: rest := List.mem_cons_self
  unfold attest
  refine (hparse leaf hleaf).bind fun c1 h1 => (hparse intermediate hintermediate).bind fun c2 h2 =>
    (hparse bundle hbundle).bind fun c3 h3 => ?_
  refine (hverify c1 c2 ⟨_, hleaf, h1⟩ ⟨_, hintermediate, h2⟩).bind fun _ _ =>
    (hverify c2 c3 ⟨_, hintermediate, h2⟩ ⟨_, hbundle, h3⟩).bind fun _ _ => ?_
  refine (failsClosed_check isControlError_controlError).bind fun _ _ => ?_
  refine (failsClosed_mapM fun der hder => hparse der (List.mem_cons_of_mem _ hder)).bind fun parsed hparsed => ?_
  have hall : ∀ cert ∈ parsed ++ [c3], Parsed (bundle :: leaf :: intermediate :: rest) cert := by
    intro cert hcert
    rcases List.mem_append.mp hcert with hcert | hcert
    · obtain ⟨der, hder, hread⟩ := exists_of_forall₂_right (forall₂_of_mapM.1 hparsed) hcert
      exact ⟨der, List.mem_cons_of_mem _ hder, hread⟩
    · rw [List.mem_singleton.mp hcert]
      exact ⟨bundle, hbundle, h3⟩
  refine (failsClosed_verifyChain fun c hc i hi => hverify c i (hall c hc) (hall i hi)).bind fun _ _ => ?_
  refine FailsClosed.bind ?_ fun window _ => ?_
  · exact (failsClosed_check isControlError_controlError).bind fun _ _ => failsClosed_ok _
  · exact (failsClosed_check isControlError_controlError).bind fun _ _ =>
      (failsClosed_check isControlError_controlError).bind fun _ _ =>
        (failsClosed_check isControlError_controlError).bind fun _ _ => failsClosed_ok _

end

/-- **Splitting a chain and parsing a certificate return or end in an error of the control plane exactly if the octets
are readable; where a chain or its first certificate is not, the error escapes `current`, and where all certificates
are, nothing escapes it but what verifying their signatures raises.** -/
theorem der_reading_fails_closed (b : Bytes) :
    ((FailsClosed ((splitDerChain b).mapError malformedSvid) ∧ FailsClosed (parseCertificate b)) ↔
      ChainReadable b ∧ CertificateReadable b) ∧
    ∀ (svid : Svid) (clock : ℕ → ℤ) (blob bundle : Bytes), svid.Decoded blob bundle →
      (¬ ChainReadable blob → ¬ FailsClosed (current svid.spiffeId svid clock)) ∧
      ∀ leaf intermediate rest, splitDerChain blob = .ok (leaf :: intermediate :: rest) →
        (¬ CertificateReadable leaf → ¬ FailsClosed (current svid.spiffeId svid clock)) ∧
        ((∀ der ∈ bundle :: leaf :: intermediate :: rest, CertificateReadable der) →
          (∀ child issuer, Parsed (bundle :: leaf :: intermediate :: rest) child →
            Parsed (bundle :: leaf :: intermediate :: rest) issuer → FailsClosed (verifyCertificateSignature child issuer)) →
          FailsClosed (current svid.spiffeId svid clock)) := by
  refine ⟨and_congr (failsClosed_splitDerChain b) (failsClosed_parseCertificate b), ?_⟩
  intro svid clock blob bundle hdecoded
  refine ⟨fun hchain hclosed => ?_, fun leaf intermediate rest hsplit => ⟨fun hleaf hclosed => ?_, fun hreadable hverify => ?_⟩⟩
  · rw [current_of_split_error hdecoded hchain] at hclosed
    exact not_controlError_indexError (failsClosed_error.1 hclosed)
  · rw [current_of_split hdecoded hsplit, attest] at hclosed
    refine hleaf ((failsClosed_parseCertificate leaf).mp fun e he => hclosed e ?_)
    rw [he]
    rfl
  · rw [current_of_split hdecoded hsplit]
    exact failsClosed_attest hreadable hverify

/-- Answers with a chain in base64 and a trust anchor of one empty INTEGER. -/
def sampleSvid (chain : String) : Svid := ⟨py "spiffe://ocor/agent", some (py chain), some (py "AgA=")⟩

theorem sampleSvid_decoded {chain : String} {blob : Bytes} (h : b64Decode (py chain) = .ok blob) :
    (sampleSvid chain).Decoded blob [byte 0x02, byte 0x00] where
  x509 := ⟨_, rfl, h⟩
  anchor := ⟨_, rfl, by decide⟩

theorem sampleChains_split :
    splitDerChain [byte 0x30] = .error indexError ∧
      splitDerChain [byte 0x30, byte 0, byte 0x30, byte 0] = .ok [[byte 0x30, byte 0], [byte 0x30, byte 0]] ∧
        splitDerChain [byte 0x02, byte 0, byte 0x02, byte 0] = .ok [[byte 0x02, byte 0], [byte 0x02, byte 0]] := by
  decide +kernel

theorem truncated_unreadable : ¬ ChainReadable [byte 0x30] := by
  rw [← (readsWhen_splitDerChain [byte 0x30]).ok_iff, sampleChains_split.1]
  exact fun ⟨_, h⟩ => nomatch h

theorem empty_sequence_unreadable : ¬ CertificateReadable [byte 0x30, byte 0x00] :=
  fun h => absurd (h.2 (by decide)).1 (by decide)

theorem integer_readable : CertificateReadable [byte 0x02, byte 0x00] :=
  ⟨by decide, fun h => absurd h (by decide)⟩

theorem integer_refused (cert : Certificate) : parseCertificate [byte 0x02, byte 0x00] ≠ .ok cert := fun h => nomatch h

theorem der_reading_fails_closed_sample :
    ¬ FailsClosed (current (py "spiffe://ocor/agent") (sampleSvid "MA==") fun _ => 0) ∧
    ¬ FailsClosed (current (py "spiffe://ocor/agent") (sampleSvid "MAAwAA==") fun _ => 0) ∧
    FailsClosed (current (py "spiffe://ocor/agent") (sampleSvid "AgACAA==") fun _ => 0) := by
  refine ⟨?_, ?_, ?_⟩
  · exact ((der_reading_fails_closed []).2 (sampleSvid "MA==") (fun _ => 0) [byte 0x30] _
      (sampleSvid_decoded (by decide))).1 truncated_unreadable
  · exact (((der_reading_fails_closed []).2 (sampleSvid "MAAwAA==") (fun _ => 0) [byte 0x30, byte 0, byte 0x30, byte 0] _
      (sampleSvid_decoded (by decide))).2 [byte 0x30, byte 0x00] [byte 0x30, byte 0x00] [] sampleChains_split.2.1).1
        empty_sequence_unreadable
  · refine (((der_reading_fails_closed []).2 (sampleSvid "AgACAA==") (fun _ => 0) [byte 0x02, byte 0, byte 0x02, byte 0] _
      (sampleSvid_decoded (by decide))).2 [byte 0x02, byte 0x00] [byte 0x02, byte 0x00] [] sampleChains_split.2.2).2
        ?_ ?_
    · intro der hder
      simp only [List.mem_cons, List.not_mem_nil, or_false, or_self] at hder
      rw [hder]
      exact integer_readable
    · rintro child issuer ⟨der, hder, hparse⟩ -
      simp only [List.mem_cons, List.not_mem_nil, or_false, or_self] at hder
      rw [hder] at hparse
      exact absurd hparse (integer_refused child)

/-- A chain of one octet: its element has no length, and the `IndexError` passes the handler. -/
theorem truncated_header_escapes :
    ¬ ∀ b : Bytes, FailsClosed ((splitDerChain b).mapError malformedSvid) ∧ FailsClosed (parseCertificate b) := by
  intro h
  have hsplit : (splitDerChain [byte 0x30]).mapError malformedSvid = .error indexError := by
    rw [sampleChains_split.1]
    rfl
  have hclosed := (h [byte 0x30]).1
  rw [hsplit] at hclosed
  exact not_controlError_indexError (failsClosed_error.1 hclosed)

end OcorRuntime.Security

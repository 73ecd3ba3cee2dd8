import OcorRuntime.Foundations.Sha256

/-! SHA-512 and SHA-384 (FIPS 180-4) on octet strings. As with SHA-256, the proofs never
look inside a digest. -/
namespace OcorRuntime.Sha512
set_option autoImplicit false
set_option maxHeartbeats 250000
set_option maxRecDepth 120000

abbrev Word := BitVec 64

def roundConstants : List Word := [
  0x428a2f98d728ae22, 0x7137449123ef65cd, 0xb5c0fbcfec4d3b2f, 0xe9b5dba58189dbbc,
  0x3956c25bf348b538, 0x59f111f1b605d019, 0x923f82a4af194f9b, 0xab1c5ed5da6d8118,
  0xd807aa98a3030242, 0x12835b0145706fbe, 0x243185be4ee4b28c, 0x550c7dc3d5ffb4e2,
  0x72be5d74f27b896f, 0x80deb1fe3b1696b1, 0x9bdc06a725c71235, 0xc19bf174cf692694,
  0xe49b69c19ef14ad2, 0xefbe4786384f25e3, 0x0fc19dc68b8cd5b5, 0x240ca1cc77ac9c65,
  0x2de92c6f592b0275, 0x4a7484aa6ea6e483, 0x5cb0a9dcbd41fbd4, 0x76f988da831153b5,
  0x983e5152ee66dfab, 0xa831c66d2db43210, 0xb00327c898fb213f, 0xbf597fc7beef0ee4,
  0xc6e00bf33da88fc2, 0xd5a79147930aa725, 0x06ca6351e003826f, 0x142929670a0e6e70,
  0x27b70a8546d22ffc, 0x2e1b21385c26c926, 0x4d2c6dfc5ac42aed, 0x53380d139d95b3df,
  0x650a73548baf63de, 0x766a0abb3c77b2a8, 0x81c2c92e47edaee6, 0x92722c851482353b,
  0xa2bfe8a14cf10364, 0xa81a664bbc423001, 0xc24b8b70d0f89791, 0xc76c51a30654be30,
  0xd192e819d6ef5218, 0xd69906245565a910, 0xf40e35855771202a, 0x106aa07032bbd1b8,
  0x19a4c116b8d2d0c8, 0x1e376c085141ab53, 0x2748774cdf8eeb99, 0x34b0bcb5e19b48a8,
  0x391c0cb3c5c95a63, 0x4ed8aa4ae3418acb, 0x5b9cca4f7763e373, 0x682e6ff3d6b2b8a3,
  0x748f82ee5defb2fc, 0x78a5636f43172f60, 0x84c87814a1f0ab72, 0x8cc702081a6439ec,
  0x90befffa23631e28, 0xa4506cebde82bde9, 0xbef9a3f7b2c67915, 0xc67178f2e372532b,
  0xca273eceea26619c, 0xd186b8c721c0c207, 0xeada7dd6cde0eb1e, 0xf57d4f7fee6ed178,
  0x06f067aa72176fba, 0x0a637dc5a2c898a6, 0x113f9804bef90dae, 0x1b710b35131c471b,
  0x28db77f523047d84, 0x32caab7b40c72493, 0x3c9ebe0a15c9bebc, 0x431d67c49c100d4c,
  0x4cc5d4becb3e42b6, 0x597f299cfc657e2a, 0x5fcb6fab3ad6faec, 0x6c44198c4a475817]

structure Chain where
  a : Word
  b : Word
  c : Word
  d : Word
  e : Word
  f : Word
  g : Word
  h : Word

/-- Where SHA-512 starts. -/
def initial : Chain :=
  ⟨0x6a09e667f3bcc908, 0xbb67ae8584caa73b, 0x3c6ef372fe94f82b, 0xa54ff53a5f1d36f1,
    0x510e527fade682d1, 0x9b05688c2b3e6c1f, 0x1f83d9abfb41bd6b, 0x5be0cd19137e2179⟩

/-- Where SHA-384 starts. -/
def initial384 : Chain :=
  ⟨0xcbbb9d5dc1059ed8, 0x629a292a367cd507, 0x9159015a3070dd17, 0x152fecd8f70e5939,
    0x67332667ffc00b31, 0x8eb44a8768581511, 0xdb0c2e0d64f98fa7, 0x47b5481dbefa4fa4⟩

def ch (x y z : Word) : Word := (x &&& y) ^^^ (~~~x &&& z)
def maj (x y z : Word) : Word := (x &&& y) ^^^ (x &&& z) ^^^ (y &&& z)
def bigSigma0 (x : Word) : Word := x.rotateRight 28 ^^^ x.rotateRight 34 ^^^ x.rotateRight 39
def bigSigma1 (x : Word) : Word := x.rotateRight 14 ^^^ x.rotateRight 18 ^^^ x.rotateRight 41
def smallSigma0 (x : Word) : Word := x.rotateRight 1 ^^^ x.rotateRight 8 ^^^ (x >>> 7)
def smallSigma1 (x : Word) : Word := x.rotateRight 19 ^^^ x.rotateRight 61 ^^^ (x >>> 6)

def round (s : Chain) (k w : Word) : Chain :=
  let t1 := s.h + bigSigma1 s.e + ch s.e s.f s.g + k + w
  let t2 := bigSigma0 s.a + maj s.a s.b s.c
  ⟨t1 + t2, s.a, s.b, s.c, s.d + t1, s.e, s.f, s.g⟩

/-- One round per constant, the message schedule a sliding window of sixteen words. -/
def rounds : List Word → List Word → Chain → Chain
  | [], _, s => s
  | k :: ks, ws, s =>
    let next := smallSigma1 (ws.getD 14 0) + ws.getD 9 0 + smallSigma0 (ws.getD 1 0) + ws.getD 0 0
    rounds ks (ws.tail ++ [next]) (round s k (ws.getD 0 0))

def compress (s : Chain) (ws : List Word) : Chain :=
  let t := rounds roundConstants ws s
  ⟨s.a + t.a, s.b + t.b, s.c + t.c, s.d + t.d, s.e + t.e, s.f + t.f, s.g + t.g, s.h + t.h⟩

def words : ℕ → Bytes → List Word
  | 0, _ => []
  | n + 1, bs => BitVec.ofNat 64 ((bs.take 8).foldl (fun acc b => acc * 256 + b.val) 0) :: words n (bs.drop 8)

def pad (message : Bytes) : Bytes :=
  message ++ [byte 0x80] ++ List.replicate ((239 - message.length % 128) % 128) (byte 0) ++
    Sha256.bigEndian 16 (8 * message.length)

def blocks : ℕ → Bytes → Chain → Chain
  | 0, _, s => s
  | n + 1, bs, s => blocks n (bs.drop 128) (compress s (words 16 bs))

/-- The eight words of the state after the last block, from a first state on. -/
def hash (start : Chain) (message : Bytes) : Bytes :=
  let padded := pad message
  let s := blocks (padded.length / 128) padded start
  [s.a, s.b, s.c, s.d, s.e, s.f, s.g, s.h].flatMap fun w => Sha256.bigEndian 8 w.toNat

def digest (message : Bytes) : Bytes := hash initial message

/-- `sha384`: the first 48 octets. -/
def digest384 (message : Bytes) : Bytes := (hash initial384 message).take 48

theorem hash_length (start : Chain) (message : Bytes) : (hash start message).length = 64 := by
  simp [hash, Sha256.bigEndian_length]

theorem digest_length (message : Bytes) : (digest message).length = 64 := hash_length initial message

theorem digest384_length (message : Bytes) : (digest384 message).length = 48 := by
  rw [digest384, List.length_take, hash_length]
  rfl

example : (digest384 []).take 4 = [byte 0x38, byte 0xb0, byte 0x60, byte 0xa7] := by decide +kernel

end OcorRuntime.Sha512

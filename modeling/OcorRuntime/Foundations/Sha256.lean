import Mathlib.Algebra.Group.Nat.Defs
import Mathlib.Data.Set.Function
import OcorRuntime.Foundations.Text

/-! SHA-256 (FIPS 180-4) on octet strings and its lowercase hexadecimal digest.
The proofs never look inside `digest`: they only use that it is injective on a
given set of inputs, which each result states as a hypothesis. -/
namespace OcorRuntime.Sha256
set_option autoImplicit false
set_option maxHeartbeats 250000
set_option maxRecDepth 120000

abbrev Word := BitVec 32

def roundConstants : List Word := [
  0x428a2f98, 0x71374491, 0xb5c0fbcf, 0xe9b5dba5, 0x3956c25b, 0x59f111f1, 0x923f82a4, 0xab1c5ed5,
  0xd807aa98, 0x12835b01, 0x243185be, 0x550c7dc3, 0x72be5d74, 0x80deb1fe, 0x9bdc06a7, 0xc19bf174,
  0xe49b69c1, 0xefbe4786, 0x0fc19dc6, 0x240ca1cc, 0x2de92c6f, 0x4a7484aa, 0x5cb0a9dc, 0x76f988da,
  0x983e5152, 0xa831c66d, 0xb00327c8, 0xbf597fc7, 0xc6e00bf3, 0xd5a79147, 0x06ca6351, 0x14292967,
  0x27b70a85, 0x2e1b2138, 0x4d2c6dfc, 0x53380d13, 0x650a7354, 0x766a0abb, 0x81c2c92e, 0x92722c85,
  0xa2bfe8a1, 0xa81a664b, 0xc24b8b70, 0xc76c51a3, 0xd192e819, 0xd6990624, 0xf40e3585, 0x106aa070,
  0x19a4c116, 0x1e376c08, 0x2748774c, 0x34b0bcb5, 0x391c0cb3, 0x4ed8aa4a, 0x5b9cca4f, 0x682e6ff3,
  0x748f82ee, 0x78a5636f, 0x84c87814, 0x8cc70208, 0x90befffa, 0xa4506ceb, 0xbef9a3f7, 0xc67178f2]

structure Chain where
  a : Word
  b : Word
  c : Word
  d : Word
  e : Word
  f : Word
  g : Word
  h : Word

def initial : Chain :=
  ⟨0x6a09e667, 0xbb67ae85, 0x3c6ef372, 0xa54ff53a, 0x510e527f, 0x9b05688c, 0x1f83d9ab, 0x5be0cd19⟩

def ch (x y z : Word) : Word := (x &&& y) ^^^ (~~~x &&& z)
def maj (x y z : Word) : Word := (x &&& y) ^^^ (x &&& z) ^^^ (y &&& z)
def bigSigma0 (x : Word) : Word := x.rotateRight 2 ^^^ x.rotateRight 13 ^^^ x.rotateRight 22
def bigSigma1 (x : Word) : Word := x.rotateRight 6 ^^^ x.rotateRight 11 ^^^ x.rotateRight 25
def smallSigma0 (x : Word) : Word := x.rotateRight 7 ^^^ x.rotateRight 18 ^^^ (x >>> 3)
def smallSigma1 (x : Word) : Word := x.rotateRight 17 ^^^ x.rotateRight 19 ^^^ (x >>> 10)

def round (s : Chain) (k w : Word) : Chain :=
  let t1 := s.h + bigSigma1 s.e + ch s.e s.f s.g + k + w
  let t2 := bigSigma0 s.a + maj s.a s.b s.c
  ⟨t1 + t2, s.a, s.b, s.c, s.d + t1, s.e, s.f, s.g⟩

/-- One round per constant. The message schedule is kept as a sliding window of sixteen words. -/
def rounds : List Word → List Word → Chain → Chain
  | [], _, s => s
  | k :: ks, ws, s =>
    let next := smallSigma1 (ws.getD 14 0) + ws.getD 9 0 + smallSigma0 (ws.getD 1 0) + ws.getD 0 0
    rounds ks (ws.tail ++ [next]) (round s k (ws.getD 0 0))

def compress (s : Chain) (ws : List Word) : Chain :=
  let t := rounds roundConstants ws s
  ⟨s.a + t.a, s.b + t.b, s.c + t.c, s.d + t.d, s.e + t.e, s.f + t.f, s.g + t.g, s.h + t.h⟩

def bigEndian : ℕ → ℕ → Bytes
  | 0, _ => []
  | k + 1, n => byte (n / 256 ^ k) :: bigEndian k n

def words : ℕ → Bytes → List Word
  | 0, _ => []
  | n + 1, bs => BitVec.ofNat 32 ((bs.take 4).foldl (fun acc b => acc * 256 + b.val) 0) :: words n (bs.drop 4)

def pad (message : Bytes) : Bytes :=
  message ++ [byte 0x80] ++ List.replicate ((119 - message.length % 64) % 64) (byte 0) ++ bigEndian 8 (8 * message.length)

def blocks : ℕ → Bytes → Chain → Chain
  | 0, _, s => s
  | n + 1, bs, s => blocks n (bs.drop 64) (compress s (words 16 bs))

def digest (message : Bytes) : Bytes :=
  let padded := pad message
  let s := blocks (padded.length / 64) padded initial
  [s.a, s.b, s.c, s.d, s.e, s.f, s.g, s.h].flatMap fun w => bigEndian 4 w.toNat

theorem bigEndian_length (k n : ℕ) : (bigEndian k n).length = k := by
  induction k with
  | zero => rfl
  | succ k ih => simp [bigEndian, ih]

theorem digest_length (message : Bytes) : (digest message).length = 32 := by
  simp [digest, bigEndian_length]

/-! ## Hexadecimal text -/

def hexdigest (message : Bytes) : PyStr := hex (digest message)

theorem hexdigest_length (message : Bytes) : (hexdigest message).length = 64 := by
  rw [hexdigest, hex_length, digest_length]

theorem hexdigest_injOn {S : Set Bytes} (hS : Set.InjOn digest S) : Set.InjOn hexdigest S :=
  fun _ hx _ hy h => hS hx hy (hex_injective h)

example : hexdigest [] = py "e3b0c44298fc1c149afbf4c8996fb92427ae41e4649b934ca495991b7852b855" := by decide +kernel

end OcorRuntime.Sha256

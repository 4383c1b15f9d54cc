import Mathlib.Algebra.Ring.Nat
import Mathlib.Data.List.Basic

/-!
# SHA-256

`hashlib.sha256(text.encode("utf-8")).hexdigest()`, so that identities can be computed. No
result depends on this function: the model takes its hash as a parameter.
-/
namespace ResearchLab.Foundation.Sha256

abbrev Word := BitVec 32

structure Registers where
  a : Word
  b : Word
  c : Word
  d : Word
  e : Word
  f : Word
  g : Word
  h : Word

def roundConstants : List Word := [
    0x428a2f98, 0x71374491, 0xb5c0fbcf, 0xe9b5dba5, 0x3956c25b, 0x59f111f1, 0x923f82a4, 0xab1c5ed5,
    0xd807aa98, 0x12835b01, 0x243185be, 0x550c7dc3, 0x72be5d74, 0x80deb1fe, 0x9bdc06a7, 0xc19bf174,
    0xe49b69c1, 0xefbe4786, 0x0fc19dc6, 0x240ca1cc, 0x2de92c6f, 0x4a7484aa, 0x5cb0a9dc, 0x76f988da,
    0x983e5152, 0xa831c66d, 0xb00327c8, 0xbf597fc7, 0xc6e00bf3, 0xd5a79147, 0x06ca6351, 0x14292967,
    0x27b70a85, 0x2e1b2138, 0x4d2c6dfc, 0x53380d13, 0x650a7354, 0x766a0abb, 0x81c2c92e, 0x92722c85,
    0xa2bfe8a1, 0xa81a664b, 0xc24b8b70, 0xc76c51a3, 0xd192e819, 0xd6990624, 0xf40e3585, 0x106aa070,
    0x19a4c116, 0x1e376c08, 0x2748774c, 0x34b0bcb5, 0x391c0cb3, 0x4ed8aa4a, 0x5b9cca4f, 0x682e6ff3,
    0x748f82ee, 0x78a5636f, 0x84c87814, 0x8cc70208, 0x90befffa, 0xa4506ceb, 0xbef9a3f7, 0xc67178f2]

def start : Registers :=
  ⟨0x6a09e667, 0xbb67ae85, 0x3c6ef372, 0xa54ff53a,
    0x510e527f, 0x9b05688c, 0x1f83d9ab, 0x5be0cd19⟩

def step (r : Registers) (constant word : Word) : Registers :=
  let choice := (r.e &&& r.f) ^^^ (~~~r.e &&& r.g)
  let majority := (r.a &&& r.b) ^^^ (r.a &&& r.c) ^^^ (r.b &&& r.c)
  let t₁ := r.h + (r.e.rotateRight 6 ^^^ r.e.rotateRight 11 ^^^ r.e.rotateRight 25) + choice +
    constant + word
  let t₂ := (r.a.rotateRight 2 ^^^ r.a.rotateRight 13 ^^^ r.a.rotateRight 22) + majority
  ⟨t₁ + t₂, r.a, r.b, r.c, r.d + t₁, r.e, r.f, r.g⟩

/-- The word after the sixteen words of a window. -/
def nextWord (window : List Word) : Word :=
  let w := fun i => window.getD i 0
  let near := (w 1).rotateRight 7 ^^^ (w 1).rotateRight 18 ^^^ (w 1 >>> 3)
  let far := (w 14).rotateRight 17 ^^^ (w 14).rotateRight 19 ^^^ (w 14 >>> 10)
  w 0 + near + w 9 + far

/-- The rounds, with the window of the words still to be used in front. -/
def rounds : List Word → List Word → Registers → Registers
  | [], _, r => r
  | constant :: constants, window, r =>
      rounds constants (window.tail ++ [nextWord window]) (step r constant (window.getD 0 0))

def compress (r : Registers) (block : List Word) : Registers :=
  let r' := rounds roundConstants block r
  ⟨r.a + r'.a, r.b + r'.b, r.c + r'.c, r.d + r'.d, r.e + r'.e, r.f + r'.f, r.g + r'.g, r.h + r'.h⟩

/-- The bytes of a number, the most significant first. -/
def bigEndian (width n : ℕ) : List ℕ :=
  (List.range width).map fun i => n / 256 ^ (width - 1 - i) % 256

def pad (bytes : List ℕ) : List ℕ :=
  bytes ++ 128 :: List.replicate ((119 - bytes.length % 64) % 64) 0 ++
    bigEndian 8 (8 * bytes.length)

def chunks {α : Type} (size : ℕ) (l : List α) : List (List α) :=
  (List.range (l.length / size)).map fun i => (l.drop (i * size)).take size

def words (bytes : List ℕ) : List Word :=
  (chunks 4 bytes).map fun c => BitVec.ofNat 32 (c.foldl (fun n byte => 256 * n + byte) 0)

def digest (bytes : List ℕ) : List ℕ :=
  let r := (chunks 16 (words (pad bytes))).foldl compress start
  [r.a, r.b, r.c, r.d, r.e, r.f, r.g, r.h].flatMap fun word => bigEndian 4 word.toNat

def hexDigit (n : ℕ) : Char := "0123456789abcdef".toList.getD n '0'

def hexdigest (bytes : List ℕ) : String :=
  String.ofList ((digest bytes).flatMap fun byte => [hexDigit (byte / 16), hexDigit (byte % 16)])

/-- The hash of a text. -/
def sha256 (text : String) : String := hexdigest (text.toUTF8.toList.map UInt8.toNat)

example : sha256 "abc" = "ba7816bf8f01cfea414140de5dae2223b00361a396177a9cb410ff61f20015ad" := by
  decide +kernel

end ResearchLab.Foundation.Sha256

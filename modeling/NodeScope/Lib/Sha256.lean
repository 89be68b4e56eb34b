import Mathlib.Algebra.Order.Ring.Int
import Mathlib.Data.Vector.Basic

/-!
# SHA-256

The digest of a byte string, written so that it evaluates. The schedule is a
window of sixteen words that moves by one word in each round.
-/

namespace NodeScope.Lib.Sha256

/-- A SHA-256 digest, 32 bytes by its type. -/
abbrev Digest := List.Vector UInt8 32

/-- The rotation to the right. -/
def rotr (x n : UInt32) : UInt32 := (x >>> n) ||| (x <<< (32 - n))

/-- The constants of the rounds. -/
def constants : List UInt32 := [
  0x428a2f98, 0x71374491, 0xb5c0fbcf, 0xe9b5dba5, 0x3956c25b, 0x59f111f1, 0x923f82a4, 0xab1c5ed5,
  0xd807aa98, 0x12835b01, 0x243185be, 0x550c7dc3, 0x72be5d74, 0x80deb1fe, 0x9bdc06a7, 0xc19bf174,
  0xe49b69c1, 0xefbe4786, 0x0fc19dc6, 0x240ca1cc, 0x2de92c6f, 0x4a7484aa, 0x5cb0a9dc, 0x76f988da,
  0x983e5152, 0xa831c66d, 0xb00327c8, 0xbf597fc7, 0xc6e00bf3, 0xd5a79147, 0x06ca6351, 0x14292967,
  0x27b70a85, 0x2e1b2138, 0x4d2c6dfc, 0x53380d13, 0x650a7354, 0x766a0abb, 0x81c2c92e, 0x92722c85,
  0xa2bfe8a1, 0xa81a664b, 0xc24b8b70, 0xc76c51a3, 0xd192e819, 0xd6990624, 0xf40e3585, 0x106aa070,
  0x19a4c116, 0x1e376c08, 0x2748774c, 0x34b0bcb5, 0x391c0cb3, 0x4ed8aa4a, 0x5b9cca4f, 0x682e6ff3,
  0x748f82ee, 0x78a5636f, 0x84c87814, 0x8cc70208, 0x90befffa, 0xa4506ceb, 0xbef9a3f7, 0xc67178f2]

/-- The eight chaining words. -/
structure Chain where
  a : UInt32
  b : UInt32
  c : UInt32
  d : UInt32
  e : UInt32
  f : UInt32
  g : UInt32
  h : UInt32

/-- The value that the chain starts with. -/
def initial : Chain :=
  ⟨0x6a09e667, 0xbb67ae85, 0x3c6ef372, 0xa54ff53a, 0x510e527f, 0x9b05688c, 0x1f83d9ab, 0x5be0cd19⟩

/-- One round with its constant and its word. -/
def round (s : Chain) (k w : UInt32) : Chain :=
  let big1 := rotr s.e 6 ^^^ rotr s.e 11 ^^^ rotr s.e 25
  let choice := (s.e &&& s.f) ^^^ ((~~~s.e) &&& s.g)
  let t := s.h + big1 + choice + k + w
  let big0 := rotr s.a 2 ^^^ rotr s.a 13 ^^^ rotr s.a 22
  let majority := (s.a &&& s.b) ^^^ (s.a &&& s.c) ^^^ (s.b &&& s.c)
  ⟨t + big0 + majority, s.a, s.b, s.c, s.d + t, s.e, s.f, s.g⟩

/-- The schedule word that follows a window of sixteen. -/
def nextWord (w : List UInt32) : UInt32 :=
  let w1 := w.getD 1 0
  let w14 := w.getD 14 0
  w.getD 0 0 + (rotr w1 7 ^^^ rotr w1 18 ^^^ (w1 >>> 3)) + w.getD 9 0 +
    (rotr w14 17 ^^^ rotr w14 19 ^^^ (w14 >>> 10))

def rounds : List UInt32 → List UInt32 → Chain → Chain
  | [], _, s => s
  | k :: ks, w, s => rounds ks (w.tail ++ [nextWord w]) (round s k (w.getD 0 0))

/-- A block is compressed into the chain. -/
def compress (s : Chain) (block : List UInt32) : Chain :=
  let t := rounds constants block s
  ⟨s.a + t.a, s.b + t.b, s.c + t.c, s.d + t.d, s.e + t.e, s.f + t.f, s.g + t.g, s.h + t.h⟩

/-- The big-endian words of a text. -/
def words : List UInt8 → List UInt32
  | a :: b :: c :: d :: rest =>
      UInt32.ofNat (a.toNat * 16777216 + b.toNat * 65536 + c.toNat * 256 + d.toNat) :: words rest
  | _ => []

/-- The big-endian bytes of a number, `n` of them. -/
def bigEndian (n value : Nat) : List UInt8 :=
  (List.range n).map fun i => UInt8.ofNat (value / 256 ^ (n - 1 - i))

/-- The message with a one, zeros and its length in bits, up to a multiple of 64 bytes. -/
def pad (message : List UInt8) : List UInt8 :=
  message ++ [0x80] ++ List.replicate ((119 - message.length % 64) % 64) 0 ++
    bigEndian 8 (8 * message.length)

def blocks : Nat → List UInt32 → Chain → Chain
  | 0, _, s => s
  | n + 1, w, s => blocks n (w.drop 16) (compress s (w.take 16))

def Chain.bytes (s : Chain) : List UInt8 :=
  [s.a, s.b, s.c, s.d, s.e, s.f, s.g, s.h].flatMap fun w => bigEndian 4 w.toNat

theorem Chain.length_bytes (s : Chain) : s.bytes.length = 32 := by
  simp [Chain.bytes, bigEndian]

/-- Go's `sha256.Sum256`. -/
def sha256 (message : List UInt8) : Digest :=
  let padded := pad message
  let final := blocks (padded.length / 64) (words padded) initial
  ⟨final.bytes, final.length_bytes⟩

example : (sha256 [97, 98, 99]).toList.take 4 = [0xba, 0x78, 0x16, 0xbf] := by decide +kernel

end NodeScope.Lib.Sha256

import Mathlib.Algebra.Group.Nat.Defs
import Mathlib.Tactic.Common

set_option relaxedAutoImplicit false
set_option autoImplicit false

/-!
# SHA-256

The digest as FIPS 180-4 computes it, on lists: padding to blocks of sixteen words, the message
schedule of a block and its sixty-four rounds.

## Main definitions

* `Sha256.digest` — the thirty-two bytes of the digest.
-/

namespace AuditGateway.Sha256

/-- The round constants. -/
def roundConstants : List UInt32 :=
  [0x428a2f98, 0x71374491, 0xb5c0fbcf, 0xe9b5dba5, 0x3956c25b, 0x59f111f1, 0x923f82a4, 0xab1c5ed5,
   0xd807aa98, 0x12835b01, 0x243185be, 0x550c7dc3, 0x72be5d74, 0x80deb1fe, 0x9bdc06a7, 0xc19bf174,
   0xe49b69c1, 0xefbe4786, 0x0fc19dc6, 0x240ca1cc, 0x2de92c6f, 0x4a7484aa, 0x5cb0a9dc, 0x76f988da,
   0x983e5152, 0xa831c66d, 0xb00327c8, 0xbf597fc7, 0xc6e00bf3, 0xd5a79147, 0x06ca6351, 0x14292967,
   0x27b70a85, 0x2e1b2138, 0x4d2c6dfc, 0x53380d13, 0x650a7354, 0x766a0abb, 0x81c2c92e, 0x92722c85,
   0xa2bfe8a1, 0xa81a664b, 0xc24b8b70, 0xc76c51a3, 0xd192e819, 0xd6990624, 0xf40e3585, 0x106aa070,
   0x19a4c116, 0x1e376c08, 0x2748774c, 0x34b0bcb5, 0x391c0cb3, 0x4ed8aa4a, 0x5b9cca4f, 0x682e6ff3,
   0x748f82ee, 0x78a5636f, 0x84c87814, 0x8cc70208, 0x90befffa, 0xa4506ceb, 0xbef9a3f7, 0xc67178f2]

/-- The eight words of the chaining value. -/
structure State where
  (a b c d e f g h : UInt32)

/-- The chaining value before the first block. -/
def State.initial : State :=
  ⟨0x6a09e667, 0xbb67ae85, 0x3c6ef372, 0xa54ff53a, 0x510e527f, 0x9b05688c, 0x1f83d9ab, 0x5be0cd19⟩

/-- Rotation to the right, for `0 < n < 32`. -/
def rotr (x n : UInt32) : UInt32 := (x >>> n) ||| (x <<< (32 - n))

/-- One round with message word `w` and constant `k`. -/
def State.round (s : State) (w k : UInt32) : State :=
  let s₁ := rotr s.e 6 ^^^ rotr s.e 11 ^^^ rotr s.e 25
  let ch := (s.e &&& s.f) ^^^ (~~~ s.e &&& s.g)
  let t₁ := s.h + s₁ + ch + k + w
  let s₀ := rotr s.a 2 ^^^ rotr s.a 13 ^^^ rotr s.a 22
  let maj := (s.a &&& s.b) ^^^ (s.a &&& s.c) ^^^ (s.b &&& s.c)
  ⟨t₁ + (s₀ + maj), s.a, s.b, s.c, s.d + t₁, s.e, s.f, s.g⟩

/-- The rounds of a block. `window` holds the next sixteen words of the message schedule. -/
def State.rounds (s : State) (window : List UInt32) : List UInt32 → State
  | [] => s
  | k :: ks =>
    let w₁ := window.getD 1 0
    let w₁₄ := window.getD 14 0
    let σ₀ := rotr w₁ 7 ^^^ rotr w₁ 18 ^^^ (w₁ >>> 3)
    let σ₁ := rotr w₁₄ 17 ^^^ rotr w₁₄ 19 ^^^ (w₁₄ >>> 10)
    let w := window.getD 0 0
    (s.round w k).rounds (window.tail ++ [w + σ₀ + window.getD 9 0 + σ₁]) ks

/-- The chaining value behind a block. -/
def State.compress (s : State) (block : List UInt32) : State :=
  let t := s.rounds block roundConstants
  ⟨s.a + t.a, s.b + t.b, s.c + t.c, s.d + t.d, s.e + t.e, s.f + t.f, s.g + t.g, s.h + t.h⟩

/-- The padding behind a message of `n` bytes: a one bit, zeros, and the length in bits. -/
def padding (n : ℕ) : List UInt8 :=
  0x80 :: List.replicate ((119 - n % 64) % 64) 0 ++
    (List.range 8).map fun i => UInt8.ofNat (n * 8 / 256 ^ (7 - i))

/-- Four bytes as a big-endian word. -/
def words : List UInt8 → List UInt32
  | a :: b :: c :: d :: l =>
    (a.toUInt32 <<< 24 ||| b.toUInt32 <<< 16 ||| c.toUInt32 <<< 8 ||| d.toUInt32) :: words l
  | _ => []

/-- The bytes of a word, most significant first. -/
def bytes (w : UInt32) : List UInt8 :=
  [(w >>> 24).toUInt8, (w >>> 16).toUInt8, (w >>> 8).toUInt8, w.toUInt8]

/-- The chaining value behind the blocks of a padded message; there are at most as many as
words. -/
def blocks (s : State) : ℕ → List UInt32 → State
  | 0, _ => s
  | _, [] => s
  | n + 1, ws => blocks (s.compress (ws.take 16)) n (ws.drop 16)

/-- The digest of a message. -/
def digest (message : ByteArray) : List UInt8 :=
  let ws := words (message.data.toList ++ padding message.size)
  let s := blocks State.initial ws.length ws
  [s.a, s.b, s.c, s.d, s.e, s.f, s.g, s.h].flatMap bytes

example : digest "abc".toUTF8 =
    [0xba, 0x78, 0x16, 0xbf, 0x8f, 0x01, 0xcf, 0xea, 0x41, 0x41, 0x40, 0xde, 0x5d, 0xae, 0x22, 0x23,
     0xb0, 0x03, 0x61, 0xa3, 0x96, 0x17, 0x7a, 0x9c, 0xb4, 0x10, 0xff, 0x61, 0xf2, 0x00, 0x15,
     0xad] := by
  decide +kernel

end AuditGateway.Sha256

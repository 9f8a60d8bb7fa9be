import Mathlib.Algebra.GroupWithZero.Nat
import Sentinel.Lib.Bytes

/-! SHA-256 as FIPS 180-4 defines it, for runs on concrete inputs. -/

namespace Lib.Sha2

def roundConstants : List UInt32 :=
  [0x428a2f98, 0x71374491, 0xb5c0fbcf, 0xe9b5dba5, 0x3956c25b, 0x59f111f1, 0x923f82a4, 0xab1c5ed5,
    0xd807aa98, 0x12835b01, 0x243185be, 0x550c7dc3, 0x72be5d74, 0x80deb1fe, 0x9bdc06a7, 0xc19bf174,
    0xe49b69c1, 0xefbe4786, 0x0fc19dc6, 0x240ca1cc, 0x2de92c6f, 0x4a7484aa, 0x5cb0a9dc, 0x76f988da,
    0x983e5152, 0xa831c66d, 0xb00327c8, 0xbf597fc7, 0xc6e00bf3, 0xd5a79147, 0x06ca6351, 0x14292967,
    0x27b70a85, 0x2e1b2138, 0x4d2c6dfc, 0x53380d13, 0x650a7354, 0x766a0abb, 0x81c2c92e, 0x92722c85,
    0xa2bfe8a1, 0xa81a664b, 0xc24b8b70, 0xc76c51a3, 0xd192e819, 0xd6990624, 0xf40e3585, 0x106aa070,
    0x19a4c116, 0x1e376c08, 0x2748774c, 0x34b0bcb5, 0x391c0cb3, 0x4ed8aa4a, 0x5b9cca4f, 0x682e6ff3,
    0x748f82ee, 0x78a5636f, 0x84c87814, 0x8cc70208, 0x90befffa, 0xa4506ceb, 0xbef9a3f7, 0xc67178f2]

structure Hash where
  a : UInt32
  b : UInt32
  c : UInt32
  d : UInt32
  e : UInt32
  f : UInt32
  g : UInt32
  h : UInt32

def Hash.initial : Hash :=
  ⟨0x6a09e667, 0xbb67ae85, 0x3c6ef372, 0xa54ff53a, 0x510e527f, 0x9b05688c, 0x1f83d9ab, 0x5be0cd19⟩

def rotr (x : UInt32) (n : UInt32) : UInt32 := (x >>> n) ||| (x <<< (32 - n))

/-- The message, a one bit, zeros to a full block, and the length in bits. -/
def pad (m : List UInt8) : List UInt8 :=
  m ++ 0x80 :: List.replicate ((119 - m.length % 64) % 64) 0 ++ beBytes 8 (8 * m.length)

def words : List UInt8 → List UInt32
  | a :: b :: c :: d :: rest =>
    (a.toUInt32 <<< 24 ||| b.toUInt32 <<< 16 ||| c.toUInt32 <<< 8 ||| d.toUInt32) :: words rest
  | _ => []

def schedule (block : List UInt32) : ℕ → List UInt32
  | 0 => block.reverse
  | n + 1 =>
    let w := schedule block n
    let x := w.getD 14 0
    let y := w.getD 1 0
    (w.getD 15 0 + (rotr x 7 ^^^ rotr x 18 ^^^ x >>> 3) + w.getD 6 0 +
      (rotr y 17 ^^^ rotr y 19 ^^^ y >>> 10)) :: w

def Hash.round (s : Hash) (k : UInt32 × UInt32) : Hash :=
  let t₁ := s.h + (rotr s.e 6 ^^^ rotr s.e 11 ^^^ rotr s.e 25) +
    ((s.e &&& s.f) ^^^ (~~~ s.e &&& s.g)) + k.1 + k.2
  let t₂ := (rotr s.a 2 ^^^ rotr s.a 13 ^^^ rotr s.a 22) +
    ((s.a &&& s.b) ^^^ (s.a &&& s.c) ^^^ (s.b &&& s.c))
  ⟨t₁ + t₂, s.a, s.b, s.c, s.d + t₁, s.e, s.f, s.g⟩

def Hash.compress (s : Hash) (block : List UInt32) : Hash :=
  let r := (roundConstants.zip (schedule block 48).reverse).foldl Hash.round s
  ⟨s.a + r.a, s.b + r.b, s.c + r.c, s.d + r.d, s.e + r.e, s.f + r.f, s.g + r.g, s.h + r.h⟩

def Hash.digest (s : Hash) : Digest :=
  digestOfNat ([s.a, s.b, s.c, s.d, s.e, s.f, s.g, s.h].foldl (fun n w => n * 2 ^ 32 + w.toNat) 0)

def blocks : ℕ → List UInt32 → List (List UInt32)
  | 0, _ => []
  | n + 1, ws => ws.take 16 :: blocks n (ws.drop 16)

def sha256 (m : List UInt8) : Digest :=
  let ws := words (pad m)
  ((blocks (ws.length / 16) ws).foldl Hash.compress .initial).digest

@[reducible] def instSha256 : Sha256 where
  digest := sha256

end Lib.Sha2

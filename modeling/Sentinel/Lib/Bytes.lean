import Mathlib.Data.List.Basic

/-! Byte strings: big-endian integers, the UTF-8 bytes of a text, and a 256-bit digest of
byte strings that a development takes as a parameter. -/

namespace Lib

def beBytes : Nat → Nat → List UInt8
  | 0, _ => []
  | n + 1, v => beBytes n (v / 256) ++ [UInt8.ofNat v]

def utf8Bytes (s : String) : List UInt8 := s.toList.flatMap String.utf8EncodeChar

abbrev Digest := Vector UInt8 32

/-- The SHA-256 function of the hashing library. Nothing is assumed of it; what a result needs
about collisions is stated there, for the messages of that run. -/
class Sha256 where
  digest : List UInt8 → Digest

theorem length_beBytes (n v : Nat) : (beBytes n v).length = n := by
  induction n generalizing v with
  | zero => rfl
  | succ n ih => simp [beBytes, ih]

def digestOfNat (v : Nat) : Digest := ⟨(beBytes 32 v).toArray, by simp [length_beBytes]⟩

@[reducible] def Sha256.ofTable (rows : List (List UInt8 × Digest)) : Sha256 where
  digest m := (rows.lookup m).getD (digestOfNat 0)

end Lib

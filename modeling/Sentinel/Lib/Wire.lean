import Mathlib.Algebra.Order.Ring.Nat
import Mathlib.Data.Vector.Basic
import Sentinel.Lib.Result

/-! Positional binary formats. A wire form writes a value and reads one from the front of a byte
string, and what was written is read back whatever follows it. Records are the concatenation of
their fields, so wire forms compose; nothing in the bytes says which form they are in. -/

namespace Lib

def leBytes : ℕ → ℕ → List UInt8
  | 0, _ => []
  | n + 1, v => UInt8.ofNat v :: leBytes n (v / 256)

def leValue : List UInt8 → ℕ
  | [] => 0
  | b :: bs => b.toNat + 256 * leValue bs

@[simp] theorem length_leBytes (n v : ℕ) : (leBytes n v).length = n := by
  induction n generalizing v with
  | zero => rfl
  | succ n ih => simp [leBytes, ih]

theorem leValue_leBytes {n v : ℕ} (h : v < 256 ^ n) : leValue (leBytes n v) = v := by
  induction n generalizing v with
  | zero => simp_all [leBytes, leValue]
  | succ n ih =>
    have hrest : v / 256 < 256 ^ n := by
      rw [Nat.div_lt_iff_lt_mul (by decide)]
      rwa [pow_succ] at h
    have hbyte : (UInt8.ofNat v).toNat = v % 256 := by simp
    rw [leBytes, leValue, ih hrest, hbyte]
    omega

structure Vec (α : Type) where
  toList : List α
  length_lt : toList.length < 2 ^ 64
deriving DecidableEq

namespace Vec

variable {ε α β : Type}

def empty : Vec α := ⟨[], Nat.two_pow_pos 64⟩

def map (f : α → β) (v : Vec α) : Vec β := ⟨v.toList.map f, by simpa using v.length_lt⟩

def mapAll (f : α → Except ε β) (v : Vec α) : Except ε (Vec β) :=
  match h : Lib.mapAll f v.toList with
  | .ok l => .ok ⟨l, length_mapAll h ▸ v.length_lt⟩
  | .error e => .error e

theorem mapAll_eq_ok {f : α → Except ε β} {v : Vec α} {w : Vec β} :
    mapAll f v = .ok w ↔ Lib.mapAll f v.toList = .ok w.toList := by
  cases w with
  | mk l hl =>
    unfold mapAll
    split
    next l' h => simp [h]
    next e h => simp [h]

end Vec

structure Text where
  toString : String
  size_lt : toString.toUTF8.data.toList.length < 2 ^ 64

structure Wire (α : Type) where
  encode : α → List UInt8
  decode : List UInt8 → Option (α × List UInt8)
  decode_encode (a : α) (rest : List UInt8) : decode (encode a ++ rest) = some (a, rest)

namespace Wire

variable {α β : Type}

def word (n : ℕ) : Wire (BitVec (8 * n)) where
  encode v := leBytes n v.toNat
  decode bytes :=
    if n ≤ bytes.length then some (BitVec.ofNat _ (leValue (bytes.take n)), bytes.drop n) else none
  decode_encode v rest := by
    have hlength := length_leBytes n v.toNat
    have hvalue : v.toNat < 256 ^ n := by
      have hlt := v.isLt
      rwa [pow_mul] at hlt
    rw [if_pos (by simp), List.take_left' hlength, List.drop_left' hlength,
      leValue_leBytes hvalue, BitVec.ofNat_toNat, BitVec.setWidth_eq]

def pair (a : Wire α) (b : Wire β) : Wire (α × β) where
  encode v := a.encode v.1 ++ b.encode v.2
  decode bytes := do
    let (x, bytes) ← a.decode bytes
    let (y, bytes) ← b.decode bytes
    some ((x, y), bytes)
  decode_encode v rest := by
    rw [List.append_assoc, a.decode_encode, Option.bind_eq_bind, Option.bind_some]
    show (do let (y, bytes) ← b.decode (b.encode v.2 ++ rest); some ((v.1, y), bytes)) = _
    rw [b.decode_encode]
    rfl

def equiv (a : Wire α) (e : α ≃ β) : Wire β where
  encode v := a.encode (e.symm v)
  decode bytes := (a.decode bytes).map fun r => (e r.1, r.2)
  decode_encode v rest := by
    rw [a.decode_encode, Option.map_some, Equiv.apply_symm_apply]

def option (a : Wire α) : Wire (Option α) where
  encode
    | none => [0]
    | some v => 1 :: a.encode v
  decode
    | 0 :: bytes => some (none, bytes)
    | 1 :: bytes => (a.decode bytes).map fun r => (some r.1, r.2)
    | _ => none
  decode_encode v rest := by
    cases v with
    | none => rfl
    | some v =>
      show (a.decode (a.encode v ++ rest)).map _ = _
      rw [a.decode_encode]
      rfl

def variant [DecidableEq α] (cases : List α) (hcases : ∀ a, a ∈ cases)
    (hlength : cases.length < 2 ^ 32) : Wire α where
  encode v := (word 4).encode (BitVec.ofNat 32 (cases.idxOf v))
  decode bytes := do
    let (index, bytes) ← (word 4).decode bytes
    let v ← cases[index.toNat]?
    some (v, bytes)
  decode_encode v rest := by
    have hindex : cases.idxOf v < cases.length := List.idxOf_lt_length_of_mem (hcases v)
    have hvalue : (BitVec.ofNat 32 (cases.idxOf v)).toNat = cases.idxOf v := by
      rw [BitVec.toNat_ofNat, Nat.mod_eq_of_lt (hindex.trans hlength)]
    rw [(word 4).decode_encode, Option.bind_eq_bind, Option.bind_some]
    show (do let w ← cases[(BitVec.ofNat 32 (cases.idxOf v)).toNat]?; some (w, rest)) = _
    rw [hvalue, List.getElem?_eq_getElem hindex, List.getElem_idxOf]
    rfl

def decodeMany (read : List UInt8 → Option (α × List UInt8)) :
    ℕ → List UInt8 → Option (List α × List UInt8)
  | 0, bytes => some ([], bytes)
  | n + 1, bytes => do
    let (v, bytes) ← read bytes
    let (vs, bytes) ← decodeMany read n bytes
    some (v :: vs, bytes)

theorem decodeMany_encode (a : Wire α) (l : List α) (rest : List UInt8) :
    decodeMany a.decode l.length (l.flatMap a.encode ++ rest) = some (l, rest) := by
  induction l with
  | nil => rfl
  | cons v l ih =>
    rw [List.flatMap_cons, List.append_assoc, List.length_cons, decodeMany, a.decode_encode,
      Option.bind_eq_bind, Option.bind_some]
    show (do
      let (vs, bytes) ← decodeMany a.decode l.length (l.flatMap a.encode ++ rest)
      some (v :: vs, bytes)) = _
    rw [ih]
    rfl

def vec (a : Wire α) : Wire (Vec α) where
  encode v := (word 8).encode (BitVec.ofNat 64 v.toList.length) ++ v.toList.flatMap a.encode
  decode bytes := do
    let (length, bytes) ← (word 8).decode bytes
    let (l, bytes) ← decodeMany a.decode length.toNat bytes
    if h : l.length < 2 ^ 64 then some (Vec.mk l h, bytes) else none
  decode_encode v rest := by
    have hvalue : (BitVec.ofNat 64 v.toList.length).toNat = v.toList.length := by
      rw [BitVec.toNat_ofNat, Nat.mod_eq_of_lt v.length_lt]
    rw [List.append_assoc, (word 8).decode_encode, Option.bind_eq_bind, Option.bind_some]
    show (do
      let (l, bytes) ← decodeMany a.decode (BitVec.ofNat 64 v.toList.length).toNat
        (v.toList.flatMap a.encode ++ rest)
      if h : l.length < 2 ^ 64 then some (Vec.mk l h, bytes) else none) = _
    rw [hvalue, decodeMany_encode, Option.bind_eq_bind, Option.bind_some]
    exact dif_pos v.length_lt

def array (n : ℕ) (a : Wire α) : Wire (List.Vector α n) where
  encode v := v.toList.flatMap a.encode
  decode bytes := do
    let (l, bytes) ← decodeMany a.decode n bytes
    if h : l.length = n then some (⟨l, h⟩, bytes) else none
  decode_encode v rest := by
    have hmany := decodeMany_encode a v.toList rest
    rw [v.toList_length] at hmany
    rw [hmany, Option.bind_eq_bind, Option.bind_some]
    exact dif_pos v.toList_length

def byte : Wire UInt8 where
  encode b := [b]
  decode
    | b :: bytes => some (b, bytes)
    | [] => none
  decode_encode _ _ := rfl

def text : Wire Text where
  encode t := (vec byte).encode ⟨t.toString.toUTF8.data.toList, t.size_lt⟩
  decode bytes := do
    let (v, bytes) ← (vec byte).decode bytes
    let s ← String.fromUTF8? ⟨v.toList.toArray⟩
    if h : s.toUTF8.data.toList.length < 2 ^ 64 then some (Text.mk s h, bytes) else none
  decode_encode t rest := by
    have hbytes : (⟨t.toString.toUTF8.data.toList.toArray⟩ : ByteArray) = t.toString.toUTF8 := by
      rw [Array.toArray_toList]
    have hread : String.fromUTF8? t.toString.toUTF8 = some t.toString :=
      dif_pos t.toString.isValidUTF8
    rw [(vec byte).decode_encode, Option.bind_eq_bind, Option.bind_some]
    show (do
      let s ← String.fromUTF8? ⟨t.toString.toUTF8.data.toList.toArray⟩
      if h : s.toUTF8.data.toList.length < 2 ^ 64 then some (Text.mk s h, rest) else none) = _
    rw [hbytes, hread, Option.bind_eq_bind, Option.bind_some]
    exact dif_pos t.size_lt

def whole (a : Wire α) (bytes : List UInt8) : Option α :=
  match a.decode bytes with
  | some (v, []) => some v
  | _ => none

variable {a : Wire α} {b : Wire β}

theorem pair_decode_eq_some {bytes rest : List UInt8} {x : α} {y : β} :
    (a.pair b).decode bytes = some ((x, y), rest) ↔
      ∃ middle, a.decode bytes = some (x, middle) ∧ b.decode middle = some (y, rest) := by
  simp [pair, Option.bind_eq_some_iff]

theorem equiv_decode_eq_some {e : α ≃ β} {bytes rest : List UInt8} {y : β} :
    (a.equiv e).decode bytes = some (y, rest) ↔ a.decode bytes = some (e.symm y, rest) := by
  simp only [equiv, Option.map_eq_some_iff, Prod.exists, Prod.mk.injEq]
  constructor
  · rintro ⟨x, bytes, h, rfl, rfl⟩
    rwa [Equiv.symm_apply_apply]
  · intro h
    exact ⟨_, _, h, e.apply_symm_apply y, rfl⟩

theorem whole_encode (v : α) : a.whole (a.encode v) = some v := by
  have hdecode := a.decode_encode v []
  rw [List.append_nil] at hdecode
  rw [whole, hdecode]

theorem decode_of_whole {bytes : List UInt8} {v : α} (h : a.whole bytes = some v) :
    a.decode bytes = some (v, []) := by
  unfold whole at h
  split at h
  · obtain rfl := Option.some.inj h
    assumption
  · cases h

theorem whole_encode_append {v : α} {rest : List UInt8} (h : rest ≠ []) :
    a.whole (a.encode v ++ rest) = none := by
  rw [whole, a.decode_encode]
  cases rest with
  | nil => exact absurd rfl h
  | cons => rfl

theorem pair_whole_encode (v : α) (h : b.decode [] = none) :
    (a.pair b).whole (a.encode v) = none := by
  have hdecode := a.decode_encode v []
  rw [List.append_nil] at hdecode
  simp [whole, pair, hdecode, h]

theorem decode_nil_vec : (vec a).decode [] = none := rfl

theorem decode_nil_option : (option a).decode [] = none := rfl

theorem encode_vec_empty : (vec a).encode Vec.empty = List.replicate 8 0 := by
  show (word 8).encode 0#64 ++ [] = _
  decide

end Wire

end Lib

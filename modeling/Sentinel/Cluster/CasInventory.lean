import Sentinel.Cluster.BlockMap
import Sentinel.Lib.Delimited
import Sentinel.Lib.Paging
import Sentinel.Lib.Uuid
import Mathlib.Order.WithBot

/-! Leveled anti-entropy over a node's block index (`sentinel-common`, modules `anti_entropy` and
`block_ref`): the summary of each group of blocks and the paginated walk over the index. The
index compares whole references; a fingerprint is made of the locator text, which leaves the
size out. -/

namespace Sentinel.Cluster
open Lib

/-! ## References -/

def BlockNamespace.rank : BlockNamespace → ℕ
  | blob => 0
  | chunk => 1
  | fsTrash => 2
  | manifest => 3

def BlockNamespace.wireLabel : BlockNamespace → String
  | blob => "cas-blob"
  | chunk => "artifact-chunk"
  | fsTrash => "fs-trash"
  | manifest => "manifest"

def HashAlgorithm.rank : HashAlgorithm → ℕ
  | sha256 => 0
  | blake3128 => 1
  | blake3256 => 2

def HashAlgorithm.wireLabel : HashAlgorithm → String
  | sha256 => "sha256"
  | blake3128 => "blake3-128"
  | blake3256 => "blake3-256"

def HashAlgorithm.digestLen : HashAlgorithm → ℕ
  | sha256 => 32
  | blake3128 => 16
  | blake3256 => 32

theorem BlockNamespace.rank_injective : Function.Injective BlockNamespace.rank := by
  intro a b h
  cases a <;> cases b <;> first | rfl | cases h

theorem HashAlgorithm.rank_injective : Function.Injective HashAlgorithm.rank := by
  intro a b h
  cases a <;> cases b <;> first | rfl | cases h

attribute [ext] BlockRef

namespace BlockRef

def Sized (b : BlockRef) : Prop := b.digest.length = b.algorithm.digestLen

instance : DecidablePred Sized := fun b => inferInstanceAs (Decidable (b.digest.length = _))

def rank (b : BlockRef) : ℕ ×ₗ ℕ ×ₗ List ℕ ×ₗ ℕ ×ₗ WithBot String ×ₗ ℕ :=
  toLex (b.space.rank, toLex (b.algorithm.rank, toLex (b.digest.map UInt8.toNat,
    toLex (b.sizeBytes, toLex (b.chunkProfile, b.version)))))

theorem rank_injective : Function.Injective rank := by
  intro a b h
  obtain ⟨hspace, h⟩ := Prod.mk.inj (toLex.injective h)
  obtain ⟨halg, h⟩ := Prod.mk.inj (toLex.injective h)
  obtain ⟨hdigest, h⟩ := Prod.mk.inj (toLex.injective h)
  obtain ⟨hsize, h⟩ := Prod.mk.inj (toLex.injective h)
  obtain ⟨hprofile, hversion⟩ := Prod.mk.inj (toLex.injective h)
  have hdigest := List.map_injective_iff.2 (fun _ _ => UInt8.toNat_inj.1) hdigest
  exact BlockRef.ext (BlockNamespace.rank_injective hspace) (HashAlgorithm.rank_injective halg)
    hdigest hsize hprofile hversion

instance : LinearOrder BlockRef := LinearOrder.lift' rank rank_injective

def locator (b : BlockRef) : List Char :=
  b.space.wireLabel.toList ++ [':'] ++ ('v' :: (toString b.version).toList ++ [':']) ++
    (b.algorithm.wireLabel.toList ++ [':']) ++
    (b.chunkProfile.elim [] (·.toList ++ [':']) ++ (hexText b.digest).toList)

def display (b : BlockRef) : String := String.ofList b.locator

def SameButSize (a b : BlockRef) : Prop := { a with sizeBytes := b.sizeBytes } = b

instance (a b : BlockRef) : Decidable (SameButSize a b) :=
  inferInstanceAs (Decidable (_ = b))

end BlockRef

/-! ## The locator determines everything but the size -/

theorem delimited_namespace :
    Delimited fun (s : BlockNamespace) x => x = s.wireLabel.toList ++ [':'] := by
  refine delimited_terminated ?_ ?_
  · intro s
    cases s <;> decide
  · intro a b h
    cases a <;> cases b <;> first | rfl | exact absurd h (by decide)

theorem delimited_algorithm :
    Delimited fun (a : HashAlgorithm) x => x = a.wireLabel.toList ++ [':'] := by
  refine delimited_terminated ?_ ?_
  · intro a
    cases a <;> decide
  · intro a b h
    cases a <;> cases b <;> first | rfl | exact absurd h (by decide)

theorem delimited_version :
    Delimited fun (n : ℕ) x => x = 'v' :: (toString n).toList ++ [':'] := by
  refine delimited_terminated ?_ ?_
  · intro n hmem
    rcases List.mem_cons.1 hmem with h | h
    · exact absurd h (by decide)
    · rw [Nat.toString_eq_ofList_toDigits, String.toList_ofList] at h
      have hdigit := Nat.isDigit_of_mem_toDigits (Nat.zero_lt_succ 9) (Nat.le_refl 10) h
      exact absurd hdigit (by decide)
  · intro m n h
    have hdigits := (List.cons.inj h).2
    rw [Nat.toString_eq_ofList_toDigits, Nat.toString_eq_ofList_toDigits, String.toList_ofList,
      String.toList_ofList] at hdigits
    rw [← Nat.ofDigitChars_ten_toDigits (n := m), hdigits, Nat.ofDigitChars_ten_toDigits]

theorem profile_inj {p q : Option String}
    (h : p.elim [] (·.toList ++ [':']) = q.elim [] (·.toList ++ [':'])) : p = q := by
  cases p with
  | none =>
    cases q with
    | none => rfl
    | some q => exact absurd h.symm (List.append_ne_nil_of_right_ne_nil _ (by simp))
  | some p =>
    cases q with
    | none => exact absurd h (List.append_ne_nil_of_right_ne_nil _ (by simp))
    | some q =>
      have hlist := List.append_cancel_right h
      exact congrArg some (String.toList_injective hlist)

theorem BlockRef.locator_eq_iff {a b : BlockRef} (ha : a.Sized) (hb : b.Sized) :
    a.locator = b.locator ↔ a.SameButSize b := by
  constructor
  · intro h
    unfold locator at h
    simp only [List.append_assoc] at h
    rw [← List.append_assoc, ← List.append_assoc b.space.wireLabel.toList] at h
    obtain ⟨hspace, h⟩ := delimited_namespace rfl rfl h
    rw [← List.append_assoc, ← List.append_assoc ('v' :: (toString b.version).toList)] at h
    obtain ⟨hversion, h⟩ := delimited_version rfl rfl h
    rw [← List.append_assoc, ← List.append_assoc b.algorithm.wireLabel.toList] at h
    obtain ⟨halg, h⟩ := delimited_algorithm rfl rfl h
    have hlen : (hexText a.digest).toList.length = (hexText b.digest).toList.length := by
      rw [length_toList_hexText, length_toList_hexText, ha, hb, halg]
    obtain ⟨hprofile, hhex⟩ := List.append_inj' h hlen
    have hdigest := hexText_injective (String.toList_injective hhex)
    exact BlockRef.ext hspace halg hdigest rfl (profile_inj hprofile) hversion
  · intro h
    rw [SameButSize] at h
    rw [← h]
    rfl

/-! ## Fingerprints -/

abbrev Fingerprint := Vector UInt8 16

def fnvLane (bytes : List UInt8) (basis : UInt64) : UInt64 :=
  bytes.foldl (fun h b => (h ^^^ b.toUInt64) * 0x00000100000001B3) basis

def fnvLanes (text : String) : Fingerprint :=
  let hi := fnvLane (utf8Bytes text) 0xcbf29ce484222325
  let lo := fnvLane (utf8Bytes text) 0x9e3779b97f4a7c15
  ⟨((beBytes 8 hi.toNat).reverse ++ (beBytes 8 lo.toNat).reverse).toArray, by
    simp [length_beBytes]⟩

def blockFingerprint (block : BlockRef) : Fingerprint := fnvLanes block.display

/-! ## The index -/

structure CasInventory where
  entries : Table BlockRef ℕ

@[ext] structure GroupKey where
  space : BlockNamespace
  chunkProfile : Option String

instance : LinearOrder GroupKey :=
  LinearOrder.lift' (β := ℕ ×ₗ WithBot String)
    (fun key => toLex (key.space.rank, (key.chunkProfile : WithBot String))) fun a b h => by
      have hpair := toLex.injective h
      exact GroupKey.ext (BlockNamespace.rank_injective (Prod.mk.inj hpair).1)
        (Prod.mk.inj hpair).2

structure GroupAccumulator where
  blockCount : ℕ := 0
  maxGeneration : ℕ := 0
  fingerprint : Fingerprint := Vector.replicate 16 0

structure GenerationSummary where
  space : BlockNamespace
  chunkProfile : Option String
  blockCount : ℕ
  maxGeneration : ℕ
  fingerprint : Fingerprint
deriving DecidableEq

abbrev InventoryPage := Page BlockRef ℕ

def BlockRef.groupKey (block : BlockRef) : GroupKey := ⟨block.space, block.chunkProfile⟩

namespace CasInventory

def new : CasInventory := ⟨Table.empty⟩

def insert (inv : CasInventory) (block : BlockRef) (generation : ℕ) : CasInventory × Bool :=
  match inv.entries.get block with
  | some g => if generation ≤ g then (inv, false) else (⟨inv.entries.insert block generation⟩, true)
  | none => (⟨inv.entries.insert block generation⟩, true)

def remove (inv : CasInventory) (block : BlockRef) : CasInventory × Bool :=
  (⟨inv.entries.erase block⟩, (inv.entries.get block).isSome)

def contains (inv : CasInventory) (block : BlockRef) : Bool := (inv.entries.get block).isSome

def addToGroup (groups : Table GroupKey GroupAccumulator) (entry : BlockRef × ℕ) :
    Table GroupKey GroupAccumulator :=
  let acc := (groups.get entry.1.groupKey).getD {}
  groups.insert entry.1.groupKey
    { blockCount := acc.blockCount + 1
      maxGeneration := max acc.maxGeneration entry.2
      fingerprint := acc.fingerprint.zipWith (· ^^^ ·) (blockFingerprint entry.1) }

def groups (inv : CasInventory) : Table GroupKey GroupAccumulator :=
  inv.entries.entries.foldl addToGroup Table.empty

def summaries (inv : CasInventory) : List GenerationSummary :=
  inv.groups.entries.map fun (key, acc) =>
    ⟨key.space, key.chunkProfile, acc.blockCount, acc.maxGeneration, acc.fingerprint⟩

def summaryOf (inv : CasInventory) (key : GroupKey) : Option GenerationSummary :=
  inv.summaries.find? fun s => (⟨s.space, s.chunkProfile⟩ : GroupKey) = key

end CasInventory

end Sentinel.Cluster

import Mathlib.Data.Prod.Lex
import Sentinel.Cluster.ClusterMeta
import Sentinel.Lib.Machine
import Sentinel.Lib.Register

/-! The distributed block map (`sentinel-common`, module `block_map`): which nodes are known to
hold a block. Every slot of a block and a node is a register ordered by the incarnation and the
generation of the advertisement; a removal leaves a tombstone in it. -/

namespace Sentinel.Cluster
open Lib

inductive BlockNamespace where
  | blob
  | chunk
  | fsTrash
  | manifest
deriving DecidableEq

inductive HashAlgorithm where
  | sha256
  | blake3128
  | blake3256
deriving DecidableEq

structure BlockRef where
  space : BlockNamespace
  algorithm : HashAlgorithm
  digest : List UInt8
  sizeBytes : ℕ
  chunkProfile : Option String
  version : ℕ
deriving DecidableEq

/-- Node identities are ordered by the bytes of the UUID. -/
instance : LinearOrder NodeId :=
  LinearOrder.lift' (fun n : NodeId => n.uuid.toNat) fun a b h => by
    cases a
    cases b
    exact congrArg NodeId.mk (BitVec.eq_of_toNat_eq h)

inductive HolderAction where
  | add
  | remove
deriving DecidableEq

structure HolderAdvertisement where
  blockRef : BlockRef
  nodeId : NodeId
  nodeBootId : BitVec 128
  nodeIncarnation : ℕ
  nodeCasGeneration : ℕ
  action : HolderAction
  expiresAfter : ℕ

def HolderAdvertisement.freshness (adv : HolderAdvertisement) : ℕ ×ₗ ℕ :=
  toLex (adv.nodeIncarnation, adv.nodeCasGeneration)

structure HolderSlot where
  bootId : BitVec 128
  incarnation : ℕ
  casGeneration : ℕ
  present : Bool
  expiresAfter : ℕ

def HolderSlot.freshness (slot : HolderSlot) : ℕ ×ₗ ℕ :=
  toLex (slot.incarnation, slot.casGeneration)

def HolderAdvertisement.slot (adv : HolderAdvertisement) : HolderSlot where
  bootId := adv.nodeBootId
  incarnation := adv.nodeIncarnation
  casGeneration := adv.nodeCasGeneration
  present := adv.action = .add
  expiresAfter := adv.expiresAfter

structure BlockMap where
  entries : BlockRef → Option (Table NodeId HolderSlot)

namespace BlockMap

def new : BlockMap := ⟨fun _ => none⟩

variable (m : BlockMap) (adv : HolderAdvertisement)

def holdersOf (block : BlockRef) : Table NodeId HolderSlot := (m.entries block).getD Table.empty

def stale : Bool :=
  ((m.holdersOf adv.blockRef).get adv.nodeId).any fun slot => adv.freshness ≤ slot.freshness

def applyAdvertisement : BlockMap × Bool :=
  let slots := m.holdersOf adv.blockRef
  let put := fun (h : Table NodeId HolderSlot) =>
    (⟨fun block => if block = adv.blockRef then some h else m.entries block⟩ : BlockMap)
  if m.stale adv then (put slots, false) else (put (slots.insert adv.nodeId adv.slot), true)

def holders (block : BlockRef) : List NodeId := (m.holdersOf block).keysWhere (·.present)

def applyAll (advs : List HolderAdvertisement) : BlockMap :=
  advs.foldl (fun m adv => (m.applyAdvertisement adv).1) m

end BlockMap

/-! ### A slot is a register -/

def about (block : BlockRef) (node : NodeId) (advs : List HolderAdvertisement) :
    List HolderAdvertisement :=
  advs.filter fun adv => adv.blockRef = block && adv.nodeId = node

variable {m : BlockMap} {advs : List HolderAdvertisement} {block : BlockRef} {node : NodeId}

theorem mem_about {adv : HolderAdvertisement} :
    adv ∈ about block node advs ↔ adv ∈ advs ∧ adv.blockRef = block ∧ adv.nodeId = node := by
  simp [about]

theorem BlockMap.get_applyAdvertisement (adv : HolderAdvertisement) :
    ((m.applyAdvertisement adv).1.holdersOf block).get node =
      if (block = adv.blockRef ∧ node = adv.nodeId) ∧ m.stale adv = false then some adv.slot
      else (m.holdersOf block).get node := by
  unfold applyAdvertisement
  cases hstale : m.stale adv with
  | true =>
    by_cases hblock : block = adv.blockRef
    · simp [holdersOf, hblock]
    · simp [holdersOf, hblock]
  | false =>
    by_cases hblock : block = adv.blockRef
    · by_cases hnode : node = adv.nodeId
      · simp [holdersOf, hblock, hnode, Table.get_insert]
      · simp [holdersOf, hblock, hnode, Table.get_insert]
    · simp [holdersOf, hblock]

theorem BlockMap.get_applyAll (advs : List HolderAdvertisement) :
    ((new.applyAll advs).holdersOf block).get node =
      (register HolderAdvertisement.freshness (about block node advs)).map (·.slot) := by
  induction advs using List.reverseRecOn with
  | nil => rfl
  | append_singleton advs adv ih =>
    have hlast : new.applyAll (advs ++ [adv]) = ((new.applyAll advs).applyAdvertisement adv).1 := by
      simp [applyAll]
    rw [hlast, get_applyAdvertisement]
    have hsplit : about block node (advs ++ [adv]) =
        about block node advs ++ about block node [adv] := List.filter_append ..
    rw [hsplit]
    by_cases hslot : block = adv.blockRef ∧ node = adv.nodeId
    · obtain ⟨rfl, rfl⟩ := hslot
      have hone : about adv.blockRef adv.nodeId [adv] = [adv] := by simp [about]
      rw [hone, register_append_singleton]
      rw [ih]
      have hstale : (new.applyAll advs).stale adv =
          (register HolderAdvertisement.freshness (about adv.blockRef adv.nodeId advs)).any
            fun held => adv.freshness ≤ held.freshness := by
        rw [stale, ih, Option.any_map]
        rfl
      rw [hstale]
      cases register HolderAdvertisement.freshness (about adv.blockRef adv.nodeId advs) with
      | none => simp [keepNewer]
      | some held =>
        by_cases hle : adv.freshness ≤ held.freshness
        · simp [keepNewer, hle]
        · simp [keepNewer, hle]
    · have hnone : about block node [adv] = [] := by
        apply List.eq_nil_iff_forall_not_mem.2
        intro a ha
        obtain ⟨hmem, hblock, hnode⟩ := mem_about.1 ha
        rw [List.mem_singleton.1 hmem] at hblock hnode
        exact hslot ⟨hblock.symm, hnode.symm⟩
      rw [hnone, List.append_nil, if_neg fun h => hslot h.1, ih]

/-! ### Orders of delivery -/

/-- For every block and node, the freshest advertisements say the same. -/
def Unambiguous (advs : List HolderAdvertisement) : Prop :=
  ∀ block node, Settled HolderAdvertisement.freshness (·.action) (about block node advs)

theorem present_applyAll (advs : List HolderAdvertisement) :
    (((BlockMap.new.applyAll advs).holdersOf block).get node).map (·.present) =
      ((register HolderAdvertisement.freshness (about block node advs)).map (·.action)).map
        fun action => decide (action = HolderAction.add) := by
  rw [BlockMap.get_applyAll, Option.map_map, Option.map_map]
  rfl

/-- The same advertisements, in any order and repeated any number of times. -/
def Delivers (advs sent : List HolderAdvertisement) : Prop := ∀ adv, adv ∈ sent ↔ adv ∈ advs

theorem Delivers.about {sent : List HolderAdvertisement} (h : Delivers advs sent)
    (adv : HolderAdvertisement) : adv ∈ about block node sent ↔ adv ∈ about block node advs := by
  rw [mem_about, mem_about, h adv]

theorem Unambiguous.holders_eq {sent : List HolderAdvertisement} (h : Unambiguous advs)
    (hsent : Delivers advs sent) (block : BlockRef) :
    (BlockMap.new.applyAll sent).holders block = (BlockMap.new.applyAll advs).holders block := by
  refine Table.keysWhere_congr fun node => ?_
  rw [present_applyAll, present_applyAll, (h block node).map_register (hsent.about ·)]

theorem mem_holders_cons {adv : HolderAdvertisement}
    (h : Newest HolderAdvertisement.freshness (about block node advs) adv) :
    node ∈ (BlockMap.new.applyAll (adv :: advs)).holders block ↔ adv.action = .add := by
  obtain ⟨-, rfl, rfl⟩ := mem_about.1 h.1
  have hfirst : about adv.blockRef adv.nodeId (adv :: advs) =
      adv :: about adv.blockRef adv.nodeId advs := by simp [about]
  rw [BlockMap.holders, Table.mem_keysWhere, present_applyAll, hfirst, register_cons_of_le h.2]
  simp

/-- The answers do not depend on the order of delivery exactly where the freshest advertisements
about a slot agree. -/
theorem holders_order_independent_iff (advs : List HolderAdvertisement) :
    (∀ sent sent', Delivers advs sent → Delivers advs sent' → ∀ block,
      (BlockMap.new.applyAll sent).holders block = (BlockMap.new.applyAll sent').holders block) ↔
      Unambiguous advs := by
  constructor
  · intro h block node a b ha hb
    have hdeliver : ∀ adv, Newest HolderAdvertisement.freshness (about block node advs) adv →
        Delivers advs (adv :: advs) := by
      intro adv hadv other
      have hmem := (mem_about.1 hadv.1).1
      constructor
      · intro hother
        rcases List.mem_cons.1 hother with rfl | hother
        · exact hmem
        · exact hother
      · exact List.mem_cons_of_mem _
    have hsame : a.action = .add ↔ b.action = .add := by
      rw [← mem_holders_cons ha, ← mem_holders_cons hb,
        h _ _ (hdeliver a ha) (hdeliver b hb) block]
    cases ha' : a.action <;> cases hb' : b.action <;> simp_all
  · intro h sent sent' hsent hsent' block
    rw [h.holders_eq hsent, h.holders_eq hsent']

/-- A node that gains and drops a block within one generation, told in both orders. -/
def tiedBlock : BlockRef := ⟨.blob, .sha256, List.replicate 32 1, 1024, none, 1⟩

def tied (action : HolderAction) : HolderAdvertisement := ⟨tiedBlock, ⟨7⟩, 1, 1, 5, action, 100⟩

theorem tied_advertisements_disagree :
    Delivers [tied .add, tied .remove] [tied .remove, tied .add] ∧
      (BlockMap.new.applyAll [tied .add, tied .remove]).holders tiedBlock = [⟨7⟩] ∧
      (BlockMap.new.applyAll [tied .remove, tied .add]).holders tiedBlock = [] := by
  refine ⟨fun adv => ?_, by decide, by decide⟩
  simp [or_comm]

end Sentinel.Cluster

import Mathlib.Data.Prod.Lex
import Sentinel.Fs.ArtifactPlane

/-! The metadata store of the workspace file system (`sentinel-fs`, module `metadata`): inode rows
and directory entries of every layer, the reference counts and the trash queue of the legacy
blobs, and the pins of retained snapshots. Every function below is one transaction. -/

namespace Sentinel.Fs
open Lib

abbrev BlobHash := Fin (2 ^ 256)

instance blobHashNeZero : NeZero (2 ^ 256) := inferInstance

instance : LawfulBEq BlobHash := inferInstance

def blobHash (digest : Digest) : BlobHash :=
  Fin.ofNat (2 ^ 256) (digest.toList.foldl (fun n b => n * 256 + b.toNat) 0)

def u32Max : ℕ := 2 ^ 32 - 1
def u64Max : ℕ := 2 ^ 64 - 1

def sharedBaseLayerId : String := "__BASE__"

inductive FsError
  | errno (code : ℕ)
  | other (message : String)

inductive FileKind
  | regular
  | directory
  | symlink
deriving DecidableEq

structure InodeData where
  kind : FileKind
  hash : BlobHash
  size : ℕ
  mode : ℕ
  uid : ℕ
  gid : ℕ
  nlinks : ℕ
  mtime : ℕ
  ctime : ℕ
  atime : ℕ
  symlinkTarget : String

namespace InodeData

def regular (hash : BlobHash) (size mode now : ℕ) : InodeData :=
  ⟨.regular, hash, size, mode, 0, 0, 1, now, now, now, ""⟩

def directory (mode now : ℕ) : InodeData :=
  ⟨.directory, 0, 0, mode, 0, 0, 2, now, now, now, ""⟩

end InodeData

structure WorkspaceInode where
  data : InodeData
  generation : ℕ
  content : Option WorkspaceContentRef
  inherited : Bool

namespace WorkspaceInode

def legacy (data : InodeData) : WorkspaceInode := ⟨data, 0, none, false⟩

def Coherent (r : WorkspaceInode) : Prop :=
  ∀ content ∈ r.content,
    r.data.kind = .regular ∧ r.data.size = content.size ∧ r.data.hash = blobHash content.sha256

instance (r : WorkspaceInode) : Decidable r.Coherent :=
  match h : r.content with
  | none => .isTrue (by simp [Coherent, h])
  | some content =>
    decidable_of_iff
      (r.data.kind = .regular ∧ r.data.size = content.size ∧
        r.data.hash = blobHash content.sha256) (by simp [Coherent, h])

/-- The blob that the row keeps alive. Only legacy rows take part in the reference counts. -/
def legacyHash (r : WorkspaceInode) : Option BlobHash :=
  if r.content = none ∧ r.data.kind = .regular ∧ r.data.size ≠ u64Max then some r.data.hash
  else none

end WorkspaceInode

abbrev InodeKey := String ×ₗ ℕ

abbrev DirentKey := String ×ₗ ℕ ×ₗ String

/-- The allocation counters, which the store keeps under inode number zero, are a table of their
own. -/
structure MetadataStore where
  inodes : Table InodeKey WorkspaceInode
  counters : Table String ℕ
  dirents : Table DirentKey ℕ
  refcounts : Table BlobHash ℕ
  trash : Table BlobHash ℕ
  pins : Table (String ×ₗ BlobHash) ℕ

namespace MetadataStore

def opened : MetadataStore := ⟨.empty, .empty, .empty, .empty, .empty, .empty⟩

def workspaceInode (m : MetadataStore) (agent : String) (inode : ℕ) : Option WorkspaceInode :=
  m.inodes.get (toLex (agent, inode))

def setInode (m : MetadataStore) (agent : String) (inode : ℕ) (data : InodeData) : MetadataStore :=
  { m with inodes := m.inodes.insert (toLex (agent, inode)) (.legacy data) }

/-! ## Namespace transactions -/

def dropReference (m : MetadataStore) (now : ℕ) (hash : BlobHash) : MetadataStore :=
  let count := (m.refcounts.get hash).getD 0 - 1
  if count = 0 then
    { m with refcounts := m.refcounts.erase hash, trash := m.trash.insert hash now }
  else { m with refcounts := m.refcounts.insert hash count }

def addReference (m : MetadataStore) (hash : BlobHash) : Except FsError MetadataStore := do
  let count := (m.refcounts.get hash).getD 0
  ensure (count < u32Max) (.other "Refcount overflow")
  return { m with refcounts := m.refcounts.insert hash (count + 1), trash := m.trash.erase hash }

def moveReference (m : MetadataStore) (now : ℕ) (old new : Option BlobHash) :
    Except FsError MetadataStore :=
  if old = new then .ok m
  else
    let dropped := old.elim m (m.dropReference now)
    new.elim (.ok dropped) dropped.addReference

def adoptRow (m : MetadataStore) (agent : String) (now : ℕ) (inode : ℕ) (record : WorkspaceInode) :
    Except FsError MetadataStore := do
  let old := (m.workspaceInode agent inode).bind WorkspaceInode.legacyHash
  let counted ← m.moveReference now old record.legacyHash
  ensure record.Coherent (.other "Incoherent workspace inode binding")
  return { counted with inodes := counted.inodes.insert (toLex (agent, inode)) record }

def adoptRows (m : MetadataStore) (agent : String) (now : ℕ) :
    List (ℕ × WorkspaceInode) → Except FsError MetadataStore
  | [] => .ok m
  | (inode, record) :: rows => do
    let adopted ← m.adoptRow agent now inode record
    adopted.adoptRows agent now rows

/-- `None` is a removal; inode zero is a whiteout of the base entry with that name. -/
def adoptName (agent : String) (m : MetadataStore) (entry : ℕ × String × Option ℕ) :
    MetadataStore :=
  let key : DirentKey := toLex (agent, toLex (entry.1, entry.2.1))
  match entry.2.2 with
  | some child => { m with dirents := m.dirents.insert key child }
  | none => { m with dirents := m.dirents.erase key }

def commitNamespace (m : MetadataStore) (agent : String) (now : ℕ)
    (inodes : List (ℕ × WorkspaceInode)) (dirents : List (ℕ × String × Option ℕ)) :
    Except FsError MetadataStore := do
  let adopted ← m.adoptRows agent now inodes
  return dirents.foldl (adoptName agent) adopted

def putName (agent : String) (names : Table DirentKey ℕ) (entry : ℕ × String × Option ℕ) :
    Table DirentKey ℕ :=
  let key : DirentKey := toLex (agent, toLex (entry.1, entry.2.1))
  entry.2.2.elim (names.erase key) (names.insert key)

theorem foldl_adoptName_eq (agent : String) (names : List (ℕ × String × Option ℕ))
    (m : MetadataStore) : names.foldl (adoptName agent) m =
      { m with dirents := names.foldl (putName agent) m.dirents } := by
  induction names generalizing m with
  | nil => rfl
  | cons entry names ih =>
    obtain ⟨parent, name, child⟩ := entry
    cases child <;> exact ih _

/-! ## Inode numbers -/

def namespaceInodeHighWater (m : MetadataStore) : ℕ :=
  (m.inodes.entries.map (fun row => (ofLex row.1).2) ++ m.counters.values).foldl max 1

/-! ## Trash and pins -/

def referencedHashes (m : MetadataStore) : List BlobHash :=
  m.inodes.values.filterMap WorkspaceInode.legacyHash

def referencedBlobHashes (m : MetadataStore) : List BlobHash :=
  (m.referencedHashes.filter fun hash => hash ≠ 0).dedup

def pinSnapshotBlobs (m : MetadataStore) (snapshotId : String) (now : ℕ) (hashes : List BlobHash) :
    MetadataStore :=
  { m with pins := hashes.foldl (fun t hash => t.insert (toLex (snapshotId, hash)) now) m.pins }

def unpinSnapshotBlobs (m : MetadataStore) (snapshotId : String) (hashes : List BlobHash) :
    MetadataStore :=
  { m with pins := hashes.foldl (fun t hash => t.erase (toLex (snapshotId, hash))) m.pins }

def pinnedHashes (m : MetadataStore) : List BlobHash :=
  m.pins.entries.map fun row => (ofLex row.1).2

def expiredHashes (m : MetadataStore) (pinned : List BlobHash) (cutoff : ℕ) : List BlobHash :=
  (m.trash.entries.filter fun row =>
    row.2 ≤ cutoff ∧ m.refcounts.get row.1 = none ∧ row.1 ∉ pinned).map Prod.fst

def cleanQueue (m : MetadataStore) (expired : List BlobHash) : MetadataStore :=
  let unqueue := fun t hash => if m.refcounts.get hash = none then t.erase hash else t
  { m with trash := expired.foldl unqueue m.trash }

end MetadataStore

/-! ## Dumps -/

/-- The tables of a world snapshot. A dump that names an inode twice or holds bytes that do not
decode is refused before anything else. -/
structure FsMetadataDump where
  inodes : Table InodeKey WorkspaceInode
  counters : Table String ℕ
  dirents : Table DirentKey ℕ
  refcounts : Table BlobHash ℕ
  trashQueue : Table BlobHash ℕ

namespace MetadataStore

def validateWorkspaceMetadataDump (dump : FsMetadataDump) : Except FsError Unit :=
  ensure (∀ row ∈ dump.inodes.values, row.Coherent) (.other "Incoherent workspace inode binding")

/-- Content is restored, allocation is not: the base counter keeps the highest number of both
states. -/
def restoreWorkspaceTables (m : MetadataStore) (dump : FsMetadataDump) :
    Except FsError MetadataStore := do
  validateWorkspaceMetadataDump dump
  let restored : MetadataStore :=
    ⟨dump.inodes, dump.counters, dump.dirents, dump.refcounts, dump.trashQueue, m.pins⟩
  let maximum := max m.namespaceInodeHighWater restored.namespaceInodeHighWater
  return { restored with counters := restored.counters.insert sharedBaseLayerId maximum }

end MetadataStore
end Sentinel.Fs

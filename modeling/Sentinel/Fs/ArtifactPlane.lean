import Mathlib.Data.String.Basic
import Sentinel.Fs.Chunker
import Sentinel.Lib.Arrays
import Sentinel.Lib.Bytes
import Sentinel.Lib.Machine
import Sentinel.Lib.Result
import Sentinel.Lib.Table
import Sentinel.Lib.Uuid

/-! The artifact plane (`sentinel-fs`, modules `artifact`, `ingest`, `segment`, `chunk_cache` and
`gc`): objects cut into chunks that are indexed by their hash and counted by the manifests that
name them, and workspace versions published as extents over chunks and holes.

A write transaction is one step, and a failed one leaves the tables as they were. The bytes it
had already appended to the segments are dead space that no location names. -/

namespace Sentinel.Fs
open Lib

abbrev ChunkHash := Fin (2 ^ 128)

instance chunkHashNeZero : NeZero (2 ^ 128) := inferInstance

class Blake3 where
  hash128 : List UInt8 → ChunkHash

/-- The compression library: what it has compressed it decompresses. -/
class Zstd where
  encodeAll : List UInt8 → Option (List UInt8)
  decodeAll : List UInt8 → Except String (List UInt8)
  decode_encode : ∀ data encoded, encodeAll data = some encoded → decodeAll encoded = .ok data

def hexEncode (hash : ChunkHash) : String := hexText (beBytes 16 hash)

def minCompressBytes : ℕ := 256

def compressChunk [Zstd] (data : List UInt8) : List UInt8 :=
  if minCompressBytes ≤ data.length then
    match Zstd.encodeAll data with
    | some compressed => if compressed.length < data.length then 1 :: compressed else 0 :: data
    | none => 0 :: data
  else 0 :: data

def decompressChunk [Zstd] : List UInt8 → Except String (List UInt8)
  | [] => .error "Empty chunk"
  | tag :: encoded =>
    if tag = 0 then .ok encoded
    else if tag = 1 then Zstd.decodeAll encoded
    else .error ("Unknown chunk prefix: 0x" ++ hexText [tag])

structure ObjectMetadata where
  size : ℕ
  chunkCount : ℕ
  sha256 : Digest

structure WorkspaceContentRef where
  objectId : ℕ
  size : ℕ
  sha256 : Digest

structure WorkspacePatch where
  offset : ℕ
  data : List UInt8

abbrev WorkspaceExtent := Extent ChunkHash

/-- The tables, the segments and the chunk cache. A location is a place in `segments`; the row of
an object in `extents` is its marker with the extents under their starts; `sessions` are the
ingest sessions that callers hold. -/
structure ArtifactPlane where
  objectCounter : ℕ
  objects : Table ℕ ObjectMetadata
  manifests : Table ℕ (List ChunkHash)
  extents : Table ℕ (Table ℕ WorkspaceExtent)
  chunks : Table ChunkHash ℕ
  refcounts : Table ChunkHash ℕ
  trash : Table ChunkHash ℕ
  objectRefs : Table String ℕ
  roots : Table String ℕ
  segments : List (List UInt8)
  cache : Table ChunkHash (List UInt8)
  sessions : List ℕ

def conversionError : String := "out of range integral type conversion attempted"

namespace ArtifactPlane

def opened : ArtifactPlane :=
  ⟨0, .empty, .empty, .empty, .empty, .empty, .empty, .empty, .empty, [], .empty, []⟩

section Plane
variable [Blake3] [Zstd] [Sha256]

/-! ## Chunks -/

def appendChunk (p : ArtifactPlane) (hash : ChunkHash) (raw : List UInt8) :
    Except String ArtifactPlane := do
  ensure (raw.length < 2 ^ 32) conversionError
  return { p with
    segments := p.segments ++ [raw]
    chunks := p.chunks.insert hash p.segments.length }

def storeChunk (p : ArtifactPlane) (data : List UInt8) : Except String ArtifactPlane :=
  match p.chunks.get (Blake3.hash128 data) with
  | some _ => .ok p
  | none => p.appendChunk (Blake3.hash128 data) (compressChunk data)

def storeChunks (p : ArtifactPlane) : List (List UInt8) → Except String ArtifactPlane
  | [] => .ok p
  | chunk :: chunks => do
    let stored ← p.storeChunk chunk
    stored.storeChunks chunks

def readSegment (p : ArtifactPlane) (location : ℕ) : Except String (List UInt8) :=
  (p.segments[location]?).elim (.error "failed to fill whole buffer") .ok

def readIndexedChunk (p : ArtifactPlane) (hash : ChunkHash) (location : ℕ) :
    Except String (List UInt8) :=
  match p.cache.get hash with
  | some bytes => .ok bytes
  | none => do
    let raw ← p.readSegment location
    let bytes ← decompressChunk raw
    ensure (Blake3.hash128 bytes = hash) "workspace chunk digest mismatch"
    return bytes

def readChunk (p : ArtifactPlane) (hash : ChunkHash) : Except String (List UInt8) := do
  let location ← (p.chunks.get hash).elim (.error "workspace chunk missing") .ok
  p.readIndexedChunk hash location

def chunkSlice (bytes : List UInt8) (start len : ℕ) : Except String (List UInt8) := do
  ensure (start + len < 2 ^ 64) "chunk slice overflow"
  ensure (start + len ≤ bytes.length) "invalid chunk slice"
  return (bytes.drop start).take len

def raiseRefcount (counts : Table ChunkHash ℕ) (hash : ChunkHash) :
    Except String (Table ChunkHash ℕ) := do
  let count := (counts.get hash).getD 0
  ensure (count + 1 < 2 ^ 32) "chunk refcount overflow"
  return counts.insert hash (count + 1)

def acquire (p : ArtifactPlane) (hash : ChunkHash) : Except String ArtifactPlane := do
  let refcounts ← raiseRefcount p.refcounts hash
  return { p with refcounts := refcounts, trash := p.trash.erase hash }

def acquireAll (p : ArtifactPlane) : List ChunkHash → Except String ArtifactPlane
  | [] => .ok p
  | hash :: manifest => do
    let acquired ← p.acquire hash
    acquired.acquireAll manifest

/-! ## Workspace versions -/

def validateWorkspaceBinding (metadata : ObjectMetadata) (content : WorkspaceContentRef) :
    Except String Unit :=
  ensure (metadata.size = content.size ∧ metadata.sha256 = content.sha256)
    ("workspace content binding mismatch for object " ++ toString content.objectId)

def validateExtents (size : ℕ) : ℕ → List WorkspaceExtent → Except String Unit
  | stop, [] => ensure (stop = size) "incomplete workspace extent index"
  | stop, e :: es => do
    ensure (e.start = stop ∧ 0 < e.len) "invalid workspace extent index"
    ensure (stop + e.len < 2 ^ 64) "extent overflow"
    ensure (stop + e.len ≤ size) "workspace extent exceeds size"
    validateExtents size (stop + e.len) es

def boundExtents (p : ArtifactPlane) (missing : String) (content : WorkspaceContentRef) :
    Except String (Table ℕ WorkspaceExtent) := do
  let metadata ← (p.objects.get content.objectId).elim (.error missing) .ok
  validateWorkspaceBinding metadata content
  (p.extents.get content.objectId).elim (.error "object is not workspace content") .ok

def baseExtents (p : ArtifactPlane) (size : ℕ) :
    Option WorkspaceContentRef → Except String (List WorkspaceExtent)
  | none => .ok []
  | some base => do
    let rows ← p.boundExtents "workspace base object not found" base
    ensure (∀ row ∈ rows.entries, row.2.start = row.1) "workspace index key mismatch"
    validateExtents base.size 0 rows.values
    return (rows.values.takeWhile fun e => e.start < size).map fun e =>
      e.slice e.start (min (e.start + e.len) size)

def extendTo (size : ℕ) (es : List WorkspaceExtent) : List WorkspaceExtent :=
  let stop := (es.getLast?.map fun e => e.start + e.len).getD 0
  if stop < size then es ++ [⟨stop, size - stop, none, 0⟩] else es

def chunkExtents : ℕ → List (List UInt8) → List WorkspaceExtent
  | _, [] => []
  | start, chunk :: chunks =>
    ⟨start, chunk.length, some (Blake3.hash128 chunk), 0⟩ ::
      chunkExtents (start + chunk.length) chunks

def spliceExtents (es : List WorkspaceExtent) (start stop : ℕ)
    (replacement : List WorkspaceExtent) : List WorkspaceExtent :=
  let first := Extents.partitionPoint (fun e => e.start + e.len ≤ start) es
  let last := Extents.partitionPoint (fun e => e.start < stop) es
  let left := match es[first]? with
    | none => []
    | some e => if e.start < start then [e.slice e.start start] else []
  let right := match es[last - 1]? with
    | none => []
    | some e => if stop < e.start + e.len then [e.slice stop (e.start + e.len)] else []
  es.take first ++ (left ++ replacement ++ right) ++ es.drop last

def applyPatches (size : ℕ) : ArtifactPlane → List WorkspaceExtent → List WorkspacePatch →
    Except String (ArtifactPlane × List WorkspaceExtent)
  | p, es, [] => .ok (p, es)
  | p, es, patch :: patches =>
    if size ≤ patch.offset ∨ patch.data = [] then applyPatches size p es patches
    else do
      let len := min (size - patch.offset) patch.data.length
      let chunks := chunkData (patch.data.take len)
      let stored ← p.storeChunks chunks
      applyPatches size stored
        (spliceExtents es patch.offset (patch.offset + len) (chunkExtents patch.offset chunks))
        patches

def extentMaterial (p : ArtifactPlane) (e : WorkspaceExtent) : Except String (List UInt8) :=
  match e.source with
  | none => .ok (List.replicate e.len 0)
  | some hash => do
    let bytes ← p.readChunk hash
    chunkSlice bytes e.offset e.len

def material (p : ArtifactPlane) : List WorkspaceExtent → Except String (List UInt8)
  | [] => .ok []
  | e :: es => do
    let bytes ← p.extentMaterial e
    let rest ← p.material es
    return bytes ++ rest

def manifestOf (es : List WorkspaceExtent) : List ChunkHash := es.filterMap Extent.source

def nextObjectId (p : ArtifactPlane) : Except String ℕ := do
  ensure (p.objectCounter + 1 < 2 ^ 64 - 1) "object id exhausted"
  return p.objectCounter + 1

def insertVersion (p : ArtifactPlane) (objectId : ℕ) (metadata : ObjectMetadata)
    (es : List WorkspaceExtent) : ArtifactPlane :=
  { p with
    objectCounter := objectId
    objects := p.objects.insert objectId metadata
    manifests := p.manifests.insert objectId (manifestOf es)
    extents := p.extents.insert objectId (Table.ofRows Extent.start es) }

def publishWorkspace (p : ArtifactPlane) (base : Option WorkspaceContentRef) (size : ℕ)
    (patches : List WorkspacePatch) : Except String (WorkspaceContentRef × ArtifactPlane) := do
  ensure (∀ patch ∈ patches, patch.offset + patch.data.length < 2 ^ 64) "workspace patch overflow"
  let kept ← p.baseExtents size base
  let (stored, es) ← applyPatches size p (extendTo size kept) patches
  let bytes ← stored.material es
  let sha256 := Sha256.digest bytes
  let objectId ← stored.nextObjectId
  let chunkCount := (manifestOf es).length
  ensure (chunkCount < 2 ^ 32) conversionError
  let published ← (stored.insertVersion objectId ⟨size, chunkCount, sha256⟩ es).acquireAll
    (manifestOf es)
  return (⟨objectId, size, sha256⟩, published)

def retainWorkspace (p : ArtifactPlane) (root : String) (content : WorkspaceContentRef) :
    Except String ArtifactPlane := do
  ensure (root ≠ "") "workspace root must not be empty"
  let _ ← p.boundExtents "workspace object not found" content
  return { p with roots := p.roots.insert root content.objectId }

/-! ## Releasing -/

def lowerRefcount (counts : Table ChunkHash ℕ) (hash : ChunkHash) : Table ChunkHash ℕ :=
  let current := (counts.get hash).getD 0
  if current ≤ 1 then counts.erase hash else counts.insert hash (current - 1)

def releaseObject (p : ArtifactPlane) (objectId : ℕ) : ArtifactPlane :=
  if objectId ∈ p.roots.values then p
  else if objectId ∈ p.objectRefs.values then p
  else match p.manifests.get objectId with
    | none => p
    | some manifest =>
      { p with
        refcounts := manifest.foldl lowerRefcount p.refcounts
        manifests := p.manifests.erase objectId
        objects := p.objects.erase objectId
        extents := p.extents.erase objectId }

def releaseWorkspace (p : ArtifactPlane) (root : String) : ArtifactPlane :=
  match p.roots.get root with
  | none => p
  | some old => releaseObject { p with roots := p.roots.erase root } old

/-! ## Ingest -/

def ingestChunks (p : ArtifactPlane) : List (List UInt8) → Except String ArtifactPlane
  | [] => .ok p
  | chunk :: chunks => do
    let stored ← p.storeChunk chunk
    let acquired ← stored.acquire (Blake3.hash128 chunk)
    acquired.ingestChunks chunks

def storeObject (p : ArtifactPlane) (objectId : ℕ) (data : List UInt8) :
    Except String ArtifactPlane := do
  let manifest := (chunkData data).map Blake3.hash128
  let stored ← p.ingestChunks (chunkData data)
  ensure (manifest.length < 2 ^ 32) conversionError
  return { stored with
    manifests := stored.manifests.insert objectId manifest
    objects := stored.objects.insert objectId
      ⟨data.length, manifest.length, Sha256.digest data⟩ }

/-- A session whose number could not be allocated has the number zero. -/
def beginIngest (p : ArtifactPlane) : ArtifactPlane :=
  match p.nextObjectId with
  | .ok objectId => { p with objectCounter := objectId, sessions := objectId :: p.sessions }
  | .error _ => { p with sessions := 0 :: p.sessions }

def commitIngest (p : ArtifactPlane) (objectId : ℕ) (data : List UInt8) :
    Except String ArtifactPlane := do
  ensure (objectId ≠ 0) "ingest session id allocation failed"
  p.storeObject objectId data

def allocateIds (p : ArtifactPlane) : ℕ → ArtifactPlane × Except String (List ℕ)
  | 0 => (p, .ok [])
  | n + 1 =>
    match p.nextObjectId with
    | .error e => (p, .error e)
    | .ok objectId =>
      let (allocated, ids) := allocateIds { p with objectCounter := objectId } n
      (allocated, ids.map (objectId :: ·))

def storeObjects (p : ArtifactPlane) : List (ℕ × List UInt8) → Except String ArtifactPlane
  | [] => .ok p
  | (objectId, data) :: rest => do
    let stored ← p.storeObject objectId data
    stored.storeObjects rest

/-- `BatchIngest::commit`: the numbers stay allocated when the transaction fails. -/
def batchIngest (p : ArtifactPlane) (batch : List (List UInt8)) :
    ArtifactPlane × Except String (List ℕ) :=
  match p.allocateIds batch.length with
  | (allocated, .error e) => (allocated, .error e)
  | (allocated, .ok ids) =>
    match allocated.storeObjects (ids.zip batch) with
    | .error e => (allocated, .error e)
    | .ok stored => (stored, .ok ids)

def setRef (p : ArtifactPlane) (name : String) (objectId : ℕ) : ArtifactPlane :=
  { p with objectRefs := p.objectRefs.insert name objectId }

def storePulledChunk (p : ArtifactPlane) (raw : List UInt8) (hash : ChunkHash) :
    Except String ArtifactPlane := do
  let decompressed ← (decompressChunk raw).mapError ("pulled chunk decompress failed: " ++ ·)
  ensure (Blake3.hash128 decompressed = hash)
    ("pulled chunk digest mismatch: got " ++ hexEncode (Blake3.hash128 decompressed) ++
      " want " ++ hexEncode hash ++ " — rejected, not stored")
  match p.chunks.get hash with
  | some _ => return p
  | none =>
    let appended ← p.appendChunk hash raw
    let refcounts ← raiseRefcount appended.refcounts hash
    return { appended with refcounts := refcounts }

/-! ## The cache -/

def cacheVerified (p : ArtifactPlane) (bytes : List UInt8) : ArtifactPlane :=
  { p with cache := p.cache.insert (Blake3.hash128 bytes) bytes }

def readChunkDecompressed (p : ArtifactPlane) (hash : ChunkHash) :
    Except String ArtifactPlane :=
  match p.cache.get hash with
  | some _ => .ok p
  | none => do
    let location ← (p.chunks.get hash).elim
      (.error ("Chunk " ++ hexEncode hash ++ " not found")) .ok
    let raw ← p.readSegment location
    let bytes ← decompressChunk raw
    return { p with cache := p.cache.insert hash bytes }

def evict (p : ArtifactPlane) (hash : ChunkHash) : ArtifactPlane :=
  { p with cache := p.cache.erase hash }

/-! ## Collection -/

def zeroRefChunks (p : ArtifactPlane) : List ChunkHash :=
  (p.chunks.entries.map Prod.fst).filter fun hash => p.refcounts.get hash = none

def trashOrphan (now : ℕ) (p : ArtifactPlane) (hash : ChunkHash) : ArtifactPlane :=
  if p.refcounts.get hash = none ∧ p.trash.get hash = none then
    { p with trash := p.trash.insert hash now }
  else p

def gcChunks (p : ArtifactPlane) (now : ℕ) : ArtifactPlane :=
  p.zeroRefChunks.foldl (trashOrphan now) p

def expiredTrash (p : ArtifactPlane) (cutoff : ℕ) : List ChunkHash :=
  (p.trash.entries.filter fun row => row.2 ≤ cutoff).map Prod.fst

def freeExpired (p : ArtifactPlane) (hash : ChunkHash) : ArtifactPlane :=
  if 0 < (p.refcounts.get hash).getD 0 then { p with trash := p.trash.erase hash }
  else
    { p with
      chunks := p.chunks.erase hash
      refcounts := p.refcounts.erase hash
      trash := p.trash.erase hash }

def gcTrash (p : ArtifactPlane) (now gracePeriodHours : ℕ) : ArtifactPlane :=
  (p.expiredTrash (now - gracePeriodHours * 3600000)).foldl freeExpired p

def restoreFromTrash (p : ArtifactPlane) (hash : ChunkHash) : ArtifactPlane :=
  match p.trash.get hash with
  | none => p
  | some _ =>
    { p with
      trash := p.trash.erase hash
      refcounts := p.refcounts.insert hash (max ((p.refcounts.get hash).getD 0) 1) }

/-! ## Runs -/

inductive Action
  | beginIngest
  | commitIngest (objectId : ℕ) (data : List UInt8)
  | abortIngest (objectId : ℕ)
  | batchIngest (batch : List (List UInt8))
  | publishWorkspace (base : Option WorkspaceContentRef) (size : Fin (2 ^ 64))
      (patches : List WorkspacePatch)
  | retainWorkspace (root : String) (content : WorkspaceContentRef)
  | releaseWorkspace (root : String)
  | releaseObject (objectId : ℕ)
  | setRef (name : String) (objectId : ℕ)
  | storePulledChunk (raw : List UInt8) (hash : ChunkHash)
  | gcChunks (now : ℕ)
  | gcTrash (now gracePeriodHours : ℕ)
  | restoreFromTrash (hash : ChunkHash)
  | cacheVerified (bytes : List UInt8)
  | readChunkDecompressed (hash : ChunkHash)
  | evict (hash : ChunkHash)

def commitOr (p : ArtifactPlane) : Except String ArtifactPlane → ArtifactPlane × Except String Unit
  | .ok q => (q, .ok ())
  | .error e => (p, .error e)

/-- A session is used up by its commit or abort, so a number that no caller holds is no call. -/
def call (p : ArtifactPlane) : Action → ArtifactPlane × Except String Unit
  | .beginIngest => (p.beginIngest, .ok ())
  | .commitIngest objectId data =>
    if objectId ∈ p.sessions then
      let closed := { p with sessions := p.sessions.erase objectId }
      closed.commitOr (closed.commitIngest objectId data)
    else (p, .ok ())
  | .abortIngest objectId => ({ p with sessions := p.sessions.erase objectId }, .ok ())
  | .batchIngest batch =>
    let (q, ids) := p.batchIngest batch
    (q, ids.map fun _ => ())
  | .publishWorkspace base size patches =>
    p.commitOr ((p.publishWorkspace base size patches).map Prod.snd)
  | .retainWorkspace root content => p.commitOr (p.retainWorkspace root content)
  | .releaseWorkspace root => (p.releaseWorkspace root, .ok ())
  | .releaseObject objectId => (p.releaseObject objectId, .ok ())
  | .setRef name objectId => (p.setRef name objectId, .ok ())
  | .storePulledChunk raw hash => p.commitOr (p.storePulledChunk raw hash)
  | .gcChunks now => (p.gcChunks now, .ok ())
  | .gcTrash now hours => (p.gcTrash now hours, .ok ())
  | .restoreFromTrash hash => (p.restoreFromTrash hash, .ok ())
  | .cacheVerified bytes => (p.cacheVerified bytes, .ok ())
  | .readChunkDecompressed hash => p.commitOr (p.readChunkDecompressed hash)
  | .evict hash => (p.evict hash, .ok ())

def machine : Machine ArtifactPlane Action (Except String Unit) := ⟨call⟩

end Plane
end ArtifactPlane
end Sentinel.Fs

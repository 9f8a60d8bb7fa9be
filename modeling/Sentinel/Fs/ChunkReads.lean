import Sentinel.Fs.PlaneLedger

/-! Reading an object's chunks (`sentinel-fs`, module `artifact`): those in the cache are taken from
it, and the others are looked up, read and decompressed in one batch. -/

namespace Sentinel.Fs.ArtifactPlane
open Lib

section Reads
variable [Blake3] [Zstd] {S : Set (List UInt8)} {p q : ArtifactPlane}

def fillMisses : List (Option (List UInt8)) → List (List UInt8) → List (List UInt8)
  | some bytes :: found, read => bytes :: fillMisses found read
  | none :: found, bytes :: read => bytes :: fillMisses found read
  | _, _ => []

def chunkLocation (p : ArtifactPlane) (hash : ChunkHash) : Except String ℕ :=
  (p.chunks.get hash).elim (.error ("Chunk " ++ hexEncode hash ++ " not found")) .ok

def readDecompressed (p : ArtifactPlane) (location : ℕ) : Except String (List UInt8) :=
  p.readSegment location >>= decompressChunk

def missed (p : ArtifactPlane) (hashes : List ChunkHash) : List ChunkHash :=
  hashes.filter fun hash => p.cache.get hash = none

def readChunksDecompressed (p : ArtifactPlane) (hashes : List ChunkHash) :
    Except String (List (List UInt8) × ArtifactPlane) := do
  let locations ← mapAll p.chunkLocation (p.missed hashes)
  let read ← mapAll p.readDecompressed locations
  let cache := ((p.missed hashes).zip read).foldl (fun rows row => rows.insert row.1 row.2) p.cache
  return (fillMisses (hashes.map p.cache.get) read, { p with cache })

/-! ## The cache -/

def CacheSound (S : Set (List UInt8)) (p : ArtifactPlane) : Prop :=
  ∀ k bytes, p.cache.get k = some bytes → Blake3.hash128 bytes = k ∧ bytes ∈ S

theorem CacheSound.steps (hsteps : CountedSteps S p q) (hindex : Index S p)
    (h : CacheSound S p) : CacheSound S q := by
  induction hsteps with
  | refl => exact h
  | @tail q r hbefore hstep ih =>
    have hindex := hindex.steps hbefore
    cases hstep with
    | idle hq =>
      rw [hq]
      exact ih
    | cache hcache =>
      intro k bytes hk
      rcases hcache k bytes hk with hold | hnew | ⟨location, raw, hlocation, hraw, hbytes⟩
      · exact ih k bytes hold
      · exact hnew
      · obtain ⟨raw', bytes', hraw', hbytes', hholds⟩ := hindex.holds k location hlocation
        rw [hraw] at hraw'
        cases hraw'
        rw [hbytes] at hbytes'
        cases hbytes'
        exact hholds
    | add _ _ hacquires =>
      unfold CacheSound
      rw [hacquires.rest]
      exact ih
    | release => exact ih
    | trash =>
      rw [trashOrphan_eq]
      exact ih
    | free =>
      rw [freeExpired_eq]
      exact ih

theorem CacheSound.advance (hledger : Ledger S p) (h : CacheSound S p) {a : Action}
    (hcall : Called S p a q) : CacheSound S q := by
  cases hcall with
  | pulled _ _ _ _ _ hacquires =>
    unfold CacheSound
    rw [hacquires.rest]
    exact h
  | restored => exact h
  | stepped hsteps => exact .steps hsteps hledger.index h

theorem CacheSound.run [Sha256] (hledger : Ledger S p) (h : CacheSound S p) {run : List Action}
    (hrun : Within S run) : CacheSound S (machine.final p run) := by
  induction run generalizing p with
  | nil => exact h
  | cons a run ih =>
    have hcall := call_advances (hrun a List.mem_cons_self) hledger.fresh
    exact ih (hledger.advance hcall) (h.advance hledger hcall.1)
      fun b hb => hrun b (List.mem_cons_of_mem _ hb)

/-! ## Reading -/

theorem Ledger.indexed (h : Ledger S p) {objectId : ℕ} {m : List ChunkHash} {hash : ChunkHash}
    (hget : p.manifests.get objectId = some m) (hmem : hash ∈ m) : p.chunks.get hash ≠ none := by
  have hoccurs : 0 < p.occurrences hash :=
    (List.count_pos_iff.2 hmem).trans_le (Table.le_total hget)
  exact h.index.counted hash (hoccurs.trans_le (h.covered hash))

theorem exists_read (hindex : Index S p) (hcache : CacheSound S p)
    (hinj : Set.InjOn Blake3.hash128 S) {cs : List (List UInt8)}
    (hcs : ∀ c ∈ cs, c ∈ S ∧ p.chunks.get (Blake3.hash128 c) ≠ none) :
    ∃ locations read, mapAll p.chunkLocation (p.missed (cs.map Blake3.hash128)) = .ok locations ∧
      mapAll p.readDecompressed locations = .ok read ∧
      fillMisses ((cs.map Blake3.hash128).map p.cache.get) read = cs := by
  induction cs with
  | nil => exact ⟨[], [], rfl, rfl, rfl⟩
  | cons c cs ih =>
    obtain ⟨⟨hc, hindexed⟩, hcs⟩ := List.forall_mem_cons.1 hcs
    obtain ⟨locations, read, hlocations, hread, hfill⟩ := ih hcs
    unfold missed at hlocations ⊢
    cases hfound : p.cache.get (Blake3.hash128 c) with
    | some bytes =>
      obtain ⟨hhash, hbytes⟩ := hcache _ bytes hfound
      obtain rfl := hinj hbytes hc hhash
      refine ⟨locations, read, ?_, hread, ?_⟩
      · simpa [hfound] using hlocations
      · simpa [hfound, fillMisses] using hfill
    | none =>
      obtain ⟨location, hlocation⟩ := Option.ne_none_iff_exists'.1 hindexed
      obtain ⟨raw, bytes, hraw, hdecompress, hhash, hbytes⟩ := hindex.holds _ _ hlocation
      obtain rfl := hinj hbytes hc hhash
      have hat : p.chunkLocation (Blake3.hash128 bytes) = .ok location := elim_eq_ok.2 hlocation
      have hbytes : p.readDecompressed location = .ok bytes :=
        bind_eq_ok.2 ⟨raw, readSegment_eq_ok.2 hraw, hdecompress⟩
      refine ⟨location :: locations, bytes :: read, ?_, ?_, ?_⟩
      · simp [hfound, mapAll, hat, hlocations, bind, Except.bind]
      · simp [mapAll, hbytes, hread, bind, Except.bind]
      · simpa [hfound, fillMisses] using hfill

/-- **Objects read back.** After any run, an object whose manifest names the chunks of `data` is
read as `data`, wherever its chunks came from and whatever the cache has kept, as long as the hash
does not confuse the chunks of the run. -/
theorem object_reads_back [Sha256] (hinj : Set.InjOn Blake3.hash128 S) {run : List Action}
    (hrun : Within S run) {objectId : ℕ} {data : List UInt8} (hdata : ∀ c ∈ chunkData data, c ∈ S)
    (hget : (machine.final opened run).manifests.get objectId =
      some ((chunkData data).map Blake3.hash128)) :
    ∃ chunks after, (machine.final opened run).readChunksDecompressed
        ((chunkData data).map Blake3.hash128) = .ok (chunks, after) ∧ chunks.flatten = data := by
  have hledger : Ledger S (machine.final opened run) := .run .opened hrun
  have hcache : CacheSound S (machine.final opened run) := .run .opened nofun hrun
  obtain ⟨locations, read, hlocations, hread, hfill⟩ := exists_read hledger.index hcache hinj
    fun c hc => ⟨hdata c hc, hledger.indexed hget (List.mem_map_of_mem hc)⟩
  refine ⟨_, _, bind_eq_ok.2 ⟨locations, hlocations, bind_eq_ok.2 ⟨read, hread, rfl⟩⟩, ?_⟩
  rw [hfill]
  exact chunkData_flatten data

/-! ## Storing content that is there already -/

theorem ingestChunks_known {cs : List (List UInt8)}
    (hcs : ∀ c ∈ cs, p.chunks.get (Blake3.hash128 c) ≠ none) (h : p.ingestChunks cs = .ok q) :
    q.segments = p.segments ∧ q.chunks = p.chunks := by
  induction cs generalizing p with
  | nil =>
    cases h
    exact ⟨rfl, rfl⟩
  | cons c cs ih =>
    obtain ⟨hindexed, hcs⟩ := List.forall_mem_cons.1 hcs
    obtain ⟨location, hlocation⟩ := Option.ne_none_iff_exists'.1 hindexed
    simp only [ingestChunks, storeChunk, hlocation, acquire, bind_eq_ok, Except.ok.injEq] at h
    obtain ⟨_, rfl, _, ⟨refcounts, -, hacquired⟩, h⟩ := h
    cases hacquired
    have hlater := ih (by exact hcs) h
    exact hlater

/-- **Known content takes no space.** After any run, storing `data` again, whose chunks a manifest
names already, appends nothing to the segments and leaves the index as it is. -/
theorem known_content_appends_nothing [Sha256] {run : List Action} {objectId newId : ℕ}
    {data : List UInt8} (hget : (machine.final opened run).manifests.get objectId =
      some ((chunkData data).map Blake3.hash128))
    (hstore : (machine.final opened run).storeObject newId data = .ok q) :
    q.segments = (machine.final opened run).segments ∧
      q.chunks = (machine.final opened run).chunks := by
  have hledger : Ledger Set.univ (machine.final opened run) :=
    .run .opened fun _ _ _ _ => Set.mem_univ _
  obtain ⟨stored, hstored, h⟩ := bind_eq_ok.1 hstore
  obtain ⟨-, -, h⟩ := bind_eq_ok.1 h
  cases h
  exact ingestChunks_known (q := stored)
    (fun c hc => hledger.indexed hget (List.mem_map_of_mem hc)) hstored

end Reads

theorem chunkData_seven : chunkData [7] = [[7]] := by decide +kernel

theorem ingestSeven_manifest : (sampleMachine.final opened ingestSeven).manifests.get 1 =
    some ((chunkData [7]).map (@Blake3.hash128 sampleBlake3)) := by
  rw [chunkData_seven]
  decide +kernel

theorem ingested_seven_reads_back :
    ∃ chunks after, @readChunksDecompressed sampleZstd (sampleMachine.final opened ingestSeven)
      ((chunkData [7]).map (@Blake3.hash128 sampleBlake3)) = .ok (chunks, after) ∧
        chunks.flatten = [7] := by
  refine @object_reads_back sampleBlake3 sampleZstd {[7]} Sha2.instSha256
    (Set.injOn_singleton _ _) ingestSeven ?_ 1 [7] ?_ ingestSeven_manifest
  · simp [Within, ingestSeven, Action.chunks, chunkData_seven]
  · simp [chunkData_seven]

theorem second_seven_appends_nothing : ∃ q, @storeObject sampleBlake3 sampleZstd Sha2.instSha256
    (sampleMachine.final opened ingestSeven) 2 [7] = .ok q ∧ q.segments = [[0, 7]] := by
  obtain ⟨q, hq⟩ := Option.isSome_iff_exists.1 (by decide +kernel : (@storeObject sampleBlake3
    sampleZstd Sha2.instSha256 (sampleMachine.final opened ingestSeven) 2 [7]).toOption.isSome)
  have hq := toOption_eq_some.1 hq
  have h := @known_content_appends_nothing sampleBlake3 sampleZstd q Sha2.instSha256 ingestSeven 1 2
    [7] ingestSeven_manifest hq
  exact ⟨q, hq, h.1.trans (by decide +kernel)⟩

end Sentinel.Fs.ArtifactPlane

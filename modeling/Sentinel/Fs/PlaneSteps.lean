import Sentinel.Fs.ArtifactPlane

/-! What the calls of the artifact plane do to the chunk index, the reference counts and the
object tables. Chunks come from a set `S` of byte strings, so that a result can assume of the hash
only what it needs of the chunks of its run. -/

namespace Sentinel.Fs.ArtifactPlane
open Lib List Table

theorem decompress_compress [Zstd] (data : List UInt8) :
    decompressChunk (compressChunk data) = .ok data := by
  have hraw : decompressChunk (0 :: data) = .ok data := rfl
  unfold compressChunk
  split_ifs
  · cases hencode : Zstd.encodeAll data with
    | none => exact hraw
    | some compressed =>
      dsimp only
      split_ifs
      · exact Zstd.decode_encode data compressed hencode
      · exact hraw
  · exact hraw

def countOf (p : ArtifactPlane) (hash : ChunkHash) : ℕ := (p.refcounts.get hash).getD 0

def occurrences (p : ArtifactPlane) (hash : ChunkHash) : ℕ := p.manifests.total (List.count hash)

variable {p q r : ArtifactPlane} {m m' : List ChunkHash} {hash : ChunkHash}

theorem appendChunk_eq_ok {raw : List UInt8} : p.appendChunk hash raw = .ok q ↔
    raw.length < 2 ^ 32 ∧ { p with segments := p.segments ++ [raw],
                                   chunks := p.chunks.insert hash p.segments.length } = q := by
  simp only [appendChunk, bind_eq_ok, ensure_eq_ok, pure, Except.pure, Except.ok.injEq,
    exists_const]

theorem raiseRefcount_eq_ok {counts counts' : Table ChunkHash ℕ} :
    raiseRefcount counts hash = .ok counts' ↔
      (counts.get hash).getD 0 + 1 < 2 ^ 32 ∧
        counts.insert hash ((counts.get hash).getD 0 + 1) = counts' := by
  simp only [raiseRefcount, bind_eq_ok, ensure_eq_ok, pure, Except.pure, Except.ok.injEq,
    exists_const]

theorem getD_get_raise (counts : Table ChunkHash ℕ) (hash h : ChunkHash) :
    ((counts.insert hash ((counts.get hash).getD 0 + 1)).get h).getD 0 =
      (counts.get h).getD 0 + [hash].count h := by
  rw [get_insert, count_singleton]
  by_cases heq : h = hash
  · simp [heq]
  · simp [heq, Ne.symm heq]

theorem lowerRefcount_eq (counts : Table ChunkHash ℕ) (hash : ChunkHash) :
    lowerRefcount counts hash =
      if (counts.get hash).getD 0 ≤ 1 then counts.erase hash
      else counts.insert hash ((counts.get hash).getD 0 - 1) := rfl

theorem lowerRefcount_getD (counts : Table ChunkHash ℕ) (hash h : ChunkHash) :
    ((lowerRefcount counts hash).get h).getD 0 = (counts.get h).getD 0 - [hash].count h := by
  have hcount : [hash].count h = if h = hash then 1 else 0 := by
    rw [count_singleton]
    by_cases heq : h = hash
    · simp [heq]
    · simp [heq, Ne.symm heq]
  rw [lowerRefcount_eq, hcount]
  by_cases hle : (counts.get hash).getD 0 ≤ 1
  · rw [if_pos hle, get_erase]
    split_ifs with heq
    · rw [heq, Option.getD_none]
      omega
    · rfl
  · rw [if_neg hle, get_insert]
    split_ifs with heq
    · rw [heq, Option.getD_some]
    · rfl

theorem foldl_lowerRefcount_getD (m : List ChunkHash) (counts : Table ChunkHash ℕ)
    (h : ChunkHash) :
    ((m.foldl lowerRefcount counts).get h).getD 0 = (counts.get h).getD 0 - m.count h := by
  induction m generalizing counts with
  | nil => rfl
  | cons hash m ih =>
    rw [foldl_cons, ih, lowerRefcount_getD, Nat.sub_sub, ← count_append,
      singleton_append]

theorem foldl_lowerRefcount_positive {counts : Table ChunkHash ℕ}
    (hp : ∀ h, counts.get h ≠ some 0) (h : ChunkHash) :
    (m.foldl lowerRefcount counts).get h ≠ some 0 := by
  induction m generalizing counts with
  | nil => exact hp h
  | cons hash m ih =>
    refine ih fun k => ?_
    rw [lowerRefcount_eq]
    by_cases hle : (counts.get hash).getD 0 ≤ 1
    · rw [if_pos hle, get_erase]
      split_ifs
      · exact Option.some_ne_none 0 |>.symm
      · exact hp k
    · rw [if_neg hle, get_insert]
      split_ifs
      · intro hzero
        have := Option.some.inj hzero
        omega
      · exact hp k

/-! ## Object numbers -/

/-- Manifests have allocated numbers, and each pending number is allocated once and unused. The
number zero stands for a failed allocation. -/
structure Fresh (p : ArtifactPlane) (pending : List ℕ) : Prop where
  allocated : ∀ id, p.manifests.get id ≠ none → id ≤ p.objectCounter
  unused : ∀ id ∈ pending, id ≠ 0 → id ≤ p.objectCounter ∧ p.manifests.get id = none
  once : ∀ id, id ≠ 0 → pending.count id ≤ 1

namespace Fresh
variable {pending pending' : List ℕ} {objectId : ℕ}

theorem congr (h : Fresh p pending) (hcounter : q.objectCounter = p.objectCounter)
    (hmanifests : q.manifests = p.manifests) : Fresh q pending := by
  refine ⟨?_, ?_, h.once⟩
  · rw [hcounter, hmanifests]
    exact h.allocated
  · rw [hcounter, hmanifests]
    exact h.unused

theorem of_subperm (h : Fresh p pending) (hsub : pending'.Subperm pending) :
    Fresh p pending' where
  allocated := h.allocated
  unused id hid := h.unused id (hsub.subset hid)
  once id hid := (hsub.count_le id).trans (h.once id hid)

theorem nextObjectId_eq_ok : p.nextObjectId = .ok objectId ↔
    p.objectCounter + 1 < 2 ^ 64 - 1 ∧ p.objectCounter + 1 = objectId := by
  simp only [nextObjectId, bind_eq_ok, ensure_eq_ok, pure, Except.pure, Except.ok.injEq,
    exists_const]

theorem next_unused (h : Fresh p pending) (hnext : p.nextObjectId = .ok objectId) :
    p.manifests.get objectId = none := by
  obtain ⟨-, rfl⟩ := nextObjectId_eq_ok.1 hnext
  by_contra hget
  have hle := h.allocated _ hget
  omega

theorem allocate (h : Fresh p pending) (hnext : p.nextObjectId = .ok objectId) :
    Fresh { p with objectCounter := objectId } (objectId :: pending) := by
  have hunused := h.next_unused hnext
  obtain ⟨-, rfl⟩ := nextObjectId_eq_ok.1 hnext
  refine ⟨fun id hid => (h.allocated id hid).trans (Nat.le_succ _), ?_, ?_⟩
  · intro id hid hne
    rcases mem_cons.1 hid with rfl | hid
    · exact ⟨le_rfl, hunused⟩
    · obtain ⟨hle, hget⟩ := h.unused id hid hne
      exact ⟨hle.trans (Nat.le_succ _), hget⟩
  · intro id hne
    rw [count_cons]
    by_cases heq : p.objectCounter + 1 = id
    · have habsent : id ∉ pending := by
        intro hid
        have hle := (h.unused id hid hne).1
        omega
      rw [count_eq_zero_of_not_mem habsent]
      split_ifs <;> omega
    · have hone := h.once id hne
      simp only [beq_iff_eq, heq, if_false]
      omega

theorem store (h : Fresh p (objectId :: pending)) (hne : objectId ≠ 0)
    (hcounter : q.objectCounter = p.objectCounter)
    (hmanifests : q.manifests = p.manifests.insert objectId m) : Fresh q pending := by
  have hhead := h.unused objectId mem_cons_self hne
  have habsent : objectId ∉ pending := by
    intro hmem
    have hone := h.once objectId hne
    have hpos := count_pos_iff.2 hmem
    rw [count_cons_self] at hone
    omega
  refine ⟨?_, ?_, ?_⟩
  · intro id hid
    rw [hmanifests, get_insert] at hid
    rw [hcounter]
    split_ifs at hid with heq
    · rw [heq]
      exact hhead.1
    · exact h.allocated id hid
  · intro id hid hne'
    have hother : id ≠ objectId := fun heq => habsent (heq ▸ hid)
    rw [hcounter, hmanifests, get_insert, if_neg hother]
    exact h.unused id (mem_cons_of_mem _ hid) hne'
  · intro id hne'
    exact (List.Sublist.count_le id (sublist_cons_self _ _)).trans (h.once id hne')

theorem release (h : Fresh p pending) (hcounter : q.objectCounter = p.objectCounter)
    (hmanifests : q.manifests = p.manifests.erase objectId) : Fresh q pending := by
  have hget : ∀ id, q.manifests.get id = none ∨ q.manifests.get id = p.manifests.get id := by
    intro id
    rw [hmanifests, get_erase]
    split_ifs
    · exact .inl rfl
    · exact .inr rfl
  refine ⟨?_, ?_, h.once⟩
  · intro id hid
    rw [hcounter]
    rcases hget id with hnone | hsame
    · exact absurd hnone hid
    · exact h.allocated id (hsame ▸ hid)
  · intro id hid hne
    obtain ⟨hle, hnone⟩ := h.unused id hid hne
    rw [hcounter]
    rcases hget id with hnone' | hsame
    · exact ⟨hle, hnone'⟩
    · exact ⟨hle, hsame.trans hnone⟩

end Fresh

theorem allocateIds_spec {n : ℕ} {pending : List ℕ} (hfresh : Fresh p pending) :
    (p.allocateIds n).1 = { p with objectCounter := (p.allocateIds n).1.objectCounter } ∧
      Fresh (p.allocateIds n).1 pending ∧
      ∀ ids, (p.allocateIds n).2 = .ok ids →
        ids.length = n ∧ (∀ id ∈ ids, id ≠ 0) ∧ Fresh (p.allocateIds n).1 (ids ++ pending) := by
  induction n generalizing p pending with
  | zero =>
    refine ⟨rfl, hfresh, ?_⟩
    rintro _ ⟨⟩
    exact ⟨rfl, by simp, hfresh⟩
  | succ n ih =>
    unfold allocateIds
    cases hnext : p.nextObjectId with
    | error e => exact ⟨rfl, hfresh, nofun⟩
    | ok objectId =>
      obtain ⟨hrest, hallocated, hids⟩ := ih (hfresh.allocate hnext)
      refine ⟨hrest, hallocated.of_subperm (sublist_cons_self _ _).subperm, ?_⟩
      intro ids h
      obtain ⟨tail, htail, rfl⟩ := map_eq_ok.1 h
      obtain ⟨hlength, hne, hfresh'⟩ := hids tail htail
      have hpos : objectId ≠ 0 := by
        have hnext := (Fresh.nextObjectId_eq_ok.1 hnext).2
        omega
      refine ⟨by rw [length_cons, hlength], forall_mem_cons.2 ⟨hpos, hne⟩,
        hfresh'.of_subperm ?_⟩
      exact perm_middle.symm.subperm

/-! ## What the collections change -/

theorem trashOrphan_eq (now : ℕ) (p : ArtifactPlane) (hash : ChunkHash) :
    p.trashOrphan now hash = { p with trash := (p.trashOrphan now hash).trash } := by
  unfold trashOrphan
  split_ifs <;> rfl

theorem gcChunks_eq (now : ℕ) (hashes : List ChunkHash) (p : ArtifactPlane) :
    hashes.foldl (trashOrphan now) p =
      { p with trash := (hashes.foldl (trashOrphan now) p).trash } := by
  induction hashes generalizing p with
  | nil => rfl
  | cons hash hashes ih =>
    rw [foldl_cons, ih, trashOrphan_eq]

theorem zeroRefChunks_indexed (h : hash ∈ p.zeroRefChunks) : p.chunks.get hash ≠ none := by
  obtain ⟨row, hrow, rfl⟩ := mem_map.1 (mem_filter.1 h).1
  rw [get_eq_some_iff.2 hrow]
  exact Option.some_ne_none _

theorem freeExpired_eq (p : ArtifactPlane) (hash : ChunkHash) :
    p.freeExpired hash = { p with
      chunks := (p.freeExpired hash).chunks, refcounts := (p.freeExpired hash).refcounts,
      trash := (p.freeExpired hash).trash } := by
  unfold freeExpired
  split_ifs <;> rfl

theorem gcTrash_eq (hashes : List ChunkHash) (p : ArtifactPlane) :
    hashes.foldl freeExpired p = { p with
      chunks := (hashes.foldl freeExpired p).chunks
      refcounts := (hashes.foldl freeExpired p).refcounts
      trash := (hashes.foldl freeExpired p).trash } := by
  induction hashes generalizing p with
  | nil => rfl
  | cons hash hashes ih =>
    rw [foldl_cons, ih, freeExpired_eq]

theorem readSegment_eq_ok {location : ℕ} {raw : List UInt8} :
    p.readSegment location = .ok raw ↔ p.segments[location]? = some raw := elim_eq_ok

theorem raise_positive {counts : Table ChunkHash ℕ} (hp : ∀ h, counts.get h ≠ some 0)
    (h : ChunkHash) :
    (counts.insert hash ((counts.get hash).getD 0 + 1)).get h ≠ some 0 := by
  rw [get_insert]
  split_ifs
  · simp
  · exact hp h

section Steps
variable [Blake3] [Zstd] {S : Set (List UInt8)}

def Holds (S : Set (List UInt8)) (segments : List (List UInt8)) (hash : ChunkHash)
    (location : ℕ) : Prop :=
  ∃ raw bytes, segments[location]? = some raw ∧ decompressChunk raw = .ok bytes ∧
    Blake3.hash128 bytes = hash ∧ bytes ∈ S

theorem Holds.append {segments : List (List UInt8)} {location : ℕ}
    (h : Holds S segments hash location) (tail : List (List UInt8)) :
    Holds S (segments ++ tail) hash location := by
  obtain ⟨raw, bytes, hraw, hrest⟩ := h
  have hlt : location < segments.length := (List.getElem?_eq_some_iff.1 hraw).1
  exact ⟨raw, bytes, by rw [getElem?_append_left hlt, hraw], hrest⟩

/-- The index grows by chunks of `S`, and every occurrence in `m` is counted. -/
structure Acquires (S : Set (List UInt8)) (p q : ArtifactPlane) (m : List ChunkHash) : Prop where
  rest : q = { p with segments := q.segments, chunks := q.chunks, refcounts := q.refcounts,
                      trash := q.trash }
  segments : ∃ tail, q.segments = p.segments ++ tail
  kept : ∀ h location, p.chunks.get h = some location → q.chunks.get h = some location
  new : ∀ h location, q.chunks.get h = some location →
    p.chunks.get h = some location ∨ Holds S q.segments h location
  counts : ∀ h, q.countOf h = p.countOf h + m.count h
  positive : (∀ h, p.refcounts.get h ≠ some 0) → ∀ h, q.refcounts.get h ≠ some 0
  trash : ∀ h, q.trash.get h ≠ none → p.trash.get h ≠ none

namespace Acquires

theorem refl (S : Set (List UInt8)) (p : ArtifactPlane) : Acquires S p p [] where
  rest := rfl
  segments := ⟨[], (append_nil _).symm⟩
  kept _ _ h := h
  new _ _ h := .inl h
  counts _ := rfl
  positive h := h
  trash _ h := h

theorem trans (h : Acquires S p q m) (h' : Acquires S q r m') : Acquires S p r (m ++ m') where
  rest := by
    have hrest := h'.rest
    rw [h.rest] at hrest
    exact hrest
  segments := by
    obtain ⟨tail, htail⟩ := h.segments
    obtain ⟨tail', htail'⟩ := h'.segments
    exact ⟨tail ++ tail', by rw [htail', htail, append_assoc]⟩
  kept hash location hget := h'.kept hash location (h.kept hash location hget)
  new := by
    intro hash location hget
    rcases h'.new hash location hget with hget | hnew
    · rcases h.new hash location hget with hget | hnew
      · exact .inl hget
      · obtain ⟨tail, htail⟩ := h'.segments
        exact .inr (htail ▸ hnew.append tail)
    · exact .inr hnew
  counts hash := by rw [h'.counts, h.counts, count_append, Nat.add_assoc]
  positive hp := h'.positive (h.positive hp)
  trash hash ht := h.trash hash (h'.trash hash ht)

theorem counter_eq (h : Acquires S p q m) : q.objectCounter = p.objectCounter := by
  rw [h.rest]

theorem manifests_eq (h : Acquires S p q m) : q.manifests = p.manifests := by
  rw [h.rest]

theorem sessions_eq (h : Acquires S p q m) : q.sessions = p.sessions := by
  rw [h.rest]

end Acquires

/-! ## Storing and counting chunks -/

variable {raw : List UInt8} {pending : List ℕ}

theorem Acquires.append {bytes : List UInt8} (habsent : p.chunks.get hash = none)
    (hraw : decompressChunk raw = .ok bytes) (hhash : Blake3.hash128 bytes = hash)
    (hS : bytes ∈ S) (h : p.appendChunk hash raw = .ok q) : Acquires S p q [] := by
  obtain ⟨-, rfl⟩ := appendChunk_eq_ok.1 h
  have hholds : Holds S (p.segments ++ [raw]) hash p.segments.length :=
    ⟨raw, bytes, getElem?_concat_length, hraw, hhash, hS⟩
  refine ⟨rfl, ⟨[raw], rfl⟩, ?_, ?_, fun _ => rfl, fun hp => hp, fun _ ht => ht⟩
  · intro h location hget
    have hne : h ≠ hash := by
      rintro rfl
      rw [habsent] at hget
      cases hget
    rw [get_insert, if_neg hne, hget]
  · intro h location hget
    rcases get_of_insert hget with ⟨heq, rfl⟩ | hget
    · exact .inr (heq ▸ hholds)
    · exact .inl hget

theorem storeChunk_acquires {data : List UInt8} (hS : data ∈ S) (h : p.storeChunk data = .ok q) :
    Acquires S p q [] ∧ q.chunks.get (Blake3.hash128 data) ≠ none := by
  unfold storeChunk at h
  split at h
  · rename_i location hget
    cases h
    exact ⟨.refl S _, by rw [hget]; simp⟩
  · rename_i habsent
    refine ⟨.append habsent (decompress_compress data) rfl hS h, ?_⟩
    obtain ⟨-, rfl⟩ := appendChunk_eq_ok.1 h
    simp [get_insert]

theorem Acquires.indexed (h : Acquires S p q m) (hget : p.chunks.get hash ≠ none) :
    q.chunks.get hash ≠ none := by
  obtain ⟨location, hlocation⟩ := Option.ne_none_iff_exists'.1 hget
  rw [h.kept hash location hlocation]
  exact Option.some_ne_none _

theorem storeChunks_acquires {chunks : List (List UInt8)} (hS : ∀ c ∈ chunks, c ∈ S)
    (h : p.storeChunks chunks = .ok q) : Acquires S p q [] := by
  induction chunks generalizing p with
  | nil =>
    cases h
    exact .refl S _
  | cons chunk chunks ih =>
    obtain ⟨stored, hstored, hrest⟩ := bind_eq_ok.1 h
    obtain ⟨hfirst, -⟩ := storeChunk_acquires (hS chunk mem_cons_self) hstored
    exact hfirst.trans (ih (fun c hc => hS c (mem_cons_of_mem _ hc)) hrest)

theorem acquire_acquires (h : p.acquire hash = .ok q) : Acquires S p q [hash] := by
  obtain ⟨_, hraise, hacquired⟩ := bind_eq_ok.1 h
  obtain ⟨-, rfl⟩ := raiseRefcount_eq_ok.1 hraise
  cases hacquired
  refine ⟨rfl, ⟨[], (append_nil _).symm⟩, fun _ _ h => h, fun _ _ h => .inl h,
    getD_get_raise p.refcounts hash, raise_positive, ?_⟩
  intro h ht
  rw [get_erase] at ht
  split_ifs at ht
  · exact absurd rfl ht
  · exact ht

theorem acquireAll_acquires (h : p.acquireAll m = .ok q) : Acquires S p q m := by
  induction m generalizing p with
  | nil =>
    cases h
    exact .refl S _
  | cons hash m ih =>
    obtain ⟨acquired, hacquired, hrest⟩ := bind_eq_ok.1 h
    exact (acquire_acquires hacquired).trans (ih hrest)

theorem ingestChunks_acquires {chunks : List (List UInt8)} (hS : ∀ c ∈ chunks, c ∈ S)
    (h : p.ingestChunks chunks = .ok q) :
    Acquires S p q (chunks.map Blake3.hash128) ∧
      ∀ hash ∈ chunks.map Blake3.hash128, q.chunks.get hash ≠ none := by
  induction chunks generalizing p with
  | nil =>
    cases h
    exact ⟨.refl S _, by simp⟩
  | cons chunk chunks ih =>
    obtain ⟨stored, hstored, h⟩ := bind_eq_ok.1 h
    obtain ⟨acquired, hacquired, hrest⟩ := bind_eq_ok.1 h
    obtain ⟨hstore, hindexed⟩ := storeChunk_acquires (hS chunk mem_cons_self) hstored
    have hacquire : Acquires S stored acquired _ := acquire_acquires hacquired
    obtain ⟨htail, htailIndexed⟩ := ih (fun c hc => hS c (mem_cons_of_mem _ hc)) hrest
    refine ⟨(hstore.trans hacquire).trans htail, ?_⟩
    intro hash hmem
    rcases mem_cons.1 hmem with rfl | hmem
    · exact htail.indexed (hacquire.indexed hindexed)
    · exact htailIndexed hash hmem

/-! ## Steps -/

def withObjects (p : ArtifactPlane) (counter : ℕ) (objects : Table ℕ ObjectMetadata)
    (manifests : Table ℕ (List ChunkHash)) (extents : Table ℕ (Table ℕ WorkspaceExtent)) :
    ArtifactPlane :=
  { p with objectCounter := counter, objects := objects, manifests := manifests,
           extents := extents }

/-- The transactions that keep the counts in step with the manifests. -/
inductive CountedStep (S : Set (List UInt8)) : ArtifactPlane → ArtifactPlane → Prop
  | idle {p q : ArtifactPlane}
      (h : q = { p with objectCounter := q.objectCounter, objectRefs := q.objectRefs,
                        roots := q.roots, sessions := q.sessions }) : CountedStep S p q
  | cache {p : ArtifactPlane} {cache : Table ChunkHash (List UInt8)}
      (h : ∀ k bytes, cache.get k = some bytes → p.cache.get k = some bytes ∨
        Blake3.hash128 bytes = k ∧ bytes ∈ S ∨
        ∃ location raw, p.chunks.get k = some location ∧ p.segments[location]? = some raw ∧
          decompressChunk raw = .ok bytes) : CountedStep S p { p with cache := cache }
  | add {p q : ArtifactPlane} {objectId counter : ℕ} {objects : Table ℕ ObjectMetadata}
      {m : List ChunkHash} {extents : Table ℕ (Table ℕ WorkspaceExtent)}
      (hfresh : p.manifests.get objectId = none) (hindexed : ∀ h ∈ m, q.chunks.get h ≠ none)
      (h : Acquires S (p.withObjects counter objects (p.manifests.insert objectId m) extents) q m) :
      CountedStep S p q
  | release {p : ArtifactPlane} {objectId : ℕ} {m : List ChunkHash}
      (hget : p.manifests.get objectId = some m) :
      CountedStep S p { p with
        refcounts := m.foldl lowerRefcount p.refcounts
        manifests := p.manifests.erase objectId
        objects := p.objects.erase objectId
        extents := p.extents.erase objectId }
  | trash {p : ArtifactPlane} {hash : ChunkHash} {now : ℕ} (hindexed : p.chunks.get hash ≠ none) :
      CountedStep S p (p.trashOrphan now hash)
  | free {p : ArtifactPlane} (hash : ChunkHash) : CountedStep S p (p.freeExpired hash)

abbrev CountedSteps (S : Set (List UInt8)) : ArtifactPlane → ArtifactPlane → Prop :=
  Relation.ReflTransGen (CountedStep S)

/-! ## Storing objects and publishing versions -/

theorem Acquires.withObjects (h : Acquires S p q m) (counter : ℕ) (objects : Table ℕ ObjectMetadata)
    (manifests : Table ℕ (List ChunkHash)) (extents : Table ℕ (Table ℕ WorkspaceExtent)) :
    Acquires S (p.withObjects counter objects manifests extents)
      (q.withObjects counter objects manifests extents) m where
  rest := congrArg (·.withObjects counter objects manifests extents) h.rest
  segments := h.segments
  kept := h.kept
  new := h.new
  counts := h.counts
  positive := h.positive
  trash := h.trash

theorem storeObject_step [Sha256] {objectId : ℕ} {data : List UInt8}
    (hS : ∀ c ∈ chunkData data, c ∈ S) (hfresh : p.manifests.get objectId = none)
    (h : p.storeObject objectId data = .ok q) :
    CountedStep S p q ∧ q.objectCounter = p.objectCounter ∧ q.sessions = p.sessions ∧
      ∃ m, q.manifests = p.manifests.insert objectId m := by
  obtain ⟨stored, hstored, h⟩ := bind_eq_ok.1 h
  obtain ⟨-, -, h⟩ := bind_eq_ok.1 h
  cases h
  obtain ⟨hacquires, hindexed⟩ := ingestChunks_acquires hS hstored
  rw [hacquires.manifests_eq]
  exact ⟨.add hfresh hindexed (hacquires.withObjects ..), hacquires.counter_eq,
    hacquires.sessions_eq, _, rfl⟩

def patchChunks (size : ℕ) (patch : WorkspacePatch) : List (List UInt8) :=
  chunkData (patch.data.take (size - patch.offset))

theorem applyPatches_acquires {size : ℕ} {patches : List WorkspacePatch}
    {es es' : List WorkspaceExtent}
    (hS : ∀ patch ∈ patches, ∀ c ∈ patchChunks size patch, c ∈ S)
    (h : applyPatches size p es patches = .ok (q, es')) : Acquires S p q [] := by
  induction patches generalizing p es with
  | nil =>
    cases h
    exact .refl S _
  | cons patch patches ih =>
    have htail := fun x hx => hS x (mem_cons_of_mem patch hx)
    rw [applyPatches] at h
    split_ifs at h with hskip
    · exact ih htail h
    · obtain ⟨stored, hstored, h⟩ := bind_eq_ok.1 h
      have htake : patch.data.take (min (size - patch.offset) patch.data.length) =
          patch.data.take (size - patch.offset) := by
        rw [← take_take, take_length]
      rw [htake] at hstored
      exact (storeChunks_acquires (hS patch mem_cons_self) hstored).trans (ih htail h)

theorem readChunk_indexed {bytes : List UInt8} (h : p.readChunk hash = .ok bytes) :
    p.chunks.get hash ≠ none := by
  intro hnone
  rw [readChunk, hnone] at h
  cases h

theorem material_indexed {es : List WorkspaceExtent} {bytes : List UInt8}
    (h : p.material es = .ok bytes) : ∀ hash ∈ manifestOf es, p.chunks.get hash ≠ none := by
  induction es generalizing bytes with
  | nil => simp [manifestOf]
  | cons e es ih =>
    obtain ⟨head, hhead, h⟩ := bind_eq_ok.1 h
    obtain ⟨tail, htail, -⟩ := bind_eq_ok.1 h
    intro hash hmem
    obtain ⟨x, hx, hsource⟩ := mem_filterMap.1 hmem
    rcases mem_cons.1 hx with rfl | hx
    · rw [extentMaterial, hsource] at hhead
      obtain ⟨chunk, hchunk, -⟩ := bind_eq_ok.1 hhead
      exact readChunk_indexed hchunk
    · exact ih htail hash (mem_filterMap.2 ⟨x, hx, hsource⟩)

theorem publishWorkspace_step [Sha256] {base : Option WorkspaceContentRef} {size : ℕ}
    {patches : List WorkspacePatch} {content : WorkspaceContentRef}
    (hS : ∀ patch ∈ patches, ∀ c ∈ patchChunks size patch, c ∈ S) (hfresh : Fresh p pending)
    (h : p.publishWorkspace base size patches = .ok (content, q)) :
    CountedStep S p q ∧ Fresh q pending ∧ q.sessions = p.sessions := by
  obtain ⟨_, -, h⟩ := bind_eq_ok.1 h
  obtain ⟨kept, -, h⟩ := bind_eq_ok.1 h
  obtain ⟨⟨stored, es⟩, hpatched, h⟩ := bind_eq_ok.1 h
  obtain ⟨bytes, hmaterial, h⟩ := bind_eq_ok.1 h
  obtain ⟨objectId, hnext, h⟩ := bind_eq_ok.1 h
  obtain ⟨-, -, h⟩ := bind_eq_ok.1 h
  obtain ⟨published, hacquired, h⟩ := bind_eq_ok.1 h
  cases h
  have hpatches : Acquires S p stored [] := applyPatches_acquires hS hpatched
  have hcounted : Acquires S _ q (manifestOf es) := acquireAll_acquires hacquired
  have hacquires := (hpatches.withObjects objectId
    (stored.objects.insert objectId ⟨size, (manifestOf es).length, Sha256.digest bytes⟩)
    (stored.manifests.insert objectId (manifestOf es))
    (stored.extents.insert objectId (ofRows Extent.start es))).trans hcounted
  rw [nil_append, hpatches.manifests_eq] at hacquires
  rw [nextObjectId, hpatches.counter_eq] at hnext
  have hne : objectId ≠ 0 := by
    have hcounter := (Fresh.nextObjectId_eq_ok.1 hnext).2
    omega
  refine ⟨.add (hfresh.next_unused hnext) ?_ hacquires, ?_, hacquires.sessions_eq⟩
  · intro hash hmem
    exact hcounted.indexed (material_indexed hmaterial hash hmem)
  · exact (hfresh.allocate hnext).store hne hacquires.counter_eq hacquires.manifests_eq

/-! ## Batches -/

theorem storeObjects_steps [Sha256] {rows : List (ℕ × List UInt8)}
    (hS : ∀ row ∈ rows, ∀ c ∈ chunkData row.2, c ∈ S) (hne : ∀ row ∈ rows, row.1 ≠ 0)
    (hfresh : Fresh p (rows.map Prod.fst ++ pending)) (h : p.storeObjects rows = .ok q) :
    CountedSteps S p q ∧ Fresh q pending ∧ q.sessions = p.sessions := by
  induction rows generalizing p with
  | nil =>
    cases h
    exact ⟨.refl, hfresh, rfl⟩
  | cons row rows ih =>
    obtain ⟨stored, hstored, h⟩ := bind_eq_ok.1 h
    have hrow := hne row mem_cons_self
    have hunused := (hfresh.unused row.1 mem_cons_self hrow).2
    obtain ⟨hstep, hcounter, hsessions, m, hmanifests⟩ :=
      storeObject_step (hS row mem_cons_self) hunused hstored
    obtain ⟨hsteps, hfresh', hsessions'⟩ :=
      ih (fun x hx => hS x (mem_cons_of_mem _ hx))
        (fun x hx => hne x (mem_cons_of_mem _ hx)) (hfresh.store hrow hcounter hmanifests) h
    exact ⟨.head hstep hsteps, hfresh', hsessions'.trans hsessions⟩

theorem batchIngest_steps [Sha256] (batch : List (List UInt8))
    (hS : ∀ data ∈ batch, ∀ c ∈ chunkData data, c ∈ S) (hfresh : Fresh p pending) :
    CountedSteps S p (p.batchIngest batch).1 ∧ Fresh (p.batchIngest batch).1 pending ∧
      (p.batchIngest batch).1.sessions = p.sessions := by
  obtain ⟨hrest, hallocated, hids⟩ := allocateIds_spec (n := batch.length) hfresh
  have hidle : CountedSteps S p (p.allocateIds batch.length).1 := by
    refine .single (.idle ?_)
    rw [hrest]
  have hsessions : (p.allocateIds batch.length).1.sessions = p.sessions := by rw [hrest]
  unfold batchIngest
  generalize p.allocateIds batch.length = result at *
  obtain ⟨allocated, ids⟩ := result
  cases ids with
  | error e => exact ⟨hidle, hallocated, hsessions⟩
  | ok ids =>
    obtain ⟨hlength, hne, hpending⟩ := hids ids rfl
    dsimp only
    cases hstored : allocated.storeObjects (ids.zip batch) with
    | error e => exact ⟨hidle, hallocated, hsessions⟩
    | ok stored =>
      rw [← map_fst_zip hlength.le] at hpending
      obtain ⟨hsteps, hfresh', hsessions'⟩ := storeObjects_steps
        (fun row hrow => hS row.2 (of_mem_zip hrow).2)
        (fun row hrow => hne row.1 (of_mem_zip hrow).1) hpending hstored
      exact ⟨hidle.trans hsteps, hfresh', hsessions'.trans hsessions⟩

/-! ## Collections -/

theorem gcChunks_steps (now : ℕ) {hashes : List ChunkHash}
    (h : ∀ hash ∈ hashes, p.chunks.get hash ≠ none) :
    CountedSteps S p (hashes.foldl (trashOrphan now) p) := by
  induction hashes generalizing p with
  | nil => exact .refl
  | cons hash hashes ih =>
    refine .head (CountedStep.trash (h hash mem_cons_self)) (ih fun x hx => ?_)
    rw [trashOrphan_eq]
    exact h x (mem_cons_of_mem _ hx)

theorem gcTrash_steps (hashes : List ChunkHash) (p : ArtifactPlane) :
    CountedSteps S p (hashes.foldl freeExpired p) := by
  induction hashes generalizing p with
  | nil => exact .refl
  | cons hash hashes ih => exact .head (.free hash) (ih _)

/-! ## Calls -/

def Action.chunks : Action → List (List UInt8)
  | .commitIngest _ data => chunkData data
  | .batchIngest batch => batch.flatMap chunkData
  | .publishWorkspace _ size patches => patches.flatMap (patchChunks size)
  | .storePulledChunk raw _ => (decompressChunk raw).toOption.toList
  | .cacheVerified bytes => [bytes]
  | _ => []

theorem releaseObject_spec (hfresh : Fresh p p.sessions) (objectId : ℕ) :
    CountedSteps S p (p.releaseObject objectId) ∧
      Fresh (p.releaseObject objectId) (p.releaseObject objectId).sessions := by
  unfold releaseObject
  split_ifs
  · exact ⟨.refl, hfresh⟩
  · exact ⟨.refl, hfresh⟩
  · cases hget : p.manifests.get objectId with
    | none => exact ⟨.refl, hfresh⟩
    | some m => exact ⟨.single (.release hget), hfresh.release rfl rfl⟩

omit [Blake3] in
theorem readChunkDecompressed_eq_ok (h : p.readChunkDecompressed hash = .ok q) :
    q = p ∨ ∃ location raw bytes, p.chunks.get hash = some location ∧
      p.segments[location]? = some raw ∧ decompressChunk raw = .ok bytes ∧
      q = { p with cache := p.cache.insert hash bytes } := by
  unfold readChunkDecompressed at h
  split at h
  · cases h
    exact .inl rfl
  · obtain ⟨location, hlocation, h⟩ := bind_eq_ok.1 h
    obtain ⟨raw, hraw, h⟩ := bind_eq_ok.1 h
    obtain ⟨bytes, hbytes, h⟩ := bind_eq_ok.1 h
    cases h
    exact .inr ⟨location, raw, bytes, elim_eq_ok.1 hlocation, readSegment_eq_ok.1 hraw, hbytes, rfl⟩

theorem storePulledChunk_eq_ok (h : p.storePulledChunk raw hash = .ok q) :
    ∃ bytes, decompressChunk raw = .ok bytes ∧ Blake3.hash128 bytes = hash ∧
      (p.chunks.get hash ≠ none ∧ q = p ∨
        raw.length < 2 ^ 32 ∧ p.chunks.get hash = none ∧ q.chunks.get hash ≠ none ∧
          ∀ S : Set (List UInt8), bytes ∈ S → Acquires S p q [hash]) := by
  obtain ⟨bytes, hbytes, h⟩ := bind_eq_ok.1 h
  obtain ⟨_, hhash, h⟩ := bind_eq_ok.1 h
  have hbytes := mapError_eq_ok.1 hbytes
  have hhash := ensure_eq_ok.1 hhash
  refine ⟨bytes, hbytes, hhash, ?_⟩
  split at h
  · rename_i location hget
    cases h
    exact .inl ⟨by rw [hget]; exact Option.some_ne_none _, rfl⟩
  · rename_i habsent
    obtain ⟨appended, happended, h⟩ := bind_eq_ok.1 h
    obtain ⟨_, hraise, h⟩ := bind_eq_ok.1 h
    obtain ⟨-, rfl⟩ := raiseRefcount_eq_ok.1 hraise
    cases h
    refine .inr ⟨(appendChunk_eq_ok.1 happended).1, habsent, ?_, fun S hS => ?_⟩
    · obtain ⟨-, rfl⟩ := appendChunk_eq_ok.1 happended
      simp [get_insert]
    · have hcounted : Acquires S appended { appended with
            refcounts := appended.refcounts.insert hash ((appended.refcounts.get hash).getD 0 + 1) }
          [hash] :=
        ⟨rfl, ⟨[], (append_nil _).symm⟩, fun _ _ h => h, fun _ _ h => .inl h,
          getD_get_raise appended.refcounts hash, raise_positive, fun _ ht => ht⟩
      exact (Acquires.append habsent hbytes hhash hS happended).trans hcounted

theorem storePulledChunk_absent {bytes : List UInt8} (hbytes : decompressChunk raw = .ok bytes)
    (hhash : Blake3.hash128 bytes = hash) (hlength : raw.length < 2 ^ 32)
    (habsent : p.chunks.get hash = none) (hzero : p.countOf hash = 0) :
    ∃ q, p.storePulledChunk raw hash = .ok q := by
  have hraise : (p.refcounts.get hash).getD 0 + 1 < 2 ^ 32 := by
    unfold countOf at hzero
    omega
  refine ⟨{ p with
    segments := p.segments ++ [raw]
    chunks := p.chunks.insert hash p.segments.length
    refcounts := p.refcounts.insert hash ((p.refcounts.get hash).getD 0 + 1) }, ?_⟩
  refine bind_eq_ok.2 ⟨bytes, mapError_eq_ok.2 hbytes,
    bind_eq_ok.2 ⟨(), ensure_eq_ok.2 hhash, ?_⟩⟩
  rw [habsent]
  exact bind_eq_ok.2 ⟨_, appendChunk_eq_ok.2 ⟨hlength, rfl⟩,
    bind_eq_ok.2 ⟨_, raiseRefcount_eq_ok.2 ⟨hraise, rfl⟩, rfl⟩⟩

/-- What a call does: a pull counts an absent chunk, a restore counts a trashed one, and all else
is a sequence of counted steps. -/
inductive Called (S : Set (List UInt8)) (p : ArtifactPlane) : Action → ArtifactPlane → Prop
  | pulled {raw bytes : List UInt8} {hash : ChunkHash} {q : ArtifactPlane}
      (hbytes : decompressChunk raw = .ok bytes) (hhash : Blake3.hash128 bytes = hash)
      (hlength : raw.length < 2 ^ 32) (habsent : p.chunks.get hash = none)
      (hindexed : q.chunks.get hash ≠ none) (h : Acquires S p q [hash]) :
      Called S p (.storePulledChunk raw hash) q
  | restored {hash : ChunkHash} {trashedAt : ℕ} (h : p.trash.get hash = some trashedAt) :
      Called S p (.restoreFromTrash hash) { p with
        trash := p.trash.erase hash
        refcounts := p.refcounts.insert hash (max ((p.refcounts.get hash).getD 0) 1) }
  | stepped {a : Action} {q : ArtifactPlane} (h : CountedSteps S p q) : Called S p a q

section Calls
variable {a : Action}

def Advances (S : Set (List UInt8)) (p : ArtifactPlane) (a : Action) (q : ArtifactPlane) : Prop :=
  Called S p a q ∧ Fresh q q.sessions

namespace Advances

theorem refl (hfresh : Fresh p p.sessions) : Advances S p a p := ⟨.stepped .refl, hfresh⟩

theorem step (h : CountedStep S p q) (hfresh : Fresh q q.sessions) : Advances S p a q :=
  ⟨.stepped (.single h), hfresh⟩

theorem commitOr {result : Except String ArtifactPlane} (hp : Advances S p a q)
    (h : ∀ r, result = .ok r → Advances S p a r) : Advances S p a (q.commitOr result).1 := by
  cases result with
  | error e => exact hp
  | ok r => exact h r rfl

theorem beginIngest (hfresh : Fresh p p.sessions) : Advances S p a p.beginIngest := by
  unfold ArtifactPlane.beginIngest
  cases hnext : p.nextObjectId with
  | ok objectId => exact .step (.idle rfl) ((hfresh.allocate hnext).congr rfl rfl)
  | error e =>
    refine .step (.idle rfl) ⟨hfresh.allocated, ?_, ?_⟩
    · intro id hid hne
      rcases mem_cons.1 hid with rfl | hid
      · exact absurd rfl hne
      · exact hfresh.unused id hid hne
    · intro id hne
      rw [count_cons_of_ne (Ne.symm hne)]
      exact hfresh.once id hne

theorem commitIngest [Sha256] (hfresh : Fresh p p.sessions) {objectId : ℕ} {data : List UInt8}
    (hS : ∀ c ∈ chunkData data, c ∈ S) (hmem : objectId ∈ p.sessions) :
    let closed := { p with sessions := p.sessions.erase objectId }
    Advances S p a (closed.commitOr (closed.commitIngest objectId data)).1 := by
  intro closed
  have hpending : Fresh closed (objectId :: closed.sessions) :=
    (hfresh.of_subperm (perm_cons_erase hmem).symm.subperm).congr rfl rfl
  have hclosed : CountedStep S p closed := .idle rfl
  refine .commitOr (.step hclosed (hpending.of_subperm (sublist_cons_self _ _).subperm)) ?_
  intro q hcommit
  obtain ⟨_, hne, hstore⟩ := bind_eq_ok.1 hcommit
  have hne := ensure_eq_ok.1 hne
  have hunused := (hpending.unused objectId mem_cons_self hne).2
  obtain ⟨hstep, hcounter, hsessions, m, hmanifests⟩ := storeObject_step hS hunused hstore
  refine ⟨.stepped (.tail (.single hclosed) hstep), ?_⟩
  rw [hsessions]
  exact hpending.store hne hcounter hmanifests

theorem storePulledChunk (hfresh : Fresh p p.sessions) {raw : List UInt8}
    (hS : ∀ c ∈ (decompressChunk raw).toOption.toList, c ∈ S)
    (h : p.storePulledChunk raw hash = .ok q) : Advances S p (.storePulledChunk raw hash) q := by
  obtain ⟨bytes, hbytes, hhash, ⟨-, rfl⟩ | ⟨hlength, habsent, hindexed, hacquires⟩⟩ :=
    storePulledChunk_eq_ok h
  · exact .refl hfresh
  · have hacquires := hacquires S (hS bytes (by simp [hbytes, Except.toOption]))
    refine ⟨.pulled hbytes hhash hlength habsent hindexed hacquires, ?_⟩
    rw [hacquires.sessions_eq]
    exact hfresh.congr hacquires.counter_eq hacquires.manifests_eq

theorem cache {cache : Table ChunkHash (List UInt8)} (hfresh : Fresh p p.sessions)
    (h : ∀ k bytes, cache.get k = some bytes → p.cache.get k = some bytes ∨
      Blake3.hash128 bytes = k ∧ bytes ∈ S ∨
      ∃ location raw, p.chunks.get k = some location ∧ p.segments[location]? = some raw ∧
        decompressChunk raw = .ok bytes) : Advances S p a { p with cache := cache } :=
  .step (.cache h) (hfresh.congr rfl rfl)

theorem readChunkDecompressed (hfresh : Fresh p p.sessions)
    (h : p.readChunkDecompressed hash = .ok q) : Advances S p a q := by
  rcases readChunkDecompressed_eq_ok h with
    rfl | ⟨location, raw, bytes, hlocation, hraw, hbytes, rfl⟩
  · exact .refl hfresh
  · refine .cache hfresh fun k found hk => ?_
    rcases get_of_insert hk with ⟨heq, rfl⟩ | hk
    · exact .inr (.inr ⟨location, raw, heq ▸ hlocation, hraw, hbytes⟩)
    · exact .inl hk

end Advances

theorem call_advances [Sha256] (hS : ∀ c ∈ a.chunks, c ∈ S) (hfresh : Fresh p p.sessions) :
    Advances S p a (p.call a).1 := by
  cases a with
  | beginIngest => exact .beginIngest hfresh
  | commitIngest objectId data =>
    simp only [call]
    split_ifs with hmem
    · exact .commitIngest hfresh hS hmem
    · exact .refl hfresh
  | abortIngest objectId =>
    have hclosed := hfresh.of_subperm (erase_sublist (a := objectId)).subperm
    exact .step (.idle rfl) (hclosed.congr rfl rfl)
  | batchIngest batch =>
    obtain ⟨hsteps, hbatch, hsessions⟩ := batchIngest_steps batch
      (fun data hdata c hc => hS c (mem_flatMap.2 ⟨data, hdata, hc⟩)) hfresh
    exact ⟨.stepped hsteps, hsessions ▸ hbatch⟩
  | publishWorkspace base size patches =>
    refine .commitOr (.refl hfresh) fun q hq => ?_
    obtain ⟨⟨content, _⟩, hpublish, rfl⟩ := map_eq_ok.1 hq
    obtain ⟨hstep, hpublished, hsessions⟩ := publishWorkspace_step
      (fun patch hpatch c hc => hS c (mem_flatMap.2 ⟨patch, hpatch, hc⟩)) hfresh hpublish
    exact .step hstep (hsessions ▸ hpublished)
  | retainWorkspace root content =>
    refine .commitOr (.refl hfresh) fun q hretain => ?_
    obtain ⟨-, -, h⟩ := bind_eq_ok.1 hretain
    obtain ⟨-, -, h⟩ := bind_eq_ok.1 h
    cases h
    exact .step (.idle rfl) (hfresh.congr rfl rfl)
  | releaseWorkspace root =>
    simp only [call, releaseWorkspace]
    cases p.roots.get root with
    | none => exact .refl hfresh
    | some old =>
      have hrerooted : CountedStep S p { p with roots := p.roots.erase root } := .idle rfl
      obtain ⟨hsteps, hreleased⟩ := releaseObject_spec (S := S)
        (p := { p with roots := p.roots.erase root }) (hfresh.congr rfl rfl) old
      exact ⟨.stepped (.head hrerooted hsteps), hreleased⟩
  | releaseObject objectId =>
    obtain ⟨hsteps, hreleased⟩ := releaseObject_spec hfresh objectId
    exact ⟨.stepped hsteps, hreleased⟩
  | setRef name objectId => exact .step (.idle rfl) (hfresh.congr rfl rfl)
  | storePulledChunk raw hash =>
    exact .commitOr (.refl hfresh) fun q hpull => .storePulledChunk hfresh hS hpull
  | gcChunks now =>
    refine ⟨.stepped (gcChunks_steps now fun hash hmem => zeroRefChunks_indexed hmem), ?_⟩
    simp only [call, gcChunks]
    rw [gcChunks_eq]
    exact hfresh.congr rfl rfl
  | gcTrash now hours =>
    refine ⟨.stepped (gcTrash_steps _ p), ?_⟩
    simp only [call, gcTrash]
    rw [gcTrash_eq]
    exact hfresh.congr rfl rfl
  | restoreFromTrash hash =>
    simp only [call, restoreFromTrash]
    cases htrash : p.trash.get hash with
    | none => exact .refl hfresh
    | some trashedAt => exact ⟨.restored htrash, hfresh.congr rfl rfl⟩
  | cacheVerified bytes =>
    refine .cache hfresh fun k found hk => ?_
    rcases get_of_insert hk with ⟨heq, rfl⟩ | hk
    · exact .inr (.inl ⟨heq.symm, hS _ mem_cons_self⟩)
    · exact .inl hk
  | readChunkDecompressed hash =>
    exact .commitOr (.refl hfresh) fun q hread => .readChunkDecompressed hfresh hread
  | evict hash =>
    refine .cache hfresh fun k found hk => .inl ?_
    exact get_of_erase hk

end Calls

end Steps
end Sentinel.Fs.ArtifactPlane

import Sentinel.Fs.ArtifactPlane
import Mathlib.Data.List.GetD

/-! The serial and the parallel chunker (`sentinel-fs`, module `chunker`) as they walk over the
positions of one byte string. Both restart the rolling hash at every cut, so each chunk is the
first chunk of what is left: the walk is `chunkData` on the bytes from its position on. -/

namespace Sentinel.Fs
open Lib List

structure Chunk where
  hash : ChunkHash
  data : List UInt8

structure ChunkIter where
  data : List UInt8
  pos : ℕ
  minSize : ℕ
  mask : UInt64
  maxSize : ℕ

def makeMask (target : ℕ) : UInt64 := UInt64.ofNat (target.nextPowerOfTwo - 1)

def splitFrom (data : List UInt8) (minEnd stop : ℕ) (mask : UInt64) : ℕ → ℕ → UInt64 → ℕ
  | 0, _, _ => stop
  | n + 1, i, fp =>
    let fp := fp <<< 1 + gear.getD (data.getD i 0).toNat 0
    if minEnd ≤ i ∧ fp &&& mask = 0 then i + 1 else splitFrom data minEnd stop mask n (i + 1) fp

theorem makeMask_target : makeMask targetChunkBytes = chunkMask := by
  have hpower : targetChunkBytes.nextPowerOfTwo = targetChunkBytes := by
    decide +kernel
  rw [makeMask, hpower, chunkMask]

theorem splitFrom_eq (data : List UInt8) (start : ℕ) {n k : ℕ} (fp : UInt64)
    (h : start + k + n ≤ data.length) :
    splitFrom data (start + minChunkBytes) (start + k + n) chunkMask n (start + k) fp =
      start + rollSplit k fp ((data.drop (start + k)).take n) := by
  induction n generalizing k fp with
  | zero => rw [take_zero, rollSplit, splitFrom, Nat.add_zero]
  | succ n ih =>
    have hlt : start + k < data.length := by omega
    rw [drop_eq_getElem_cons hlt, take_succ_cons, rollSplit, splitFrom,
      getD_eq_getElem _ _ hlt]
    have hmin : start + minChunkBytes ≤ start + k ↔ minChunkBytes ≤ k := by omega
    simp only [hmin]
    split_ifs with hcut
    · rw [Nat.add_assoc]
    · have hnext := ih (k := k + 1) (fp <<< 1 + gear.getD data[start + k].toNat 0) (by omega)
      rw [show start + k + (n + 1) = start + (k + 1) + n from by omega]
      exact hnext

theorem splitFrom_eq_nextSplit {data : List UInt8} {start : ℕ}
    (h : ¬ data.length - start ≤ maxChunkBytes) :
    splitFrom data (start + minChunkBytes) (min (start + maxChunkBytes) data.length) chunkMask
        (min (start + maxChunkBytes) data.length - start) start 0 =
      start + nextSplit (data.drop start) := by
  have hstop : min (start + maxChunkBytes) data.length = start + 0 + maxChunkBytes := by omega
  have hsplit := splitFrom_eq data start (n := maxChunkBytes) (k := 0) 0 (by omega)
  rw [nextSplit, length_drop, if_neg h, hstop, Nat.add_zero, Nat.add_sub_cancel_left]
  exact hsplit

theorem chunksFrom_succ {data : List UInt8} (h : data ≠ []) (fuel : ℕ) :
    chunksFrom (fuel + 1) data =
      data.take (nextSplit data) :: chunksFrom fuel (data.drop (nextSplit data)) := by
  cases data with
  | nil => exact absurd rfl h
  | cons b data => rfl

theorem chunksFrom_nil (fuel : ℕ) : chunksFrom fuel [] = [] := by
  cases fuel <;> rfl

section Hashed
variable [Blake3]

def chunkAt (data : List UInt8) (start stop : ℕ) : Chunk :=
  let bytes := (data.take stop).drop start
  ⟨Blake3.hash128 bytes, bytes⟩

namespace ChunkIter

def new (data : List UInt8) (minSize targetSize maxSize : ℕ) : ChunkIter :=
  ⟨data, 0, minSize, makeMask targetSize, maxSize⟩

def nextBorrowed (it : ChunkIter) : Option (Chunk × ChunkIter) :=
  if it.data.length ≤ it.pos then none
  else
    let start := it.pos
    let remaining := it.data.length - start
    if remaining ≤ it.maxSize then
      some (chunkAt it.data start (start + remaining), { it with pos := start + remaining })
    else
      let stop := min (start + it.maxSize) it.data.length
      let split := splitFrom it.data (start + it.minSize) stop it.mask (stop - start) start 0
      some (chunkAt it.data start split, { it with pos := split })

def collect : ℕ → ChunkIter → List Chunk
  | 0, _ => []
  | fuel + 1, it =>
    match it.nextBorrowed with
    | none => []
    | some (chunk, it) => chunk :: collect fuel it

end ChunkIter

def chunkDataSerial (data : List UInt8) : List Chunk :=
  (ChunkIter.new data minChunkBytes targetChunkBytes maxChunkBytes).collect data.length

def boundariesFrom (data : List UInt8) (minSize maxSize : ℕ) (mask : UInt64) :
    ℕ → ℕ → List (ℕ × ℕ)
  | 0, _ => []
  | fuel + 1, pos =>
    if data.length ≤ pos then []
    else
      let start := pos
      let remaining := data.length - start
      if remaining ≤ maxSize then [(start, start + remaining)]
      else
        let stop := min (start + maxSize) data.length
        let split := splitFrom data (start + minSize) stop mask (stop - start) start 0
        (start, split) :: boundariesFrom data minSize maxSize mask fuel split

def boundaries (data : List UInt8) : List (ℕ × ℕ) :=
  boundariesFrom data minChunkBytes maxChunkBytes (makeMask targetChunkBytes) data.length 0

def chunkDataParallel (data : List UInt8) (parts : List (List (ℕ × ℕ))) : List Chunk :=
  (parts.map fun part => part.map fun b => chunkAt data b.1 b.2).flatten

/-! ## One chunk -/

theorem chunkAt_eq (data : List UInt8) (start n : ℕ) : chunkAt data start (start + n) =
    ⟨Blake3.hash128 ((data.drop start).take n), (data.drop start).take n⟩ := by
  have hslice : (data.take (start + n)).drop start = (data.drop start).take n := by
    rw [drop_take, Nat.add_sub_cancel_left]
  rw [chunkAt, hslice]

def hashed (bytes : List UInt8) : Chunk := ⟨Blake3.hash128 bytes, bytes⟩

theorem nextBorrowed_eq (data : List UInt8) (pos : ℕ) :
    (ChunkIter.mk data pos minChunkBytes chunkMask maxChunkBytes).nextBorrowed =
      if data.length ≤ pos then none
      else some (hashed ((data.drop pos).take (nextSplit (data.drop pos))),
        ⟨data, pos + nextSplit (data.drop pos), minChunkBytes, chunkMask, maxChunkBytes⟩) := by
  unfold ChunkIter.nextBorrowed
  dsimp only
  split_ifs with hend hlast
  · rfl
  · have hsplit : nextSplit (data.drop pos) = data.length - pos := by
      rw [nextSplit, length_drop, if_pos hlast]
    rw [hsplit, chunkAt_eq]
    rfl
  · rw [splitFrom_eq_nextSplit hlast, chunkAt_eq]
    rfl

theorem collect_eq (data : List UInt8) (fuel pos : ℕ) :
    (ChunkIter.mk data pos minChunkBytes chunkMask maxChunkBytes).collect fuel =
      (chunksFrom fuel (data.drop pos)).map hashed := by
  induction fuel generalizing pos with
  | zero => rfl
  | succ fuel ih =>
    rw [ChunkIter.collect, nextBorrowed_eq]
    by_cases hend : data.length ≤ pos
    · rw [if_pos hend, drop_of_length_le hend, chunksFrom_nil]
      rfl
    · have hne : data.drop pos ≠ [] := fun hnil => hend (drop_eq_nil_iff.1 hnil)
      rw [if_neg hend, chunksFrom_succ hne, map_cons, drop_drop, ← ih]

theorem boundariesFrom_eq (data : List UInt8) (fuel pos : ℕ) :
    (boundariesFrom data minChunkBytes maxChunkBytes chunkMask fuel pos).map
        (fun b => chunkAt data b.1 b.2) =
      (chunksFrom fuel (data.drop pos)).map hashed := by
  induction fuel generalizing pos with
  | zero => rfl
  | succ fuel ih =>
    rw [boundariesFrom]
    by_cases hend : data.length ≤ pos
    · rw [if_pos hend, drop_of_length_le hend, chunksFrom_nil]
      rfl
    · have hne : data.drop pos ≠ [] := fun hnil => hend (drop_eq_nil_iff.1 hnil)
      rw [if_neg hend, chunksFrom_succ hne, map_cons]
      dsimp only
      by_cases hlast : data.length - pos ≤ maxChunkBytes
      · -- the last chunk takes all that is left, and the loop stops
        have hsplit : nextSplit (data.drop pos) = (data.drop pos).length := by
          rw [nextSplit, length_drop, if_pos hlast]
        rw [if_pos hlast, hsplit, drop_length, chunksFrom_nil, map_singleton,
          chunkAt_eq, length_drop]
        rfl
      · rw [if_neg hlast, splitFrom_eq_nextSplit hlast, map_cons, ih, chunkAt_eq,
          drop_drop]
        rfl

theorem chunkDataSerial_eq (data : List UInt8) :
    chunkDataSerial data = (chunkData data).map hashed := by
  have hcollect := collect_eq data data.length 0
  rw [drop_zero] at hcollect
  rw [chunkDataSerial, ChunkIter.new, makeMask_target, hcollect]
  rfl

theorem chunkDataParallel_eq (data : List UInt8) {parts : List (List (ℕ × ℕ))}
    (hparts : parts.flatten = boundaries data) :
    chunkDataParallel data parts = (chunkData data).map hashed := by
  have hbounds := boundariesFrom_eq data data.length 0
  rw [drop_zero] at hbounds
  rw [chunkDataParallel, ← map_flatten, hparts, boundaries, makeMask_target, hbounds]
  rfl

end Hashed

/-! ## Sizes -/

theorem min_lt_rollSplit (i : ℕ) (fp : UInt64) (data : List UInt8) :
    minChunkBytes < rollSplit i fp data ∨ rollSplit i fp data = i + data.length := by
  induction data generalizing i fp with
  | nil => exact .inr rfl
  | cons b rest ih =>
    rw [rollSplit]
    split_ifs with hcut
    · exact .inl (Nat.lt_succ_of_le hcut.1)
    · have hrest := ih (i + 1) (fp <<< 1 + gear.getD b.toNat 0)
      rw [length_cons]
      omega

theorem nextSplit_le_max (data : List UInt8) : nextSplit data ≤ maxChunkBytes := by
  unfold nextSplit
  split_ifs with hlast
  · exact hlast
  · have hne : data.take maxChunkBytes ≠ [] := by
      intro hnil
      have hlen := congrArg List.length hnil
      rw [length_take, length_nil] at hlen
      have hmax : 0 < maxChunkBytes := by decide
      omega
    have hbound := (rollSplit_bounds 0 0 hne).2
    rw [length_take] at hbound
    omega

variable {data : List UInt8} {fuel : ℕ}

theorem min_lt_nextSplit (h : data.drop (nextSplit data) ≠ []) :
    minChunkBytes < nextSplit data := by
  unfold nextSplit at h ⊢
  split_ifs at h ⊢ with hlast
  · exact absurd drop_length h
  · rcases min_lt_rollSplit 0 0 (data.take maxChunkBytes) with hcut | hfull
    · exact hcut
    · rw [hfull, length_take]
      have hmin : minChunkBytes < maxChunkBytes := by decide
      omega

theorem length_le_of_mem_chunksFrom {chunk : List UInt8} (h : chunk ∈ chunksFrom fuel data) :
    chunk.length ≤ maxChunkBytes := by
  induction fuel generalizing data with
  | zero => cases h
  | succ fuel ih =>
    by_cases hne : data = []
    · rw [hne, chunksFrom_nil] at h
      cases h
    · rw [chunksFrom_succ hne] at h
      rcases mem_cons.1 h with rfl | h
      · exact (length_take_le _ _).trans (nextSplit_le_max data)
      · exact ih h

theorem min_lt_of_mem_dropLast {chunk : List UInt8} (h : chunk ∈ (chunksFrom fuel data).dropLast) :
    minChunkBytes < chunk.length := by
  induction fuel generalizing data with
  | zero => cases h
  | succ fuel ih =>
    by_cases hne : data = []
    · rw [hne, chunksFrom_nil] at h
      cases h
    · rw [chunksFrom_succ hne] at h
      by_cases hrest : chunksFrom fuel (data.drop (nextSplit data)) = []
      · rw [hrest] at h
        cases h
      · rw [dropLast_cons_of_ne_nil hrest] at h
        rcases mem_cons.1 h with rfl | h
        · have hdrop : data.drop (nextSplit data) ≠ [] := by
            intro hnil
            rw [hnil, chunksFrom_nil] at hrest
            exact hrest rfl
          rw [length_take, Nat.min_eq_left (nextSplit_bounds hne).2]
          exact min_lt_nextSplit hdrop
        · exact ih h

/-! ## What is behind a cut -/

theorem chunksFrom_eq_chunkData (h : data.length ≤ fuel) :
    chunksFrom fuel data = chunkData data := by
  have hfuel : ∀ (n m : ℕ) (data : List UInt8), data.length ≤ n → data.length ≤ m →
      chunksFrom n data = chunksFrom m data := by
    intro n
    induction n with
    | zero =>
      intro m data hn _
      rw [eq_nil_of_length_eq_zero (Nat.le_zero.1 hn), chunksFrom_nil, chunksFrom_nil]
    | succ n ih =>
      intro m data hn hm
      by_cases hne : data = []
      · rw [hne, chunksFrom_nil, chunksFrom_nil]
      · have hsplit := nextSplit_bounds hne
        obtain ⟨m, rfl⟩ : ∃ k, m = k + 1 := ⟨m - 1, by omega⟩
        rw [chunksFrom_succ hne, chunksFrom_succ hne]
        refine congrArg _ (ih m _ ?_ ?_)
        · rw [length_drop]
          omega
        · rw [length_drop]
          omega
  exact hfuel fuel data.length data h le_rfl

theorem chunkData_of_ne_nil (h : data ≠ []) :
    chunkData data = data.take (nextSplit data) :: chunkData (data.drop (nextSplit data)) := by
  have hsplit := nextSplit_bounds h
  obtain ⟨n, hn⟩ : ∃ n, data.length = n + 1 := ⟨data.length - 1, by omega⟩
  have hrest : (data.drop (nextSplit data)).length ≤ n := by
    rw [length_drop]
    omega
  rw [chunkData, hn, chunksFrom_succ h, chunksFrom_eq_chunkData hrest]

theorem chunkData_tail {front back : List (List UInt8)} (h : chunkData data = front ++ back) :
    back = chunkData back.flatten := by
  induction front generalizing data with
  | nil =>
    have hflatten := chunkData_flatten data
    rw [h, nil_append] at hflatten
    rw [hflatten, h, nil_append]
  | cons chunk front ih =>
    by_cases hne : data = []
    · rw [hne] at h
      cases h
    · rw [chunkData_of_ne_nil hne] at h
      exact ih (List.cons.inj h).2

section Chunks
variable [Blake3]

def bytesOf (chunks : List Chunk) : List UInt8 := (chunks.map Chunk.data).flatten

theorem bytesOf_map_hashed (chunks : List (List UInt8)) :
    bytesOf (chunks.map hashed) = chunks.flatten := by
  have hid : Chunk.data ∘ hashed = id := rfl
  rw [bytesOf, map_map, hid, map_id]

theorem chunkDataSerial_tail {data : List UInt8} {front back : List Chunk}
    (h : chunkDataSerial data = front ++ back) : back = chunkDataSerial (bytesOf back) := by
  rw [chunkDataSerial_eq] at h
  obtain ⟨f, b, hfb, -, rfl⟩ := map_eq_append_iff.1 h
  rw [bytesOf_map_hashed, chunkDataSerial_eq, ← chunkData_tail hfb]

theorem bytesOf_chunkDataSerial (data : List UInt8) : bytesOf (chunkDataSerial data) = data := by
  rw [chunkDataSerial_eq, bytesOf_map_hashed, chunkData_flatten]

/-- Content-defined chunking, for every byte string. The serial chunks are the input cut up, none
longer than the maximum and all but the last longer than the minimum; the parallel chunker gives
the same chunks for every split of its work; what is behind a cut is chunked by itself, so that
two inputs with a common suffix that are cut at one place of it have the same chunks from there
on. -/
theorem chunking :
    (∀ data : List UInt8, bytesOf (chunkDataSerial data) = data ∧
      (∀ chunk ∈ chunkDataSerial data, chunk.data.length ≤ maxChunkBytes) ∧
      (∀ chunk ∈ (chunkDataSerial data).dropLast, minChunkBytes < chunk.data.length) ∧
      (∀ parts : List (List (ℕ × ℕ)), parts.flatten = boundaries data →
        chunkDataParallel data parts = chunkDataSerial data) ∧
      ∀ front back, chunkDataSerial data = front ++ back →
        back = chunkDataSerial (data.drop (bytesOf front).length)) ∧
    ∀ before before' suffix shared front front' back back',
      chunkDataSerial (before ++ suffix) = front ++ back →
      chunkDataSerial (before' ++ suffix) = front' ++ back' →
      bytesOf front = before ++ shared → bytesOf front' = before' ++ shared → back = back' := by
  have hjoin : ∀ {data : List UInt8} {front back : List Chunk},
      chunkDataSerial data = front ++ back → bytesOf front ++ bytesOf back = data := by
    intro data front back h
    rw [← bytesOf_chunkDataSerial data, h, bytesOf, bytesOf, bytesOf, map_append,
      flatten_append]
  refine ⟨fun data => ⟨bytesOf_chunkDataSerial data, ?_, ?_, ?_, ?_⟩, ?_⟩
  · intro chunk hchunk
    rw [chunkDataSerial_eq] at hchunk
    obtain ⟨bytes, hbytes, rfl⟩ := mem_map.1 hchunk
    exact length_le_of_mem_chunksFrom hbytes
  · intro chunk hchunk
    rw [chunkDataSerial_eq, ← map_dropLast] at hchunk
    obtain ⟨bytes, hbytes, rfl⟩ := mem_map.1 hchunk
    exact min_lt_of_mem_dropLast hbytes
  · intro parts hparts
    rw [chunkDataParallel_eq data hparts, chunkDataSerial_eq]
  · intro front back h
    rw [← hjoin h, drop_left]
    exact chunkDataSerial_tail h
  · intro before before' suffix shared front front' back back' h h' hfront hfront'
    -- both tails hold the bytes of the suffix behind the shared cut
    have hsuffix : ∀ {b : List UInt8} {f k : List Chunk}, chunkDataSerial (b ++ suffix) = f ++ k →
        bytesOf f = b ++ shared → shared ++ bytesOf k = suffix := by
      intro b f k hk hf
      have hbytes := hjoin hk
      rw [hf, append_assoc] at hbytes
      exact append_cancel_left hbytes
    have hback := hsuffix h hfront
    have hback' := hsuffix h' hfront'
    have hsame : bytesOf back = bytesOf back' := append_cancel_left (hback.trans hback'.symm)
    rw [chunkDataSerial_tail h, chunkDataSerial_tail h', hsame]

end Chunks

/-! ## An input with a cut -/

def roll (b : UInt8) (fp : UInt64) : UInt64 := fp <<< 1 + gear.getD b.toNat 0

theorem rollSplit_replicate {i n : ℕ} (h : i + n ≤ minChunkBytes) (fp : UInt64) (b : UInt8)
    (rest : List UInt8) :
    rollSplit i fp (List.replicate n b ++ rest) =
      rollSplit (i + n) ((roll b)^[n] fp) rest := by
  induction n generalizing i fp with
  | zero => rfl
  | succ n ih =>
    rw [replicate_succ, cons_append, rollSplit, if_neg (fun hcut => by omega),
      ih (by omega), Nat.add_assoc, Nat.add_comm 1 n, Function.iterate_succ_apply]
    rfl

/-- The fingerprint of zeros stands still when all 64 bits have been shifted through. -/
theorem roll_zeros : (roll 0)^[16383] 0 = 0xe74176eb67edcccb := by
  have hfixed : roll 0 0xe74176eb67edcccb = 0xe74176eb67edcccb := by decide +kernel
  have hreached : (roll 0)^[64] 0 = 0xe74176eb67edcccb := by decide +kernel
  rw [show 16383 = 16319 + 64 from rfl, Function.iterate_add_apply, hreached,
    Function.iterate_fixed hfixed]

/-- A chunk that ends where its content cuts it. -/
def cutChunk : List UInt8 := List.replicate 16383 0 ++ [63, 181]

def zeros : List UInt8 := List.replicate maxChunkBytes 0

theorem length_cutChunk : cutChunk.length = 16385 := by
  rw [cutChunk, length_append, length_replicate]
  rfl

theorem nextSplit_cutChunk {rest : List UInt8} (h : maxChunkBytes ≤ rest.length) :
    nextSplit (cutChunk ++ rest) = cutChunk.length := by
  have hlong : ¬ (cutChunk ++ rest).length ≤ maxChunkBytes := by
    rw [length_append, length_cutChunk]
    omega
  have htake : (cutChunk ++ rest).take maxChunkBytes =
      List.replicate 16383 0 ++ 63 :: 181 :: rest.take (maxChunkBytes - 16385) := by
    rw [take_append, length_cutChunk, take_of_length_le, cutChunk, append_assoc]
    · rfl
    · rw [length_cutChunk]
      decide
  rw [nextSplit, if_neg hlong, htake, rollSplit_replicate (by decide), roll_zeros, rollSplit,
    if_neg (by decide +kernel), rollSplit, if_pos (by decide +kernel), length_cutChunk]

theorem chunkData_cutChunk {rest : List UInt8} (h : maxChunkBytes ≤ rest.length) :
    chunkData (cutChunk ++ rest) = cutChunk :: chunkData rest := by
  have hne : cutChunk ++ rest ≠ [] := by
    intro hnil
    rw [(append_eq_nil_iff.1 hnil).2] at h
    exact absurd h (by decide)
  rw [chunkData_of_ne_nil hne, nextSplit_cutChunk h, take_left, drop_left]

theorem chunkData_zeros : chunkData zeros = [zeros] := by
  have hlength : zeros.length = maxChunkBytes := length_replicate
  have hne : zeros ≠ [] := ne_nil_of_length_pos (hlength ▸ by decide)
  have hsplit : nextSplit zeros = zeros.length := by rw [nextSplit, if_pos hlength.le]
  rw [chunkData_of_ne_nil hne, hsplit, take_length, drop_length]
  rfl

@[reducible] def knownBlake3 : Blake3 where
  hash128 bytes :=
    if bytes = cutChunk then 0xbdf823e01e93ca4b6fb85f15dbd2a1ae
    else if bytes = zeros then 0x86bb2b521a10612d5a1d38204fac4fa6
    else 0

/-- Two inputs that are cut at the end of `cutChunk`, with a thread for each chunk: the zeros behind
the cut are chunked by themselves. -/
theorem cut_shared_by_two_inputs :
    let _ := knownBlake3
    let data := cutChunk ++ zeros
    chunkDataSerial data = [hashed cutChunk] ++ [hashed zeros] ∧
      chunkDataParallel data ((boundaries data).map fun b => [b]) = chunkDataSerial data ∧
      [hashed zeros] = chunkDataSerial (data.drop (bytesOf [hashed cutChunk]).length) ∧
      chunkDataSerial (cutChunk ++ data) = [hashed cutChunk, hashed cutChunk] ++ [hashed zeros] ∧
      ∀ back back',
        chunkDataSerial (cutChunk ++ data) = [hashed cutChunk, hashed cutChunk] ++ back →
        chunkDataSerial ([] ++ data) = [hashed cutChunk] ++ back' → back = back' := by
  intro _ data
  have hzeros : maxChunkBytes ≤ zeros.length := length_replicate.ge
  have hdata : maxChunkBytes ≤ data.length := by
    rw [length_append]
    omega
  have hone : chunkDataSerial data = [hashed cutChunk] ++ [hashed zeros] := by
    rw [chunkDataSerial_eq, chunkData_cutChunk hzeros, chunkData_zeros]
    rfl
  have htwo : chunkDataSerial (cutChunk ++ data) =
      [hashed cutChunk, hashed cutChunk] ++ [hashed zeros] := by
    rw [chunkDataSerial_eq, chunkData_cutChunk hdata, chunkData_cutChunk hzeros, chunkData_zeros]
    rfl
  have hparts : ((boundaries data).map fun b => [b]).flatten = boundaries data := by
    rw [← flatMap_def, flatMap_singleton']
  obtain ⟨-, -, -, hparallel, htail⟩ := chunking.1 data
  refine ⟨hone, hparallel _ hparts, htail _ _ hone, htwo, fun back back' h h' => ?_⟩
  exact chunking.2 cutChunk [] data cutChunk _ _ back back' h h' (by simp [bytesOf, hashed])
    (by simp [bytesOf, hashed])

end Sentinel.Fs

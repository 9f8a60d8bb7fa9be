import Sentinel.Cluster.CasInventory

/-! What the levels of anti-entropy say about the index. The paginated walk sees every block that
stays, once, however the index changes between two pages. A summary depends on the set of inserts
alone and counts every block, but its fingerprint does not tell blocks apart that differ in their
size only. -/

namespace Sentinel.Cluster
open Lib Table

namespace CasInventory

/-! ## Pages -/

inductive Change where
  | insert (block : BlockRef) (generation : ℕ)
  | remove (block : BlockRef)

def change (inv : CasInventory) : Change → CasInventory
  | .insert block generation => (inv.insert block generation).1
  | .remove block => (inv.remove block).1

def atPage (inv : CasInventory) (between : List (List Change)) (i : ℕ) : CasInventory :=
  (between.take i).flatten.foldl change inv

def walk (inv : CasInventory) (between : List (List Change)) (limit fuel : ℕ) :
    Option (List (Table BlockRef ℕ × InventoryPage)) :=
  Table.walk (fun i => (inv.atPage between i).entries) limit fuel 0 none

/-- **Paging is complete.** However the index changes between the pages, the walk ends, no page has
more than the limit, the blocks come in strictly increasing order, and a block that is in the
index at every page comes exactly once. -/
theorem paging_complete (inv : CasInventory) {limit : ℕ} (hlimit : 1 ≤ limit)
    (between : List (List Change)) {fuel : ℕ}
    (hfuel : between.length + (inv.atPage between between.length).entries.entries.length < fuel) :
    ∃ steps, inv.walk between limit fuel = some steps ∧
      (∀ step ∈ steps, step.2.entries.length ≤ limit) ∧
      (keysSeen steps).Pairwise (· < ·) ∧
      ∀ block, (∀ step ∈ steps, (step.1.get block).isSome) →
        (keysSeen steps).count block = 1 := by
  have hsettled : ∀ j, 0 + between.length ≤ j →
      (inv.atPage between j).entries = (inv.atPage between between.length).entries := by
    intro j hj
    rw [atPage, atPage, List.take_of_length_le (by omega), List.take_of_length_le (Nat.le_refl _)]
  obtain ⟨steps, hsteps⟩ := walk_exists (i := 0) hlimit hsettled hfuel
  refine ⟨steps, hsteps, Table.walk_sizes hsteps, Table.keysSeen_sorted hsteps, ?_⟩
  intro block hheld
  have hmem := Table.mem_keysSeen hsteps (fun _ h => nomatch h) hheld
  have hnodup : (keysSeen steps).Nodup := (Table.keysSeen_sorted hsteps).imp ne_of_lt
  exact List.count_eq_one_of_mem hnodup hmem

def sampleChunk (byte : UInt8) (sizeBytes : ℕ) : BlockRef where
  space := .chunk
  algorithm := .blake3128
  digest := List.replicate 16 byte
  sizeBytes := sizeBytes
  chunkProfile := some "gear-v1"
  version := 1

/-- Pages of one block each; the block that the first cursor names is removed before the second
page is read, and a block before it and one after it come in. -/
theorem paging_complete_sample :
    let inv := (new.insert (sampleChunk 1 64) 1).1.insert (sampleChunk 4 64) 1 |>.1
    let between := [[Change.remove (sampleChunk 4 64), .insert (sampleChunk 3 64) 1,
      .insert (sampleChunk 6 64) 1]]
    ∃ steps, inv.walk between 1 5 = some steps ∧
      (∀ step ∈ steps, step.2.entries.length ≤ 1) ∧
      (keysSeen steps).Pairwise (· < ·) ∧
      ∀ block, (∀ step ∈ steps, (step.1.get block).isSome) →
        (keysSeen steps).count block = 1 := by
  intro inv between
  exact inv.paging_complete (Nat.le_refl 1) between (by decide +kernel)

/-! ## Summaries -/

def insertAll (inv : CasInventory) (inserts : List (BlockRef × ℕ)) : CasInventory :=
  inserts.foldl (fun inv e => (inv.insert e.1 e.2).1) inv

theorem get_insert (inv : CasInventory) (block other : BlockRef) (generation : ℕ) :
    (inv.insert block generation).1.entries.get other =
      if other = block then keepNewer id (inv.entries.get block) generation
      else inv.entries.get other := by
  have hwrite : (inv.entries.insert block generation).get other =
      if other = block then some generation else inv.entries.get other := by
    rw [Table.get_insert]
    by_cases h : other = block
    · rw [if_pos h, if_pos h]
    · rw [if_neg h, if_neg h]
  unfold insert
  cases hheld : inv.entries.get block with
  | none => exact hwrite
  | some g =>
    dsimp only [keepNewer, id]
    by_cases hle : generation ≤ g
    · rw [if_pos hle, if_pos hle]
      by_cases h : other = block
      · rw [if_pos h, h, hheld]
      · rw [if_neg h]
    · rw [if_neg hle, if_neg hle]
      exact hwrite

theorem get_insertAll (inv : CasInventory) (inserts : List (BlockRef × ℕ)) (block : BlockRef) :
    (inv.insertAll inserts).entries.get block =
      register id ((inv.entries.get block).toList ++
        (inserts.filter fun e => e.1 = block).map Prod.snd) := by
  have hfold : ∀ (o : Option ℕ) (writes : List ℕ),
      register id (o.toList ++ writes) = writes.foldl (keepNewer id) o := by
    intro o writes
    cases o <;> rfl
  rw [hfold]
  induction inserts generalizing inv with
  | nil => rfl
  | cons e inserts ih =>
    show ((inv.insert e.1 e.2).1.insertAll inserts).entries.get block = _
    rw [ih, get_insert]
    by_cases h : e.1 = block
    · rw [if_pos h.symm, List.filter_cons, if_pos (decide_eq_true h), h]
      rfl
    · rw [if_neg (Ne.symm h), List.filter_cons, if_neg fun hd => h (of_decide_eq_true hd)]

theorem insertAll_eq_of_same {inserts inserts' : List (BlockRef × ℕ)}
    (hsame : ∀ e, e ∈ inserts' ↔ e ∈ inserts) (inv : CasInventory) :
    inv.insertAll inserts' = inv.insertAll inserts := by
  have hsettled : ∀ writes : List ℕ, Settled id id writes := fun writes a b ha hb =>
    Nat.le_antisymm (hb.2 a ha.1) (ha.2 b hb.1)
  have hentries : (inv.insertAll inserts').entries = (inv.insertAll inserts).entries := by
    refine eq_of_get_eq fun block => ?_
    have hwrites : ∀ g, g ∈ (inv.entries.get block).toList ++
          (inserts'.filter fun e => e.1 = block).map Prod.snd ↔
        g ∈ (inv.entries.get block).toList ++
          (inserts.filter fun e => e.1 = block).map Prod.snd := by
      intro g
      simp only [List.mem_append, List.mem_map, List.mem_filter, hsame]
    have hread := (hsettled _).map_register hwrites
    rw [Option.map_id] at hread
    rw [get_insertAll, get_insertAll]
    exact hread
  exact congrArg mk hentries

def countIn (groups : Table GroupKey GroupAccumulator) (key : GroupKey) : ℕ :=
  (groups.get key).elim 0 GroupAccumulator.blockCount

theorem countIn_addToGroup (groups : Table GroupKey GroupAccumulator) (entry : BlockRef × ℕ)
    (key : GroupKey) : countIn (addToGroup groups entry) key =
      countIn groups key + if entry.1.groupKey = key then 1 else 0 := by
  unfold countIn addToGroup
  rw [Table.get_insert]
  by_cases h : entry.1.groupKey = key
  · rw [if_pos h.symm, if_pos h, h]
    cases groups.get key <;> rfl
  · rw [if_neg (Ne.symm h), if_neg h]
    rfl

theorem countIn_foldl (entries : List (BlockRef × ℕ)) (groups : Table GroupKey GroupAccumulator)
    (key : GroupKey) : countIn (entries.foldl addToGroup groups) key =
      countIn groups key + entries.countP fun e => e.1.groupKey = key := by
  induction entries generalizing groups with
  | nil => rfl
  | cons e entries ih =>
    rw [List.foldl_cons, ih, countIn_addToGroup, List.countP_cons]
    simp only [decide_eq_true_eq]
    omega

theorem summaryOf_eq (inv : CasInventory) (key : GroupKey) : inv.summaryOf key =
    (inv.groups.get key).map fun acc =>
      ⟨key.space, key.chunkProfile, acc.blockCount, acc.maxGeneration, acc.fingerprint⟩ := by
  unfold summaryOf summaries Table.get
  rw [List.find?_map]
  show ((inv.groups.entries.find? fun e => decide (e.1 = key)).map _) = _
  cases hfind : inv.groups.entries.find? fun e => decide (e.1 = key) with
  | none => rfl
  | some e =>
    have hfound := List.find?_some hfind
    have hkey : e.1 = key := of_decide_eq_true hfound
    simp only [Option.map_some, hkey]

theorem blockCount_summaryOf (inv : CasInventory) (key : GroupKey) :
    (inv.summaryOf key).elim 0 GenerationSummary.blockCount =
      inv.entries.entries.countP fun e => e.1.groupKey = key := by
  have hcount := countIn_foldl inv.entries.entries empty key
  have hempty : countIn empty key = 0 := rfl
  rw [hempty, Nat.zero_add] at hcount
  rw [summaryOf_eq, ← hcount, countIn, groups]
  cases (inv.entries.entries.foldl addToGroup empty).get key <;> rfl

theorem summaryOf_insert_ne (inv : CasInventory) {block : BlockRef} (generation : ℕ)
    (h : inv.contains block = false) :
    (inv.insert block generation).1.summaryOf block.groupKey ≠ inv.summaryOf block.groupKey := by
  have hnone : inv.entries.get block = none := by
    rw [contains] at h
    exact Option.isSome_eq_false_iff.1 h |> Option.isNone_iff_eq_none.1
  intro heq
  have hcount := congrArg (fun s => s.elim 0 GenerationSummary.blockCount) heq
  rw [blockCount_summaryOf, blockCount_summaryOf] at hcount
  have hinsert : (inv.insert block generation).1.entries = inv.entries.insert block generation := by
    rw [insert, hnone]
  rw [hinsert, (perm_entries_insert generation hnone).countP_eq, List.countP_cons,
    if_pos (decide_eq_true rfl)] at hcount
  omega

theorem blockFingerprint_ne_iff {a b : BlockRef} (ha : a.Sized) (hb : b.Sized)
    (hfree : fnvLanes a.display = fnvLanes b.display → a.display = b.display) :
    blockFingerprint a ≠ blockFingerprint b ↔ ¬ a.SameButSize b := by
  rw [not_iff_not, ← BlockRef.locator_eq_iff ha hb]
  constructor
  · intro h
    exact String.ofList_injective (hfree h)
  · intro h
    rw [blockFingerprint, blockFingerprint, BlockRef.display, BlockRef.display, h]

/-- What summaries separate. Inserts in another order, or made again, give the same summaries; a
new entry changes the summary of its group; and two references have different fingerprints exactly
where they differ in a field other than the size, if the hash does not confuse their texts. -/
theorem summaries_separate (inv : CasInventory) (inserts inserts' : List (BlockRef × ℕ))
    (a b block : BlockRef) (generation : ℕ) :
    ((∀ e, e ∈ inserts' ↔ e ∈ inserts) →
      (inv.insertAll inserts').summaries = (inv.insertAll inserts).summaries) ∧
    (a.Sized → b.Sized → (fnvLanes a.display = fnvLanes b.display → a.display = b.display) →
      (blockFingerprint a ≠ blockFingerprint b ↔ ¬ a.SameButSize b)) ∧
    (inv.contains block = false →
      (inv.insert block generation).1.summaryOf block.groupKey ≠
        inv.summaryOf block.groupKey) := by
  refine ⟨fun hsame => ?_, fun ha hb hfree => ?_, fun h => ?_⟩
  · rw [insertAll_eq_of_same hsame inv]
  · exact blockFingerprint_ne_iff ha hb hfree
  · exact inv.summaryOf_insert_ne generation h

/-- Two chunks with different digests: the second one, inserted twice or before the first, is told
apart and counted. -/
theorem sampleChunks_separated :
    let a := sampleChunk 1 64
    let b := sampleChunk 2 64
    (new.insertAll [(b, 3), (a, 1), (b, 3)]).summaries =
        (new.insertAll [(a, 1), (b, 3)]).summaries ∧
      blockFingerprint a ≠ blockFingerprint b ∧
      ((new.insert a 1).1.insert b 3).1.summaryOf b.groupKey ≠
        (new.insert a 1).1.summaryOf b.groupKey := by
  intro a b
  refine ⟨(summaries_separate new _ _ a b b 3).1 fun e => ?_,
    ((summaries_separate new [] [] a b b 3).2.1 (by decide) (by decide) fun h => ?_).2 (by decide),
    (summaries_separate (new.insert a 1).1 [] [] a b b 3).2.2 (by decide +kernel)⟩
  · simp only [List.mem_cons, List.not_mem_nil, or_false]
    tauto
  · exact absurd h (by decide +kernel)

/-- Two entries of the index whose digests are equal and whose sizes are not have one
fingerprint, and an index that holds one of them has the summary of an index that holds the
other. -/
theorem sizes_not_separated :
    let a := sampleChunk 1 64
    let b := sampleChunk 1 65
    a ≠ b ∧ ((new.insert a 1).1.insert b 1).1.entries.entries.length = 2 ∧
      blockFingerprint a = blockFingerprint b ∧
      (new.insert a 1).1.summaries = (new.insert b 1).1.summaries := by
  decide +kernel

end CasInventory

end Sentinel.Cluster

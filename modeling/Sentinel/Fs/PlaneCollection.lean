import Sentinel.Fs.PlaneLedger

/-! Chunks that nothing names any more. The counts of the artifact plane equal the occurrences in
the manifests exactly in the runs that pull no absent chunk: `store_pulled_chunk` counts the chunk
it stores although no manifest names it. -/

namespace Sentinel.Fs.ArtifactPlane
open Lib

variable {p : ArtifactPlane} {hash : ChunkHash}

/-! ## Collecting a plane without counts -/

theorem foldl_trashOrphan_trashed (now : ℕ) {hashes : List ChunkHash}
    (hcounts : ∀ h, p.refcounts.get h = none) (h : hash ∈ hashes ∨ p.trash.get hash ≠ none) :
    (hashes.foldl (trashOrphan now) p).trash.get hash ≠ none := by
  induction hashes generalizing p with
  | nil => exact h.resolve_left List.not_mem_nil
  | cons first hashes ih =>
    have hcounts' : ∀ h, (p.trashOrphan now first).refcounts.get h = none := by
      rw [trashOrphan_eq]
      exact hcounts
    apply ih hcounts'
    by_cases hmem : hash ∈ hashes
    · exact .inl hmem
    · right
      unfold trashOrphan
      split_ifs with horphan
      · rw [Table.get_insert]
        split_ifs with heq
        · exact Option.some_ne_none now
        · refine h.resolve_left fun hin => ?_
          exact (List.mem_cons.1 hin).elim heq hmem
      · -- without a count, only a chunk that is in the trash already is passed over
        have hfirst : p.trash.get first ≠ none := fun hnone => horphan ⟨hcounts first, hnone⟩
        rcases h with hin | htrash
        · rw [(List.mem_cons.1 hin).resolve_right hmem]
          exact hfirst
        · exact htrash

theorem freeExpired_of_uncounted (hcounts : ∀ h, p.refcounts.get h = none) (freed : ChunkHash) :
    (∀ h, (p.freeExpired freed).refcounts.get h = none) ∧
      ∀ h, (p.freeExpired freed).chunks.get h = if h = freed then none else p.chunks.get h := by
  have hzero : ¬ 0 < (p.refcounts.get freed).getD 0 := by
    rw [hcounts]
    exact lt_irrefl 0
  unfold freeExpired
  rw [if_neg hzero]
  refine ⟨fun h => ?_, fun h => Table.get_erase _ _ _⟩
  rw [Table.get_erase, hcounts, ite_self]

theorem foldl_freeExpired_chunks {hashes : List ChunkHash}
    (hcounts : ∀ h, p.refcounts.get h = none) :
    (hashes.foldl freeExpired p).chunks.get hash =
      if hash ∈ hashes then none else p.chunks.get hash := by
  induction hashes generalizing p with
  | nil => rfl
  | cons freed hashes ih =>
    obtain ⟨hcounts', hchunks⟩ := freeExpired_of_uncounted hcounts freed
    rw [List.foldl_cons, ih hcounts', hchunks]
    by_cases hmem : hash ∈ hashes
    · rw [if_pos hmem, if_pos (List.mem_cons_of_mem _ hmem)]
    · by_cases heq : hash = freed
      · rw [if_neg hmem, if_pos heq, heq, if_pos List.mem_cons_self]
      · rw [if_neg hmem, if_neg heq, if_neg fun hin => (List.mem_cons.1 hin).elim heq hmem]

theorem collected_of_uncounted (hcounts : ∀ h, p.refcounts.get h = none) {now later hours : ℕ}
    (hexpired : ∀ row ∈ (p.gcChunks now).trash.entries, row.2 ≤ later - hours * 3600000) :
    ((p.gcChunks now).gcTrash later hours).chunks.entries = [] := by
  have hcounts' : ∀ h, (p.gcChunks now).refcounts.get h = none := by
    rw [gcChunks, gcChunks_eq]
    exact hcounts
  apply Table.entries_eq_nil
  intro hash
  rw [gcTrash, foldl_freeExpired_chunks hcounts']
  split_ifs with hmem
  · rfl
  · by_contra hindexed
    have hchunks : p.chunks.get hash ≠ none := by
      rwa [gcChunks, gcChunks_eq] at hindexed
    obtain ⟨location, hlocation⟩ := Option.ne_none_iff_exists'.1 hchunks
    have horphan : hash ∈ p.zeroRefChunks := by
      refine List.mem_filter.2 ⟨?_, decide_eq_true (hcounts hash)⟩
      exact List.mem_map.2 ⟨(hash, location), Table.get_eq_some_iff.1 hlocation, rfl⟩
    obtain ⟨trashedAt, htrash⟩ := Option.ne_none_iff_exists'.1
      (foldl_trashOrphan_trashed now hcounts (.inl horphan))
    have hrow := Table.get_eq_some_iff.1 htrash
    apply hmem
    refine List.mem_map.2 ⟨(hash, trashedAt), List.mem_filter.2 ⟨hrow, ?_⟩, rfl⟩
    exact decide_eq_true (hexpired _ hrow)

/-! ## Exact counts -/

section Exact
variable [Blake3] [Zstd]

def PullsKnown (p : ArtifactPlane) : Action → Prop
  | .storePulledChunk raw hash =>
    ∀ bytes, decompressChunk raw = .ok bytes → Blake3.hash128 bytes = hash →
      raw.length < 2 ^ 32 → p.chunks.get hash ≠ none
  | _ => True

def Exact (p : ArtifactPlane) : Prop := ∀ hash, p.countOf hash = p.occurrences hash

theorem Exact.call [Sha256] (hledger : Ledger Set.univ p) (h : p.Exact) {a : Action}
    (hrestore : ∀ hash, a ≠ .restoreFromTrash hash) (hguard : p.PullsKnown a) :
    (p.call a).1.Exact := by
  have hcall := (call_advances (a := a) (fun _ _ => Set.mem_univ _) hledger.fresh).1
  generalize (p.call a).1 = q at hcall
  cases hcall with
  | pulled hbytes hhash hlength habsent =>
    exact absurd habsent (hguard _ hbytes hhash hlength)
  | restored => exact absurd rfl (hrestore _)
  | stepped hsteps => exact fun hash => exact_steps (h hash) hsteps

theorem Exact.not_call [Sha256] (hledger : Ledger Set.univ p) (h : p.Exact) {a : Action}
    (hguard : ¬ p.PullsKnown a) : ¬ (p.call a).1.Exact := by
  cases a with
  | storePulledChunk raw hash =>
    simp only [PullsKnown, not_forall, not_not] at hguard
    obtain ⟨bytes, hbytes, hhash, hlength, habsent⟩ := hguard
    have hzero : p.countOf hash = 0 := by
      by_contra hne
      exact hledger.index.counted hash (Nat.pos_of_ne_zero hne) habsent
    obtain ⟨q, hstored⟩ := storePulledChunk_absent hbytes hhash hlength habsent hzero
    intro hexact
    have hcount := hexact hash
    simp only [ArtifactPlane.call, hstored, commitOr] at hcount
    obtain ⟨found, -, -, ⟨hindexed, -⟩ | ⟨-, -, -, hacquires⟩⟩ := storePulledChunk_eq_ok hstored
    · exact hindexed habsent
    · have hacquires := hacquires Set.univ (Set.mem_univ _)
      have hoccurs := h hash
      rw [hacquires.counts, hacquires.occurrences_eq, List.count_singleton_self] at hcount
      omega
  | _ => exact absurd trivial hguard

/-- **Counts and collection.** In a run without restores, the counts equal the occurrences in the
manifests at every moment exactly when every pulled chunk was in the index already. In such a run,
once all manifests are gone, the two collections leave nothing in the index. -/
theorem counts_exact_iff_pulls_known [Sha256] (run : List Action)
    (hrun : ∀ hash, .restoreFromTrash hash ∉ run) :
    ((∀ before, before <+: run → (machine.final opened before).Exact) ↔
        machine.Meets PullsKnown opened run) ∧
      (machine.Meets PullsKnown opened run →
        (machine.final opened run).manifests.entries = [] →
        ∀ now later hours,
          (∀ row ∈ ((machine.final opened run).gcChunks now).trash.entries,
            row.2 ≤ later - hours * 3600000) →
          (((machine.final opened run).gcChunks now).gcTrash later hours).chunks.entries = []) := by
  have hallowed : ∀ a ∈ run, ∀ hash, a ≠ .restoreFromTrash hash :=
    fun a ha hash heq => hrun hash (heq ▸ ha)
  have hopened : Ledger Set.univ opened ∧ Exact opened := ⟨.opened, fun _ => rfl⟩
  have hiff : (∀ before, before <+: run → (machine.final opened before).Exact) ↔
      machine.Meets PullsKnown opened run :=
    machine.forall_reached_iff_meets_of_mem (I := fun p => Ledger Set.univ p ∧ p.Exact)
      (fun _ h => h.2)
      (fun p a ha h hguard => ⟨h.1.call fun _ _ => Set.mem_univ _, h.2.call h.1 ha hguard⟩)
      (fun p a _ h hguard => h.2.not_call h.1 hguard) hopened hallowed
  refine ⟨hiff, fun hmeets hreleased now later hours hexpired => ?_⟩
  have hexact := hiff.2 hmeets run (List.prefix_refl run)
  have hledger : Ledger Set.univ (machine.final opened run) :=
    Ledger.run .opened fun _ _ _ _ => Set.mem_univ _
  refine collected_of_uncounted (fun hash => ?_) hexpired
  have hcount : (machine.final opened run).countOf hash = 0 := by
    rw [hexact hash, occurrences, Table.total, Table.values, hreleased]
    rfl
  cases hget : (machine.final opened run).refcounts.get hash with
  | none => rfl
  | some count =>
    rw [countOf, hget, Option.getD_some] at hcount
    exact absurd (hcount ▸ hget) (hledger.index.positive hash)

end Exact

/-! ## A chunk that is pulled before it is ingested -/

def pullThenIngestSeven : List Action := .storePulledChunk [0, 7] sevenHash :: ingestSeven

/-- The pulled chunk counts once more than it occurs, and stays when its only object is gone. -/
theorem pulled_chunk_leaks :
    (sampleMachine.final opened pullThenIngestSeven).countOf sevenHash = 2 ∧
      (sampleMachine.final opened pullThenIngestSeven).occurrences sevenHash = 1 ∧
      (sampleMachine.final opened (pullThenIngestSeven ++
        [.releaseObject 1, .gcChunks 1000, .gcTrash 2000 0])).manifests.entries = [] ∧
      (sampleMachine.final opened (pullThenIngestSeven ++
        [.releaseObject 1, .gcChunks 1000, .gcTrash 2000 0])).chunks.get sevenHash = some 0 := by
  decide +kernel

def ingestAndReleaseSeven : List Action := ingestSeven ++ [.releaseObject 1]

theorem ingested_chunk_collected :
    (((sampleMachine.final opened ingestAndReleaseSeven).gcChunks 1000).gcTrash
      2000 0).chunks.entries = [] := by
  have hcollected := (@counts_exact_iff_pulls_known sampleBlake3 sampleZstd Sha2.instSha256
    ingestAndReleaseSeven (by simp [ingestAndReleaseSeven, ingestSeven])).2
    (by simp [ingestAndReleaseSeven, ingestSeven, Machine.Meets, PullsKnown])
  exact hcollected (by decide +kernel) 1000 2000 0 (by decide +kernel)

end Sentinel.Fs.ArtifactPlane

import Sentinel.Fs.PlaneSteps
import Sentinel.Lib.Sha2

/-! The reference counts of the artifact plane against the manifests: no chunk that a manifest
names is collected, and the counts are exact as long as no absent chunk is pulled. -/

namespace Sentinel.Fs.ArtifactPlane
open Lib Table

section Ledger
variable [Blake3] [Zstd] {S : Set (List UInt8)} {p q : ArtifactPlane}
  {m : List ChunkHash} {hash : ChunkHash}

structure Index (S : Set (List UInt8)) (p : ArtifactPlane) : Prop where
  holds : ∀ h location, p.chunks.get h = some location → Holds S p.segments h location
  counted : ∀ h, 0 < p.countOf h → p.chunks.get h ≠ none
  trashed : ∀ h, p.trash.get h ≠ none → p.chunks.get h ≠ none
  positive : ∀ h, p.refcounts.get h ≠ some 0

theorem Index.opened : Index S opened :=
  ⟨nofun, fun _ h => absurd h (lt_irrefl 0), fun _ h => absurd rfl h, nofun⟩

theorem Index.congr (h : Index S p) (hsegments : q.segments = p.segments)
    (hchunks : q.chunks = p.chunks) (hrefcounts : q.refcounts = p.refcounts)
    (htrash : q.trash = p.trash) : Index S q := by
  obtain ⟨hholds, hcounted, htrashed, hpositive⟩ := h
  refine ⟨?_, ?_, ?_, ?_⟩
  · rwa [hsegments, hchunks]
  · unfold countOf at hcounted ⊢
    rwa [hrefcounts, hchunks]
  · rwa [htrash, hchunks]
  · rwa [hrefcounts]

theorem Index.acquire (h : Index S p) (hacquires : Acquires S p q m)
    (hindexed : ∀ h ∈ m, q.chunks.get h ≠ none) : Index S q where
  holds := by
    intro hash location hget
    rcases hacquires.new hash location hget with hold | hnew
    · obtain ⟨tail, htail⟩ := hacquires.segments
      rw [htail]
      exact (h.holds hash location hold).append tail
    · exact hnew
  counted := by
    intro hash hpos
    rw [hacquires.counts] at hpos
    by_cases hmem : hash ∈ m
    · exact hindexed hash hmem
    · rw [List.count_eq_zero_of_not_mem hmem] at hpos
      exact hacquires.indexed (h.counted hash hpos)
  trashed hash ht := hacquires.indexed (h.trashed hash (hacquires.trash hash ht))
  positive := hacquires.positive h.positive

theorem Index.free (h : Index S p) (hash : ChunkHash) : Index S (p.freeExpired hash) := by
  unfold freeExpired
  split_ifs with hpos
  · refine ⟨h.holds, h.counted, fun k hk => h.trashed k ?_, h.positive⟩
    rw [get_erase] at hk
    split_ifs at hk
    · exact absurd rfl hk
    · exact hk
  · refine ⟨fun k location hk => h.holds k location ?_, ?_, ?_, ?_⟩
    · exact get_of_erase hk
    · intro k hk
      unfold countOf at hk
      rw [get_erase] at hk ⊢
      split_ifs at hk ⊢
      · exact absurd hk (lt_irrefl 0)
      · exact h.counted k hk
    · intro k hk
      rw [get_erase] at hk ⊢
      split_ifs at hk ⊢
      · exact absurd rfl hk
      · exact h.trashed k hk
    · intro k
      rw [get_erase]
      split_ifs
      · exact nofun
      · exact h.positive k

theorem Index.step (h : Index S p) (hstep : CountedStep S p q) : Index S q := by
  cases hstep with
  | idle hq =>
    rw [hq]
    exact h.congr rfl rfl rfl rfl
  | cache => exact h.congr rfl rfl rfl rfl
  | add _ hindexed hacquires =>
    refine Index.acquire ?_ hacquires hindexed
    exact h.congr rfl rfl rfl rfl
  | release =>
    refine ⟨h.holds, fun k hk => h.counted k ?_, h.trashed, foldl_lowerRefcount_positive h.positive⟩
    unfold countOf at hk ⊢
    rw [foldl_lowerRefcount_getD] at hk
    omega
  | trash hindexed =>
    unfold trashOrphan
    split_ifs
    · refine ⟨h.holds, h.counted, fun k hk => ?_, h.positive⟩
      rw [get_insert] at hk
      split_ifs at hk with heq
      · rw [heq]
        exact hindexed
      · exact h.trashed k hk
    · exact h
  | free hash => exact h.free hash

theorem CountedStep.counts (hstep : CountedStep S p q) (hash : ChunkHash) :
    (∃ k, q.countOf hash = p.countOf hash + k ∧ q.occurrences hash = p.occurrences hash + k) ∨
      ∃ k, q.countOf hash = p.countOf hash - k ∧ q.occurrences hash + k = p.occurrences hash := by
  cases hstep with
  | idle hq =>
    refine .inl ⟨0, ?_, ?_⟩
    · rw [hq]
      rfl
    · rw [hq]
      rfl
  | cache => exact .inl ⟨0, rfl, rfl⟩
  | add hfresh _ hacquires =>
    refine .inl ⟨_, hacquires.counts hash, ?_⟩
    unfold occurrences
    rw [hacquires.manifests_eq]
    exact total_insert _ hfresh
  | release hget =>
    exact .inr ⟨_, foldl_lowerRefcount_getD _ p.refcounts hash, total_erase hget⟩
  | trash =>
    rw [trashOrphan_eq]
    exact .inl ⟨0, rfl, rfl⟩
  | free freed =>
    refine .inl ⟨0, ?_, ?_⟩
    · unfold freeExpired
      split_ifs with hpos
      · rfl
      · unfold countOf
        rw [get_erase]
        split_ifs with heq
        · rw [heq, Option.getD_none]
          omega
        · rfl
    · rw [freeExpired_eq]
      rfl

/-! ## Whole calls -/

structure Ledger (S : Set (List UInt8)) (p : ArtifactPlane) : Prop where
  index : Index S p
  fresh : Fresh p p.sessions
  covered : ∀ h, p.occurrences h ≤ p.countOf h

theorem Ledger.opened : Ledger S opened :=
  ⟨.opened, ⟨fun _ h => absurd rfl h, nofun, fun _ _ => Nat.zero_le _⟩, fun _ => le_rfl⟩

theorem Index.steps (h : Index S p) (hsteps : CountedSteps S p q) : Index S q := by
  induction hsteps with
  | refl => exact h
  | tail _ hstep ih => exact ih.step hstep

theorem covered_steps (h : p.occurrences hash ≤ p.countOf hash) (hsteps : CountedSteps S p q) :
    q.occurrences hash ≤ q.countOf hash := by
  induction hsteps with
  | refl => exact h
  | tail _ hstep ih =>
    rcases hstep.counts hash with ⟨k, hcount, hoccurrences⟩ | ⟨k, hcount, hoccurrences⟩ <;> omega

theorem exact_steps (h : p.countOf hash = p.occurrences hash) (hsteps : CountedSteps S p q) :
    q.countOf hash = q.occurrences hash := by
  induction hsteps with
  | refl => exact h
  | tail _ hstep ih =>
    rcases hstep.counts hash with ⟨k, hcount, hoccurrences⟩ | ⟨k, hcount, hoccurrences⟩ <;> omega

theorem Acquires.occurrences_eq (h : Acquires S p q m) :
    q.occurrences hash = p.occurrences hash := by
  rw [occurrences, h.manifests_eq]
  rfl

theorem Ledger.restore (h : Ledger S p) {trashedAt : ℕ} (htrash : p.trash.get hash = some trashedAt)
    (hq : q = { p with
      trash := p.trash.erase hash
      refcounts := p.refcounts.insert hash (max ((p.refcounts.get hash).getD 0) 1) }) :
    Index S q ∧ ∀ k, q.occurrences k ≤ q.countOf k := by
  subst hq
  have hindexed : p.chunks.get hash ≠ none := h.index.trashed hash (by rw [htrash]; exact nofun)
  refine ⟨⟨h.index.holds, ?_, ?_, ?_⟩, ?_⟩
  · intro k hk
    unfold countOf at hk
    rw [get_insert] at hk
    split_ifs at hk with heq
    · rw [heq]
      exact hindexed
    · exact h.index.counted k hk
  · intro k hk
    rw [get_erase] at hk
    split_ifs at hk
    · exact absurd rfl hk
    · exact h.index.trashed k hk
  · intro k
    rw [get_insert]
    split_ifs
    · intro hzero
      have := Option.some.inj hzero
      omega
    · exact h.index.positive k
  · intro k
    have hcovered := h.covered k
    unfold countOf at hcovered ⊢
    rw [get_insert]
    split_ifs with heq
    · subst heq
      exact hcovered.trans (le_max_left _ _)
    · exact hcovered

theorem Ledger.advance (h : Ledger S p) {a : Action} (hcall : Advances S p a q) : Ledger S q := by
  suffices hsuffices : Index S q ∧ ∀ k, q.occurrences k ≤ q.countOf k from
    ⟨hsuffices.1, hcall.2, hsuffices.2⟩
  cases hcall.1 with
  | pulled _ _ _ _ hindexed hacquires =>
    refine ⟨h.index.acquire hacquires (List.forall_mem_singleton.2 hindexed), fun k => ?_⟩
    have hcovered := h.covered k
    rw [hacquires.occurrences_eq, hacquires.counts]
    omega
  | restored htrash => exact h.restore htrash rfl
  | stepped hsteps => exact ⟨h.index.steps hsteps, fun k => covered_steps (h.covered k) hsteps⟩

theorem Ledger.call [Sha256] (h : Ledger S p) {a : Action} (hS : ∀ c ∈ a.chunks, c ∈ S) :
    Ledger S (p.call a).1 :=
  h.advance (call_advances hS h.fresh)

def Within (S : Set (List UInt8)) (run : List Action) : Prop := ∀ a ∈ run, ∀ c ∈ a.chunks, c ∈ S

theorem Ledger.run [Sha256] (h : Ledger S p) {run : List Action} (hrun : Within S run) :
    Ledger S (machine.final p run) := by
  induction run generalizing p with
  | nil => exact h
  | cons a run ih =>
    exact ih (h.call (hrun a List.mem_cons_self)) fun b hb => hrun b (List.mem_cons_of_mem _ hb)

/-- **No live chunk is collected.** After any run, every chunk that a manifest names is indexed at
a location that holds it, and its count covers its occurrences in all manifests. -/
theorem manifest_chunks_kept [Sha256] (run : List Action) (objectId : ℕ) (m : List ChunkHash)
    (hget : (machine.final opened run).manifests.get objectId = some m) (hash : ChunkHash)
    (hmem : hash ∈ m) :
    (∃ location, (machine.final opened run).chunks.get hash = some location ∧
        Holds Set.univ (machine.final opened run).segments hash location) ∧
      (machine.final opened run).occurrences hash ≤ (machine.final opened run).countOf hash := by
  have hledger : Ledger Set.univ (machine.final opened run) :=
    Ledger.run .opened fun _ _ _ _ => Set.mem_univ _
  have hcovered := hledger.covered hash
  have hoccurs : 0 < (machine.final opened run).occurrences hash :=
    (List.count_pos_iff.2 hmem).trans_le (le_total hget)
  obtain ⟨location, hlocation⟩ :=
    Option.ne_none_iff_exists'.1 (hledger.index.counted hash (hoccurs.trans_le hcovered))
  exact ⟨⟨location, hlocation, hledger.index.holds hash location hlocation⟩, hcovered⟩

end Ledger

/-! ## Sample chunks -/

def sevenHash : ChunkHash := 0x448bd8dd9624154a690f8e84dc52d6f6
def eightHash : ChunkHash := 0x2ef3e0dda5293bda965d0adcedfc7d38

@[reducible] def sampleBlake3 : Blake3 :=
  ⟨fun data => if data = [7] then sevenHash else if data = [8] then eightHash else 0⟩

@[reducible] def sampleZstd : Zstd :=
  ⟨fun _ => none, fun _ => .error "Unknown frame descriptor", nofun⟩

def sampleMachine : Machine ArtifactPlane Action (Except String Unit) :=
  @machine sampleBlake3 sampleZstd Sha2.instSha256

def ingestSeven : List Action := [.beginIngest, .commitIngest 1 [7]]

def collectEight : List Action :=
  ingestSeven ++ [.beginIngest, .commitIngest 2 [8], .releaseObject 2, .gcChunks 1000,
    .gcTrash 2000 0]

/-- The second object is released and its chunk collected; that of the first is kept. -/
theorem ingested_chunk_kept :
    let final := sampleMachine.final opened collectEight
    (sampleMachine.final opened (collectEight.take 4)).chunks.get eightHash ≠ none ∧
      final.chunks.get eightHash = none ∧
      (∃ location, final.chunks.get sevenHash = some location ∧
        @Holds sampleBlake3 sampleZstd Set.univ final.segments sevenHash location) ∧
      final.occurrences sevenHash ≤ final.countOf sevenHash := by
  refine ⟨by decide +kernel, by decide +kernel, ?_⟩
  exact @manifest_chunks_kept sampleBlake3 sampleZstd Sha2.instSha256 collectEight 1 [sevenHash]
    (by decide +kernel) sevenHash List.mem_cons_self

end Sentinel.Fs.ArtifactPlane

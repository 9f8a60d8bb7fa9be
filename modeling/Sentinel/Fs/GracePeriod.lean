import Sentinel.Fs.TrashCollection

/-! The grace period of one pass of `gc_trash`, whatever number of hours the operator gives. The
pins are read first and the queue later, with other threads in between; what is then due is
deleted. The cutoff is right while the period fits between the epoch and now, and is anything from
zero to now where it does not. -/

namespace Sentinel.Fs
open Lib

namespace TrashSystem

variable {s : TrashSystem} {thread : ℕ} {now hours : UInt64} {hash : BlobHash}
  {pinned : List BlobHash}

def deleteAll (s : TrashSystem) (thread : ℕ) : ℕ → TrashSystem
  | 0 => s
  | n + 1 => (s.deleteBlob thread).deleteAll thread n

def collect (s : TrashSystem) (thread : ℕ) (now hours : UInt64) : TrashSystem :=
  (s.readExpired thread now hours).deleteAll thread s.store.trash.entries.length

/-- In the CAS directory and in the queue since the cutoff as it is computed, without a reference
count, and without a pin when the pins were read. -/
def Due (s : TrashSystem) (pinned : List BlobHash) (now hours : UInt64) (hash : BlobHash) : Prop :=
  hash ∈ s.blobs ∧ (∃ t, s.store.trash.get hash = some t ∧ t ≤ trashCutoff now hours) ∧
    s.store.refcounts.get hash = none ∧ hash ∉ pinned

theorem blobs_deleteAll {expired remaining : List BlobHash} {n : ℕ}
    (hpass : s.passes.get thread = some (.deleting expired remaining))
    (hn : remaining.length ≤ n) : hash ∈ (s.deleteAll thread n).blobs ↔
      hash ∈ s.blobs ∧ hash ∉ remaining := by
  induction n generalizing s remaining with
  | zero =>
    rw [List.eq_nil_of_length_eq_zero (Nat.le_zero.1 hn), deleteAll]
    simp only [List.not_mem_nil, not_false_eq_true, and_true]
  | succ n ih =>
    rw [deleteAll]
    cases remaining with
    | nil =>
      have hstay : s.deleteBlob thread = s := by rw [deleteBlob, hpass]
      rw [hstay]
      exact ih hpass (Nat.zero_le n)
    | cons first remaining =>
      have hdelete : s.deleteBlob thread = { s with
          blobs := s.blobs.erase first
          passes := s.passes.insert thread (.deleting expired remaining) } := by
        rw [deleteBlob, hpass]
      have hnext : (s.deleteBlob thread).passes.get thread =
          some (.deleting expired remaining) := by
        rw [hdelete]
        exact (Table.get_insert _ _ _ _).trans (if_pos rfl)
      rw [ih hnext (Nat.le_of_succ_le_succ hn), hdelete, Finset.mem_erase, List.mem_cons, not_or]
      exact ⟨fun h => ⟨h.1.2, h.1.1, h.2⟩, fun h => ⟨⟨h.2.1, h.1⟩, h.2.2⟩⟩

theorem deleteAll_of_no_pass (hpass : s.passes.get thread = none) (n : ℕ) :
    s.deleteAll thread n = s := by
  induction n with
  | zero => rfl
  | succ n ih =>
    have hstay : s.deleteBlob thread = s := by rw [deleteBlob, hpass]
    rw [deleteAll, hstay, ih]

theorem length_expiredHashes_le (m : MetadataStore) (pinned : List BlobHash) (cutoff : ℕ) :
    (m.expiredHashes pinned cutoff).length ≤ m.trash.entries.length := by
  rw [MetadataStore.expiredHashes, List.length_map]
  exact List.length_filter_le _ _

theorem mem_blobs_collect (hpins : s.passes.get thread = some (.pinsRead pinned)) :
    hash ∈ (s.collect thread now hours).blobs ↔
      hash ∈ s.blobs ∧ ¬ s.Due pinned now hours hash := by
  have hdue : hash ∈ s.blobs → (s.Due pinned now hours hash ↔
      hash ∈ s.store.expiredHashes pinned (trashCutoff now hours)) := by
    intro hblob
    rw [MetadataStore.mem_expiredHashes_iff]
    exact ⟨fun h => h.2, fun h => ⟨hblob, h⟩⟩
  rw [and_congr_right fun hblob => not_congr (hdue hblob), collect, readExpired, hpins]
  dsimp only
  cases hexpired : s.store.expiredHashes pinned (trashCutoff now hours) with
  | nil =>
    have hnone : (s.passes.erase thread).get thread = none := by
      rw [Table.get_erase, if_pos rfl]
    dsimp only
    rw [deleteAll_of_no_pass hnone]
    simp only [List.not_mem_nil, not_false_eq_true, and_true]
  | cons first rest =>
    have hlength := length_expiredHashes_le s.store pinned (trashCutoff now hours)
    rw [hexpired] at hlength
    have hpass : (s.passes.insert thread (.deleting (first :: rest) (first :: rest))).get thread =
        some (.deleting (first :: rest) (first :: rest)) := by
      rw [Table.get_insert, if_pos rfl]
    exact blobs_deleteAll hpass hlength

theorem trashCutoff_of_le (h : hours.toNat * 3600000 ≤ now.toNat) :
    trashCutoff now hours = now.toNat - hours.toNat * 3600000 := by
  have hnow := now.toNat_lt
  have hproduct : (hours * 3600 * 1000).toNat = hours.toNat * 3600000 := by
    rw [UInt64.toNat_mul, UInt64.toNat_mul]
    show hours.toNat * 3600 % 2 ^ 64 * 1000 % 2 ^ 64 = _
    omega
  rw [trashCutoff, hproduct]

/-- The grace period, exactly. Every blob that a pass deletes has been in the queue for the given
hours, as whole numbers, and has neither a count nor a pin when the queue is read, exactly where
the period is not longer than the time since the epoch, or nothing is due by the cutoff as it is
computed, and nothing that is due was pinned after the pins were read. -/
theorem grace_period_honoured_iff (hpins : s.passes.get thread = some (.pinsRead pinned)) :
    (∀ hash ∈ s.blobs, hash ∉ (s.collect thread now hours).blobs →
      (∃ t, s.store.trash.get hash = some t ∧ t + hours.toNat * 3600000 ≤ now.toNat) ∧
        s.store.refcounts.get hash = none ∧ hash ∉ s.store.pinnedHashes) ↔
    (hours.toNat * 3600000 ≤ now.toNat ∨ ∀ hash, ¬ s.Due pinned now hours hash) ∧
      ∀ hash, s.Due pinned now hours hash → hash ∉ s.store.pinnedHashes := by
  have hdeleted : ∀ hash ∈ s.blobs,
      (hash ∉ (s.collect thread now hours).blobs ↔ s.Due pinned now hours hash) := by
    intro hash hblob
    rw [mem_blobs_collect hpins, not_and, not_not]
    exact ⟨fun h => h hblob, fun h _ => h⟩
  constructor
  · intro h
    have hdue : ∀ hash, s.Due pinned now hours hash →
        (∃ t, s.store.trash.get hash = some t ∧ t + hours.toNat * 3600000 ≤ now.toNat) ∧
          s.store.refcounts.get hash = none ∧ hash ∉ s.store.pinnedHashes :=
      fun hash hdue => h hash hdue.1 ((hdeleted hash hdue.1).2 hdue)
    refine ⟨?_, fun hash hash_due => (hdue hash hash_due).2.2⟩
    by_cases hfits : hours.toNat * 3600000 ≤ now.toNat
    · exact .inl hfits
    · refine .inr fun hash hash_due => hfits ?_
      obtain ⟨⟨t, -, hle⟩, -⟩ := hdue hash hash_due
      exact (Nat.le_add_left _ t).trans hle
  · rintro ⟨hperiod, hunpinned⟩ hash hblob hgone
    have hash_due := (hdeleted hash hblob).1 hgone
    rcases hperiod with hfits | hnone
    · obtain ⟨t, ht, hle⟩ := hash_due.2.1
      rw [trashCutoff_of_le hfits] at hle
      exact ⟨⟨t, ht, (Nat.le_sub_iff_add_le hfits).1 hle⟩, hash_due.2.2.1,
        hunpinned hash hash_due⟩
    · exact absurd hash_due (hnone hash)

/-! ## A queue with one blob -/

def sampleQueue : TrashSystem :=
  sampleMachine.final opened [.store 0 [1], commitSample 2 1 0, .store 0 [2], commitSample 2 2 5,
    .readPins 1]

/-- An hour of grace, an hour and a second after the file was overwritten. -/
theorem sampleQueue_honoured :
    sampleQueue.passes.get 1 = some (.pinsRead []) ∧ ∀ hash ∈ sampleQueue.blobs,
      hash ∉ (sampleQueue.collect 1 3601000 1).blobs →
        (∃ t, sampleQueue.store.trash.get hash = some t ∧ t + 1 * 3600000 ≤ 3601000) ∧
          sampleQueue.store.refcounts.get hash = none ∧
          hash ∉ sampleQueue.store.pinnedHashes := by
  have hpins : sampleQueue.passes.get 1 = some (.pinsRead []) := by decide +kernel
  have hnopins : sampleQueue.store.pinnedHashes = [] := by decide +kernel
  refine ⟨hpins, (grace_period_honoured_iff hpins).2 ⟨.inl (by decide), fun hash _ => ?_⟩⟩
  rw [hnopins]
  exact List.not_mem_nil

/-- Some six hundred million years of grace are computed as thirty-five minutes: fifty minutes
after the file was overwritten its first content is deleted. -/
theorem sampleQueue_wraps :
    sampleQueue.store.trash.get (sampleHash 1) = some 5 ∧ sampleHash 1 ∈ sampleQueue.blobs ∧
      sampleHash 1 ∉ (sampleQueue.collect 1 3000000 5124095576031).blobs ∧
      3000000 < 5 + 5124095576031 * 3600000 := by
  decide +kernel

end TrashSystem
end Sentinel.Fs

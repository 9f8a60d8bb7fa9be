import Mathlib.Data.Finset.Basic
import Sentinel.Fs.ReferenceCounts
import Sentinel.Lib.Sha2

/-! Trash collection beside file writes and snapshot pinning. `gc_trash` reads the pins, reads the
expired hashes, deletes the blobs one by one outside any transaction and cleans the queue; a file
write stores its content and then commits the row that references it; a snapshot dumps the rows
and then pins their blobs. Any thread may run between two of these steps. -/

namespace Sentinel.Fs
open Lib MetadataStore Table

namespace MetadataStore

variable {m : MetadataStore} {hash : BlobHash}

theorem mem_pinnedHashes :
    hash ∈ m.pinnedHashes ↔ ∃ id now, m.pins.get (toLex (id, hash)) = some now := by
  simp only [pinnedHashes, List.mem_map, get_eq_some_iff]
  constructor
  · rintro ⟨⟨key, now⟩, hmem, rfl⟩
    exact ⟨(ofLex key).1, now, hmem⟩
  · rintro ⟨id, now, hmem⟩
    exact ⟨_, hmem, rfl⟩

theorem pinnedHashes_pin {id : String} {now : ℕ} {hashes : List BlobHash}
    (h : hash ∈ (m.pinSnapshotBlobs id now hashes).pinnedHashes) :
    hash ∈ m.pinnedHashes ∨ hash ∈ hashes := by
  induction hashes generalizing m with
  | nil => exact .inl h
  | cons x hashes ih =>
    rcases ih (m := { m with pins := m.pins.insert (toLex (id, x)) now }) h with hold | hnew
    · obtain ⟨id', now', hget⟩ := mem_pinnedHashes.1 hold
      rcases get_of_insert hget with ⟨heq, -⟩ | hget
      · have hx : hash = x := congrArg (fun key => (ofLex key).2) heq
        exact .inr (hx ▸ List.mem_cons_self)
      · exact .inl (mem_pinnedHashes.2 ⟨id', now', hget⟩)
    · exact .inr (List.mem_cons_of_mem _ hnew)

theorem pinnedHashes_unpin {id : String} {hashes : List BlobHash}
    (h : hash ∈ (m.unpinSnapshotBlobs id hashes).pinnedHashes) : hash ∈ m.pinnedHashes := by
  induction hashes generalizing m with
  | nil => exact h
  | cons x hashes ih =>
    have hold := ih (m := { m with pins := m.pins.erase (toLex (id, x)) }) h
    obtain ⟨id', now', hget⟩ := mem_pinnedHashes.1 hold
    exact mem_pinnedHashes.2 ⟨id', now', get_of_erase hget⟩

theorem mem_expiredHashes_iff {pinned : List BlobHash} {cutoff : ℕ} :
    hash ∈ m.expiredHashes pinned cutoff ↔
      (∃ t, m.trash.get hash = some t ∧ t ≤ cutoff) ∧ m.refcounts.get hash = none ∧
        hash ∉ pinned := by
  simp only [expiredHashes, List.mem_map, List.mem_filter, decide_eq_true_eq]
  constructor
  · rintro ⟨row, ⟨hrow, hle, hfree⟩, rfl⟩
    exact ⟨⟨row.2, get_eq_some_iff.2 hrow, hle⟩, hfree⟩
  · rintro ⟨⟨t, ht, hle⟩, hfree⟩
    exact ⟨(hash, t), ⟨get_eq_some_iff.1 ht, hle, hfree⟩, rfl⟩

end MetadataStore

/-! ## Threads -/

/-- A pass of `gc_trash` that has read the pins, or that has read the expired hashes and deletes
the blobs that remain. -/
inductive TrashPass
  | pinsRead (pinned : List BlobHash)
  | deleting (expired remaining : List BlobHash)
deriving DecidableEq

def TrashPass.deleted : TrashPass → Bool
  | .pinsRead _ => false
  | .deleting _ remaining => remaining.isEmpty

/-- The metadata store and the CAS directory with what the threads hold: `writers` the hashes a
file write has stored and not yet committed, `snapshots` the hashes a snapshot has dumped and not
yet pinned. -/
structure TrashSystem where
  store : MetadataStore
  blobs : Finset BlobHash
  writers : Table ℕ (List BlobHash)
  snapshots : Table ℕ (List BlobHash)
  passes : Table ℕ TrashPass

namespace TrashSystem

inductive Action
  | store (thread : ℕ) (data : List UInt8)
  | commit (thread : ℕ) (agent : String) (now : ℕ) (inodes : List (ℕ × WorkspaceInode))
      (dirents : List (ℕ × String × Option ℕ))
  | dump (thread : ℕ)
  | pin (thread : ℕ) (snapshotId : String) (now : ℕ)
  | unpin (snapshotId : String) (hashes : List BlobHash)
  | readPins (thread : ℕ)
  | readExpired (thread : ℕ) (now gracePeriodHours : UInt64)
  | deleteBlob (thread : ℕ)
  | cleanQueue (thread : ℕ)

def stored (s : TrashSystem) (thread : ℕ) : List BlobHash := (s.writers.get thread).getD []

/-- The rows of a transaction reference what its writer has stored, or keep or copy a reference
that a committed row has. -/
def MayCommit (s : TrashSystem) (thread : ℕ) (inodes : List (ℕ × WorkspaceInode)) : Prop :=
  ∀ hash ∈ newReferences inodes,
    hash ∈ s.stored thread ∨ hash ∈ s.store.referencedHashes

instance (s : TrashSystem) (thread : ℕ) (inodes : List (ℕ × WorkspaceInode)) :
    Decidable (s.MayCommit thread inodes) :=
  List.decidableBAll _ _

def commitRows (s : TrashSystem) (thread : ℕ) (agent : String) (now : ℕ)
    (inodes : List (ℕ × WorkspaceInode)) (dirents : List (ℕ × String × Option ℕ)) : TrashSystem :=
  let done := { s with writers := s.writers.erase thread }
  match s.store.commitNamespace agent now inodes dirents with
  | .ok store => { done with store := store }
  | .error _ => done

def storeBlob [Sha256] (s : TrashSystem) (thread : ℕ) (data : List UInt8) : TrashSystem :=
  let hash := blobHash (Sha256.digest data)
  { s with
    blobs := insert hash s.blobs
    writers := s.writers.insert thread (hash :: s.stored thread) }

/-- The product wraps around, as it is computed in 64 bits without a check; the difference is at
least zero. -/
def trashCutoff (now gracePeriodHours : UInt64) : ℕ :=
  now.toNat - (gracePeriodHours * 3600 * 1000).toNat

def readExpired (s : TrashSystem) (thread : ℕ) (now hours : UInt64) : TrashSystem :=
  match s.passes.get thread with
  | some (.pinsRead pinned) =>
    match s.store.expiredHashes pinned (trashCutoff now hours) with
    | [] => { s with passes := s.passes.erase thread }
    | expired => { s with passes := s.passes.insert thread (.deleting expired expired) }
  | _ => s

def deleteBlob (s : TrashSystem) (thread : ℕ) : TrashSystem :=
  match s.passes.get thread with
  | some (.deleting expired (hash :: remaining)) =>
    { s with
      blobs := s.blobs.erase hash
      passes := s.passes.insert thread (.deleting expired remaining) }
  | _ => s

def cleanQueue (s : TrashSystem) (thread : ℕ) : TrashSystem :=
  match s.passes.get thread with
  | some (.deleting expired []) =>
    { s with store := s.store.cleanQueue expired, passes := s.passes.erase thread }
  | _ => s

def pinDumped (s : TrashSystem) (thread : ℕ) (snapshotId : String) (now : ℕ) : TrashSystem :=
  match s.snapshots.get thread with
  | some hashes =>
    { s with
      store := s.store.pinSnapshotBlobs snapshotId now hashes
      snapshots := s.snapshots.erase thread }
  | none => s

def readPins (s : TrashSystem) (thread : ℕ) : TrashSystem :=
  match s.passes.get thread with
  | some _ => s
  | none => { s with passes := s.passes.insert thread (.pinsRead s.store.pinnedHashes) }

def step [Sha256] (s : TrashSystem) : Action → TrashSystem
  | .store thread data => s.storeBlob thread data
  | .commit thread agent now inodes dirents =>
    if s.MayCommit thread inodes then s.commitRows thread agent now inodes dirents else s
  | .dump thread =>
    { s with snapshots := s.snapshots.insert thread s.store.referencedBlobHashes }
  | .pin thread snapshotId now => s.pinDumped thread snapshotId now
  | .unpin snapshotId hashes => { s with store := s.store.unpinSnapshotBlobs snapshotId hashes }
  | .readPins thread => s.readPins thread
  | .readExpired thread now hours => s.readExpired thread now hours
  | .deleteBlob thread => s.deleteBlob thread
  | .cleanQueue thread => s.cleanQueue thread

def machine [Sha256] : Machine TrashSystem Action Unit := ⟨fun s a => (s.step a, ())⟩

/-! ## What holds -/

def Kept (s : TrashSystem) : Prop :=
  ∀ hash, hash ∈ s.store.referencedHashes ∨ hash ∈ s.store.pinnedHashes → hash ∈ s.blobs

structure AtRest (s : TrashSystem) : Prop where
  counted : s.store.Counted
  kept : s.Kept
  writers : s.writers.entries = []
  snapshots : s.snapshots.entries = []
  passes : s.passes.entries = []

/-- No pass overlaps a file write or a snapshot: a pass starts while no write is between storing
and committing and no snapshot between dumping and pinning, and neither starts while a pass is
between reading the pins and its last deletion. -/
def Apart (s : TrashSystem) : Action → Prop
  | .store _ _ | .dump _ => ∀ pass ∈ s.passes.values, pass.deleted = true
  | .readPins _ => s.writers.entries = [] ∧ s.snapshots.entries = []
  | _ => True

instance (s : TrashSystem) : (a : Action) → Decidable (s.Apart a)
  | .store _ _ | .dump _ => inferInstanceAs (Decidable (∀ pass ∈ s.passes.values, _))
  | .readPins _ => inferInstanceAs (Decidable (_ ∧ _))
  | .commit .. | .pin .. | .unpin .. | .readExpired .. | .deleteBlob _ | .cleanQueue _ =>
    .isTrue trivial

structure Separate (s : TrashSystem) : Prop where
  counted : s.store.Counted
  kept : s.Kept
  written : ∀ thread hashes, s.writers.get thread = some hashes → ∀ hash ∈ hashes, hash ∈ s.blobs
  dumped : ∀ thread hashes, s.snapshots.get thread = some hashes → ∀ hash ∈ hashes, hash ∈ s.blobs
  alone : ∀ thread pass, s.passes.get thread = some pass → pass.deleted = false →
    s.writers.entries = [] ∧ s.snapshots.entries = []
  seen : ∀ thread pinned, s.passes.get thread = some (.pinsRead pinned) →
    ∀ hash ∈ s.store.pinnedHashes, hash ∈ pinned
  dead : ∀ thread expired remaining, s.passes.get thread = some (.deleting expired remaining) →
    ∀ hash ∈ remaining, hash ∉ s.store.referencedHashes ∧ hash ∉ s.store.pinnedHashes

theorem AtRest.separate {s : TrashSystem} (h : s.AtRest) : s.Separate := by
  have hwriters := get_of_entries_nil h.writers
  have hsnapshots := get_of_entries_nil h.snapshots
  have hpasses := get_of_entries_nil h.passes
  refine ⟨h.counted, h.kept, ?_, ?_, ?_, ?_, ?_⟩
  · intro thread hashes hget
    rw [hwriters] at hget
    cases hget
  · intro thread hashes hget
    rw [hsnapshots] at hget
    cases hget
  all_goals
    intro thread
    rw [hpasses]
    intros
    contradiction

variable {s : TrashSystem} {thread : ℕ}

theorem Separate.stored_mem (h : s.Separate) {hash : BlobHash} (hmem : hash ∈ s.stored thread) :
    hash ∈ s.blobs := by
  unfold stored at hmem
  cases hget : s.writers.get thread with
  | none =>
    rw [hget] at hmem
    cases hmem
  | some hashes =>
    rw [hget] at hmem
    exact h.written thread hashes hget hash hmem

theorem Separate.storeBlob [Sha256] (h : s.Separate) {data : List UInt8}
    (hidle : ∀ pass ∈ s.passes.values, pass.deleted = true) :
    (s.storeBlob thread data).Separate := by
  have hblobs : ∀ hash ∈ s.blobs, hash ∈ (s.storeBlob thread data).blobs :=
    fun hash hmem => Finset.mem_insert_of_mem hmem
  refine ⟨h.counted, fun hash hmem => hblobs hash (h.kept hash hmem), ?_, ?_, ?_, h.seen, h.dead⟩
  · intro writer hashes hget hash hmem
    rcases get_of_insert hget with ⟨-, rfl⟩ | hget
    · rcases List.mem_cons.1 hmem with rfl | hmem
      · exact Finset.mem_insert_self _ _
      · exact hblobs hash (h.stored_mem hmem)
    · exact hblobs hash (h.written writer hashes hget hash hmem)
  · intro writer hashes hget hash hmem
    exact hblobs hash (h.dumped writer hashes hget hash hmem)
  · intro pass p hget hnot
    rw [hidle p (mem_values_iff.2 ⟨pass, hget⟩)] at hnot
    cases hnot

theorem Separate.commitRows (h : s.Separate) {agent : String} {now : ℕ}
    {inodes : List (ℕ × WorkspaceInode)} {dirents : List (ℕ × String × Option ℕ)}
    (hmay : s.MayCommit thread inodes) :
    (s.commitRows thread agent now inodes dirents).Separate := by
  have hwritten : ∀ writer hashes, (s.writers.erase thread).get writer = some hashes →
      ∀ hash ∈ hashes, hash ∈ s.blobs := by
    intro writer hashes hget
    exact h.written writer hashes (get_of_erase hget)
  have halone : ∀ pass p, s.passes.get pass = some p → p.deleted = false →
      (s.writers.erase thread).entries = [] ∧ s.snapshots.entries = [] := by
    intro pass p hget hnot
    obtain ⟨hwriters, hsnapshots⟩ := h.alone pass p hget hnot
    exact ⟨erase_entries_nil hwriters thread, hsnapshots⟩
  unfold TrashSystem.commitRows
  cases hcommit : s.store.commitNamespace agent now inodes dirents with
  | error e => exact ⟨h.counted, h.kept, hwritten, h.dumped, halone, h.seen, h.dead⟩
  | ok store =>
    obtain ⟨hcounted, hcarries, hrefs⟩ := commitNamespace_eq_ok hcommit
    have hpinned : store.pinnedHashes = s.store.pinnedHashes := by
      rw [pinnedHashes, pinnedHashes, hcarries.pins]
    refine ⟨hcounted h.counted, ?_, hwritten, h.dumped, halone, ?_, ?_⟩
    · rintro hash (hmem | hmem)
      · rcases hrefs hash hmem with hold | hnew
        · exact h.kept hash (.inl hold)
        · rcases hmay hash hnew with hstored | hold
          · exact h.stored_mem hstored
          · exact h.kept hash (.inl hold)
      · rw [hpinned] at hmem
        exact h.kept hash (.inr hmem)
    · intro pass pinned hget
      rw [hpinned]
      exact h.seen pass pinned hget
    · intro pass expired remaining hget hash hmem
      obtain ⟨hunreferenced, hunpinned⟩ := h.dead pass expired remaining hget hash hmem
      rw [hpinned]
      refine ⟨fun href => ?_, hunpinned⟩
      rcases hrefs hash href with hold | hnew
      · exact hunreferenced hold
      -- a pass with a blob left to delete runs alone, so the writer has stored nothing
      have hactive : (TrashPass.deleting expired remaining).deleted = false := by
        cases remaining with
        | nil => cases hmem
        | cons x remaining => rfl
      have hstored : s.stored thread = [] := by
        rw [stored, get_of_entries_nil (h.alone pass _ hget hactive).1]
        rfl
      rcases hmay hash hnew with hin | hold
      · rw [hstored] at hin
        cases hin
      · exact hunreferenced hold

theorem Separate.dump (h : s.Separate) (hidle : ∀ pass ∈ s.passes.values, pass.deleted = true) :
    { s with snapshots := s.snapshots.insert thread s.store.referencedBlobHashes }.Separate := by
  refine ⟨h.counted, h.kept, h.written, ?_, ?_, h.seen, h.dead⟩
  · intro snapshot hashes hget hash hmem
    rcases get_of_insert hget with ⟨-, rfl⟩ | hget
    · rw [referencedBlobHashes, List.mem_dedup] at hmem
      exact h.kept hash (.inl (List.mem_of_mem_filter hmem))
    · exact h.dumped snapshot hashes hget hash hmem
  · intro pass p hget hnot
    rw [hidle p (mem_values_iff.2 ⟨pass, hget⟩)] at hnot
    cases hnot

theorem Separate.deleted_of_snapshot (h : s.Separate) {pass : ℕ} {hashes : List BlobHash}
    {p : TrashPass} (hsnapshot : s.snapshots.get thread = some hashes)
    (hpass : s.passes.get pass = some p) : p.deleted = true := by
  cases hdeleted : p.deleted with
  | true => rfl
  | false =>
    rw [get_of_entries_nil (h.alone pass p hpass hdeleted).2] at hsnapshot
    cases hsnapshot

theorem Separate.pinDumped (h : s.Separate) {snapshotId : String} {now : ℕ} :
    (s.pinDumped thread snapshotId now).Separate := by
  unfold TrashSystem.pinDumped
  cases hsnapshot : s.snapshots.get thread with
  | none => exact h
  | some hashes =>
    have hdeleted : ∀ pass p, s.passes.get pass = some p → p.deleted = true :=
      fun _ _ => h.deleted_of_snapshot hsnapshot
    refine ⟨h.counted, ?_, h.written, ?_, ?_, ?_, ?_⟩
    · rintro hash (hmem | hmem)
      · exact h.kept hash (.inl hmem)
      · rcases pinnedHashes_pin hmem with hold | hnew
        · exact h.kept hash (.inr hold)
        · exact h.dumped thread hashes hsnapshot hash hnew
    · intro snapshot held hget
      exact h.dumped snapshot held (get_of_erase hget)
    · intro pass p hget hnot
      rw [hdeleted pass p hget] at hnot
      cases hnot
    · intro pass pinned hget
      cases hdeleted pass _ hget
    · intro pass expired remaining hget hash hmem
      have hnil : remaining = [] := List.isEmpty_iff.1 (hdeleted pass _ hget)
      rw [hnil] at hmem
      cases hmem

theorem Separate.unpin (h : s.Separate) {snapshotId : String} {hashes : List BlobHash} :
    { s with store := s.store.unpinSnapshotBlobs snapshotId hashes }.Separate := by
  refine ⟨h.counted, ?_, h.written, h.dumped, h.alone, ?_, ?_⟩
  · rintro hash (hmem | hmem)
    · exact h.kept hash (.inl hmem)
    · exact h.kept hash (.inr (pinnedHashes_unpin hmem))
  · intro pass pinned hget hash hmem
    exact h.seen pass pinned hget hash (pinnedHashes_unpin hmem)
  · intro pass expired remaining hget hash hmem
    obtain ⟨hunreferenced, hunpinned⟩ := h.dead pass expired remaining hget hash hmem
    exact ⟨hunreferenced, fun hpinned => hunpinned (pinnedHashes_unpin hpinned)⟩

theorem Separate.insertPass (h : s.Separate) {p : TrashPass}
    (halone : p.deleted = false → s.writers.entries = [] ∧ s.snapshots.entries = [])
    (hseen : ∀ pinned, p = .pinsRead pinned → ∀ hash ∈ s.store.pinnedHashes, hash ∈ pinned)
    (hdead : ∀ expired remaining, p = .deleting expired remaining → ∀ hash ∈ remaining,
      hash ∉ s.store.referencedHashes ∧ hash ∉ s.store.pinnedHashes) :
    { s with passes := s.passes.insert thread p }.Separate := by
  refine ⟨h.counted, h.kept, h.written, h.dumped, ?_, ?_, ?_⟩
  · intro pass q hget hnot
    rcases get_of_insert hget with ⟨-, rfl⟩ | hold
    · exact halone hnot
    · exact h.alone pass q hold hnot
  · intro pass pinned hget
    rcases get_of_insert hget with ⟨-, heq⟩ | hold
    · exact hseen pinned heq
    · exact h.seen pass pinned hold
  · intro pass expired remaining hget
    rcases get_of_insert hget with ⟨-, heq⟩ | hold
    · exact hdead expired remaining heq
    · exact h.dead pass expired remaining hold

theorem Separate.readPins (h : s.Separate) (hwriters : s.writers.entries = [])
    (hsnapshots : s.snapshots.entries = []) : (s.readPins thread).Separate := by
  unfold TrashSystem.readPins
  cases s.passes.get thread with
  | some p => exact h
  | none =>
    apply h.insertPass (fun _ => ⟨hwriters, hsnapshots⟩)
    · intro pinned heq
      cases heq
      exact fun _ => id
    · nofun

theorem Separate.erasePass (h : s.Separate) (thread : ℕ) :
    { s with passes := s.passes.erase thread }.Separate := by
  have hold : ∀ {pass p}, (s.passes.erase thread).get pass = some p →
      s.passes.get pass = some p := by
    intro pass p hget
    exact get_of_erase hget
  exact ⟨h.counted, h.kept, h.written, h.dumped,
    fun pass p hget => h.alone pass p (hold hget),
    fun pass pinned hget => h.seen pass pinned (hold hget),
    fun pass expired remaining hget => h.dead pass expired remaining (hold hget)⟩

theorem Separate.readExpired (h : s.Separate) {now hours : UInt64} :
    (s.readExpired thread now hours).Separate := by
  unfold TrashSystem.readExpired
  split
  case h_2 => exact h
  case h_1 pinned hpass =>
  split
  case h_1 => exact h.erasePass thread
  case h_2 =>
  apply h.insertPass (fun _ => h.alone thread _ hpass rfl)
  · nofun
  · intro expired remaining heq hash hmem
    cases heq
    obtain ⟨-, hnone, hpinned⟩ := mem_expiredHashes_iff.1 hmem
    exact ⟨h.counted.not_referenced hnone, fun hin => hpinned (h.seen thread pinned hpass hash hin)⟩

theorem Separate.eraseBlob (h : s.Separate) {hash : BlobHash} (hwriters : s.writers.entries = [])
    (hsnapshots : s.snapshots.entries = []) (hunreferenced : hash ∉ s.store.referencedHashes)
    (hunpinned : hash ∉ s.store.pinnedHashes) :
    { s with blobs := s.blobs.erase hash }.Separate := by
  refine ⟨h.counted, ?_, ?_, ?_, h.alone, h.seen, h.dead⟩
  · intro x hx
    refine Finset.mem_erase.2 ⟨?_, h.kept x hx⟩
    rintro rfl
    rcases hx with hx | hx
    · exact hunreferenced hx
    · exact hunpinned hx
  · intro writer hashes hget
    rw [get_of_entries_nil hwriters] at hget
    cases hget
  · intro snapshot hashes hget
    rw [get_of_entries_nil hsnapshots] at hget
    cases hget

theorem Separate.deleteBlob (h : s.Separate) : (s.deleteBlob thread).Separate := by
  unfold TrashSystem.deleteBlob
  split
  case h_2 => exact h
  case h_1 expired hash remaining hpass =>
  obtain ⟨hwriters, hsnapshots⟩ := h.alone thread _ hpass rfl
  obtain ⟨hunreferenced, hunpinned⟩ := h.dead thread _ _ hpass hash List.mem_cons_self
  have herased := h.eraseBlob hwriters hsnapshots hunreferenced hunpinned
  apply herased.insertPass (fun _ => ⟨hwriters, hsnapshots⟩)
  · nofun
  · intro expired' remaining' heq x hx
    cases heq
    exact h.dead thread _ _ hpass x (List.mem_cons_of_mem _ hx)

theorem Separate.cleanQueue (h : s.Separate) : (s.cleanQueue thread).Separate := by
  unfold TrashSystem.cleanQueue
  split
  case h_2 => exact h
  case h_1 expired hpass =>
  -- only the queue changes, which no other condition reads
  obtain ⟨hcounted, hkept, hwritten, hdumped, halone, hseen, hdead⟩ := h.erasePass thread
  exact ⟨hcounted, hkept, hwritten, hdumped, halone, hseen, hdead⟩

theorem Separate.step [Sha256] (h : s.Separate) (a : Action) (hapart : s.Apart a) :
    (s.step a).Separate := by
  cases a with
  | store thread data => exact h.storeBlob hapart
  | commit thread agent now inodes dirents =>
    simp only [TrashSystem.step]
    split_ifs with hmay
    · exact h.commitRows hmay
    · exact h
  | dump thread => exact h.dump hapart
  | pin thread snapshotId now => exact h.pinDumped
  | unpin snapshotId hashes => exact h.unpin
  | readPins thread => exact h.readPins hapart.1 hapart.2
  | readExpired thread now hours => exact h.readExpired
  | deleteBlob thread => exact h.deleteBlob
  | cleanQueue thread => exact h.cleanQueue

/-- **Referenced blobs are kept.** From a store at rest, whatever the interleaving, as long as no
pass overlaps a file write or a snapshot, every blob that a committed row or a pin references is
in the CAS directory. -/
theorem referenced_blobs_kept [Sha256] (s : TrashSystem) (hs : s.AtRest) (steps : List Action)
    (hsteps : machine.Meets Apart s steps) : (machine.final s steps).Kept := by
  have hkeep : ∀ (s : TrashSystem) (a : Action), s.Separate → s.Apart a →
      (machine.call s a).1.Separate := fun s a h hapart => h.step a hapart
  exact (machine.final_invariant hkeep hs.separate hsteps).kept

/-! ## A pass beside a write -/

def opened : TrashSystem := ⟨.opened, ∅, .empty, .empty, .empty⟩

theorem atRest_opened : opened.AtRest := by
  refine ⟨fun hash => rfl, ?_, rfl, rfl, rfl⟩
  rintro hash (hmem | hmem) <;> cases hmem

def sampleMachine : Machine TrashSystem Action Unit := @machine Sha2.instSha256

def sampleHash (b : UInt8) : BlobHash := blobHash (Sha2.sha256 [b])

def commitSample (inode : ℕ) (b : UInt8) (now : ℕ) : Action :=
  .commit 0 "alice" now [(inode, .legacy (.regular (sampleHash b) 1 420 now))]
    [(1, "file", some inode)]

/-- A file is overwritten, which leaves its first content in the trash. A pass reads that hash as
expired; a second write of the same content finds the blob in place and skips it; the pass deletes
the blob; the write commits. -/
def overlappingSteps : List Action :=
  [.store 0 [1], commitSample 2 1 0, .store 0 [2], commitSample 2 2 5,
    .readPins 1, .readExpired 1 10 0, .store 0 [1], .deleteBlob 1, commitSample 3 1 20]

theorem not_kept {s : TrashSystem} {hash : BlobHash} (hreferenced : hash ∈ s.store.referencedHashes)
    (hgone : hash ∉ s.blobs) : ¬ s.Kept :=
  fun hkept => hgone (hkept hash (.inl hreferenced))

theorem collected_under_write :
    opened.AtRest ∧ ¬ (sampleMachine.final opened overlappingSteps).Kept :=
  ⟨atRest_opened, @not_kept _ (sampleHash 1) (by decide +kernel) (by decide +kernel)⟩

def separateSteps : List Action :=
  [.store 0 [1], commitSample 2 1 0, .store 0 [2], commitSample 2 2 5,
    .readPins 1, .readExpired 1 10 0, .deleteBlob 1, .cleanQueue 1, .store 0 [1],
    commitSample 3 1 20]

theorem kept_beside_pass : (sampleMachine.final opened separateSteps).Kept ∧
    sampleHash 1 ∈ (sampleMachine.final opened separateSteps).store.referencedHashes :=
  ⟨@referenced_blobs_kept Sha2.instSha256 opened atRest_opened separateSteps (by decide +kernel),
    by decide +kernel⟩

end TrashSystem
end Sentinel.Fs

import Sentinel.Fs.HomeLinks
import Sentinel.Lib.Sha2

/-! What `create_file` writes (`home_manifest.rs`). The size and the digest of a file are
recorded beside its data; the restore uses the size to lay the file out and never reads the
digest, so that a file comes back as recorded only where the three agree already. -/

namespace Sentinel.Fs.HomeManifest
open Lib Lib.PathText

section Files

variable {ρ : Type} (readChunks : List ρ → Option (List (List UInt8)))

def placed : ℕ → List (List UInt8) → List (ℕ × List UInt8)
  | _, [] => []
  | offset, block :: rest => (offset, block) :: placed (offset + block.length) rest

def recordedWrites (entry : ManifestEntry ρ) : List (ℕ × List UInt8) :=
  entry.content.flatMap fun ext => placed ext.offset ((readChunks ext.chunkRefs).getD [])

structure Faithful [Sha256] (entry : ManifestEntry ρ) : Prop where
  within : ∀ w ∈ recordedWrites readChunks entry,
    w.2 = [] ∨ w.1 + w.2.length ≤ entry.size
  digest : entry.objectSha256 = some (Sha256.digest
    (tabulate entry.size fun i => (lastWritten (recordedWrites readChunks entry) i).getD 0))

def AsRecorded [Sha256] (fs : FileSystem) (dest : List Name) (entry : ManifestEntry ρ) : Prop :=
  ∃ rel inode attributes mtime content, validateRelPath entry.relPathBytes = .ok rel ∧
    fs (dest ++ rel) = some (.file inode attributes mtime content) ∧
    content.length = entry.size ∧ entry.objectSha256 = some (Sha256.digest content)

variable {readChunks} {grants : Call → List Name → Bool} {before fs fs' : FileSystem}
  {dest rel : List Name} {entry : ManifestEntry ρ} {policy : RestorePolicy}
  {entries : List (ManifestEntry ρ)}

/-! ### The content of one file -/

theorem foldl_blocks (bytes : List UInt8) (offset : ℕ) (blocks : List (List UInt8)) :
    (blocks.foldl (fun (bytes, at_) block =>
      (writeAt bytes at_ block, at_ + block.length)) (bytes, offset)).1 =
      writeAll bytes (placed offset blocks) := by
  induction blocks generalizing bytes offset with
  | nil => rfl
  | cons block rest ih => exact ih _ _

theorem contentOf_eq_ok {content : List UInt8} (h : contentOf readChunks entry = .ok content) :
    content = writeAll (List.replicate entry.size 0) (recordedWrites readChunks entry) := by
  unfold contentOf at h
  unfold recordedWrites
  generalize List.replicate entry.size (0 : UInt8) = bytes at h ⊢
  generalize entry.content = extents at h ⊢
  induction extents generalizing bytes with
  | nil => exact (Except.ok.inj h).symm
  | cons ext rest ih =>
    simp only [List.foldlM_cons, bind_eq_ok, orError_eq_ok, Except.ok.injEq] at h
    obtain ⟨middle, ⟨blocks, hblocks, rfl⟩, hrest⟩ := h
    rw [ih _ hrest, foldl_blocks, List.flatMap_cons, hblocks, Option.getD_some]
    exact (List.foldl_append ..).symm

theorem getD_contentOf {content : List UInt8} (h : contentOf readChunks entry = .ok content)
    (i : ℕ) :
    content.getD i 0 = (lastWritten (recordedWrites readChunks entry) i).getD 0 := by
  have hzero : (List.replicate entry.size (0 : UInt8)).getD i 0 = 0 := by
    rw [List.getD_eq_getElem?_getD, List.getElem?_replicate]
    split_ifs <;> rfl
  rw [contentOf_eq_ok h, getD_writeAll, hzero]

theorem faithful_iff [Sha256] {content : List UInt8}
    (h : contentOf readChunks entry = .ok content) :
    Faithful readChunks entry ↔
      content.length = entry.size ∧ entry.objectSha256 = some (Sha256.digest content) := by
  have hsize : content.length = entry.size ↔ ∀ w ∈ recordedWrites readChunks entry,
      w.2 = [] ∨ w.1 + w.2.length ≤ entry.size := by
    have hwrites : (writeAll (List.replicate entry.size (0 : UInt8))
        (recordedWrites readChunks entry)).length =
          (List.replicate entry.size (0 : UInt8)).length ↔ _ := length_writeAll_eq_iff
    rwa [← contentOf_eq_ok h, List.length_replicate] at hwrites
  have himage : content.length = entry.size → content = tabulate entry.size
      fun i => (lastWritten (recordedWrites readChunks entry) i).getD 0 := by
    intro hlength
    rw [← hlength, ← tabulate_getD content, length_tabulate]
    exact tabulate_congr fun i _ => (tabulate_getD content).symm ▸ getD_contentOf h i
  constructor
  · intro hfaithful
    have hlength := hsize.2 hfaithful.within
    refine ⟨hlength, ?_⟩
    rw [himage hlength]
    exact hfaithful.digest
  · rintro ⟨hlength, hdigest⟩
    refine ⟨hsize.1 hlength, ?_⟩
    rw [← himage hlength]
    exact hdigest

/-! ### A file once made stays as it is -/

def Keeps (fs fs' : FileSystem) : Prop := ∀ p node, fs p = some node → fs' p = some node

theorem Adds.keeps {node : Node} (h : Adds dest rel node fs fs') : Keeps fs fs' := by
  intro p other hp
  have hne : p ≠ dest ++ rel := by
    rintro rfl
    rw [h.free] at hp
    cases hp
  rw [h.set, FileSystem.set, if_neg hne]
  exact hp

theorem keeps_restoreNode (h : restoreNode grants readChunks dest policy fs entry = .ok fs') :
    Keeps fs fs' := by
  obtain ⟨-, rfl⟩ | ⟨rel, node, -, hadds, -⟩ := restoreNode_eq_ok h
  · exact fun _ _ hp => hp
  · exact hadds.keeps

theorem keeps_restoreHardlink (h : restoreHardlink grants dest fs entry = .ok fs') :
    Keeps fs fs' := by
  obtain ⟨-, rfl⟩ | ⟨rel, target, node, -, -, hadds⟩ := restoreHardlink_eq_ok h
  · exact fun _ _ hp => hp
  · exact hadds.keeps

theorem keeps_foldlM {step : FileSystem → ManifestEntry ρ → Except RestoreError FileSystem}
    (hstep : ∀ {fs fs' entry}, step fs entry = .ok fs' → Keeps fs fs')
    (h : entries.foldlM step fs = .ok fs') : Keeps fs fs' := by
  have hall : ∀ node p, fs p = some node → fs' p = some node := by
    intro node p hp
    exact foldlM_invariant (I := fun g => g p = some node)
      (fun _ _ _ _ hu hv => hstep hv p node hu) hp h
  exact fun p node => hall node p

theorem exists_file_of_rehydrate
    (h : rehydrate grants readChunks entries dest policy before = .ok fs)
    (hentry : entry ∈ entries) (hkind : entry.kind = .file) :
    ∃ rel attributes mtime content, validateRelPath entry.relPathBytes = .ok rel ∧
      fs (dest ++ rel) = some (.file (dest ++ rel) attributes mtime content) ∧
      contentOf readChunks entry = .ok content := by
  simp only [rehydrate, bind_eq_ok] at h
  obtain ⟨start, -, middle, hnodes, hlinks⟩ := h
  obtain ⟨pre, post, rfl⟩ := List.append_of_mem hentry
  simp only [List.foldlM_append, List.foldlM_cons, bind_eq_ok] at hnodes
  obtain ⟨fs₁, -, fs₂, hmade, hpost⟩ := hnodes
  obtain ⟨hlink, -⟩ | ⟨rel, node, hrel, hadds, hmakes⟩ := restoreNode_eq_ok hmade
  · rw [hkind] at hlink
    cases hlink
  · simp only [Makes, hkind] at hmakes
    obtain ⟨attributes, mtime, content, hcontent, rfl⟩ := hmakes
    have hset : fs₂ (dest ++ rel) = some (.file (dest ++ rel) attributes mtime content) := by
      rw [hadds.set, FileSystem.set, if_pos rfl]
    have hmiddle := keeps_foldlM keeps_restoreNode hpost _ _ hset
    exact ⟨rel, attributes, mtime, content, hrel,
      keeps_foldlM keeps_restoreHardlink hlinks _ _ hmiddle, hcontent⟩

/-- After an accepted manifest, every file is as recorded exactly when the size, the extents
and the digest of each file entry agree; nothing in the restore compares them. -/
theorem restored_files_as_recorded_iff [Sha256]
    (h : rehydrate grants readChunks entries dest policy before = .ok fs) :
    (∀ entry ∈ entries, entry.kind = .file → AsRecorded fs dest entry) ↔
      ∀ entry ∈ entries, entry.kind = .file → Faithful readChunks entry := by
  apply forall₃_congr
  intro entry hentry hkind
  obtain ⟨rel, attributes, mtime, content, hrel, hfile, hcontent⟩ :=
    exists_file_of_rehydrate h hentry hkind
  rw [faithful_iff hcontent]
  constructor
  · rintro ⟨rel', inode, attributes', mtime', content', hrel', hfile', hlength, hdigest⟩
    obtain rfl : rel = rel' := Except.ok.inj (hrel.symm.trans hrel')
    rw [hfile] at hfile'
    cases hfile'
    exact ⟨hlength, hdigest⟩
  · rintro ⟨hlength, hdigest⟩
    exact ⟨rel, _, attributes, mtime, content, hrel, hfile, hlength, hdigest⟩

end Files

def sampleFile (size : ℕ) : ManifestEntry Unit :=
  { relPathBytes := [0x61], kind := .file, size := size
    objectSha256 := some (Sha2.sha256 [0x68, 0x69])
    content := [{ offset := 0, chunkRefs := [()] }] }

def sampleChunks : List Unit → Option (List (List UInt8)) := fun _ => some [[0x68, 0x69]]

/-- A file of two bytes with its own digest comes back as recorded. -/
theorem faithful_file_restored :
    ∃ fs, rehydrate (fun _ _ => true) sampleChunks [sampleFile 2] sampleHome {} sampleFs = .ok fs ∧
      @AsRecorded _ Sha2.instSha256 fs sampleHome (sampleFile 2) := by
  refine ⟨_, rfl, ?_⟩
  let _ := Sha2.instSha256
  have h : rehydrate (fun _ _ => true) sampleChunks [sampleFile 2] sampleHome {} sampleFs =
      .ok _ := rfl
  have hfaithful : ∀ entry ∈ [sampleFile 2], entry.kind = .file →
      Faithful sampleChunks entry := by
    intro entry hentry _
    obtain rfl := List.mem_singleton.1 hentry
    exact ⟨by decide, by decide +kernel⟩
  exact (restored_files_as_recorded_iff h).2 hfaithful (sampleFile 2) (List.mem_singleton.2 rfl) rfl

/-- With a recorded size of one byte the same two bytes are restored, and the restore reports
no error. -/
theorem long_block_outgrows_size :
    ∃ fs attributes mtime,
      rehydrate (fun _ _ => true) sampleChunks [sampleFile 1] sampleHome {} sampleFs = .ok fs ∧
      fs [[0x68, 0x6f, 0x6d, 0x65], [0x61]] =
        some (.file [[0x68, 0x6f, 0x6d, 0x65], [0x61]] attributes mtime [0x68, 0x69]) ∧
      (sampleFile 1).size = 1 ∧ ¬ @AsRecorded _ Sha2.instSha256 fs sampleHome (sampleFile 1) := by
  refine ⟨_, _, _, rfl, rfl, rfl, ?_⟩
  rintro ⟨rel, inode, attributes, mtime, content, hrel, hfile, hlength, -⟩
  obtain rfl : rel = [[0x61]] := (Except.ok.inj hrel).symm
  cases hfile
  cases hlength

end Sentinel.Fs.HomeManifest

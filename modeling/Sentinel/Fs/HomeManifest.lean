import Mathlib.Data.UInt
import Sentinel.Lib.Arrays
import Sentinel.Lib.Bytes
import Sentinel.Lib.PathText
import Sentinel.Lib.Result

/-! Restoring an agent home from its manifest (`home_manifest.rs`). The file system is a map
from absolute paths, each a list of names, to nodes; `dest` is the path of the destination with
no link in it. A call of the kernel can fail for reasons that are not modelled here
(permissions, name lengths, space): `grants` says for each call whether it goes through. -/

namespace Sentinel.Fs.HomeManifest
open Lib Lib.PathText

inductive EntryKind
  | file | dir | symlink | hardlink | fifo | socket | charDevice | blockDevice
  deriving DecidableEq

inductive MtimePolicy
  | preserve (nanoseconds : ℕ)
  | reset

structure DataExtent (ρ : Type) where
  offset : ℕ
  chunkRefs : List ρ

structure ManifestEntry (ρ : Type) where
  relPathBytes : List UInt8
  kind : EntryKind
  mode : ℕ := 0o644
  mtimePolicy : MtimePolicy := .reset
  xattrs : List (List UInt8 × List UInt8) := []
  symlinkTarget : Option (List UInt8) := none
  hardlinkTo : Option (List UInt8) := none
  rdev : ℕ := 0
  size : ℕ := 0
  objectSha256 : Option Digest := none
  content : List (DataExtent ρ) := []

structure RestorePolicy where
  sandboxUid : ℕ := 0
  sandboxGid : ℕ := 0
  allowDevices : Bool := false
  applyChown : Bool := false

inductive RestoreError
  | emptyPath
  | absolutePath
  | parentComponent
  | curComponent
  | absoluteTarget
  | escapingTarget
  | noFinalComponent
  | parentRejected
  | linkWithoutTarget
  | refusedSpecial
  | notSpecial
  | xattrNameHasNul
  | chunksUnavailable
  | callFailed

def validateRelPath (rel : List UInt8) : Except RestoreError (List Name) := do
  ensure (rel ≠ []) .emptyPath
  mapAll
    (fun
      | .normal name => .ok name
      | .rootDir => .error .absolutePath
      | .parentDir => .error .parentComponent
      | .curDir => .error .curComponent)
    (components rel)

def checkDepth : ℤ → List Component → Except RestoreError Unit
  | _, [] => .ok ()
  | depth, .normal _ :: rest => checkDepth (depth + 1) rest
  | depth, .curDir :: rest => checkDepth depth rest
  | depth, .parentDir :: rest => do
    ensure (¬ depth - 1 < 0) .escapingTarget
    checkDepth (depth - 1) rest
  | _, .rootDir :: _ => .error .absoluteTarget

def validateSymlinkTarget (target : List UInt8) : Except RestoreError Unit := do
  ensure (isAbsolute target = false) .absoluteTarget
  checkDepth 0 (components target)

/-! ## The file system -/

structure Attributes where
  mode : ℕ := 0o755
  owner : Option (ℕ × ℕ) := none
  xattrs : List (List UInt8 × List UInt8) := []

/-- What a path names. An inode is known by the path its file was made at; nothing is removed
here, so two files never share one. -/
inductive Node
  | dir (attributes : Attributes)
  | file (inode : List Name) (attributes : Attributes) (mtime : Option ℕ) (content : List UInt8)
  | symlink (target : List UInt8)
  | special (kind : EntryKind) (mode dev : ℕ)

abbrev FileSystem := List Name → Option Node

inductive Call
  | mkdir | openParent | create | write | setAttributes | symlink | mknod | link

namespace FileSystem

def set (fs : FileSystem) (path : List Name) (node : Node) : FileSystem :=
  fun p => if p = path then some node else fs p

def isDir (fs : FileSystem) (path : List Name) : Bool :=
  match fs path with
  | some (.dir _) => true
  | _ => false

end FileSystem

section Restore

variable {ρ : Type} (grants : Call → List Name → Bool)
  (readChunks : List ρ → Option (List (List UInt8)))

def createDirAll (dest : List Name) (fs : FileSystem) : Except RestoreError FileSystem :=
  dest.inits.foldlM (fun fs path =>
    match fs path with
    | some (.dir _) => .ok fs
    | none => do
      ensure (grants .mkdir path) .callFailed
      .ok (fs.set path (.dir {}))
    | some _ => .error .callFailed) fs

/-- `openat2` below the destination without following a link: the path of the parent directory
of `rel`, each component of which is a directory, and the last name of `rel`. -/
def openParent (dest rel : List Name) (fs : FileSystem) :
    Except RestoreError (List Name × Name) := do
  let leaf ← orError rel.getLast? .noFinalComponent
  let parent := rel.dropLast
  ensure (parent.inits.all fun p => fs.isDir (dest ++ p)) .parentRejected
  ensure (grants .openParent (dest ++ parent)) .callFailed
  .ok (dest ++ parent, leaf)

/-- The calls that make a node in an open directory fail where the name is taken; the path of
the new node otherwise. -/
def claimName (call : Call) (parent : List Name) (leaf : Name) (fs : FileSystem) :
    Except RestoreError (List Name) := do
  ensure ((fs (parent ++ [leaf])).isNone) .callFailed
  ensure (grants call (parent ++ [leaf])) .callFailed
  .ok (parent ++ [leaf])

def applyOwner (policy : RestorePolicy) : Option (ℕ × ℕ) :=
  if policy.applyChown then some (policy.sandboxUid, policy.sandboxGid) else none

/-- The mode of a regular file after `fchown`: the set-user-id bit is cleared, and the
set-group-id bit where the group may execute the file. -/
def chownedMode (mode : ℕ) : ℕ :=
  if mode &&& 0o010 = 0 then mode &&& 0o3777 else mode &&& 0o1777

def ownedMode (policy : RestorePolicy) (mode : ℕ) : ℕ :=
  if policy.applyChown then chownedMode mode else mode

def applyMtime : MtimePolicy → Option ℕ
  | .preserve nanoseconds => some nanoseconds
  | .reset => none

def attributesOf (entry : ManifestEntry ρ) (policy : RestorePolicy) (path : List Name) :
    Except RestoreError Attributes := do
  ensure (grants .setAttributes path) .callFailed
  checkAll (fun x => ensure (0 ∉ x.1) .xattrNameHasNul) entry.xattrs
  .ok { mode := entry.mode, owner := applyOwner policy, xattrs := entry.xattrs }

def createDir (dest rel : List Name) (entry : ManifestEntry ρ) (policy : RestorePolicy)
    (fs : FileSystem) : Except RestoreError FileSystem := do
  let (parent, leaf) ← openParent grants dest rel fs
  let path ← claimName grants .mkdir parent leaf fs
  let attributes ← attributesOf grants entry policy path
  .ok (fs.set path (.dir attributes))

def contentOf (entry : ManifestEntry ρ) : Except RestoreError (List UInt8) :=
  entry.content.foldlM (fun bytes ext => do
    let blocks ← orError (readChunks ext.chunkRefs) .chunksUnavailable
    .ok (blocks.foldl (fun (bytes, at_) block =>
      (writeAt bytes at_ block, at_ + block.length)) (bytes, ext.offset)).1)
    (List.replicate entry.size 0)

def createFile (dest rel : List Name) (entry : ManifestEntry ρ) (policy : RestorePolicy)
    (fs : FileSystem) : Except RestoreError FileSystem := do
  let (parent, leaf) ← openParent grants dest rel fs
  let path ← claimName grants .create parent leaf fs
  let content ← contentOf readChunks entry
  ensure (grants .write path) .callFailed
  let attributes ← attributesOf grants entry policy path
  .ok (fs.set path (.file path { attributes with mode := ownedMode policy attributes.mode }
    (applyMtime entry.mtimePolicy) content))

/-- `symlinkat` refuses an empty target. -/
def createSymlink (dest rel : List Name) (entry : ManifestEntry ρ) (fs : FileSystem) :
    Except RestoreError FileSystem := do
  let target ← orError entry.symlinkTarget .linkWithoutTarget
  validateSymlinkTarget target
  let (parent, leaf) ← openParent grants dest rel fs
  ensure (target ≠ []) .callFailed
  let path ← claimName grants .symlink parent leaf fs
  .ok (fs.set path (.symlink target))

def isDevice : EntryKind → Bool
  | .charDevice | .blockDevice => true
  | _ => false

def isSpecial : EntryKind → Bool
  | .fifo | .socket => true
  | kind => isDevice kind

def createSpecial (dest rel : List Name) (entry : ManifestEntry ρ) (fs : FileSystem) :
    Except RestoreError FileSystem := do
  let (parent, leaf) ← openParent grants dest rel fs
  ensure (isSpecial entry.kind) .notSpecial
  let dev := if isDevice entry.kind then entry.rdev else 0
  let path ← claimName grants .mknod parent leaf fs
  .ok (fs.set path (.special entry.kind entry.mode dev))

/-- `linkat` without following: a second name for the node itself, a link included, but never
for a directory. -/
def createHardlink (dest rel target : List Name) (fs : FileSystem) :
    Except RestoreError FileSystem := do
  let (linkParent, linkLeaf) ← openParent grants dest rel fs
  let (targetParent, targetLeaf) ← openParent grants dest target fs
  let node ← orError (fs (targetParent ++ [targetLeaf])) .callFailed
  ensure (fs.isDir (targetParent ++ [targetLeaf]) = false) .callFailed
  let path ← claimName grants .link linkParent linkLeaf fs
  .ok (fs.set path node)

def restoreNode (dest : List Name) (policy : RestorePolicy) (fs : FileSystem)
    (entry : ManifestEntry ρ) : Except RestoreError FileSystem :=
  if entry.kind = .hardlink then .ok fs else do
    let rel ← validateRelPath entry.relPathBytes
    match entry.kind with
    | .dir => createDir grants dest rel entry policy fs
    | .file => createFile grants readChunks dest rel entry policy fs
    | .symlink => createSymlink grants dest rel entry fs
    | _ => do
      ensure policy.allowDevices .refusedSpecial
      createSpecial grants dest rel entry fs

def restoreHardlink (dest : List Name) (fs : FileSystem) (entry : ManifestEntry ρ) :
    Except RestoreError FileSystem :=
  if entry.kind ≠ .hardlink then .ok fs else do
    let rel ← validateRelPath entry.relPathBytes
    let targetBytes ← orError entry.hardlinkTo .linkWithoutTarget
    let target ← validateRelPath targetBytes
    createHardlink grants dest rel target fs

def rehydrate (entries : List (ManifestEntry ρ)) (dest : List Name) (policy : RestorePolicy)
    (fs : FileSystem) : Except RestoreError FileSystem := do
  let fs ← createDirAll grants dest fs
  let fs ← entries.foldlM (restoreNode grants readChunks dest policy) fs
  entries.foldlM (restoreHardlink grants dest) fs

end Restore

/-! ## What a restored home holds -/

theorem checkDepth_eq_ok {text : List Component} {d : ℕ} :
    checkDepth d text = .ok () ↔ Contained d text := by
  induction text generalizing d with
  | nil => simp [checkDepth, Contained]
  | cons c rest ih =>
    cases c with
    | rootDir => simp [checkDepth, Contained]
    | curDir => exact ih
    | normal name => exact ih (d := d + 1)
    | parentDir =>
      simp only [checkDepth, bind_eq_ok, ensure_eq_ok, exists_unit, Contained]
      constructor
      · rintro ⟨hd, hrest⟩
        have hpos : 0 < d := by omega
        have hcast : ((d - 1 : ℕ) : ℤ) = (d : ℤ) - 1 := by omega
        exact ⟨hpos, ih.1 (hcast ▸ hrest)⟩
      · rintro ⟨hd, hrest⟩
        have hcast : ((d - 1 : ℕ) : ℤ) = (d : ℤ) - 1 := by omega
        exact ⟨by omega, hcast ▸ ih.2 hrest⟩

theorem contained_of_validateSymlinkTarget {target : List UInt8}
    (h : validateSymlinkTarget target = .ok ()) : Contained 0 (steps target) := by
  simp only [validateSymlinkTarget, bind_eq_ok, ensure_eq_ok, exists_unit] at h
  exact contained_components.1 (checkDepth_eq_ok.1 h.2)

def Vetted (node : Node) : Prop :=
  ∀ target, node = .symlink target → validateSymlinkTarget target = .ok ()

structure Restored (before : FileSystem) (dest : List Name) (fs : FileSystem) : Prop where
  outside : ∀ p, ¬ dest <+: p → fs p = before p
  vetted : ∀ p node, fs (dest ++ p) = some node → p ≠ [] → Vetted node

section Restored

variable {ρ : Type} {grants : Call → List Name → Bool}
  {readChunks : List ρ → Option (List (List UInt8))} {before fs fs' : FileSystem}
  {dest rel : List Name} {entry : ManifestEntry ρ} {policy : RestorePolicy}
  {parent path : List Name} {leaf : Name}

theorem openParent_eq_ok (h : openParent grants dest rel fs = .ok (parent, leaf)) :
    rel ≠ [] ∧ parent ++ [leaf] = dest ++ rel := by
  simp only [openParent, bind_eq_ok, ensure_eq_ok, exists_unit, orError_eq_ok, Except.ok.injEq,
    Prod.mk.injEq] at h
  obtain ⟨last, hlast, -, -, rfl, rfl⟩ := h
  have hrel : rel ≠ [] := by
    rintro rfl
    cases hlast
  refine ⟨hrel, ?_⟩
  rw [List.append_assoc, List.dropLast_append_getLast? _ hlast]

theorem claimName_eq_ok {call : Call} (h : claimName grants call parent leaf fs = .ok path) :
    path = parent ++ [leaf] ∧ fs path = none := by
  simp only [claimName, bind_eq_ok, ensure_eq_ok, exists_unit, Except.ok.injEq] at h
  obtain ⟨hfree, -, rfl⟩ := h
  exact ⟨rfl, Option.isNone_iff_eq_none.1 hfree⟩

structure Adds (dest rel : List Name) (node : Node) (fs fs' : FileSystem) : Prop where
  free : fs (dest ++ rel) = none
  set : fs' = fs.set (dest ++ rel) node

theorem Adds.of_claim {call : Call} (hopen : openParent grants dest rel fs = .ok (parent, leaf))
    (hpath : claimName grants call parent leaf fs = .ok path) (node : Node) :
    path = dest ++ rel ∧ Adds dest rel node fs (fs.set path node) := by
  obtain ⟨rfl, hfree⟩ := claimName_eq_ok hpath
  rw [(openParent_eq_ok hopen).2] at hfree ⊢
  exact ⟨rfl, hfree, rfl⟩

def Makes (readChunks : List ρ → Option (List (List UInt8))) (entry : ManifestEntry ρ)
    (path : List Name) (node : Node) : Prop :=
  match entry.kind with
  | .dir => ∃ attributes, node = .dir attributes
  | .file => ∃ attributes mtime content,
      contentOf readChunks entry = .ok content ∧ node = .file path attributes mtime content
  | .symlink => ∃ target, validateSymlinkTarget target = .ok () ∧ node = .symlink target
  | kind => ∃ mode dev, node = .special kind mode dev

theorem restoreNode_eq_ok (h : restoreNode grants readChunks dest policy fs entry = .ok fs') :
    (entry.kind = .hardlink ∧ fs' = fs) ∨
      ∃ rel node, validateRelPath entry.relPathBytes = .ok rel ∧ Adds dest rel node fs fs' ∧
        Makes readChunks entry (dest ++ rel) node := by
  unfold HomeManifest.restoreNode at h
  split_ifs at h with hkind
  · exact .inl ⟨hkind, (Except.ok.inj h).symm⟩
  · obtain ⟨rel, hrel, h⟩ := bind_eq_ok.1 h
    refine .inr ⟨rel, ?_⟩
    unfold Makes
    split at h
    · simp only [createDir, bind_eq_ok, Prod.exists, Except.ok.injEq] at h
      obtain ⟨parent, leaf, hopen, path, hpath, attributes, -, rfl⟩ := h
      obtain ⟨-, hadds⟩ := Adds.of_claim hopen hpath (.dir attributes)
      exact ⟨_, hrel, hadds, attributes, rfl⟩
    · simp only [createFile, bind_eq_ok, Prod.exists, Except.ok.injEq] at h
      obtain ⟨parent, leaf, hopen, path, hpath, content, hcontent, -, -, attributes, -, rfl⟩ := h
      obtain ⟨rfl, hadds⟩ := Adds.of_claim hopen hpath (.file path
        { attributes with mode := ownedMode policy attributes.mode }
        (applyMtime entry.mtimePolicy) content)
      exact ⟨_, hrel, hadds, _, _, content, hcontent, rfl⟩
    · -- the target was checked before the link is made
      simp only [createSymlink, bind_eq_ok, Prod.exists, orError_eq_ok, exists_unit,
        Except.ok.injEq] at h
      obtain ⟨target, -, htarget, parent, leaf, hopen, -, path, hpath, rfl⟩ := h
      obtain ⟨-, hadds⟩ := Adds.of_claim hopen hpath (.symlink target)
      exact ⟨_, hrel, hadds, target, htarget, rfl⟩
    · simp only [createSpecial, bind_eq_ok, Prod.exists, exists_unit, Except.ok.injEq] at h
      obtain ⟨-, parent, leaf, hopen, -, path, hpath, rfl⟩ := h
      obtain ⟨-, hadds⟩ := Adds.of_claim hopen hpath (.special entry.kind entry.mode
        (if isDevice entry.kind then entry.rdev else 0))
      exact ⟨_, hrel, hadds, _, _, rfl⟩

theorem restoreHardlink_eq_ok (h : restoreHardlink grants dest fs entry = .ok fs') :
    (entry.kind ≠ .hardlink ∧ fs' = fs) ∨
      ∃ rel target node, target ≠ [] ∧ fs (dest ++ target) = some node ∧
        Adds dest rel node fs fs' := by
  unfold HomeManifest.restoreHardlink at h
  split_ifs at h with hkind
  · exact .inl ⟨hkind, (Except.ok.inj h).symm⟩
  · simp only [createHardlink, bind_eq_ok, orError_eq_ok, exists_unit, Prod.exists,
      Except.ok.injEq] at h
    obtain ⟨rel, -, targetBytes, -, target, -, parent, leaf, hopen, targetParent, targetLeaf,
      htarget, node, hnode, -, path, hpath, rfl⟩ := h
    obtain ⟨hne, htargetPath⟩ := openParent_eq_ok htarget
    rw [htargetPath] at hnode
    exact .inr ⟨rel, target, node, hne, hnode, (Adds.of_claim hopen hpath node).2⟩

theorem Restored.adds (hfs : Restored before dest fs) {node : Node} (hnode : Vetted node)
    (h : Adds dest rel node fs fs') : Restored before dest fs' := by
  obtain ⟨-, rfl⟩ := h
  refine ⟨fun p hp => ?_, fun p other hother hp => ?_⟩
  · have hne : p ≠ dest ++ rel := by
      rintro rfl
      exact hp (List.prefix_append dest rel)
    rw [FileSystem.set, if_neg hne]
    exact hfs.outside p hp
  · unfold FileSystem.set at hother
    split_ifs at hother with heq
    · cases hother
      exact hnode
    · exact hfs.vetted p other hother hp

theorem vetted_of_makes {node : Node} (h : Makes readChunks entry path node) : Vetted node := by
  intro target htarget
  unfold Makes at h
  split at h
  · obtain ⟨attributes, rfl⟩ := h
    cases htarget
  · obtain ⟨attributes, mtime, content, -, rfl⟩ := h
    cases htarget
  · obtain ⟨other, hother, rfl⟩ := h
    cases htarget
    exact hother
  · obtain ⟨mode, dev, rfl⟩ := h
    cases htarget

theorem Restored.restoreNode (hfs : Restored before dest fs)
    (h : restoreNode grants readChunks dest policy fs entry = .ok fs') :
    Restored before dest fs' := by
  obtain ⟨-, rfl⟩ | ⟨rel, node, -, hadds, hmakes⟩ := restoreNode_eq_ok h
  · exact hfs
  · exact hfs.adds (vetted_of_makes hmakes) hadds

theorem Restored.restoreHardlink (hfs : Restored before dest fs)
    (h : restoreHardlink grants dest fs entry = .ok fs') : Restored before dest fs' := by
  obtain ⟨-, rfl⟩ | ⟨rel, target, node, hne, hnode, hadds⟩ := restoreHardlink_eq_ok h
  · exact hfs
  · -- a second name for a link of the home carries the target checked for the first
    exact hfs.adds (hfs.vetted target node hnode hne) hadds

structure EmptyHome (dest : List Name) (fs : FileSystem) : Prop where
  ancestors : ∀ p, p <+: dest → fs.isDir p
  empty : ∀ p, p ≠ [] → fs (dest ++ p) = none

theorem EmptyHome.createDirAll (hfs : EmptyHome dest fs) :
    createDirAll grants dest fs = .ok fs := by
  have hall : ∀ p ∈ dest.inits, fs.isDir p :=
    fun p hp => hfs.ancestors p ((List.mem_inits p dest).1 hp)
  unfold HomeManifest.createDirAll
  generalize dest.inits = rows at hall ⊢
  induction rows with
  | nil => rfl
  | cons p rest ih =>
    obtain ⟨hp, hrest⟩ := List.forall_mem_cons.1 hall
    obtain ⟨attributes, hdir⟩ : ∃ attributes, fs p = some (.dir attributes) := by
      unfold FileSystem.isDir at hp
      split at hp
      · next attributes hdir => exact ⟨attributes, hdir⟩
      · cases hp
    rw [List.foldlM_cons, hdir]
    exact ih hrest

theorem restored_of_rehydrate {entries : List (ManifestEntry ρ)} (hhome : EmptyHome dest fs)
    (h : rehydrate grants readChunks entries dest policy fs = .ok fs') :
    Restored fs dest fs' := by
  simp only [rehydrate, hhome.createDirAll, bind_eq_ok, Except.ok.injEq, exists_eq_left'] at h
  obtain ⟨mid, hnodes, hlinks⟩ := h
  have hstart : Restored fs dest fs := by
    refine ⟨fun p _ => rfl, fun p node hnode hp => ?_⟩
    rw [hhome.empty p hp] at hnode
    cases hnode
  have hmid : Restored fs dest mid :=
    foldlM_invariant (fun _ _ _ _ hu hv => hu.restoreNode hv) hstart hnodes
  exact foldlM_invariant (fun _ _ _ _ hu hv => hu.restoreHardlink hv) hmid hlinks

end Restored

end Sentinel.Fs.HomeManifest

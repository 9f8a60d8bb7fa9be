import Mathlib.Data.UInt
import Sentinel.Lib.Arrays
import Sentinel.Lib.Machine
import Sentinel.Lib.Table

/-! The segment store (`sentinel-fs`, module `segment`): chunks packed one after the other into
segment files. A writer keeps its file open and its write position in memory, so it goes on writing
to a file that has been removed from the directory, and a segment is numbered after the files that
are in the directory when it is started. -/

namespace Sentinel.Fs
open Lib List

structure ChunkLocation where
  segmentId : ℕ
  offset : ℕ
  compressedLen : ℕ
deriving DecidableEq

def ChunkLocation.Overlaps (l l' : ChunkLocation) : Prop :=
  l.segmentId = l'.segmentId ∧ max l.offset l'.offset <
    min (l.offset + l.compressedLen) (l'.offset + l'.compressedLen)

instance (l l' : ChunkLocation) : Decidable (l.Overlaps l') := inferInstanceAs (Decidable (_ ∧ _))

/-- The segment that is being written. Its file is the one in the directory, or it is no longer
there and only the writer has it. -/
structure ActiveSegment where
  id : ℕ
  unlinked : Option (List UInt8)
  writeOffset : ℕ

structure SegmentStore where
  dir : Table ℕ (List UInt8)
  targetBytes : ℕ
  writer : Option ActiveSegment

inductive SegmentError
  | tooLarge
  | io
  | notFound (segmentId : ℕ)
  | short

/-- Where an append fails: before it has a new segment, after so many bytes of the header, or
after so many bytes of the chunk. -/
inductive AppendFault
  | start
  | header (written : ℕ)
  | data (written : ℕ)

def segmentHeader : List UInt8 :=
  [0x53, 0x50, 0x43, 0x4b] ++ [1, 0, 0, 0] ++ List.replicate 8 0

def segmentHeaderSize : ℕ := 16

namespace SegmentStore

def openWithTarget (dir : Table ℕ (List UInt8)) (targetBytes : ℕ) : SegmentStore :=
  ⟨dir, targetBytes, none⟩

def segmentIds (s : SegmentStore) : List ℕ := s.dir.entries.map Prod.fst

def nextSegmentId (s : SegmentStore) : ℕ :=
  (s.segmentIds.getLast?).elim 0 fun id => (id + 1) % 2 ^ 32

def needsNew (s : SegmentStore) : Bool :=
  s.writer.elim true fun seg => s.targetBytes ≤ seg.writeOffset

def startSegment (s : SegmentStore) (fault : Option AppendFault) :
    SegmentStore × Except SegmentError ActiveSegment :=
  let id := s.nextSegmentId
  let file := (s.dir.get id).getD []
  match fault with
  | some .start => (s, .error .io)
  | some (.header written) =>
    ({ s with dir := s.dir.insert id (writeAt file 0 (segmentHeader.take written)) }, .error .io)
  | _ =>
    let seg : ActiveSegment := ⟨id, none, segmentHeaderSize⟩
    ({ s with dir := s.dir.insert id (writeAt file 0 segmentHeader), writer := some seg }, .ok seg)

def ensureActiveSegment (s : SegmentStore) (fault : Option AppendFault) :
    SegmentStore × Except SegmentError ActiveSegment :=
  match s.writer with
  | some seg => if s.needsNew then s.startSegment fault else (s, .ok seg)
  | none => s.startSegment fault

def writeActive (s : SegmentStore) (seg : ActiveSegment) (data : List UInt8) : SegmentStore :=
  match seg.unlinked with
  | none =>
    let file := (s.dir.get seg.id).getD []
    { s with dir := s.dir.insert seg.id (writeAt file seg.writeOffset data) }
  | some file =>
    { s with writer := some { seg with unlinked := some (writeAt file seg.writeOffset data) } }

def advance (s : SegmentStore) (len : ℕ) : SegmentStore :=
  { s with writer := s.writer.map fun seg => { seg with writeOffset := seg.writeOffset + len } }

def append (s : SegmentStore) (compressed : List UInt8) (fault : Option AppendFault) :
    SegmentStore × Except SegmentError ChunkLocation :=
  if 2 ^ 32 ≤ compressed.length then (s, .error .tooLarge)
  else match s.ensureActiveSegment fault with
    | (s, .error e) => (s, .error e)
    | (s, .ok seg) =>
      match fault with
      | some (.data written) => (s.writeActive seg (compressed.take written), .error .io)
      | _ => ((s.writeActive seg compressed).advance compressed.length,
          .ok ⟨seg.id, seg.writeOffset, compressed.length⟩)

def read (s : SegmentStore) (loc : ChunkLocation) : Except SegmentError (List UInt8) :=
  match s.dir.get loc.segmentId with
  | none => .error (.notFound loc.segmentId)
  | some file => (readAt file loc.offset loc.compressedLen).elim (.error .short) .ok

def removeSegment (s : SegmentStore) (segmentId : ℕ) : SegmentStore :=
  match s.dir.get segmentId with
  | none => s
  | some file =>
    { s with
      dir := s.dir.erase segmentId
      writer := s.writer.map fun seg =>
        if seg.id = segmentId ∧ seg.unlinked = none then { seg with unlinked := some file }
        else seg }

/-! ## Histories -/

structure Appended where
  location : ChunkLocation
  bytes : List UInt8
  removed : Bool
deriving DecidableEq

inductive Request
  | append (compressed : List UInt8) (fault : Option AppendFault)
  | sync
  | removeSegment (segmentId : ℕ) (fails : Bool)
  | reopen (targetBytes : ℕ)

structure History where
  store : SegmentStore
  appended : List Appended

def History.perform (h : History) : Request → History × Except SegmentError (Option ChunkLocation)
  | .append compressed fault =>
    match h.store.append compressed fault with
    | (store, .error e) => (⟨store, h.appended⟩, .error e)
    | (store, .ok location) =>
      (⟨store, h.appended ++ [⟨location, compressed, false⟩]⟩, .ok (some location))
  | .sync => (h, .ok none)
  | .removeSegment _ true => (h, .error .io)
  | .removeSegment segmentId false =>
    (⟨h.store.removeSegment segmentId, h.appended.map fun e =>
      if e.location.segmentId = segmentId then { e with removed := true } else e⟩, .ok none)
  | .reopen targetBytes => ({ h with store := openWithTarget h.store.dir targetBytes }, .ok none)

def machine : Machine History Request (Except SegmentError (Option ChunkLocation)) where
  call := History.perform

structure History.Valid (h : History) : Prop where
  reads : ∀ e ∈ h.appended, e.removed = false → h.store.read e.location = .ok e.bytes
  apart : h.appended.Pairwise fun e e' => ¬ e.location.Overlaps e'.location

/-- The next append goes to a file that is in the directory; if it starts a segment, that gets a
number which no chunk has been given. -/
def History.HasPlace (h : History) : Prop :=
  (h.store.needsNew = true → (∀ id ∈ h.store.segmentIds, id + 1 < 2 ^ 32) ∧
    ∀ e ∈ h.appended, e.bytes ≠ [] → e.location.segmentId ≠ h.store.nextSegmentId) ∧
  (h.store.needsNew = false → ∀ seg ∈ h.store.writer, seg.unlinked = none)

instance (h : History) : Decidable h.HasPlace := inferInstanceAs (Decidable (_ ∧ _))

def History.Safe (h : History) : Request → Prop
  | .append _ _ => h.HasPlace
  | _ => True

instance (h : History) : ∀ request, Decidable (h.Safe request)
  | .append _ _ => inferInstanceAs (Decidable h.HasPlace)
  | .sync | .removeSegment _ _ | .reopen _ => .isTrue trivial

/-! ## Locations -/

structure History.Kept (h : History) : Prop where
  length : ∀ e ∈ h.appended, e.location.compressedLen = e.bytes.length
  stored : ∀ e ∈ h.appended, e.removed = false → ∃ file,
    h.store.dir.get e.location.segmentId = some file ∧
      readAt file e.location.offset e.bytes.length = some e.bytes
  apart : h.appended.Pairwise fun e e' => ¬ e.location.Overlaps e'.location
  active : ∀ seg ∈ h.store.writer, seg.unlinked = none → ∃ file,
    h.store.dir.get seg.id = some file ∧ seg.writeOffset ≤ file.length ∧
      ∀ e ∈ h.appended, e.bytes ≠ [] → e.location.segmentId = seg.id →
        e.location.offset + e.bytes.length ≤ seg.writeOffset

theorem History.Kept.valid {h : History} (hkept : h.Kept) : h.Valid := by
  refine ⟨fun e he hremoved => ?_, hkept.apart⟩
  obtain ⟨file, hfile, hread⟩ := hkept.stored e he hremoved
  rw [read, hfile, hkept.length e he]
  simp only [hread, Option.elim_some]

section Steps
variable {s : SegmentStore} {appended : List Appended} {seg : ActiveSegment}

theorem dir_get_nextSegmentId (hroom : ∀ id ∈ s.segmentIds, id + 1 < 2 ^ 32) :
    s.dir.get s.nextSegmentId = none := by
  rw [Table.get_eq_none_iff]
  intro e he
  have hid : e.1 ∈ s.segmentIds := mem_map_of_mem he
  obtain ⟨highest, hlast⟩ : ∃ highest, s.segmentIds.getLast? = some highest :=
    Option.isSome_iff_exists.1 (getLast?_isSome.2 (ne_nil_of_mem hid))
  have hsorted : s.segmentIds.Pairwise (· < ·) := pairwise_map.2 s.dir.sorted
  obtain ⟨before, hids⟩ := getLast?_eq_some_iff.1 hlast
  have hle : e.1 ≤ highest := by
    rw [hids] at hid hsorted
    rcases mem_append.1 hid with hid | hid
    · exact ((pairwise_append.1 hsorted).2.2 _ hid highest mem_cons_self).le
    · exact (mem_singleton.1 hid).le
  have hsmall : highest + 1 < 2 ^ 32 := hroom highest (mem_of_getLast? hlast)
  rw [nextSegmentId, hlast, Option.elim_some, Nat.mod_eq_of_lt hsmall]
  omega

theorem Kept.insert_new (h : History.Kept ⟨s, appended⟩) {id : ℕ} (hnew : s.dir.get id = none)
    (file : List UInt8) : History.Kept ⟨{ s with dir := s.dir.insert id file }, appended⟩ where
  length := h.length
  stored e he hremoved := by
    obtain ⟨old, hold, hread⟩ := h.stored e he hremoved
    refine ⟨old, ?_, hread⟩
    rw [Table.get_insert, if_neg, hold]
    rintro hid
    rw [hid, hnew] at hold
    cases hold
  apart := h.apart
  active seg hseg hlinked := by
    obtain ⟨old, hold, hrest⟩ := h.active seg hseg hlinked
    refine ⟨old, ?_, hrest⟩
    rw [Table.get_insert, if_neg, hold]
    rintro hid
    rw [hid, hnew] at hold
    cases hold

theorem Kept.startSegment (h : History.Kept ⟨s, appended⟩)
    (hroom : ∀ id ∈ s.segmentIds, id + 1 < 2 ^ 32)
    (hfresh : ∀ e ∈ appended, e.bytes ≠ [] → e.location.segmentId ≠ s.nextSegmentId)
    (fault : Option AppendFault) :
    History.Kept ⟨(s.startSegment fault).1, appended⟩ ∧
      ∀ seg, (s.startSegment fault).2 = .ok seg →
        (s.startSegment fault).1.writer = some seg ∧ seg.unlinked = none := by
  have hnew := dir_get_nextSegmentId hroom
  have hstarted : History.Kept ⟨{ s with
      dir := s.dir.insert s.nextSegmentId (writeAt [] 0 segmentHeader)
      writer := some ⟨s.nextSegmentId, none, segmentHeaderSize⟩ }, appended⟩ := by
    have hkept := Kept.insert_new h hnew (writeAt [] 0 segmentHeader)
    refine ⟨hkept.length, hkept.stored, hkept.apart, ?_⟩
    rintro seg hseg -
    obtain rfl := Option.mem_some_iff.1 hseg
    have hheader : segmentHeaderSize ≤ (writeAt [] 0 segmentHeader).length := by decide
    refine ⟨writeAt [] 0 segmentHeader, ?_, hheader, fun e he hbytes hid => ?_⟩
    · rw [Table.get_insert, if_pos rfl]
    · exact absurd hid (hfresh e he hbytes)
  simp only [SegmentStore.startSegment, hnew, Option.getD_none]
  match fault with
  | some .start => exact ⟨h, fun _ hseg => nomatch hseg⟩
  | some (.header written) => exact ⟨Kept.insert_new h hnew _, fun _ hseg => nomatch hseg⟩
  | some (.data written) =>
    refine ⟨hstarted, fun seg hseg => ?_⟩
    cases hseg
    exact ⟨rfl, rfl⟩
  | none =>
    refine ⟨hstarted, fun seg hseg => ?_⟩
    cases hseg
    exact ⟨rfl, rfl⟩

theorem Kept.ensureActiveSegment (h : History.Kept ⟨s, appended⟩)
    (hplace : History.HasPlace ⟨s, appended⟩) (fault : Option AppendFault) :
    History.Kept ⟨(s.ensureActiveSegment fault).1, appended⟩ ∧
      ∀ seg, (s.ensureActiveSegment fault).2 = .ok seg →
        (s.ensureActiveSegment fault).1.writer = some seg ∧ seg.unlinked = none := by
  have hstart : s.needsNew = true → History.Kept ⟨(s.startSegment fault).1, appended⟩ ∧
      ∀ seg, (s.startSegment fault).2 = .ok seg →
        (s.startSegment fault).1.writer = some seg ∧ seg.unlinked = none :=
    fun hneeds => Kept.startSegment h (hplace.1 hneeds).1 (hplace.1 hneeds).2 fault
  unfold SegmentStore.ensureActiveSegment
  cases hwriter : s.writer with
  | none => exact hstart (by simp [needsNew, hwriter])
  | some seg =>
    by_cases hneeds : s.needsNew = true
    · simp only [if_pos hneeds]
      exact hstart hneeds
    · simp only [if_neg hneeds]
      refine ⟨h, fun seg' hseg => ?_⟩
      cases hseg
      exact ⟨hwriter, hplace.2 (by simpa using hneeds) seg hwriter⟩

theorem Kept.writeActive (h : History.Kept ⟨s, appended⟩) (hwriter : s.writer = some seg)
    (hlinked : seg.unlinked = none) (data : List UInt8) :
    History.Kept ⟨s.writeActive seg data, appended⟩ := by
  obtain ⟨file, hfile, hoffset, hends⟩ := h.active seg hwriter hlinked
  have hwritten : s.writeActive seg data =
      { s with dir := s.dir.insert seg.id (writeAt file seg.writeOffset data) } := by
    simp only [SegmentStore.writeActive, hlinked, hfile, Option.getD_some]
  rw [hwritten]
  refine ⟨h.length, fun e he hremoved => ?_, h.apart, fun seg' hseg' _ => ?_⟩
  · obtain ⟨old, hold, hread⟩ := h.stored e he hremoved
    by_cases hid : e.location.segmentId = seg.id
    · refine ⟨writeAt file seg.writeOffset data, by rw [Table.get_insert, if_pos hid], ?_⟩
      rw [hid, hfile] at hold
      cases hold
      by_cases hbytes : e.bytes = []
      · simp [hbytes, readAt]
      · exact readAt_writeAt_before (hends e he hbytes hid) hread
    · exact ⟨old, by rw [Table.get_insert, if_neg hid, hold], hread⟩
  · rw [hwriter] at hseg'
    cases hseg'
    refine ⟨writeAt file seg.writeOffset data, by rw [Table.get_insert, if_pos rfl], ?_, hends⟩
    exact hoffset.trans (le_length_writeAt _ _ _)

theorem Kept.appendChunk (h : History.Kept ⟨s, appended⟩) (hwriter : s.writer = some seg)
    (hlinked : seg.unlinked = none) (compressed : List UInt8) :
    History.Kept ⟨(s.writeActive seg compressed).advance compressed.length,
      appended ++ [⟨⟨seg.id, seg.writeOffset, compressed.length⟩, compressed, false⟩]⟩ := by
  have hkept := Kept.writeActive h hwriter hlinked compressed
  obtain ⟨file, hfile, hoffset, hends⟩ := h.active seg hwriter hlinked
  have hwritten : (s.writeActive seg compressed).advance compressed.length =
      { s with
        dir := s.dir.insert seg.id (writeAt file seg.writeOffset compressed)
        writer := some { seg with writeOffset := seg.writeOffset + compressed.length } } := by
    simp only [SegmentStore.writeActive, hlinked, hfile, Option.getD_some, advance, hwriter,
      Option.map_some]
  have hdir : (s.writeActive seg compressed).dir =
      ((s.writeActive seg compressed).advance compressed.length).dir := rfl
  have hnew : ((s.writeActive seg compressed).advance compressed.length).dir.get seg.id =
      some (writeAt file seg.writeOffset compressed) := by
    rw [hwritten, Table.get_insert, if_pos rfl]
  constructor
  · intro e he
    rcases mem_append.1 he with he | he
    · exact h.length e he
    · rw [mem_singleton.1 he]
  · intro e he hremoved
    rcases mem_append.1 he with he | he
    · exact hkept.stored e he hremoved
    · rw [mem_singleton.1 he]
      exact ⟨_, hnew, readAt_writeAt file seg.writeOffset compressed⟩
  · refine pairwise_append.2 ⟨h.apart, pairwise_singleton _ _, fun e he e' he' => ?_⟩
    rw [mem_singleton.1 he']
    rintro ⟨hid, hcommon⟩
    rw [h.length e he, max_lt_iff, lt_min_iff, lt_min_iff] at hcommon
    -- an empty chunk has no byte, and any other ends where the active segment goes on
    by_cases hbytes : e.bytes = []
    · rw [hbytes] at hcommon
      exact absurd hcommon.1.1 (lt_irrefl _)
    · exact absurd hcommon.2.1 (hends e he hbytes hid).not_gt
  · intro seg' hseg' _
    have hseg := hwritten ▸ hseg'
    obtain rfl := Option.mem_some_iff.1 hseg
    refine ⟨_, hnew, add_le_length_writeAt hoffset compressed, fun e he hbytes hid => ?_⟩
    rcases mem_append.1 he with he | he
    · exact (hends e he hbytes hid).trans (Nat.le_add_right _ _)
    · rw [mem_singleton.1 he]

theorem Kept.removeSegment {h : History} (hkept : h.Kept) (segmentId : ℕ) :
    (h.perform (.removeSegment segmentId false)).1.Kept := by
  let mark : Appended → Appended := fun e =>
    if e.location.segmentId = segmentId then { e with removed := true } else e
  have hlocation : ∀ e, (mark e).location = e.location := by
    intro e
    simp only [mark]
    split_ifs <;> rfl
  have hbytes : ∀ e, (mark e).bytes = e.bytes := by
    intro e
    simp only [mark]
    split_ifs <;> rfl
  have hother : ∀ id, id ≠ segmentId →
      (h.store.removeSegment segmentId).dir.get id = h.store.dir.get id := by
    intro id hid
    unfold SegmentStore.removeSegment
    split
    · rfl
    · exact (Table.get_erase ..).trans (if_neg hid)
  -- a writer whose file is still in the directory is not one of the removed segment
  have hwriter : ∀ seg ∈ (h.store.removeSegment segmentId).writer, seg.unlinked = none →
      seg ∈ h.store.writer ∧ seg.id ≠ segmentId := by
    intro seg hseg hlinked
    unfold SegmentStore.removeSegment at hseg
    split at hseg
    · rename_i hnone
      refine ⟨hseg, fun hid => ?_⟩
      obtain ⟨file, hfile, -⟩ := hkept.active seg hseg hlinked
      rw [hid, hnone] at hfile
      cases hfile
    · obtain ⟨old, hold, rfl⟩ := Option.mem_map.1 hseg
      split_ifs at hlinked ⊢ with hremoved
      exact ⟨hold, fun hid => hremoved ⟨hid, hlinked⟩⟩
  show History.Kept ⟨h.store.removeSegment segmentId, h.appended.map mark⟩
  constructor
  · intro e he
    obtain ⟨old, hold, rfl⟩ := mem_map.1 he
    rw [hlocation, hbytes]
    exact hkept.length old hold
  · intro e he hremoved
    obtain ⟨old, hold, rfl⟩ := mem_map.1 he
    have hid : old.location.segmentId ≠ segmentId := by
      intro hid
      simp [mark, hid] at hremoved
    have hsame : mark old = old := if_neg hid
    rw [hsame] at hremoved ⊢
    obtain ⟨file, hfile, hread⟩ := hkept.stored old hold hremoved
    exact ⟨file, (hother _ hid).trans hfile, hread⟩
  · refine pairwise_map.2 (hkept.apart.imp fun {e e'} hapart => ?_)
    rwa [hlocation, hlocation]
  · intro seg hseg hlinked
    obtain ⟨hold, hid⟩ := hwriter seg hseg hlinked
    obtain ⟨file, hfile, hoffset, hends⟩ := hkept.active seg hold hlinked
    refine ⟨file, (hother _ hid).trans hfile, hoffset, fun e he => ?_⟩
    obtain ⟨old, hold, rfl⟩ := mem_map.1 he
    rw [hlocation, hbytes]
    exact hends old hold

theorem Kept.reopen {h : History} (hkept : h.Kept) (targetBytes : ℕ) :
    (h.perform (.reopen targetBytes)).1.Kept :=
  ⟨hkept.length, hkept.stored, hkept.apart, fun _ hseg => nomatch hseg⟩

theorem Kept.append {h : History} (hkept : h.Kept) {compressed : List UInt8}
    {fault : Option AppendFault} (hplace : h.HasPlace) :
    (h.perform (.append compressed fault)).1.Kept := by
  obtain ⟨s, appended⟩ := h
  obtain ⟨hensured, hactive⟩ := Kept.ensureActiveSegment hkept hplace fault
  by_cases hlarge : 2 ^ 32 ≤ compressed.length
  · simp only [History.perform, SegmentStore.append, if_pos hlarge]
    exact hkept
  · simp only [History.perform, SegmentStore.append, if_neg hlarge]
    rcases hensure : s.ensureActiveSegment fault with ⟨t, e | seg⟩
    · rw [hensure] at hensured
      exact hensured
    · rw [hensure] at hensured hactive
      obtain ⟨hwriter, hlinked⟩ := hactive seg rfl
      match fault with
      | some (.data written) => exact Kept.writeActive hensured hwriter hlinked _
      | some .start => exact Kept.appendChunk hensured hwriter hlinked compressed
      | some (.header written) => exact Kept.appendChunk hensured hwriter hlinked compressed
      | none => exact Kept.appendChunk hensured hwriter hlinked compressed

theorem Kept.call (h : History) (request : Request) (hkept : h.Kept) (hsafe : h.Safe request) :
    (machine.call h request).1.Kept := by
  cases request with
  | append compressed fault => exact Kept.append hkept hsafe
  | sync => exact hkept
  | removeSegment segmentId fails =>
    cases fails with
    | true => exact hkept
    | false => exact Kept.removeSegment hkept segmentId
  | reopen targetBytes => exact Kept.reopen hkept targetBytes

end Steps

theorem kept_opened (dir : Table ℕ (List UInt8)) (targetBytes : ℕ) :
    History.Kept ⟨openWithTarget dir targetBytes, []⟩ where
  length _ he := nomatch he
  stored _ he := nomatch he
  apart := .nil
  active _ hseg := nomatch hseg

/-- **Locations stay valid** over every run whose appends go to files in the directory and to
segments with new numbers. -/
theorem locations_stay_valid (dir : Table ℕ (List UInt8)) (targetBytes : ℕ) (run : List Request)
    (hsafe : machine.Meets History.Safe ⟨openWithTarget dir targetBytes, []⟩ run) :
    (machine.final ⟨openWithTarget dir targetBytes, []⟩ run).Valid :=
  (machine.final_invariant Kept.call (kept_opened dir targetBytes) hsafe).valid

def rotatingRun : List Request :=
  [.append [1, 2, 3] none, .append [4, 5] (some (.data 1)), .append [4, 5] none, .sync,
    .removeSegment 0 false, .reopen 17, .append [6] none]

theorem rotatingRun_valid :
    let h := machine.final ⟨openWithTarget .empty 17, []⟩ rotatingRun
    h.appended = [⟨⟨0, 16, 3⟩, [1, 2, 3], true⟩, ⟨⟨1, 16, 2⟩, [4, 5], false⟩,
      ⟨⟨2, 16, 1⟩, [6], false⟩] ∧ h.Valid := by
  refine ⟨by decide +kernel, locations_stay_valid .empty 17 rotatingRun ?_⟩
  decide +kernel

def reusingRun : List Request :=
  [.append [1, 2, 3] none, .removeSegment 0 false, .reopen 17, .append [6] none]

theorem reusingRun_overlaps :
    let h := machine.final ⟨openWithTarget .empty 17, []⟩ reusingRun
    h.appended = [⟨⟨0, 16, 3⟩, [1, 2, 3], true⟩, ⟨⟨0, 16, 1⟩, [6], false⟩] ∧ ¬ h.Valid := by
  intro h
  have happended : h.appended = [⟨⟨0, 16, 3⟩, [1, 2, 3], true⟩, ⟨⟨0, 16, 1⟩, [6], false⟩] := by
    decide +kernel
  refine ⟨happended, fun hvalid => ?_⟩
  have hapart := hvalid.apart
  rw [happended] at hapart
  exact absurd hapart (by decide)

end SegmentStore
end Sentinel.Fs

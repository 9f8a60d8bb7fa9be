import Mathlib.Algebra.Order.BigOperators.Group.List
import Sentinel.Lib.Machine
import Sentinel.Workflow.Authority
import Sentinel.Workflow.ContentDigest

/-! The digest cache (`sentinel-workflow`, module `digest`). Digests that were computed are kept in
shards, each with room for so many entries and bytes; byte digests may push digests of JSON out,
never the other way round. Calls run at the same time: one looks a digest up, computes it outside
the lock when it is missing, and admits it under a second lock, unless another call holds it. -/

namespace Sentinel.Workflow.ContentDigest
open Lib List

inductive DigestEncoding where
  | numericByteArray
  | canonicalJson
deriving DecidableEq

/-- What the build and the process fix: the size of an entry in memory, and the keyed hash of
`RandomState`. -/
class DigestPlatform where
  entrySize : ℕ
  hashOne : DigestEncoding → String → List UInt8 → UInt64

structure ContentDigestEntry where
  fingerprint : UInt64
  encoding : DigestEncoding
  domain : String
  bytes : List UInt8
  digest : String
deriving DecidableEq

structure ContentDigestShard where
  entries : List ContentDigestEntry
  bytes : ℕ

variable [DigestPlatform]

def payloadCost (len : ℕ) : ℕ := len + 64 + DigestPlatform.entrySize

def ContentDigestEntry.cost (entry : ContentDigestEntry) : ℕ := payloadCost entry.bytes.length

def shardCount : ℕ := 8
def shardBytes : ℕ := 4 * 1024 * 1024
def shardEntries : ℕ := 256
def canonicalShardBytes : ℕ := 1024 * 1024
def canonicalShardEntries : ℕ := 32

def DigestEncoding.maxPayload : DigestEncoding → ℕ
  | .numericByteArray => 1024 * 1024
  | .canonicalJson => canonicalShardBytes - payloadCost 0

def totalCost (entries : List ContentDigestEntry) : ℕ := (entries.map (·.cost)).sum

def ofEncoding (encoding : DigestEncoding) (entries : List ContentDigestEntry) :
    List ContentDigestEntry :=
  entries.filter (·.encoding = encoding)

namespace ContentDigestShard
variable (s : ContentDigestShard)

def empty : ContentDigestShard := ⟨[], 0⟩

def lookupEncoded (fingerprint : UInt64) (encoding : DigestEncoding) (domain : String)
    (bytes : List UInt8) : Option String :=
  (s.entries.find? fun entry =>
    entry.fingerprint = fingerprint ∧ entry.encoding = encoding ∧ entry.domain = domain ∧
      entry.bytes.length = bytes.length ∧ entry.bytes = bytes).map (·.digest)

def Crowded (encoding : DigestEncoding) (cost canonicalCount canonicalBytes : ℕ) : Prop :=
  shardEntries ≤ s.entries.length ∨ shardBytes < s.bytes + cost ∨
    encoding = .canonicalJson ∧
      (canonicalShardEntries ≤ canonicalCount ∨ canonicalShardBytes < canonicalBytes + cost)

instance (encoding : DigestEncoding) (cost canonicalCount canonicalBytes : ℕ) :
    Decidable (s.Crowded encoding cost canonicalCount canonicalBytes) :=
  inferInstanceAs (Decidable (_ ∨ _))

/-- The oldest JSON entry goes first; only a byte digest falls back to the oldest entry. -/
def victimIndex (encoding : DigestEncoding) : Option ℕ :=
  match encoding, s.entries.findIdx? (·.encoding = .canonicalJson) with
  | _, some index => some index
  | .numericByteArray, none => some 0
  | .canonicalJson, none => none

omit [DigestPlatform] in
theorem length_eraseIdx_lt {α : Type*} {xs : List α} {i : ℕ} {x : α} (h : xs[i]? = some x) :
    (xs.eraseIdx i).length < xs.length := by
  obtain ⟨hi, -⟩ := List.getElem?_eq_some_iff.1 h
  rw [length_eraseIdx_of_lt hi]
  omega

def makeRoom (encoding : DigestEncoding) (cost : ℕ) (s : ContentDigestShard)
    (canonicalCount canonicalBytes : ℕ) : ContentDigestShard × Bool :=
  if s.Crowded encoding cost canonicalCount canonicalBytes then
    match s.victimIndex encoding with
    | none => (s, false)
    | some index =>
      match _hentry : s.entries[index]? with
      | none => (s, false)
      | some entry =>
        let rest := ⟨s.entries.eraseIdx index, s.bytes - entry.cost⟩
        if entry.encoding = .canonicalJson then
          makeRoom encoding cost rest (canonicalCount - 1) (canonicalBytes - entry.cost)
        else makeRoom encoding cost rest canonicalCount canonicalBytes
  else (s, true)
termination_by s.entries.length
decreasing_by all_goals exact length_eraseIdx_lt _hentry

def admitEntry (entry : ContentDigestEntry) : ContentDigestShard :=
  if (s.lookupEncoded entry.fingerprint entry.encoding entry.domain entry.bytes).isSome then s
  else
    let canonical := ofEncoding .canonicalJson s.entries
    let canonicalCount := canonical.length
    let canonicalBytes := totalCost canonical
    -- JSON may use spare room, but not the room byte digests take
    if entry.encoding = .canonicalJson ∧
        (canonicalShardBytes < entry.cost ∨ shardEntries ≤ s.entries.length - canonicalCount ∨
          shardBytes < s.bytes - canonicalBytes + entry.cost) then s
    else
      let room := makeRoom entry.encoding entry.cost s canonicalCount canonicalBytes
      if room.2 then ⟨room.1.entries ++ [entry], room.1.bytes + entry.cost⟩ else room.1

/-! ### What making room leaves -/

structure Counted (s : ContentDigestShard) (canonicalCount canonicalBytes : ℕ) : Prop where
  total : s.bytes = totalCost s.entries
  count : canonicalCount = (ofEncoding .canonicalJson s.entries).length
  bytes : canonicalBytes = totalCost (ofEncoding .canonicalJson s.entries)

structure Evicted (encoding : DigestEncoding) (cost : ℕ) (s : ContentDigestShard)
    (r : ContentDigestShard × Bool) : Prop where
  sublist : r.1.entries.Sublist s.entries
  total : r.1.bytes = totalCost r.1.entries
  numeric : encoding = .canonicalJson →
    ofEncoding .numericByteArray r.1.entries = ofEncoding .numericByteArray s.entries
  room : r.2 = true → ¬ r.1.Crowded encoding cost (ofEncoding .canonicalJson r.1.entries).length
    (totalCost (ofEncoding .canonicalJson r.1.entries))

omit [DigestPlatform] in
theorem exists_split {entries : List ContentDigestEntry} {i : ℕ} {entry : ContentDigestEntry}
    (h : entries[i]? = some entry) :
    ∃ before after, entries = before ++ entry :: after ∧ entries.eraseIdx i = before ++ after := by
  obtain ⟨hi, rfl⟩ := List.getElem?_eq_some_iff.1 h
  refine ⟨entries.take i, entries.drop (i + 1), ?_, eraseIdx_eq_take_drop_succ ..⟩
  rw [getElem_cons_drop, take_append_drop]

omit [DigestPlatform] in
theorem canonical_of_victim {index : ℕ} {entry : ContentDigestEntry}
    (hvictim : s.victimIndex .canonicalJson = some index)
    (hentry : s.entries[index]? = some entry) : entry.encoding = .canonicalJson := by
  unfold victimIndex at hvictim
  cases hfound : s.entries.findIdx? (·.encoding = .canonicalJson) with
  | none => simp [hfound] at hvictim
  | some found =>
    rw [hfound] at hvictim
    obtain rfl : found = index := Option.some.inj hvictim
    obtain ⟨hlt, hcanonical, -⟩ := findIdx?_eq_some_iff_getElem.1 hfound
    rw [getElem?_eq_getElem hlt] at hentry
    rw [← Option.some.inj hentry]
    exact of_decide_eq_true hcanonical

theorem Counted.erase {s : ContentDigestShard} {count bytes index : ℕ}
    {entry : ContentDigestEntry} (h : s.Counted count bytes)
    (hentry : s.entries[index]? = some entry) :
    (⟨s.entries.eraseIdx index, s.bytes - entry.cost⟩ : ContentDigestShard).Counted
      (if entry.encoding = .canonicalJson then count - 1 else count)
      (if entry.encoding = .canonicalJson then bytes - entry.cost else bytes) := by
  obtain ⟨before, after, hentries, herased⟩ := exists_split hentry
  obtain ⟨htotal, hcount, hbytes⟩ := h
  rw [hentries] at htotal hcount hbytes
  refine ⟨?_, ?_, ?_⟩
  · show s.bytes - entry.cost = totalCost (s.entries.eraseIdx index)
    rw [herased, htotal]
    simp only [totalCost, map_append, map_cons, sum_append, sum_cons]
    omega
  · show _ = (ofEncoding .canonicalJson (s.entries.eraseIdx index)).length
    rw [herased, hcount]
    split_ifs with hcanonical <;> simp [ofEncoding, hcanonical]
  · show _ = totalCost (ofEncoding .canonicalJson (s.entries.eraseIdx index))
    rw [herased, hbytes]
    split_ifs with hcanonical <;> simp [ofEncoding, totalCost, hcanonical]
    omega

theorem evicted_makeRoom (encoding : DigestEncoding) (cost : ℕ) {s : ContentDigestShard}
    {count bytes : ℕ} (h : s.Counted count bytes) :
    Evicted encoding cost s (makeRoom encoding cost s count bytes) := by
  -- a turn that takes an entry out, followed by the rest of the loop
  have step : ∀ (s : ContentDigestShard) (index : ℕ) (entry : ContentDigestEntry)
      (r : ContentDigestShard × Bool), s.victimIndex encoding = some index →
      s.entries[index]? = some entry →
      Evicted encoding cost ⟨s.entries.eraseIdx index, s.bytes - entry.cost⟩ r →
      Evicted encoding cost s r := by
    intro s index entry r hvictim hentry hrest
    refine ⟨hrest.sublist.trans (eraseIdx_sublist ..), hrest.total, ?_, hrest.room⟩
    intro hjson
    subst hjson
    have hcanonical := canonical_of_victim s hvictim hentry
    obtain ⟨before, after, hentries, herased⟩ := exists_split hentry
    rw [hrest.numeric rfl]
    show ofEncoding _ (s.entries.eraseIdx index) = _
    rw [herased, hentries]
    simp [ofEncoding, hcanonical]
  fun_induction makeRoom encoding cost s count bytes with
  | case1 s count bytes hcrowded hvictim =>
    exact ⟨.refl _, h.total, fun _ => rfl, fun hroom => absurd hroom Bool.false_ne_true⟩
  | case2 s count bytes hcrowded index hvictim hnone =>
    exact ⟨.refl _, h.total, fun _ => rfl, fun hroom => absurd hroom Bool.false_ne_true⟩
  | case3 s count bytes hcrowded index hvictim entry hentry rest hcanonical ih =>
    have hrest := h.erase hentry
    rw [if_pos hcanonical, if_pos hcanonical] at hrest
    exact step s index entry _ hvictim hentry (ih hrest)
  | case4 s count bytes hcrowded index hvictim entry hentry rest hcanonical ih =>
    have hrest := h.erase hentry
    rw [if_neg hcanonical, if_neg hcanonical] at hrest
    exact step s index entry _ hvictim hentry (ih hrest)
  | case5 s count bytes hcrowded =>
    refine ⟨.refl _, h.total, fun _ => rfl, fun _ => ?_⟩
    rw [← h.count, ← h.bytes]
    exact hcrowded

/-! ### Limits -/

structure WithinLimits (s : ContentDigestShard) : Prop where
  total : s.bytes = totalCost s.entries
  bytes : s.bytes ≤ shardBytes
  entries : s.entries.length ≤ shardEntries
  canonicalBytes : totalCost (ofEncoding .canonicalJson s.entries) ≤ canonicalShardBytes
  canonicalEntries : (ofEncoding .canonicalJson s.entries).length ≤ canonicalShardEntries

theorem totalCost_le {old new : List ContentDigestEntry} (h : new.Sublist old) :
    totalCost new ≤ totalCost old :=
  (h.map _).sum_le_sum fun _ _ => Nat.zero_le _

theorem WithinLimits.counted {s : ContentDigestShard} (h : s.WithinLimits) :
    s.Counted (ofEncoding .canonicalJson s.entries).length
      (totalCost (ofEncoding .canonicalJson s.entries)) :=
  ⟨h.total, rfl, rfl⟩

theorem WithinLimits.evicted {s : ContentDigestShard} (h : s.WithinLimits)
    {encoding : DigestEncoding} {cost : ℕ} {r : ContentDigestShard × Bool}
    (hr : Evicted encoding cost s r) : r.1.WithinLimits where
  total := hr.total
  bytes := by
    rw [hr.total]
    exact (totalCost_le hr.sublist).trans (h.total ▸ h.bytes)
  entries := hr.sublist.length_le.trans h.entries
  canonicalBytes := (totalCost_le (hr.sublist.filter _)).trans h.canonicalBytes
  canonicalEntries := (hr.sublist.filter _).length_le.trans h.canonicalEntries

theorem admitEntry_cases {s : ContentDigestShard} (h : s.WithinLimits)
    (entry : ContentDigestEntry) :
    s.admitEntry entry = s ∨ ∃ r, Evicted entry.encoding entry.cost s r ∧
      (s.admitEntry entry = r.1 ∨
        r.2 = true ∧ s.admitEntry entry = ⟨r.1.entries ++ [entry], r.1.bytes + entry.cost⟩) := by
  have hevicted := evicted_makeRoom entry.encoding entry.cost h.counted
  simp only [ContentDigestShard.admitEntry]
  split_ifs with hhit hrefused hroom
  · exact .inl rfl
  · exact .inl rfl
  · exact .inr ⟨_, hevicted, .inr ⟨hroom, rfl⟩⟩
  · exact .inr ⟨_, hevicted, .inl rfl⟩

theorem WithinLimits.admitEntry {s : ContentDigestShard} (h : s.WithinLimits)
    (entry : ContentDigestEntry) : (s.admitEntry entry).WithinLimits := by
  rcases admitEntry_cases h entry with hsame | ⟨r, hevicted, hleft | ⟨hroom, hadded⟩⟩
  · rwa [hsame]
  · rw [hleft]
    exact h.evicted hevicted
  rw [hadded]
  have hlimits := h.evicted hevicted
  have hnot := hevicted.room hroom
  unfold Crowded at hnot
  rw [not_or, not_or, not_and, not_or] at hnot
  obtain ⟨hentries, hbytes, hcanonical⟩ := hnot
  refine ⟨?_, not_lt.1 hbytes, ?_, ?_, ?_⟩
  · simp [hlimits.total, totalCost]
  · simpa using Nat.succ_le_of_lt (not_le.1 hentries)
  · by_cases hjson : entry.encoding = .canonicalJson
    · have hle := not_lt.1 (hcanonical hjson).2
      simpa [ofEncoding, totalCost, hjson] using hle
    · simpa [ofEncoding, hjson] using hlimits.canonicalBytes
  · by_cases hjson : entry.encoding = .canonicalJson
    · have hlt := Nat.succ_le_of_lt (not_le.1 (hcanonical hjson).1)
      simpa [ofEncoding, hjson] using hlt
    · simpa [ofEncoding, hjson] using hlimits.canonicalEntries

theorem mem_admitEntry {s : ContentDigestShard} (h : s.WithinLimits)
    {entry old : ContentDigestEntry} (hmem : old ∈ (s.admitEntry entry).entries) :
    old ∈ s.entries ∨ old = entry := by
  rcases admitEntry_cases h entry with hsame | ⟨r, hevicted, hleft | ⟨-, hadded⟩⟩
  · exact .inl (hsame ▸ hmem)
  · rw [hleft] at hmem
    exact .inl (hevicted.sublist.subset hmem)
  · rw [hadded] at hmem
    rcases mem_append.1 hmem with hmem | hmem
    · exact .inl (hevicted.sublist.subset hmem)
    · exact .inr (mem_singleton.1 hmem)

theorem withinLimits_foldl (admissions : List ContentDigestEntry) :
    (admissions.foldl admitEntry empty).WithinLimits := by
  have hempty : empty.WithinLimits :=
    ⟨rfl, Nat.zero_le _, Nat.zero_le _, Nat.zero_le _, Nat.zero_le _⟩
  generalize empty = s at hempty
  induction admissions generalizing s with
  | nil => exact hempty
  | cons entry rest ih => exact ih _ (hempty.admitEntry entry)

theorem numeric_admitEntry {s : ContentDigestShard} (h : s.WithinLimits)
    {entry : ContentDigestEntry} (hjson : entry.encoding = .canonicalJson) :
    ofEncoding .numericByteArray (s.admitEntry entry).entries =
      ofEncoding .numericByteArray s.entries := by
  rcases admitEntry_cases h entry with hsame | ⟨r, hevicted, hleft | ⟨-, hadded⟩⟩
  · rw [hsame]
  · rw [hleft]
    exact hevicted.numeric hjson
  · rw [hadded, ← hevicted.numeric hjson]
    simp [ofEncoding, hjson]

end ContentDigestShard

variable [Sha256]

/-! ### The cache -/

structure ContentDigestCache where
  shards : Fin shardCount → ContentDigestShard
  inFlight : List ContentDigestEntry

def computeEncoded (encoding : DigestEncoding) (domain : String) (bytes : List UInt8) : String :=
  match encoding with
  | .numericByteArray => uncachedBytesSha256 domain bytes
  | .canonicalJson => ((DigestWriter.new domain).append bytes).finish

def DigestEncoding.text (encoding : DigestEncoding) (bytes : List UInt8) : List UInt8 :=
  match encoding with
  | .numericByteArray => jsonNumbers bytes
  | .canonicalJson => bytes

omit [DigestPlatform] in
theorem computeEncoded_eq (encoding : DigestEncoding) (domain : String) (bytes : List UInt8) :
    computeEncoded encoding domain bytes = domainSha256 domain (encoding.text bytes) := by
  cases encoding with
  | numericByteArray => exact uncachedBytesSha256_eq domain bytes
  | canonicalJson => exact finish_append domain bytes

namespace ContentDigestCache
variable (c : ContentDigestCache)

def empty : ContentDigestCache := ⟨fun _ => .empty, []⟩

def shardOf (fingerprint : UInt64) : Fin shardCount :=
  ⟨fingerprint.toNat % shardCount, Nat.mod_lt _ (by decide)⟩

/-- `digest_encoded_at` up to its second lock: the digest, whether it was found, and what is then
to be admitted. `locked` tells whether the first lock was free. -/
def digestEncodedAt (fingerprint : UInt64) (encoding : DigestEncoding) (domain : String)
    (bytes : List UInt8) (locked : Bool) : (String × Bool) × Option ContentDigestEntry :=
  if encoding.maxPayload < bytes.length then ((computeEncoded encoding domain bytes, false), none)
  else
    let found :=
      if locked then
        (c.shards (shardOf fingerprint)).lookupEncoded fingerprint encoding domain bytes
      else none
    match found with
    | some digest => ((digest, true), none)
    | none =>
      let digest := computeEncoded encoding domain bytes
      ((digest, false), some ⟨fingerprint, encoding, domain, bytes, digest⟩)

def digestEncoded (encoding : DigestEncoding) (domain : String) (bytes : List UInt8)
    (locked : Bool) : (String × Bool) × Option ContentDigestEntry :=
  if encoding.maxPayload < bytes.length then ((computeEncoded encoding domain bytes, false), none)
  else
    c.digestEncodedAt (DigestPlatform.hashOne encoding domain bytes) encoding domain bytes locked

def settle (entry : ContentDigestEntry) (locked : Bool) : ContentDigestCache :=
  if entry ∈ c.inFlight then
    let shard := shardOf entry.fingerprint
    { shards := if locked then Function.update c.shards shard ((c.shards shard).admitEntry entry)
        else c.shards
      inFlight := c.inFlight.erase entry }
  else c

end ContentDigestCache

/-! ### The writer of canonical digests -/

structure CanonicalDigestWriter where
  domain : String
  buffered : List UInt8
  capacity : ℕ
  streaming : Option DigestWriter

inductive WriterCall where
  | write (bytes : List UInt8) (tryReserveExact : ℕ → Option ℕ)
  | flush

def WriterCall.bytes : WriterCall → List UInt8
  | .write bytes _ => bytes
  | .flush => []

namespace CanonicalDigestWriter
variable (w : CanonicalDigestWriter)

def new (domain : String) : CanonicalDigestWriter := ⟨domain, [], 0, none⟩

def startStreaming (bytes : List UInt8) : CanonicalDigestWriter :=
  { w with
    buffered := []
    capacity := 0
    streaming := some (((DigestWriter.new w.domain).append w.buffered).append bytes) }

def write (bytes : List UInt8) (tryReserveExact : ℕ → Option ℕ) : CanonicalDigestWriter :=
  match w.streaming with
  | some writer => { w with streaming := some (writer.append bytes) }
  | none =>
    let required := w.buffered.length + bytes.length
    let max := DigestEncoding.canonicalJson.maxPayload
    if required ≤ max then
      if required ≤ w.capacity then { w with buffered := w.buffered ++ bytes }
      else
        let capacity := min (Nat.nextPowerOfTwo (Nat.max required digestBufferBytes)) max
        match tryReserveExact (capacity - w.buffered.length) with
        | some capacity => { w with buffered := w.buffered ++ bytes, capacity }
        | none => w.startStreaming bytes
    else w.startStreaming bytes

def perform : WriterCall → CanonicalDigestWriter
  | .write bytes tryReserveExact => w.write bytes tryReserveExact
  | .flush => { w with streaming := w.streaming.map (·.flush) }

def finish (cache : ContentDigestCache) (locked : Bool) : String × Option ContentDigestEntry :=
  match w.streaming with
  | some writer => (writer.finish, none)
  | none =>
    let found := cache.digestEncoded .canonicalJson w.domain w.buffered locked
    (found.1.1, found.2)

structure Holds (w : CanonicalDigestWriter) (domain : String) (bytes : List UInt8) : Prop where
  sameDomain : w.domain = domain
  buffered : w.streaming = none → w.buffered = bytes
  streaming : ∀ writer, w.streaming = some writer →
    writer.contents = utf8Bytes domain ++ [0] ++ bytes

variable {domain : String} {held : List UInt8}

omit [DigestPlatform] [Sha256] in
theorem Holds.startStreaming {w : CanonicalDigestWriter} (h : w.Holds domain held)
    (hnone : w.streaming = none) (bytes : List UInt8) :
    (w.startStreaming bytes).Holds domain (held ++ bytes) := by
  refine ⟨h.sameDomain, fun hstreaming => absurd hstreaming (Option.some_ne_none _), ?_⟩
  intro writer hwriter
  rw [← Option.some.inj hwriter, h.buffered hnone, h.sameDomain]
  simp [append_assoc]

omit [Sha256] in
theorem Holds.write {w : CanonicalDigestWriter} (h : w.Holds domain held) (bytes : List UInt8)
    (tryReserveExact : ℕ → Option ℕ) :
    (w.write bytes tryReserveExact).Holds domain (held ++ bytes) := by
  unfold CanonicalDigestWriter.write
  cases hstreaming : w.streaming with
  | some writer =>
    refine ⟨h.sameDomain, fun hnone => absurd hnone (Option.some_ne_none _), ?_⟩
    intro writer' hwriter
    rw [← Option.some.inj hwriter, DigestWriter.contents_append, h.streaming writer hstreaming,
      append_assoc]
  | none =>
    have hbuffered : ∀ capacity,
        Holds { w with buffered := w.buffered ++ bytes, capacity, streaming := none } domain
          (held ++ bytes) := by
      intro capacity
      refine ⟨h.sameDomain, fun _ => ?_, fun _ hwriter => ?_⟩
      · rw [← h.buffered hstreaming]
      · exact absurd hwriter.symm (Option.some_ne_none _)
    have hstream := h.startStreaming hstreaming bytes
    dsimp only
    split_ifs
    · simpa [hstreaming] using hbuffered w.capacity
    · split
      · simpa [hstreaming] using hbuffered _
      · exact hstream
    · exact hstream

omit [Sha256] in
theorem Holds.perform {w : CanonicalDigestWriter} (h : w.Holds domain held) (call : WriterCall) :
    (w.perform call).Holds domain (held ++ call.bytes) := by
  cases call with
  | write bytes tryReserveExact => exact h.write bytes tryReserveExact
  | flush =>
    refine ⟨h.sameDomain, fun hnone => ?_, fun writer hwriter => ?_⟩
    · rw [WriterCall.bytes, append_nil]
      exact h.buffered (Option.map_eq_none_iff.1 hnone)
    · obtain ⟨old, hold, rfl⟩ := Option.map_eq_some_iff.1 hwriter
      rw [DigestWriter.contents_flush, h.streaming old hold, WriterCall.bytes, append_nil]

omit [Sha256] in
theorem holds_foldl (domain : String) (writes : List WriterCall) :
    (writes.foldl perform (new domain)).Holds domain (writes.flatMap WriterCall.bytes) := by
  induction writes using List.reverseRecOn with
  | nil =>
    exact ⟨rfl, fun _ => rfl, fun _ hwriter => absurd hwriter.symm (Option.some_ne_none _)⟩
  | append_singleton writes call ih =>
    rw [foldl_append, flatMap_append, flatMap_singleton]
    exact ih.perform call

end CanonicalDigestWriter

/-! ### Digest calls -/

/-- `canonical_sha256` of a value that the serializer writes with these calls, to the end or until
it fails. -/
def canonicalSha256 (cache : ContentDigestCache) (domain : String) (writes : List WriterCall)
    (complete locked : Bool) : Except WorkflowError String × Option ContentDigestEntry :=
  let writer := writes.foldl CanonicalDigestWriter.perform (.new domain)
  if complete then
    let finished := writer.finish cache locked
    (.ok finished.1, finished.2)
  else (.error ⟨.invalidInput, false, "canonical workflow serialization failed"⟩, none)

/-- `canonical_bytes_sha256`; the payload bound of `digest` is that of the encoding. -/
def canonicalBytesSha256 (cache : ContentDigestCache) (domain : String) (bytes : List UInt8)
    (locked : Bool) : String × Option ContentDigestEntry :=
  let found := cache.digestEncoded .numericByteArray domain bytes locked
  (found.1.1, found.2)

variable {Value : Type} (json : Value → Option (List UInt8))

/-- One way `serde_json` writes a value: any cutting of its JSON text into writes. -/
structure Serialization (value : Value) where
  writes : List WriterCall
  complete : Bool
  spec : json value = if complete then some (writes.flatMap WriterCall.bytes) else none

inductive DigestCall where
  | canonical (domain : String) (value : Value) (s : Serialization json value) (locked : Bool)
  | bytes (domain : String) (bytes : List UInt8) (locked : Bool)
  | settle (entry : ContentDigestEntry) (locked : Bool)

def machine : Machine ContentDigestCache (DigestCall json)
    (Option (Except WorkflowError String)) where
  call c
    | .canonical domain _ s locked =>
      let r := canonicalSha256 c domain s.writes s.complete locked
      ({ c with inFlight := c.inFlight ++ r.2.toList }, some r.1)
    | .bytes domain bytes locked =>
      let r := canonicalBytesSha256 c domain bytes locked
      ({ c with inFlight := c.inFlight ++ r.2.toList }, some (.ok r.1))
    | .settle entry locked => (c.settle entry locked, none)

def plainAnswer : DigestCall json → Option (Except WorkflowError String)
  | .canonical domain value _ _ =>
    match json value with
    | some text => some (.ok (domainSha256 domain text))
    | none => some (.error ⟨.invalidInput, false, "canonical workflow serialization failed"⟩)
  | .bytes domain bytes _ => some (.ok (domainSha256 domain (jsonNumbers bytes)))
  | .settle .. => none

/-! ### Transparency -/

def Honest (entry : ContentDigestEntry) : Prop :=
  entry.digest = computeEncoded entry.encoding entry.domain entry.bytes

structure Sound (c : ContentDigestCache) : Prop where
  limits : ∀ i, (c.shards i).WithinLimits
  shards : ∀ i, ∀ entry ∈ (c.shards i).entries, Honest entry
  inFlight : ∀ entry ∈ c.inFlight, Honest entry

theorem sound_empty : Sound .empty where
  limits _ := ContentDigestShard.withinLimits_foldl []
  shards _ _ hmem := absurd hmem not_mem_nil
  inFlight _ hmem := absurd hmem not_mem_nil

variable {c : ContentDigestCache}

theorem Sound.settle (h : Sound c) (entry : ContentDigestEntry) (locked : Bool) :
    Sound (c.settle entry locked) := by
  unfold ContentDigestCache.settle
  split_ifs with hmem hlocked
  · have hentry := h.inFlight entry hmem
    refine ⟨fun i => ?_, fun i old hold => ?_, fun old hold => ?_⟩
    · by_cases hi : i = ContentDigestCache.shardOf entry.fingerprint
      · subst hi
        simp only [Function.update_self]
        exact (h.limits _).admitEntry entry
      · simp only [Function.update_of_ne hi]
        exact h.limits i
    · by_cases hi : i = ContentDigestCache.shardOf entry.fingerprint
      · subst hi
        simp only [Function.update_self] at hold
        rcases ContentDigestShard.mem_admitEntry (h.limits _) hold with hold | rfl
        · exact h.shards _ old hold
        · exact hentry
      · simp only [Function.update_of_ne hi] at hold
        exact h.shards i old hold
    · exact h.inFlight old (mem_of_mem_erase hold)
  · exact ⟨h.limits, h.shards, fun old hold => h.inFlight old (mem_of_mem_erase hold)⟩
  · exact h

theorem Sound.add (h : Sound c) {added : Option ContentDigestEntry}
    (hadded : ∀ entry ∈ added, Honest entry) :
    Sound { c with inFlight := c.inFlight ++ added.toList } := by
  refine ⟨h.limits, h.shards, fun entry hmem => ?_⟩
  rcases mem_append.1 hmem with hmem | hmem
  · exact h.inFlight entry hmem
  · exact hadded entry (Option.mem_toList.1 hmem)

theorem Sound.lookup (h : Sound c) {i : Fin shardCount} {fingerprint : UInt64}
    {encoding : DigestEncoding} {domain : String} {bytes : List UInt8} {digest : String}
    (hfound : (c.shards i).lookupEncoded fingerprint encoding domain bytes = some digest) :
    digest = computeEncoded encoding domain bytes := by
  obtain ⟨entry, hentry, rfl⟩ := Option.map_eq_some_iff.1 hfound
  have hhonest := h.shards i entry (mem_of_find?_eq_some hentry)
  have hmatch := find?_some hentry
  rw [decide_eq_true_eq] at hmatch
  obtain ⟨-, rfl, rfl, -, rfl⟩ := hmatch
  exact hhonest

theorem Sound.digestEncoded (h : Sound c) (encoding : DigestEncoding) (domain : String)
    (bytes : List UInt8) (locked : Bool) :
    (c.digestEncoded encoding domain bytes locked).1.1 = computeEncoded encoding domain bytes ∧
      ∀ entry ∈ (c.digestEncoded encoding domain bytes locked).2, Honest entry := by
  have hnone : ∀ entry ∈ (none : Option ContentDigestEntry), Honest entry :=
    fun _ hmem => absurd hmem (Option.not_mem_none _)
  unfold ContentDigestCache.digestEncoded ContentDigestCache.digestEncodedAt
  split_ifs with hlarge hlocked
  · exact ⟨rfl, hnone⟩
  · dsimp only
    split
    next digest hfound => exact ⟨h.lookup hfound, hnone⟩
    next => exact ⟨rfl, fun entry hentry => Option.some.inj hentry ▸ rfl⟩
  · exact ⟨rfl, fun entry hentry => Option.some.inj hentry ▸ rfl⟩

theorem Sound.canonicalSha256 {c : ContentDigestCache} (h : Sound c) (domain : String)
    {value : Value} (s : Serialization json value) (locked : Bool) :
    some (canonicalSha256 c domain s.writes s.complete locked).1 =
        plainAnswer json (.canonical domain value s locked) ∧
      ∀ entry ∈ (canonicalSha256 c domain s.writes s.complete locked).2, Honest entry := by
  have hholds := CanonicalDigestWriter.holds_foldl domain s.writes
  have hspec := s.spec
  simp only [ContentDigest.canonicalSha256, plainAnswer]
  cases hcomplete : s.complete with
  | false =>
    simp only [hcomplete, Bool.false_eq_true, if_false] at hspec ⊢
    simp [hspec]
  | true =>
    simp only [hcomplete, if_true] at hspec ⊢
    generalize s.writes.foldl CanonicalDigestWriter.perform (.new domain) = writer at hholds
    simp only [hspec, CanonicalDigestWriter.finish]
    cases hstreaming : writer.streaming with
    | some stream =>
      have hcontents := hholds.streaming stream hstreaming
      simp [DigestWriter.finish, hcontents, domainSha256]
    | none =>
      rw [hholds.sameDomain, hholds.buffered hstreaming]
      obtain ⟨hdigest, hadmits⟩ := h.digestEncoded .canonicalJson domain
        (s.writes.flatMap WriterCall.bytes) locked
      rw [computeEncoded_eq] at hdigest
      exact ⟨by rw [hdigest]; rfl, hadmits⟩

theorem Sound.call {c : ContentDigestCache} (h : Sound c) (call : DigestCall json) :
    ((machine json).call c call).2 = plainAnswer json call ∧
      Sound ((machine json).call c call).1 := by
  cases call with
  | canonical domain value s locked =>
    obtain ⟨hanswer, hadmits⟩ := h.canonicalSha256 json domain s locked
    exact ⟨hanswer, h.add hadmits⟩
  | bytes domain bytes locked =>
    obtain ⟨hdigest, hadmits⟩ := h.digestEncoded .numericByteArray domain bytes locked
    rw [computeEncoded_eq] at hdigest
    exact ⟨congrArg (some ∘ Except.ok) hdigest, h.add hadmits⟩
  | settle entry locked => exact ⟨rfl, h.settle entry locked⟩

theorem Sound.run (calls : List (DigestCall json)) :
    Sound ((machine json).final .empty calls) ∧
      ∀ x ∈ (machine json).trace .empty calls, x.2 = plainAnswer json x.1 := by
  have hrun := (machine json).final_trace
    (I := fun past c => Sound c ∧ ∀ x ∈ past, x.2 = plainAnswer json x.1) ?_
    ⟨sound_empty, fun _ hmem => absurd hmem not_mem_nil⟩ calls
  · exact hrun
  · rintro past c call ⟨hsound, hpast⟩
    obtain ⟨hanswer, hnext⟩ := hsound.call json call
    refine ⟨hnext, fun x hx => ?_⟩
    rcases mem_append.1 hx with hx | hx
    · exact hpast x hx
    · rw [mem_singleton.1 hx]
      exact hanswer

/-- **Digest cache.** In every run, whatever the values, the cutting of their texts, the allocator
and the locks, a canonical digest is SHA-256 of the domain, a zero byte and the JSON text, and a
byte digest is that of the bytes as a JSON array of numbers. After any admissions a shard's byte
total is the cost of its entries, all limits are kept, and an admission of JSON leaves the byte
digests as they were. -/
theorem digest_cache_transparent {Value : Type} (json : Value → Option (List UInt8)) :
    (∀ calls, ∀ x ∈ (machine json).trace .empty calls, x.2 = plainAnswer json x.1) ∧
    ∀ admissions : List ContentDigestEntry,
      let s := admissions.foldl ContentDigestShard.admitEntry .empty
      s.WithinLimits ∧ ∀ entry : ContentDigestEntry, entry.encoding = .canonicalJson →
        ofEncoding .numericByteArray (s.admitEntry entry).entries =
          ofEncoding .numericByteArray s.entries := by
  refine ⟨fun calls => (Sound.run json calls).2, fun admissions => ?_⟩
  have hlimits := ContentDigestShard.withinLimits_foldl admissions
  exact ⟨hlimits, fun entry hjson => ContentDigestShard.numeric_admitEntry hlimits hjson⟩

end Sentinel.Workflow.ContentDigest

import Sentinel.EventStore.SnapshotCodec

/-! Decoding a world snapshot, encoding it again and decoding that. The encoder keeps the schema
version of the snapshot while it changes the layout, and the decoder takes the newest layout only
under its own schema version; so a snapshot of an older schema does not come back. -/

namespace Sentinel.SnapshotCodec
open Lib Wire Formats

variable {J R E F : Type} (f : Formats J R E F)

def Formats.Reparses (payload : J) : Prop := f.fromSlice (f.toVec payload) = some payload

/-- The bytes carry the newest schema version, and the payloads in them are ones `serde_json`
reads back. -/
def Survives (bytes : List UInt8) : Prop :=
  schemaVersion bytes = some SCHEMA_VERSION ∧
    ∀ s, f.v4.whole bytes = some s → ∀ nano ∈ s.nanoRuntimeSnapshots.toList, ∀ payload,
      f.fromSlice nano.payloadJson = some payload → f.Reparses payload

variable {f} {bytes : List UInt8}

/-! What the decoder answers. -/

theorem decode_of_v4 {x : WorldSnapshotV4 R E F} (hx : f.v4.whole bytes = some x)
    (hversion : x.head.schemaVersion = SCHEMA_VERSION) :
    decodeWorldSnapshot f bytes = WorldSnapshot.ofV4 f x := by
  have hv4 : (f.v4.whole bytes).filter (·.head.schemaVersion = SCHEMA_VERSION) = some x := by
    rw [hx]
    exact Option.filter_eq_some_iff.2 ⟨rfl, decide_eq_true hversion⟩
  rw [decodeWorldSnapshot, hv4]

variable {s : WorldSnapshot J R E F} {version : BitVec 32}

theorem filter_version_eq_none {α : Type} {whole : Option α} {versionOf : α → BitVec 32}
    {wanted : BitVec 32} (h : schemaVersion bytes = some version) (hne : version ≠ wanted)
    (hwhole : ∀ x, whole = some x → schemaVersion bytes = some (versionOf x)) :
    whole.filter (versionOf · = wanted) = none := by
  rw [Option.filter_eq_none_iff]
  intro x hx hversion
  have hsame : version = versionOf x := Option.some_inj.1 (h.symm.trans (hwhole x hx))
  exact hne (hsame.trans (of_decide_eq_true hversion))

theorem v4_refused (h : schemaVersion bytes = some version) (hne : version ≠ SCHEMA_VERSION) :
    (f.v4.whole bytes).filter (·.head.schemaVersion = SCHEMA_VERSION) = none :=
  filter_version_eq_none h hne fun _ hx => schemaVersion_of_v4 (decode_of_whole hx)

theorem v3_refused (h : schemaVersion bytes = some version) (hne : version ≠ 3) :
    (f.v3.whole bytes).filter (·.head.schemaVersion = 3) = none :=
  filter_version_eq_none h hne fun _ hx => schemaVersion_of_v3 (decode_of_whole hx)

theorem decodeWorldSnapshot_eq_ok (h : decodeWorldSnapshot f bytes = .ok s) :
    (∃ x, f.v4.whole bytes = some x ∧ x.head.schemaVersion = SCHEMA_VERSION ∧
        WorldSnapshot.ofV4 f x = .ok s) ∨
      (∃ x, f.v3.whole bytes = some x ∧ x.head.schemaVersion = 3 ∧ s = .ofV3 x) ∨
      (∃ x, f.v2.whole bytes = some x ∧ s = .ofV2 x) ∨
      (∃ x, f.v1.whole bytes = some x ∧ s = .ofV1 x) := by
  unfold decodeWorldSnapshot at h
  split at h
  next x hx =>
    obtain ⟨hwhole, hversion⟩ := Option.filter_eq_some_iff.1 hx
    exact .inl ⟨x, hwhole, of_decide_eq_true hversion, h⟩
  next =>
  split at h
  next x hx =>
    obtain ⟨hwhole, hversion⟩ := Option.filter_eq_some_iff.1 hx
    exact .inr (.inl ⟨x, hwhole, of_decide_eq_true hversion, (Except.ok.inj h).symm⟩)
  next =>
  split at h
  next x hx => exact .inr (.inr (.inl ⟨x, hx, (Except.ok.inj h).symm⟩))
  next =>
  split at h
  next => cases h
  next x hx =>
    have hwhole : f.v1.whole bytes = some x := by rw [whole, hx]
    exact .inr (.inr (.inr ⟨x, hwhole, (Except.ok.inj h).symm⟩))
  next => cases h

theorem ofV4_eq_ok {x : WorldSnapshotV4 R E F} :
    WorldSnapshot.ofV4 f x = .ok s ↔
      mapAll (NanoSnapshot.ofV4 f) x.nanoRuntimeSnapshots.toList =
          .ok s.nanoRuntimeSnapshots.toList ∧
        x.toWorldSnapshotV3 = s.toWorldSnapshotV3 := by
  simp only [WorldSnapshot.ofV4, bind_eq_ok, Except.ok.injEq]
  constructor
  · rintro ⟨nanos, hnanos, rfl⟩
    exact ⟨Vec.mapAll_eq_ok.1 hnanos, rfl⟩
  · rintro ⟨hnanos, hrest⟩
    exact ⟨s.nanoRuntimeSnapshots, Vec.mapAll_eq_ok.2 hnanos, by rw [hrest]⟩

theorem schemaVersion_of_decode (h : decodeWorldSnapshot f bytes = .ok s) :
    schemaVersion bytes = some s.head.schemaVersion := by
  rcases decodeWorldSnapshot_eq_ok h with ⟨x, hx, -, hs⟩ | ⟨x, hx, -, rfl⟩ | ⟨x, hx, rfl⟩ |
    ⟨x, hx, rfl⟩
  · rw [← (ofV4_eq_ok.1 hs).2]
    exact schemaVersion_of_v4 (decode_of_whole hx)
  · exact schemaVersion_of_v3 (decode_of_whole hx)
  · exact schemaVersion_of_v2 (decode_of_whole hx)
  · exact schemaVersion_of_v1 (decode_of_whole hx)

/-! The snapshot encoded again. -/

theorem NanoSnapshot.ofV4_eq_ok {x : NanoSnapshotV4} {nano : NanoSnapshot J} :
    NanoSnapshot.ofV4 f x = .ok nano ↔
      ∃ payload, f.fromSlice x.payloadJson = some payload ∧
        nano = ⟨x.runtimeKey, x.workloadId, x.agentId, x.semantics, payload⟩ := by
  simp only [NanoSnapshot.ofV4, bind_eq_ok, orError_eq_ok, Except.ok.injEq, eq_comm (b := nano)]

theorem NanoSnapshot.ofV4_toV4_eq_ok {nano : NanoSnapshot J} :
    NanoSnapshot.ofV4 f (nano.toV4 f) = .ok nano ↔ f.Reparses nano.payload := by
  rw [NanoSnapshot.ofV4_eq_ok]
  constructor
  · rintro ⟨payload, hpayload, hnano⟩
    have hsame : nano.payload = payload := congrArg NanoSnapshot.payload hnano
    rw [Formats.Reparses, hsame]
    rwa [← hsame] at hpayload ⊢
  · intro h
    exact ⟨nano.payload, h, rfl⟩

theorem schemaVersion_encode (s : WorldSnapshot J R E F) :
    schemaVersion (encodeWorldSnapshot f s) = some s.head.schemaVersion := by
  have hdecode := decode_of_whole (f.v4.whole_encode (s.toV4 f))
  exact schemaVersion_of_v4 hdecode

theorem decode_encode_of_current (hversion : s.head.schemaVersion = SCHEMA_VERSION) :
    decodeWorldSnapshot f (encodeWorldSnapshot f s) = .ok s ↔
      ∀ nano ∈ s.nanoRuntimeSnapshots.toList, f.Reparses nano.payload := by
  have hwhole : f.v4.whole (encodeWorldSnapshot f s) = some (s.toV4 f) := whole_encode _
  rw [decode_of_v4 hwhole hversion, ofV4_eq_ok]
  show mapAll _ (s.nanoRuntimeSnapshots.toList.map (NanoSnapshot.toV4 f)) = _ ∧ _ = _ ↔ _
  rw [mapAll_map_eq_ok_iff]
  simp only [NanoSnapshot.ofV4_toV4_eq_ok]
  exact and_iff_left rfl

theorem encode_of_defaults {ecs : E} (hecs : s.ecs = .ofV2 ecs) :
    ∃ tail, encodeWorldSnapshot f s =
      f.v1.encode ⟨s.head, ecs, .empty⟩ ++ (0 :: (List.replicate 31 0 ++ tail)) := by
  refine ⟨offsets.encode s.projectionOffsets ++
    ((option f.fsMetadata).encode s.fsMetadata ++
      (vec nano).encode (s.toV4 f).nanoRuntimeSnapshots), ?_⟩
  have hzeros : (0 : UInt8) :: List.replicate 31 0 = List.replicate 8 0 ++
      (List.replicate 8 0 ++ (List.replicate 8 0 ++ List.replicate 8 0)) := by decide
  have hfields : f.ecsV3.encode (.ofV2 ecs) =
      f.ecs.encode ecs ++ (List.replicate 8 0 ++ (0 :: List.replicate 31 0)) := by
    rw [hzeros]
    show f.ecs.encode ecs ++ ((vec _).encode .empty ++ ((vec _).encode .empty ++
      ((vec _).encode .empty ++ ((vec _).encode .empty ++
        (vec _).encode .empty)))) = _
    simp only [encode_vec_empty]
  have hv1 : f.v1.encode ⟨s.head, ecs, .empty⟩ =
      f.head.encode s.head ++ (f.ecs.encode ecs ++ List.replicate 8 0) := by
    rw [v1_encode, offsets, encode_vec_empty]
  rw [encodeWorldSnapshot, v4_encode, v3_encode]
  show (f.head.encode s.head ++ (f.ecsV3.encode s.ecs ++ _)) ++ _ = _
  rw [hecs, hfields, hv1]
  simp only [List.append_assoc, List.cons_append]
  rfl

theorem decode_encode_of_legacy (hversion : s.head.schemaVersion ≠ SCHEMA_VERSION) :
    decodeWorldSnapshot f (encodeWorldSnapshot f s) ≠ .ok s := by
  intro h
  have hbytes := schemaVersion_encode (f := f) s
  rcases decodeWorldSnapshot_eq_ok h with ⟨x, hx, hx4, -⟩ | ⟨x, hx, -, -⟩ | ⟨x, hx, hs⟩ |
    ⟨x, hx, hs⟩
  · have hx' := schemaVersion_of_v4 (decode_of_whole hx)
    rw [hbytes, Option.some.injEq] at hx'
    exact hversion (hx'.trans hx4)
  · -- the third layout leaves the number of nano snapshots unread
    have hrest : (vec nano).encode (s.toV4 f).nanoRuntimeSnapshots ≠ [] := by
      intro hnil
      have hread := (vec nano).decode_encode (s.toV4 f).nanoRuntimeSnapshots []
      rw [List.append_nil, hnil, decode_nil_vec] at hread
      cases hread
    have hnone : f.v3.whole (encodeWorldSnapshot f s) = none := whole_encode_append hrest
    rw [hnone] at hx
    cases hx
  · have hecs : s.ecs = .ofV2 x.ecs := by rw [hs]; rfl
    obtain ⟨tail, htail⟩ := encode_of_defaults (f := f) hecs
    have hv2 : encodeWorldSnapshot f s =
        f.v2.encode ⟨⟨s.head, x.ecs, .empty⟩, none⟩ ++ (List.replicate 31 0 ++ tail) := by
      rw [htail, v2_encode, List.append_assoc]
      rfl
    have hnone : f.v2.whole (encodeWorldSnapshot f s) = none := by
      rw [hv2]
      exact whole_encode_append (by simp)
    rw [hnone] at hx
    cases hx
  · have hecs : s.ecs = .ofV2 x.ecs := by rw [hs]; rfl
    obtain ⟨tail, htail⟩ := encode_of_defaults (f := f) hecs
    have hnone : f.v1.whole (encodeWorldSnapshot f s) = none := by
      rw [htail]
      exact whole_encode_append (by simp)
    rw [hnone] at hx
    cases hx

theorem reparses_iff_of_decode (h : decodeWorldSnapshot f bytes = .ok s)
    (hversion : schemaVersion bytes = some SCHEMA_VERSION) :
    (∀ nano ∈ s.nanoRuntimeSnapshots.toList, f.Reparses nano.payload) ↔
      ∀ x, f.v4.whole bytes = some x → ∀ nano ∈ x.nanoRuntimeSnapshots.toList, ∀ payload,
        f.fromSlice nano.payloadJson = some payload → f.Reparses payload := by
  cases hx : f.v4.whole bytes with
  | none =>
    -- an older layout, which has no nano snapshots
    have hempty : s.nanoRuntimeSnapshots = .empty := by
      rcases decodeWorldSnapshot_eq_ok h with ⟨x, hx', -⟩ | ⟨x, -, -, rfl⟩ | ⟨x, -, rfl⟩ |
        ⟨x, -, rfl⟩
      · rw [hx] at hx'
        cases hx'
      · rfl
      · rfl
      · rfl
    rw [hempty]
    simp [Vec.empty]
  | some x =>
    have hx4 : x.head.schemaVersion = SCHEMA_VERSION := by
      have hx' := schemaVersion_of_v4 (decode_of_whole hx)
      rw [hversion, Option.some.injEq] at hx'
      exact hx'.symm
    rw [decode_of_v4 hx hx4] at h
    obtain ⟨hnanos, -⟩ := ofV4_eq_ok.1 h
    simp only [mem_mapAll hnanos, Option.some.injEq, forall_eq', NanoSnapshot.ofV4_eq_ok]
    constructor
    · intro hall nano hnano payload hpayload
      exact hall _ ⟨nano, hnano, payload, hpayload, rfl⟩
    · rintro hall _ ⟨nano, hnano, payload, hpayload, rfl⟩
      exact hall nano hnano payload hpayload

/-! Each layout under its own schema version. -/

theorem decode_v3 {x : WorldSnapshotV3 R E F} (hversion : x.head.schemaVersion = 3) :
    decodeWorldSnapshot f (f.v3.encode x) = .ok (.ofV3 x) := by
  have hwhole := f.v3.whole_encode x
  have hbytes := schemaVersion_of_v3 (decode_of_whole hwhole)
  rw [hversion] at hbytes
  have hv3 : (f.v3.whole (f.v3.encode x)).filter (·.head.schemaVersion = 3) = some x := by
    rw [hwhole]
    exact Option.filter_eq_some_iff.2 ⟨rfl, decide_eq_true hversion⟩
  rw [decodeWorldSnapshot, v4_refused hbytes (by decide), hv3]

theorem decode_v2 {x : WorldSnapshotV2 R E F} (hversion : x.head.schemaVersion = 2) :
    decodeWorldSnapshot f (f.v2.encode x) = .ok (.ofV2 x) := by
  have hwhole := f.v2.whole_encode x
  have hbytes := schemaVersion_of_v2 (decode_of_whole hwhole)
  rw [hversion] at hbytes
  rw [decodeWorldSnapshot, v4_refused hbytes (by decide), v3_refused hbytes (by decide), hwhole]

theorem decode_v1 {x : WorldSnapshotV1 R E} (hversion : x.head.schemaVersion = 1) :
    decodeWorldSnapshot f (f.v1.encode x) = .ok (.ofV1 x) := by
  have hdecode := decode_of_whole (f.v1.whole_encode x)
  have hbytes := schemaVersion_of_v1 hdecode
  rw [hversion] at hbytes
  -- the second layout wants a byte that says whether file system metadata follow
  have hv2 : f.v2.whole (f.v1.encode x) = none := by
    have hpair := pair_whole_encode (a := f.v1) x (decode_nil_option (a := f.fsMetadata))
    unfold whole at hpair ⊢
    unfold v2
    simp only [equiv]
    cases hread : (f.v1.pair (option f.fsMetadata)).decode (f.v1.encode x) with
    | none => rfl
    | some r =>
      rw [hread] at hpair
      obtain ⟨y, rest⟩ := r
      cases rest with
      | nil => cases hpair
      | cons => rfl
  rw [decodeWorldSnapshot, v4_refused hbytes (by decide), v3_refused hbytes (by decide), hv2,
    hdecode]

/-! A small world: the dumps are the lists of their tables, all of them empty, and the payloads
are JSON booleans. -/

abbrev SampleRedb : Type := List.Vector (Vec UInt8) 12

abbrev SampleEcs : Type :=
  List.Vector (Vec UInt8) 13 × BitVec 64 × BitVec 32 × BitVec 32 × List.Vector (Vec UInt8) 2

def booleanText : Bool → Vec UInt8
  | true => ⟨[0x74, 0x72, 0x75, 0x65], by decide⟩
  | false => ⟨[0x66, 0x61, 0x6c, 0x73, 0x65], by decide⟩

def sampleFormats : Formats Bool SampleRedb SampleEcs (Vec UInt8) where
  redb := .array 12 byte.vec
  ecs := (array 13 byte.vec).pair <| (word 8).pair <| (word 4).pair <|
    (word 4).pair (.array 2 byte.vec)
  fsMetadata := byte.vec
  toVec := booleanText
  fromSlice text := [true, false].find? fun b => booleanText b = text

def sampleV1 (version : BitVec 32) : WorldSnapshotV1 SampleRedb SampleEcs where
  head := ⟨⟨"s", by decide⟩, version, 42, 0x41580000, 1234, .hourly, 99, .replicate 12 .empty⟩
  ecs := (.replicate 13 .empty, 42, 0x41580000, 0x3f800000, .replicate 2 .empty)
  projectionOffsets := .empty

def sampleV3 (version : BitVec 32) : WorldSnapshotV3 SampleRedb SampleEcs (Vec UInt8) where
  head := (sampleV1 version).head
  ecs := .ofV2 (sampleV1 version).ecs
  projectionOffsets := .empty
  fsMetadata := none

def sampleSnapshot : WorldSnapshot Bool SampleRedb SampleEcs (Vec UInt8) where
  toWorldSnapshotV3 := sampleV3 4
  nanoRuntimeSnapshots :=
    ⟨[⟨⟨"k", by decide⟩, ⟨"w", by decide⟩, some 3, .ecsWorld, true⟩], by decide⟩

/-- A snapshot of the third schema is decoded, and what it is encoded to is refused. -/
theorem third_schema_refused_again :
    decodeWorldSnapshot sampleFormats (sampleFormats.v3.encode (sampleV3 3)) =
        .ok (.ofV3 (sampleV3 3)) ∧
      (decodeWorldSnapshot sampleFormats
        (encodeWorldSnapshot sampleFormats (.ofV3 (sampleV3 3)))).isOk = false :=
  ⟨decode_v3 rfl, by decide +kernel⟩

variable (f)

/-- What is decoded survives being encoded again exactly where the bytes carry the newest schema
version and the payloads are ones `serde_json` reads back. Each layout under its own schema
version is read as it was written, with the defaults for what it lacks. -/
theorem reencoded_snapshot_survives_iff :
    (∀ bytes s, decodeWorldSnapshot f bytes = .ok s →
      (decodeWorldSnapshot f (encodeWorldSnapshot f s) = .ok s ↔ Survives f bytes)) ∧
    (∀ s : WorldSnapshot J R E F, s.head.schemaVersion = SCHEMA_VERSION →
      (decodeWorldSnapshot f (encodeWorldSnapshot f s) = .ok s ↔
        ∀ nano ∈ s.nanoRuntimeSnapshots.toList, f.Reparses nano.payload)) ∧
    (∀ x : WorldSnapshotV3 R E F, x.head.schemaVersion = 3 →
      decodeWorldSnapshot f (f.v3.encode x) =
        .ok { toWorldSnapshotV3 := x, nanoRuntimeSnapshots := .empty }) ∧
    (∀ x : WorldSnapshotV2 R E F, x.head.schemaVersion = 2 →
      decodeWorldSnapshot f (f.v2.encode x) =
        .ok { head := x.head, ecs := ⟨x.ecs, .empty, .empty, .empty, .empty, .empty⟩,
              projectionOffsets := x.projectionOffsets, fsMetadata := x.fsMetadata,
              nanoRuntimeSnapshots := .empty }) ∧
    (∀ x : WorldSnapshotV1 R E, x.head.schemaVersion = 1 →
      decodeWorldSnapshot f (f.v1.encode x) =
        .ok { head := x.head, ecs := ⟨x.ecs, .empty, .empty, .empty, .empty, .empty⟩,
              projectionOffsets := x.projectionOffsets, fsMetadata := none,
              nanoRuntimeSnapshots := .empty }) := by
  refine ⟨?_, fun s => decode_encode_of_current, fun x => decode_v3, fun x => decode_v2,
    fun x => decode_v1⟩
  intro bytes s h
  have hbytes := schemaVersion_of_decode h
  by_cases hversion : s.head.schemaVersion = SCHEMA_VERSION
  · rw [hversion] at hbytes
    rw [decode_encode_of_current hversion, reparses_iff_of_decode h hbytes, Survives]
    exact (and_iff_right hbytes).symm
  · constructor
    · intro hagain
      exact absurd hagain (decode_encode_of_legacy hversion)
    · rintro ⟨hcurrent, -⟩
      rw [hbytes, Option.some.injEq] at hcurrent
      exact absurd hcurrent hversion

theorem sample_snapshot_survives :
    decodeWorldSnapshot sampleFormats (encodeWorldSnapshot sampleFormats sampleSnapshot) =
        .ok sampleSnapshot ∧
      Survives sampleFormats (encodeWorldSnapshot sampleFormats sampleSnapshot) ∧
      decodeWorldSnapshot sampleFormats (sampleFormats.v3.encode (sampleV3 3)) =
        .ok (.ofV3 (sampleV3 3)) ∧
      decodeWorldSnapshot sampleFormats (sampleFormats.v2.encode ⟨sampleV1 2, none⟩) =
        .ok (.ofV2 ⟨sampleV1 2, none⟩) ∧
      decodeWorldSnapshot sampleFormats (sampleFormats.v1.encode (sampleV1 1)) =
        .ok (.ofV1 (sampleV1 1)) := by
  obtain ⟨hagain, hcurrent, hv3, hv2, hv1⟩ := reencoded_snapshot_survives_iff sampleFormats
  have hpayload : ∀ nano ∈ sampleSnapshot.nanoRuntimeSnapshots.toList,
      sampleFormats.Reparses nano.payload := by
    show ∀ nano ∈ sampleSnapshot.nanoRuntimeSnapshots.toList,
      sampleFormats.fromSlice (sampleFormats.toVec nano.payload) = some nano.payload
    decide +kernel
  have hdecode := (hcurrent sampleSnapshot rfl).2 hpayload
  exact ⟨hdecode, (hagain _ _ hdecode).1 hdecode, hv3 _ rfl, hv2 _ rfl, hv1 _ rfl⟩

end Sentinel.SnapshotCodec

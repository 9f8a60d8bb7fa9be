import Sentinel.Lib.Wire

/-! The world snapshot codec of `sentinel-common` (`snapshot_codec`). Four layouts have been
written over time. The bytes do not say which one they are in, except that every layout starts
with the snapshot id and the schema version; the decoder tries the layouts from the newest on,
and the encoder always writes the newest one. -/

namespace Sentinel.SnapshotCodec
open Lib Wire

inductive SnapshotTier where
  | hourly
  | daily
  | weekly
  | monthly
deriving DecidableEq

inductive NanoSnapshotSemantics where
  | ecsWorld
  | wasmReexecute
  | bwrapConfigFs
  | runtimeMetadata
  | microvmMemory
  | bwrapRecreate
  | wasmBoundState
deriving DecidableEq

def SCHEMA_VERSION : BitVec 32 := 4

/-- The fields with which every layout begins; `R` is `RedbDump` and `simHour` the bits of an
`f32`. -/
structure SnapshotHead (R : Type) where
  snapshotId : Text
  schemaVersion : BitVec 32
  tick : BitVec 64
  simHour : BitVec 32
  timestampMs : BitVec 64
  tier : SnapshotTier
  lastEventId : BitVec 64
  redb : R

/-- `E` is `EcsSnapshotV2`, the fields of the second schema; the third added five. -/
structure EcsSnapshot (E : Type) where
  v2 : E
  autonomyCooldowns : Vec (BitVec 16 × BitVec 64)
  smellsJson : Vec UInt8
  roomChatJson : Vec UInt8
  gaiaJson : Vec UInt8
  broadcastJson : Vec UInt8

def EcsSnapshot.ofV2 {E : Type} (ecs : E) : EcsSnapshot E where
  v2 := ecs
  autonomyCooldowns := .empty
  smellsJson := .empty
  roomChatJson := .empty
  gaiaJson := .empty
  broadcastJson := .empty

structure WorldSnapshotV1 (R E : Type) where
  head : SnapshotHead R
  ecs : E
  projectionOffsets : Vec (Text × BitVec 64)

/-- `F` is `FsMetadataDump`. -/
structure WorldSnapshotV2 (R E F : Type) extends WorldSnapshotV1 R E where
  fsMetadata : Option F

structure WorldSnapshotV3 (R E F : Type) where
  head : SnapshotHead R
  ecs : EcsSnapshot E
  projectionOffsets : Vec (Text × BitVec 64)
  fsMetadata : Option F

structure NanoSnapshotV4 where
  runtimeKey : Text
  workloadId : Text
  agentId : Option (BitVec 16)
  semantics : NanoSnapshotSemantics
  payloadJson : Vec UInt8

structure WorldSnapshotV4 (R E F : Type) extends WorldSnapshotV3 R E F where
  nanoRuntimeSnapshots : Vec NanoSnapshotV4

/-- `J` is `serde_json::Value`. -/
structure NanoSnapshot (J : Type) where
  runtimeKey : Text
  workloadId : Text
  agentId : Option (BitVec 16)
  semantics : NanoSnapshotSemantics
  payload : J

structure WorldSnapshot (J R E F : Type) extends WorldSnapshotV3 R E F where
  nanoRuntimeSnapshots : Vec (NanoSnapshot J)

/-- The formats the codec is built from: `bincode` for the three dumps it only passes on, and
`serde_json` for the payloads. Nothing is assumed of `serde_json`. -/
structure Formats (J R E F : Type) where
  redb : Wire R
  ecs : Wire E
  fsMetadata : Wire F
  toVec : J → Vec UInt8
  fromSlice : Vec UInt8 → Option J

variable {J R E F : Type} (f : Formats J R E F)

namespace Formats

def tier : Wire SnapshotTier :=
  .variant [.hourly, .daily, .weekly, .monthly] (by intro t; cases t <;> decide) (by decide)

def semantics : Wire NanoSnapshotSemantics :=
  .variant [.ecsWorld, .wasmReexecute, .bwrapConfigFs, .runtimeMetadata, .microvmMemory,
    .bwrapRecreate, .wasmBoundState] (by intro s; cases s <;> decide) (by decide)

def head : Wire (SnapshotHead R) :=
  (text.pair <| (word 4).pair <| (word 8).pair <| (word 4).pair <|
    (word 8).pair <| tier.pair <| (word 8).pair f.redb).equiv
  { toFun := fun (id, version, tick, hour, ms, tier, last, redb) =>
      ⟨id, version, tick, hour, ms, tier, last, redb⟩
    invFun := fun h => (h.snapshotId, h.schemaVersion, h.tick, h.simHour, h.timestampMs, h.tier,
      h.lastEventId, h.redb)
    left_inv := fun _ => rfl
    right_inv := fun _ => rfl }

def offsets : Wire (Vec (Text × BitVec 64)) := .vec (text.pair (word 8))

def ecsV3 : Wire (EcsSnapshot E) :=
  (f.ecs.pair <| (vec ((word 2).pair (word 8))).pair <| byte.vec.pair <|
    byte.vec.pair <| byte.vec.pair byte.vec).equiv
  { toFun := fun (v2, cooldowns, smells, chat, gaia, broadcast) =>
      ⟨v2, cooldowns, smells, chat, gaia, broadcast⟩
    invFun := fun e => (e.v2, e.autonomyCooldowns, e.smellsJson, e.roomChatJson, e.gaiaJson,
      e.broadcastJson)
    left_inv := fun _ => rfl
    right_inv := fun _ => rfl }

def nano : Wire NanoSnapshotV4 :=
  (text.pair <| text.pair <| (option (word 2)).pair <|
    semantics.pair byte.vec).equiv
  { toFun := fun (key, workload, agent, semantics, payload) =>
      ⟨key, workload, agent, semantics, payload⟩
    invFun := fun n => (n.runtimeKey, n.workloadId, n.agentId, n.semantics, n.payloadJson)
    left_inv := fun _ => rfl
    right_inv := fun _ => rfl }

def v1 : Wire (WorldSnapshotV1 R E) :=
  (f.head.pair (f.ecs.pair offsets)).equiv
  { toFun := fun (head, ecs, offsets) => ⟨head, ecs, offsets⟩
    invFun := fun s => (s.head, s.ecs, s.projectionOffsets)
    left_inv := fun _ => rfl
    right_inv := fun _ => rfl }

def v2 : Wire (WorldSnapshotV2 R E F) :=
  (f.v1.pair (.option f.fsMetadata)).equiv
  { toFun := fun (s, fs) => ⟨s, fs⟩
    invFun := fun s => (s.toWorldSnapshotV1, s.fsMetadata)
    left_inv := fun _ => rfl
    right_inv := fun _ => rfl }

def v3 : Wire (WorldSnapshotV3 R E F) :=
  (f.head.pair (f.ecsV3.pair (offsets.pair (.option f.fsMetadata)))).equiv
  { toFun := fun (head, ecs, offsets, fs) => ⟨head, ecs, offsets, fs⟩
    invFun := fun s => (s.head, s.ecs, s.projectionOffsets, s.fsMetadata)
    left_inv := fun _ => rfl
    right_inv := fun _ => rfl }

def v4 : Wire (WorldSnapshotV4 R E F) :=
  (f.v3.pair (.vec nano)).equiv
  { toFun := fun (s, nanos) => ⟨s, nanos⟩
    invFun := fun s => (s.toWorldSnapshotV3, s.nanoRuntimeSnapshots)
    left_inv := fun _ => rfl
    right_inv := fun _ => rfl }

theorem v1_encode (s : WorldSnapshotV1 R E) : f.v1.encode s =
    f.head.encode s.head ++ (f.ecs.encode s.ecs ++ offsets.encode s.projectionOffsets) := rfl

theorem v2_encode (s : WorldSnapshotV2 R E F) : f.v2.encode s =
    f.v1.encode s.toWorldSnapshotV1 ++ (option f.fsMetadata).encode s.fsMetadata := rfl

theorem v3_encode (s : WorldSnapshotV3 R E F) : f.v3.encode s =
    f.head.encode s.head ++ (f.ecsV3.encode s.ecs ++ (offsets.encode s.projectionOffsets ++
      (option f.fsMetadata).encode s.fsMetadata)) := rfl

theorem v4_encode (s : WorldSnapshotV4 R E F) : f.v4.encode s =
    f.v3.encode s.toWorldSnapshotV3 ++ (vec nano).encode s.nanoRuntimeSnapshots := rfl

end Formats

/-! The conversions between the layouts and the snapshot in memory. -/

def NanoSnapshot.toV4 (nano : NanoSnapshot J) : NanoSnapshotV4 where
  runtimeKey := nano.runtimeKey
  workloadId := nano.workloadId
  agentId := nano.agentId
  semantics := nano.semantics
  payloadJson := f.toVec nano.payload

def NanoSnapshot.ofV4 (nano : NanoSnapshotV4) : Except String (NanoSnapshot J) := do
  let payload ← orError (f.fromSlice nano.payloadJson)
    "NanoRuntime Snapshot-Payload deserialisieren"
  .ok
    { runtimeKey := nano.runtimeKey
      workloadId := nano.workloadId
      agentId := nano.agentId
      semantics := nano.semantics
      payload }

namespace WorldSnapshot

def toV4 (s : WorldSnapshot J R E F) : WorldSnapshotV4 R E F where
  toWorldSnapshotV3 := s.toWorldSnapshotV3
  nanoRuntimeSnapshots := s.nanoRuntimeSnapshots.map (NanoSnapshot.toV4 f)

def ofV4 (s : WorldSnapshotV4 R E F) : Except String (WorldSnapshot J R E F) := do
  let nanos ← s.nanoRuntimeSnapshots.mapAll (NanoSnapshot.ofV4 f)
  .ok { toWorldSnapshotV3 := s.toWorldSnapshotV3, nanoRuntimeSnapshots := nanos }

def ofV3 (s : WorldSnapshotV3 R E F) : WorldSnapshot J R E F where
  toWorldSnapshotV3 := s
  nanoRuntimeSnapshots := .empty

def ofV2 (s : WorldSnapshotV2 R E F) : WorldSnapshot J R E F where
  head := s.head
  ecs := .ofV2 s.ecs
  projectionOffsets := s.projectionOffsets
  fsMetadata := s.fsMetadata
  nanoRuntimeSnapshots := .empty

def ofV1 (s : WorldSnapshotV1 R E) : WorldSnapshot J R E F where
  head := s.head
  ecs := .ofV2 s.ecs
  projectionOffsets := s.projectionOffsets
  fsMetadata := none
  nanoRuntimeSnapshots := .empty

end WorldSnapshot

def encodeWorldSnapshot (s : WorldSnapshot J R E F) : List UInt8 := f.v4.encode (s.toV4 f)

def decodeWorldSnapshot (bytes : List UInt8) : Except String (WorldSnapshot J R E F) :=
  match (f.v4.whole bytes).filter (·.head.schemaVersion = SCHEMA_VERSION) with
  | some s => WorldSnapshot.ofV4 f s
  | none =>
  match (f.v3.whole bytes).filter (·.head.schemaVersion = 3) with
  | some s => .ok (.ofV3 s)
  | none =>
  -- the two oldest layouts are not held to a schema version
  match f.v2.whole bytes with
  | some s => .ok (.ofV2 s)
  | none =>
  match f.v1.decode bytes with
  | none => .error "World Snapshot deserialisieren"
  | some (s, []) => .ok (.ofV1 s)
  | some (_, unused) => .error s!"World Snapshot enthaelt {unused.length} ungenutzte Bytes"

/-! The schema version stands at the same place in every layout. -/

def schemaVersion (bytes : List UInt8) : Option (BitVec 32) := do
  let (_, bytes) ← text.decode bytes
  let (version, _) ← (word 4).decode bytes
  some version

namespace Formats

variable {f} {bytes rest : List UInt8}

theorem schemaVersion_of_head {h : SnapshotHead R}
    (hdecode : f.head.decode bytes = some (h, rest)) :
    schemaVersion bytes = some h.schemaVersion := by
  obtain ⟨afterId, hid, hrest⟩ :=
    pair_decode_eq_some.1 (equiv_decode_eq_some.1 hdecode)
  obtain ⟨afterVersion, hversion, -⟩ := pair_decode_eq_some.1 hrest
  rw [schemaVersion, hid]
  show ((word 4).decode afterId).bind (fun r => some r.1) = _
  rw [hversion]
  rfl

theorem schemaVersion_of_v1 {s : WorldSnapshotV1 R E} (h : f.v1.decode bytes = some (s, rest)) :
    schemaVersion bytes = some s.head.schemaVersion := by
  obtain ⟨_, hhead, -⟩ := pair_decode_eq_some.1 (equiv_decode_eq_some.1 h)
  exact schemaVersion_of_head hhead

theorem schemaVersion_of_v2 {s : WorldSnapshotV2 R E F}
    (h : f.v2.decode bytes = some (s, rest)) :
    schemaVersion bytes = some s.head.schemaVersion := by
  obtain ⟨_, hv1, -⟩ := pair_decode_eq_some.1 (equiv_decode_eq_some.1 h)
  exact schemaVersion_of_v1 hv1

theorem schemaVersion_of_v3 {s : WorldSnapshotV3 R E F}
    (h : f.v3.decode bytes = some (s, rest)) :
    schemaVersion bytes = some s.head.schemaVersion := by
  obtain ⟨_, hhead, -⟩ := pair_decode_eq_some.1 (equiv_decode_eq_some.1 h)
  exact schemaVersion_of_head hhead

theorem schemaVersion_of_v4 {s : WorldSnapshotV4 R E F}
    (h : f.v4.decode bytes = some (s, rest)) :
    schemaVersion bytes = some s.head.schemaVersion := by
  obtain ⟨_, hv3, -⟩ := pair_decode_eq_some.1 (equiv_decode_eq_some.1 h)
  exact schemaVersion_of_v3 hv3

end Formats

end Sentinel.SnapshotCodec

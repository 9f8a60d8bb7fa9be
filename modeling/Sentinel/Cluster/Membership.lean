import Sentinel.Cluster.Fencing
import Sentinel.Lib.Keyed
import Sentinel.Lib.Machine

/-! The liveness view of the cluster (`sentinel-common`, module `membership`): one record per node,
refreshed by its heartbeats, aged by ticks of the receiver's clock, and set to `Left` when the node
is decommissioned. A record that is left is changed by heartbeats alone: one of another boot is a
restart, and so, against the intent, is one of the boot that left. -/

namespace Sentinel.Cluster
open Lib

/-! ## The view -/

inductive MembershipState where
  | alive
  | suspect
  | dead
  | left
deriving DecidableEq

structure Heartbeat where
  nodeId : NodeId
  nodeAlias : String
  bootId : BitVec 128
  incarnation : UInt64
  endpoints : List String

structure NodeMembership where
  nodeId : NodeId
  nodeAlias : String
  bootId : BitVec 128
  incarnation : UInt64
  lastSeenMs : UInt64
  state : MembershipState
  endpoints : List String

structure MembershipConfig where
  suspectAfterMs : UInt64 := 3000
  deadAfterMs : UInt64 := 6000

inductive IngestOutcome where
  | joined
  | updated
  | restarted
  | rejectedStale

structure MembershipView where
  config : MembershipConfig
  nodes : Keyed NodeId NodeMembership

namespace MembershipView

def new (config : MembershipConfig) : MembershipView := ⟨config, Keyed.empty⟩

def put (v : MembershipView) (record : NodeMembership) (id : NodeId) : MembershipView :=
  { v with nodes := v.nodes.upsert id record fun _ => record }

def refreshed (record : NodeMembership) (hb : Heartbeat) (nowMs : UInt64) : NodeMembership :=
  { record with
    bootId := hb.bootId
    incarnation := hb.incarnation
    nodeAlias := hb.nodeAlias
    endpoints := hb.endpoints
    lastSeenMs := nowMs
    state := .alive }

def ingest (v : MembershipView) (hb : Heartbeat) (nowMs : UInt64) :
    MembershipView × IngestOutcome :=
  match v.nodes hb.nodeId with
  | none =>
    (v.put ⟨hb.nodeId, hb.nodeAlias, hb.bootId, hb.incarnation, nowMs, .alive, hb.endpoints⟩
      hb.nodeId,
      .joined)
  | some record =>
    if hb.bootId ≠ record.bootId then (v.put (refreshed record hb nowMs) hb.nodeId, .restarted)
    else if hb.incarnation < record.incarnation then (v, .rejectedStale)
    else (v.put (refreshed record hb nowMs) hb.nodeId, .updated)

def saturatingAdd (a b : UInt64) : UInt64 :=
  if a.toNat + b.toNat < 2 ^ 64 then a + b else .ofNat (2 ^ 64 - 1)

def saturatingSub (a b : UInt64) : UInt64 := if b ≤ a then a - b else 0

def aged (config : MembershipConfig) (nowMs : UInt64) (record : NodeMembership) :
    NodeMembership :=
  if record.state = .left then record
  else
    let since := saturatingSub nowMs record.lastSeenMs
    { record with
      state :=
        if saturatingAdd config.suspectAfterMs config.deadAfterMs ≤ since then .dead
        else if config.suspectAfterMs ≤ since then .suspect
        else .alive }

def tick (v : MembershipView) (nowMs : UInt64) : MembershipView :=
  { v with nodes := v.nodes.mapRows fun _ => aged v.config nowMs }

def markLeft (v : MembershipView) (id : NodeId) : MembershipView × Bool :=
  match v.nodes id with
  | none => (v, false)
  | some record => (v.put { record with state := .left } id, true)

/-! ## Runs -/

inductive Input where
  | heartbeat (hb : Heartbeat) (nowMs : UInt64)
  | tick (nowMs : UInt64)
  | markLeft (id : NodeId)

inductive Answer where
  | ingested (outcome : IngestOutcome)
  | ticked
  | marked (known : Bool)

def machine : Machine MembershipView Input Answer where
  call v
    | .heartbeat hb nowMs => ((v.ingest hb nowMs).1, .ingested (v.ingest hb nowMs).2)
    | .tick nowMs => (v.tick nowMs, .ticked)
    | .markLeft id => ((v.markLeft id).1, .marked (v.markLeft id).2)

def Input.Renews (id : NodeId) (bootId : BitVec 128) (incarnation : UInt64) (input : Input) :
    Prop :=
  ∃ hb nowMs, input = .heartbeat hb nowMs ∧ hb.nodeId = id ∧ hb.bootId = bootId ∧
    incarnation ≤ hb.incarnation

def Input.Restarts (id : NodeId) (bootId : BitVec 128) (input : Input) : Prop :=
  ∃ hb nowMs, input = .heartbeat hb nowMs ∧ hb.nodeId = id ∧ hb.bootId ≠ bootId

def LeftAt (v : MembershipView) (id : NodeId) (bootId : BitVec 128) (incarnation : UInt64) : Prop :=
  ∃ record, v.nodes id = some record ∧ record.state = .left ∧ record.bootId = bootId ∧
    record.incarnation = incarnation

def stateOf (v : MembershipView) (id : NodeId) : Option MembershipState :=
  (v.nodes id).map NodeMembership.state

variable {v : MembershipView} {id : NodeId} {bootId : BitVec 128} {incarnation : UInt64}

theorem nodes_put (record : NodeMembership) (id' : NodeId) :
    (v.put record id').nodes id = if id = id' then some record else v.nodes id := by
  show (if id = id' then some ((v.nodes id).elim record fun _ => record) else v.nodes id) = _
  cases v.nodes id <;> rfl

theorem LeftAt.stateOf (h : v.LeftAt id bootId incarnation) : v.stateOf id = some .left := by
  obtain ⟨record, hrecord, hleft, -⟩ := h
  rw [MembershipView.stateOf, hrecord, Option.map_some, hleft]

theorem LeftAt.tick (h : v.LeftAt id bootId incarnation) (nowMs : UInt64) :
    (v.tick nowMs).LeftAt id bootId incarnation := by
  obtain ⟨record, hrecord, hleft, hboot⟩ := h
  refine ⟨record, ?_, hleft, hboot⟩
  show (v.nodes id).map (aged v.config nowMs) = some record
  rw [hrecord, Option.map_some, aged, if_pos hleft]

theorem LeftAt.markLeft (h : v.LeftAt id bootId incarnation) (id' : NodeId) :
    (v.markLeft id').1.LeftAt id bootId incarnation := by
  obtain ⟨record, hrecord, hleft, hboot⟩ := h
  unfold MembershipView.markLeft
  cases hother : v.nodes id' with
  | none => exact ⟨record, hrecord, hleft, hboot⟩
  | some other =>
    by_cases hid : id = id'
    · subst hid
      obtain rfl : record = other := Option.some.inj (hrecord.symm.trans hother)
      refine ⟨{ record with state := .left }, ?_, rfl, hboot⟩
      rw [nodes_put, if_pos rfl]
    · refine ⟨record, ?_, hleft, hboot⟩
      rw [nodes_put, if_neg hid, hrecord]

theorem nodes_ingest_of_ne {hb : Heartbeat} (nowMs : UInt64) (hid : hb.nodeId ≠ id) :
    (v.ingest hb nowMs).1.nodes id = v.nodes id := by
  have hne : id ≠ hb.nodeId := fun h => hid h.symm
  unfold ingest
  cases v.nodes hb.nodeId with
  | none => exact (nodes_put _ _).trans (if_neg hne)
  | some record =>
    dsimp only
    split_ifs
    · exact (nodes_put _ _).trans (if_neg hne)
    · rfl
    · exact (nodes_put _ _).trans (if_neg hne)

theorem LeftAt.ingest_stale {hb : Heartbeat} (h : v.LeftAt id bootId incarnation)
    (hid : hb.nodeId = id) (hboot : hb.bootId = bootId) (hold : hb.incarnation < incarnation)
    (nowMs : UInt64) : (v.ingest hb nowMs).1 = v := by
  obtain ⟨record, hrecord, -, hrboot, hrinc⟩ := h
  unfold ingest
  rw [hid, hrecord]
  dsimp only
  rw [if_neg (fun hne => hne (hboot.trans hrboot.symm)), if_pos (hrinc.symm ▸ hold)]

theorem LeftAt.ingest_renewal {hb : Heartbeat} (h : v.LeftAt id bootId incarnation)
    (hid : hb.nodeId = id) (hboot : hb.bootId = bootId) (hnew : incarnation ≤ hb.incarnation)
    (nowMs : UInt64) : (v.ingest hb nowMs).1.stateOf id = some .alive := by
  obtain ⟨record, hrecord, -, hrboot, hrinc⟩ := h
  have hnodes : (v.ingest hb nowMs).1.nodes id = some (refreshed record hb nowMs) := by
    unfold ingest
    rw [hid, hrecord]
    dsimp only
    rw [if_neg (fun hne => hne (hboot.trans hrboot.symm)),
      if_neg (UInt64.not_lt.2 (hrinc.symm ▸ hnew)), nodes_put, if_pos rfl]
  rw [MembershipView.stateOf, hnodes]
  rfl

theorem LeftAt.call {input : Input} (h : v.LeftAt id bootId incarnation)
    (hboot : ¬ input.Restarts id bootId) (hold : ¬ input.Renews id bootId incarnation) :
    (machine.call v input).1.LeftAt id bootId incarnation := by
  cases input with
  | tick nowMs => exact h.tick nowMs
  | markLeft id' => exact h.markLeft id'
  | heartbeat hb nowMs =>
    show (v.ingest hb nowMs).1.LeftAt id bootId incarnation
    by_cases hid : hb.nodeId = id
    · have hsame : hb.bootId = bootId := by
        by_contra hne
        exact hboot ⟨hb, nowMs, rfl, hid, hne⟩
      have hlt : hb.incarnation < incarnation := by
        by_contra hnot
        exact hold ⟨hb, nowMs, rfl, hid, hsame, UInt64.not_lt.1 hnot⟩
      rw [h.ingest_stale hid hsame hlt]
      exact h
    · obtain ⟨record, hrecord, hrest⟩ := h
      exact ⟨record, (nodes_ingest_of_ne nowMs hid).trans hrecord, hrest⟩

/-- From any view in which a node has left, along any inputs up to the next heartbeat of another
boot of the node: the node is left in every view passed through exactly where no heartbeat of the
boot that left comes in, other than a stale one. -/
theorem stays_left_iff (h : v.LeftAt id bootId incarnation) {inputs : List Input}
    (hboot : ∀ input ∈ inputs, ¬ input.Restarts id bootId) :
    (∀ before, before <+: inputs → (machine.final v before).stateOf id = some .left) ↔
      ∀ input ∈ inputs, ¬ input.Renews id bootId incarnation := by
  rw [← machine.meets_iff_forall_mem (s := v)]
  refine machine.forall_reached_iff_meets_of_mem
    (P := fun v => v.stateOf id = some .left) (I := fun v => v.LeftAt id bootId incarnation)
    (fun v hv => hv.stateOf) (fun v input hinput hv hold => hv.call hinput hold) ?_ h hboot
  intro v input _ hv hrenews
  obtain ⟨hb, nowMs, rfl, hid, hsame, hnew⟩ := not_not.1 hrenews
  show (v.ingest hb nowMs).1.stateOf id ≠ some .left
  rw [hv.ingest_renewal hid hsame hnew]
  exact fun heq => nomatch heq

/-! ## A node that leaves -/

def sampleId : NodeId := ⟨1⟩

def sampleHeartbeat (incarnation : UInt64) : Heartbeat := ⟨sampleId, "node-1", 7, incarnation, []⟩

def sampleLeft : MembershipView :=
  machine.final (new {}) [.heartbeat (sampleHeartbeat 5) 0, .markLeft sampleId]

theorem leftAt_sampleLeft : sampleLeft.LeftAt sampleId 7 5 := ⟨_, rfl, rfl, rfl, rfl⟩

/-- A stale heartbeat and a late tick leave it so. -/
theorem stays_left_sampleLeft :
    let inputs : List Input := [.heartbeat (sampleHeartbeat 4) 1, .tick 60000]
    (∀ input ∈ inputs, ¬ input.Restarts sampleId 7) ∧
      ∀ before, before <+: inputs →
        (machine.final sampleLeft before).stateOf sampleId = some .left := by
  intro inputs
  have hboot : ∀ input ∈ inputs, ¬ input.Restarts sampleId 7 := by
    simp only [inputs, List.forall_mem_cons]
    refine ⟨?_, ?_, fun _ h => absurd h List.not_mem_nil⟩
    · rintro ⟨hb, nowMs, heq, -, hne⟩
      cases heq
      exact hne rfl
    · rintro ⟨hb, nowMs, heq, -⟩
      cases heq
  have hold : ∀ input ∈ inputs, ¬ input.Renews sampleId 7 5 := by
    simp only [inputs, List.forall_mem_cons]
    refine ⟨?_, ?_, fun _ h => absurd h List.not_mem_nil⟩
    · rintro ⟨hb, nowMs, heq, -, -, hle⟩
      cases heq
      exact absurd hle (by decide)
    · rintro ⟨hb, nowMs, heq, -⟩
      cases heq
  exact ⟨hboot, (stays_left_iff leftAt_sampleLeft hboot).2 hold⟩

/-- A heartbeat that was under way when the node was decommissioned brings it back. -/
theorem comes_back_sampleLeft :
    sampleLeft.stateOf sampleId = some .left ∧
      (machine.final sampleLeft [.heartbeat (sampleHeartbeat 5) 1]).stateOf sampleId =
        some .alive := by
  decide

end MembershipView

end Sentinel.Cluster

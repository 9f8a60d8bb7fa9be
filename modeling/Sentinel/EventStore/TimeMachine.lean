import Sentinel.EventStore.EventTable
import Sentinel.Lib.Machine

/-! The time machine: world snapshots, the dead id-intervals of discarded futures, and the
restore of `sentinel-daemon` (`orchestrator`). The restored stores (redb, ECS, file system) are
represented by the ids of the events whose effects they hold. -/

namespace Sentinel.EventStore
open Lib

def sqlInt (v : UInt64) : ℤ := v.toBitVec.toInt

def replayTickCap : ℕ := 14400

def worldSchemaVersion : ℕ := 4

/-- A stored snapshot, with the world it holds and, for the record, the event ids that were
live when it was taken. -/
structure WorldSnapshot where
  snapshotId : ℕ
  schemaVersion : ℕ
  tick : UInt64
  lastEventId : ℕ
  world : List ℕ
  liveIds : List ℕ
deriving DecidableEq

structure RestoreCommand where
  snapshotId : Option ℕ
  targetTick : Option UInt64
  targetEventId : Option ℕ

inductive Granularity where
  | snapshot
  | event
  | tick

structure RestoreResolution where
  anchorSnapshotId : ℕ
  targetEventId : Option ℕ
  targetTick : Option UInt64
  exact : Bool
  granularity : Granularity

structure RestoreReplayPlan where
  rows : List EventRow
  anchorTick : UInt64
  targetTick : UInt64
  targetEventId : ℕ

structure Timeline where
  events : EventTable
  deadRanges : List (ℕ × ℕ)
  restoreGeneration : ℕ
  snapshots : List WorldSnapshot
  world : List ℕ
  tickCount : UInt64

namespace Timeline

def initial : Timeline := ⟨.empty, [], 0, [], [], 0⟩

/-! ## Reading -/

def liveIds (t : Timeline) : List ℕ := visible t.deadRanges t.events.ids

def liveRows (t : Timeline) : List EventRow :=
  t.events.rows.filter fun r => ¬ Covered t.deadRanges r.id

theorem sorted_liveRows (t : Timeline) : t.liveRows.Pairwise fun a b => a.id < b.id :=
  t.events.increasing.filter _

def rowsInRange (t : Timeline) (fromExclusive toInclusive : ℕ) : List EventRow :=
  t.liveRows.filter fun r => fromExclusive < r.id ∧ r.id ≤ toInclusive

def getEventsRange (t : Timeline) (fromExclusive toInclusive : ℕ) : List DomainEvent :=
  (t.rowsInRange fromExclusive toInclusive).map EventRow.event

def getEventsSince (t : Timeline) (afterId limit : ℕ) : List DomainEvent :=
  ((t.liveRows.filter fun r => afterId < r.id).take limit).map EventRow.event

/-- `SELECT MAX(id) FROM events WHERE tick <= ?`. -/
def maxEventIdAtTick (t : Timeline) (tick : UInt64) : Option ℕ :=
  ((t.events.rows.filter fun r => sqlInt r.event.tick ≤ sqlInt tick).map EventRow.id).max?

def getEventTick (t : Timeline) (id : ℕ) : Option UInt64 :=
  (t.events.rows.find? fun r => r.id = id).map fun r => r.event.tick

def loadWorldSnapshot (t : Timeline) (id : ℕ) : Option WorldSnapshot :=
  t.snapshots.find? fun s => s.snapshotId = id

/-! ## Resolving a target -/

def selectAnchorSnapshot (listing : List WorldSnapshot) (targetTick : UInt64)
    (targetEventId : ℕ) : Option WorldSnapshot :=
  listing.find? fun s => s.tick ≤ targetTick ∧ s.lastEventId ≤ targetEventId

def resolveTargetEvent (t : Timeline) (listing : List WorldSnapshot) (targetEventId : ℕ)
    (targetTick : UInt64) : Except String RestoreResolution :=
  match selectAnchorSnapshot listing targetTick targetEventId with
  | none => .error ("kein Anchor-Snapshot vor Ziel (tick<" ++ toString targetTick ++
      ", last_event_id<=" ++ toString targetEventId ++ ")")
  | some anchor =>
    let exact := decide (t.maxEventIdAtTick targetTick = some targetEventId)
    .ok ⟨anchor.snapshotId, some targetEventId, some targetTick, exact,
      if exact then .event else .tick⟩

def resolveRestoreTarget (t : Timeline) (listing : List WorldSnapshot) (cmd : RestoreCommand) :
    Except String RestoreResolution :=
  match cmd.snapshotId, cmd.targetEventId, cmd.targetTick with
  | some sid, _, _ => .ok ⟨sid, none, none, true, .snapshot⟩
  | none, some eid, _ => match t.getEventTick eid with
    | none => .error ("target_event_id " ++ toString eid ++ " unbekannt")
    | some tick => t.resolveTargetEvent listing eid tick
  | none, none, some tick => match t.maxEventIdAtTick tick with
    | some eid => t.resolveTargetEvent listing eid tick
    | none => match listing.getLast? with
      | none => .error "kein Snapshot vorhanden"
      | some oldest => .ok ⟨oldest.snapshotId, none, none, false, .snapshot⟩
  | none, none, none => .error "Restore-Command ohne Ziel (validate uebersprungen?)"

/-! ## Steps -/

def append (t : Timeline) (e : DomainEvent) : Timeline :=
  if t.events.Clashes e then t
  else { t with events := t.events.push e, world := t.world ++ [t.events.sequence + 1] }

def capture (t : Timeline) : WorldSnapshot where
  snapshotId := t.snapshots.length
  schemaVersion := worldSchemaVersion
  tick := t.tickCount
  lastEventId := t.events.latestId
  world := t.world
  liveIds := t.liveIds

def createAndStore (t : Timeline) : Timeline := { t with snapshots := t.snapshots ++ [t.capture] }

def pushDeadRange (t : Timeline) (fromExclusive toInclusive : ℕ) : Timeline :=
  { t with deadRanges := EventStore.pushDeadRange t.deadRanges fromExclusive toInclusive }

def replayPlan (t : Timeline) (resolution : RestoreResolution) (snapshot : WorldSnapshot) :
    Option RestoreReplayPlan :=
  match resolution.targetEventId, resolution.targetTick with
  | some targetEventId, some targetTick =>
    if snapshot.schemaVersion < 3 then none
    else if targetTick.toNat - snapshot.tick.toNat > replayTickCap then none
    else
      let range := t.rowsInRange snapshot.lastEventId targetEventId
      if range.any fun r => r.event.eventType = "snapshot_restored" then none
      else some ⟨range, snapshot.tick, targetTick, targetEventId⟩
  | _, _ => none

def restoreEvent (stamp : DomainEvent) (anchorSnapshotId : ℕ) (tick : UInt64) : DomainEvent :=
  { stamp with
    eventType := "snapshot_restored"
    aggregateId := "system"
    correlationId := toString anchorSnapshotId
    causationId := none
    tick
    schemaVersion := 1
    compensationType := "none" }

def commitWorldRestoreStores (t : Timeline) (snapshot : WorldSnapshot)
    (plan : Option RestoreReplayPlan) (stamp : DomainEvent) : Timeline :=
  let finalTick := plan.elim snapshot.tick RestoreReplayPlan.targetTick
  let maxEventId := t.events.latestId
  let anchorEventId := plan.elim snapshot.lastEventId RestoreReplayPlan.targetEventId
  let restored := { t with
    world := snapshot.world ++ plan.elim [] fun p => p.rows.map EventRow.id
    restoreGeneration := t.restoreGeneration + 1
    tickCount := finalTick }
  (restored.pushDeadRange anchorEventId maxEventId).append
    (restoreEvent stamp snapshot.snapshotId finalTick)

/-- A restore. The pre-restore snapshot stays also when the replay fails and the stores are
rolled back to it. -/
def executeWorldRestoreTransfer (t : Timeline) (cmd : RestoreCommand)
    (listing : List WorldSnapshot) (replayFails : Bool) (stamp : DomainEvent) : Timeline :=
  match t.resolveRestoreTarget listing cmd with
  | .error _ => t
  | .ok resolution => match t.loadWorldSnapshot resolution.anchorSnapshotId with
    | none => t
    | some snapshot =>
      let t := t.createAndStore
      let plan := t.replayPlan resolution snapshot
      if plan.isSome ∧ replayFails then t
      else t.commitWorldRestoreStores snapshot plan stamp

def Lists (t : Timeline) (listing : List WorldSnapshot) : Prop :=
  listing.Perm t.snapshots ∧ listing.Pairwise fun a b => sqlInt b.tick ≤ sqlInt a.tick

instance (t : Timeline) (listing : List WorldSnapshot) : Decidable (t.Lists listing) :=
  inferInstanceAs (Decidable (_ ∧ _))

end Timeline

inductive TimelineAction where
  | advanceTick
  | append (event : DomainEvent)
  | snapshot
  | restore (cmd : RestoreCommand) (listing : List WorldSnapshot) (replayFails : Bool)
      (stamp : DomainEvent)

/-- A restore reads some tick-descending listing and stamps its event with fresh ids. -/
def timelineMachine : Machine Timeline TimelineAction Unit where
  call t
    | .advanceTick => ({ t with tickCount := t.tickCount + 1 }, ())
    | .append event => (t.append event, ())
    | .snapshot => (t.createAndStore, ())
    | .restore cmd listing replayFails stamp =>
      (if t.Lists listing ∧ ¬ t.events.Clashes stamp then
        t.executeWorldRestoreTransfer cmd listing replayFails stamp
      else t, ())

def sampleEvent (n : ℕ) (tick : UInt64) : DomainEvent where
  eventId := toString n
  eventType := "order_started"
  aggregateId := "kitchen"
  payload := ""
  correlationId := ""
  causationId := none
  operationId := toString n
  tick
  timestampMs := 0
  schemaVersion := 1
  compensationType := "none"

end Sentinel.EventStore

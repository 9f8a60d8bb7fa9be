import Sentinel.EventStore.EventTable
import Sentinel.Lib.Keyed
import Sentinel.Lib.Machine
import Sentinel.Lib.Result

/-! The recovery row of a configuration apply (`sentinel-limbo`, module `event_store`). One row
holds the operation that is applied: its phase, and the decision to which it is finished after a
crash. The decision turns to forward in the transaction that inserts the completion event and
its outbox row. -/

namespace Sentinel.EventStore.ConfigApply
open Lib

inductive Phase
  | prepared
  | runtimesApplied
  | committedPendingFinalize
  | recoveryRequired
  | finalized
  deriving DecidableEq

def Phase.asPersisted : Phase → String
  | prepared => "prepared"
  | runtimesApplied => "runtimes_applied"
  | committedPendingFinalize => "committed_pending_finalize"
  | recoveryRequired => "recovery_required"
  | finalized => "finalized"

inductive Decision
  | rollback
  | forward
  deriving DecidableEq

def Decision.asPersisted : Decision → String
  | rollback => "rollback"
  | forward => "forward"

structure Start where
  opId : String
  oldDigest : String
  stagedDigest : String
  oldAgents : String
  stagedAgents : String
  oldBuilding : String
  stagedBuilding : String
  preSnapshotId : String
  preSnapshotDigest : String
  preRuntimeSnapshots : String
  startedTick : UInt64
  deriving DecidableEq

structure Binding where
  snapshotId : String
  snapshotDigest : String
  runtimeSnapshots : String
  deriving DecidableEq

structure Row where
  start : Start
  applied : Binding
  stopped : List UInt16
  spawned : List UInt16
  phase : Phase
  decision : Decision
  reason : String
  createdAt : ℤ
  updatedAt : ℤ

abbrev Row.opId (row : Row) : String := row.start.opId

structure OutboxRow where
  eventId : String
  topic : String
  payload : String
  createdAt : ℤ

structure Store where
  row : Option Row
  events : EventTable
  outbox : List OutboxRow

structure CallContext where
  nowMs : ℤ
  fence : Except String Unit
  commit : Except String Unit

def isCanonicalSha256 (value : String) : Bool :=
  value.length = 64 ∧ value.toList.all fun c => c.isDigit ∨ ('a' ≤ c ∧ c ≤ 'f')

def noRows : String := "Query returned no rows"

namespace Store

variable (s : Store) (c : CallContext)

def setRow (row : Row) : Store := { s with row := some row }

def rowOf (opId : String) : Option Row := s.row.filter fun row => row.opId = opId

def fencedWrite (body : Except String Store) : Except String Store := do
  c.fence
  let next ← body
  c.commit
  return next

def freshRow (start : Start) : Row where
  start := start
  applied := ⟨"", "", "[]"⟩
  stopped := []
  spawned := []
  phase := .prepared
  decision := .rollback
  reason := ""
  createdAt := c.nowMs
  updatedAt := c.nowMs

def beginRecovery (applyDigest : String → String → String) (start : Start) :
    Except String Store := do
  ensure (start.opId ≠ "") "config apply op_id must not be empty"
  ensure (isCanonicalSha256 start.oldDigest ∧ isCanonicalSha256 start.stagedDigest ∧
    isCanonicalSha256 start.preSnapshotDigest)
    "config apply digests must be canonical lowercase SHA-256"
  ensure (start.preSnapshotId ≠ "") "config apply pre-snapshot id must not be empty"
  ensure (start.oldDigest = applyDigest start.oldAgents start.oldBuilding ∧
    start.stagedDigest = applyDigest start.stagedAgents start.stagedBuilding)
    "config apply payload digest conflict"
  ensure (start.startedTick.toNat < 2 ^ 63) "runtime config apply tick exceeds i64"
  fencedWrite c <|
    match s.row with
    | none => .ok (s.setRow (freshRow c start))
    | some row =>
      if row.opId = start.opId then do
        ensure (row.start = start) "config apply op_id binding conflict"
        return s
      else do
        ensure (row.phase = .finalized) "unresolved runtime config apply recovery already exists"
        return s.setRow (freshRow c start)

def withAgent (ids : List UInt16) (agent : UInt16) : List UInt16 :=
  if agent ∈ ids then ids else (ids ++ [agent]).mergeSort fun a b => decide (a ≤ b)

/-- `record_runtime_config_apply_agent`, with the update of the named column. -/
def recordAgent (opId : String) (record : Row → Row) : Except String Store :=
  fencedWrite c <|
    match s.rowOf opId with
    | none => .error noRows
    | some row =>
      if row.phase = .prepared ∨ row.phase = .runtimesApplied then
        .ok (s.setRow { record row with updatedAt := c.nowMs })
      else .error noRows

def recordStop (opId : String) (agent : UInt16) : Except String Store :=
  s.recordAgent c opId fun row => { row with stopped := withAgent row.stopped agent }

def recordSpawn (opId : String) (agent : UInt16) : Except String Store :=
  s.recordAgent c opId fun row => { row with spawned := withAgent row.spawned agent }

def markRuntimesApplied (opId : String) (applied : Binding) : Except String Store := do
  ensure (applied.snapshotId ≠ "" ∧ applied.snapshotDigest ≠ "")
    "applied config snapshot binding must be complete"
  ensure (isCanonicalSha256 applied.snapshotDigest)
    "applied config snapshot digest must be canonical lowercase SHA-256"
  fencedWrite c <|
    match s.rowOf opId with
    | none => .error noRows
    | some row =>
      if row.phase = .prepared ∧ row.decision = .rollback then
        .ok (s.setRow { row with phase := .runtimesApplied, applied, updatedAt := c.nowMs })
      else do
        ensure (row.phase = .runtimesApplied ∧ row.applied = applied)
          "config apply runtimes-applied transition conflict"
        return s

def commitApply (opId : String) (event : DomainEvent) (topic : String) : Except String Store :=
  fencedWrite c <|
    match s.rowOf opId with
    | none => .error noRows
    | some row =>
      if row.phase = .committedPendingFinalize ∧ row.decision = .forward then do
        ensure (((s.events.rows.find? fun r => r.event.operationId = opId).map
          fun r => r.event.eventId) = some event.eventId)
          "config apply committed event identity conflict"
        return s
      else do
        ensure (row.phase = .runtimesApplied ∧ row.decision = .rollback)
          ("config apply cannot commit from phase=" ++ row.phase.asPersisted ++ " decision=" ++
            row.decision.asPersisted)
        ensure (event.operationId = opId) "config apply event operation_id must equal op_id"
        ensure (¬ s.events.Clashes event) "config apply completion event conflict"
        return {
          row := some { row with
            phase := .committedPendingFinalize, decision := .forward, reason := "",
            updatedAt := c.nowMs }
          events := s.events.push event
          outbox := s.outbox ++ [⟨event.eventId, topic, event.payload, c.nowMs⟩] }

def markRecoveryRequired (opId reason : String) : Except String Store :=
  fencedWrite c <|
    match s.rowOf opId with
    | none => .error "runtime config apply recovery marker is missing"
    | some row =>
      if row.phase ≠ .finalized then
        .ok (s.setRow { row with phase := .recoveryRequired, reason, updatedAt := c.nowMs })
      else .error "runtime config apply recovery marker is missing"

def allowedPhase : Decision → List Phase
  | .rollback => [.prepared, .runtimesApplied, .recoveryRequired]
  | .forward => [.committedPendingFinalize, .recoveryRequired]

def finalizedRow (row : Row) : Row :=
  { row with phase := .finalized, reason := "", updatedAt := c.nowMs }

def finalizeApply (opId : String) (decision : Decision) : Except String Store :=
  fencedWrite c <|
    match s.rowOf opId with
    | none => .error noRows
    | some row =>
      if row.decision = decision ∧ row.phase ∈ allowedPhase decision then
        .ok (s.setRow (finalizedRow c row))
      else do
        ensure (row.decision = decision) noRows
        ensure (row.phase = .finalized) "config apply finalize phase conflict"
        return s

end Store

inductive Call
  | beginRecovery (start : Start)
  | recordStop (opId : String) (agent : UInt16)
  | recordSpawn (opId : String) (agent : UInt16)
  | markRuntimesApplied (opId : String) (applied : Binding)
  | commitApply (opId : String) (event : DomainEvent) (topic : String)
  | markRecoveryRequired (opId reason : String)
  | finalizeApply (opId : String) (decision : Decision)

def Store.apply (applyDigest : String → String → String) (s : Store) (c : CallContext) :
    Call → Except String Store
  | .beginRecovery start => s.beginRecovery c applyDigest start
  | .recordStop opId agent => s.recordStop c opId agent
  | .recordSpawn opId agent => s.recordSpawn c opId agent
  | .markRuntimesApplied opId applied => s.markRuntimesApplied c opId applied
  | .commitApply opId event topic => s.commitApply c opId event topic
  | .markRecoveryRequired opId reason => s.markRecoveryRequired c opId reason
  | .finalizeApply opId decision => s.finalizeApply c opId decision

section Effect

variable {s next : Store} {c : CallContext}

theorem fencedWrite_eq_ok {body : Except String Store} :
    Store.fencedWrite c body = .ok next ↔
      c.fence = .ok () ∧ body = .ok next ∧ c.commit = .ok () := by
  simp only [Store.fencedWrite, bind_eq_ok, exists_unit]
  refine and_congr_right fun _ => ⟨?_, fun ⟨hbody, hcommit⟩ => ⟨next, hbody, hcommit, rfl⟩⟩
  rintro ⟨s', hbody, hcommit, hnext⟩
  cases hnext
  exact ⟨hbody, hcommit⟩

theorem rowOf_eq_some {opId : String} {row : Row} :
    s.rowOf opId = some row ↔ s.row = some row ∧ row.opId = opId := by
  simp [Store.rowOf, Option.filter_eq_some_iff]

def Coherent (row : Row) : Prop :=
  row.phase = .finalized ∨ row.phase ∈ Store.allowedPhase row.decision

inductive Effect (s : Store) : Call → Store → Prop
  | same (call : Call) : Effect s call s
  | started (start : Start) (c : CallContext)
      (hfree : ∀ row, s.row = some row → row.phase = .finalized ∧ row.opId ≠ start.opId) :
      Effect s (.beginRecovery start) (s.setRow (Store.freshRow c start))
  | advanced (call : Call) (row next : Row) (hrow : s.row = some row)
      (hphase : row.phase ≠ .finalized) (hstart : next.start = row.start)
      (hdecision : next.decision = row.decision) (hcoherent : Coherent row → Coherent next) :
      Effect s call (s.setRow next)
  | committed (row next : Row) (event : DomainEvent) (topic : String) (nowMs : ℤ)
      (hrow : s.row = some row) (hphase : row.phase ≠ .finalized)
      (hdecision : row.decision = .rollback) (hstart : next.start = row.start)
      (hforward : next.decision = .forward) (hcoherent : Coherent next)
      (hevent : event.operationId = row.opId) :
      Effect s (.commitApply row.opId event topic)
        ⟨some next, s.events.push event,
          s.outbox ++ [⟨event.eventId, topic, event.payload, nowMs⟩]⟩

theorem Effect.replayed {call : Call} {check : Except String Unit}
    (h : (check >>= fun _ => .ok s) = .ok next) : Effect s call next := by
  obtain ⟨_, -, hsame⟩ := bind_eq_ok.1 h
  cases hsame
  exact .same _

theorem effect_beginRecovery {applyDigest : String → String → String} {start : Start}
    (h : s.beginRecovery c applyDigest start = .ok next) :
    Effect s (.beginRecovery start) next := by
  simp only [Store.beginRecovery, bind_eq_ok, exists_unit, ensure_eq_ok, fencedWrite_eq_ok] at h
  obtain ⟨-, -, -, -, -, -, hbody, -⟩ := h
  split at hbody
  · next hnone =>
    cases hbody
    exact .started start c fun row hrow => absurd (hnone.symm.trans hrow) (by simp)
  · next row hrow =>
    split_ifs at hbody with hop
    · exact .replayed hbody
    · simp only [bind_eq_ok, exists_unit, ensure_eq_ok] at hbody
      obtain ⟨hfinal, hnext⟩ := hbody
      cases hnext
      refine .started start c fun row' hrow' => ?_
      obtain rfl : row = row' := Option.some.inj (hrow.symm.trans hrow')
      exact ⟨hfinal, hop⟩

theorem effect_recordAgent {call : Call} {opId : String} {record : Row → Row}
    (hrecord : ∀ row, (record row).start = row.start ∧ (record row).phase = row.phase ∧
      (record row).decision = row.decision)
    (h : s.recordAgent c opId record = .ok next) : Effect s call next := by
  obtain ⟨-, hbody, -⟩ := fencedWrite_eq_ok.1 h
  split at hbody
  · cases hbody
  · next row hrow =>
    split_ifs at hbody with hphase
    cases hbody
    obtain ⟨hstart, hsame, hdecision⟩ := hrecord row
    refine .advanced call row _ (rowOf_eq_some.1 hrow).1 ?_ hstart hdecision fun hcoherent => ?_
    · rcases hphase with hphase | hphase <;> simp [hphase]
    · simpa only [Coherent, hsame, hdecision] using hcoherent

theorem effect_markRuntimesApplied {opId : String} {applied : Binding}
    (h : s.markRuntimesApplied c opId applied = .ok next) :
    Effect s (.markRuntimesApplied opId applied) next := by
  simp only [Store.markRuntimesApplied, bind_eq_ok, exists_unit, ensure_eq_ok,
    fencedWrite_eq_ok] at h
  obtain ⟨-, -, -, hbody, -⟩ := h
  split at hbody
  · cases hbody
  · next row hrow =>
    split_ifs at hbody with hphase
    · cases hbody
      refine .advanced _ row _ (rowOf_eq_some.1 hrow).1 (by simp [hphase.1]) rfl rfl fun _ => ?_
      simp [Coherent, hphase.2, Store.allowedPhase]
    · exact .replayed hbody

theorem effect_commitApply {opId : String} {event : DomainEvent} {topic : String}
    (h : s.commitApply c opId event topic = .ok next) :
    Effect s (.commitApply opId event topic) next := by
  obtain ⟨-, hbody, -⟩ := fencedWrite_eq_ok.1 h
  split at hbody
  · cases hbody
  · next row hfound =>
    obtain ⟨hrow, rfl⟩ := rowOf_eq_some.1 hfound
    split_ifs at hbody with hdone
    · exact .replayed hbody
    · simp only [bind_eq_ok, exists_unit, ensure_eq_ok] at hbody
      obtain ⟨⟨hphase, hdecision⟩, hevent, -, hnext⟩ := hbody
      cases hnext
      refine .committed row _ event topic c.nowMs hrow (by simp [hphase]) hdecision rfl rfl ?_
        hevent
      exact .inr (by simp [Store.allowedPhase])

theorem effect_markRecoveryRequired {opId reason : String}
    (h : s.markRecoveryRequired c opId reason = .ok next) :
    Effect s (.markRecoveryRequired opId reason) next := by
  obtain ⟨-, hbody, -⟩ := fencedWrite_eq_ok.1 h
  split at hbody
  · cases hbody
  · next row hrow =>
    split_ifs at hbody with hphase
    cases hbody
    refine .advanced _ row _ (rowOf_eq_some.1 hrow).1 hphase rfl rfl fun _ => .inr ?_
    cases row.decision <;> simp [Store.allowedPhase]

theorem effect_finalizeApply {opId : String} {decision : Decision}
    (h : s.finalizeApply c opId decision = .ok next) :
    Effect s (.finalizeApply opId decision) next := by
  obtain ⟨-, hbody, -⟩ := fencedWrite_eq_ok.1 h
  split at hbody
  · cases hbody
  · next row hrow =>
    split_ifs at hbody with hphase
    · cases hbody
      refine .advanced _ row _ (rowOf_eq_some.1 hrow).1 ?_ rfl rfl fun _ => .inl rfl
      intro hfinal
      rw [hfinal] at hphase
      cases decision <;> simp [Store.allowedPhase] at hphase
    · obtain ⟨_, -, hbody⟩ := bind_eq_ok.1 hbody
      exact .replayed hbody

theorem effect_apply {applyDigest : String → String → String} {call : Call}
    (h : s.apply applyDigest c call = .ok next) : Effect s call next := by
  cases call with
  | beginRecovery start => exact effect_beginRecovery h
  | recordStop opId agent =>
    have hrecord : s.recordAgent c opId _ = .ok next := h
    apply effect_recordAgent ?_ hrecord
    exact fun _ => ⟨rfl, rfl, rfl⟩
  | recordSpawn opId agent =>
    have hrecord : s.recordAgent c opId _ = .ok next := h
    apply effect_recordAgent ?_ hrecord
    exact fun _ => ⟨rfl, rfl, rfl⟩
  | markRuntimesApplied opId applied => exact effect_markRuntimesApplied h
  | commitApply opId event topic => exact effect_commitApply h
  | markRecoveryRequired opId reason => exact effect_markRecoveryRequired h
  | finalizeApply opId decision => exact effect_finalizeApply h

end Effect

section Law

structure History where
  store : Store
  last : Keyed String Row

def History.opened (events : EventTable) (outbox : List OutboxRow) : History :=
  ⟨⟨none, events, outbox⟩, Keyed.empty⟩

def History.record (h : History) (next : Store) : History where
  store := next
  last := next.row.elim h.last fun row => Function.update h.last row.opId (some row)

inductive Step
  | call (c : CallContext) (call : Call)
  | append (event : DomainEvent) (entry : Option OutboxRow)

def History.append (h : History) (event : DomainEvent) (entry : Option OutboxRow) : History :=
  { h with store := { h.store with
      events := h.store.events.insertOrIgnore event
      outbox := h.store.outbox ++ entry.toList } }

def configApply (applyDigest : String → String → String) :
    Machine History Step (Except String Unit) where
  call h
    | .call c call =>
      match h.store.apply applyDigest c call with
      | .error e => (h, .error e)
      | .ok next => (h.record next, .ok ())
    | .append event entry => (h.append event entry, .ok ())

def completions (h : History) (opId : String) : List EventRow :=
  h.store.events.rows.filter fun r => r.event.operationId = opId

/-- An operation is not begun again after another one replaced its row, and other writers do not
use the ids of operations for their events. -/
def Allowed (h : History) : Step → Prop
  | .call _ (.beginRecovery start) =>
    h.last start.opId = none ∧ completions h start.opId = [] ∨
      ∃ row, h.store.row = some row ∧ row.opId = start.opId
  | .call _ _ => True
  | .append event _ => h.last event.operationId = none

/-- At most one operation is not finalised; an operation has one completion event if its decision
is forward and none if it is rollback; and one that is not finalised can be finalised with its
decision. -/
structure Lawful (h : History) : Prop where
  single : ∀ a b rowA rowB, h.last a = some rowA → h.last b = some rowB →
    rowA.phase ≠ .finalized → rowB.phase ≠ .finalized → a = b
  decided : ∀ opId row, h.last opId = some row →
    (completions h opId).length = if row.decision = .forward then 1 else 0
  finalizable : ∀ opId row, h.last opId = some row → row.phase ≠ .finalized →
    ∀ c : CallContext, c.fence = .ok () → c.commit = .ok () →
      h.store.finalizeApply c opId row.decision = .ok (h.store.setRow (Store.finalizedRow c row))

/-- A refused call changes nothing; nothing of a finalised operation changes; and a decision is
kept, or it turns from rollback to forward together with the insertion of the completion event
and its outbox row. -/
structure StepLawful (h next : History) (answer : Except String Unit) : Prop where
  refused : ∀ e, answer = .error e → next = h
  finalised : ∀ opId row, h.last opId = some row → row.phase = .finalized →
    next.last opId = some row ∧ completions next opId = completions h opId
  decision : ∀ opId row, h.last opId = some row → ∃ row', next.last opId = some row' ∧
    (row'.decision = row.decision ∧ completions next opId = completions h opId ∨
      row.decision = .rollback ∧ row'.decision = .forward ∧
        ∃ event topic nowMs, event.operationId = opId ∧
          next.store.events = h.store.events.push event ∧
          next.store.outbox = h.store.outbox ++ [⟨event.eventId, topic, event.payload, nowMs⟩])

structure Sound (h : History) : Prop where
  current : ∀ row, h.store.row = some row → h.last row.opId = some row ∧ Coherent row
  known : ∀ opId row, h.last opId = some row →
    row.opId = opId ∧ (h.store.row = some row ∨ row.phase = .finalized)
  decided : ∀ opId row, h.last opId = some row →
    (completions h opId).length = if row.decision = .forward then 1 else 0

variable {h : History} {applyDigest : String → String → String}

theorem completions_push (h : History) (event : DomainEvent) (opId : String) :
    (h.store.events.push event).rows.filter (fun r => r.event.operationId = opId) =
      completions h opId ++ if event.operationId = opId then [⟨h.store.events.sequence + 1, event⟩]
        else [] := by
  simp [EventTable.push, completions, List.filter_cons]

theorem Sound.allowedPhase (hs : Sound h) {opId : String} {row : Row}
    (hrow : h.last opId = some row) (hphase : row.phase ≠ .finalized) :
    h.store.row = some row ∧ row.opId = opId ∧ row.phase ∈ Store.allowedPhase row.decision := by
  obtain ⟨hop, hcurrent | hfinal⟩ := hs.known opId row hrow
  · rcases (hs.current row hcurrent).2 with hfinal | hallowed
    · exact absurd hfinal hphase
    · exact ⟨hcurrent, hop, hallowed⟩
  · exact absurd hfinal hphase

theorem Sound.lawful (hs : Sound h) : Lawful h := by
  refine ⟨fun a b rowA rowB ha hb hphaseA hphaseB => ?_, hs.decided,
    fun opId row hrow hphase c hfence hcommit => ?_⟩
  · obtain ⟨hrowA, hopA, -⟩ := hs.allowedPhase ha hphaseA
    obtain ⟨hrowB, hopB, -⟩ := hs.allowedPhase hb hphaseB
    obtain rfl : rowA = rowB := Option.some.inj (hrowA.symm.trans hrowB)
    exact hopA.symm.trans hopB
  · obtain ⟨hcurrent, hop, hallowed⟩ := hs.allowedPhase hrow hphase
    refine fencedWrite_eq_ok.2 ⟨hfence, ?_, hcommit⟩
    simp only [rowOf_eq_some.2 ⟨hcurrent, hop⟩, hallowed, and_self, if_true]

theorem Sound.record_self (hs : Sound h) : h.record h.store = h := by
  obtain ⟨store, last⟩ := h
  unfold History.record
  cases hrow : store.row with
  | none => rfl
  | some row =>
    have hlast : last row.opId = some row := (hs.current row hrow).1
    rw [Option.elim_some, Function.update_eq_self_iff.2 hlast.symm]

theorem last_record {next : Store} {row : Row} (hrow : next.row = some row) (opId : String) :
    (h.record next).last opId = if opId = row.opId then some row else h.last opId := by
  simp [History.record, hrow, Function.update_apply]

theorem Sound.record (hs : Sound h) {next : Store} {row : Row} (hrow : next.row = some row)
    (hcoherent : Coherent row)
    (hcurrent : ∀ row', h.store.row = some row' → row'.phase = .finalized ∨ row'.opId = row.opId)
    (hother : ∀ opId, opId ≠ row.opId → completions (h.record next) opId = completions h opId)
    (hdecided : (completions (h.record next) row.opId).length =
      if row.decision = .forward then 1 else 0) : Sound (h.record next) := by
  refine ⟨fun row' hrow' => ?_, fun opId row' hlast => ?_, fun opId row' hlast => ?_⟩
  · obtain rfl : row = row' := Option.some.inj (hrow.symm.trans hrow')
    exact ⟨by rw [last_record hrow, if_pos rfl], hcoherent⟩
  · rw [last_record hrow] at hlast
    split_ifs at hlast with hop
    · obtain rfl : row = row' := Option.some.inj hlast
      exact ⟨hop.symm, .inl hrow⟩
    · obtain ⟨hkey, hold | hfinal⟩ := hs.known opId row' hlast
      · rcases hcurrent row' hold with hfinal | hsame
        · exact ⟨hkey, .inr hfinal⟩
        · exact absurd (hkey.symm.trans hsame) hop
      · exact ⟨hkey, .inr hfinal⟩
  · rw [last_record hrow] at hlast
    split_ifs at hlast with hop
    · obtain rfl : row = row' := Option.some.inj hlast
      rw [hop]
      exact hdecided
    · rw [hother opId hop]
      exact hs.decided opId row' hlast

theorem Sound.effect (hs : Sound h) {c : CallContext} {call : Call} {next : Store}
    (hallowed : Allowed h (.call c call)) (heffect : Effect h.store call next) :
    Sound (h.record next) ∧ StepLawful h (h.record next) (.ok ()) := by
  cases heffect with
  | same =>
    rw [hs.record_self]
    exact ⟨hs, ⟨fun _ _ => rfl, fun _ _ hrow _ => ⟨hrow, rfl⟩, fun _ row hrow =>
      ⟨row, hrow, .inl ⟨rfl, rfl⟩⟩⟩⟩
  | started start c hfree =>
    have hrow : (h.store.setRow (Store.freshRow c start)).row = some (Store.freshRow c start) := rfl
    have hnew : h.last start.opId = none ∧ completions h start.opId = [] := by
      rcases hallowed with hnew | ⟨row, hcurrent, hop⟩
      · exact hnew
      · exact absurd hop (hfree row hcurrent).2
    have hkeep : ∀ opId row, h.last opId = some row →
        (h.record (h.store.setRow (Store.freshRow c start))).last opId = some row := by
      intro opId row hlast
      rw [last_record hrow, if_neg, hlast]
      rintro rfl
      exact absurd (hnew.1.symm.trans hlast) (by simp)
    refine ⟨hs.record hrow (.inr (by simp [Store.freshRow, Store.allowedPhase]))
      (fun row hcurrent => .inl (hfree row hcurrent).1) (fun _ _ => rfl) ?_, fun _ herror => ?_,
      fun opId row hlast _ => ⟨hkeep opId row hlast, rfl⟩,
      fun opId row hlast => ⟨row, hkeep opId row hlast, .inl ⟨rfl, rfl⟩⟩⟩
    · show (completions h start.opId).length = 0
      rw [hnew.2]
      rfl
    · cases herror
  | advanced _ row next hrow hphase hstart hdecision hcoherent =>
    obtain ⟨hlast, hrowCoherent⟩ := hs.current row hrow
    have hop : next.opId = row.opId := congrArg Start.opId hstart
    have hnext : (h.store.setRow next).row = some next := rfl
    refine ⟨hs.record hnext (hcoherent hrowCoherent) (fun row' hrow' => .inr ?_)
      (fun _ _ => rfl) ?_,
      fun _ herror => ?_, fun opId row' hlast' hfinal => ⟨?_, rfl⟩, fun opId row' hlast' => ?_⟩
    · rw [hop, Option.some.inj (hrow'.symm.trans hrow)]
    · rw [hdecision, hop]
      exact hs.decided _ row hlast
    · cases herror
    · rw [last_record hnext, if_neg, hlast']
      rintro rfl
      rw [hop, hlast] at hlast'
      exact hphase (Option.some.inj hlast' ▸ hfinal)
    · by_cases hsame : opId = next.opId
      · refine ⟨next, by rw [last_record hnext, if_pos hsame], .inl ⟨?_, rfl⟩⟩
        rw [hsame, hop, hlast] at hlast'
        rw [hdecision, Option.some.inj hlast']
      · exact ⟨row', by rw [last_record hnext, if_neg hsame, hlast'], .inl ⟨rfl, rfl⟩⟩
  | committed row next event topic nowMs hrow hphase hdecision hstart hforward hcoherent hevent =>
    obtain ⟨hlast, -⟩ := hs.current row hrow
    have hop : next.opId = row.opId := congrArg Start.opId hstart
    set after : Store := ⟨some next, h.store.events.push event,
      h.store.outbox ++ [⟨event.eventId, topic, event.payload, nowMs⟩]⟩ with hafter
    have hnext : after.row = some next := rfl
    have hother : ∀ opId, opId ≠ row.opId →
        completions (h.record after) opId = completions h opId := by
      intro opId hne
      have hpush := completions_push h event opId
      rw [if_neg (by rw [hevent]; exact hne.symm), List.append_nil] at hpush
      exact hpush
    have hnone : (completions h row.opId).length = 0 := by
      simpa [hdecision] using hs.decided _ row hlast
    refine ⟨hs.record hnext hcoherent (fun row' hrow' => .inr ?_) (fun opId hne => ?_) ?_,
      fun _ herror => ?_, fun opId row' hlast' hfinal => ?_, fun opId row' hlast' => ?_⟩
    · rw [hop, Option.some.inj (hrow'.symm.trans hrow)]
    · exact hother opId (hop ▸ hne)
    · have hpush := completions_push h event row.opId
      rw [if_pos hevent] at hpush
      have hone : (completions (h.record after) row.opId).length = 1 := by
        rw [show completions (h.record after) row.opId = _ from hpush, List.length_append, hnone]
        rfl
      rw [hop, hone, hforward, if_pos rfl]
    · cases herror
    · have hne : opId ≠ row.opId := by
        rintro rfl
        exact hphase (Option.some.inj (hlast.symm.trans hlast') ▸ hfinal)
      exact ⟨by rw [last_record hnext, if_neg (hop ▸ hne), hlast'], hother opId hne⟩
    · by_cases hsame : opId = row.opId
      · obtain rfl : row = row' := Option.some.inj (hlast.symm.trans (hsame ▸ hlast'))
        exact ⟨next, by rw [last_record hnext, if_pos (hop ▸ hsame)], .inr ⟨hdecision, hforward,
          event, topic, nowMs, hevent.trans hsame.symm, rfl, rfl⟩⟩
      · exact ⟨row', by rw [last_record hnext, if_neg (hop ▸ hsame), hlast'],
          .inl ⟨rfl, hother opId hsame⟩⟩

theorem Sound.append (hs : Sound h) {event : DomainEvent} {entry : Option OutboxRow}
    (hallowed : Allowed h (.append event entry)) :
    Sound (h.append event entry) ∧ StepLawful h (h.append event entry) (.ok ()) := by
  have hkeep : ∀ opId row, h.last opId = some row →
      completions (h.append event entry) opId = completions h opId := by
    intro opId row hlast
    have hne : event.operationId ≠ opId := by
      rintro rfl
      exact absurd (hlast.symm.trans hallowed) (by simp)
    show (h.store.events.insertOrIgnore event).rows.filter _ = _
    unfold EventTable.insertOrIgnore
    split_ifs
    · rfl
    · exact (completions_push h event opId).trans (by rw [if_neg hne, List.append_nil])
  refine ⟨⟨hs.current, hs.known, fun opId row hlast => ?_⟩, fun _ herror => ?_,
    fun opId row hlast _ => ⟨hlast, hkeep opId row hlast⟩,
    fun opId row hlast => ⟨row, hlast, .inl ⟨rfl, hkeep opId row hlast⟩⟩⟩
  · rw [hkeep opId row hlast]
    exact hs.decided opId row hlast
  · cases herror

theorem Sound.step (hs : Sound h) {step : Step} (hallowed : Allowed h step) :
    Sound ((configApply applyDigest).call h step).1 ∧
      StepLawful h ((configApply applyDigest).call h step).1
        ((configApply applyDigest).call h step).2 := by
  cases step with
  | append event entry => exact hs.append hallowed
  | call c call =>
    simp only [configApply]
    split
    · exact ⟨hs, fun _ _ => rfl, fun _ _ hlast _ => ⟨hlast, rfl⟩,
        fun _ row hlast => ⟨row, hlast, .inl ⟨rfl, rfl⟩⟩⟩
    · next hnext => exact hs.effect hallowed (effect_apply hnext)

theorem sound_opened (events : EventTable) (outbox : List OutboxRow) :
    Sound (.opened events outbox) :=
  ⟨fun _ h => (nomatch h), fun _ _ h => (nomatch h), fun _ _ h => (nomatch h)⟩

/-- In every run that keeps to the rules on operation ids, every state is lawful, and so is every
step. -/
theorem config_apply_decides_once (applyDigest : String → String → String) (events : EventTable)
    (outbox : List OutboxRow) (steps : List Step)
    (h : (configApply applyDigest).Meets Allowed (.opened events outbox) steps) :
    (∀ before, before <+: steps →
        Lawful ((configApply applyDigest).final (.opened events outbox) before)) ∧
      ∀ before step, before ++ [step] <+: steps →
        let state := (configApply applyDigest).final (.opened events outbox) before
        StepLawful state ((configApply applyDigest).call state step).1
          ((configApply applyDigest).call state step).2 := by
  have hsound : ∀ before, before <+: steps →
      Sound ((configApply applyDigest).final (.opened events outbox) before) := by
    rintro before ⟨rest, rfl⟩
    refine (configApply applyDigest).final_invariant
      (fun s step hs hallowed => (hs.step hallowed).1)
      (sound_opened events outbox) (((configApply applyDigest).meets_append _ _ _ _).1 h).1
  refine ⟨fun before hbefore => (hsound before hbefore).lawful, fun before step hstep => ?_⟩
  have hs := hsound before ((List.prefix_append before [step]).trans hstep)
  obtain ⟨rest, rfl⟩ := hstep
  have hmeets := ((configApply applyDigest).meets_append _ _ _ _).1
    (((configApply applyDigest).meets_append _ _ _ _).1 h).1
  exact (hs.step hmeets.2.1).2

def zeroDigest : String := String.ofList (List.replicate 64 '0')

def sampleCalls : List Call :=
  [.beginRecovery ⟨"op", zeroDigest, zeroDigest, "[]", "[]", "null", "null", "before", zeroDigest,
      "[]", 0⟩,
    .markRuntimesApplied "op" ⟨"after", zeroDigest, "[]"⟩,
    .commitApply "op" ⟨"event", "config_applied", "world", "", "", none, "op", 0, 0, 1, "none"⟩
      "topic",
    .markRecoveryRequired "op" "restart", .finalizeApply "op" .forward]

/-- An apply that is interrupted after its commit and finished forward. -/
theorem config_apply_finished_forward :
    let steps := sampleCalls.map (Step.call ⟨0, .ok (), .ok ()⟩)
    let machine := configApply fun _ _ => zeroDigest
    (machine.final (.opened .empty []) steps).store.row.map (fun row => (row.phase, row.decision)) =
        some (.finalized, .forward) ∧
      (∀ before, before <+: steps → Lawful (machine.final (.opened .empty []) before)) := by
  intro steps machine
  have hallowed : machine.Meets Allowed (.opened .empty []) steps :=
    ⟨.inl ⟨rfl, rfl⟩, trivial, trivial, trivial, trivial, trivial⟩
  refine ⟨by decide +kernel, ?_⟩
  exact (config_apply_decides_once (fun _ _ => zeroDigest) .empty [] steps hallowed).1

end Law

end Sentinel.EventStore.ConfigApply

import Mathlib.Data.List.Nodup
import Mathlib.Data.List.TakeWhile
import Sentinel.EventStore.TimeMachine

/-! Bounded replay (`sentinel-daemon`, module `replay`): after the anchor snapshot is restored,
the inputs recorded between the anchor's cursor and the target event are fed again, tick by
tick, with the pressure band of each tick. The world that receives them is not part of the
model, only what each of its ticks is given. -/

namespace Sentinel.EventStore
open Lib List

/-! ## Recorded inputs -/

inductive ActionType
  | move | chat | toolUse | emote | phoneCall

inductive ChaosType
  | phoneRing | printerBroken | packageDelivery | sBahnDelay | fireAlarmDrill | cakeInKitchen
  | airConBroken | internetOutage

inductive RoomStimulusType
  | temperature | noise | co2

/-- What `serde_json` makes of a payload: a value, and its fields under the types they are
asked for. A number read as `f32` is given by its bits. -/
class PayloadJson where
  Value : Type
  fromStr : String → Option Value
  asStr : Value → String → Option String
  asU64 : Value → String → Option UInt64
  asBool : Value → String → Option Bool
  asF32 : Value → String → Option UInt32
  asChaosType : Value → String → Option ChaosType
  asStimulusType : Value → String → Option RoomStimulusType

structure AgentAction where
  agentId : UInt16
  actionType : ActionType
  targetRoom : Option String
  targetAgent : Option UInt16
  content : Option String
  timestamp : UInt64
  tick : UInt64

inductive OperatorCommand
  | chaos (eventId correlationId operationId roomId : String) (chaosType : ChaosType)
      (description : String) (durationTicks : Option UInt64)
  | roomStimulus (eventId correlationId operationId roomId : String)
      (stimulusType : RoomStimulusType) (delta : UInt32) (description : String)
      (durationTicks : Option UInt64)
  | gaia (targetAgentId : UInt16) (thought : String)
  | broadcast (message broadcastType : String)
  | dm (targetAgentId : UInt16) (message senderName : String)

inductive ReplayInput
  | action (action : AgentAction)
  | operator (command : OperatorCommand)

def ActionType.ofName : String → Option ActionType
  | "Move" => some .move
  | "Chat" => some .chat
  | "ToolUse" => some .toolUse
  | "Emote" => some .emote
  | "PhoneCall" => some .phoneCall
  | _ => none

section Replay

variable [PayloadJson]
open PayloadJson

def textField (v : Value) (key : String) : String := (asStr v key).getD ""

def agentIdOf (v : Value) (key : String) : UInt16 := ((asU64 v key).getD 0).toUInt16

def reconstructInput (e : DomainEvent) : Option ReplayInput := do
  let v ← fromStr e.payload
  match e.eventType with
  | "agent_action_received" =>
    let content := asStr v "content"
    if asStr v "source" = some "autonomy" ∨ content = some "autonomy:bio_emergency" then none
    else do
      let actionType ← ActionType.ofName (textField v "action_type")
      some (.action {
        agentId := agentIdOf v "agent_id", actionType, targetRoom := asStr v "target_room"
        targetAgent := none, content, timestamp := e.tick, tick := e.tick })
  | "chaos_triggered" => do
    let roomId ← asStr v "target_room"
    let chaosType ← asChaosType v "event_type"
    some (.operator (.chaos e.eventId e.correlationId e.operationId roomId chaosType
      (textField v "description") (asU64 v "duration_ticks")))
  | "room_stimulus_applied" => do
    let roomId ← asStr v "room_id"
    let stimulusType ← asStimulusType v "stimulus_type"
    some (.operator (.roomStimulus e.eventId e.correlationId e.operationId roomId stimulusType
      ((asF32 v "delta").getD 0) (textField v "description") (asU64 v "duration_ticks")))
  | "operator_gaia_sent" =>
    some (.operator (.gaia (agentIdOf v "target_agent_id") (textField v "thought")))
  | "operator_broadcast_sent" =>
    some (.operator (.broadcast (textField v "message") (textField v "broadcast_type")))
  | "operator_dm_sent" =>
    some (.operator (.dm (agentIdOf v "target_agent_id") (textField v "message")
      (textField v "sender_name")))
  | _ => none

def reconstructInputs (events : List DomainEvent) : List (UInt64 × ReplayInput) :=
  events.filterMap fun e => (reconstructInput e).map fun input => (e.tick, input)

/-! ## The pressure band -/

abbrev PsiBand := Bool × Bool

def psiCpuStressThreshold : ℕ := 50

def psiMemStressThreshold : ℕ := 70

def psiBandFromMetrics (metrics : ℕ × ℕ) : PsiBand :=
  (psiCpuStressThreshold < metrics.1, psiMemStressThreshold < metrics.2)

def psiBandChange (e : DomainEvent) : Option (UInt64 × PsiBand) :=
  if e.eventType ≠ "psi_band_changed" then none
  else (fromStr e.payload).map fun v =>
    (e.tick, (asBool v "cpu_above").getD false, (asBool v "mem_above").getD false)

def psiBandSchedule (events : List DomainEvent) : List (UInt64 × PsiBand) :=
  events.filterMap psiBandChange

def psiBandLoop (tick : UInt64) : PsiBand → List (UInt64 × PsiBand) → PsiBand
  | cur, [] => cur
  | cur, (bandTick, band) :: rest => if bandTick ≤ tick then psiBandLoop tick band rest else cur

def psiMetricsAt (bands : List (UInt64 × PsiBand)) (tick : UInt64) : ℕ × ℕ :=
  let cur := psiBandLoop tick (false, false) bands
  (if cur.1 then psiCpuStressThreshold + 1 else 0,
    if cur.2 then psiMemStressThreshold + 1 else 0)

/-! ## The replay loop -/

structure ReplayTick where
  tick : UInt64
  received : List ReplayInput
  psi : ℕ × ℕ

/-- `(anchor_tick + 1)..=target_tick`, in the arithmetic of a `u64`. -/
def replayTicks (anchorTick targetTick : UInt64) : List UInt64 :=
  (List.range' (anchorTick + 1).toNat (targetTick.toNat + 1 - (anchorTick + 1).toNat)).map
    UInt64.ofNat

def replayLoop (inputs : List (UInt64 × ReplayInput)) (bands : List (UInt64 × PsiBand))
    (ticks : List UInt64) : List ReplayTick :=
  ticks.map fun tick =>
    ⟨tick, (inputs.filter fun i => i.1 = tick).map Prod.snd, psiMetricsAt bands tick⟩

def runBoundedReplay (plan : RestoreReplayPlan) : List ReplayTick :=
  let events := plan.rows.map EventRow.event
  replayLoop (reconstructInputs events) (psiBandSchedule events)
    (replayTicks plan.anchorTick plan.targetTick)

/-! ## What a replay should feed -/

/-- The external inputs recorded for a tick after the cursor, in log order: all of them at a
tick before the target, and those up to the target event at the tick of the target. -/
def Timeline.recordedInputs (t : Timeline) (cursor : ℕ) (plan : RestoreReplayPlan)
    (tick : UInt64) : List ReplayInput :=
  (t.liveRows.filter fun r => cursor < r.id ∧ r.event.tick = tick ∧
    (tick < plan.targetTick ∨ r.id ≤ plan.targetEventId)).filterMap
      fun r => reconstructInput r.event

def lastBand (changes : List (UInt64 × PsiBand)) : PsiBand :=
  (changes.getLast?.map Prod.snd).getD (false, false)

def bandChanges (rows : List EventRow) : List (UInt64 × PsiBand) :=
  rows.filterMap fun r => psiBandChange r.event

def Timeline.liveBand (t : Timeline) (tick : UInt64) : PsiBand :=
  lastBand ((bandChanges t.liveRows).filter fun c => c.1 ≤ tick)

def RestoreReplayPlan.knownBand (plan : RestoreReplayPlan) (tick : UInt64) : PsiBand :=
  lastBand ((bandChanges plan.rows).takeWhile fun c => c.1 ≤ tick)

def Timeline.Fed (t : Timeline) (cursor : ℕ) (plan : RestoreReplayPlan) (tick : UInt64) : Prop :=
  ∃ given, (runBoundedReplay plan).filter (fun g => g.tick = tick) = [given] ∧
    given.received = t.recordedInputs cursor plan tick ∧
    psiBandFromMetrics given.psi = t.liveBand tick

/-- The last live change of the band at or before the tick. -/
structure Timeline.LastChange (t : Timeline) (tick : UInt64) (r : EventRow) (band : PsiBand) :
    Prop where
  live : r ∈ t.liveRows
  sets : psiBandChange r.event = some (r.event.tick, band)
  by_then : r.event.tick ≤ tick
  last : ∀ later ∈ t.liveRows, r.id < later.id → psiBandChange later.event ≠ none →
    tick < later.event.tick

def Timeline.InputsReached (t : Timeline) (cursor : ℕ) (plan : RestoreReplayPlan) : Prop :=
  ∀ r ∈ t.liveRows, cursor < r.id → plan.targetEventId < r.id →
    plan.anchorTick < r.event.tick → r.event.tick < plan.targetTick →
    reconstructInput r.event = none

def Timeline.OffAtCursor (t : Timeline) (cursor : ℕ) (plan : RestoreReplayPlan) : Prop :=
  ∀ tick r band, plan.anchorTick < tick → tick ≤ plan.targetTick → t.LastChange tick r band →
    r.id ≤ cursor → band = (false, false)

/-- No input of a tick before the target was recorded after the target event. The change that sets
the band of a tick lies in the replayed range, behind no change of a later tick, or it lies at or
below the cursor and sets the band off. -/
structure Timeline.Replayable (t : Timeline) (cursor : ℕ) (plan : RestoreReplayPlan) : Prop where
  inputs : t.InputsReached cursor plan
  off : t.OffAtCursor cursor plan
  reached : ∀ tick r band, plan.anchorTick < tick → tick ≤ plan.targetTick →
    t.LastChange tick r band → r.id ≤ plan.targetEventId
  ordered : ∀ tick r band, plan.anchorTick < tick → tick ≤ plan.targetTick →
    t.LastChange tick r band → ∀ earlier ∈ t.liveRows, cursor < earlier.id → earlier.id < r.id →
      psiBandChange earlier.event ≠ none → earlier.event.tick ≤ tick

/-! ## The law -/

omit [PayloadJson] in
theorem psiBandLoop_eq (tick : UInt64) (cur : PsiBand) (bands : List (UInt64 × PsiBand)) :
    psiBandLoop tick cur bands =
      ((bands.takeWhile fun c => c.1 ≤ tick).getLast?.map Prod.snd).getD cur := by
  induction bands generalizing cur with
  | nil => rfl
  | cons c rest ih =>
    obtain ⟨bandTick, band⟩ := c
    unfold psiBandLoop
    by_cases hle : bandTick ≤ tick
    · rw [if_pos hle, ih, takeWhile_cons_of_pos (by simpa using hle), getLast?_cons]
      cases (rest.takeWhile fun c => c.1 ≤ tick).getLast? <;> rfl
    · rw [if_neg hle, takeWhile_cons_of_neg (by simpa using hle)]
      rfl

omit [PayloadJson] in
theorem psiBandFromMetrics_psiMetricsAt (bands : List (UInt64 × PsiBand)) (tick : UInt64) :
    psiBandFromMetrics (psiMetricsAt bands tick) =
      lastBand (bands.takeWhile fun c => c.1 ≤ tick) := by
  have hloop : lastBand (bands.takeWhile fun c => c.1 ≤ tick) =
      psiBandLoop tick (false, false) bands := (psiBandLoop_eq tick (false, false) bands).symm
  rw [hloop]
  simp only [psiMetricsAt]
  generalize psiBandLoop tick (false, false) bands = band
  obtain ⟨cpu, mem⟩ := band
  cases cpu <;> cases mem <;> rfl

omit [PayloadJson] in
theorem filter_replayLoop {inputs : List (UInt64 × ReplayInput)}
    {bands : List (UInt64 × PsiBand)} {anchorTick targetTick tick : UInt64}
    (hanchor : anchorTick < tick) (htarget : tick ≤ targetTick) :
    (replayLoop inputs bands (replayTicks anchorTick targetTick)).filter
        (fun g => g.tick = tick) =
      [⟨tick, (inputs.filter fun i => i.1 = tick).map Prod.snd, psiMetricsAt bands tick⟩] := by
  have hnext : (anchorTick + 1).toNat = anchorTick.toNat + 1 := by
    have hlt := UInt64.lt_iff_toNat_lt.1 hanchor
    have hbound := tick.toNat_lt
    rw [UInt64.toNat_add, UInt64.toNat_one]
    omega
  have honly : (replayTicks anchorTick targetTick).filter (fun u => u = tick) = [tick] := by
    have hlow : (anchorTick + 1).toNat ≤ tick.toNat := by
      rw [hnext]
      exact UInt64.lt_iff_toNat_lt.1 hanchor
    have hhigh := UInt64.le_iff_toNat_le.1 htarget
    have hmem : tick.toNat ∈ List.range' (anchorTick + 1).toNat
        (targetTick.toNat + 1 - (anchorTick + 1).toNat) := by
      rw [mem_range'_1]
      omega
    have hsame : ∀ n ∈ List.range' (anchorTick + 1).toNat
        (targetTick.toNat + 1 - (anchorTick + 1).toNat),
        (decide (UInt64.ofNat n = tick)) = (n == tick.toNat) := by
      intro n hn
      have hbound := targetTick.toNat_lt
      rw [mem_range'_1] at hn
      have hsmall : n < 2 ^ 64 := by omega
      have hiff : UInt64.ofNat n = tick ↔ n = tick.toNat := by
        rw [← UInt64.toNat_inj, UInt64.toNat_ofNat_of_lt' hsmall]
      exact decide_eq_decide.2 hiff
    rw [replayTicks, filter_map, Function.comp_def, filter_congr hsame,
      filter_beq, count_eq_one_of_mem (nodup_range' ..) hmem]
    simp
  rw [replayLoop, filter_map, Function.comp_def, honly]
  rfl

theorem received_eq (rows : List EventRow) (tick : UInt64) :
    ((reconstructInputs (rows.map EventRow.event)).filter fun i => i.1 = tick).map Prod.snd =
      (rows.filter fun r => r.event.tick = tick).filterMap fun r => reconstructInput r.event := by
  rw [reconstructInputs, filter_filterMap, map_filterMap, filterMap_map, filterMap_filter]
  apply filterMap_congr
  intro r _
  by_cases htick : r.event.tick = tick
  all_goals cases hinput : reconstructInput r.event <;> simp [hinput, htick]

variable {t : Timeline} {cursor : ℕ} {plan : RestoreReplayPlan} {tick : UInt64}

theorem Timeline.recordedInputs_eq
    (hplan : plan.rows = t.rowsInRange cursor plan.targetEventId) :
    t.recordedInputs cursor plan tick =
      ((plan.rows.filter fun r => r.event.tick = tick).filterMap
        fun r => reconstructInput r.event) ++
      (t.liveRows.filter fun r => (cursor < r.id ∧ r.event.tick = tick ∧
        (tick < plan.targetTick ∨ r.id ≤ plan.targetEventId)) ∧ plan.targetEventId < r.id).filterMap
          fun r => reconstructInput r.event := by
  have hbefore : plan.rows.filter (fun r => r.event.tick = tick) =
      t.liveRows.filter fun r => (cursor < r.id ∧ r.event.tick = tick ∧
        (tick < plan.targetTick ∨ r.id ≤ plan.targetEventId)) ∧ r.id ≤ plan.targetEventId := by
    rw [hplan, Timeline.rowsInRange, filter_filter]
    apply filter_congr
    intro r _
    rw [← Bool.decide_and, decide_eq_decide]
    tauto
  rw [Timeline.recordedInputs, filter_eq_append t.sorted_liveRows _ plan.targetEventId,
    filterMap_append, hbefore]

theorem Timeline.fed_iff (hplan : plan.rows = t.rowsInRange cursor plan.targetEventId)
    (hanchor : plan.anchorTick < tick) (htarget : tick ≤ plan.targetTick) :
    t.Fed cursor plan tick ↔
      (∀ r ∈ t.liveRows, cursor < r.id → plan.targetEventId < r.id → r.event.tick = tick →
        tick < plan.targetTick → reconstructInput r.event = none) ∧
      t.liveBand tick = plan.knownBand tick := by
  have hbands : psiBandSchedule (plan.rows.map EventRow.event) = bandChanges plan.rows := by
    rw [psiBandSchedule, filterMap_map]
    rfl
  have hextra : ∀ a b : List ReplayInput, a = a ++ b ↔ b = [] := fun a b => by simp
  simp only [Timeline.Fed, runBoundedReplay, filter_replayLoop hanchor htarget, List.cons.injEq,
    and_true, exists_eq_left', received_eq, t.recordedInputs_eq hplan, hextra,
    psiBandFromMetrics_psiMetricsAt, hbands, filterMap_eq_nil_iff, mem_filter,
    decide_eq_true_eq]
  apply and_congr
  · constructor
    · exact fun h r hr hcursor hlate htick hlt => h r ⟨hr, ⟨hcursor, htick, .inl hlt⟩, hlate⟩
    · rintro h r ⟨hr, ⟨hcursor, htick, hlt⟩, hlate⟩
      exact h r hr hcursor hlate htick (hlt.resolve_right (Nat.not_le.2 hlate))
  · exact eq_comm

/-! ## The band of a tick -/

theorem psiBandChange_eq_some {e : DomainEvent} {c : UInt64 × PsiBand}
    (h : psiBandChange e = some c) : c.1 = e.tick := by
  unfold psiBandChange at h
  split_ifs at h
  obtain ⟨v, -, rfl⟩ := Option.map_eq_some_iff.1 h
  rfl

theorem mem_bandChanges {rows : List EventRow} {c : UInt64 × PsiBand}
    (h : c ∈ bandChanges rows) :
    ∃ r ∈ rows, psiBandChange r.event = some c ∧ r.event.tick = c.1 := by
  obtain ⟨r, hr, hc⟩ := mem_filterMap.1 h
  exact ⟨r, hr, hc, (psiBandChange_eq_some hc).symm⟩

variable {r : EventRow} {band : PsiBand} {before after : List EventRow}

theorem bandChanges_split (h : psiBandChange r.event = some (r.event.tick, band)) :
    bandChanges (before ++ r :: after) =
      bandChanges before ++ (r.event.tick, band) :: bandChanges after := by
  rw [bandChanges, filterMap_append, filterMap_cons, h]
  rfl

theorem later_of_mem_bandChanges {rows : List EventRow}
    (h : ∀ q ∈ rows, psiBandChange q.event ≠ none → tick < q.event.tick) :
    ∀ c ∈ bandChanges rows, ¬ decide (c.1 ≤ tick) = true := by
  intro c hc
  obtain ⟨q, hq, hchange, heq⟩ := mem_bandChanges hc
  have hlater := h q hq (by simp [hchange])
  simpa [← heq] using hlater

/-- Where the changes behind a row are all later than the tick, the row is the last to set its
band. -/
theorem lastBand_filter (hsets : psiBandChange r.event = some (r.event.tick, band))
    (htick : r.event.tick ≤ tick)
    (hafter : ∀ q ∈ after, psiBandChange q.event ≠ none → tick < q.event.tick) :
    lastBand ((bandChanges (before ++ r :: after)).filter fun c => c.1 ≤ tick) = band := by
  have hnone : (bandChanges after).filter (fun c => c.1 ≤ tick) = [] :=
    filter_eq_nil_iff.2 (later_of_mem_bandChanges hafter)
  rw [bandChanges_split hsets, filter_append, filter_cons, if_pos (by simpa using htick),
    hnone, lastBand, getLast?_concat]
  rfl

theorem takeWhile_bandChanges_eq_nil {rows : List EventRow}
    (h : ∀ q ∈ rows, psiBandChange q.event ≠ none → tick < q.event.tick) :
    (bandChanges rows).takeWhile (fun c => c.1 ≤ tick) = [] :=
  takeWhile_eq_nil_iff.2 fun _ => later_of_mem_bandChanges h _ (getElem_mem _)

/-- The loop of `psi_metrics_at` reaches the row when no change before it is later than the tick. -/
theorem lastBand_takeWhile (hsets : psiBandChange r.event = some (r.event.tick, band))
    (htick : r.event.tick ≤ tick)
    (hbefore : ∀ q ∈ before, psiBandChange q.event ≠ none → q.event.tick ≤ tick)
    (hafter : ∀ q ∈ after, psiBandChange q.event ≠ none → tick < q.event.tick) :
    lastBand ((bandChanges (before ++ r :: after)).takeWhile fun c => c.1 ≤ tick) = band := by
  have hall : ∀ c ∈ bandChanges before, decide (c.1 ≤ tick) = true := by
    intro c hc
    obtain ⟨q, hq, hchange, heq⟩ := mem_bandChanges hc
    exact decide_eq_true (heq ▸ hbefore q hq (by simp [hchange]))
  have hnone : (bandChanges after).takeWhile (fun c => c.1 ≤ tick) = [] :=
    takeWhile_bandChanges_eq_nil hafter
  rw [bandChanges_split hsets, takeWhile_append_of_pos hall,
    takeWhile_cons_of_pos (by simpa using htick), hnone, lastBand, getLast?_concat]
  rfl

theorem knownBand_off (h : ∀ r ∈ plan.rows, psiBandChange r.event ≠ none → tick < r.event.tick) :
    plan.knownBand tick = (false, false) := by
  rw [RestoreReplayPlan.knownBand, takeWhile_bandChanges_eq_nil h]
  rfl

theorem Timeline.LastChange.liveBand {r : EventRow} {band : PsiBand}
    (h : t.LastChange tick r band) : t.liveBand tick = band := by
  obtain ⟨before, after, hsplit⟩ := append_of_mem h.live
  have hsorted := t.sorted_liveRows
  rw [Timeline.liveBand]
  rw [hsplit] at hsorted ⊢
  refine lastBand_filter h.sets h.by_then fun q hq hchange => h.last q ?_ ?_ hchange
  · simp [hsplit, hq]
  · exact (pairwise_cons.1 (pairwise_append.1 hsorted).2.1).1 q hq

theorem Timeline.exists_lastChange (t : Timeline) (tick : UInt64) :
    (∃ r band, t.LastChange tick r band) ∨
      ∀ r ∈ t.liveRows, psiBandChange r.event ≠ none → tick < r.event.tick := by
  set changes := t.liveRows.filter fun r =>
    psiBandChange r.event ≠ none ∧ r.event.tick ≤ tick with hchanges
  have hmem : ∀ r, r ∈ changes ↔
      r ∈ t.liveRows ∧ psiBandChange r.event ≠ none ∧ r.event.tick ≤ tick := by
    simp [hchanges]
  rcases eq_nil_or_concat' changes with hnil | ⟨before, r, hlast⟩
  · refine .inr fun r hr hchange => UInt64.not_le.1 fun hle => ?_
    have hin := (hmem r).2 ⟨hr, hchange, hle⟩
    rw [hnil] at hin
    cases hin
  · obtain ⟨hlive, hchange, hle⟩ := (hmem r).1 (by simp [hlast])
    obtain ⟨⟨at_, band⟩, hsets⟩ := Option.ne_none_iff_exists'.1 hchange
    obtain rfl : at_ = r.event.tick := psiBandChange_eq_some hsets
    refine .inl ⟨r, band, hlive, hsets, hle, fun later hlater hid hchange' => ?_⟩
    refine UInt64.not_le.1 fun hle' => ?_
    have hin := (hmem later).2 ⟨hlater, hchange', hle'⟩
    have hsorted : changes.Pairwise fun a b => a.id < b.id := t.sorted_liveRows.filter _
    rw [hlast] at hin hsorted
    rcases mem_append.1 hin with hin | hin
    · exact absurd ((pairwise_append.1 hsorted).2.2 later hin r (by simp)) (by omega)
    · rw [mem_singleton.1 hin] at hid
      exact lt_irrefl _ hid

/-- A change at or below the cursor leaves none for the range. -/
theorem Timeline.LastChange.knownBand_off (h : t.LastChange tick r band)
    (hplan : plan.rows = t.rowsInRange cursor plan.targetEventId) (hid : r.id ≤ cursor) :
    plan.knownBand tick = (false, false) := by
  refine EventStore.knownBand_off fun q hq hchange => ?_
  rw [hplan, Timeline.rowsInRange, mem_filter, decide_eq_true_eq] at hq
  exact h.last q hq.1 (by omega) hchange

theorem Timeline.LastChange.knownBand (h : t.LastChange tick r band)
    (hplan : plan.rows = t.rowsInRange cursor plan.targetEventId) (hcursor : cursor < r.id)
    (htarget : r.id ≤ plan.targetEventId)
    (hordered : ∀ earlier ∈ t.liveRows, cursor < earlier.id → earlier.id < r.id →
      psiBandChange earlier.event ≠ none → earlier.event.tick ≤ tick) :
    plan.knownBand tick = band := by
  have hmem : ∀ q, q ∈ plan.rows ↔
      q ∈ t.liveRows ∧ cursor < q.id ∧ q.id ≤ plan.targetEventId := by
    simp [hplan, Timeline.rowsInRange]
  have hsorted : plan.rows.Pairwise fun a b => a.id < b.id := by
    rw [hplan]
    exact t.sorted_liveRows.filter _
  obtain ⟨before, after, hsplit⟩ := append_of_mem ((hmem r).2 ⟨h.live, hcursor, htarget⟩)
  rw [hsplit] at hmem hsorted
  obtain ⟨-, hlater, hearlier⟩ := pairwise_append.1 hsorted
  rw [RestoreReplayPlan.knownBand, hsplit]
  refine lastBand_takeWhile h.sets h.by_then (fun q hq hchange => ?_) fun q hq hchange => ?_
  · obtain ⟨hlive, hlow, -⟩ := (hmem q).1 (by simp [hq])
    exact hordered q hlive hlow (hearlier q hq r (by simp)) hchange
  · exact h.last q ((hmem q).1 (by simp [hq])).1 ((pairwise_cons.1 hlater).1 q hq) hchange

theorem Timeline.Replayable.bands (h : t.Replayable cursor plan)
    (hplan : plan.rows = t.rowsInRange cursor plan.targetEventId)
    (hanchor : plan.anchorTick < tick) (htarget : tick ≤ plan.targetTick) :
    t.liveBand tick = plan.knownBand tick := by
  rcases t.exists_lastChange tick with ⟨r, band, hlast⟩ | hnone
  · rw [hlast.liveBand]
    by_cases hid : r.id ≤ cursor
    · rw [hlast.knownBand_off hplan hid]
      exact h.off tick r band hanchor htarget hlast hid
    · exact (hlast.knownBand hplan (Nat.lt_of_not_le hid)
        (h.reached tick r band hanchor htarget hlast)
        (h.ordered tick r band hanchor htarget hlast)).symm
  · have hlive : (bandChanges t.liveRows).filter (fun c => c.1 ≤ tick) = [] :=
      filter_eq_nil_iff.2 (later_of_mem_bandChanges hnone)
    rw [EventStore.knownBand_off fun q hq => hnone q ?_, Timeline.liveBand, hlive]
    · rfl
    · rw [hplan] at hq
      exact (mem_filter.1 hq).1

/-- Every tick of an exact replay, after the anchor and up to the target, is given the external
inputs recorded for it after the anchor's cursor and the band that was in effect live, where no
input of an earlier tick lies behind the target event and every tick's band was set in the range or
is off. The conditions on the inputs and on changes below the cursor are necessary; a change that
the range does not tell can by chance set the band that the replay takes. -/
theorem bounded_replay_law (t : Timeline) (resolution : RestoreResolution)
    (snapshot : WorldSnapshot) (plan : RestoreReplayPlan)
    (hplan : t.replayPlan resolution snapshot = some plan) :
    (t.Replayable snapshot.lastEventId plan →
      ∀ tick, snapshot.tick < tick → tick ≤ plan.targetTick →
        t.Fed snapshot.lastEventId plan tick) ∧
    ((∀ tick, snapshot.tick < tick → tick ≤ plan.targetTick →
        t.Fed snapshot.lastEventId plan tick) →
      t.InputsReached snapshot.lastEventId plan ∧ t.OffAtCursor snapshot.lastEventId plan) := by
  have hrange : plan.rows = t.rowsInRange snapshot.lastEventId plan.targetEventId ∧
      plan.anchorTick = snapshot.tick := by
    unfold Timeline.replayPlan at hplan
    split at hplan
    · dsimp only at hplan
      split_ifs at hplan
      cases hplan
      exact ⟨rfl, rfl⟩
    · cases hplan
  obtain ⟨hrows, hanchor⟩ := hrange
  rw [← hanchor]
  constructor
  · intro h tick hlow hhigh
    refine (Timeline.fed_iff hrows hlow hhigh).2 ⟨?_, h.bands hrows hlow hhigh⟩
    rintro r hr hcursor htarget rfl hlt
    exact h.inputs r hr hcursor htarget hlow hlt
  · intro h
    refine ⟨fun r hr hcursor htarget hlow hhigh => ?_, fun tick r band hlow hhigh hlast hid => ?_⟩
    · have hfed := (Timeline.fed_iff hrows hlow (UInt64.le_of_lt hhigh)).1
        (h _ hlow (UInt64.le_of_lt hhigh))
      exact hfed.1 r hr hcursor htarget rfl hhigh
    · have hband := ((Timeline.fed_iff hrows hlow hhigh).1 (h tick hlow hhigh)).2
      rw [hlast.liveBand, hlast.knownBand_off hrows hid] at hband
      exact hband

end Replay

def bandPayload : String := "\x7b\"cpu_above\":true,\"mem_above\":true\x7d"

def broadcastPayload : String := "\x7b\"message\":\"Lunch\",\"broadcast_type\":\"info\"\x7d"

/-- What JSON makes of the two payloads; the other events of the samples have none. -/
@[reducible] def samplePayloads : PayloadJson where
  Value := String
  fromStr text := if text = bandPayload ∨ text = broadcastPayload then some text else none
  asStr v key :=
    if v ≠ broadcastPayload then none
    else if key = "message" then some "Lunch"
    else if key = "broadcast_type" then some "info"
    else none
  asU64 _ _ := none
  asBool v key := if v = bandPayload ∧ key ∈ ["cpu_above", "mem_above"] then some true else none
  asF32 _ _ := none
  asChaosType _ _ := none
  asStimulusType _ _ := none

attribute [local instance] samplePayloads

def bandEvent : DomainEvent :=
  { sampleEvent 1 1 with eventType := "psi_band_changed", payload := bandPayload }

def anchorAt (tick : UInt64) (lastEventId : ℕ) : WorldSnapshot :=
  ⟨0, worldSchemaVersion, tick, lastEventId, [], []⟩

def targetAt (tick : UInt64) (eventId : ℕ) : RestoreResolution :=
  ⟨0, some eventId, some tick, true, .event⟩

def broadcastLog : Timeline :=
  (Timeline.initial.append bandEvent).append
    { sampleEvent 2 1 with eventType := "operator_broadcast_sent", payload := broadcastPayload }

theorem broadcast_replayed :
    ∃ plan, broadcastLog.replayPlan (targetAt 1 2) (anchorAt 0 0) = some plan ∧
      broadcastLog.Fed 0 plan 1 ∧ broadcastLog.liveBand 1 = (true, true) := by
  refine ⟨_, rfl, (bounded_replay_law broadcastLog (targetAt 1 2) (anchorAt 0 0) _ rfl).1 ?_ 1
    (by decide) (by decide), by decide +kernel⟩
  have hids : ∀ r ∈ broadcastLog.liveRows, 0 < r.id ∧ r.id ≤ 2 := by decide +kernel
  have hfirst : ∀ r ∈ broadcastLog.liveRows, r.event.tick ≤ 1 := by decide +kernel
  refine ⟨fun r hr _ hlate => absurd hlate (Nat.not_lt.2 (hids r hr).2),
    fun tick r band _ _ hlast hid => ?_, fun tick r band _ _ hlast => (hids r hlast.live).2,
    fun tick r band hlow _ hlast earlier hearlier _ _ _ => ?_⟩
  · exact absurd hid (Nat.not_le.2 (hids r hlast.live).1)
  · refine UInt64.le_trans (hfirst earlier hearlier) ?_
    rw [UInt64.le_iff_toNat_le]
    exact UInt64.lt_iff_toNat_lt.1 hlow

def earlierBandLog : Timeline := (Timeline.initial.append bandEvent).append (sampleEvent 2 2)

/-- Tick 2 ran under high pressure and is replayed under none. -/
theorem band_before_anchor_lost :
    ∃ plan, earlierBandLog.replayPlan (targetAt 2 2) (anchorAt 1 1) = some plan ∧
      (runBoundedReplay plan).map (fun g => (g.tick, g.psi)) = [(2, 0, 0)] ∧
      earlierBandLog.liveBand 2 = (true, true) ∧ ¬ earlierBandLog.Fed 1 plan 2 := by
  refine ⟨_, rfl, by decide +kernel, by decide +kernel, ?_⟩
  rintro ⟨given, hgiven, -, hband⟩
  have hpsi : given.psi = (0, 0) := by
    have hall : ∀ g ∈ [given], g.psi = (0, 0) := by
      rw [← hgiven]
      decide +kernel
    exact hall given (mem_singleton.2 rfl)
  rw [hpsi] at hband
  revert hband
  decide +kernel

end Sentinel.EventStore

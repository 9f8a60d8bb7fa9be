import Mathlib.Data.List.Nodup
import Sentinel.EventStore.TimeMachine

/-! Branches of the event log under restores. A snapshot is on the live branch exactly as long
as its cursor lies in no dead interval, in every history of appends, snapshots and restores. -/

namespace Sentinel.EventStore
open Lib List

namespace Timeline

/-! ## What every history keeps -/

/-- The live events up to the cursor are those that were live at the capture, as long as the
cursor itself is live. -/
structure Anchored (t : Timeline) (s : WorldSnapshot) : Prop where
  cursor_le : s.lastEventId ≤ t.events.latestId
  cursor_mem : s.lastEventId = 0 ∨ s.lastEventId ∈ t.events.ids ∧ s.lastEventId ∈ s.liveIds
  liveIds_eq : s.lastEventId = 0 ∨ ¬ Covered t.deadRanges s.lastEventId →
    s.liveIds = visibleTo t.deadRanges t.events.ids s.lastEventId

structure Recorded (t : Timeline) : Prop where
  dead_le : ∀ r ∈ t.deadRanges, r.2 ≤ t.events.latestId
  ids_lt : ∀ s ∈ t.snapshots, s.snapshotId < t.snapshots.length
  ids_nodup : (t.snapshots.map WorldSnapshot.snapshotId).Nodup
  anchored : ∀ s ∈ t.snapshots, t.Anchored s

structure Sound (t : Timeline) : Prop extends t.Recorded where
  newest_live : ¬ Covered t.deadRanges t.events.latestId

variable {t : Timeline} {s : WorldSnapshot}

theorem latestId_le_sequence (t : Timeline) : t.events.latestId ≤ t.events.sequence := by
  rcases t.events.latestId_mem with hzero | hmem
  · omega
  · exact (EventTable.le_sequence hmem).2

theorem Recorded.next_live (h : t.Recorded) : ¬ Covered t.deadRanges (t.events.sequence + 1) := by
  rintro ⟨r, hr, -, hle⟩
  have hdead := h.dead_le r hr
  have hseq := t.latestId_le_sequence
  omega

theorem Anchored.liveIds_eq_iff (h : t.Anchored s) :
    s.liveIds = visibleTo t.deadRanges t.events.ids s.lastEventId ↔
      s.lastEventId = 0 ∨ ¬ Covered t.deadRanges s.lastEventId := by
  refine ⟨fun heq => ?_, h.liveIds_eq⟩
  rcases h.cursor_mem with hzero | ⟨-, hmem⟩
  · exact .inl hzero
  · rw [heq] at hmem
    exact .inr (mem_visibleTo.1 hmem).1.2

/-! ## Steps -/

variable {e : DomainEvent} {n : ℕ}

theorem append_of_fresh (hfresh : ¬ t.events.Clashes e) :
    t.append e = { t with
      events := t.events.push e, world := t.world ++ [t.events.sequence + 1] } :=
  if_neg hfresh

theorem Anchored.append (h : t.Anchored s) (hfresh : ¬ t.events.Clashes e) :
    (t.append e).Anchored s := by
  rw [append_of_fresh hfresh]
  have hseq := t.latestId_le_sequence
  have hlast := t.events.latestId_push e
  have hle := h.cursor_le
  have hmem : s.lastEventId = 0 ∨
      s.lastEventId ∈ (t.events.push e).ids ∧ s.lastEventId ∈ s.liveIds := by
    rw [t.events.ids_push]
    exact h.cursor_mem.imp_right fun hmem => ⟨mem_append_left _ hmem.1, hmem.2⟩
  refine ⟨by dsimp only; omega, hmem, fun hlive => ?_⟩
  -- the new id lies above the cursor
  have hnew : ∀ m ∈ [t.events.sequence + 1], s.lastEventId < m := by
    intro m hm
    rw [mem_singleton.1 hm]
    omega
  dsimp only
  rw [t.events.ids_push, visibleTo_append hnew]
  exact h.liveIds_eq hlive

theorem Recorded.append (h : t.Recorded) (hfresh : ¬ t.events.Clashes e) : (t.append e).Sound := by
  have hanchored : ∀ s ∈ t.snapshots, (t.append e).Anchored s :=
    fun s hs => (h.anchored s hs).append hfresh
  rw [append_of_fresh hfresh] at hanchored ⊢
  have hlast := t.events.latestId_push e
  refine ⟨⟨fun r hr => ?_, h.ids_lt, h.ids_nodup, hanchored⟩, ?_⟩
  · have hdead := h.dead_le r hr
    have hseq := t.latestId_le_sequence
    dsimp only
    omega
  · dsimp only
    rw [hlast]
    exact h.next_live

theorem Sound.append (h : t.Sound) : (t.append e).Sound := by
  by_cases hclash : t.events.Clashes e
  · rw [Timeline.append, if_pos hclash]
    exact h
  · exact h.toRecorded.append hclash

theorem Sound.capture_anchored (h : t.Sound) : t.Anchored t.capture := by
  have hle : ∀ m ∈ t.events.ids, m ≤ t.events.latestId := fun m hm => EventTable.le_latestId hm
  refine ⟨le_rfl, ?_, fun _ => (visibleTo_of_le hle).symm⟩
  rcases t.events.latestId_mem with hzero | hmem
  · exact .inl hzero
  · exact .inr ⟨hmem, mem_visible.2 ⟨hmem, h.newest_live⟩⟩

theorem Sound.createAndStore (h : t.Sound) : t.createAndStore.Sound := by
  refine ⟨⟨h.dead_le, fun s hs => ?_, ?_, fun s hs => ?_⟩, h.newest_live⟩
  · have hlen : t.createAndStore.snapshots.length = t.snapshots.length + 1 := by
      simp [Timeline.createAndStore]
    rw [hlen]
    rcases mem_append.1 hs with hs | hs
    · exact Nat.lt_succ_of_lt (h.ids_lt s hs)
    · rw [mem_singleton.1 hs]
      exact Nat.lt_succ_self _
  · have hnew : t.capture.snapshotId ∉ t.snapshots.map WorldSnapshot.snapshotId := by
      intro hmem
      obtain ⟨s, hs, heq⟩ := mem_map.1 hmem
      have hlt := h.ids_lt s hs
      rw [heq] at hlt
      exact absurd hlt (lt_irrefl _)
    simpa [Timeline.createAndStore, nodup_append, h.ids_nodup] using hnew
  · rcases mem_append.1 hs with hs | hs
    · have hold := h.anchored s hs
      exact ⟨hold.cursor_le, hold.cursor_mem, hold.liveIds_eq⟩
    · rw [mem_singleton.1 hs]
      have hnew := h.capture_anchored
      exact ⟨hnew.cursor_le, hnew.cursor_mem, hnew.liveIds_eq⟩

theorem Anchored.pushDeadRange {cut : ℕ} (h : t.Anchored s) :
    (t.pushDeadRange cut t.events.latestId).Anchored s := by
  unfold Timeline.pushDeadRange EventStore.pushDeadRange
  split_ifs with hempty
  · exact h
  · refine ⟨h.cursor_le, h.cursor_mem, fun hlive => ?_⟩
    have hle : s.lastEventId ≤ cut := by
      rcases hlive with hzero | hlive
      · omega
      · by_contra hcut
        exact hlive (covered_append_singleton.2 (.inr ⟨not_le.1 hcut, h.cursor_le⟩))
    dsimp only
    rw [visibleTo_push hle]
    refine h.liveIds_eq (hlive.imp_right fun hlive hcovered => hlive ?_)
    exact covered_append_singleton.2 (.inl hcovered)

theorem Recorded.pushDeadRange {cut : ℕ} (h : t.Recorded) :
    (t.pushDeadRange cut t.events.latestId).Recorded := by
  have hanchored : ∀ s ∈ t.snapshots, (t.pushDeadRange cut t.events.latestId).Anchored s :=
    fun s hs => (h.anchored s hs).pushDeadRange
  unfold Timeline.pushDeadRange EventStore.pushDeadRange at hanchored ⊢
  split_ifs at hanchored ⊢ with hempty
  · exact h
  · refine ⟨fun r hr => ?_, h.ids_lt, h.ids_nodup, hanchored⟩
    rcases mem_append.1 hr with hr | hr
    · exact h.dead_le r hr
    · rw [mem_singleton.1 hr]

theorem liveIds_pushDeadRange (t : Timeline) (cut : ℕ) :
    (t.pushDeadRange cut t.events.latestId).liveIds =
      visibleTo t.deadRanges t.events.ids cut := by
  have hle : ∀ m ∈ t.events.ids, m ≤ t.events.latestId := fun m hm => EventTable.le_latestId hm
  unfold Timeline.pushDeadRange EventStore.pushDeadRange
  split_ifs with hempty
  · exact (visibleTo_of_le fun m hm => (hle m hm).trans hempty).symm
  · exact visible_push hle

/-! ## A restore -/

def Targets (t : Timeline) (cmd : RestoreCommand) (eventId : ℕ) (tick : UInt64) : Prop :=
  match cmd.targetEventId with
  | some named => eventId = named ∧ ∃ r ∈ t.events.rows, r.id = named ∧ r.event.tick = tick
  | none => cmd.targetTick = some tick ∧
    (∃ r ∈ t.events.rows, r.id = eventId ∧ sqlInt r.event.tick ≤ sqlInt tick) ∧
    ∀ r ∈ t.events.rows, sqlInt r.event.tick ≤ sqlInt tick → r.id ≤ eventId

theorem maxEventIdAtTick_eq_some {tick : UInt64} (h : t.maxEventIdAtTick tick = some n) :
    (∃ r ∈ t.events.rows, r.id = n ∧ sqlInt r.event.tick ≤ sqlInt tick) ∧
      ∀ r ∈ t.events.rows, sqlInt r.event.tick ≤ sqlInt tick → r.id ≤ n := by
  obtain ⟨hmem, hmax⟩ := max?_eq_some_iff.1 h
  obtain ⟨r, hr, rfl⟩ := mem_map.1 hmem
  obtain ⟨hrow, htick⟩ := mem_filter.1 hr
  refine ⟨⟨r, hrow, rfl, by simpa using htick⟩, fun r' hr' htick' => hmax _ ?_⟩
  exact mem_map_of_mem (mem_filter.2 ⟨hr', by simpa using htick'⟩)

theorem resolveTargetEvent_eq_ok {listing : List WorldSnapshot} {tick : UInt64}
    {resolution : RestoreResolution} (h : t.resolveTargetEvent listing n tick = .ok resolution) :
    ∃ anchor, selectAnchorSnapshot listing tick n = some anchor ∧
      resolution.anchorSnapshotId = anchor.snapshotId ∧ resolution.targetEventId = some n := by
  unfold resolveTargetEvent at h
  split at h
  · cases h
  · rename_i anchor hanchor
    cases h
    exact ⟨anchor, hanchor, rfl, rfl⟩

theorem resolveRestoreTarget_eq_ok {listing : List WorldSnapshot} {cmd : RestoreCommand}
    {resolution : RestoreResolution} (h : t.resolveRestoreTarget listing cmd = .ok resolution)
    (htarget : resolution.targetEventId = some n) :
    ∃ tick anchor, t.Targets cmd n tick ∧ selectAnchorSnapshot listing tick n = some anchor ∧
      resolution.anchorSnapshotId = anchor.snapshotId := by
  unfold resolveRestoreTarget at h
  split at h
  · cases h
    cases htarget
  · rename_i named hsnapshot hnamed
    cases htick : t.getEventTick named with
    | none => rw [htick] at h; cases h
    | some tick =>
      rw [htick] at h
      obtain ⟨anchor, hanchor, hid, hn⟩ := resolveTargetEvent_eq_ok h
      obtain rfl : n = named := Option.some_inj.1 (htarget.symm.trans hn)
      refine ⟨tick, anchor, ?_, hanchor, hid⟩
      obtain ⟨r, hr, hrtick⟩ := Option.map_eq_some_iff.1 htick
      have hrow := mem_of_find?_eq_some hr
      have hrid : r.id = n := by simpa using find?_some hr
      simp only [Targets, hnamed]
      exact ⟨trivial, r, hrow, hrid, hrtick⟩
  · rename_i tick hsnapshot hnamed hcmdtick
    cases hmax : t.maxEventIdAtTick tick with
    | none =>
      rw [hmax] at h
      dsimp only at h
      split at h <;> cases h
      cases htarget
    | some last =>
      rw [hmax] at h
      obtain ⟨anchor, hanchor, hid, hn⟩ := resolveTargetEvent_eq_ok h
      obtain rfl : n = last := Option.some_inj.1 (htarget.symm.trans hn)
      refine ⟨tick, anchor, ?_, hanchor, hid⟩
      simp only [Targets, hnamed]
      exact ⟨hcmdtick, maxEventIdAtTick_eq_some hmax⟩
  · cases h

theorem Recorded.eq_of_snapshotId_eq (h : t.Recorded) {a b : WorldSnapshot}
    (ha : a ∈ t.snapshots) (hb : b ∈ t.snapshots) (hid : a.snapshotId = b.snapshotId) : a = b :=
  inj_on_of_nodup_map h.ids_nodup ha hb hid

theorem Recorded.load_eq (h : t.Recorded) (hs : s ∈ t.snapshots) :
    t.loadWorldSnapshot s.snapshotId = some s := by
  obtain ⟨s', hs'⟩ : ∃ s', t.loadWorldSnapshot s.snapshotId = some s' :=
    Option.isSome_iff_exists.1 (find?_isSome.2 ⟨s, hs, by simp⟩)
  have hid : s'.snapshotId = s.snapshotId := by simpa using find?_some hs'
  rw [hs', h.eq_of_snapshotId_eq (mem_of_find?_eq_some hs') hs hid]

def Restores (t : Timeline) (cmd : RestoreCommand) (listing : List WorldSnapshot)
    (replayFails : Bool) (snapshot : WorldSnapshot) (plan : Option RestoreReplayPlan) : Prop :=
  ∃ resolution, t.resolveRestoreTarget listing cmd = .ok resolution ∧
    t.loadWorldSnapshot resolution.anchorSnapshotId = some snapshot ∧
    t.createAndStore.replayPlan resolution snapshot = plan ∧ ¬ (plan.isSome ∧ replayFails)

section
variable {cmd : RestoreCommand} {listing : List WorldSnapshot} {replayFails : Bool}
  {stamp : DomainEvent} {snapshot : WorldSnapshot} {plan : Option RestoreReplayPlan}

theorem Restores.execute_eq (h : t.Restores cmd listing replayFails snapshot plan) :
    t.executeWorldRestoreTransfer cmd listing replayFails stamp =
      t.createAndStore.commitWorldRestoreStores snapshot plan stamp := by
  obtain ⟨resolution, hresolve, hload, rfl, hgo⟩ := h
  simp only [executeWorldRestoreTransfer, hresolve, hload]
  exact if_neg hgo

theorem execute_cases (t : Timeline) (cmd : RestoreCommand) (listing : List WorldSnapshot)
    (replayFails : Bool) (stamp : DomainEvent) :
    (∃ snapshot plan, t.Restores cmd listing replayFails snapshot plan) ∨
      t.executeWorldRestoreTransfer cmd listing replayFails stamp = t ∨
      t.executeWorldRestoreTransfer cmd listing replayFails stamp = t.createAndStore := by
  cases hresolve : t.resolveRestoreTarget listing cmd with
  | error _ => exact .inr (.inl (by simp only [executeWorldRestoreTransfer, hresolve]))
  | ok resolution =>
    cases hload : t.loadWorldSnapshot resolution.anchorSnapshotId with
    | none => exact .inr (.inl (by simp only [executeWorldRestoreTransfer, hresolve, hload]))
    | some snapshot =>
      by_cases hgo : (t.createAndStore.replayPlan resolution snapshot).isSome ∧ replayFails
      · right; right
        simp only [executeWorldRestoreTransfer, hresolve, hload]
        exact if_pos hgo
      · exact .inl ⟨snapshot, _, resolution, hresolve, hload, rfl, hgo⟩

theorem Restores.mem (h : t.Restores cmd listing replayFails snapshot plan) :
    snapshot ∈ t.snapshots := by
  obtain ⟨resolution, -, hload, -⟩ := h
  exact mem_of_find?_eq_some hload

theorem replayPlan_eq_some {resolution : RestoreResolution} {p : RestoreReplayPlan}
    (h : t.replayPlan resolution snapshot = some p) :
    resolution.targetEventId = some p.targetEventId ∧
      p.rows = t.rowsInRange snapshot.lastEventId p.targetEventId := by
  unfold replayPlan at h
  split at h
  · rename_i n tick hn htick
    dsimp only at h
    split_ifs at h
    cases h
    exact ⟨hn, rfl⟩
  · cases h

theorem Restores.replay (hsound : t.Sound) (hlisting : t.Lists listing) {p : RestoreReplayPlan}
    (h : t.Restores cmd listing replayFails snapshot (some p)) :
    snapshot.lastEventId ≤ p.targetEventId ∧
      p.rows = t.rowsInRange snapshot.lastEventId p.targetEventId := by
  obtain ⟨resolution, hresolve, hload, hplan, -⟩ := h
  obtain ⟨htarget, hrows⟩ := replayPlan_eq_some hplan
  obtain ⟨tick, anchor, -, hanchor, hid⟩ := resolveRestoreTarget_eq_ok hresolve htarget
  have hanchorMem : anchor ∈ t.snapshots :=
    hlisting.1.mem_iff.1 (mem_of_find?_eq_some hanchor)
  rw [hid, hsound.load_eq hanchorMem] at hload
  obtain rfl := Option.some_inj.1 hload
  have heligible : anchor.tick ≤ tick ∧ anchor.lastEventId ≤ p.targetEventId := by
    simpa using find?_some hanchor
  exact ⟨heligible.2, hrows⟩

def restorePoint (snapshot : WorldSnapshot) (plan : Option RestoreReplayPlan) : ℕ :=
  plan.elim snapshot.lastEventId RestoreReplayPlan.targetEventId

def putWorld (t : Timeline) (snapshot : WorldSnapshot) (plan : Option RestoreReplayPlan) :
    Timeline :=
  { t with
    world := snapshot.world ++ plan.elim [] fun p => p.rows.map EventRow.id
    restoreGeneration := t.restoreGeneration + 1
    tickCount := plan.elim snapshot.tick RestoreReplayPlan.targetTick }

theorem commit_eq (t : Timeline) (snapshot : WorldSnapshot) (plan : Option RestoreReplayPlan)
    (stamp : DomainEvent) :
    t.commitWorldRestoreStores snapshot plan stamp =
      ((t.putWorld snapshot plan).pushDeadRange (restorePoint snapshot plan)
        (t.putWorld snapshot plan).events.latestId).append
        (restoreEvent stamp snapshot.snapshotId
          (plan.elim snapshot.tick RestoreReplayPlan.targetTick)) := rfl

theorem Recorded.putWorld (h : t.Recorded) : (t.putWorld snapshot plan).Recorded := by
  refine ⟨h.dead_le, h.ids_lt, h.ids_nodup, fun s hs => ?_⟩
  obtain ⟨hle, hmem, hlive⟩ := h.anchored s hs
  exact ⟨hle, hmem, hlive⟩

theorem Recorded.liveIds_append {e : DomainEvent} (h : t.Recorded)
    (hfresh : ¬ t.events.Clashes e) :
    (t.append e).liveIds = t.liveIds ++ [t.events.sequence + 1] := by
  have hnew : visible t.deadRanges [t.events.sequence + 1] = [t.events.sequence + 1] := by
    simp [visible, h.next_live]
  rw [append_of_fresh hfresh, liveIds, liveIds]
  dsimp only
  rw [t.events.ids_push, visible_append, hnew]

theorem commit_fresh {cut hi snapshotId : ℕ} {tick : UInt64} (hfresh : ¬ t.events.Clashes stamp) :
    ¬ ((t.putWorld snapshot plan).pushDeadRange cut hi).events.Clashes
      (restoreEvent stamp snapshotId tick) := hfresh

theorem commit_sound (hsound : t.Sound) (hfresh : ¬ t.events.Clashes stamp) :
    (t.commitWorldRestoreStores snapshot plan stamp).Sound := by
  rw [commit_eq]
  exact hsound.toRecorded.putWorld.pushDeadRange.append (commit_fresh hfresh)

theorem commit_liveIds (hsound : t.Sound) (hfresh : ¬ t.events.Clashes stamp) :
    (t.commitWorldRestoreStores snapshot plan stamp).liveIds =
      visibleTo t.deadRanges t.events.ids (restorePoint snapshot plan) ++
        [t.events.sequence + 1] := by
  have hrecorded : (t.putWorld snapshot plan).Recorded := hsound.toRecorded.putWorld
  rw [commit_eq, hrecorded.pushDeadRange.liveIds_append (commit_fresh hfresh),
    liveIds_pushDeadRange]
  rfl

theorem commit_world (hfresh : ¬ t.events.Clashes stamp) :
    (t.commitWorldRestoreStores snapshot plan stamp).world =
      (snapshot.world ++ plan.elim [] fun p => p.rows.map EventRow.id) ++
        [t.events.sequence + 1] := by
  rw [commit_eq, append_of_fresh (commit_fresh hfresh)]
  rfl

theorem commit_ids (hfresh : ¬ t.events.Clashes stamp) :
    (t.commitWorldRestoreStores snapshot plan stamp).events.ids =
      t.events.ids ++ [t.events.sequence + 1] := by
  rw [commit_eq, append_of_fresh (commit_fresh hfresh)]
  exact EventTable.ids_push ..

theorem commit_snapshots (hfresh : ¬ t.events.Clashes stamp) :
    (t.commitWorldRestoreStores snapshot plan stamp).snapshots = t.snapshots := by
  rw [commit_eq, append_of_fresh (commit_fresh hfresh)]
  rfl

end

inductive Outcome (t : Timeline) : TimelineAction → Timeline → Prop where
  | unchanged {a} : Outcome t a t
  | advanceTick {a} : Outcome t a { t with tickCount := t.tickCount + 1 }
  | append {a} (e : DomainEvent) : Outcome t a (t.append e)
  | snapshot {a} : Outcome t a t.createAndStore
  | restored {cmd listing replayFails stamp snapshot plan} (hlisting : t.Lists listing)
      (hfresh : ¬ t.events.Clashes stamp)
      (hrestores : t.Restores cmd listing replayFails snapshot plan) :
      Outcome t (.restore cmd listing replayFails stamp)
        (t.createAndStore.commitWorldRestoreStores snapshot plan stamp)

theorem call_outcome (t : Timeline) (a : TimelineAction) :
    t.Outcome a (timelineMachine.call t a).1 := by
  cases a with
  | advanceTick => exact .advanceTick
  | append e => exact .append e
  | snapshot => exact .snapshot
  | restore cmd listing replayFails stamp =>
    dsimp only [timelineMachine]
    split_ifs with henabled
    · rcases t.execute_cases cmd listing replayFails stamp with
        ⟨snapshot, plan, hrestores⟩ | heq | heq
      · rw [hrestores.execute_eq]
        exact .restored henabled.1 henabled.2 hrestores
      · rw [heq]
        exact .unchanged
      · rw [heq]
        exact .snapshot
    · exact .unchanged

theorem Sound.tick (h : t.Sound) (tick : UInt64) : Sound { t with tickCount := tick } := by
  refine ⟨⟨h.dead_le, h.ids_lt, h.ids_nodup, fun s hs => ?_⟩, h.newest_live⟩
  obtain ⟨hle, hmem, hlive⟩ := h.anchored s hs
  exact ⟨hle, hmem, hlive⟩

theorem Sound.outcome {a : TimelineAction} {t' : Timeline} (h : t.Sound)
    (houtcome : t.Outcome a t') : t'.Sound := by
  cases houtcome with
  | unchanged => exact h
  | advanceTick => exact h.tick _
  | append e => exact h.append
  | snapshot => exact h.createAndStore
  | restored hlisting hfresh hrestores => exact commit_sound h.createAndStore hfresh

theorem initial_sound : initial.Sound := by
  refine ⟨⟨?_, ?_, ?_, ?_⟩, ?_⟩ <;> simp [initial, Covered]

theorem reached_sound (actions : List TimelineAction) :
    (timelineMachine.final initial actions).Sound :=
  timelineMachine.final_invariant' (fun t a h => h.outcome (t.call_outcome a)) initial_sound actions

end Timeline
end Sentinel.EventStore

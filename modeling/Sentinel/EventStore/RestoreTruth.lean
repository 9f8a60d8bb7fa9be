import Sentinel.EventStore.RestoreBranches

/-! Events served and world state. Restoring a snapshot of the live branch keeps the two
together; restoring any other one parts them. -/

namespace Sentinel.EventStore
open Lib

namespace Timeline

variable {t : Timeline}

/-! ## Events served and world -/

def worldRows (t : Timeline) : List EventRow := t.events.rows.filter fun r => r.id ∈ t.world

structure SameBranch (t : Timeline) : Prop where
  range : ∀ fromExclusive toInclusive, t.getEventsRange fromExclusive toInclusive =
    (t.worldRows.filter fun r => fromExclusive < r.id ∧ r.id ≤ toInclusive).map EventRow.event
  since : ∀ afterId limit, t.getEventsSince afterId limit =
    ((t.worldRows.filter fun r => afterId < r.id).take limit).map EventRow.event

theorem map_event_filter_ne_nil {rows : List EventRow} {n : ℕ} (hpos : 0 < n) :
    (rows.filter fun x => n - 1 < x.id ∧ x.id ≤ n).map EventRow.event ≠ [] ↔
      ∃ x ∈ rows, x.id = n := by
  rw [ne_eq, List.map_eq_nil_iff, List.filter_eq_nil_iff]
  simp only [decide_eq_true_eq, not_forall, not_not]
  constructor
  · rintro ⟨x, hx, hlo, hhi⟩
    exact ⟨x, hx, by omega⟩
  · rintro ⟨x, hx, hid⟩
    exact ⟨x, hx, by omega, by omega⟩

theorem sameBranch_iff :
    t.SameBranch ↔ ∀ r ∈ t.events.rows, ¬ Covered t.deadRanges r.id ↔ r.id ∈ t.world := by
  constructor
  · intro h r hr
    have hpos := (t.events.bounded r hr).1
    have hfilter : ∀ (P : ℕ → Prop) [DecidablePred P],
        (∃ x ∈ t.events.rows.filter fun x => P x.id, x.id = r.id) ↔ P r.id := by
      intro P _
      simp only [List.mem_filter, decide_eq_true_eq]
      constructor
      · rintro ⟨x, ⟨-, hx⟩, hid⟩
        exact hid ▸ hx
      · exact fun hP => ⟨r, ⟨hr, hP⟩, rfl⟩
    have hserved : t.getEventsRange (r.id - 1) r.id ≠ [] ↔ ¬ Covered t.deadRanges r.id :=
      (map_event_filter_ne_nil hpos).trans (hfilter fun n => ¬ Covered t.deadRanges n)
    rw [h.range, map_event_filter_ne_nil hpos] at hserved
    exact hserved.symm.trans (hfilter (· ∈ t.world))
  · intro h
    have hrows : t.liveRows = t.worldRows :=
      List.filter_congr fun r hr => decide_eq_decide.2 (h r hr)
    refine ⟨fun lo hi => ?_, fun afterId limit => ?_⟩
    · rw [getEventsRange, rowsInRange, hrows]
    · rw [getEventsSince, hrows]

structure Together (t : Timeline) : Prop extends t.Sound where
  world_eq : t.world = t.liveIds
  snapshot_world : ∀ s ∈ t.snapshots, s.world = s.liveIds

theorem Together.sameBranch (h : t.Together) : t.SameBranch := by
  refine sameBranch_iff.2 fun r hr => ?_
  have hid : r.id ∈ t.events.ids := EventTable.mem_ids.2 ⟨r, hr, rfl⟩
  rw [h.world_eq, liveIds, mem_visible]
  exact ⟨fun hlive => ⟨hid, hlive⟩, fun hlive => hlive.2⟩

theorem Together.append {e : DomainEvent} (h : t.Together) : (t.append e).Together := by
  by_cases hclash : t.events.Clashes e
  · rw [Timeline.append, if_pos hclash]
    exact h
  · refine ⟨h.toSound.append, ?_, ?_⟩
    · rw [h.liveIds_append hclash, append_of_fresh hclash, ← h.world_eq]
    · rw [append_of_fresh hclash]
      exact h.snapshot_world

theorem Together.createAndStore (h : t.Together) : t.createAndStore.Together := by
  refine ⟨h.toSound.createAndStore, h.world_eq, fun s hs => ?_⟩
  rcases List.mem_append.1 hs with hs | hs
  · exact h.snapshot_world s hs
  · rw [List.mem_singleton.1 hs]
    exact h.world_eq

theorem ids_rowsInRange (t : Timeline) (lo hi : ℕ) :
    (t.rowsInRange lo hi).map EventRow.id = t.liveIds.filter fun n => lo < n ∧ n ≤ hi := by
  simp only [rowsInRange, liveRows, liveIds, visible, EventTable.ids, List.filter_map,
    List.filter_filter, Function.comp_def]

theorem Together.commit {cmd : RestoreCommand} {listing : List WorldSnapshot}
    {replayFails : Bool} {stamp : DomainEvent} {snapshot : WorldSnapshot}
    {plan : Option RestoreReplayPlan} (h : t.Together) (hlisting : t.Lists listing)
    (hfresh : ¬ t.events.Clashes stamp)
    (hrestores : t.Restores cmd listing replayFails snapshot plan)
    (hlive : snapshot.lastEventId = 0 ∨ ¬ Covered t.deadRanges snapshot.lastEventId) :
    (t.createAndStore.commitWorldRestoreStores snapshot plan stamp).Together := by
  have hpre := h.createAndStore
  have hfresh : ¬ t.createAndStore.events.Clashes stamp := hfresh
  have hmem := hrestores.mem
  have hworld : snapshot.world =
      visibleTo t.deadRanges t.events.ids snapshot.lastEventId := by
    rw [h.snapshot_world _ hmem]
    exact (h.anchored _ hmem).liveIds_eq hlive
  have hincreasing : t.events.ids.Pairwise (· < ·) := List.pairwise_map.2 t.events.increasing
  refine ⟨commit_sound hpre.toSound hfresh, ?_, ?_⟩
  · rw [commit_liveIds hpre.toSound hfresh, commit_world hfresh, hworld]
    congr 1
    cases plan with
    | none => exact List.append_nil _
    | some p =>
      obtain ⟨hle, hrows⟩ := hrestores.replay h.toSound hlisting
      dsimp only [Option.elim, restorePoint]
      rw [hrows, ids_rowsInRange]
      exact visibleTo_append_between hincreasing hle
  · rw [commit_snapshots hfresh]
    exact hpre.snapshot_world

/-- The condition on a step: a restore that goes through starts from a snapshot whose cursor
event no earlier restore has marked dead. -/
def AnchorLive (t : Timeline) : TimelineAction → Prop
  | .restore cmd listing replayFails stamp =>
    t.Lists listing → ¬ t.events.Clashes stamp →
      ∀ snapshot plan, t.Restores cmd listing replayFails snapshot plan →
        snapshot.lastEventId = 0 ∨ ¬ Covered t.deadRanges snapshot.lastEventId
  | _ => True

theorem initial_together : initial.Together := ⟨initial_sound, rfl, by simp [initial]⟩

theorem Together.outcome {a : TimelineAction} {t' : Timeline} (h : t.Together)
    (ha : t.AnchorLive a) (houtcome : t.Outcome a t') : t'.Together := by
  cases houtcome with
  | unchanged => exact h
  | advanceTick => exact ⟨h.toSound.tick _, h.world_eq, h.snapshot_world⟩
  | append e => exact h.append
  | snapshot => exact h.createAndStore
  | restored hlisting hfresh hrestores =>
    exact h.commit hlisting hfresh hrestores (ha hlisting hfresh _ _ hrestores)

theorem Together.not_sameBranch (h : t.Together) (a : TimelineAction) (ha : ¬ t.AnchorLive a) :
    ¬ (timelineMachine.call t a).1.SameBranch := by
  cases a with
  | restore cmd listing replayFails stamp =>
    simp only [AnchorLive, not_forall, not_or, not_not] at ha
    obtain ⟨hlisting, hfresh, snapshot, plan, hrestores, hne, hcovered⟩ := ha
    have hmem := hrestores.mem
    have hfresh' : ¬ t.createAndStore.events.Clashes stamp := hfresh
    obtain ⟨hstored, hlive⟩ := (h.anchored _ hmem).cursor_mem.resolve_left hne
    rw [← h.snapshot_world _ hmem] at hlive
    dsimp only [timelineMachine]
    rw [if_pos ⟨hlisting, hfresh⟩, hrestores.execute_eq, sameBranch_iff]
    intro hsame
    have hid : snapshot.lastEventId ∈
        (t.createAndStore.commitWorldRestoreStores snapshot plan stamp).events.ids := by
      rw [commit_ids hfresh']
      exact List.mem_append_left _ hstored
    have hworld : snapshot.lastEventId ∈
        (t.createAndStore.commitWorldRestoreStores snapshot plan stamp).world := by
      rw [commit_world hfresh']
      exact List.mem_append_left _ (List.mem_append_left _ hlive)
    obtain ⟨r, hr, hrid⟩ := EventTable.mem_ids.1 hid
    have hserved : snapshot.lastEventId ∈
        (t.createAndStore.commitWorldRestoreStores snapshot plan stamp).liveIds :=
      mem_visible.2 ⟨hid, hrid ▸ (hsame r hr).2 (hrid ▸ hworld)⟩
    rw [commit_liveIds h.createAndStore.toSound hfresh'] at hserved
    rcases List.mem_append.1 hserved with hserved | hnew
    · exact (mem_visibleTo.1 hserved).1.2 hcovered
    · have hle := (EventTable.le_sequence hstored).2
      rw [List.mem_singleton.1 hnew] at hle
      exact absurd hle (Nat.not_succ_le_self _)
  | _ => exact absurd trivial ha

end Timeline

/-! ## Main results -/

/-- **Event truth and world state.** In a history of appends, snapshots and restores the served
events and the world are on one branch after every step exactly when every restore that goes
through starts from a snapshot with a live cursor. -/
theorem restores_keep_branch_iff (actions : List TimelineAction) :
    (∀ before, before <+: actions → (timelineMachine.final .initial before).SameBranch) ↔
      timelineMachine.Meets Timeline.AnchorLive .initial actions :=
  timelineMachine.forall_reached_iff_meets (fun _ h => h.sameBranch)
    (fun t a h ha => h.outcome ha (t.call_outcome a)) (fun _ a h => h.not_sameBranch a)
    Timeline.initial_together actions

/-- Back to the state before a restore: its automatic snapshot holds the effects of event 2,
which the first restore has marked dead for good. -/
def undoneRestore : List TimelineAction :=
  [.append (sampleEvent 1 0), .snapshot, .append (sampleEvent 2 0),
    .restore ⟨some 0, none, none⟩ [⟨0, 4, 0, 1, [1], [1]⟩] false (sampleEvent 3 0),
    .restore ⟨some 1, none, none⟩ [⟨0, 4, 0, 1, [1], [1]⟩, ⟨1, 4, 0, 2, [1, 2], [1, 2]⟩] false
      (sampleEvent 4 0)]

theorem undone_restore_hides_event :
    (timelineMachine.final .initial undoneRestore).world = [1, 2, 4] ∧
      (timelineMachine.final .initial undoneRestore).liveIds = [1, 4] ∧
      (timelineMachine.final .initial undoneRestore).getEventsRange 1 2 = [] ∧
      ¬ (timelineMachine.final .initial undoneRestore).SameBranch := by
  refine ⟨by decide +kernel, by decide +kernel, by decide +kernel, fun h => ?_⟩
  exact absurd (h.range 1 2) (by decide +kernel)

end Sentinel.EventStore

import Sentinel.EventStore.RestoreBranches

/-! Restore targets. The lookup of the target event and the choice of its anchor read raw ids
and ticks; they land on the live branch exactly when the event they name is live and no dead
snapshot comes first in the listing. -/

namespace Sentinel.EventStore
open Lib

namespace Timeline

variable {t : Timeline} {cmd : RestoreCommand} {listing : List WorldSnapshot}

/-- The events live when the snapshot was taken are the live events up to its cursor. -/
def OnLiveBranch (t : Timeline) (s : WorldSnapshot) : Prop :=
  s.liveIds = visibleTo t.deadRanges t.events.ids s.lastEventId

instance (t : Timeline) (s : WorldSnapshot) : Decidable (t.OnLiveBranch s) :=
  inferInstanceAs (Decidable (_ = _))

def LiveCursor (t : Timeline) (s : WorldSnapshot) : Prop :=
  s.lastEventId = 0 ∨ ¬ Covered t.deadRanges s.lastEventId

def NotAfter (n : ℕ) (tick : UInt64) (s : WorldSnapshot) : Prop :=
  s.tick ≤ tick ∧ s.lastEventId ≤ n

/-- The condition on the command and the listing: the event asked for is live, and every
snapshot with a dead cursor that is not after it comes behind one with a live cursor. -/
def TargetsLive (t : Timeline) (listing : List WorldSnapshot) (cmd : RestoreCommand) : Prop :=
  ∀ n tick, t.Targets cmd n tick → ¬ Covered t.deadRanges n ∧
    ∀ newer s older, listing = newer ++ s :: older → NotAfter n tick s → ¬ t.LiveCursor s →
      ∃ s' ∈ newer, NotAfter n tick s' ∧ t.LiveCursor s'

theorem row_eq_of_id_eq {a b : EventRow} (ha : a ∈ t.events.rows) (hb : b ∈ t.events.rows)
    (h : a.id = b.id) : a = b := by
  have hnodup : (t.events.rows.map EventRow.id).Nodup :=
    (List.pairwise_map.2 t.events.increasing).imp fun hlt => hlt.ne
  exact List.inj_on_of_nodup_map hnodup ha hb h

theorem Targets.unique {n n' : ℕ} {tick tick' : UInt64} (h : t.Targets cmd n tick)
    (h' : t.Targets cmd n' tick') : n = n' ∧ tick = tick' := by
  unfold Targets at h h'
  split at h
  · rename_i named hnamed
    rw [hnamed] at h'
    obtain ⟨rfl, r, hr, hid, rfl⟩ := h
    obtain ⟨rfl, r', hr', hid', rfl⟩ := h'
    rw [row_eq_of_id_eq hr hr' (hid.trans hid'.symm)]
    exact ⟨rfl, rfl⟩
  · rename_i hnamed
    rw [hnamed] at h'
    obtain ⟨htick, ⟨r, hr, rfl, hle⟩, hmax⟩ := h
    obtain ⟨htick', ⟨r', hr', rfl, hle'⟩, hmax'⟩ := h'
    obtain rfl : tick = tick' := Option.some_inj.1 (htick.symm.trans htick')
    exact ⟨le_antisymm (hmax' r hr hle) (hmax r' hr' hle'), rfl⟩

theorem liveCursor_select_iff {n : ℕ} {tick : UInt64} {anchor : WorldSnapshot}
    (h : selectAnchorSnapshot listing tick n = some anchor) :
    t.LiveCursor anchor ↔
      ∀ newer s older, listing = newer ++ s :: older → NotAfter n tick s → ¬ t.LiveCursor s →
        ∃ s' ∈ newer, NotAfter n tick s' ∧ t.LiveCursor s' := by
  obtain ⟨hanchor, before, after, rfl, hbefore⟩ := List.find?_eq_some_iff_append.1 h
  have hnotAfter : NotAfter n tick anchor := by simpa [NotAfter] using hanchor
  have hnone : ∀ s ∈ before, ¬ NotAfter n tick s := by
    rintro s hs ⟨htick, hcursor⟩
    simpa [htick, hcursor] using hbefore s hs
  constructor
  · intro hlive newer s older hsplit hs hdead
    -- the anchor stands before every other snapshot that is not after the target
    rcases List.append_eq_append_iff.1 hsplit with ⟨gap, rfl, hrest⟩ | ⟨gap, rfl, hrest⟩
    · cases gap <;> obtain ⟨rfl, -⟩ := List.cons.inj hrest
      · exact absurd hlive hdead
      · exact ⟨anchor, by simp, hnotAfter, hlive⟩
    · cases gap <;> obtain ⟨rfl, -⟩ := List.cons.inj hrest
      · exact absurd hlive hdead
      · exact absurd hs (hnone s (by simp))
  · intro hsplit
    by_contra hdead
    obtain ⟨s', hs', hnot, -⟩ := hsplit before anchor after rfl hnotAfter hdead
    exact hnone s' hs' hnot

theorem Sound.resolved_live_iff {resolution : RestoreResolution} {n : ℕ} (hsound : t.Sound)
    (hlisting : t.Lists listing) (hresolve : t.resolveRestoreTarget listing cmd = .ok resolution)
    (htarget : resolution.targetEventId = some n) :
    (¬ Covered t.deadRanges n ∧ ∃ anchor,
        t.loadWorldSnapshot resolution.anchorSnapshotId = some anchor ∧ t.OnLiveBranch anchor) ↔
      t.TargetsLive listing cmd := by
  obtain ⟨tick, anchor, htargets, hselect, hid⟩ := resolveRestoreTarget_eq_ok hresolve htarget
  have hmem : anchor ∈ t.snapshots := hlisting.1.mem_iff.1 (List.mem_of_find?_eq_some hselect)
  have hload : t.loadWorldSnapshot resolution.anchorSnapshotId = some anchor := by
    rw [hid]
    exact hsound.load_eq hmem
  have hanchor : (∃ a, t.loadWorldSnapshot resolution.anchorSnapshotId = some a ∧
      t.OnLiveBranch a) ↔ t.LiveCursor anchor := by
    rw [hload]
    constructor
    · rintro ⟨a, ha, hlive⟩
      obtain rfl := Option.some_inj.1 ha
      exact (hsound.anchored _ hmem).liveIds_eq_iff.1 hlive
    · exact fun hlive => ⟨anchor, rfl, (hsound.anchored _ hmem).liveIds_eq_iff.2 hlive⟩
  rw [hanchor, liveCursor_select_iff hselect]
  constructor
  · intro h n' tick' htargets'
    obtain ⟨rfl, rfl⟩ := htargets.unique htargets'
    exact h
  · exact fun h => h n tick htargets

end Timeline

/-! ## Main results -/

/-- **Restore targets.** In every history, a target that resolves is a live event with an
anchor on the live branch exactly when the command asks for a live event and the listing holds
no dead snapshot in front. -/
theorem resolved_target_live_iff (actions : List TimelineAction) (listing : List WorldSnapshot)
    (cmd : RestoreCommand) (resolution : RestoreResolution) (n : ℕ)
    (hlisting : (timelineMachine.final .initial actions).Lists listing)
    (hresolve : (timelineMachine.final .initial actions).resolveRestoreTarget listing cmd =
      .ok resolution)
    (htarget : resolution.targetEventId = some n) :
    (¬ Covered (timelineMachine.final .initial actions).deadRanges n ∧ ∃ anchor,
        (timelineMachine.final .initial actions).loadWorldSnapshot
          resolution.anchorSnapshotId = some anchor ∧
        (timelineMachine.final .initial actions).OnLiveBranch anchor) ↔
      (timelineMachine.final .initial actions).TargetsLive listing cmd :=
  (Timeline.reached_sound actions).resolved_live_iff hlisting hresolve htarget

theorem resolved_target_live_second_event :
    (timelineMachine.final .initial
      [.append (sampleEvent 1 0), .snapshot, .append (sampleEvent 2 0)]).TargetsLive
        [⟨0, 4, 0, 1, [1], [1]⟩] ⟨none, none, some 2⟩ :=
  (resolved_target_live_iff _ [⟨0, 4, 0, 1, [1], [1]⟩] ⟨none, none, some 2⟩
      ⟨0, some 2, some 0, true, .event⟩ 2 (by decide +kernel) rfl rfl).1
    ⟨by decide +kernel, ⟨0, 4, 0, 1, [1], [1]⟩, by decide +kernel, by decide +kernel⟩

/-- Event 2 and the snapshots at its tick are discarded by a restore; event 4 comes after it. -/
def forkedHistory : List TimelineAction :=
  [.append (sampleEvent 1 0), .snapshot, .advanceTick, .append (sampleEvent 2 1), .snapshot,
    .restore ⟨some 0, none, none⟩ [⟨1, 4, 1, 2, [1, 2], [1, 2]⟩, ⟨0, 4, 0, 1, [1], [1]⟩] false
      (sampleEvent 3 0),
    .append (sampleEvent 4 1)]

def forkedListing : List WorldSnapshot :=
  [⟨1, 4, 1, 2, [1, 2], [1, 2]⟩, ⟨2, 4, 1, 2, [1, 2], [1, 2]⟩, ⟨0, 4, 0, 1, [1], [1]⟩]

/-- The discarded event 2 resolves as a target, and a tick whose last event is live gets an
anchor of the discarded branch. -/
theorem forked_history_resolves_dead :
    (timelineMachine.final .initial forkedHistory).Lists forkedListing ∧
      (timelineMachine.final .initial forkedHistory).resolveRestoreTarget forkedListing
        ⟨none, none, some 2⟩ = .ok ⟨1, some 2, some 1, false, .tick⟩ ∧
      Covered (timelineMachine.final .initial forkedHistory).deadRanges 2 ∧
      (timelineMachine.final .initial forkedHistory).resolveRestoreTarget forkedListing
        ⟨none, some 1, none⟩ = .ok ⟨1, some 4, some 1, true, .event⟩ ∧
      (timelineMachine.final .initial forkedHistory).loadWorldSnapshot 1 =
        some ⟨1, 4, 1, 2, [1, 2], [1, 2]⟩ ∧
      ¬ (timelineMachine.final .initial forkedHistory).OnLiveBranch
        ⟨1, 4, 1, 2, [1, 2], [1, 2]⟩ :=
  ⟨by decide +kernel, rfl, by decide +kernel, rfl, by decide +kernel, by decide +kernel⟩

end Sentinel.EventStore

import Mathlib.Data.List.MinMax
import Sentinel.Lib.Intervals

/-! The `events` table of the event store (`sentinel-limbo`, module `event_store`). Row ids are
drawn from SQLite's `AUTOINCREMENT` sequence; `event_id` and `operation_id` are unique. The id
intervals of discarded futures are kept beside it until their events have been pruned. -/

namespace Sentinel.EventStore
open Lib List

structure DomainEvent where
  eventId : String
  eventType : String
  aggregateId : String
  payload : String
  correlationId : String
  causationId : Option String
  operationId : String
  tick : UInt64
  timestampMs : UInt64
  schemaVersion : UInt32
  compensationType : String
deriving DecidableEq

structure EventRow where
  id : ℕ
  event : DomainEvent
deriving DecidableEq

structure EventTable where
  rows : List EventRow
  sequence : ℕ
  increasing : rows.Pairwise fun a b => a.id < b.id
  bounded : ∀ r ∈ rows, 0 < r.id ∧ r.id ≤ sequence

theorem filter_eq_append {rows : List EventRow} (hrows : rows.Pairwise fun a b => a.id < b.id)
    (p : EventRow → Prop) [DecidablePred p] (last : ℕ) :
    rows.filter (fun r => p r) =
      rows.filter (fun r => p r ∧ r.id ≤ last) ++ rows.filter fun r => p r ∧ last < r.id := by
  induction rows with
  | nil => rfl
  | cons r rows ih =>
    obtain ⟨hfirst, hrest⟩ := pairwise_cons.1 hrows
    by_cases hid : r.id ≤ last
    · have hnot : ¬ last < r.id := Nat.not_lt.2 hid
      simp only [filter_cons, hid, hnot, and_true, and_false, ih hrest]
      by_cases hp : p r <;> simp [hp]
    · -- every later row is after the id too
      have hlate : ∀ q ∈ r :: rows, last < q.id := by
        intro q hq
        rcases mem_cons.1 hq with rfl | hq
        · exact Nat.lt_of_not_le hid
        · exact Nat.lt_trans (Nat.lt_of_not_le hid) (hfirst q hq)
      have hnone : (r :: rows).filter (fun q => p q ∧ q.id ≤ last) = [] := by
        rw [filter_eq_nil_iff]
        intro q hq
        have := hlate q hq
        simp only [decide_eq_true_eq, not_and]
        omega
      rw [hnone, nil_append]
      apply filter_congr
      intro q hq
      simp [hlate q hq]

namespace EventTable

def empty : EventTable := ⟨[], 0, .nil, by simp⟩

def ids (t : EventTable) : List ℕ := t.rows.map EventRow.id

/-- A row with this `event_id` or `operation_id` makes `INSERT OR IGNORE` do nothing. -/
def Clashes (t : EventTable) (e : DomainEvent) : Prop :=
  ∃ r ∈ t.rows, r.event.eventId = e.eventId ∨ r.event.operationId = e.operationId

instance (t : EventTable) (e : DomainEvent) : Decidable (t.Clashes e) :=
  inferInstanceAs (Decidable (∃ r ∈ t.rows, _))

def push (t : EventTable) (e : DomainEvent) : EventTable where
  rows := t.rows ++ [⟨t.sequence + 1, e⟩]
  sequence := t.sequence + 1
  increasing := by
    refine pairwise_append.2 ⟨t.increasing, pairwise_singleton _ _, fun a ha b hb => ?_⟩
    rw [mem_singleton.1 hb]
    exact Nat.lt_succ_of_le (t.bounded a ha).2
  bounded r hr := by
    rcases mem_append.1 hr with hr | hr
    · have hle := (t.bounded r hr).2
      exact ⟨(t.bounded r hr).1, hle.trans (Nat.le_succ _)⟩
    · rw [mem_singleton.1 hr]
      exact ⟨Nat.succ_pos _, le_rfl⟩

def insertOrIgnore (t : EventTable) (e : DomainEvent) : EventTable :=
  if t.Clashes e then t else t.push e

def delete (t : EventTable) (keep : EventRow → Bool) : EventTable where
  rows := t.rows.filter keep
  sequence := t.sequence
  increasing := t.increasing.filter _
  bounded r hr := t.bounded r (mem_filter.1 hr).1

/-- The rows that one `prune_batch` deletes. -/
def pruneSelection (t : EventTable) (deadRanges : List (ℕ × ℕ)) (cutoffEventId batchSize : ℤ) :
    List EventRow :=
  (t.rows.filter fun r => (r.id : ℤ) < cutoffEventId ∨ Covered deadRanges r.id).take
    batchSize.toNat

/-- The table and the dead ranges after a `prune_batch`: a range without events is dropped. -/
def pruneBatch (t : EventTable) (deadRanges : List (ℕ × ℕ)) (cutoffEventId batchSize : ℤ) :
    EventTable × List (ℕ × ℕ) :=
  let selected := t.pruneSelection deadRanges cutoffEventId batchSize
  let events := t.delete fun r => r ∉ selected
  (events, deadRanges.filter fun range =>
    events.rows.any fun r => range.1 < r.id ∧ r.id ≤ range.2)

def latestId (t : EventTable) : ℕ := t.ids.max?.getD 0

theorem mem_ids {t : EventTable} {n : ℕ} : n ∈ t.ids ↔ ∃ r ∈ t.rows, r.id = n := mem_map

theorem ids_push (t : EventTable) (e : DomainEvent) :
    (t.push e).ids = t.ids ++ [t.sequence + 1] := by
  simp [ids, push]

theorem le_sequence {t : EventTable} {n : ℕ} (h : n ∈ t.ids) : 0 < n ∧ n ≤ t.sequence := by
  obtain ⟨r, hr, rfl⟩ := mem_ids.1 h
  exact t.bounded r hr

theorem le_latestId {t : EventTable} {n : ℕ} (h : n ∈ t.ids) : n ≤ t.latestId := by
  unfold latestId
  cases hmax : t.ids.max? with
  | none =>
    rw [max?_eq_none_iff] at hmax
    rw [hmax] at h
    cases h
  | some m => exact (max?_eq_some_iff.1 hmax).2 n h

theorem latestId_mem (t : EventTable) : t.latestId = 0 ∨ t.latestId ∈ t.ids := by
  unfold latestId
  cases hmax : t.ids.max? with
  | none => exact .inl rfl
  | some m => exact .inr (max?_eq_some_iff.1 hmax).1

theorem latestId_push (t : EventTable) (e : DomainEvent) :
    (t.push e).latestId = t.sequence + 1 := by
  have hmem : t.sequence + 1 ∈ (t.push e).ids := by simp [ids_push]
  have hle := le_latestId hmem
  rcases (t.push e).latestId_mem with hzero | hlast
  · omega
  · have := (le_sequence hlast).2
    exact le_antisymm this hle

end EventTable

def pushDeadRange (deadRanges : List (ℕ × ℕ)) (fromExclusive toInclusive : ℕ) : List (ℕ × ℕ) :=
  if toInclusive ≤ fromExclusive then deadRanges
  else deadRanges ++ [(fromExclusive, toInclusive)]

theorem subset_pushDeadRange (deadRanges : List (ℕ × ℕ)) (lo hi : ℕ) :
    deadRanges ⊆ pushDeadRange deadRanges lo hi := by
  unfold pushDeadRange
  split
  · exact List.Subset.refl _
  · exact subset_append_left ..

end Sentinel.EventStore

import Mathlib.Data.String.Basic
import Sentinel.EventStore.EventTable
import Sentinel.Lib.Machine
import Sentinel.Lib.Table

/-! Retention of events (`sentinel-limbo`, module `event_store`; `sentinel-daemon`, module
`snapshot`). Whether events below a cutoff may go is asked once; they are then deleted in batches,
one every few ticks, while events are appended and published, projections move their offsets and
restores discard futures. -/

namespace Sentinel.EventStore.EventRetention
open Lib List

inductive OutboxStatus where
  | pending
  | published
deriving DecidableEq

structure OutboxRow where
  eventId : String
  topic : String
  status : OutboxStatus

structure RetentionStore where
  events : EventTable
  outbox : List OutboxRow
  offsets : Table String ℤ
  deadRanges : List (ℕ × ℕ)
  granted : List ℤ

namespace RetentionStore

def empty : RetentionStore := ⟨.empty, [], .empty, [], []⟩

variable (s : RetentionStore)

def Live (r : EventRow) : Prop := ¬ Covered s.deadRanges r.id

def Pending (r : EventRow) : Prop :=
  ∃ o ∈ s.outbox, o.eventId = r.event.eventId ∧ o.status = .pending

instance (r : EventRow) : Decidable (s.Live r) := inferInstanceAs (Decidable (¬ Covered _ _))

instance (r : EventRow) : Decidable (s.Pending r) :=
  inferInstanceAs (Decidable (∃ o ∈ s.outbox, _))

def append (e : DomainEvent) (topic : Option String) : RetentionStore :=
  if s.events.Clashes e then s
  else
    { s with
      events := s.events.push e
      outbox := s.outbox ++ (topic.map fun topic => ⟨e.eventId, topic, .pending⟩).toList }

def markPublished (eventId : String) : RetentionStore :=
  { s with
    outbox := s.outbox.map fun o =>
      if o.eventId = eventId then { o with status := .published } else o }

inductive OffsetUpdateDecision where
  | noop
  | reject
  | insertOrAdvance

def classifyOffsetUpdate (current : Option ℤ) (attempted : ℤ) : OffsetUpdateDecision :=
  match current with
  | some current =>
    if attempted < current then .reject
    else if attempted = current then .noop
    else .insertOrAdvance
  | none => .insertOrAdvance

def forceResetOffset (name : String) (offset : ℤ) : RetentionStore :=
  { s with offsets := s.offsets.insert name offset }

def updateOffset (name : String) (offset : ℤ) : RetentionStore :=
  match classifyOffsetUpdate (s.offsets.get name) offset with
  | .noop | .reject => s
  | .insertOrAdvance => s.forceResetOffset name offset

def resetOffset (name : String) : RetentionStore := { s with offsets := s.offsets.erase name }

def pushDeadRange (fromExclusive toInclusive : ℕ) : RetentionStore :=
  { s with deadRanges := EventStore.pushDeadRange s.deadRanges fromExclusive toInclusive }

def canPrune (cutoffEventId : ℤ) : Bool :=
  (s.offsets.values.min?.all fun min => cutoffEventId ≤ min) &&
    s.events.rows.all fun r => ¬ (s.Live r ∧ s.Pending r)

def pruneBatch (cutoffEventId batchSize : ℤ) : RetentionStore × ℕ :=
  if batchSize ≤ 0 then (s, 0)
  else
    let selected := s.events.pruneSelection s.deadRanges cutoffEventId batchSize
    let (events, deadRanges) := s.events.pruneBatch s.deadRanges cutoffEventId batchSize
    ({ s with
        events
        outbox := s.outbox.filter fun o => o.eventId ∉ selected.map (·.event.eventId)
        deadRanges },
      selected.length)

def pruneTick (cutoffEventId batchSize : ℤ) : RetentionStore :=
  if cutoffEventId ∈ s.granted then
    let next := s.pruneBatch cutoffEventId batchSize
    if next.2 = 0 then { next.1 with granted := next.1.granted.filter (· ≠ cutoffEventId) }
    else next.1
  else s

inductive Call where
  | append (e : DomainEvent) (topic : Option String)
  | markPublished (eventId : String)
  | updateOffset (name : String) (offset : ℤ)
  | forceResetOffset (name : String) (offset : ℤ)
  | resetOffset (name : String)
  | pushDeadRange (fromExclusive toInclusive : ℕ)
  | canPrune (cutoffEventId : ℤ)
  | pruneTick (cutoffEventId batchSize : ℤ)

def call : Call → RetentionStore
  | .append e topic => s.append e topic
  | .markPublished eventId => s.markPublished eventId
  | .updateOffset name offset => s.updateOffset name offset
  | .forceResetOffset name offset => s.forceResetOffset name offset
  | .resetOffset name => s.resetOffset name
  | .pushDeadRange fromExclusive toInclusive => s.pushDeadRange fromExclusive toInclusive
  | .canPrune cutoff => if s.canPrune cutoff then { s with granted := cutoff :: s.granted } else s
  | .pruneTick cutoff batchSize => s.pruneTick cutoff batchSize

end RetentionStore

open RetentionStore

def machine : Machine RetentionStore Call Unit where
  call s c := (s.call c, ())

/-- The careful calls: a cutoff lies below the next id, and while a cutoff is being worked on no
offset is first recorded or forced below it. -/
def Careful (s : RetentionStore) : Call → Prop
  | .canPrune cutoff => cutoff ≤ s.events.sequence + 1
  | .updateOffset name offset =>
    s.offsets.get name = none → ∀ cutoff ∈ s.granted, cutoff ≤ offset + 1
  | .forceResetOffset _ offset => ∀ cutoff ∈ s.granted, cutoff ≤ offset + 1
  | _ => True

instance (s : RetentionStore) : ∀ c, Decidable (Careful s c)
  | .canPrune cutoff => inferInstanceAs (Decidable (cutoff ≤ s.events.sequence + 1))
  | .updateOffset name _ =>
    inferInstanceAs (Decidable (s.offsets.get name = none → ∀ cutoff ∈ s.granted, _))
  | .forceResetOffset .. => inferInstanceAs (Decidable (∀ cutoff ∈ s.granted, _))
  | .append .. | .markPublished .. | .resetOffset .. | .pushDeadRange .. | .pruneTick .. =>
    .isTrue trivial

/-! ### Ids -/

structure Later (t u : EventTable) : Prop where
  rows : ∀ r ∈ u.rows, r ∈ t.rows ∨ t.sequence < r.id
  sequence : t.sequence ≤ u.sequence

theorem Later.refl (t : EventTable) : Later t t := ⟨fun _ hr => .inl hr, le_rfl⟩

theorem Later.trans {t u v : EventTable} (h : Later t u) (h' : Later u v) : Later t v where
  rows r hr := by
    rcases h'.rows r hr with hr | hr
    · exact h.rows r hr
    · exact .inr (h.sequence.trans_lt hr)
  sequence := h.sequence.trans h'.sequence

theorem later_push (t : EventTable) (e : DomainEvent) : Later t (t.push e) where
  rows r hr := by
    rcases mem_append.1 hr with hr | hr
    · exact .inl hr
    · rw [mem_singleton.1 hr]
      exact .inr (Nat.lt_succ_self _)
  sequence := Nat.le_succ _

theorem later_delete (t : EventTable) (keep : EventRow → Bool) : Later t (t.delete keep) where
  rows _ hr := .inl (mem_filter.1 hr).1
  sequence := le_rfl

variable {cutoff batchSize : ℤ} {r : EventRow}

theorem Later.eq_of_id_eq {t u : EventTable} (h : Later t u) {r' : EventRow} (hr : r ∈ t.rows)
    (hr' : r' ∈ u.rows) (hid : r.id = r'.id) : r = r' := by
  rcases h.rows r' hr' with hold | hnew
  · have hpairwise : t.rows.Pairwise fun a b => a.id ≠ b.id := t.increasing.imp fun hlt => hlt.ne
    exact inj_on_of_nodup_map (pairwise_map.2 hpairwise) hr hold hid
  · have hle := (t.bounded r hr).2
    omega

variable {s : RetentionStore}

theorem later_pruneBatch (s : RetentionStore) (cutoff batchSize : ℤ) :
    Later s.events (s.pruneBatch cutoff batchSize).1.events := by
  unfold pruneBatch
  split_ifs
  · exact .refl _
  · exact later_delete _ _

theorem later_call (s : RetentionStore) (c : Call) : Later s.events (s.call c).events := by
  cases c with
  | append e topic =>
    simp only [RetentionStore.call, append]
    split_ifs
    · exact .refl _
    · exact later_push _ e
  | updateOffset name offset =>
    simp only [RetentionStore.call, updateOffset]
    split <;> exact .refl _
  | canPrune cutoff =>
    simp only [RetentionStore.call]
    split_ifs <;> exact .refl _
  | pruneTick cutoff batchSize =>
    simp only [RetentionStore.call, pruneTick]
    split_ifs
    · exact later_pruneBatch s cutoff batchSize
    · exact later_pruneBatch s cutoff batchSize
    · exact .refl _
  | markPublished | forceResetOffset | resetOffset | pushDeadRange => exact .refl _

theorem later_final (s : RetentionStore) (calls : List Call) :
    Later s.events (machine.final s calls).events := by
  refine machine.final_invariant' (I := fun u => Later s.events u.events) (fun u c hu => ?_)
    (.refl _) calls
  exact hu.trans (later_call u c)

/-! ### Batches -/

theorem mem_pruneBatch (hr : r ∈ s.events.rows)
    (hgone : r ∉ (s.pruneBatch cutoff batchSize).1.events.rows) :
    (r.id : ℤ) < cutoff ∨ Covered s.deadRanges r.id := by
  unfold pruneBatch at hgone
  split_ifs at hgone
  · exact absurd hr hgone
  · have hselected : r ∈ s.events.pruneSelection s.deadRanges cutoff batchSize := by
      by_contra hnot
      exact hgone (mem_filter.2 ⟨hr, decide_eq_true hnot⟩)
    have hfiltered := mem_of_mem_take hselected
    exact of_decide_eq_true (mem_filter.1 hfiltered).2

theorem empty_of_dropped {range : ℕ × ℕ} (hrange : range ∈ s.deadRanges)
    (hgone : range ∉ (s.pruneBatch cutoff batchSize).1.deadRanges) :
    ∀ r ∈ (s.pruneBatch cutoff batchSize).1.events.rows, ¬ (range.1 < r.id ∧ r.id ≤ range.2) := by
  unfold pruneBatch at hgone ⊢
  split_ifs at hgone ⊢
  · exact absurd hrange hgone
  · intro r hr hin
    refine hgone (mem_filter.2 ⟨hrange, ?_⟩)
    exact any_eq_true.2 ⟨r, hr, decide_eq_true hin⟩

theorem live_pruneBatch (hr : r ∈ (s.pruneBatch cutoff batchSize).1.events.rows)
    (hlive : (s.pruneBatch cutoff batchSize).1.Live r) : s.Live r := by
  rintro ⟨range, hrange, hin⟩
  by_cases hkept : range ∈ (s.pruneBatch cutoff batchSize).1.deadRanges
  · exact hlive ⟨range, hkept, hin⟩
  · exact empty_of_dropped hrange hkept r hr hin

theorem pending_pruneBatch (h : (s.pruneBatch cutoff batchSize).1.Pending r) : s.Pending r := by
  unfold pruneBatch at h
  split_ifs at h
  · exact h
  · obtain ⟨o, ho, hpending⟩ := h
    exact ⟨o, (mem_filter.1 ho).1, hpending⟩

/-! ### Pruning stays justified -/

structure Justified (s : RetentionStore) (cutoff : ℤ) : Prop where
  assigned : cutoff ≤ s.events.sequence + 1
  offsets : ∀ name offset, s.offsets.get name = some offset → cutoff ≤ offset + 1
  settled : ∀ r ∈ s.events.rows, (r.id : ℤ) < cutoff → s.Live r → ¬ s.Pending r

def Inv (s : RetentionStore) : Prop := ∀ cutoff ∈ s.granted, Justified s cutoff

theorem justified_of_canPrune (hbelow : cutoff ≤ s.events.sequence + 1) (h : s.canPrune cutoff) :
    Justified s cutoff := by
  simp only [canPrune, Bool.and_eq_true] at h
  refine ⟨hbelow, ?_, ?_⟩
  · intro name offset hoffset
    have hmem : offset ∈ s.offsets.values := Table.mem_values_iff.2 ⟨name, hoffset⟩
    obtain ⟨least, hleast⟩ : ∃ least, s.offsets.values.min? = some least := by
      cases hmin : s.offsets.values.min? with
      | some least => exact ⟨least, rfl⟩
      | none =>
        rw [min?_eq_none_iff.1 hmin] at hmem
        cases hmem
    have hcutoff : cutoff ≤ least := by simpa [hleast] using h.1
    have hle : least ≤ offset := (min?_eq_some_iff.1 hleast).2 offset hmem
    omega
  · intro r hr _ hlive hpending
    have hclear := all_eq_true.1 h.2 r hr
    simp only [decide_eq_true_eq] at hclear
    exact hclear ⟨hlive, hpending⟩

theorem Justified.append (h : Justified s cutoff) (e : DomainEvent) (topic : Option String) :
    Justified (s.append e topic) cutoff := by
  unfold RetentionStore.append
  split_ifs with hclash
  · exact h
  refine ⟨?_, h.offsets, ?_⟩
  · have hassigned := h.assigned
    show cutoff ≤ ((s.events.sequence + 1 : ℕ) : ℤ) + 1
    omega
  · intro r hr hbelow hlive hpending
    rcases mem_append.1 hr with hold | hnew
    · refine h.settled r hold hbelow hlive ?_
      obtain ⟨o, ho, hevent, hstatus⟩ := hpending
      rcases mem_append.1 ho with ho | ho
      · exact ⟨o, ho, hevent, hstatus⟩
      · obtain ⟨topic', -, rfl⟩ := Option.map_eq_some_iff.1 (Option.mem_toList.1 ho)
        exact absurd ⟨r, hold, .inl hevent.symm⟩ hclash
    · rw [mem_singleton.1 hnew] at hbelow
      have hassigned := h.assigned
      push_cast at hbelow
      omega

theorem Justified.markPublished (h : Justified s cutoff) (eventId : String) :
    Justified (s.markPublished eventId) cutoff := by
  refine ⟨h.assigned, h.offsets, fun r hr hbelow hlive hpending => ?_⟩
  refine h.settled r hr hbelow hlive ?_
  obtain ⟨o, ho, hevent, hstatus⟩ := hpending
  obtain ⟨old, hold, rfl⟩ := mem_map.1 ho
  split_ifs at hevent hstatus
  exact ⟨old, hold, hevent, hstatus⟩

theorem Justified.forceResetOffset {offset : ℤ} (h : Justified s cutoff) (name : String)
    (hoffset : cutoff ≤ offset + 1) : Justified (s.forceResetOffset name offset) cutoff := by
  refine ⟨h.assigned, fun name' offset' hget => ?_, h.settled⟩
  rcases Table.get_of_insert hget with ⟨-, rfl⟩ | hget
  · exact hoffset
  · exact h.offsets name' offset' hget

theorem Justified.updateOffset (h : Justified s cutoff) (name : String) (offset : ℤ)
    (hfirst : s.offsets.get name = none → cutoff ≤ offset + 1) :
    Justified (s.updateOffset name offset) cutoff := by
  unfold RetentionStore.updateOffset classifyOffsetUpdate
  cases hcurrent : s.offsets.get name with
  | none => exact h.forceResetOffset name (hfirst hcurrent)
  | some current =>
    have hbound := h.offsets name current hcurrent
    by_cases hless : offset < current
    · simpa [hless] using h
    · by_cases heq : offset = current
      · simpa [heq] using h
      · simp only [hless, heq, if_false]
        exact h.forceResetOffset name (by omega)

theorem Justified.resetOffset (h : Justified s cutoff) (name : String) :
    Justified (s.resetOffset name) cutoff := by
  refine ⟨h.assigned, fun name' offset hget => ?_, h.settled⟩
  exact h.offsets name' offset (Table.get_of_erase hget)

theorem Justified.pushDeadRange (h : Justified s cutoff) (lo hi : ℕ) :
    Justified (s.pushDeadRange lo hi) cutoff := by
  refine ⟨h.assigned, h.offsets, fun r hr hbelow hlive => h.settled r hr hbelow ?_⟩
  rintro ⟨range, hrange, hin⟩
  exact hlive ⟨range, subset_pushDeadRange _ lo hi hrange, hin⟩

theorem Justified.pruneBatch (h : Justified s cutoff) (other batchSize : ℤ) :
    Justified (s.pruneBatch other batchSize).1 cutoff := by
  have hrows := later_pruneBatch s other batchSize
  have hsequence : (s.pruneBatch other batchSize).1.events.sequence = s.events.sequence := by
    unfold RetentionStore.pruneBatch
    split_ifs <;> rfl
  have hoffsets : (s.pruneBatch other batchSize).1.offsets = s.offsets := by
    unfold RetentionStore.pruneBatch
    split_ifs <;> rfl
  refine ⟨hsequence ▸ h.assigned, hoffsets ▸ h.offsets, ?_⟩
  intro r hr hbelow hlive hpending
  have hold : r ∈ s.events.rows := by
    refine (hrows.rows r hr).resolve_right fun hnew => ?_
    have hle := ((s.pruneBatch other batchSize).1.events.bounded r hr).2
    omega
  exact h.settled r hold hbelow (live_pruneBatch hr hlive) (pending_pruneBatch hpending)

theorem granted_pruneBatch (s : RetentionStore) (cutoff batchSize : ℤ) :
    (s.pruneBatch cutoff batchSize).1.granted = s.granted := by
  unfold pruneBatch
  split_ifs <;> rfl

theorem Inv.call (hs : Inv s) {c : Call} (hc : Careful s c) : Inv (s.call c) := by
  cases c with
  | append e topic =>
    intro cutoff hcutoff
    refine (hs cutoff ?_).append e topic
    simp only [RetentionStore.call, RetentionStore.append] at hcutoff
    split_ifs at hcutoff <;> exact hcutoff
  | markPublished eventId => exact fun cutoff hcutoff => (hs cutoff hcutoff).markPublished eventId
  | updateOffset name offset =>
    intro cutoff hcutoff
    have hgranted : cutoff ∈ s.granted := by
      simp only [RetentionStore.call, RetentionStore.updateOffset] at hcutoff
      split at hcutoff <;> exact hcutoff
    exact (hs cutoff hgranted).updateOffset name offset fun hnone => hc hnone cutoff hgranted
  | forceResetOffset name offset =>
    exact fun cutoff hcutoff => (hs cutoff hcutoff).forceResetOffset name (hc cutoff hcutoff)
  | resetOffset name => exact fun cutoff hcutoff => (hs cutoff hcutoff).resetOffset name
  | pushDeadRange lo hi => exact fun cutoff hcutoff => (hs cutoff hcutoff).pushDeadRange lo hi
  | canPrune cutoff =>
    simp only [RetentionStore.call]
    split_ifs with hcan
    · intro other hother
      rcases mem_cons.1 hother with rfl | hother
      · exact { justified_of_canPrune hc hcan with }
      · exact { hs other hother with }
    · exact hs
  | pruneTick cutoff batchSize =>
    simp only [RetentionStore.call, pruneTick]
    split_ifs with hgranted hdone
    · intro other hother
      have hmem : other ∈ s.granted := by
        rw [← granted_pruneBatch s cutoff batchSize]
        exact (mem_filter.1 hother).1
      exact { (hs other hmem).pruneBatch cutoff batchSize with }
    · intro other hother
      rw [granted_pruneBatch] at hother
      exact (hs other hother).pruneBatch cutoff batchSize
    · exact hs

/-- **Event retention.** In every run of careful calls, no batch of a cutoff that was found safe
deletes a live row that waits in the outbox or lies above an offset. In every run at all, a dead
range is dropped only when its interval holds no row, and an id never names two events. -/
theorem retention_safe (calls : List Call) :
    let s := machine.final .empty calls
    (machine.Meets Careful .empty calls → ∀ cutoff ∈ s.granted, ∀ batchSize, ∀ r ∈ s.events.rows,
      r ∉ (s.pruneBatch cutoff batchSize).1.events.rows → s.Live r →
        ¬ s.Pending r ∧ ∀ name offset, s.offsets.get name = some offset → (r.id : ℤ) ≤ offset) ∧
    (∀ c, ∀ range ∈ s.deadRanges, range ∉ (s.call c).deadRanges →
      ∀ r ∈ (s.call c).events.rows, ¬ (range.1 < r.id ∧ r.id ≤ range.2)) ∧
    ∀ more, ∀ r ∈ s.events.rows, ∀ r' ∈ (machine.final s more).events.rows,
      r.id = r'.id → r = r' := by
  intro s
  refine ⟨?_, ?_, ?_⟩
  · intro hmeets cutoff hcutoff batchSize r hr hgone hlive
    have hinv : Inv s := machine.final_invariant (fun s c hs hc => hs.call hc)
      (fun cutoff hcutoff => absurd hcutoff not_mem_nil) hmeets
    have hjust := hinv cutoff hcutoff
    have hbelow : (r.id : ℤ) < cutoff := (mem_pruneBatch hr hgone).resolve_right hlive
    refine ⟨hjust.settled r hr hbelow hlive, fun name offset hoffset => ?_⟩
    have hcovered := hjust.offsets name offset hoffset
    omega
  · intro c range hrange hgone
    cases c with
    | pruneTick cutoff batchSize =>
      simp only [RetentionStore.call, pruneTick] at hgone ⊢
      split_ifs at hgone ⊢
      · exact empty_of_dropped hrange hgone
      · exact empty_of_dropped hrange hgone
      · exact absurd hrange hgone
    | append e topic =>
      simp only [RetentionStore.call, RetentionStore.append] at hgone
      split_ifs at hgone <;> exact absurd hrange hgone
    | updateOffset name offset =>
      simp only [RetentionStore.call, RetentionStore.updateOffset] at hgone
      split at hgone <;> exact absurd hrange hgone
    | pushDeadRange lo hi =>
      exact absurd (subset_pushDeadRange s.deadRanges lo hi hrange) hgone
    | canPrune cutoff =>
      simp only [RetentionStore.call] at hgone
      split_ifs at hgone <;> exact absurd hrange hgone
    | markPublished | forceResetOffset | resetOffset => exact absurd hrange hgone
  · intro more r hr r' hr' hid
    exact (later_final s more).eq_of_id_eq hr hr' hid

/-! ### A run that retention does not survive -/

def sampleEvent (n : String) : DomainEvent :=
  ⟨n, "tick", "world", "null", n, none, n, 1, 1, 1, "none"⟩

def sampleCalls : List Call :=
  [.append (sampleEvent "a") (some "world"), .append (sampleEvent "b") (some "world"),
    .append (sampleEvent "c") (some "world"), .markPublished "a", .markPublished "b",
    .markPublished "c", .updateOffset "world" 3, .canPrune 3]

def grantedState : RetentionStore := machine.final .empty sampleCalls

theorem sampleCalls_careful : machine.Meets Careful .empty sampleCalls := by
  decide +kernel

theorem sampleCalls_pruned :
    machine.Meets Careful .empty sampleCalls ∧ (grantedState.pruneBatch 3 500).2 = 2 ∧
      ∀ r ∈ grantedState.events.rows, r ∉ (grantedState.pruneBatch 3 500).1.events.rows →
        grantedState.Live r → ¬ grantedState.Pending r := by
  have hgranted : (3 : ℤ) ∈ grantedState.granted := by decide +kernel
  refine ⟨sampleCalls_careful, by decide +kernel, fun r hr hgone hlive => ?_⟩
  exact ((retention_safe sampleCalls).1 sampleCalls_careful 3 hgranted 500 r hr hgone hlive).1

/-- A projection that records its first offset after the cutoff was found safe loses the event it
would read next. -/
theorem late_offset_pruned :
    let s := machine.final .empty (sampleCalls ++ [.updateOffset "relations" 1])
    (3 : ℤ) ∈ s.granted ∧ s.offsets.get "relations" = some 1 ∧
      ∃ r ∈ s.events.rows, r.id = 2 ∧ s.Live r ∧ r ∉ (s.pruneBatch 3 500).1.events.rows := by
  decide +kernel

end Sentinel.EventStore.EventRetention

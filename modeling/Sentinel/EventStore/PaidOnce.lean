import Sentinel.EventStore.CompletionSteps

/-! A paid request is executed at most once. From its reservation on, a request has either its
row or a marker among the events; the result holds along every run that does not take the
marker away and does not release actions without it. -/

namespace Sentinel.EventStore
open Lib

/-! ## Markers -/

namespace EventTable

variable {t : EventTable} {e : DomainEvent} {op : String}

theorem hasOperation_push :
    (t.push e).HasOperation op ↔ t.HasOperation op ∨ e.operationId = op := by
  simp [HasOperation, push, or_and_right, exists_or]

theorem HasOperation.insertOrIgnore (h : t.HasOperation op) :
    (t.insertOrIgnore e).HasOperation op := by
  unfold EventTable.insertOrIgnore
  split_ifs with hclash
  · exact h
  · exact hasOperation_push.2 (.inl h)

theorem hasOperation_insertOrIgnore
    (h : ∀ r ∈ t.rows, r.event.eventId = e.eventId → r.event.operationId = e.operationId) :
    (t.insertOrIgnore e).HasOperation e.operationId := by
  unfold EventTable.insertOrIgnore
  split_ifs with hclash
  · obtain ⟨r, hr, hid | hop⟩ := hclash
    · exact ⟨r, hr, h r hr hid⟩
    · exact ⟨r, hr, hop⟩
  · exact hasOperation_push.2 (.inr rfl)

theorem HasOperation.delete {keep : EventRow → Bool} (h : t.HasOperation op)
    (hkeep : ∀ r ∈ t.rows, r.event.operationId = op → keep r) :
    (t.delete keep).HasOperation op := by
  obtain ⟨r, hr, hop⟩ := h
  exact ⟨r, List.mem_filter.2 ⟨hr, hkeep r hr hop⟩, hop⟩

end EventTable

def isSpentMarker (operationId : String) : Bool :=
  "llm_usage_".toList.isPrefixOf operationId.toList ||
    "llm_resolution_".toList.isPrefixOf operationId.toList

theorem isSpentMarker_usage (id : String) : isSpentMarker (usageOperation id) :=
  Bool.or_eq_true_iff.2 (.inl (isPrefixOf_append _ id))

theorem isSpentMarker_resolution (id : String) : isSpentMarker (resolutionOperation id) :=
  Bool.or_eq_true_iff.2 (.inr (isPrefixOf_append _ id))

namespace CompletionStore

/-- The condition on a call: the usage event carries the request's own operation id under an
unused event id, a failed response is requeued only when its usage is recorded, a resolution
draws an unused event id, and retention leaves the markers alone. -/
def KeepsMarkers (s : CompletionStore) (a : CallContext × CompletionCall) : Prop :=
  match a.2 with
  | .persistUsage id _ event =>
    (∃ entry, s.completions.get id = some entry ∧ entry.status = .pendingUsage) →
      event.operationId = usageOperation id ∧
        ∀ r ∈ s.events.rows, r.event.eventId = event.eventId →
          r.event.operationId = event.operationId
  | .requeue id _ _ =>
    (∃ entry, s.completions.get id = some entry ∧ entry.status = .failed ∧
      entry.payload ≠ "") → s.events.HasOperation (usageOperation id)
  | .resolve _ _ _ => ∀ r ∈ s.events.rows, r.event.eventId ≠ a.1.freshId
  | .prune cutoff batch =>
    ∀ r ∈ s.events.pruneSelection s.deadRanges cutoff batch, ¬ isSpentMarker r.event.operationId
  | _ => True

/-- A request that has been reserved: without a row it is marked as spent, and actions are
ready or claimed only when the usage is recorded. -/
structure Tracked (s : CompletionStore) (id : String) : Prop where
  spent : s.completions.get id = none → s.AlreadyFinal id
  recorded : ∀ entry, s.completions.get id = some entry →
    entry.status = .readyForAction ∨ entry.status = .actionClaimed →
      s.events.HasOperation (usageOperation id)

def Taken (s : CompletionStore) (id : String) : Prop :=
  ∀ entry, s.completions.get id = some entry → entry.status = .actionClaimed

variable {s s' : CompletionStore} {id : String} {a : CallContext × CompletionCall}
  {reply : Except String CompletionReply}

/-! ## Answers -/

abbrev Answered := (CallContext × CompletionCall) × Except String CompletionReply

def Reserves (id : String) (x : Answered) : Prop :=
  (∃ digest agentId, x.1.2 = .reserve id digest agentId) ∧ x.2 = .ok (.flag true)

def Releases (id : String) (x : Answered) : Prop :=
  (∃ digest, x.1.2 = .release id digest) ∧ x.2 = .ok (.flag true)

def Claims (id : String) (x : Answered) : Prop :=
  (∃ digest, x.1.2 = .claim id digest) ∧ x.2 = .ok (.flag true)

/-! ## Steps -/

theorem Tracked.setEntry {id' : String} {entry : CompletionEntry} (h : s.Tracked id)
    (hnext : id' = id → entry.status = .readyForAction ∨ entry.status = .actionClaimed →
      s.events.HasOperation (usageOperation id)) : (s.setEntry id' entry).Tracked id := by
  constructor
  · intro hnone
    rw [CompletionStore.setEntry, Table.get_insert] at hnone
    split_ifs at hnone with heq
    exact h.spent hnone
  · intro entry' hget hstatus
    rcases Table.get_of_insert hget with ⟨heq, rfl⟩ | hget
    · exact hnext heq.symm hstatus
    · exact h.recorded entry' hget hstatus

theorem Tracked.deleteEntry {id' : String} (h : s.Tracked id)
    (hspent : id' = id → s.AlreadyFinal id) : (s.deleteEntry id').Tracked id := by
  constructor
  · intro hnone
    rw [CompletionStore.deleteEntry, Table.get_erase] at hnone
    split_ifs at hnone with heq
    · exact hspent heq.symm
    · exact h.spent hnone
  · intro entry hget hstatus
    exact h.recorded entry (Table.get_of_erase hget) hstatus

theorem Tracked.insertEvent {e : DomainEvent} (h : s.Tracked id) : (s.insertEvent e).Tracked id :=
  ⟨fun hnone => (h.spent hnone).imp (·.insertOrIgnore) (·.insertOrIgnore),
    fun entry hget hstatus => (h.recorded entry hget hstatus).insertOrIgnore⟩

theorem Tracked.step (h : s.Tracked id) (hstep : s.Step a s' reply) (hguard : s.KeepsMarkers a)
    (hkept : ¬ Releases id (a, reply)) : s'.Tracked id := by
  cases hstep with
  | idle => exact h
  | reserved hfinal hnone hnext => exact h.setEntry (by simp [hnext])
  | released =>
    refine h.deleteEntry ?_
    rintro rfl
    exact absurd ⟨⟨_, rfl⟩, rfl⟩ hkept
  | enqueued hget hstatus hnext => exact h.setEntry (by simp [hnext])
  | markedUnknown hget hstatus hnext => exact h.setEntry (by simp [hnext])
  | persisted hget hstatus hnext =>
    obtain ⟨hop, hunused⟩ := hguard ⟨_, hget, hstatus⟩
    refine h.insertEvent.setEntry ?_
    rintro rfl -
    rw [← hop]
    exact EventTable.hasOperation_insertOrIgnore hunused
  | failureRecorded hget hstatus hnext =>
    refine h.setEntry ?_
    rintro rfl hready
    rcases hnext with hnext | hnext
    · rw [hnext] at hready
      exact h.recorded _ hget hready
    · simp [hnext] at hready
  | requeued hget hstatus hpayload hnext hevent =>
    refine h.insertEvent.setEntry ?_
    rintro rfl -
    exact (hguard ⟨_, hget, hstatus, hpayload⟩).insertOrIgnore
  | claimed hget hstatus hnext =>
    refine h.setEntry ?_
    rintro rfl -
    exact h.recorded _ hget (.inl hstatus)
  | completed hget hstatus =>
    refine h.deleteEntry ?_
    rintro rfl
    exact .inl (h.recorded _ hget (.inr hstatus))
  | resolved hid hevent =>
    refine h.insertEvent.deleteEntry ?_
    rintro rfl
    right
    rw [← hevent]
    refine EventTable.hasOperation_insertOrIgnore fun r hr heq => ?_
    exact absurd (heq.trans hid) (hguard r hr)
  | pruned hcompletions hevents =>
    have hops : ∀ {op}, isSpentMarker op → s.events.HasOperation op →
        s'.events.HasOperation op := by
      intro op hop hhas
      rw [hevents]
      refine hhas.delete fun r hr heq => decide_eq_true fun hpruned => ?_
      exact hguard r hpruned (heq ▸ hop)
    constructor
    · intro hnone
      rw [hcompletions] at hnone
      exact (h.spent hnone).imp (hops (isSpentMarker_usage id))
        (hops (isSpentMarker_resolution id))
    · intro entry hget hstatus
      rw [hcompletions] at hget
      exact hops (isSpentMarker_usage id) (h.recorded entry hget hstatus)

theorem Tracked.not_reserves (h : s.Tracked id) (hstep : s.Step a s' reply) :
    ¬ Reserves id (a, reply) := by
  rintro ⟨⟨digest, agentId, hcall⟩, hreply⟩
  cases hstep with
  | idle hidle => exact hidle hreply
  | reserved hfinal hnone hnext =>
    cases hcall
    exact hfinal (h.spent hnone)
  | _ => cases hcall

theorem ready_of_claims (hstep : s.Step a s' reply) (hclaims : Claims id (a, reply)) :
    ∃ entry, s.completions.get id = some entry ∧ entry.status = .readyForAction := by
  obtain ⟨⟨digest, hcall⟩, hreply⟩ := hclaims
  cases hstep with
  | idle hidle => exact absurd hreply hidle
  | claimed hget hstatus hnext =>
    cases hcall
    exact ⟨_, hget, hstatus⟩
  | _ => cases hcall

theorem Taken.not_claims (h : s.Taken id) (hstep : s.Step a s' reply) :
    ¬ Claims id (a, reply) := by
  intro hclaims
  obtain ⟨entry, hget, hstatus⟩ := ready_of_claims hstep hclaims
  exact absurd (h entry hget) (by simp [hstatus])

theorem Taken.setEntry {id' : String} {entry : CompletionEntry} (h : s.Taken id)
    (hne : id' ≠ id) : (s.setEntry id' entry).Taken id := by
  intro entry' hget
  rw [CompletionStore.setEntry, Table.get_insert, if_neg hne.symm] at hget
  exact h entry' hget

theorem Taken.deleteEntry {id' : String} (h : s.Taken id) : (s.deleteEntry id').Taken id := by
  intro entry hget
  exact h entry (Table.get_of_erase hget)

theorem Taken.step (h : s.Taken id) (htracked : s.Tracked id) (hstep : s.Step a s' reply) :
    s'.Taken id := by
  have hne : ∀ {id' entry}, s.completions.get id' = some entry →
      entry.status ≠ .actionClaimed → id' ≠ id := by
    rintro id' entry hget hstatus rfl
    exact hstatus (h entry hget)
  cases hstep with
  | idle => exact h
  | reserved hfinal hnone hnext =>
    refine h.setEntry ?_
    rintro rfl
    exact hfinal (htracked.spent hnone)
  | released => exact h.deleteEntry
  | enqueued hget hstatus hnext => exact h.setEntry (hne hget (by simp [hstatus]))
  | markedUnknown hget hstatus hnext => exact h.setEntry (hne hget (by simp [hstatus]))
  | persisted hget hstatus hnext =>
    exact Taken.setEntry (s := s.insertEvent _) h (hne hget (by simp [hstatus]))
  | failureRecorded hget hstatus hnext =>
    exact h.setEntry (hne hget (by rcases hstatus with hstatus | hstatus <;> simp [hstatus]))
  | requeued hget hstatus hpayload hnext hevent =>
    exact Taken.setEntry (s := s.insertEvent _) h (hne hget (by simp [hstatus]))
  | claimed hget hstatus hnext => exact h.setEntry (hne hget (by simp [hstatus]))
  | completed hget hstatus => exact h.deleteEntry
  | resolved hid hevent => exact Taken.deleteEntry (s := s.insertEvent _) h
  | pruned hcompletions hevents =>
    intro entry hget
    rw [hcompletions] at hget
    exact h entry hget

theorem taken_of_claims (hstep : s.Step a s' reply) (hclaims : Claims id (a, reply)) :
    s'.Taken id := by
  obtain ⟨⟨digest, hcall⟩, hreply⟩ := hclaims
  cases hstep with
  | idle hidle => exact absurd hreply hidle
  | claimed hget hstatus hnext =>
    cases hcall
    intro entry hentry
    rw [CompletionStore.setEntry, Table.get_insert, if_pos rfl] at hentry
    cases hentry
    exact hnext
  | _ => cases hcall

theorem tracked_of_reserves (hstep : s.Step a s' reply) (hreserves : Reserves id (a, reply)) :
    s'.Tracked id := by
  obtain ⟨⟨digest, agentId, hcall⟩, hreply⟩ := hreserves
  cases hstep with
  | idle hidle => exact absurd hreply hidle
  | reserved hfinal hnone hnext =>
    cases hcall
    have hget : ∀ entry, (s.setEntry id entry).completions.get id = some entry := fun entry => by
      rw [CompletionStore.setEntry, Table.get_insert, if_pos rfl]
    refine ⟨fun hempty => ?_, fun entry hentry hstatus => ?_⟩
    · rw [hget] at hempty
      cases hempty
    · rw [hget] at hentry
      cases hentry
      simp [hnext] at hstatus
  | _ => cases hcall

/-! ## Runs -/

section Runs
variable [JsonObject] {rest : List (CallContext × CompletionCall)}

theorem Taken.run (h : s.Taken id) (htracked : s.Tracked id)
    (hmeets : completionMachine.Meets KeepsMarkers s rest)
    (hkept : ∀ x ∈ completionMachine.trace s rest, ¬ Releases id x) :
    ∀ x ∈ completionMachine.trace s rest, ¬ Claims id x := by
  induction rest generalizing s with
  | nil => simp
  | cons a rest ih =>
    rw [Machine.trace_cons, List.forall_mem_cons] at hkept ⊢
    have hstep := s.call_step a
    exact ⟨h.not_claims hstep, ih (h.step htracked hstep)
      (htracked.step hstep hmeets.1 hkept.1) hmeets.2 hkept.2⟩

theorem Tracked.run (h : s.Tracked id) (hmeets : completionMachine.Meets KeepsMarkers s rest)
    (hkept : ∀ x ∈ completionMachine.trace s rest, ¬ Releases id x) :
    (∀ x ∈ completionMachine.trace s rest, ¬ Reserves id x) ∧
      (completionMachine.trace s rest).Pairwise fun x y => ¬ (Claims id x ∧ Claims id y) := by
  induction rest generalizing s with
  | nil => simp
  | cons a rest ih =>
    rw [Machine.trace_cons, List.forall_mem_cons] at hkept
    rw [Machine.trace_cons, List.forall_mem_cons, List.pairwise_cons]
    have hstep := s.call_step a
    have hnext := h.step hstep hmeets.1 hkept.1
    obtain ⟨hreserves, hclaims⟩ := ih hnext hmeets.2 hkept.2
    refine ⟨⟨h.not_reserves hstep, hreserves⟩, fun x hx hboth => ?_, hclaims⟩
    -- after the first claim the row stays claimed until it is deleted
    have htaken := taken_of_claims hstep hboth.1
    exact htaken.run hnext hmeets.2 hkept.2 x hx hboth.2

end Runs
end CompletionStore

/-! ## Main results -/

open CompletionStore

/-- **At most once.** After a reservation that is not released, and in a run whose calls keep
the markers, no call reserves the request again and at most one claims its actions. -/
theorem paid_request_once [JsonObject] (s : CompletionStore) (id : String)
    (first : CallContext × CompletionCall) (rest : List (CallContext × CompletionCall))
    (hfirst : Reserves id (first, (completionMachine.call s first).2))
    (hmeets : completionMachine.Meets KeepsMarkers (completionMachine.call s first).1 rest)
    (hkept : ∀ x ∈ completionMachine.trace (completionMachine.call s first).1 rest,
      ¬ Releases id x) :
    (∀ x ∈ completionMachine.trace (completionMachine.call s first).1 rest, ¬ Reserves id x) ∧
      (completionMachine.trace (completionMachine.call s first).1 rest).Pairwise
        fun x y => ¬ (Claims id x ∧ Claims id y) :=
  (tracked_of_reserves (s.call_step first) hfirst).run hmeets hkept

def adoptedCompletion : List (CallContext × CompletionCall) :=
  [fencedCall "a" (.enqueue "r" "d" "answer"),
    fencedCall "b" (.persistUsage "r" "d"
      { sampleEvent 1 0 with aggregateId := "AGENT-07", operationId := "llm_usage_r" }),
    fencedCall "c" (.claim "r" "d"), fencedCall "d" (.complete "r" "d"),
    fencedCall "e" (.reserve "r" "d" "AGENT-07")]

theorem adopted_request_paid_once :
    (∀ x ∈ (@completionMachine .compact).trace
        ((@completionMachine .compact).call .blank (fencedCall "z" (.reserve "r" "d" "AGENT-07"))).1
        adoptedCompletion, ¬ Reserves "r" x) ∧
      ((@completionMachine .compact).trace
        ((@completionMachine .compact).call .blank (fencedCall "z" (.reserve "r" "d" "AGENT-07"))).1
        adoptedCompletion).Pairwise fun x y => ¬ (Claims "r" x ∧ Claims "r" y) := by
  refine @paid_request_once .compact .blank "r" (fencedCall "z" (.reserve "r" "d" "AGENT-07"))
    adoptedCompletion ⟨⟨_, _, rfl⟩, rfl⟩
    ⟨trivial, fun _ => ⟨rfl, nofun⟩, trivial, trivial, trivial, trivial⟩ ?_
  rintro x hx ⟨⟨digest, hcall⟩, -⟩
  have hmem := (@completionMachine .compact).fst_mem_of_mem_trace hx
  simp only [adoptedCompletion, List.mem_cons, List.not_mem_nil, or_false] at hmem
  rcases hmem with h | h | h | h | h <;> rw [h] at hcall <;> cases hcall

/-- A response that fails its admission before the usage append, is requeued, and ends without
a marker; then the same request is sent and paid again. -/
def requeuedCompletion : List (CallContext × CompletionCall) :=
  [fencedCall "a" (.reserve "r" "d" "AGENT-07"), fencedCall "b" (.enqueue "r" "d" "answer"),
    fencedCall "c" (.recordFailure "r" "d" "admission" 1),
    fencedCall "d" (.requeue "r" "d" "admission"), fencedCall "e" (.claim "r" "d"),
    fencedCall "f" (.complete "r" "d")]

theorem requeued_request_paid_twice :
    (@completionMachine .compact).answers .blank (requeuedCompletion ++ requeuedCompletion) =
      [.ok (.flag true), .ok .done, .ok (.attempts 1 true), .ok (.flag true), .ok (.flag true),
        .ok (.flag true), .ok (.flag true), .ok .done, .ok (.attempts 1 true), .ok (.flag true),
        .ok (.flag true), .ok (.flag true)] := by
  rfl

end Sentinel.EventStore

import Sentinel.EventStore.PaidOnce

/-! Actions are released only after the usage of their request was recorded. The usage events
of the outbox are those its own appends put into the event table; the invariant speaks of the
calls made so far. -/

namespace Sentinel.EventStore
open Lib

theorem usageOperation_injective : Function.Injective usageOperation := by
  intro a b h
  have hlist := congrArg String.toList h
  rw [usageOperation, usageOperation, String.toList_append, String.toList_append] at hlist
  exact String.toList_injective (List.append_cancel_left hlist)

theorem requeueOperation_ne_usage (a b : String) : requeueOperation a ≠ usageOperation b :=
  append_ne_append (n := 4) (x := 'r') (y := 'u') rfl rfl (by decide) a b

theorem resolutionOperation_ne_usage (a b : String) : resolutionOperation a ≠ usageOperation b :=
  append_ne_append (n := 4) (x := 'r') (y := 'u') rfl rfl (by decide) a b

theorem EventTable.hasOperation_of_insertOrIgnore {t : EventTable} {e : DomainEvent} {op : String}
    (h : (t.insertOrIgnore e).HasOperation op) (hne : e.operationId ≠ op) : t.HasOperation op := by
  unfold EventTable.insertOrIgnore at h
  split_ifs at h with hclash
  · exact h
  · exact (hasOperation_push.1 h).resolve_right hne

namespace CompletionStore

/-- The condition on a call: the usage event carries the request's own operation id under an
unused event id, a failed response is requeued only when its usage is recorded, and retention
does not run. -/
def RecordsUsage (s : CompletionStore) (a : CallContext × CompletionCall) : Prop :=
  match a.2 with
  | .persistUsage _ _ _ | .requeue _ _ _ => s.KeepsMarkers a
  | .prune _ _ => False
  | _ => True

section Runs
variable [JsonObject] {s₀ s s' : CompletionStore} {id : String}
  {past : List (CallContext × CompletionCall)} {a : CallContext × CompletionCall}
  {reply : Except String CompletionReply}

def UsageAppended (s₀ : CompletionStore) (past : List (CallContext × CompletionCall))
    (id : String) : Prop :=
  ∃ before ctx digest event after, past = before ++ (ctx, .persistUsage id digest event) :: after ∧
    (completionMachine.call (completionMachine.final s₀ before)
      (ctx, .persistUsage id digest event)).1.events =
        (completionMachine.final s₀ before).events.push event

theorem UsageAppended.snoc (h : UsageAppended s₀ past id) (a : CallContext × CompletionCall) :
    UsageAppended s₀ (past ++ [a]) id := by
  obtain ⟨before, ctx, digest, event, after, rfl, hpush⟩ := h
  exact ⟨before, ctx, digest, event, after ++ [a], by simp, hpush⟩

def Accounted (s₀ : CompletionStore) (past : List (CallContext × CompletionCall))
    (s : CompletionStore) : Prop :=
  ∀ id entry, s.completions.get id = some entry →
    entry.status = .readyForAction ∨ entry.status = .actionClaimed ∨
      s.events.HasOperation (usageOperation id) → UsageAppended s₀ past id

theorem Accounted.snoc (h : Accounted s₀ past s) (a : CallContext × CompletionCall) :
    Accounted s₀ (past ++ [a]) s :=
  fun id entry hget hwhy => (h id entry hget hwhy).snoc a

theorem Accounted.setEntry {entry : CompletionEntry} (h : Accounted s₀ past s)
    (hnext : entry.status = .readyForAction ∨ entry.status = .actionClaimed ∨
      s.events.HasOperation (usageOperation id) → UsageAppended s₀ past id) :
    Accounted s₀ past (s.setEntry id entry) := by
  intro id' entry' hget hwhy
  rcases Table.get_of_insert hget with ⟨heq, rfl⟩ | hget
  · rw [heq] at hwhy ⊢
    exact hnext hwhy
  · exact h id' entry' hget hwhy

theorem Accounted.deleteEntry (h : Accounted s₀ past s) :
    Accounted s₀ past (s.deleteEntry id) := by
  intro id' entry hget hwhy
  exact h id' entry (Table.get_of_erase hget) hwhy

theorem Accounted.insertEvent {e : DomainEvent} (h : Accounted s₀ past s)
    (he : ∀ id, e.operationId ≠ usageOperation id) : Accounted s₀ past (s.insertEvent e) := by
  intro id entry hget hwhy
  refine h id entry hget (hwhy.imp_right (Or.imp_right fun hop => ?_))
  exact EventTable.hasOperation_of_insertOrIgnore hop (he id)

theorem Accounted.persist {ctx : CallContext} {digest : String} {event : DomainEvent}
    {entry entry' : CompletionEntry} (h : Accounted s₀ past s)
    (hs : s = completionMachine.final s₀ past)
    (hcall : (completionMachine.call s (ctx, .persistUsage id digest event)).1 =
      (s.insertEvent event).setEntry id entry')
    (hget : s.completions.get id = some entry) (hop : event.operationId = usageOperation id)
    (hunused : ∀ r ∈ s.events.rows, r.event.eventId = event.eventId →
      r.event.operationId = event.operationId) :
    Accounted s₀ (past ++ [(ctx, .persistUsage id digest event)])
      ((s.insertEvent event).setEntry id entry') := by
  have happended :
      UsageAppended s₀ (past ++ [(ctx, .persistUsage id digest event)]) id := by
    by_cases hclash : s.events.Clashes event
    · obtain ⟨r, hr, hclash⟩ := hclash
      have hstored : r.event.operationId = event.operationId := hclash.elim (hunused r hr) (·)
      exact (h id entry hget (.inr (.inr ⟨r, hr, hstored.trans hop⟩))).snoc _
    · refine ⟨past, ctx, digest, event, [], rfl, ?_⟩
      rw [← hs, hcall]
      exact if_neg hclash
  intro id' entry'' hget' hwhy
  by_cases heq : id' = id
  · exact heq ▸ happended
  · rw [CompletionStore.setEntry, Table.get_insert, if_neg heq] at hget'
    have hne : event.operationId ≠ usageOperation id' := by
      rw [hop]
      exact fun hsame => heq (usageOperation_injective hsame).symm
    refine (h id' entry'' hget' (hwhy.imp_right (Or.imp_right fun hstored => ?_))).snoc _
    exact EventTable.hasOperation_of_insertOrIgnore hstored hne

theorem Accounted.step (h : Accounted s₀ past s) (hs : s = completionMachine.final s₀ past)
    (hguard : s.RecordsUsage a) (hcall : (completionMachine.call s a).1 = s')
    (hstep : s.Step a s' reply) : Accounted s₀ (past ++ [a]) s' := by
  cases hstep with
  | idle => exact h.snoc a
  | reserved hfinal hnone hnext =>
    refine (h.snoc _).setEntry fun hwhy => ?_
    rcases hwhy with hready | hclaimed | hop
    · simp [hnext] at hready
    · simp [hnext] at hclaimed
    · exact absurd (.inl hop) hfinal
  | released => exact (h.snoc _).deleteEntry
  | enqueued hget hstatus hnext =>
    refine (h.snoc _).setEntry fun hwhy => h.snoc _ _ _ hget ?_
    simpa [hnext, hstatus] using hwhy
  | markedUnknown hget hstatus hnext =>
    refine (h.snoc _).setEntry fun hwhy => h.snoc _ _ _ hget ?_
    simpa [hnext, hstatus] using hwhy
  | persisted hget hstatus hnext =>
    obtain ⟨hop, hunused⟩ := hguard ⟨_, hget, hstatus⟩
    exact h.persist hs hcall hget hop hunused
  | failureRecorded hget hstatus hnext =>
    refine (h.snoc _).setEntry fun hwhy => h.snoc _ _ _ hget ?_
    rcases hnext with hnext | hnext
    · exact hnext ▸ hwhy
    · exact .inr (.inr (by simpa [hnext] using hwhy))
  | requeued hget hstatus hpayload hnext hevent =>
    have hother : ∀ id, _ ≠ usageOperation id := fun id =>
      hevent ▸ requeueOperation_ne_usage _ id
    refine ((h.snoc _).insertEvent hother).setEntry fun _ => h.snoc _ _ _ hget ?_
    exact .inr (.inr (hguard ⟨_, hget, hstatus, hpayload⟩))
  | claimed hget hstatus hnext =>
    exact (h.snoc _).setEntry fun _ => h.snoc _ _ _ hget (.inl hstatus)
  | completed hget hstatus => exact (h.snoc _).deleteEntry
  | resolved hid hevent =>
    refine Accounted.deleteEntry ((h.snoc _).insertEvent fun id => ?_)
    exact hevent ▸ resolutionOperation_ne_usage _ id
  | pruned => exact hguard.elim

end Runs
end CompletionStore

/-! ## Main results -/

open CompletionStore

/-- **Usage before actions.** From an empty outbox, in a run whose calls meet the condition, a
claim that succeeds comes after a call that appended a usage event of the same request. -/
theorem usage_before_actions [JsonObject] (s₀ : CompletionStore) (id : String)
    (past : List (CallContext × CompletionCall)) (a : CallContext × CompletionCall)
    (hempty : s₀.completions = .empty) (hmeets : completionMachine.Meets RecordsUsage s₀ past)
    (hclaims : Claims id (a, (completionMachine.call (completionMachine.final s₀ past) a).2)) :
    UsageAppended s₀ past id := by
  have hstart : Accounted s₀ [] s₀ := by
    intro id entry hget
    rw [hempty] at hget
    cases hget
  have haccounted : Accounted s₀ past (completionMachine.final s₀ past) :=
    completionMachine.final_history (I := fun past s => Accounted s₀ past s)
      (fun past s a hs h hguard => h.step hs hguard rfl (s.call_step a)) hstart hmeets
  obtain ⟨entry, hget, hready⟩ := ready_of_claims (call_step _ a) hclaims
  exact haccounted id entry hget (.inl hready)

theorem adopted_completion_usage_before_actions :
    @UsageAppended .compact .blank
      (fencedCall "z" (.reserve "r" "d" "AGENT-07") :: adoptedCompletion.take 2) "r" :=
  @usage_before_actions .compact .blank "r" _ (fencedCall "c" (.claim "r" "d")) rfl
    ⟨trivial, trivial, fun _ => ⟨rfl, nofun⟩, trivial⟩ ⟨⟨_, rfl⟩, rfl⟩

theorem requeued_claim_without_usage :
    (@completionMachine .compact).answers .blank (requeuedCompletion.take 5) =
        [.ok (.flag true), .ok .done, .ok (.attempts 1 true), .ok (.flag true),
          .ok (.flag true)] ∧
      ¬ @UsageAppended .compact .blank (requeuedCompletion.take 4) "r" := by
  refine ⟨rfl, ?_⟩
  rintro ⟨before, ctx, digest, event, after, hrun, -⟩
  have hmem : (ctx, .persistUsage "r" digest event) ∈ requeuedCompletion.take 4 := by
    rw [hrun]
    simp
  simp [requeuedCompletion, fencedCall] at hmem

end Sentinel.EventStore

import Sentinel.EventStore.CompletionOutbox

/-! What a call of the completion outbox can do: the moves of a row through its statuses, the
events each of them appends, and the answer. -/

namespace Sentinel.EventStore
open Lib Cluster

namespace CompletionStore

variable {s : CompletionStore}

inductive Step (s : CompletionStore) : CallContext × CompletionCall → CompletionStore →
    Except String CompletionReply → Prop where
  | idle {a reply} (hreply : reply ≠ .ok (.flag true)) : Step s a s reply
  | reserved {ctx id digest agentId entry} (hfinal : ¬ s.AlreadyFinal id)
      (hnone : s.completions.get id = none) (hnext : entry.status = .providerInFlight) :
      Step s (ctx, .reserve id digest agentId) (s.setEntry id entry) (.ok (.flag true))
  | released {ctx id digest} :
      Step s (ctx, .release id digest) (s.deleteEntry id) (.ok (.flag true))
  | enqueued {ctx id digest payload entry entry'} (hget : s.completions.get id = some entry)
      (hstatus : entry.status = .providerInFlight) (hnext : entry'.status = .pendingUsage) :
      Step s (ctx, .enqueue id digest payload) (s.setEntry id entry') (.ok .done)
  | markedUnknown {ctx id digest reason entry entry'} (hget : s.completions.get id = some entry)
      (hstatus : entry.status = .providerInFlight) (hnext : entry'.status = .failed) :
      Step s (ctx, .markUnknown id digest reason) (s.setEntry id entry') (.ok (.flag true))
  | persisted {ctx id digest event entry entry'} (hget : s.completions.get id = some entry)
      (hstatus : entry.status = .pendingUsage) (hnext : entry'.status = .readyForAction) :
      Step s (ctx, .persistUsage id digest event) ((s.insertEvent event).setEntry id entry')
        (.ok .done)
  | failureRecorded {ctx id digest error maxAttempts n terminal entry entry'}
      (hget : s.completions.get id = some entry)
      (hstatus : entry.status = .pendingUsage ∨ entry.status = .readyForAction)
      (hnext : entry'.status = entry.status ∨ entry'.status = .failed) :
      Step s (ctx, .recordFailure id digest error maxAttempts) (s.setEntry id entry')
        (.ok (.attempts n terminal))
  | requeued {ctx id digest expectedError event entry entry'}
      (hget : s.completions.get id = some entry) (hstatus : entry.status = .failed)
      (hpayload : entry.payload ≠ "") (hnext : entry'.status = .readyForAction)
      (hevent : event.operationId = requeueOperation id) :
      Step s (ctx, .requeue id digest expectedError) ((s.insertEvent event).setEntry id entry')
        (.ok (.flag true))
  | claimed {ctx id digest entry entry'} (hget : s.completions.get id = some entry)
      (hstatus : entry.status = .readyForAction) (hnext : entry'.status = .actionClaimed) :
      Step s (ctx, .claim id digest) (s.setEntry id entry') (.ok (.flag true))
  | completed {ctx id digest entry} (hget : s.completions.get id = some entry)
      (hstatus : entry.status = .actionClaimed) :
      Step s (ctx, .complete id digest) (s.deleteEntry id) (.ok (.flag true))
  | resolved {ctx id digest reason event} (hid : event.eventId = ctx.freshId)
      (hevent : event.operationId = resolutionOperation id) :
      Step s (ctx, .resolve id digest reason) ((s.insertEvent event).deleteEntry id)
        (.ok (.flag true))
  | pruned {ctx cutoff batch n s'} (hcompletions : s'.completions = s.completions)
      (hevents : s'.events = (s.events.pruneBatch s.deadRanges cutoff batch).1) :
      Step s (ctx, .prune cutoff batch) s' (.ok (.pruned n))

/-! ## The calls as steps -/

section Calls
variable {s' : CompletionStore} {ctx : CallContext} {id digest : String} {b : Bool}

theorem begin_eq_ok {entry : CompletionEntry} {agentId : String}
    (h : s.beginFencedWriteForLlmCompletion ctx id = .ok (entry, agentId)) :
    s.completions.get id = some entry := by
  unfold beginFencedWriteForLlmCompletion at h
  split at h
  · cases h
  · rename_i row hrow
    simp only [bind_eq_ok] at h
    obtain ⟨_, -, _, -, h⟩ := h
    cases h
    exact hrow

theorem reserve_step {agentId : String}
    (h : s.reserveLlmRequest ctx id digest agentId = .ok (b, s')) :
    s.Step (ctx, .reserve id digest agentId) s' (.ok (.flag b)) := by
  simp only [reserveLlmRequest, bind_eq_ok] at h
  obtain ⟨_, -, _, -, _, -, h⟩ := h
  split at h
  · cases h
    exact .idle nofun
  · rename_i hfinal
    split at h
    · rename_i hnone
      cases h
      exact .reserved hfinal hnone rfl
    · simp only [bind_eq_ok] at h
      obtain ⟨_, -, h⟩ := h
      cases h
      exact .idle nofun

theorem release_step (h : s.releaseUndispatchedLlmRequest ctx id digest = .ok (b, s')) :
    s.Step (ctx, .release id digest) s' (.ok (.flag b)) := by
  simp only [releaseUndispatchedLlmRequest, bind_eq_ok] at h
  obtain ⟨⟨entry, _⟩, -, _, -, _, -, h⟩ := h
  cases h
  exact .released

theorem enqueue_step {payload : String}
    (h : s.enqueueLlmCompletion ctx id digest payload = .ok s') :
    s.Step (ctx, .enqueue id digest payload) s' (.ok .done) := by
  simp only [enqueueLlmCompletion, bind_eq_ok] at h
  obtain ⟨⟨entry, _⟩, hbegin, _, -, h⟩ := h
  dsimp only at h
  split at h
  · rename_i hstatus
    cases h
    exact .enqueued (begin_eq_ok hbegin) hstatus rfl
  · simp only [bind_eq_ok] at h
    obtain ⟨_, -, h⟩ := h
    cases h
    exact .idle nofun
  · cases h

theorem markUnknown_step {reason : String}
    (h : s.markLlmProviderOutcomeUnknown ctx id digest reason = .ok (b, s')) :
    s.Step (ctx, .markUnknown id digest reason) s' (.ok (.flag b)) := by
  simp only [markLlmProviderOutcomeUnknown, bind_eq_ok] at h
  obtain ⟨_, -, ⟨entry, _⟩, hbegin, _, -, h⟩ := h
  dsimp only at h
  split at h
  · rename_i hstatus
    cases h
    exact .markedUnknown (begin_eq_ok hbegin) hstatus.1 rfl
  · cases h
    exact .idle nofun

theorem persist_step {event : DomainEvent}
    (h : s.persistLlmCompletionUsage ctx id digest event = .ok s') :
    s.Step (ctx, .persistUsage id digest event) s' (.ok .done) := by
  simp only [persistLlmCompletionUsage, bind_eq_ok] at h
  obtain ⟨⟨entry, _⟩, hbegin, _, -, _, -, h⟩ := h
  dsimp only at h
  split at h
  · cases h
    exact .idle nofun
  · simp only [bind_eq_ok, ensure_eq_ok] at h
    obtain ⟨_, hstatus, h⟩ := h
    cases h
    exact .persisted (begin_eq_ok hbegin) hstatus rfl

theorem recordFailure_step {error : String} {maxAttempts : UInt32} {r : ℕ × Bool}
    (h : s.recordLlmCompletionFailure ctx id digest error maxAttempts = .ok (r, s')) :
    s.Step (ctx, .recordFailure id digest error maxAttempts) s' (.ok (.attempts r.1 r.2)) := by
  simp only [recordLlmCompletionFailure, bind_eq_ok, ensure_eq_ok] at h
  obtain ⟨_, -, ⟨entry, _⟩, hbegin, _, hstatus, h⟩ := h
  cases h
  refine .failureRecorded (begin_eq_ok hbegin) hstatus.2 ?_
  dsimp only
  split
  · exact .inr rfl
  · exact .inl rfl

theorem claim_step (h : s.claimLlmCompletionActions ctx id digest = .ok (b, s')) :
    s.Step (ctx, .claim id digest) s' (.ok (.flag b)) := by
  simp only [claimLlmCompletionActions, bind_eq_ok] at h
  obtain ⟨⟨entry, _⟩, hbegin, h⟩ := h
  dsimp only at h
  split at h
  · rename_i hstatus
    cases h
    exact .claimed (begin_eq_ok hbegin) hstatus.2 rfl
  · cases h
    exact .idle nofun

theorem complete_step (h : s.completeLlmCompletionActions ctx id digest = .ok (b, s')) :
    s.Step (ctx, .complete id digest) s' (.ok (.flag b)) := by
  simp only [completeLlmCompletionActions, bind_eq_ok] at h
  obtain ⟨⟨entry, _⟩, hbegin, h⟩ := h
  dsimp only at h
  split at h
  · rename_i hstatus
    cases h
    exact .completed (begin_eq_ok hbegin) hstatus.2
  · cases h
    exact .idle nofun

theorem prune_step {cutoff batch : ℤ} {n : ℕ} (h : s.pruneBatch ctx cutoff batch = .ok (n, s')) :
    s.Step (ctx, .prune cutoff batch) s' (.ok (.pruned n)) := by
  unfold pruneBatch at h
  split at h
  · cases h
    exact .idle nofun
  · simp only [bind_eq_ok] at h
    obtain ⟨_, -, h⟩ := h
    cases h
    exact .pruned rfl rfl

variable [JsonObject]

theorem requeue_step {expectedError : String}
    (h : s.requeueFailedLlmCompletion ctx id digest expectedError = .ok (b, s')) :
    s.Step (ctx, .requeue id digest expectedError) s' (.ok (.flag b)) := by
  simp only [requeueFailedLlmCompletion, bind_eq_ok] at h
  obtain ⟨_, -, ⟨entry, agentId⟩, hbegin, _, -, h⟩ := h
  dsimp only at h
  split at h
  · cases h
    exact .idle nofun
  · rename_i hstatus
    rw [not_or, not_not] at hstatus
    split at h
    · cases h
      exact .idle nofun
    · rename_i hpayload
      cases h
      exact .requeued (begin_eq_ok hbegin) hstatus.1 hpayload rfl rfl

theorem resolve_step {reason : String}
    (h : s.resolveLlmCompletionTerminal ctx id digest reason = .ok (b, s')) :
    s.Step (ctx, .resolve id digest reason) s' (.ok (.flag b)) := by
  simp only [resolveLlmCompletionTerminal, bind_eq_ok] at h
  obtain ⟨_, -, _, -, ⟨entry, agentId⟩, hbegin, _, -, _, -, _, -, h⟩ := h
  cases h
  exact .resolved rfl rfl

end Calls

theorem Step.settle {α : Type} {a : CallContext × CompletionCall} {reply : α → CompletionReply}
    {x : Except String (α × CompletionStore)}
    (h : ∀ r s', x = .ok (r, s') → s.Step a s' (.ok (reply r))) :
    s.Step a (s.settle reply x).1 (s.settle reply x).2 := by
  cases x with
  | error e => exact .idle nofun
  | ok r => exact h r.1 r.2 rfl

theorem Step.settle_done {a : CallContext × CompletionCall} {x : Except String CompletionStore}
    (h : ∀ s', x = .ok s' → s.Step a s' (.ok .done)) :
    s.Step a (s.settle (fun _ => .done) (x.map ((), ·))).1
      (s.settle (fun _ => .done) (x.map ((), ·))).2 := by
  apply Step.settle
  intro u s' hx
  obtain ⟨t, ht, heq⟩ := map_eq_ok.1 hx
  cases heq
  exact h s' ht

theorem call_step [JsonObject] (s : CompletionStore) (a : CallContext × CompletionCall) :
    s.Step a (completionMachine.call s a).1 (completionMachine.call s a).2 := by
  obtain ⟨ctx, call⟩ := a
  cases call with
  | reserve id digest agentId => exact Step.settle fun _ _ => reserve_step
  | release id digest => exact Step.settle fun _ _ => release_step
  | enqueue id digest payload => exact Step.settle_done fun _ => enqueue_step
  | markUnknown id digest reason => exact Step.settle fun _ _ => markUnknown_step
  | persistUsage id digest event => exact Step.settle_done fun _ => persist_step
  | recordFailure id digest error maxAttempts => exact Step.settle fun _ _ => recordFailure_step
  | requeue id digest expectedError => exact Step.settle fun _ _ => requeue_step
  | claim id digest => exact Step.settle fun _ _ => claim_step
  | complete id digest => exact Step.settle fun _ _ => complete_step
  | resolve id digest reason => exact Step.settle fun _ _ => resolve_step
  | prune cutoff batch => exact Step.settle fun _ _ => prune_step

end CompletionStore
end Sentinel.EventStore

import Sentinel.Cluster.Fencing
import Sentinel.EventStore.TimeMachine
import Sentinel.Lib.Result
import Sentinel.Lib.Text

/-! The outbox of paid model requests (`sentinel-limbo`, module `event_store`). A request is
reserved before it is sent; its row goes through the usage append and the action claim and is
deleted at the end, when an event found by its operation id takes over as the marker that the
request is spent. -/

namespace Sentinel.EventStore
open Lib Cluster

inductive CompletionStatus where
  | providerInFlight
  | pendingUsage
  | readyForAction
  | actionClaimed
  | failed
deriving DecidableEq

namespace CompletionStatus

def toText : CompletionStatus → String
  | providerInFlight => "provider_in_flight"
  | pendingUsage => "pending_usage"
  | readyForAction => "ready_for_action"
  | actionClaimed => "action_claimed"
  | failed => "failed"

def terminal : CompletionStatus → Bool
  | providerInFlight | failed | actionClaimed => true
  | pendingUsage | readyForAction => false

end CompletionStatus

structure CompletionEntry where
  requestDigest : String
  ownerScope : String
  payload : String
  status : CompletionStatus
  attemptCount : ℤ
  lastError : Option String
  createdAt : ℤ
  updatedAt : ℤ
  modelBinding : String
  retrospectiveModelBinding : String

structure CompletionStore where
  events : EventTable
  deadRanges : List (ℕ × ℕ)
  completions : Table String CompletionEntry

structure CallContext where
  nowMs : UInt64
  fence : Except String Unit
  freshId : String

def llmCompletionTerminalLimit : ℕ := 10000
def llmCompletionResolutionReasonMaxBytes : ℕ := 512

def usageOperation (requestId : String) : String := "llm_usage_" ++ requestId
def resolutionOperation (requestId : String) : String := "llm_resolution_" ++ requestId
def requeueOperation (requestId : String) : String := "llm_requeue_" ++ requestId

def bridgeTaskEnded : String := "UnknownOutcome: bridge_task_ended_without_durable_response"
def transportDeadlineElapsed : String := "UnknownOutcome: provider_transport_deadline_elapsed"

def CallContext.newEvent (ctx : CallContext) (eventType aggregateId payload correlationId
    operationId : String) : DomainEvent where
  eventId := ctx.freshId
  eventType
  aggregateId
  payload
  correlationId
  causationId := none
  operationId
  tick := 0
  timestampMs := ctx.nowMs
  schemaVersion := 1
  compensationType := "none"

def llmCompletionScopeFromWire (wire : String) : Except String String :=
  match StateTransferScope.fromWire wire with
  | none => .error ("invalid LLM completion owner scope " ++ wire.quote)
  | some .world => .error "LLM completion owner scope is not an agent"
  | some (.nanoContainer agentId) => .ok agentId

def EventTable.HasOperation (t : EventTable) (operationId : String) : Prop :=
  ∃ r ∈ t.rows, r.event.operationId = operationId

instance (t : EventTable) (operationId : String) : Decidable (t.HasOperation operationId) :=
  inferInstanceAs (Decidable (∃ r ∈ t.rows, _))

namespace CompletionStore

variable (s : CompletionStore) (ctx : CallContext)

def setEntry (requestId : String) (entry : CompletionEntry) : CompletionStore :=
  { s with completions := s.completions.insert requestId entry }

def deleteEntry (requestId : String) : CompletionStore :=
  { s with completions := s.completions.erase requestId }

def insertEvent (event : DomainEvent) : CompletionStore :=
  { s with events := s.events.insertOrIgnore event }

def terminalCount : ℕ := (s.completions.values.filter fun e => e.status.terminal).length

def AlreadyFinal (requestId : String) : Prop :=
  s.events.HasOperation (usageOperation requestId) ∨
    s.events.HasOperation (resolutionOperation requestId)

instance (requestId : String) : Decidable (s.AlreadyFinal requestId) :=
  inferInstanceAs (Decidable (_ ∨ _))

def beginFencedWriteForLlmCompletion (requestId : String) :
    Except String (CompletionEntry × String) :=
  match s.completions.get requestId with
  | none => .error ("missing LLM completion " ++ requestId)
  | some entry => do
    let agentId ← llmCompletionScopeFromWire entry.ownerScope
    ctx.fence
    return (entry, agentId)

def digestConflict (requestId : String) : String :=
  "LLM completion digest conflict for " ++ requestId

/-! ## Reservation and response -/

def reserveLlmRequest (requestId requestDigest agentId : String) :
    Except String (Bool × CompletionStore) := do
  let ownerScope := StateTransferScope.forAggregate agentId
  ensure (ownerScope ≠ .world) "LLM completion owner must be a canonical agent aggregate"
  ctx.fence
  ensure (s.terminalCount < llmCompletionTerminalLimit)
    "LLM completion terminal backlog reached its fail-closed limit"
  if s.AlreadyFinal requestId then return (false, s)
  else match s.completions.get requestId with
    | none => return (true, s.setEntry requestId
        ⟨requestDigest, ownerScope.toWire, "", .providerInFlight, 0, none, sqlInt ctx.nowMs,
          sqlInt ctx.nowMs, "", ""⟩)
    | some entry =>
      ensure (entry.requestDigest = requestDigest ∧ entry.ownerScope = ownerScope.toWire)
        ("LLM request reservation digest conflict for " ++ requestId)
      return (false, s)

def releaseUndispatchedLlmRequest (requestId requestDigest : String) :
    Except String (Bool × CompletionStore) := do
  let (entry, _) ← s.beginFencedWriteForLlmCompletion ctx requestId
  ensure (entry.requestDigest = requestDigest) (digestConflict requestId)
  ensure (entry.payload = "" ∧ entry.status = .providerInFlight ∧ entry.attemptCount = 0)
    ("LLM completion " ++ requestId ++ " is not an undispatched reservation")
  return (true, s.deleteEntry requestId)

def enqueueLlmCompletion (requestId requestDigest payload : String) :
    Except String CompletionStore := do
  let (entry, _) ← s.beginFencedWriteForLlmCompletion ctx requestId
  ensure (entry.requestDigest = requestDigest) (digestConflict requestId)
  match entry.status with
  | .providerInFlight => return (s.setEntry requestId
      { entry with payload, status := .pendingUsage, updatedAt := sqlInt ctx.nowMs })
  | .pendingUsage =>
    ensure (entry.payload = payload) ("LLM completion response conflict for " ++ requestId)
    return s
  | status => .error ("LLM completion " ++ requestId ++ " cannot enqueue from status " ++
      status.toText)

def markLlmProviderOutcomeUnknown (requestId requestDigest reason : String) :
    Except String (Bool × CompletionStore) := do
  ensure (reason = bridgeTaskEnded ∨ reason = transportDeadlineElapsed)
    "invalid provider outcome reason"
  let (entry, _) ← s.beginFencedWriteForLlmCompletion ctx requestId
  ensure (entry.requestDigest = requestDigest) (digestConflict requestId)
  if entry.status = .providerInFlight ∧ entry.payload = "" then
    return (true, s.setEntry requestId
      { entry with status := .failed, lastError := reason, updatedAt := sqlInt ctx.nowMs })
  else return (false, s)

/-! ## Usage -/

def persistLlmCompletionUsage (requestId requestDigest : String) (event : DomainEvent) :
    Except String CompletionStore := do
  let (entry, _) ← s.beginFencedWriteForLlmCompletion ctx requestId
  ensure (entry.requestDigest = requestDigest) (digestConflict requestId)
  ensure (entry.ownerScope = (StateTransferScope.forAggregate event.aggregateId).toWire)
    "LLM completion owner scope does not match usage aggregate"
  if entry.status = .readyForAction ∨ entry.status = .actionClaimed then return s
  else
    ensure (entry.status = .pendingUsage) ("LLM completion " ++ requestId ++
      " is not recoverable from status " ++ entry.status.toText)
    return ((s.insertEvent event).setEntry requestId
      { entry with
        status := .readyForAction, lastError := none, updatedAt := sqlInt ctx.nowMs })

def nextAttempt (attemptCount : ℤ) : ℕ :=
  let attempts := if 0 ≤ attemptCount ∧ attemptCount < 2 ^ 32 then attemptCount.toNat
    else 2 ^ 32 - 1
  min (attempts + 1) (2 ^ 32 - 1)

def recordLlmCompletionFailure (requestId requestDigest error : String) (maxAttempts : UInt32) :
    Except String ((ℕ × Bool) × CompletionStore) := do
  ensure (0 < maxAttempts) "max_attempts must be positive"
  let (entry, _) ← s.beginFencedWriteForLlmCompletion ctx requestId
  ensure (entry.requestDigest = requestDigest ∧
      (entry.status = .pendingUsage ∨ entry.status = .readyForAction))
    ("LLM completion " ++ requestId ++ " is not pending")
  let attempts := nextAttempt entry.attemptCount
  let terminal := decide (maxAttempts.toNat ≤ attempts)
  return ((attempts, terminal), s.setEntry requestId
    { entry with
      attemptCount := attempts
      lastError := error
      status := if terminal then .failed else entry.status
      updatedAt := sqlInt ctx.nowMs })

section Json
variable [JsonObject]

def requeueEvent (requestId requestDigest expectedError agentId : String) : DomainEvent :=
  ctx.newEvent "llm_completion_requeued" agentId
    (JsonObject.text [("request_id", requestId), ("request_digest", requestDigest),
      ("prior_error", expectedError), ("recovery", "admission_schema_corrected")])
    requestId (requeueOperation requestId)

def requeueFailedLlmCompletion (requestId requestDigest expectedError : String) :
    Except String (Bool × CompletionStore) := do
  let expectedError := trim expectedError
  ensure (expectedError ≠ "") "expected error must not be empty"
  let (entry, agentId) ← s.beginFencedWriteForLlmCompletion ctx requestId
  ensure (entry.requestDigest = requestDigest) (digestConflict requestId)
  if entry.status ≠ .failed ∨ entry.lastError ≠ some expectedError then return (false, s)
  else if entry.payload = "" then return (false, s)
  else return (true, (s.insertEvent
      (requeueEvent ctx requestId requestDigest expectedError agentId)).setEntry requestId
    { entry with
      status := .readyForAction, attemptCount := 0, lastError := none
      updatedAt := sqlInt ctx.nowMs })

/-! ## Actions and resolution -/

def claimLlmCompletionActions (requestId requestDigest : String) :
    Except String (Bool × CompletionStore) := do
  let (entry, _) ← s.beginFencedWriteForLlmCompletion ctx requestId
  if entry.requestDigest = requestDigest ∧ entry.status = .readyForAction then
    return (true, s.setEntry requestId
      { entry with status := .actionClaimed, updatedAt := sqlInt ctx.nowMs })
  else return (false, s)

def completeLlmCompletionActions (requestId requestDigest : String) :
    Except String (Bool × CompletionStore) := do
  let (entry, _) ← s.beginFencedWriteForLlmCompletion ctx requestId
  if entry.requestDigest = requestDigest ∧ entry.status = .actionClaimed then
    return (true, s.deleteEntry requestId)
  else return (false, s)

def sealedModelHistory (entry : CompletionEntry) : Prop :=
  (entry.modelBinding ≠ "" ∨ entry.retrospectiveModelBinding ≠ "") ∧ entry.status = .failed ∧
    entry.payload = "" ∧
    (entry.lastError = some bridgeTaskEnded ∨ entry.lastError = some transportDeadlineElapsed)

instance (entry : CompletionEntry) : Decidable (sealedModelHistory entry) :=
  inferInstanceAs (Decidable (_ ∧ _))

def resolutionEvent (requestId requestDigest reason agentId : String)
    (status : CompletionStatus) : DomainEvent :=
  ctx.newEvent "llm_completion_resolved" agentId
    (JsonObject.text [("request_id", requestId), ("request_digest", requestDigest),
      ("terminal_status", status.toText), ("resolution", "operator_abandoned"),
      ("reason", reason)])
    requestId (resolutionOperation requestId)

def resolveLlmCompletionTerminal (requestId requestDigest reason : String) :
    Except String (Bool × CompletionStore) := do
  let reason := trim reason
  ensure (reason ≠ "") "resolution reason must not be empty"
  ensure ((utf8Bytes reason).length ≤ llmCompletionResolutionReasonMaxBytes)
    ("resolution reason exceeds " ++ toString llmCompletionResolutionReasonMaxBytes ++ " bytes")
  let (entry, agentId) ← s.beginFencedWriteForLlmCompletion ctx requestId
  ensure (entry.requestDigest = requestDigest) (digestConflict requestId)
  ensure (¬ sealedModelHistory entry) "sealed unknown model history cannot be deleted"
  ensure (entry.status.terminal = true) ("LLM completion " ++ requestId ++ " is not terminal")
  return (true, (s.insertEvent
    (resolutionEvent ctx requestId requestDigest reason agentId entry.status)).deleteEntry
      requestId)

/-! ## Retention -/

def pruneBatch (cutoffEventId batchSize : ℤ) : Except String (ℕ × CompletionStore) :=
  if batchSize ≤ 0 then .ok (0, s)
  else do
    ctx.fence
    let selected := s.events.pruneSelection s.deadRanges cutoffEventId batchSize
    let (events, deadRanges) := s.events.pruneBatch s.deadRanges cutoffEventId batchSize
    return (selected.length, { s with events, deadRanges })

end Json

end CompletionStore

/-! ## Calls -/

inductive CompletionCall where
  | reserve (requestId requestDigest agentId : String)
  | release (requestId requestDigest : String)
  | enqueue (requestId requestDigest payload : String)
  | markUnknown (requestId requestDigest reason : String)
  | persistUsage (requestId requestDigest : String) (event : DomainEvent)
  | recordFailure (requestId requestDigest error : String) (maxAttempts : UInt32)
  | requeue (requestId requestDigest expectedError : String)
  | claim (requestId requestDigest : String)
  | complete (requestId requestDigest : String)
  | resolve (requestId requestDigest reason : String)
  | prune (cutoffEventId batchSize : ℤ)

inductive CompletionReply where
  | done
  | flag (b : Bool)
  | attempts (count : ℕ) (terminal : Bool)
  | pruned (count : ℕ)

def CompletionStore.settle (s : CompletionStore) {α : Type} (reply : α → CompletionReply) :
    Except String (α × CompletionStore) → CompletionStore × Except String CompletionReply
  | .ok (a, s') => (s', .ok (reply a))
  | .error e => (s, .error e)

def completionMachine [JsonObject] :
    Machine CompletionStore (CallContext × CompletionCall) (Except String CompletionReply) where
  call s
    | (ctx, .reserve id digest agentId) =>
      s.settle .flag (s.reserveLlmRequest ctx id digest agentId)
    | (ctx, .release id digest) =>
      s.settle .flag (s.releaseUndispatchedLlmRequest ctx id digest)
    | (ctx, .enqueue id digest payload) =>
      s.settle (fun _ => .done) ((s.enqueueLlmCompletion ctx id digest payload).map ((), ·))
    | (ctx, .markUnknown id digest reason) =>
      s.settle .flag (s.markLlmProviderOutcomeUnknown ctx id digest reason)
    | (ctx, .persistUsage id digest event) =>
      s.settle (fun _ => .done) ((s.persistLlmCompletionUsage ctx id digest event).map ((), ·))
    | (ctx, .recordFailure id digest error maxAttempts) =>
      s.settle (fun r => .attempts r.1 r.2)
        (s.recordLlmCompletionFailure ctx id digest error maxAttempts)
    | (ctx, .requeue id digest expectedError) =>
      s.settle .flag (s.requeueFailedLlmCompletion ctx id digest expectedError)
    | (ctx, .claim id digest) => s.settle .flag (s.claimLlmCompletionActions ctx id digest)
    | (ctx, .complete id digest) => s.settle .flag (s.completeLlmCompletionActions ctx id digest)
    | (ctx, .resolve id digest reason) =>
      s.settle .flag (s.resolveLlmCompletionTerminal ctx id digest reason)
    | (ctx, .prune cutoff batch) => s.settle .pruned (s.pruneBatch ctx cutoff batch)

def CompletionStore.blank : CompletionStore := ⟨.empty, [], .empty⟩

def fencedCall (freshId : String) (call : CompletionCall) : CallContext × CompletionCall :=
  (⟨0, .ok (), freshId⟩, call)

end Sentinel.EventStore

import Sentinel.Lib.DepthFirst
import Sentinel.Workflow.Project

/-! `validate_project`: the checks that every project passes before it is stored. The records of
a project that are not part of the model have checks of their own; their outcome is an argument. -/

namespace Sentinel.Workflow.Company
open Lib

def orCorrupt {α : Type} (x : Except WorkflowError α) : Except WorkflowError α :=
  x.mapError fun _ => corrupt

@[simp] theorem orCorrupt_eq_ok {α : Type} {x : Except WorkflowError α} {a : α} :
    orCorrupt x = .ok a ↔ x = .ok a := by
  cases x <;> simp [orCorrupt, Except.mapError]

/-! ### The work graph -/

def dependenciesOf (specs : List CompanyWorkItemSpecV1) (id : WorkItemId) : List WorkItemId :=
  ((specs.find? (·.workItemId = id)).map (·.dependencyIds)).getD []

/-- Visit an item and what it depends on, depth first. The items on the path are known and
distinct, so that as many steps as there are items, and one, are enough. -/
def visit (specs : List CompanyWorkItemSpecV1) :
    ℕ → WorkItemId → List WorkItemId → List WorkItemId → Option (List WorkItemId) :=
  depthFirst (dependenciesOf specs)

def validateGraphInput (specs : List CompanyWorkItemSpecV1) (i : WorkInputContractV1) :
    Except WorkflowError Unit := do
  let producer ← orError (specs.find? (·.workItemId = i.producerWorkItemId))
    (invalidInput "work input producer is unknown")
  let output ← orError (producer.outputs.find? (·.name = i.producerOutputName))
    (invalidInput "work input producer output is undeclared")
  ensure (i.expectedContractGeneration = output.contractGeneration ∧
      i.expectedContractDigest = output.contractDigest)
    (invalidInput "work input binding is stale")

def validateGraphItem (specs : List CompanyWorkItemSpecV1) (s : CompanyWorkItemSpecV1) :
    Except WorkflowError Unit := do
  ensure (∀ d ∈ s.dependencyIds, d ∈ specs.map (·.workItemId))
    (invalidInput "work graph references an unknown dependency")
  ensure (s.outputs ≠ [] ∧ ∀ d ∈ s.dependencyIds, d ∈ s.inputs.map (·.producerWorkItemId))
    (invalidInput "work graph contains an unreachable data dependency")
  checkAll (validateGraphInput specs) s.inputs

def validateWorkGraph (specs : List CompanyWorkItemSpecV1) : Except WorkflowError Unit := do
  ensure (specs ≠ [] ∧ specs.length ≤ maxCompanyItems) (invalidInput "work graph size is invalid")
  checkAll CompanyWorkItemSpecV1.validate specs
  ensure (specs.map (·.workItemId)).Nodup
    (invalidInput "work graph contains duplicate work item ids")
  checkAll (validateGraphItem specs) specs
  ensure ((specs.foldlM (fun seen s => visit specs (specs.length + 1) s.workItemId [] seen)
      []).isSome)
    (invalidInput "work graph contains a dependency cycle")

def validateOutputReceipts (spec : CompanyWorkItemSpecV1) (receipts : List WorkOutputReceiptV1) :
    Except WorkflowError Unit := do
  ensure (receipts.length = spec.outputs.length) invalidTransition
  checkAll (fun r => do
    validateIdentifier r.name
    validateDigest r.contractDigest
    validateDigest r.contentDigest
    ensure ((spec.outputs.find? (·.name = r.name)).any fun o =>
      r.contractGeneration = o.contractGeneration && r.contractDigest = o.contractDigest)
      invalidTransition) receipts
  ensure (receipts.map (·.name)).Nodup (invalidInput "work output receipt is duplicated")

/-! ### Transition logs -/

section Logs

variable {σ : Type} [DecidableEq σ]

def validHistory : ℕ → Option σ → List (StateTransitionAuditV1 σ) → Bool
  | _, _, [] => true
  | time, after, a :: rest =>
    validIdentifier a.actorId && boundedText a.reasonRef && a.actorAgentId ≠ 0 &&
      a.occurredAt ≠ 0 && time ≤ a.occurredAt && after.all (· = a.before) &&
      validHistory a.occurredAt (some a.after) rest

end Logs

def legalWorkEdge : CompanyWorkStateV1 → CompanyWorkStateV1 → Bool
  | .dependencyPending, .ready | .ready, .assigned | .assigned, .inProgress
  | .assigned, .blocked | .inProgress, .inReview | .inProgress, .blocked | .inReview, .blocked
  | .inReview, .done | .assigned, .assigned | .blocked, .assigned | .done, .assigned
  | .inReview, .assigned => true
  | _, _ => false

def initialState (spec : CompanyWorkItemSpecV1) : CompanyWorkStateV1 :=
  if spec.dependencyIds = [] then .ready else .dependencyPending

def validWorkHistory (w : CompanyWorkItemV1) (updatedAt : ℕ) : Bool :=
  validHistory 0 none w.transitionHistory &&
    match w.transitionHistory.head?, w.transitionHistory.getLast? with
    | some first, some last => first.before = initialState w.spec && last.after = w.state &&
      last.occurredAt ≤ updatedAt &&
      w.transitionHistory.all fun a => legalWorkEdge a.before a.after
    | _, _ => w.state = initialState w.spec

def validBlockerHistory (b : BlockerV1) (updatedAt : ℕ) : Bool :=
  validHistory 0 none b.transitionHistory &&
    (match b.state, b.transitionHistory with
    | .opened, [] => true
    | .escalated, [e] => e.before = .opened && e.after = .escalated
    | .resolved, [r] => r.before = .opened && r.after = .resolved
    | .resolved, [e, r] => e.before = .opened && e.after = .escalated &&
      r.before = .escalated && r.after = .resolved
    | _, _ => false) &&
    b.transitionHistory.getLast?.all fun a =>
      a.after = b.state && a.actorId = b.lastActorId && a.occurredAt ≤ updatedAt

/-! ### Work items -/

def validAssignment (updatedAt : ℕ) (a : AssignmentV1) : Bool :=
  validIdentifier a.assignmentId && validIdentifier a.assignedBy && boundedText a.reasonRef &&
    validateSha256 a.organizationDigest && a.profile.validate.isOk && a.agentId ≠ 0 &&
    a.organizationGeneration ≠ 0 && a.createdAt ≠ 0 &&
    (if a.active then a.endedAt = none else a.endedAt.any (a.createdAt ≤ ·)) &&
    a.createdAt ≤ updatedAt && a.endedAt.all (· ≤ updatedAt)

def validGate (spec : CompanyWorkItemSpecV1) (gate : QualityGateReceiptBindingV1) : Bool :=
  validateSha256 gate.gateDigest && validateSha256 gate.subjectDigest && gate.passed &&
    gate.gateId = spec.qualityGate.gateId && gate.generation = spec.qualityGate.generation &&
    gate.gateDigest = spec.qualityGate.digest

def validateWorkItem (updatedAt : ℕ) (id : WorkItemId) (w : CompanyWorkItemV1) :
    Except WorkflowError Unit := do
  ensure (id = w.spec.workItemId ∧ w.version ≠ 0 ∧ w.assignments.length ≤ maxAggregateItems ∧
    w.outputReceipts.length ≤ maxAggregateItems ∧
    w.transitionHistory.length ≤ maxAggregateItems) corrupt
  ensure (w.assignments.all (validAssignment updatedAt) ∧
    (w.assignments.map (·.assignmentId)).Nodup ∧
    w.assignments.map (·.assignmentVersion) = List.range' 1 w.assignments.length) corrupt
  ensure ((w.assignments.filter (·.active)).length = if w.needsAssignment then 1 else 0) corrupt
  if w.state = .inReview ∨ w.state = .done then
    orCorrupt (validateOutputReceipts w.spec w.outputReceipts)
  else
    ensure (w.outputReceipts = []) corrupt
  ensure (if w.state = .done then w.gateReceipt.any (validGate w.spec)
    else w.gateReceipt = none) corrupt
  ensure (validWorkHistory w updatedAt) corrupt

def validateReworkSource (items : Table WorkItemId CompanyWorkItemV1)
    (b : GovernedReworkBindingV1) : Except WorkflowError Unit := do
  let source ← orError (items.get b.sourceWorkItemId) corrupt
  ensure (source.state = .done ∧
    b.generation = (source.spec.rework.map fun r => min (r.generation + 1) (2 ^ 64 - 1)).getD 1)
    corrupt

def validateWorkGraphIfPresent (items : Table WorkItemId CompanyWorkItemV1) (updatedAt : ℕ) :
    Except WorkflowError Unit :=
  if items.values = [] then .ok ()
  else do
    validateWorkGraph (items.values.map (·.spec))
    checkAll (validateReworkSource items) (items.values.filterMap (·.spec.rework))
    checkAll (fun e => validateWorkItem updatedAt e.1 e.2) items.entries

section Project

variable (p : ProjectV1)

def reassignmentAuthorized (w : CompanyWorkItemV1) (index : ℕ)
    (audit : StateTransitionAuditV1 CompanyWorkStateV1) (actor : ParticipantBindingV1) : Bool :=
  (p.assignmentAtTransition w index).any fun a =>
    a.createdAt = audit.occurredAt && a.assignedBy = audit.actorId &&
      match a.delegatedBy with
      | none => isManager actor.role
      | some delegator => delegator = actor.agentId &&
        (p.assignmentBeforeTransition w index).map (·.agentId) = some delegator &&
        p.governance.isDirectReport a.agentId actor.agentId

def reviewPlanAuthorized (w : CompanyWorkItemV1) (index : ℕ)
    (audit : StateTransitionAuditV1 CompanyWorkStateV1) (actor : ParticipantBindingV1) : Bool :=
  isManager actor.role && index = 0 && w.spec.reviewsSource && p.dependenciesSatisfied w &&
    w.spec.dependencyIds.all fun id => (p.workItems.get id).any fun d =>
      d.transitionHistory.getLast?.any fun last =>
        last.after = .done && last.occurredAt ≤ audit.occurredAt

def dependencyAuthorized (w : CompanyWorkItemV1)
    (audit : StateTransitionAuditV1 CompanyWorkStateV1) : Bool :=
  audit.reasonRef = "dependency-contract-satisfied" &&
    w.spec.dependencyIds.any fun id => (p.workItems.get id).any fun d =>
      d.transitionHistory.any fun t => t.before = .inReview && t.after = .done &&
        t.actorAgentId = audit.actorAgentId && t.actorId = audit.actorId &&
        t.occurredAt = audit.occurredAt

def workTransitionActorIsAuthorized (w : CompanyWorkItemV1) (index : ℕ)
    (audit : StateTransitionAuditV1 CompanyWorkStateV1) (actor : ParticipantBindingV1) : Bool :=
  let assignee := (p.assignmentAtTransition w index).map (·.agentId) = some actor.agentId
  let independentReviewer := isReviewer actor.role && !assignee
  match audit.before, audit.after with
  | .done, .assigned | .inReview, .assigned =>
    p.correctionMatches w index audit && isManager actor.role
  | .blocked, .assigned =>
    if p.correctionMatches w index audit then isManager actor.role
    else reassignmentAuthorized p w index audit actor
  | .ready, .assigned => isManager actor.role &&
    (p.assignmentAtTransition w index).any fun a => a.createdAt = audit.occurredAt &&
      a.assignedBy = audit.actorId && a.delegatedBy = none
  | .assigned, .inProgress | .inProgress, .inReview => assignee
  | .inReview, .done | .inReview, .blocked => independentReviewer
  | .assigned, .blocked | .inProgress, .blocked => assignee || isManager actor.role
  | .assigned, .assigned => reassignmentAuthorized p w index audit actor
  | .dependencyPending, .ready =>
    if audit.reasonRef = "source-review-planned" then reviewPlanAuthorized p w index audit actor
    else independentReviewer && dependencyAuthorized p w audit
  | _, _ => false

def sourceReviewProfileAllowed (w : CompanyWorkItemV1) (profile : WorkProfileBindingV1)
    (reasonRef : String) : Bool :=
  w.spec.reviewsSource && profile.profileId = "web-review-v1" && profile.generation = 1 &&
    reasonRef = "source-review-profile" &&
    w.transitionHistory.head?.any fun t => t.before = .dependencyPending && t.after = .ready &&
      t.reasonRef = "source-review-planned"

def validateWorkTransition (w : CompanyWorkItemV1)
    (e : StateTransitionAuditV1 CompanyWorkStateV1 × ℕ) : Except WorkflowError Unit := do
  let actor ← orError (p.governance.participant? e.1.actorAgentId) corrupt
  ensure (actor.principalId = e.1.actorId ∧
    workTransitionActorIsAuthorized p w e.2 e.1 actor) corrupt

def validateWorkAssignment (w : CompanyWorkItemV1) (a : AssignmentV1) :
    Except WorkflowError Unit := do
  let bound ← orError (p.governance.participant? a.agentId) corrupt
  let assigner ← orError (p.governance.principal? a.assignedBy) corrupt
  ensure (bound.role = a.role ∧ bound.specialties = a.specialties ∧
    (bound.profile = a.profile ∨ sourceReviewProfileAllowed w a.profile a.reasonRef) ∧
    a.role = w.spec.requiredRole ∧ ∃ s ∈ w.spec.requiredSpecialties, s ∈ a.specialties) corrupt
  match a.delegatedBy with
  | some delegator => do
    let manager ← orError (p.governance.participant? delegator) corrupt
    ensure (assigner.agentId = manager.agentId ∧
      p.governance.isDirectReport a.agentId manager.agentId) corrupt
  | none => ensure (isManager assigner.role) corrupt

def validateWork (w : CompanyWorkItemV1) : Except WorkflowError Unit := do
  ensure ((p.governance.participant? w.spec.owner).isSome) corrupt
  checkAll (validateWorkTransition p w) w.transitionHistory.zipIdx
  ensure (p.assignmentEdges w w.transitionHistory.length = w.assignments.length) corrupt
  checkAll (validateWorkAssignment p w) w.assignments
  -- every assignment starts when the one before it ends
  ensure ((w.assignments.map (·.endedAt)).dropLast =
    (w.assignments.tail.map fun a => some a.createdAt)) corrupt
  ensure (w.state = .dependencyPending ↔ p.dependenciesSatisfied w = false) corrupt

/-! ### Corrections and archived reviews -/

def assignmentHistoryMatches (previous current : CompanyWorkItemV1) (recordedAt : ℕ) : Bool :=
  previous.assignments.length ≤ current.assignments.length &&
    (previous.assignments.zip current.assignments).all fun (old, now) =>
      old = now || (old.active && !now.active && old.endedAt = none &&
        now.endedAt.any (recordedAt ≤ ·) &&
        { now with active := old.active, endedAt := old.endedAt } = old)

def validateCorrection (c : WorkCorrectionV1) : Except WorkflowError Unit := do
  let previous := c.previous
  let current ← orError (p.workItems.get previous.spec.workItemId) corrupt
  let requester ← orError (p.governance.principal? c.requestedBy) corrupt
  let index := previous.transitionHistory.length
  let audit ← orError current.transitionHistory[index]? corrupt
  ensure (validIdentifier c.correctionId ∧ validIdentifier c.feedbackRef ∧
    previous.spec = current.spec ∧ previous.version < current.version ∧
    (previous.state = .done ∨ previous.state = .inReview ∨ previous.state = .blocked) ∧
    isManager requester.role ∧ requester.agentId = audit.actorAgentId ∧
    p.createdAt ≤ c.requestedAt ∧ c.requestedAt ≤ p.updatedAt ∧
    previous.transitionHistory = current.transitionHistory.take index ∧
    assignmentHistoryMatches previous current c.requestedAt ∧
    p.correctionMatches current index audit ∧ validWorkHistory previous c.requestedAt) corrupt
  if previous.state = .blocked then ensure (previous.outputReceipts = []) corrupt
  else orCorrupt (validateOutputReceipts previous.spec previous.outputReceipts)
  ensure (if previous.state = .done then previous.gateReceipt.any (validGate previous.spec)
    else previous.gateReceipt = none) corrupt

def correctionsOf (id : WorkItemId) : List WorkCorrectionV1 :=
  p.workCorrections.filter (·.previous.spec.workItemId = id)

def validateCorrections : Except WorkflowError Unit := do
  ensure (p.workCorrections.length ≤ maxAggregateItems ∧
    (p.workCorrections.map (·.correctionId)).Nodup ∧
    ∀ c ∈ p.workCorrections,
      (correctionsOf p c.previous.spec.workItemId).length ≤ maxCorrectionsPerWork) corrupt
  checkAll (validateCorrection p) p.workCorrections

def reworkReason (reportDigest : String) : String := "qa-source-rework:" ++ reportDigest

def reviewCause (reportDigest : String) : String := "qa-source-review:" ++ reportDigest

def validateArchivedReview (e : ArchivedSourceReviewV1) : Except WorkflowError Unit := do
  let reviewId := e.reviewWork.spec.workItemId
  let sourceId := e.sourceWork.spec.workItemId
  ensure (validateSha256 e.reportDigest ∧ validIdentifier e.blockerId ∧
    p.workItems.get reviewId = none ∧ e.reviewWork.state = .done ∧
    e.reviewWork.spec.requiredRole = .qa ∧
    (∀ c ∈ e.reviewCorrections, c.previous.spec.workItemId = reviewId) ∧
    (∀ c ∈ p.workCorrections, c.previous.spec.workItemId ≠ reviewId) ∧
    sourceId ∈ e.reviewWork.spec.dependencyIds ∧
    e.reviewWork.outputReceipts.map (·.contentDigest) = [e.reportDigest] ∧
    e.reviewWork.gateReceipt.any (·.passed) ∧ e.sourceWork.state = .done ∧
    e.sourceWork.outputReceipts.length = 1 ∧ p.createdAt ≤ e.archivedAt ∧
    e.archivedAt ≤ p.updatedAt ∧
    ∃ c ∈ p.workCorrections, c.previous = e.sourceWork ∧ c.feedbackRef = e.reportDigest ∧
      c.requestedAt = e.archivedAt) corrupt
  let blocker ← orError (p.blockers.find? (·.blockerId = e.blockerId)) corrupt
  ensure (blocker.state = .resolved ∧ blocker.workItemId = some sourceId ∧
    blocker.causeRef = reviewCause e.reportDigest ∧
    blocker.resolutionRef = some (reworkReason e.reportDigest)) corrupt
  ensure (validWorkHistory e.reviewWork e.archivedAt) corrupt
  validateOutputReceipts e.reviewWork.spec e.reviewWork.outputReceipts
  -- the archived review is checked as if it were still there
  validateCorrections
    { p with
      workItems := p.workItems.insert reviewId e.reviewWork
      workCorrections := p.workCorrections ++ e.reviewCorrections }

def validateArchivedReviews : Except WorkflowError Unit := do
  ensure ((p.archivedSourceReviews.map (·.reportDigest)).Nodup ∧
    (p.archivedSourceReviews.map (·.reviewWork.spec.workItemId)).Nodup ∧
    (p.archivedSourceReviews.flatMap fun e =>
      e.reviewCorrections.map (·.correctionId)).Nodup) corrupt
  checkAll (validateArchivedReview p) p.archivedSourceReviews

/-! ### Blockers -/

def resolutionAuthorized (b : BlockerV1) (audit : StateTransitionAuditV1 BlockerStateV1)
    (actor : ParticipantBindingV1) : Bool :=
  audit.actorAgentId = b.owner || b.escalationTarget = some audit.actorAgentId ||
    (isManager actor.role && (b.blockerKind = .budgetExhausted ||
      p.archivedSourceReviews.any fun e => e.blockerId = b.blockerId &&
        audit.reasonRef = reworkReason e.reportDigest && e.archivedAt = audit.occurredAt))

def blockerTransitionAuthorized (b : BlockerV1) (audit : StateTransitionAuditV1 BlockerStateV1)
    (actor : ParticipantBindingV1) : Bool :=
  match audit.before, audit.after with
  | .opened, .escalated => isManager actor.role
  | .opened, .resolved | .escalated, .resolved => resolutionAuthorized p b audit actor
  | _, _ => false

def validateBlockerTransition (b : BlockerV1) (audit : StateTransitionAuditV1 BlockerStateV1) :
    Except WorkflowError Unit := do
  let actor ← orError (p.governance.participant? audit.actorAgentId) corrupt
  ensure (actor.principalId = audit.actorId ∧ blockerTransitionAuthorized p b audit actor) corrupt

def validateBlocker (b : BlockerV1) : Except WorkflowError Unit := do
  let last ← orError (p.governance.principal? b.lastActorId) corrupt
  ensure (validIdentifier b.blockerId ∧ p.knowsWork b.workItemId ∧ boundedText b.causeRef ∧
    validIdentifier b.lastActorId ∧ (p.governance.participant? b.owner).isSome ∧
    (∀ t ∈ b.escalationTarget, (p.governance.participant? t).isSome ∧ b.state ≠ .opened) ∧
    (if b.state = .resolved then b.resolutionRef.any boundedText else b.resolutionRef = none) ∧
    b.createdAt ≠ 0 ∧ b.createdAt ≤ b.updatedAt ∧ b.updatedAt ≤ p.updatedAt ∧
    b.transitionHistory.length ≤ maxAggregateItems ∧ validBlockerHistory b p.updatedAt ∧
    (b.transitionHistory = [] → last.agentId = b.owner ∨ isManager last.role)) corrupt
  checkAll (validateBlockerTransition p b) b.transitionHistory

/-! ### The cost ledger -/

def usagePrefixed (operation : String) : Bool :=
  (textBytes "llm_usage_").isPrefixOf (textBytes operation)

def settledAsStated (r : CostReservationV1) : Bool :=
  match r.state with
  | .active | .released => r.committedMicros = none
  | .committed => r.committedMicros.any (· ≤ r.reservedMicros)

structure ReservationValid (r : CostReservationV1) : Prop where
  identifiers : validIdentifier r.reservationId ∧ validIdentifier r.provider ∧
    validIdentifier r.createdBy
  creator : (p.governance.principal? r.createdBy).any fun c => isManager c.role
  work : p.knowsWork r.workItemId
  usage : ∀ o ∈ r.usageEventOperationId,
    r.state = .committed ∧ usagePrefixed o ∧ validIdentifier o
  created : r.createdAt ≠ 0 ∧ r.createdAt ≤ r.updatedAt
  updated : r.updatedAt ≤ p.updatedAt
  positive : r.reservedMicros = 0 → isTokenFreeProvider r.provider
  amounts : settledAsStated r

instance (r : CostReservationV1) : Decidable (ReservationValid p r) :=
  decidable_of_iff
    ((validIdentifier r.reservationId ∧ validIdentifier r.provider ∧ validIdentifier r.createdBy) ∧
      ((p.governance.principal? r.createdBy).any fun c => isManager c.role) ∧
      p.knowsWork r.workItemId ∧
      (∀ o ∈ r.usageEventOperationId,
        r.state = .committed ∧ usagePrefixed o ∧ validIdentifier o) ∧
      (r.createdAt ≠ 0 ∧ r.createdAt ≤ r.updatedAt) ∧ r.updatedAt ≤ p.updatedAt ∧
      (r.reservedMicros = 0 → isTokenFreeProvider r.provider) ∧ settledAsStated r)
    ⟨fun ⟨a, b, c, d, e, f, g, h⟩ => ⟨a, b, c, d, e, f, g, h⟩,
      fun ⟨a, b, c, d, e, f, g, h⟩ => ⟨a, b, c, d, e, f, g, h⟩⟩

def providerTotal (provider : String) : ℕ :=
  ((p.reservations.filter (·.provider = provider)).map reservationEffectiveAmount).sum

def workTotal (id : WorkItemId) : ℕ :=
  ((p.reservations.filter (·.workItemId = some id)).map reservationEffectiveAmount).sum

/-- The ledger is recomputed from the reservations. The totals of a provider and of a work item
are parts of the first total, so they fit a machine word once it does. -/
def validateLedger : Except WorkflowError Unit := do
  checkAll (fun r => ensure (ReservationValid p r) corrupt) p.reservations
  ensure (p.reservations.map (·.reservationId)).Nodup corrupt
  ensure (p.reservations.filterMap (·.usageEventOperationId)).Nodup corrupt
  let reserved ← orError (checkedSum 64 (p.reservations.map reservationEffectiveAmount)) corrupt
  let committed ← orError (checkedSum 64 (p.reservations.map (·.committedMicros.getD 0))) corrupt
  ensure (reserved = p.reservedCostMicros ∧ committed = p.committedCostMicros) corrupt
  checkAll (fun r => do
    let ceiling ← orError (p.providerCostCeilingsMicros.get r.provider) corrupt
    ensure (providerTotal p r.provider ≤ ceiling) corrupt) p.reservations
  checkAll (fun id => do
    let work ← orError (p.workItems.get id) corrupt
    ensure (workTotal p id ≤ work.spec.budgetMicros) corrupt)
    (p.reservations.filterMap (·.workItemId))

/-! ### The lifecycle -/

def lifecycleValid : Bool :=
  let hasBlocker := p.hasUnresolvedBlocker || p.hasBlockedWork
  match p.lifecycleState with
  | .planning => p.workItems.values.all fun w =>
    w.assignments = [] && (w.state = .ready || w.state = .dependencyPending)
  | .active => p.workItems.values ≠ [] && !hasBlocker
  | .blocked => p.workItems.values ≠ [] && hasBlocker
  | .deliveryCandidate => p.allDone
  | .cancelled => true

def validateLifecycle : Except WorkflowError Unit := ensure (lifecycleValid p) corrupt

/-! ### Collaboration admissions -/

def CollaborationAdmissionInputV1.validate (i : CollaborationAdmissionInputV1) (now : ℕ) :
    Except WorkflowError Unit := do
  ensure (i.owner ≠ 0 ∧ i.remainingTimeBudgetMs ≠ 0 ∧ i.collaborationGeneration ≠ 0)
    (invalidInput "collaboration admission input is invalid")
  validateDomainId i.workItemId
  ensure (i.budget.maxParticipants ≠ 0 ∧ i.budget.maxParticipants ≤ 4 ∧ i.budget.maxRounds ≠ 0 ∧
      i.budget.maxRounds ≤ 64 ∧ i.budget.maxStalledUpdates ≠ 0 ∧
      i.budget.maxStalledUpdates ≤ i.budget.maxRounds ∧ now < i.budget.deadline ∧
      i.budget.minimumNoveltyMicros ≤ 1000000)
    (invalidInput "collaboration admission budget is invalid")
  ensure (i.budget.maxCostMicros ≤ i.remainingCostBudgetMicros ∧
      i.budget.deadline - now ≤ i.remainingTimeBudgetMs)
    (invalidInput "collaboration admission exceeds remaining budget")

def validDigests (digests : List String) (limit : ℕ) : Bool :=
  digests.length ≤ limit && digests.Nodup && digests.all validateSha256

def reservedCost (d : CollaborationAdmissionDecisionV1) : Option ℕ :=
  checkedSum 64 (d.reservations.map (·.costMicros))

def CollaborationAdmissionDecisionV1.validate (d : CollaborationAdmissionDecisionV1) (now : ℕ) :
    Except WorkflowError Unit := do
  d.input.validate d.createdAt
  ensure ((d.humanEscalation ∨ d.selectedAgents ≠ []) ∧
      d.selectedAgents.length ≤ d.input.budget.maxParticipants ∧ d.transitionSequence ≠ 0 ∧
      d.createdAt ≤ d.updatedAt ∧ d.updatedAt ≤ now)
    (invalidInput "collaboration admission decision is invalid")
  validateIdentifier d.admissionId
  ensure (d.selectedAgents.Nodup ∧ d.reservations.length = d.selectedAgents.length ∧
      if d.humanEscalation then d.selectedAgents = [] ∧ d.state = .escalated
      else d.input.owner ∈ d.selectedAgents)
    (invalidInput "collaboration admission membership is invalid")
  ensure (0 ∉ d.requestBindings ∧ d.requestBindings.Nodup)
    (invalidInput "collaboration request binding is duplicated")
  ensure ((d.reservations.map (·.agentId)).Nodup ∧
      (∀ r ∈ d.reservations, r.agentId ∈ d.selectedAgents) ∧
      (∀ r ∈ d.reservations, r.agentId ≠ 0 ∧ r.loadUnits = 1 ∧ r.released = d.state.isTerminal) ∧
      (∃ cost ∈ reservedCost d, if d.humanEscalation then cost = 0
        else cost = d.input.budget.maxCostMicros ∧ cost ≤ d.input.remainingCostBudgetMicros) ∧
      d.requestBindings.length ≤ d.input.budget.maxRounds + 1 ∧
      validDigests d.noveltyDigests d.input.budget.maxRounds ∧
      validDigests d.milestoneDigests d.input.budget.maxRounds ∧
      validDigests d.workDigests d.input.budget.maxRounds ∧
      d.stalledUpdates ≤ d.input.budget.maxRounds ∧
      d.terminationReason.isSome = d.state.isTerminal)
    (invalidInput "collaboration admission state is inconsistent")

def validateAdmission (d : CollaborationAdmissionDecisionV1) : Except WorkflowError Unit := do
  orCorrupt (d.validate p.updatedAt)
  ensure ((p.workItems.get d.input.workItemId).isSome ∧
    d.requestBindings.length = d.transitionSequence ∧
    ∀ a ∈ d.selectedAgents, (p.governance.participant? a).isSome) corrupt

/-! ### The whole project -/

def validateHeader : Except WorkflowError Unit := do
  ensure (p.version ≠ 0 ∧ p.createdAt ≠ 0 ∧ p.createdAt ≤ p.updatedAt ∧
    p.costCeilingMicros ≠ 0 ∧ p.providerCostCeilingsMicros.entries ≠ [] ∧
    p.reservedCostMicros ≤ p.costCeilingMicros ∧ p.committedCostMicros ≤ p.costCeilingMicros ∧
    p.workItems.entries.length ≤ maxAggregateItems ∧ p.blockers.length ≤ maxAggregateItems ∧
    p.reservations.length ≤ maxAggregateItems ∧
    p.collaborationAdmissions.length ≤ maxAggregateItems) corrupt
  orCorrupt (validateDomainId p.tenantId)
  orCorrupt (validateDomainId p.projectId)
  orCorrupt p.governance.validate
  ensure (∀ e ∈ p.providerCostCeilingsMicros.entries, validIdentifier e.1 ∧ e.2 ≠ 0 ∧
    e.2 ≤ p.costCeilingMicros) corrupt

def validateProject (records : Except WorkflowError Unit) : Except WorkflowError Unit := do
  validateHeader p
  validateWorkGraphIfPresent p.workItems p.updatedAt
  validateCorrections p
  validateArchivedReviews p
  checkAll (validateWork p) p.workItems.values
  ensure (p.blockers.map (·.blockerId)).Nodup corrupt
  checkAll (validateBlocker p) p.blockers
  validateLedger p
  validateLifecycle p
  checkAll (validateAdmission p) p.collaborationAdmissions
  ensure (p.collaborationAdmissions.map (·.admissionId)).Nodup corrupt
  records

end Project

end Sentinel.Workflow.Company

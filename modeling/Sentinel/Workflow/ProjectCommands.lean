import Sentinel.Lib.Machine
import Sentinel.Workflow.ProjectValidation

/-! The commands on a project (`domain_store::mutate_project` and `apply_governed_rework`, with
`work_corrections` and `source_review_rework`), and the store that runs them one after the other.

What a command reads outside the modelled part of the project (executions, agreements,
subscription calls, sessions, other projects) only decides whether it goes on; each request
carries the outcome of those checks. Commands that change none of the modelled fields are one
command, `record`. -/

namespace Sentinel.Workflow.Company
open Lib

class CompanyIds where
  /-- Of `("sentinel.workflow.company-id.v1", (kind, tenant, operation))`. -/
  idDigits : String → TenantId → Uuid128 → String
  /-- Of `("sentinel.workflow.governed-rework-item.v1", (tenant, project, operation, source,
  generation))`. -/
  reworkDigits : TenantId → ProjectId → Uuid128 → WorkItemId → ℕ → String
  idDigits_hex : ∀ kind tenant operation,
    (textBytes (idDigits kind tenant operation)).length = 24 ∧
      (textBytes (idDigits kind tenant operation)).all fun b =>
        isAsciiDigit b || (97 ≤ b && b ≤ 102)

structure WorkTransitionReceiptV1 where
  schemaVersion : ℕ
  projectId : ProjectId
  workItemId : WorkItemId
  expectedProjectVersion : ℕ
  expectedWorkVersion : ℕ
  expectedAssignmentVersion : ℕ
  fromState : CompanyWorkStateV1
  toState : CompanyWorkStateV1
  outputReceipts : List WorkOutputReceiptV1
  gateReceipt : Option QualityGateReceiptBindingV1
  phaseAEvidenceDigest : String
  reasonRef : String
  occurredAt : ℕ

inductive CollaborationProgressDispositionV1 where
  | continue
  | complete
  | block
  | cancel
  | escalate
deriving DecidableEq

structure CollaborationProgressV1 where
  expectedTransitionSequence : ℕ
  roundsDelta : ℕ
  tokensDelta : ℕ
  costDeltaMicros : ℕ
  noveltyMicros : ℕ
  noveltyDigest : String
  milestoneDigest : Option String
  workDigest : Option String
  disposition : CollaborationProgressDispositionV1
  reasonRef : String

inductive CompanyWorkflowCommandV1 where
  | planWorkGraph (items : List CompanyWorkItemSpecV1)
  | appendSourceReview (item : CompanyWorkItemSpecV1)
  | activateProject (reasonRef : String)
  | assignWork (workItemId : WorkItemId) (agentId : AgentId) (organizationGeneration : ℕ)
    (organizationDigest reasonRef : String)
  | assignSourceReview (workItemId : WorkItemId) (agentId : AgentId)
    (organizationGeneration : ℕ) (organizationDigest reasonRef : String)
    (profile : WorkProfileBindingV1)
  | reassignWork (workItemId : WorkItemId) (expectedAssignmentVersion : ℕ) (agentId : AgentId)
    (organizationGeneration : ℕ) (organizationDigest reasonRef : String)
  | delegateWork (workItemId : WorkItemId) (expectedAssignmentVersion : ℕ) (delegate : AgentId)
    (reasonRef : String)
  | applyWorkTransition (receipt : WorkTransitionReceiptV1)
  | requestWorkCorrection (workItemId : WorkItemId) (expectedWorkVersion : ℕ)
    (feedbackRef : String)
  | restartSourceAfterQa (reviewWorkItemId sourceWorkItemId : WorkItemId)
    (blockerId reportDigest : String) (expectedSourceWorkVersion : ℕ)
  | createGovernedRework (sourceCandidateDigest feedbackDigest sourceDeliveryId : String)
  | raiseBlocker (workItemId : Option WorkItemId) (causeRef : String) (owner : AgentId)
  | escalateBlocker (blockerId : String) (escalationTarget : AgentId) (reasonRef : String)
  | resolveBlocker (blockerId resolutionRef : String)
  | reserveCost (workItemId : Option WorkItemId) (provider : String) (amountMicros : ℕ)
  | commitCost (reservationId : String) (actualMicros : ℕ)
    (usageEventOperationId : Option String)
  | releaseCost (reservationId reasonRef : String)
  | admitCollaboration (input : CollaborationAdmissionInputV1)
  | progressCollaborationAdmission (admissionId : String) (progress : CollaborationProgressV1)
  | record

structure CompanyRequest where
  principal : AuthenticatedCompanyPrincipalV1
  operationId : Uuid128
  expectedVersion : ℕ
  command : CompanyWorkflowCommandV1
  now : ℕ
  /-- The checks of the command on what is outside the model. -/
  evidence : Except WorkflowError Unit
  /-- The team `select_team` finds for an admission; none means human escalation. -/
  team : Option (List AgentId)
  /-- The checks of `validate_project` on what is outside the model. -/
  records : Except WorkflowError Unit

/-! ### Shared steps -/

def ensureCollectionCapacity (length : ℕ) : Except WorkflowError Unit :=
  ensure (length < maxAggregateItems) (invalidInput "company aggregate collection limit reached")

def requireManager (r : CompanyRequest) : Except WorkflowError Unit :=
  ensure (isManager r.principal.role) unauthorized

def authorizeProjectActor (p : ProjectV1) (principal : AuthenticatedCompanyPrincipalV1) :
    Except WorkflowError AgentId := do
  ensure (principal.kind = .agent) unauthorized
  let agent ← orError principal.agentId unauthorized
  let participant ← orError (p.governance.participant? agent) unauthorized
  ensure (participant.role = principal.role ∧ participant.principalId = principal.principalId)
    unauthorized
  ensure participant.validate.isOk unauthorized
  .ok agent

def appendWorkTransition (w : CompanyWorkItemV1) (r : CompanyRequest) (actor : AgentId)
    (before after : CompanyWorkStateV1) (reasonRef : String) :
    Except WorkflowError CompanyWorkItemV1 := do
  ensureCollectionCapacity w.transitionHistory.length
  .ok { w with
    transitionHistory := w.transitionHistory ++
      [⟨before, after, r.principal.principalId, actor, reasonRef, r.now⟩] }

def refreshedLifecycle (p : ProjectV1) : ProjectLifecycleStateV1 :=
  if p.lifecycleState = .cancelled then .cancelled
  else if p.allDone then .deliveryCandidate
  else if p.hasUnresolvedBlocker || p.hasBlockedWork then .blocked
  else if p.lifecycleState = .planning then .planning
  else .active

def refreshProjectLifecycle (p : ProjectV1) : ProjectV1 :=
  { p with lifecycleState := refreshedLifecycle p }

def rememberedLifecycle (p : ProjectV1) : Option ProjectLifecycleStateV1 :=
  (p.blockers.reverse.filterMap (·.blockedFromState)).find? (· ≠ .blocked)

def restoredLifecycle (p : ProjectV1) : ProjectLifecycleStateV1 :=
  if p.hasUnresolvedBlocker then p.lifecycleState
  else (rememberedLifecycle p).getD p.lifecycleState

def restoreProjectLifecycleAfterLastBlocker (p : ProjectV1) : ProjectV1 :=
  { p with lifecycleState := restoredLifecycle p }

def isOpenBudgetBlocker (b : BlockerV1) : Bool :=
  b.blockerKind = .budgetExhausted && b.unresolved

def resolvedBlocker (r : CompanyRequest) (actor : AgentId) (before : BlockerStateV1)
    (reasonRef : String) (b : BlockerV1) : BlockerV1 :=
  { b with
    state := .resolved
    resolutionRef := some reasonRef
    lastActorId := r.principal.principalId
    updatedAt := r.now
    transitionHistory := b.transitionHistory ++
      [⟨before, .resolved, r.principal.principalId, actor, reasonRef, r.now⟩] }

def resolveBudgetBlockersIfHeadroom (p : ProjectV1) (r : CompanyRequest) (actor : AgentId)
    (reasonRef : String) : Except WorkflowError ProjectV1 :=
  if p.costCeilingMicros ≤ p.reservedCostMicros then .ok p
  else do
    checkAll (fun b => ensureCollectionCapacity b.transitionHistory.length)
      (p.blockers.filter isOpenBudgetBlocker)
    let blockers := p.blockers.map fun b =>
      if isOpenBudgetBlocker b then resolvedBlocker r actor b.state reasonRef b else b
    .ok (refreshProjectLifecycle (restoreProjectLifecycleAfterLastBlocker { p with blockers }))

def makeReady (r : CompanyRequest) (actor : AgentId) (p : ProjectV1) (id : WorkItemId) :
    Except WorkflowError ProjectV1 := do
  let w ← orError (p.workItems.get id) corrupt
  let logged ← appendWorkTransition w r actor .dependencyPending .ready
    "dependency-contract-satisfied"
  let version ← orError (checkedAdd 64 w.version 1) corrupt
  .ok { p with workItems := p.workItems.insert id { logged with state := .ready, version } }

def refreshDependencyStates (p : ProjectV1) (r : CompanyRequest) (actor : AgentId) :
    Except WorkflowError ProjectV1 :=
  let ready := p.workItems.entries.filter fun e =>
    e.2.state = .dependencyPending && p.dependenciesSatisfied e.2
  (ready.map Prod.fst).foldlM (makeReady r actor) p

section Commands

variable [CompanyIds] (p : ProjectV1) (r : CompanyRequest) (actor : AgentId)

def stableDomainId (kind : String) (tenant : TenantId) (operation : Uuid128) : String :=
  kind ++ "-" ++ CompanyIds.idDigits kind tenant operation

def newId (kind : String) : String := stableDomainId kind r.principal.tenantId r.operationId

/-! ### Work -/

def budgetTotal (specs : List CompanyWorkItemSpecV1) : Option ℕ :=
  checkedSum 64 (specs.map (·.budgetMicros))

def plannedItem (spec : CompanyWorkItemSpecV1) (state : CompanyWorkStateV1) : CompanyWorkItemV1 :=
  ⟨spec, state, 1, [], [], none, []⟩

def planWorkGraph (items : List CompanyWorkItemSpecV1) : Except WorkflowError ProjectV1 := do
  requireManager r
  validateWorkGraph items
  let total ← orError (budgetTotal items) (invalidInput "work graph budget overflow")
  ensure (total ≤ p.costCeilingMicros) (invalidInput "work graph exceeds project cost ceiling")
  ensure (p.lifecycleState = .planning ∧ p.workItems.values = []) invalidTransition
  ensure (∀ item ∈ items, (p.governance.participant? item.owner).isSome) unauthorized
  .ok { p with
    workItems := Table.ofRows (·.spec.workItemId)
      (items.map fun spec => plannedItem spec (initialState spec)) }

def sourceOutputs : List (WorkItemId × String) :=
  (p.workItems.values.filter fun w =>
    w.spec.requiredRole = .developer || w.spec.requiredRole = .designer).flatMap fun w =>
      w.spec.outputs.map fun o => (w.spec.workItemId, o.name)

def sourceIds : List WorkItemId :=
  (p.workItems.values.filter fun w =>
    w.spec.requiredRole = .developer || w.spec.requiredRole = .designer).map (·.spec.workItemId)

def checkSourceAssignee (owner : AgentId) (id : WorkItemId) : Except WorkflowError Unit := do
  let w ← orError (p.workItems.get id) corrupt
  let assignment ← orError w.currentAssignment unauthorized
  ensure (assignment.agentId ≠ owner) unauthorized

def appendSourceReview (item : CompanyWorkItemSpecV1) : Except WorkflowError ProjectV1 := do
  requireManager r
  ensure (p.lifecycleState = .deliveryCandidate ∧ p.allDone ∧
    p.workItems.get item.workItemId = none ∧ item.reviewsSource) invalidTransition
  let reviewer ← orError (p.governance.participant? item.owner) unauthorized
  ensure (reviewer.role = .qa) unauthorized
  checkAll (checkSourceAssignee p item.owner) (sourceIds p)
  let actual := item.inputs.map fun i => (i.producerWorkItemId, i.producerOutputName)
  ensure (sourceOutputs p ≠ [] ∧ actual.Nodup ∧ (∀ x ∈ actual, x ∈ sourceOutputs p) ∧
      (∀ x ∈ sourceOutputs p, x ∈ actual) ∧ item.dependencyIds = sourceIds p)
    (invalidInput "source review must cover the complete developer candidate")
  let graph := p.workItems.values.map (·.spec) ++ [item]
  validateWorkGraph graph
  let total ← orError (budgetTotal graph) (invalidInput "work graph budget overflow")
  ensure (total ≤ p.costCeilingMicros) (invalidInput "source review exceeds project cost ceiling")
  let logged ← appendWorkTransition (plannedItem item .dependencyPending) r actor
    .dependencyPending .ready "source-review-planned"
  .ok { p with
    workItems := p.workItems.insert item.workItemId { logged with state := .ready, version := 2 }
    lifecycleState := .active }

def activateProject (reasonRef : String) : Except WorkflowError ProjectV1 := do
  requireManager r
  validateText reasonRef
  ensure (p.lifecycleState = .planning ∧ p.workItems.values ≠ []) invalidTransition
  .ok { p with lifecycleState := .active }

def newAssignment (participant : ParticipantBindingV1) (profile : WorkProfileBindingV1)
    (organizationGeneration : ℕ) (organizationDigest : String) (version : ℕ)
    (delegatedBy : Option AgentId) (reasonRef : String) : AssignmentV1 where
  assignmentId := newId r "assignment"
  agentId := participant.agentId
  role := participant.role
  specialties := participant.specialties
  profile := profile
  organizationGeneration := organizationGeneration
  organizationDigest := organizationDigest
  assignmentVersion := version
  delegatedBy := delegatedBy
  reasonRef := reasonRef
  active := true
  assignedBy := r.principal.principalId
  createdAt := r.now
  endedAt := none

def fits (participant : ParticipantBindingV1) (w : CompanyWorkItemV1) : Bool :=
  participant.role = w.spec.requiredRole &&
    w.spec.requiredSpecialties.any (· ∈ participant.specialties)

def assigned (w : CompanyWorkItemV1) (a : AssignmentV1) (reasonRef : String) :
    Except WorkflowError CompanyWorkItemV1 := do
  ensureCollectionCapacity w.assignments.length
  let logged ← appendWorkTransition { w with assignments := w.assignments ++ [a] } r actor
    w.state .assigned reasonRef
  -- A build without overflow checks wraps here.
  .ok { logged with state := .assigned, version := (w.version + 1) % 2 ^ 64 }

/-- `profile` is the pinned one of a source review. -/
def assignWork (workItemId : WorkItemId) (agentId : AgentId) (organizationGeneration : ℕ)
    (organizationDigest reasonRef : String) (profile : Option WorkProfileBindingV1) :
    Except WorkflowError ProjectV1 := do
  requireManager r
  validateDigest organizationDigest
  validateText reasonRef
  ensure (organizationGeneration ≠ 0) (invalidInput "organization generation must be positive")
  let participant ← orError (p.governance.participant? agentId) unauthorized
  let w ← orError (p.workItems.get workItemId) notFound
  ensure (p.lifecycleState = .active ∧ w.assignments = [] ∧ w.state = .ready ∧
    w.spec.owner = agentId ∧ fits participant w) unauthorized
  checkAll WorkProfileBindingV1.validate profile.toList
  ensure (profile.all fun b => sourceReviewProfileAllowed w b reasonRef) unauthorized
  let next ← assigned r actor w (newAssignment r participant (profile.getD participant.profile)
    organizationGeneration organizationDigest 1 none reasonRef) reasonRef
  .ok { p with workItems := p.workItems.insert workItemId next }

def endAssignment (a : AssignmentV1) : AssignmentV1 :=
  { a with active := false, endedAt := some r.now }

def handOver (w : CompanyWorkItemV1) (current : AssignmentV1) (participant : ParticipantBindingV1)
    (organizationGeneration : ℕ) (organizationDigest : String) (delegatedBy : Option AgentId)
    (reasonRef : String) : Except WorkflowError CompanyWorkItemV1 := do
  let version ← orError (checkedAdd 64 current.assignmentVersion 1)
    (invalidInput "assignment version overflow")
  assigned r actor
    { w with assignments := modifyFirst (·.active) (endAssignment r) w.assignments }
    (newAssignment r participant participant.profile organizationGeneration organizationDigest
      version delegatedBy reasonRef) reasonRef

def reassignWork (workItemId : WorkItemId) (expectedAssignmentVersion : ℕ) (agentId : AgentId)
    (organizationGeneration : ℕ) (organizationDigest reasonRef : String) :
    Except WorkflowError ProjectV1 := do
  requireManager r
  validateDigest organizationDigest
  validateText reasonRef
  let participant ← orError (p.governance.participant? agentId) unauthorized
  let w ← orError (p.workItems.get workItemId) notFound
  let current ← orError (w.assignments.find? (·.active)) invalidTransition
  ensure (current.assignmentVersion = expectedAssignmentVersion ∧
    (w.state = .assigned ∨ w.state = .blocked) ∧ fits participant w ∧
    organizationGeneration ≠ 0) unauthorized
  let next ← handOver r actor w current participant organizationGeneration organizationDigest
    none reasonRef
  .ok (refreshProjectLifecycle { p with workItems := p.workItems.insert workItemId next })

def delegateWork (workItemId : WorkItemId) (expectedAssignmentVersion : ℕ) (delegate : AgentId)
    (reasonRef : String) : Except WorkflowError ProjectV1 := do
  validateText reasonRef
  let participant ← orError (p.governance.participant? delegate) unauthorized
  let w ← orError (p.workItems.get workItemId) notFound
  ensure (fits participant w ∧ p.governance.isDirectReport delegate actor ∧
    (w.state = .assigned ∨ w.state = .blocked)) unauthorized
  let current ← orError (w.assignments.find? (·.active)) invalidTransition
  ensure (current.agentId = actor ∧ current.assignmentVersion = expectedAssignmentVersion)
    unauthorized
  let next ← handOver r actor w current participant current.organizationGeneration
    current.organizationDigest (some actor) reasonRef
  .ok (refreshProjectLifecycle { p with workItems := p.workItems.insert workItemId next })

def legalTransition (before after : CompanyWorkStateV1) (assignee : Bool)
    (role : CompanyRoleV1) : Bool :=
  match before, after with
  | .assigned, .inProgress | .inProgress, .inReview => assignee
  | .inReview, .done | .inReview, .blocked => isReviewer role && !assignee
  | .assigned, .blocked | .inProgress, .blocked => assignee || isManager role
  | _, _ => false

def acceptedGate (w : CompanyWorkItemV1) (receipt : WorkTransitionReceiptV1) :
    Except WorkflowError (Option QualityGateReceiptBindingV1) :=
  if receipt.toState = .done then do
    let gate ← orError receipt.gateReceipt invalidTransition
    ensure (gate.passed ∧ gate.gateId = w.spec.qualityGate.gateId ∧
      gate.generation = w.spec.qualityGate.generation ∧
      gate.gateDigest = w.spec.qualityGate.digest) invalidTransition
    validateDigest gate.subjectDigest
    .ok (some gate)
  else do
    ensure (receipt.gateReceipt = none) (invalidInput "gate evidence is only valid for Done")
    .ok w.gateReceipt

def transitioned (w : CompanyWorkItemV1) (receipt : WorkTransitionReceiptV1) :
    Except WorkflowError CompanyWorkItemV1 := do
  let assignment ← orError w.currentAssignment invalidTransition
  ensure (w.version = receipt.expectedWorkVersion ∧ w.state = receipt.fromState ∧
      assignment.assignmentVersion = receipt.expectedAssignmentVersion)
    ⟨.versionConflict, false, "work transition predecessor is stale"⟩
  ensure (legalTransition receipt.fromState receipt.toState (assignment.agentId = actor)
    r.principal.role) invalidTransition
  if receipt.toState = .inReview ∨ receipt.toState = .done then
    validateOutputReceipts w.spec receipt.outputReceipts
  else
    ensure (receipt.outputReceipts = [])
      (invalidInput "work outputs are not valid for this transition")
  let gateReceipt ← acceptedGate w receipt
  let version ← orError (checkedAdd 64 w.version 1) (invalidInput "work item version overflow")
  appendWorkTransition
    { w with
      state := receipt.toState
      outputReceipts := receipt.outputReceipts
      gateReceipt := gateReceipt
      version := version } r actor w.state receipt.toState receipt.reasonRef

def applyWorkTransition (receipt : WorkTransitionReceiptV1) : Except WorkflowError ProjectV1 := do
  ensure (receipt.schemaVersion = companyDomainSchemaVersion ∧ receipt.projectId = p.projectId ∧
    receipt.expectedProjectVersion = p.version ∧ receipt.occurredAt = r.now) invalidTransition
  validateDigest receipt.phaseAEvidenceDigest
  validateText receipt.reasonRef
  let w ← orError (p.workItems.get receipt.workItemId) notFound
  let next ← transitioned r actor w receipt
  let moved ← refreshDependencyStates
    { p with workItems := p.workItems.insert receipt.workItemId next } r actor
  .ok (refreshProjectLifecycle moved)

/-! ### Corrections and rework -/

def correctable (workItemId : WorkItemId) : Bool :=
  (p.lifecycleState = .active || p.lifecycleState = .deliveryCandidate ||
      p.lifecycleState = .blocked) &&
    p.workCorrections.length < maxAggregateItems &&
    (correctionsOf p workItemId).length < maxCorrectionsPerWork &&
    (p.workItems.values.all fun w =>
      workItemId ∉ w.spec.dependencyIds || w.state = .dependencyPending) &&
    p.blockers.all fun b => !(b.unresolved && b.workItemId.all (· = workItemId))

def requestWorkCorrection (workItemId : WorkItemId) (expectedWorkVersion : ℕ)
    (feedbackRef : String) : Except WorkflowError ProjectV1 := do
  requireManager r
  validateIdentifier feedbackRef
  ensure (correctable p workItemId)
    (invalidInput "work correction requires unconsumed output and no unresolved project blocker")
  let previous ← orError (p.workItems.get workItemId) notFound
  ensure (previous.version = expectedWorkVersion) staleVersion
  ensure (previous.state = .done ∨ previous.state = .inReview ∨ previous.state = .blocked)
    invalidTransition
  ensure previous.currentAssignment.isSome invalidTransition
  let version ← orError (checkedAdd 64 previous.version 1) corrupt
  let next ← appendWorkTransition
    { previous with state := .assigned, version, outputReceipts := [], gateReceipt := none }
    r actor previous.state .assigned (newId r "correction")
  .ok (refreshProjectLifecycle
    { p with
      workItems := p.workItems.insert workItemId next
      workCorrections := p.workCorrections ++
        [⟨newId r "correction", previous, feedbackRef, r.principal.principalId, r.now⟩] })

def restartableSource (w : CompanyWorkItemV1) (expectedVersion : ℕ) : Bool :=
  w.state = .done && w.outputReceipts.length = 1 &&
    (w.spec.requiredRole = .developer || w.spec.requiredRole = .designer) &&
    w.version = expectedVersion

def negativeReview (w : CompanyWorkItemV1) (sourceWorkItemId : WorkItemId)
    (reportDigest : String) : Bool :=
  w.state = .done && w.spec.requiredRole = .qa && w.spec.rework = none &&
    sourceWorkItemId ∈ w.spec.dependencyIds &&
    w.outputReceipts.map (·.contentDigest) = [reportDigest] && w.gateReceipt.any (·.passed)

def archivedReview (review source : CompanyWorkItemV1) (blockerId reportDigest : String) :
    ProjectV1 :=
  { p with
    workItems := p.workItems.erase review.spec.workItemId
    workCorrections := p.workCorrections.filter
      (·.previous.spec.workItemId ≠ review.spec.workItemId)
    archivedSourceReviews := p.archivedSourceReviews ++
      [⟨review, correctionsOf p review.spec.workItemId, source, reportDigest, blockerId, r.now⟩]
    blockers := modifyFirst (·.blockerId = blockerId)
      (resolvedBlocker r actor .opened (reworkReason reportDigest)) p.blockers }

def restartSourceAfterQa (reviewWorkItemId sourceWorkItemId : WorkItemId)
    (blockerId reportDigest : String) (expectedSourceWorkVersion : ℕ) :
    Except WorkflowError ProjectV1 := do
  requireManager r
  validateDigest reportDigest
  validateIdentifier blockerId
  ensureCollectionCapacity p.archivedSourceReviews.length
  ensure (p.lifecycleState = .blocked ∧ ∀ e ∈ p.archivedSourceReviews,
    e.reportDigest ≠ reportDigest ∧ e.reviewWork.spec.workItemId ≠ reviewWorkItemId)
    invalidTransition
  let source ← orError ((p.workItems.get sourceWorkItemId).filter
    (restartableSource · expectedSourceWorkVersion)) invalidTransition
  let review ← orError ((p.workItems.get reviewWorkItemId).filter
    (negativeReview · sourceWorkItemId reportDigest)) invalidTransition
  ensure (∀ w ∈ p.workItems.values, reviewWorkItemId ∉ w.spec.dependencyIds ∧
      (sourceWorkItemId ∈ w.spec.dependencyIds → w.spec.workItemId = reviewWorkItemId ∨
        w.state = .dependencyPending))
    (invalidInput "QA source output has another active consumer")
  let blocker ← orError (p.blockers.find? (·.unresolved))
    (invalidInput "QA blocker authority changed")
  ensure ((p.blockers.filter (·.unresolved)).length = 1 ∧ blocker.blockerId = blockerId ∧
      blocker.state = .opened ∧ blocker.workItemId = some sourceWorkItemId ∧
      blocker.causeRef = reviewCause reportDigest ∧
      (source.assignments.find? (·.active)).any (·.agentId = blocker.owner))
    (invalidInput "QA blocker authority changed")
  requestWorkCorrection
    (restoreProjectLifecycleAfterLastBlocker
      (archivedReview p r actor review source blockerId reportDigest))
    r actor sourceWorkItemId expectedSourceWorkVersion reportDigest

def reworkGeneration (w : CompanyWorkItemV1) : ℕ := (w.spec.rework.map (·.generation)).getD 0

def reworkSources : List CompanyWorkItemV1 :=
  let current := (p.workItems.values.map reworkGeneration).foldl max 0
  p.workItems.values.filter fun w => reworkGeneration w = current

def reworkId (generation : ℕ) (source : WorkItemId) : WorkItemId :=
  "rework-" ++ CompanyIds.reworkDigits r.principal.tenantId p.projectId r.operationId source
    generation

def mappedId (generation : ℕ) (source : WorkItemId) : Except WorkflowError WorkItemId := do
  ensure (source ∈ (reworkSources p).map (·.spec.workItemId)) corrupt
  .ok (reworkId p r generation source)

def reworkItem (generation : ℕ) (sourceCandidateDigest feedbackDigest sourceDeliveryId : String)
    (source : CompanyWorkItemV1) : Except WorkflowError CompanyWorkItemV1 := do
  validateDomainId (reworkId p r generation source.spec.workItemId)
  let dependencyIds ← mapAll (mappedId p r generation) source.spec.dependencyIds
  let inputs ← mapAll (fun i => do
    let producer ← mappedId p r generation i.producerWorkItemId
    .ok { i with producerWorkItemId := producer }) source.spec.inputs
  let spec := { source.spec with
    workItemId := reworkId p r generation source.spec.workItemId
    dependencyIds := orderedSet dependencyIds
    inputs
    rework := some ⟨r.operationId, source.spec.workItemId, sourceDeliveryId,
      sourceCandidateDigest, feedbackDigest, generation⟩ }
  .ok (plannedItem spec (initialState spec))

def insertNew (items : Table WorkItemId CompanyWorkItemV1) (w : CompanyWorkItemV1) :
    Except WorkflowError (Table WorkItemId CompanyWorkItemV1) := do
  ensure (items.get w.spec.workItemId = none) corrupt
  .ok (items.insert w.spec.workItemId w)

def createGovernedRework (sourceCandidateDigest feedbackDigest sourceDeliveryId : String) :
    Except WorkflowError ProjectV1 := do
  ensure (r.principal.role = .customer) unauthorized
  validateDigest sourceCandidateDigest
  validateDigest feedbackDigest
  validateIdentifier sourceDeliveryId
  ensure (p.lifecycleState = .deliveryCandidate ∧ p.allDone) invalidTransition
  let sources := reworkSources p
  ensure (sources ≠ [] ∧ p.workItems.values.length + sources.length ≤ maxAggregateItems)
    (invalidInput "governed rework would exceed the project work limit")
  let total ← orError (budgetTotal (p.workItems.values.map (·.spec) ++ sources.map (·.spec)))
    (invalidInput "governed rework exceeds the project cost ceiling")
  ensure (total ≤ p.costCeilingMicros)
    (invalidInput "governed rework exceeds the project cost ceiling")
  let generation ← orError
    (checkedAdd 64 ((p.workItems.values.map reworkGeneration).foldl max 0) 1)
    (invalidInput "governed rework generation overflow")
  let created ← mapAll
    (reworkItem p r generation sourceCandidateDigest feedbackDigest sourceDeliveryId) sources
  let workItems ← created.foldlM insertNew p.workItems
  .ok { p with workItems, lifecycleState := .active }

/-! ### Blockers -/

def newBlocker (blockerId : String) (workItemId : Option WorkItemId) (causeRef : String)
    (owner : AgentId) (kind : BlockerKindV1) : BlockerV1 where
  blockerId := blockerId
  workItemId := workItemId
  causeRef := causeRef
  owner := owner
  escalationTarget := none
  state := .opened
  blockerKind := kind
  blockedFromState := some p.lifecycleState
  resolutionRef := none
  lastActorId := r.principal.principalId
  createdAt := r.now
  updatedAt := r.now
  transitionHistory := []

def raiseBlocker (workItemId : Option WorkItemId) (causeRef : String) (owner : AgentId) :
    Except WorkflowError ProjectV1 := do
  ensure (isManager r.principal.role ∨ owner = actor) unauthorized
  validateText causeRef
  ensure (p.knowsWork workItemId) notFound
  ensure (p.governance.participant? owner).isSome unauthorized
  ensureCollectionCapacity p.blockers.length
  .ok { p with
    blockers := p.blockers ++
      [newBlocker p r (newId r "blocker") workItemId causeRef owner .operational]
    lifecycleState := .blocked }

def escalatedBlocker (target : AgentId) (reasonRef : String) (b : BlockerV1) : BlockerV1 :=
  { b with
    state := .escalated
    escalationTarget := some target
    lastActorId := r.principal.principalId
    updatedAt := r.now
    transitionHistory := b.transitionHistory ++
      [⟨.opened, .escalated, r.principal.principalId, actor, reasonRef, r.now⟩] }

def escalateBlocker (blockerId : String) (target : AgentId) (reasonRef : String) :
    Except WorkflowError ProjectV1 := do
  requireManager r
  validateText reasonRef
  let b ← orError (p.blockers.find? (·.blockerId = blockerId)) notFound
  ensure (b.state = .opened ∧ (p.governance.participant? target).isSome) invalidTransition
  ensureCollectionCapacity b.transitionHistory.length
  .ok (refreshProjectLifecycle
    { p with
      blockers := modifyFirst (·.blockerId = blockerId)
        (escalatedBlocker r actor target reasonRef) p.blockers })

def resolveBlocker (blockerId resolutionRef : String) : Except WorkflowError ProjectV1 := do
  validateIdentifier blockerId
  validateText resolutionRef
  let b ← orError (p.blockers.find? (·.blockerId = blockerId)) notFound
  ensure (b.unresolved ∧ (b.owner = actor ∨ b.escalationTarget = some actor)) unauthorized
  ensureCollectionCapacity b.transitionHistory.length
  let before := if b.escalationTarget.isSome then .escalated else .opened
  .ok (refreshProjectLifecycle (restoreProjectLifecycleAfterLastBlocker
    { p with
      blockers := modifyFirst (·.blockerId = blockerId)
        (resolvedBlocker r actor before resolutionRef) p.blockers }))

/-! ### Costs -/

def newReservation (workItemId : Option WorkItemId) (provider : String) (amountMicros : ℕ) :
    CostReservationV1 where
  reservationId := newId r "reservation"
  workItemId := workItemId
  provider := provider
  reservedMicros := amountMicros
  committedMicros := none
  usageEventOperationId := none
  state := .active
  createdBy := r.principal.principalId
  createdAt := r.now
  updatedAt := r.now

def checkReservation (workItemId : Option WorkItemId) (provider : String) (amountMicros : ℕ) :
    Except WorkflowError Unit := do
  let ceiling ← orError (p.providerCostCeilingsMicros.get provider) unauthorized
  let reserved ← orError (checkedSum 64
    ((p.reservations.filter (·.provider = provider)).map reservationEffectiveAmount))
    (invalidInput "provider reservation overflow")
  let total ← orError (checkedAdd 64 reserved amountMicros)
    (invalidInput "provider reservation overflow")
  ensure ((amountMicros = 0 → isTokenFreeProvider provider) ∧ total ≤ ceiling)
    (invalidInput "cost reservation exceeds ceiling")
  checkAll (fun id => do
    let w ← orError (p.workItems.get id) notFound
    let current ← orError (checkedSum 64
      ((p.reservations.filter (·.workItemId = some id)).map reservationEffectiveAmount))
      (invalidInput "work item reservation overflow")
    ensure (∃ next ∈ checkedAdd 64 current amountMicros, next ≤ w.spec.budgetMicros)
      (invalidInput "cost reservation exceeds ceiling")) workItemId.toList

def exhaustsBudget (total amountMicros : ℕ) : Bool :=
  0 < amountMicros && total = p.costCeilingMicros && !p.blockers.any isOpenBudgetBlocker

def reserveCost (workItemId : Option WorkItemId) (provider : String) (amountMicros : ℕ) :
    Except WorkflowError ProjectV1 := do
  requireManager r
  ensure (p.lifecycleState = .active) invalidTransition
  validateIdentifier provider
  ensure (p.knowsWork workItemId) notFound
  let total ← orError (checkedAdd 64 p.reservedCostMicros amountMicros)
    (invalidInput "project reservation overflow")
  checkReservation p workItemId provider amountMicros
  ensure (total ≤ p.costCeilingMicros) (invalidInput "cost reservation exceeds ceiling")
  ensureCollectionCapacity p.reservations.length
  let reserved := { p with
    reservedCostMicros := total
    reservations := p.reservations ++ [newReservation r workItemId provider amountMicros] }
  if exhaustsBudget p total amountMicros then do
    ensureCollectionCapacity p.blockers.length
    .ok { reserved with
      blockers := p.blockers ++ [newBlocker p r (newId r "budget-blocker") workItemId
        "budget-exhausted" p.governance.owner .budgetExhausted]
      lifecycleState := .blocked }
  else .ok reserved

def committedReservation (actualMicros : ℕ) (usage : Option String) (c : CostReservationV1) :
    CostReservationV1 :=
  { c with
    committedMicros := some actualMicros
    usageEventOperationId := usage
    state := .committed
    updatedAt := r.now }

def checkUsageOperation (reservationId operation : String) : Except WorkflowError Unit := do
  validateIdentifier operation
  ensure (usagePrefixed operation ∧ ∀ c ∈ p.reservations, c.reservationId ≠ reservationId →
      c.usageEventOperationId ≠ some operation)
    (invalidInput "provider usage operation is not unique")

def commitCost (reservationId : String) (actualMicros : ℕ) (usage : Option String) :
    Except WorkflowError ProjectV1 := do
  requireManager r
  checkAll (checkUsageOperation p reservationId) usage.toList
  let c ← orError (p.reservations.find? (·.reservationId = reservationId)) notFound
  ensure (c.state = .active ∧ actualMicros ≤ c.reservedMicros) invalidTransition
  let total ← orError (checkedAdd 64 p.committedCostMicros actualMicros)
    (invalidInput "committed cost overflow")
  ensure (total ≤ p.costCeilingMicros) (invalidInput "committed cost exceeds ceiling")
  let reserved ← orError (checkedSub p.reservedCostMicros (c.reservedMicros - actualMicros))
    corrupt
  resolveBudgetBlockersIfHeadroom
    { p with
      reservations := modifyFirst (·.reservationId = reservationId)
        (committedReservation r actualMicros usage) p.reservations
      reservedCostMicros := reserved
      committedCostMicros := total } r actor "cost-reconciled"

def releasedReservation (c : CostReservationV1) : CostReservationV1 :=
  { c with state := .released, updatedAt := r.now }

def releaseCost (reservationId reasonRef : String) : Except WorkflowError ProjectV1 := do
  requireManager r
  validateIdentifier reservationId
  validateText reasonRef
  let c ← orError (p.reservations.find? (·.reservationId = reservationId)) notFound
  ensure (c.state = .active) invalidTransition
  let reserved ← orError (checkedSub p.reservedCostMicros c.reservedMicros) corrupt
  resolveBudgetBlockersIfHeadroom
    { p with
      reservations := modifyFirst (·.reservationId = reservationId) (releasedReservation r)
        p.reservations
      reservedCostMicros := reserved } r actor reasonRef

/-! ### Collaboration admissions -/

def availableCost : Except WorkflowError ℕ := do
  let collaboration ← orError (checkedSum 64 p.unreleasedCosts)
    (invalidInput "collaboration cost reservation overflow")
  orError (do
    let unreserved ← checkedSub p.costCeilingMicros p.reservedCostMicros
    let uncommitted ← checkedSub unreserved p.committedCostMicros
    checkedSub uncommitted collaboration)
    (invalidInput "collaboration cost authority is exhausted")

def checkCostAuthority (input : CollaborationAdmissionInputV1) : Except WorkflowError Unit := do
  let available ← availableCost p
  let w ← orError (p.workItems.get input.workItemId) notFound
  ensure (input.remainingCostBudgetMicros = available ∧
    input.budget.maxCostMicros = min w.spec.budgetMicros available) unauthorized

def policyBudget (b : CollaborationAdmissionBudgetV1) : Bool :=
  b.maxParticipants = min p.governance.participants.length 4 && b.maxRounds = 4 &&
    b.maxTokens = 32000 && b.minimumNoveltyMicros = 100000 && b.maxStalledUpdates = 2

def shareCost (total : ℕ) (members : List AgentId) : List CollaborationReservationV1 :=
  members.zipIdx.map fun (agent, i) =>
    ⟨agent, 1, total / members.length + if i < total % members.length then 1 else 0, false⟩

def admittedDecision (input : CollaborationAdmissionInputV1) : CollaborationAdmissionDecisionV1 :=
  let members := r.team.getD []
  { admissionId := newId r "collaboration-admission"
    input
    humanEscalation := r.team.isNone
    selectedAgents := members
    reservations := shareCost input.budget.maxCostMicros members
    requestBindings := [r.operationId]
    state := if r.team.isNone then .escalated else .admitted
    transitionSequence := 1
    roundsUsed := 0
    tokensUsed := 0
    costUsedMicros := 0
    noveltyDigests := []
    milestoneDigests := []
    workDigests := []
    stalledUpdates := 0
    terminationReason := if r.team.isNone then some "human-escalation-required" else none
    createdAt := r.now
    updatedAt := r.now }

def admitCollaboration (input : CollaborationAdmissionInputV1) :
    Except WorkflowError ProjectV1 := do
  requireManager r
  let w ← orError (p.workItems.get input.workItemId) notFound
  ensure (w.currentAssignment.isSome ∧ policyBudget p input.budget ∧
    input.remainingTimeBudgetMs = 300000) unauthorized
  checkCostAuthority p input
  ensure (∀ d ∈ p.collaborationAdmissions, d.input.workItemId = input.workItemId →
      d.state.isTerminal)
    (invalidInput "work item already has an active collaboration admission")
  let decision := admittedDecision r input
  ensure (∀ d ∈ p.collaborationAdmissions, d.admissionId ≠ decision.admissionId) corrupt
  input.validate r.now
  decision.validate r.now
  ensureCollectionCapacity p.collaborationAdmissions.length
  .ok { p with collaborationAdmissions := p.collaborationAdmissions ++ [decision] }

def reported (d : CollaborationAdmissionDecisionV1) (g : CollaborationProgressV1) :
    Except WorkflowError CollaborationAdmissionDecisionV1 := do
  let roundsUsed ← orError (checkedAdd 16 d.roundsUsed g.roundsDelta)
    (invalidInput "collaboration round counter overflow")
  let tokensUsed ← orError (checkedAdd 64 d.tokensUsed g.tokensDelta)
    (invalidInput "collaboration token counter overflow")
  let costUsedMicros ← orError (checkedAdd 64 d.costUsedMicros g.costDeltaMicros)
    (invalidInput "collaboration cost counter overflow")
  let milestone := g.milestoneDigest.filter (· ∉ d.milestoneDigests)
  .ok { d with
    roundsUsed
    tokensUsed
    costUsedMicros
    noveltyDigests := d.noveltyDigests ++ [g.noveltyDigest].filter (· ∉ d.noveltyDigests)
    milestoneDigests := d.milestoneDigests ++ milestone.toList
    stalledUpdates := if milestone.isSome then 0 else min (d.stalledUpdates + 1) (2 ^ 16 - 1)
    workDigests := d.workDigests ++ (g.workDigest.filter (· ∉ d.workDigests)).toList }

def budgetExceeded (d : CollaborationAdmissionDecisionV1) (g : CollaborationProgressV1)
    (now : ℕ) : Bool :=
  let b := d.input.budget
  b.deadline ≤ now || b.maxRounds < d.roundsUsed || b.maxTokens < d.tokensUsed ||
    b.maxCostMicros < d.costUsedMicros ||
    (g.disposition = .continue && (b.maxRounds ≤ d.roundsUsed || b.maxTokens ≤ d.tokensUsed ||
      b.maxCostMicros ≤ d.costUsedMicros))

def progressedState (before d : CollaborationAdmissionDecisionV1) (g : CollaborationProgressV1)
    (now : ℕ) : CollaborationAdmissionStateV1 × Option String :=
  let duplicateWork := g.workDigest.any (· ∈ before.workDigests)
  let stalled := d.input.budget.maxStalledUpdates < d.stalledUpdates
  if budgetExceeded d g now then (.budgetExhausted, some "collaboration-budget-exhausted")
  else if g.noveltyDigest ∈ before.noveltyDigests || duplicateWork ||
      g.noveltyMicros < d.input.budget.minimumNoveltyMicros || stalled then
    (.blocked, some (if duplicateWork then "collaboration-duplicate-work"
      else if stalled then "collaboration-stalled-progress"
      else "collaboration-no-new-information"))
  else match g.disposition with
    | .continue => (.active, before.terminationReason)
    | .complete => (.completed, some g.reasonRef)
    | .block => (.blocked, some g.reasonRef)
    | .cancel => (.cancelled, some g.reasonRef)
    | .escalate => (.escalated, some g.reasonRef)

def applyCollaborationProgress (d : CollaborationAdmissionDecisionV1)
    (g : CollaborationProgressV1) (now : ℕ) :
    Except WorkflowError CollaborationAdmissionDecisionV1 := do
  d.validate now
  ensure (d.state.isTerminal = false ∧ g.expectedTransitionSequence = d.transitionSequence ∧
      d.updatedAt ≤ now)
    ⟨.invalidTransition, false, "collaboration admission progress is stale"⟩
  ensure (g.roundsDelta ≠ 0 ∧ g.noveltyMicros ≤ 1000000)
    (invalidInput "collaboration progress is not bounded")
  validateText g.reasonRef
  validateDigest g.noveltyDigest
  checkAll validateDigest g.milestoneDigest.toList
  checkAll validateDigest g.workDigest.toList
  let counted ← reported d g
  let (state, terminationReason) := progressedState d counted g now
  let transitionSequence ← orError (checkedAdd 64 d.transitionSequence 1)
    (invalidInput "collaboration transition sequence overflow")
  let next := { counted with
    state
    terminationReason
    reservations := if state.isTerminal then d.reservations.map fun c => { c with released := true }
      else d.reservations
    transitionSequence
    updatedAt := now }
  next.validate now
  .ok next

def isLatestForWork (d : CollaborationAdmissionDecisionV1) : Bool :=
  p.collaborationAdmissions.all fun e => e.input.workItemId ≠ d.input.workItemId ||
    e.input.collaborationGeneration ≤ d.input.collaborationGeneration

def progressCollaborationAdmission (admissionId : String) (g : CollaborationProgressV1) :
    Except WorkflowError ProjectV1 := do
  validateIdentifier admissionId
  let d ← orError (p.collaborationAdmissions.find? (·.admissionId = admissionId)) notFound
  ensure (isLatestForWork p d) unauthorized
  ensure (isManager r.principal.role ∨ actor ∈ d.selectedAgents) unauthorized
  ensure ((g.disposition = .complete ∨ g.disposition = .cancel) →
    isManager r.principal.role ∨ actor = d.input.owner) unauthorized
  let next ← applyCollaborationProgress d g r.now
  ensure (r.operationId ∉ next.requestBindings)
    (invalidInput "collaboration request binding is duplicated")
  let bound := { next with requestBindings := next.requestBindings ++ [r.operationId] }
  bound.validate r.now
  .ok { p with
    collaborationAdmissions := modifyFirst (·.admissionId = admissionId) (fun _ => bound)
      p.collaborationAdmissions }

/-! ### The store -/

def branch : Except WorkflowError ProjectV1 :=
  match r.command with
  | .planWorkGraph items => planWorkGraph p r items
  | .appendSourceReview item => appendSourceReview p r actor item
  | .activateProject reasonRef => activateProject p r reasonRef
  | .assignWork id agent generation digest reasonRef =>
    assignWork p r actor id agent generation digest reasonRef none
  | .assignSourceReview id agent generation digest reasonRef profile =>
    assignWork p r actor id agent generation digest reasonRef (some profile)
  | .reassignWork id version agent generation digest reasonRef =>
    reassignWork p r actor id version agent generation digest reasonRef
  | .delegateWork id version delegate reasonRef =>
    delegateWork p r actor id version delegate reasonRef
  | .applyWorkTransition receipt => applyWorkTransition p r actor receipt
  | .requestWorkCorrection id version feedbackRef =>
    requestWorkCorrection p r actor id version feedbackRef
  | .restartSourceAfterQa review source blockerId reportDigest version =>
    restartSourceAfterQa p r actor review source blockerId reportDigest version
  | .createGovernedRework candidate feedback delivery =>
    createGovernedRework p r candidate feedback delivery
  | .raiseBlocker id causeRef owner => raiseBlocker p r actor id causeRef owner
  | .escalateBlocker id target reasonRef => escalateBlocker p r actor id target reasonRef
  | .resolveBlocker id resolutionRef => resolveBlocker p r actor id resolutionRef
  | .reserveCost id provider amount => reserveCost p r id provider amount
  | .commitCost id actual usage => commitCost p r actor id actual usage
  | .releaseCost id reasonRef => releaseCost p r actor id reasonRef
  | .admitCollaboration input => admitCollaboration p r input
  | .progressCollaborationAdmission id progress =>
    progressCollaborationAdmission p r actor id progress
  | .record => .ok p

def commandActor : Except WorkflowError AgentId :=
  match r.command with
  | .createGovernedRework .. => .ok 0
  | _ => authorizeProjectActor p r.principal

omit [CompanyIds] in
def sealed (q : ProjectV1) : Except WorkflowError ProjectV1 := do
  let version ← orError (checkedAdd 64 q.version 1) (invalidInput "project version overflow")
  let next := { q with version, updatedAt := r.now }
  validateProject next r.records
  .ok next

def applyCompanyCommand : Except WorkflowError ProjectV1 := do
  r.principal.validate
  ensure (r.now ≠ 0) (invalidInput "company command time must be positive")
  ensure (r.principal.tenantId = p.tenantId) notFound
  ensure (p.updatedAt ≤ r.now) (invalidInput "company command time predates durable state")
  ensure (p.version = r.expectedVersion) staleVersion
  let actor ← commandActor p r
  r.evidence
  let q ← branch p r actor
  sealed r q

def acceptProposal (governance : ProposalGovernanceV1) (costCeilingMicros : ℕ)
    (providerCostCeilingsMicros : Table String ℕ) : Except WorkflowError ProjectV1 := do
  r.principal.validate
  ensure (r.now ≠ 0) (invalidInput "company command time must be positive")
  ensure (r.principal.role = .customer) unauthorized
  r.evidence
  let project : ProjectV1 :=
    { tenantId := r.principal.tenantId
      projectId := newId r "project"
      governance
      costCeilingMicros
      providerCostCeilingsMicros
      lifecycleState := .planning
      reservedCostMicros := 0
      committedCostMicros := 0
      workItems := Table.empty
      blockers := []
      reservations := []
      workCorrections := []
      archivedSourceReviews := []
      collaborationAdmissions := []
      version := 1
      createdAt := r.now
      updatedAt := r.now }
  validateProject project (.ok ())
  .ok project

end Commands

def authorityNamespace (principal : AuthenticatedCompanyPrincipalV1) : String :=
  "company-v1:" ++ principal.tenantId ++ ":" ++ principal.principalId

structure ProjectStore where
  project : ProjectV1
  operations : List (String × Uuid128)

inductive CompanyAnswer where
  | accepted
  | refused (error : WorkflowError)
  /-- The operation was answered before, or is bound to another request. -/
  | replayed
deriving DecidableEq

def machine [CompanyIds] : Machine ProjectStore CompanyRequest CompanyAnswer where
  call s r :=
    if (authorityNamespace r.principal, r.operationId) ∈ s.operations then (s, .replayed)
    else match applyCompanyCommand s.project r with
      | .ok q =>
        (⟨q, (authorityNamespace r.principal, r.operationId) :: s.operations⟩, .accepted)
      | .error e => (s, .refused e)

def Accepted [CompanyIds] (s : ProjectStore) (r : CompanyRequest) : Prop :=
  (machine.call s r).2 = .accepted

instance [CompanyIds] (s : ProjectStore) (r : CompanyRequest) : Decidable (Accepted s r) :=
  inferInstanceAs (Decidable ((machine.call s r).2 = .accepted))

end Sentinel.Workflow.Company

import Sentinel.Lib.Rows
import Sentinel.Lib.Table
import Sentinel.Workflow.Authority

/-! The project aggregate of the company domain (`sentinel-workflow`, modules `domain` and
`admission`): who takes part, the graph of work items, blockers, the cost ledger and the
collaboration admissions, with the functions of `domain_store` that only read it. Sets are the
lists of their members in order. -/

namespace Sentinel.Workflow.Company
open Lib

def maxCompanyItems : ℕ := 256
def maxAggregateItems : ℕ := 128
def maxCollectionItems : ℕ := 128
def maxTextBytes : ℕ := 4096
def maxCorrectionsPerWork : ℕ := 4

def invalidTransition : WorkflowError :=
  ⟨.invalidTransition, false, "company aggregate transition is invalid"⟩

def notFound : WorkflowError := ⟨.notFound, false, "company aggregate was not found"⟩

def corrupt : WorkflowError :=
  ⟨.corruptStore, false, "company workflow store integrity validation failed"⟩

def staleVersion : WorkflowError :=
  ⟨.versionConflict, false, "company aggregate version is stale"⟩

/-- No control character in UTF-8: no byte below the blank, no `7F`, and no `C2` followed by
`80` to `9F`. -/
def noControl : List UInt8 → Bool
  | [] => true
  | b :: rest => 32 ≤ b && b ≠ 127 && !(b = 194 && rest.head?.any (· < 160)) && noControl rest

def boundedText (value : String) : Bool :=
  textBytes value ≠ [] && (textBytes value).length ≤ maxTextBytes && noControl (textBytes value)

def validateText (value : String) : Except WorkflowError Unit :=
  ensure (boundedText value) (invalidInput "bounded workflow text is invalid")

def orderedSet (values : List String) : List String :=
  (Table.ofRows id values).values

structure WorkProfileBindingV1 where
  profileId : String
  generation : ℕ
  digest : String
deriving DecidableEq

def WorkProfileBindingV1.validate (b : WorkProfileBindingV1) : Except WorkflowError Unit := do
  validateIdentifier b.profileId
  validateDigest b.digest
  ensure (b.generation ≠ 0) (invalidInput "work profile generation must be positive")

structure ParticipantBindingV1 where
  agentId : AgentId
  principalId : String
  role : CompanyRoleV1
  specialties : List String
  reportsTo : Option AgentId
  profile : WorkProfileBindingV1

def ParticipantBindingV1.validate (b : ParticipantBindingV1) : Except WorkflowError Unit := do
  validateIdentifier b.principalId
  ensure (b.agentId ≠ 0 ∧ b.role ≠ .customer ∧ b.specialties ≠ [] ∧
      b.specialties.length ≤ maxCollectionItems ∧ b.reportsTo ≠ some b.agentId)
    (invalidInput "participant binding is invalid")
  checkAll validateIdentifier b.specialties
  b.profile.validate

structure ProposalGovernanceV1 where
  owner : AgentId
  participants : List ParticipantBindingV1
  projectProfile : WorkProfileBindingV1

namespace ProposalGovernanceV1

variable (g : ProposalGovernanceV1)

def participant? (agent : AgentId) : Option ParticipantBindingV1 :=
  g.participants.find? (·.agentId = agent)

def principal? (principalId : String) : Option ParticipantBindingV1 :=
  g.participants.find? (·.principalId = principalId)

def isDirectReport (candidate manager : AgentId) : Bool :=
  g.participants.any fun p => p.agentId = candidate && p.reportsTo = some manager

/-- Follow the managers of an agent until there is none; no agent may come up twice. The agents
seen are participants, so one step more than there are participants is enough. -/
def climb : ℕ → Option AgentId → List AgentId → Bool
  | _, none, _ => true
  | 0, some _, _ => false
  | fuel + 1, some agent, seen =>
    agent ∉ seen && climb fuel ((g.participant? agent).bind (·.reportsTo)) (agent :: seen)

def validate : Except WorkflowError Unit := do
  ensure (g.owner ≠ 0 ∧ g.participants ≠ [] ∧ g.participants.length ≤ 64)
    (invalidInput "proposal governance is invalid")
  checkAll ParticipantBindingV1.validate g.participants
  ensure ((g.participants.map (·.agentId)).Nodup ∧ (g.participants.map (·.principalId)).Nodup)
    (invalidInput "participant identity is duplicated")
  ensure (∀ a ∈ g.participants, ∀ b ∈ g.participants,
      a.profile.profileId = b.profile.profileId → a.profile = b.profile)
    (invalidInput "shared profile binding is inconsistent")
  ensure (g.owner ∈ g.participants.map (·.agentId))
    (invalidInput "project owner is not a participant")
  ensure (∀ p ∈ g.participants, ∀ m ∈ p.reportsTo, m ∈ g.participants.map (·.agentId))
    (invalidInput "participant hierarchy references an unknown manager")
  ensure (∀ p ∈ g.participants, g.climb (g.participants.length + 1) (some p.agentId) [])
    (invalidInput "participant hierarchy contains a cycle")
  g.projectProfile.validate

end ProposalGovernanceV1

def isManager (role : CompanyRoleV1) : Bool := role = .projectManager || role = .technicalLead

def isReviewer (role : CompanyRoleV1) : Bool := role = .qa || role = .releaseManager

inductive CompanyWorkStateV1 where
  | dependencyPending
  | ready
  | assigned
  | inProgress
  | inReview
  | done
  | blocked
  | cancelled
deriving DecidableEq

inductive ProjectLifecycleStateV1 where
  | planning
  | active
  | blocked
  | deliveryCandidate
  | cancelled
deriving DecidableEq

structure WorkOutputContractV1 where
  name : String
  mediaType : String
  digestAlgorithm : String
  contractGeneration : ℕ
  contractDigest : String
deriving DecidableEq

structure WorkInputContractV1 where
  name : String
  producerWorkItemId : WorkItemId
  producerOutputName : String
  expectedContractGeneration : ℕ
  expectedContractDigest : String
deriving DecidableEq

structure QualityGateBindingV1 where
  gateId : String
  generation : ℕ
  digest : String
deriving DecidableEq

structure WorkOutputReceiptV1 where
  name : String
  contractGeneration : ℕ
  contractDigest : String
  contentDigest : String
deriving DecidableEq

structure QualityGateReceiptBindingV1 where
  gateId : String
  generation : ℕ
  gateDigest : String
  subjectDigest : String
  passed : Bool
deriving DecidableEq

structure GovernedReworkBindingV1 where
  operationId : Uuid128
  sourceWorkItemId : WorkItemId
  sourceDeliveryId : String
  sourceCandidateDigest : String
  feedbackDigest : String
  generation : ℕ
deriving DecidableEq

structure CompanyWorkItemSpecV1 where
  workItemId : WorkItemId
  title : String
  objective : String
  requiredRole : CompanyRoleV1
  requiredSpecialties : List String
  dependencyIds : List WorkItemId
  owner : AgentId
  inputs : List WorkInputContractV1
  outputs : List WorkOutputContractV1
  qualityGate : QualityGateBindingV1
  budgetMicros : ℕ
  rework : Option GovernedReworkBindingV1
deriving DecidableEq

def qaReportMediaType : String := "application/vnd.sentinel.qa-report+json"

namespace CompanyWorkItemSpecV1

variable (s : CompanyWorkItemSpecV1)

def reviewsSource : Bool :=
  s.requiredRole = .qa && s.rework = none && s.inputs ≠ [] &&
    s.outputs.map (·.mediaType) = [qaReportMediaType]

def validateInput (i : WorkInputContractV1) : Except WorkflowError Unit := do
  validateIdentifier i.name
  validateDomainId i.producerWorkItemId
  validateIdentifier i.producerOutputName
  validateDigest i.expectedContractDigest
  ensure (i.expectedContractGeneration ≠ 0 ∧ i.producerWorkItemId ∈ s.dependencyIds)
    (invalidInput "work input contract is invalid")

def validateOutput (o : WorkOutputContractV1) : Except WorkflowError Unit := do
  validateIdentifier o.name
  validateText o.mediaType
  validateIdentifier o.digestAlgorithm
  validateDigest o.contractDigest
  ensure (o.contractGeneration ≠ 0 ∧ o.digestAlgorithm = "sha256")
    (invalidInput "work output contract is invalid")

def validateRework (b : GovernedReworkBindingV1) : Except WorkflowError Unit := do
  ensure (b.operationId ≠ 0) (invalidInput "governed rework operation is invalid")
  validateDomainId b.sourceWorkItemId
  validateIdentifier b.sourceDeliveryId
  validateDigest b.sourceCandidateDigest
  validateDigest b.feedbackDigest
  ensure (b.generation ≠ 0 ∧ b.sourceWorkItemId ≠ s.workItemId)
    (invalidInput "governed rework binding is invalid")

def validate : Except WorkflowError Unit := do
  validateDomainId s.workItemId
  validateText s.title
  validateText s.objective
  ensure (s.requiredRole ≠ .customer ∧ s.requiredSpecialties ≠ [] ∧ s.owner ≠ 0 ∧
      (s.budgetMicros = 0 → s.reviewsSource) ∧ s.workItemId ∉ s.dependencyIds)
    (invalidInput "work item specification is invalid")
  checkAll validateIdentifier s.requiredSpecialties
  checkAll s.validateInput s.inputs
  ensure (s.inputs.map (·.name)).Nodup (invalidInput "work input contract is invalid")
  checkAll validateOutput s.outputs
  ensure (s.outputs.map (·.name)).Nodup (invalidInput "work output contract is invalid")
  validateIdentifier s.qualityGate.gateId
  validateDigest s.qualityGate.digest
  ensure (s.qualityGate.generation ≠ 0) (invalidInput "quality gate binding is invalid")
  checkAll s.validateRework s.rework.toList

end CompanyWorkItemSpecV1

structure AssignmentV1 where
  assignmentId : String
  agentId : AgentId
  role : CompanyRoleV1
  specialties : List String
  profile : WorkProfileBindingV1
  organizationGeneration : ℕ
  organizationDigest : String
  assignmentVersion : ℕ
  delegatedBy : Option AgentId
  reasonRef : String
  active : Bool
  assignedBy : String
  createdAt : ℕ
  endedAt : Option ℕ
deriving DecidableEq

/-- One entry of a transition log. The source stores the names of the states. -/
structure StateTransitionAuditV1 (σ : Type) where
  before : σ
  after : σ
  actorId : String
  actorAgentId : AgentId
  reasonRef : String
  occurredAt : ℕ
deriving DecidableEq

structure CompanyWorkItemV1 where
  spec : CompanyWorkItemSpecV1
  state : CompanyWorkStateV1
  version : ℕ
  assignments : List AssignmentV1
  outputReceipts : List WorkOutputReceiptV1
  gateReceipt : Option QualityGateReceiptBindingV1
  transitionHistory : List (StateTransitionAuditV1 CompanyWorkStateV1)
deriving DecidableEq

namespace CompanyWorkItemV1

variable (w : CompanyWorkItemV1)

def currentAssignment : Option AssignmentV1 :=
  match w.assignments.filter (·.active) with
  | [a] => some a
  | _ => none

def needsAssignment : Bool :=
  w.state = .assigned || w.state = .inProgress || w.state = .inReview || w.state = .done ||
    w.state = .blocked

end CompanyWorkItemV1

structure WorkCorrectionV1 where
  correctionId : String
  previous : CompanyWorkItemV1
  feedbackRef : String
  requestedBy : String
  requestedAt : ℕ

structure ArchivedSourceReviewV1 where
  reviewWork : CompanyWorkItemV1
  reviewCorrections : List WorkCorrectionV1
  sourceWork : CompanyWorkItemV1
  reportDigest : String
  blockerId : String
  archivedAt : ℕ

inductive BlockerStateV1 where
  | opened
  | escalated
  | resolved
deriving DecidableEq

inductive BlockerKindV1 where
  | operational
  | budgetExhausted
deriving DecidableEq

structure BlockerV1 where
  blockerId : String
  workItemId : Option WorkItemId
  causeRef : String
  owner : AgentId
  escalationTarget : Option AgentId
  state : BlockerStateV1
  blockerKind : BlockerKindV1
  blockedFromState : Option ProjectLifecycleStateV1
  resolutionRef : Option String
  lastActorId : String
  createdAt : ℕ
  updatedAt : ℕ
  transitionHistory : List (StateTransitionAuditV1 BlockerStateV1)

def BlockerV1.unresolved (b : BlockerV1) : Bool := b.state ≠ .resolved

inductive CostReservationStateV1 where
  | active
  | committed
  | released
deriving DecidableEq

structure CostReservationV1 where
  reservationId : String
  workItemId : Option WorkItemId
  provider : String
  reservedMicros : ℕ
  committedMicros : Option ℕ
  usageEventOperationId : Option String
  state : CostReservationStateV1
  createdBy : String
  createdAt : ℕ
  updatedAt : ℕ

def reservationEffectiveAmount (r : CostReservationV1) : ℕ :=
  match r.state with
  | .active => r.reservedMicros
  | .committed => r.committedMicros.getD 0
  | .released => 0

/-- `local` is kept for snapshots stored before `local-loop`. -/
def isTokenFreeProvider (provider : String) : Bool :=
  provider = "local-loop" || provider = "local"

structure CollaborationAdmissionBudgetV1 where
  maxParticipants : ℕ
  maxRounds : ℕ
  maxTokens : ℕ
  maxCostMicros : ℕ
  deadline : ℕ
  minimumNoveltyMicros : ℕ
  maxStalledUpdates : ℕ

structure CollaborationAdmissionInputV1 where
  workItemId : WorkItemId
  owner : AgentId
  remainingCostBudgetMicros : ℕ
  remainingTimeBudgetMs : ℕ
  collaborationGeneration : ℕ
  budget : CollaborationAdmissionBudgetV1

structure CollaborationReservationV1 where
  agentId : AgentId
  loadUnits : ℕ
  costMicros : ℕ
  released : Bool

inductive CollaborationAdmissionStateV1 where
  | admitted
  | active
  | completed
  | blocked
  | cancelled
  | escalated
  | budgetExhausted
deriving DecidableEq

def CollaborationAdmissionStateV1.isTerminal : CollaborationAdmissionStateV1 → Bool
  | .admitted | .active => false
  | .completed | .blocked | .cancelled | .escalated | .budgetExhausted => true

structure CollaborationAdmissionDecisionV1 where
  admissionId : String
  input : CollaborationAdmissionInputV1
  /-- The mode is human escalation. -/
  humanEscalation : Bool
  selectedAgents : List AgentId
  reservations : List CollaborationReservationV1
  requestBindings : List Uuid128
  state : CollaborationAdmissionStateV1
  transitionSequence : ℕ
  roundsUsed : ℕ
  tokensUsed : ℕ
  costUsedMicros : ℕ
  noveltyDigests : List String
  milestoneDigests : List String
  workDigests : List String
  stalledUpdates : ℕ
  terminationReason : Option String
  createdAt : ℕ
  updatedAt : ℕ

structure ProjectV1 where
  tenantId : TenantId
  projectId : ProjectId
  governance : ProposalGovernanceV1
  costCeilingMicros : ℕ
  providerCostCeilingsMicros : Table String ℕ
  lifecycleState : ProjectLifecycleStateV1
  reservedCostMicros : ℕ
  committedCostMicros : ℕ
  workItems : Table WorkItemId CompanyWorkItemV1
  blockers : List BlockerV1
  reservations : List CostReservationV1
  workCorrections : List WorkCorrectionV1
  archivedSourceReviews : List ArchivedSourceReviewV1
  collaborationAdmissions : List CollaborationAdmissionDecisionV1
  version : ℕ
  createdAt : ℕ
  updatedAt : ℕ

namespace ProjectV1

variable (p : ProjectV1)

def allDone : Bool := p.workItems.values ≠ [] && p.workItems.values.all (·.state = .done)

def hasUnresolvedBlocker : Bool := p.blockers.any (·.unresolved)

def hasBlockedWork : Bool := p.workItems.values.any (·.state = .blocked)

def knowsWork (id : Option WorkItemId) : Bool := id.all fun i => (p.workItems.get i).isSome

def inputDelivered (dependency : CompanyWorkItemV1) (i : WorkInputContractV1) : Bool :=
  dependency.outputReceipts.any fun o => o.name = i.producerOutputName &&
    o.contractGeneration = i.expectedContractGeneration &&
    o.contractDigest = i.expectedContractDigest

def dependenciesSatisfied (w : CompanyWorkItemV1) : Bool :=
  w.spec.dependencyIds.all fun id => (p.workItems.get id).any fun dependency =>
    dependency.state = .done &&
      (w.spec.inputs.filter (·.producerWorkItemId = id)).all (inputDelivered dependency)

def correctionMatches (w : CompanyWorkItemV1) (index : ℕ)
    (audit : StateTransitionAuditV1 CompanyWorkStateV1) : Bool :=
  p.workCorrections.any fun c => c.previous.spec.workItemId = w.spec.workItemId &&
    c.previous.transitionHistory.length = index && c.correctionId = audit.reasonRef &&
    c.requestedBy = audit.actorId && c.requestedAt = audit.occurredAt &&
    c.previous.state = audit.before && audit.after = .assigned

def isAssignmentEdge (w : CompanyWorkItemV1) (index : ℕ)
    (audit : StateTransitionAuditV1 CompanyWorkStateV1) : Bool :=
  audit.after = .assigned &&
    (audit.before = .ready || audit.before = .assigned || audit.before = .blocked) &&
    !p.correctionMatches w index audit

def assignmentEdges (w : CompanyWorkItemV1) (count : ℕ) : ℕ :=
  ((w.transitionHistory.take count).zipIdx.filter fun e => p.isAssignmentEdge w e.2 e.1).length

def assignmentAtTransition (w : CompanyWorkItemV1) (index : ℕ) : Option AssignmentV1 :=
  match p.assignmentEdges w (index + 1) with
  | 0 => none
  | n + 1 => w.assignments[n]?

def assignmentBeforeTransition (w : CompanyWorkItemV1) (index : ℕ) : Option AssignmentV1 :=
  match p.assignmentEdges w (index + 1) with
  | 0 | 1 => none
  | n + 2 => w.assignments[n]?

def effectiveTotal : ℕ := (p.reservations.map reservationEffectiveAmount).sum

def unreleasedCosts : List ℕ :=
  (p.collaborationAdmissions.filter fun d => !d.state.isTerminal).flatMap fun d =>
    (d.reservations.filter fun r => !r.released).map (·.costMicros)

end ProjectV1

end Sentinel.Workflow.Company

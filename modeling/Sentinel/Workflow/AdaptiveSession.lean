import Sentinel.Workflow.AdaptiveFunding
import Sentinel.Lib.Machine

/-! The adaptive session (`sentinel-workflow`, module `adaptive`): a journalled machine that lends
model and tool calls to an agent one at a time. Continuations reviewed by the leadership and
funding epochs move its ceilings and its deadline. -/

namespace Sentinel.Workflow
open Lib

def adaptiveContinuationMaxWindows : ℕ := 3
def adaptiveContinuationMaxWindowMs : ℕ := 300000
def adaptiveToolMaxBytes : ℕ := 256 * 1024

structure TextReplacement where
  old : String
  new : String
  expectedOccurrences : ℕ
deriving DecidableEq

inductive WorkbenchTool where
  | listDirectory (path : String) (after : Option String) (maxEntries : ℕ)
  | inspectFile (path : String) (maxBytes : ℕ)
  | writeFile (path content : String) (expectedSha256 : Option String)
  | applyPatch (path expectedSha256 : String) (replacements : List TextReplacement)
  | runCommand (program : String) (args : List String)
  | runTests (suiteId program : String) (args : List String)
  | packageArtifact (artifactKind mediaType : String) (paths : List String)
deriving DecidableEq

def WorkbenchTool.looks : WorkbenchTool → Bool
  | .listDirectory .. | .inspectFile .. => true
  | _ => false

inductive AdaptiveCollaborationActionV1 where
  | askQuestion (questionRef : String)
  | offerHandoff (consumerRole : CompanyRoleV1) (artifactDigests : List String)
      (reasonRef : String)
deriving DecidableEq

inductive AdaptiveContinuationSourceV1 where
  | blocked (reasonCode : String)
  | blockedResolved (reasonCode resolutionEventId : String)
  | modelUnknown
  | budgetWindowExhausted (activeAllowanceDigest continuationHistoryDigest : String)
deriving DecidableEq

def AdaptiveContinuationSourceV1.isBudgetWindowExhausted : AdaptiveContinuationSourceV1 → Bool
  | .budgetWindowExhausted .. => true
  | _ => false

structure AdaptiveLeadershipLocalAdoptionFundingBindingV2 where
  fundingId : String
  receiptDigest : String
  bindingDigest : String
deriving DecidableEq

inductive AdaptiveLeadershipReviewDecisionKindV1 where
  | deferBudget
  | resolveBlocked
  | keepBlocked
  | keepUnknown
  | continue (additionalModelCalls windowMs : ℕ)
deriving DecidableEq

/-- A leadership answer adopted locally. The fields that only its own check reads are kept as one
encoded text. -/
structure AdaptiveLeadershipLocalAdoptionV1 where
  schemaVersion : ℕ
  sessionId : Uuid128
  reviewId : Uuid128
  fundedBinding : Option AdaptiveLeadershipLocalAdoptionFundingBindingV2
  decision : AdaptiveLeadershipReviewDecisionKindV1
  issuedAtUnixMs : ℕ
  continuationDeadlineMs : ℕ
  evidence : String
deriving DecidableEq

structure AdaptiveContinuationAuthorizationV1 where
  schemaVersion : ℕ
  operationId : Uuid128
  reviewId : Uuid128
  resolutionEventId : Uuid128
  sessionId : Uuid128
  sourceSessionVersion : ℕ
  source : AdaptiveContinuationSourceV1
  abandonedModelEffect : Option AdaptiveEffectV1
  providerAllowanceId : String
  providerAuthorityDigest : String
  issuedAtMs : ℕ
  deadlineMs : ℕ
  additionalModelCalls : ℕ
  localAdoption : Option AdaptiveLeadershipLocalAdoptionV1
  resumePolicy : Option AdaptiveResumePolicyBindingV1
  workFunding : Option AdaptiveWorkFundingEpochV1
deriving DecidableEq

structure AdaptiveContinuationStateV1 where
  authorizations : List AdaptiveContinuationAuthorizationV1
  modelCeiling : ℕ
  observationRequired : Bool
deriving DecidableEq

structure AdaptiveSessionGrantV1 where
  schemaVersion : ℕ
  sessionId : Uuid128
  authority : RuntimeAuthoritySnapshotV1
  providerAllowanceId : String
  providerAuthorityDigest : String
  provider : String
  model : String
  catalogDigest : String
  maxOutputTokens : ℕ
  maxCallDurationMs : ℕ
  maxModelCalls : ℕ
  maxToolCalls : ℕ
  createdAtMs : ℕ
  deadlineMs : ℕ
deriving DecidableEq

structure AdaptiveObservationRefV1 where
  effect : AdaptiveEffectV1
  observationDigest : String
deriving DecidableEq

inductive AdaptiveModelDecisionV1 where
  | tool (tool : WorkbenchTool) (toolDigest : String)
  | collaborate (action : AdaptiveCollaborationActionV1)
  | proposeCompletion (artifactDigest : String)
  | blocked (reasonCode : String)

def AdaptiveModelDecisionV1.looks : AdaptiveModelDecisionV1 → Bool
  | .tool t _ => t.looks
  | .blocked _ => true
  | _ => false

inductive AdaptiveCursorV1 where
  | readyForModel
  | modelPending (effect : AdaptiveEffectV1)
  | modelUnknown (effect : AdaptiveEffectV1)
  | readyForTool (tool : WorkbenchTool) (toolDigest : String)
  | toolPending (effect : AdaptiveEffectV1) (tool : WorkbenchTool) (toolDigest : String)
  | toolUnknown (effect : AdaptiveEffectV1) (tool : WorkbenchTool) (toolDigest : String)
  | collaborationProposed (effect : AdaptiveEffectV1) (action : AdaptiveCollaborationActionV1)
  | completionProposed (artifactDigest : String)
  | blocked (reasonCode : String)
  | blockedResolved (reasonCode resolutionEventId : String)
  | modelRejected (resolutionEventId reasonCode : String)
  | cancelled
deriving DecidableEq

def AdaptiveCursorV1.continuable : AdaptiveCursorV1 → Bool
  | .readyForModel | .modelUnknown _ | .blocked _ | .blockedResolved .. => true
  | _ => false

structure AdaptiveSessionV1 where
  grant : AdaptiveSessionGrantV1
  version : ℕ
  modelCalls : ℕ
  toolCalls : ℕ
  cursor : AdaptiveCursorV1
  lastObservation : Option AdaptiveObservationRefV1
  lastModelResultDigest : Option String
  updatedAtMs : ℕ
  continuation : Option AdaptiveContinuationStateV1
  effectIds : Finset Uuid128
deriving DecidableEq

inductive AdaptiveTransitionV1 where
  | continueGoverned (authorization : AdaptiveContinuationAuthorizationV1)
  | claimModel (effect : AdaptiveEffectV1) (previousObservationDigest : Option String)
  | resolveModel (effect : AdaptiveEffectV1) (resultDigest : String)
      (decision : AdaptiveModelDecisionV1)
  | claimTool (effect : AdaptiveEffectV1) (toolDigest : String)
  | observeTool (observation : AdaptiveObservationRefV1)
  | commitCollaboration (effect : AdaptiveEffectV1) (actionDigest : String)
  | markUnknown (effect : AdaptiveEffectV1)
  | rejectModel (effect : AdaptiveEffectV1) (resolutionEventId reasonCode : String)
  | resumeRejectedModel (dispositionOperationId : Uuid128)
      (expectedReasonCode resolutionEventId receiptDigest : String)
  | resolveBlocked (expectedReasonCode resolutionEventId : String)
  | cancel

/-- What the session takes from outside the module: the digests of tools, collaboration actions
and continuation histories, the shape check and encoded length of a tool (`sentinel-common`), and
the check of an adopted leadership answer. -/
class AdaptiveDigests extends FundingDigests where
  adaptiveTool : WorkbenchTool → String
  adaptiveCollaboration : AdaptiveCollaborationActionV1 → String
  adaptiveBudgetHistory : Option AdaptiveContinuationStateV1 → String
  adoptedFundingBinding : AdaptiveWorkFundingBindingV1 → String
  toolShapeValid : WorkbenchTool → Bool
  toolEncodedBytes : WorkbenchTool → ℕ
  adoptionCheck : AdaptiveLeadershipLocalAdoptionV1 → Except WorkflowError Unit

def invalidAdaptive : WorkflowError :=
  ⟨.invalidTransition, false, "adaptive transition is invalid or exceeds its grant"⟩

def invalidAdoption : WorkflowError :=
  invalidInput "invalid leadership local adoption authority"

def validReason (value : String) : Bool :=
  textBytes value ≠ [] && (textBytes value).length ≤ 64 &&
    (textBytes value).all fun b => isAsciiLower b || isAsciiDigit b || b = 95

def validText (value : String) (maxBytes : ℕ) : Bool :=
  trim value ≠ "" && (textBytes value).length ≤ maxBytes && (textBytes value).all (· ≠ 0)

def validateCollaborationAction (action : AdaptiveCollaborationActionV1) :
    Except WorkflowError Unit :=
  match action with
  | .askQuestion questionRef => ensure (validText questionRef 4096) invalidAdaptive
  | .offerHandoff consumerRole artifactDigests reasonRef =>
    ensure (consumerRole ≠ .customer ∧ consumerRole ≠ .sales ∧ consumerRole ≠ .gaia ∧
        artifactDigests ≠ [] ∧ artifactDigests.length ≤ 64 ∧ artifactDigests.all validateSha256 ∧
        validText reasonRef 4096)
      invalidAdaptive

def validateResumePolicyBinding (binding : AdaptiveResumePolicyBindingV1) :
    Except WorkflowError Unit := do
  binding.validate
  ensure (binding.schemaVersion = 1 ∧ validIdentifier binding.policyId ∧
      validateSha256 binding.receiptDigest ∧ binding.ordinal ≠ 0 ∧
      binding.ordinal ≤ binding.limits.totalReviewCeiling ∧
      1 ≤ binding.limits.totalReviewCeiling ∧ binding.limits.totalReviewCeiling ≤ 128 ∧
      1000 ≤ binding.limits.maxCallDurationMs ∧ binding.limits.maxCallDurationMs ≤ 120000 ∧
      1000 ≤ binding.limits.maxWindowMs ∧
      binding.limits.maxWindowMs ≤ adaptiveContinuationMaxWindowMs ∧
      binding.limits.dispatchMarginMs ≠ 0 ∧
      (checkedAdd 64 binding.limits.maxCallDurationMs binding.limits.dispatchMarginMs).any
        (· ≤ binding.limits.maxWindowMs) ∧
      binding.limits.expiresAtUnixMs ≠ 0 ∧ binding.limits.expiresAtUnixMs ≤ i64Max)
    invalidAdaptive

section
variable [AdaptiveDigests]

def adaptiveToolDigest (tool : WorkbenchTool) : Except WorkflowError String := do
  ensure (AdaptiveDigests.toolShapeValid tool) invalidAdaptive
  ensure (AdaptiveDigests.toolEncodedBytes tool ≠ 0 ∧
    AdaptiveDigests.toolEncodedBytes tool ≤ adaptiveToolMaxBytes) invalidAdaptive
  .ok (AdaptiveDigests.adaptiveTool tool)

def adaptiveCollaborationDigest (action : AdaptiveCollaborationActionV1) :
    Except WorkflowError String := do
  validateCollaborationAction action
  .ok (AdaptiveDigests.adaptiveCollaboration action)

namespace AdaptiveLeadershipLocalAdoptionFundingBindingV2

def fromEpoch (epoch : AdaptiveWorkFundingEpochV1) :
    Except WorkflowError AdaptiveLeadershipLocalAdoptionFundingBindingV2 := do
  epoch.validate
  let receiptDigest ← epoch.receipt.receiptDigest
  .ok ⟨epoch.receipt.fundingId, receiptDigest, AdaptiveDigests.adoptedFundingBinding epoch.binding⟩

def validateEpoch (b : AdaptiveLeadershipLocalAdoptionFundingBindingV2)
    (epoch : AdaptiveWorkFundingEpochV1) : Except WorkflowError Unit := do
  validateIdentifier b.fundingId
  validateDigest b.receiptDigest
  validateDigest b.bindingDigest
  let expected ← fromEpoch epoch
  ensure (b = expected) invalidAdoption

end AdaptiveLeadershipLocalAdoptionFundingBindingV2

namespace AdaptiveLeadershipLocalAdoptionV1

def isFunded (a : AdaptiveLeadershipLocalAdoptionV1) : Bool := a.schemaVersion = 2

def bindsEpoch (a : AdaptiveLeadershipLocalAdoptionV1) (epoch : AdaptiveWorkFundingEpochV1) :
    Bool :=
  a.isFunded && a.fundedBinding.any fun b => (b.validateEpoch epoch).isOk

end AdaptiveLeadershipLocalAdoptionV1

namespace AdaptiveContinuationAuthorizationV1
variable (a : AdaptiveContinuationAuthorizationV1)

def windowMs : ℕ := a.deadlineMs - a.issuedAtMs

def fitsCall (maxCallDurationMs dispatchMarginMs : ℕ) : Bool :=
  (checkedAdd 64 maxCallDurationMs dispatchMarginMs).any (· ≤ a.windowMs)

def windowLimit : ℕ :=
  match a.workFunding with
  | some epoch => epoch.binding.limits.totalWindowCeiling
  | none =>
    (a.resumePolicy.map (·.limits.totalWindowCeiling)).getD adaptiveContinuationMaxWindows

def validateFunding : Except WorkflowError Unit :=
  match a.workFunding with
  | none => .ok ()
  | some epoch => do
    epoch.validate
    ensure (a.resumePolicy = none ∧
      (a.localAdoption.all fun adoption => adoption.bindsEpoch epoch) ∧
        a.source.isBudgetWindowExhausted ∧ a.abandonedModelEffect = none ∧
        epoch.receipt.issuedAtUnixMs ≤ a.issuedAtMs ∧
        a.deadlineMs ≤ epoch.binding.limits.expiresAtUnixMs ∧
        a.windowMs ≤ epoch.binding.limits.maxWindowMs ∧
        a.fitsCall epoch.binding.limits.maxCallDurationMs epoch.binding.limits.dispatchMarginMs)
      invalidAdaptive

def validateResume : Except WorkflowError Unit :=
  match a.resumePolicy with
  | none => .ok ()
  | some binding => do
    validateResumePolicyBinding binding
    ensure (a.localAdoption = none ∧
        (a.source = .modelUnknown ∨ a.source.isBudgetWindowExhausted) ∧
        a.deadlineMs ≤ binding.limits.expiresAtUnixMs ∧ a.windowMs ≤ binding.limits.maxWindowMs ∧
        a.fitsCall binding.limits.maxCallDurationMs binding.limits.dispatchMarginMs)
      invalidAdaptive

def validateSource : Except WorkflowError Unit :=
  match a.source, a.abandonedModelEffect with
  | .blocked reasonCode, none => ensure (validReason reasonCode) invalidAdaptive
  | .blockedResolved reasonCode resolutionEventId, none =>
    ensure (validReason reasonCode ∧ validResolution resolutionEventId) invalidAdaptive
  | .modelUnknown, some _ => .ok ()
  | .budgetWindowExhausted activeAllowanceDigest continuationHistoryDigest, none =>
    ensure (validateSha256 activeAllowanceDigest ∧ validateSha256 continuationHistoryDigest ∧
        a.localAdoption.all fun adoption => adoption.isFunded && a.workFunding.isSome)
      invalidAdaptive
  | _, _ => .error invalidAdaptive

def validateAdoption : Except WorkflowError Unit :=
  match a.localAdoption with
  | none => .ok ()
  | some adoption => do
    AdaptiveDigests.adoptionCheck adoption
    match adoption.decision with
    | .continue additionalModelCalls windowMs =>
      ensure (adoption.sessionId = a.sessionId ∧ ¬(adoption.isFunded ∧ a.workFunding = none) ∧
          adoption.reviewId = a.reviewId ∧ adoption.issuedAtUnixMs = a.issuedAtMs ∧
          adoption.continuationDeadlineMs = a.deadlineMs ∧
          additionalModelCalls = a.additionalModelCalls ∧ a.windowMs = windowMs)
        invalidAdaptive
    | _ => .error invalidAdaptive

def validate : Except WorkflowError Unit := do
  ensure (a.schemaVersion = 1 ∧ a.operationId ≠ 0 ∧ a.reviewId ≠ 0 ∧ a.resolutionEventId ≠ 0 ∧
      a.sessionId ≠ 0 ∧ a.sourceSessionVersion ≠ 0 ∧ validIdentifier a.providerAllowanceId ∧
      validateSha256 a.providerAuthorityDigest ∧ a.issuedAtMs ≠ 0 ∧ a.issuedAtMs < a.deadlineMs ∧
      1000 ≤ a.windowMs ∧ a.windowMs ≤ adaptiveContinuationMaxWindowMs ∧
      1 ≤ a.additionalModelCalls ∧ a.additionalModelCalls ≤ adaptiveSessionMaxCalls ∧
      a.abandonedModelEffect.all fun effect => effect.id ≠ 0 && validateSha256 effect.requestDigest)
    invalidAdaptive
  a.validateFunding
  a.validateResume
  a.validateSource
  a.validateAdoption

theorem raises_of_validate {a : AdaptiveContinuationAuthorizationV1} (h : a.validate = .ok ())
    {epoch : AdaptiveWorkFundingEpochV1} (hepoch : a.workFunding = some epoch) :
    epoch.Raises := by
  simp only [validate, validateFunding, hepoch, bind_eq_ok] at h
  obtain ⟨_, -, _, ⟨_, hvalid, -⟩, -⟩ := h
  exact AdaptiveWorkFundingEpochV1.raises_of_validate hvalid

end AdaptiveContinuationAuthorizationV1
end

namespace AdaptiveSessionGrantV1

def validate (g : AdaptiveSessionGrantV1) : Except WorkflowError Unit := do
  g.authority.validate
  ensure (g.schemaVersion = 1 ∧ g.sessionId ≠ 0 ∧ validIdentifier g.providerAllowanceId ∧
      validateSha256 g.providerAuthorityDigest ∧ g.provider = "codex-cli" ∧
      validIdentifier g.model ∧ validateSha256 g.catalogDigest ∧ 1 ≤ g.maxOutputTokens ∧
      g.maxOutputTokens ≤ 32768 ∧ 1000 ≤ g.maxCallDurationMs ∧ g.maxCallDurationMs ≤ 120000 ∧
      1 ≤ g.maxModelCalls ∧ g.maxModelCalls ≤ adaptiveSessionMaxCalls ∧ 1 ≤ g.maxToolCalls ∧
      g.maxToolCalls ≤ adaptiveSessionMaxCalls ∧ g.createdAtMs < g.deadlineMs ∧
      "observation.retain_private" ∈ g.authority.capabilities)
    invalidAdaptive

end AdaptiveSessionGrantV1

inductive AdaptiveModelAdmissionV1 where
  | admissible
  | callsExhausted
  | deadlineExpired
  | insufficientSlack
deriving DecidableEq

namespace AdaptiveSessionV1
variable (s : AdaptiveSessionV1)

def initial (grant : AdaptiveSessionGrantV1) : Except WorkflowError AdaptiveSessionV1 := do
  grant.validate
  .ok
    { grant, version := 1, modelCalls := 0, toolCalls := 0, cursor := .readyForModel
      lastObservation := none, lastModelResultDigest := none, effectIds := ∅
      updatedAtMs := grant.createdAtMs, continuation := none }

def history : List AdaptiveContinuationAuthorizationV1 :=
  (s.continuation.map (·.authorizations)).getD []

def lastAuthorization : Option AdaptiveContinuationAuthorizationV1 := s.history.getLast?

def activeWorkFunding : Option AdaptiveWorkFundingEpochV1 :=
  s.history.reverse.findSome? (·.workFunding)

def activeDeadlineMs : ℕ := (s.lastAuthorization.map (·.deadlineMs)).getD s.grant.deadlineMs

def activeModelCeiling : ℕ := (s.continuation.map (·.modelCeiling)).getD s.grant.maxModelCalls

def fundedModelCallCeiling : ℕ :=
  (s.activeWorkFunding.map (·.binding.limits.totalModelCallCeiling)).getD s.grant.maxModelCalls

def fundedToolCallCeiling : ℕ :=
  (s.activeWorkFunding.map (·.binding.limits.totalToolCallCeiling)).getD s.grant.maxToolCalls

def requiresFreshObservation : Bool := s.continuation.any (·.observationRequired)

def isAbandonedModelEffect (effect : AdaptiveEffectV1) : Bool :=
  s.history.any fun a => a.abandonedModelEffect.any (·.id = effect.id)

def durationAfter (root : ℕ) : ℕ → List AdaptiveContinuationAuthorizationV1 → ℕ
  | duration, [] => duration
  | duration, a :: rest =>
    match a.resumePolicy with
    | some binding => durationAfter root (min root binding.limits.maxCallDurationMs) rest
    | none =>
      if a.deadlineMs ≤ a.issuedAtMs then 0
      else if a.source.isBudgetWindowExhausted then durationAfter root (min root a.windowMs) rest
      else durationAfter root (min duration a.windowMs) rest

def effectiveCallDurationMs : ℕ :=
  match s.activeWorkFunding with
  | some epoch => epoch.binding.limits.maxCallDurationMs
  | none => durationAfter s.grant.maxCallDurationMs s.grant.maxCallDurationMs s.history

def dispatchMarginMs : Option ℕ :=
  match s.activeWorkFunding with
  | some epoch => some epoch.binding.limits.dispatchMarginMs
  | none => (s.lastAuthorization.bind (·.resumePolicy)).map (·.limits.dispatchMarginMs)

def modelAdmissionAt (nowMs : ℕ) : AdaptiveModelAdmissionV1 :=
  if nowMs < s.updatedAtMs then .deadlineExpired
  else if s.activeModelCeiling ≤ s.modelCalls then .callsExhausted
  else if s.activeDeadlineMs ≤ nowMs then .deadlineExpired
  else
    match s.dispatchMarginMs with
    | none => .admissible
    | some margin =>
      if (checkedAdd 64 s.effectiveCallDurationMs margin).any (· ≤ s.activeDeadlineMs - nowMs) then
        .admissible
      else .insufficientSlack

def modelWindowExhaustedAt (nowMs : ℕ) : Bool :=
  s.cursor = .readyForModel && s.updatedAtMs ≤ nowMs && s.modelAdmissionAt nowMs ≠ .admissible

theorem calls_lt_of_admissible {s : AdaptiveSessionV1} {nowMs : ℕ}
    (h : s.modelAdmissionAt nowMs = .admissible) : s.modelCalls < s.activeModelCeiling := by
  unfold modelAdmissionAt at h
  split_ifs at h with _ hcalls
  exact Nat.lt_of_not_le hcalls

section
variable [AdaptiveDigests]

def priorOrdinal : ℕ :=
  ((s.history.filterMap fun prior =>
    (prior.workFunding.map (·.binding.ordinal)).or
      (prior.resumePolicy.map (·.ordinal))).max?).getD 0

def validateSuccessorEpoch (epoch : AdaptiveWorkFundingEpochV1)
    (authorization : AdaptiveContinuationAuthorizationV1) : Except WorkflowError Unit :=
  match authorization.source with
  | .budgetWindowExhausted activeAllowanceDigest continuationHistoryDigest =>
    let source := epoch.receipt.request.source
    let anchor := source.resumeSource
    ensure (source.predecessorReceiptDigest = s.activeWorkFunding.map (·.binding.receiptDigest) ∧
        s.updatedAtMs ≤ epoch.receipt.issuedAtUnixMs ∧
        source.currentModelCallCeiling = s.fundedModelCallCeiling ∧
        source.currentToolCallCeiling = s.fundedToolCallCeiling ∧
        anchor.expectedSessionVersion = s.version ∧ anchor.baseModelCalls = s.modelCalls ∧
        anchor.baseToolCalls = s.toolCalls ∧ anchor.baseWindowCount = s.history.length ∧
        s.priorOrdinal ≤ anchor.baseReviewCount ∧
        anchor.subject = .readyForModel activeAllowanceDigest ∧
        anchor.continuationHistoryDigest = continuationHistoryDigest ∧
        anchor.continuationHistoryDigest = AdaptiveDigests.adaptiveBudgetHistory s.continuation)
      invalidAdaptive
  | _ => .error invalidAdaptive

def validateWorkFundingTransition (epoch : AdaptiveWorkFundingEpochV1)
    (authorization : AdaptiveContinuationAuthorizationV1) : Except WorkflowError Unit := do
  let source := epoch.receipt.request.source
  let anchor := source.resumeSource
  ensure (s.cursor = .readyForModel ∧ anchor.sessionId = s.grant.sessionId ∧
      anchor.assigneeAuthority = s.grant.authority ∧
      source.originalModelCallCeiling = s.grant.maxModelCalls ∧
      source.originalToolCallCeiling = s.grant.maxToolCalls ∧
      s.priorOrdinal < epoch.binding.ordinal ∧ s.history.length < epoch.binding.ordinal)
    invalidAdaptive
  if s.activeWorkFunding.any (·.sameEpoch epoch) then .ok ()
  else s.validateSuccessorEpoch epoch authorization

/-- The ceiling a continuation may reach: that of the epoch it carries, or that of the grant where
no epoch has been adopted. -/
def continuationCeiling (authorization : AdaptiveContinuationAuthorizationV1) :
    Except WorkflowError ℕ :=
  match authorization.workFunding with
  | some epoch => do
    s.validateWorkFundingTransition epoch authorization
    .ok epoch.binding.limits.totalModelCallCeiling
  | none => do
    ensure (s.activeWorkFunding = none) invalidAdaptive
    .ok s.grant.maxModelCalls

def validateResumeHistory (authorization : AdaptiveContinuationAuthorizationV1) :
    Except WorkflowError Unit :=
  match authorization.resumePolicy with
  | some binding =>
    ensure (binding.limits.maxCallDurationMs = s.grant.maxCallDurationMs ∧
        (s.history.filterMap (·.resumePolicy)).all fun prior =>
          prior.policyId = binding.policyId && prior.receiptDigest = binding.receiptDigest &&
            prior.limits = binding.limits && prior.ordinal < binding.ordinal)
      invalidAdaptive
  | none =>
    ensure (¬(authorization.workFunding = none ∧ s.history.any (·.resumePolicy.isSome)))
      invalidAdaptive

def matchesSource (authorization : AdaptiveContinuationAuthorizationV1) : Bool :=
  match s.cursor, authorization.source, authorization.abandonedModelEffect with
  | .readyForModel, .budgetWindowExhausted _ continuationHistoryDigest, none =>
    s.updatedAtMs ≤ authorization.issuedAtMs &&
      s.modelWindowExhaustedAt authorization.issuedAtMs &&
      continuationHistoryDigest = AdaptiveDigests.adaptiveBudgetHistory s.continuation
  | .blocked reasonCode, .blocked expected, none => reasonCode = expected
  | .blockedResolved reasonCode resolutionEventId, .blockedResolved expected expectedEvent, none =>
    reasonCode = expected && resolutionEventId = expectedEvent
  | .modelUnknown effect, .modelUnknown, some abandoned => effect = abandoned
  | _, _, _ => false

def continueGoverned (authorization : AdaptiveContinuationAuthorizationV1) (nowMs : ℕ) :
    Except WorkflowError AdaptiveSessionV1 := do
  ensure s.cursor.continuable invalidAdaptive
  authorization.validate
  let modelCeiling ← s.continuationCeiling authorization
  s.validateResumeHistory authorization
  ensure (authorization.sessionId = s.grant.sessionId ∧
      authorization.sourceSessionVersion = s.version ∧ authorization.issuedAtMs ≤ nowMs ∧
      nowMs < authorization.deadlineMs ∧
      (authorization.source.isBudgetWindowExhausted ∨ authorization.resumePolicy ≠ none ∨
        s.activeDeadlineMs ≤ authorization.issuedAtMs) ∧
      s.history.length < authorization.windowLimit ∧
      authorization.providerAllowanceId ≠ s.grant.providerAllowanceId ∧
      (s.history.all fun prior =>
        prior.operationId ≠ authorization.operationId && prior.reviewId ≠ authorization.reviewId &&
          prior.resolutionEventId ≠ authorization.resolutionEventId &&
          prior.providerAllowanceId ≠ authorization.providerAllowanceId) ∧
      (checkedAdd 16 s.modelCalls authorization.additionalModelCalls).any (· ≤ modelCeiling))
    invalidAdaptive
  ensure (s.matchesSource authorization) invalidAdaptive
  .ok
    { s with
      cursor := .readyForModel
      continuation := some
        { authorizations := s.history ++ [authorization]
          modelCeiling := s.modelCalls + authorization.additionalModelCalls
          observationRequired := true } }

def claim (effect : AdaptiveEffectV1) : Except WorkflowError AdaptiveSessionV1 := do
  ensure (effect.id ≠ 0 ∧ validateSha256 effect.requestDigest ∧ effect.id ∉ s.effectIds)
    invalidAdaptive
  .ok { s with effectIds := insert effect.id s.effectIds }

def claimModel (effect : AdaptiveEffectV1) (previousObservationDigest : Option String)
    (nowMs : ℕ) : Except WorkflowError AdaptiveSessionV1 := do
  ensure (s.cursor = .readyForModel ∧ s.modelAdmissionAt nowMs = .admissible ∧
      previousObservationDigest = s.lastObservation.map (·.observationDigest))
    invalidAdaptive
  let next ← s.claim effect
  .ok { next with modelCalls := s.modelCalls + 1, cursor := .modelPending effect }

def decided (effect : AdaptiveEffectV1) (decision : AdaptiveModelDecisionV1) :
    Except WorkflowError AdaptiveCursorV1 :=
  match decision with
  | .tool tool toolDigest => do
    ensure ((adaptiveToolDigest tool).toOption = some toolDigest) invalidAdaptive
    .ok (.readyForTool tool toolDigest)
  | .proposeCompletion artifactDigest => do
    ensure (validateSha256 artifactDigest) invalidAdaptive
    .ok (.completionProposed artifactDigest)
  | .blocked reasonCode => do
    ensure (validReason reasonCode) invalidAdaptive
    .ok (.blocked reasonCode)
  | .collaborate action => do
    ensure ((validateCollaborationAction action).isOk) invalidAdaptive
    .ok (.collaborationProposed effect action)

def resolveModel (effect : AdaptiveEffectV1) (resultDigest : String)
    (decision : AdaptiveModelDecisionV1) : Except WorkflowError AdaptiveSessionV1 := do
  ensure (s.cursor = .modelPending effect ∨ s.cursor = .modelUnknown effect) invalidAdaptive
  ensure (validateSha256 resultDigest ∧ ¬ s.isAbandonedModelEffect effect ∧
      (s.requiresFreshObservation → decision.looks))
    invalidAdaptive
  let cursor ← decided effect decision
  .ok { s with lastModelResultDigest := some resultDigest, cursor }

def claimTool (effect : AdaptiveEffectV1) (proposed : String) (nowMs : ℕ) :
    Except WorkflowError AdaptiveSessionV1 :=
  match s.cursor with
  | .readyForTool tool toolDigest => do
    ensure (toolDigest = proposed ∧ nowMs < s.activeDeadlineMs ∧
        s.toolCalls < s.fundedToolCallCeiling ∧ (s.requiresFreshObservation → tool.looks))
      invalidAdaptive
    let next ← s.claim effect
    .ok { next with toolCalls := s.toolCalls + 1, cursor := .toolPending effect tool proposed }
  | _ => .error invalidAdaptive

def observed : AdaptiveSessionV1 :=
  { s with continuation := s.continuation.map fun c => { c with observationRequired := false } }

def recordObservation (tool : WorkbenchTool) (observation : AdaptiveObservationRefV1) :
    AdaptiveSessionV1 :=
  { if tool.looks then s.observed else s with
    lastObservation := some observation, cursor := .readyForModel }

def observeTool (observation : AdaptiveObservationRefV1) :
    Except WorkflowError AdaptiveSessionV1 :=
  match s.cursor with
  | .toolPending effect tool _ | .toolUnknown effect tool _ => do
    ensure (effect = observation.effect ∧ validateSha256 observation.observationDigest)
      invalidAdaptive
    .ok (s.recordObservation tool observation)
  | _ => .error invalidAdaptive

def commitCollaboration (committed : AdaptiveEffectV1) (actionDigest : String) :
    Except WorkflowError AdaptiveSessionV1 :=
  match s.cursor with
  | .collaborationProposed effect action => do
    ensure (effect = committed ∧
      (adaptiveCollaborationDigest action).toOption = some actionDigest) invalidAdaptive
    .ok { s with cursor := .readyForModel }
  | _ => .error invalidAdaptive

def markUnknown (unknown : AdaptiveEffectV1) : Except WorkflowError AdaptiveSessionV1 :=
  match s.cursor with
  | .modelPending effect => do
    ensure (effect = unknown) invalidAdaptive
    .ok { s with cursor := .modelUnknown effect }
  | .toolPending effect tool toolDigest => do
    ensure (effect = unknown) invalidAdaptive
    .ok { s with cursor := .toolUnknown effect tool toolDigest }
  | _ => .error invalidAdaptive

def rejectModel (rejected : AdaptiveEffectV1) (resolutionEventId reasonCode : String) :
    Except WorkflowError AdaptiveSessionV1 := do
  ensure (s.cursor = .modelPending rejected ∨ s.cursor = .modelUnknown rejected) invalidAdaptive
  ensure (validResolution resolutionEventId ∧ validReason reasonCode) invalidAdaptive
  .ok { s with cursor := .modelRejected resolutionEventId reasonCode }

def resumeRejectedModel (dispositionOperationId : Uuid128)
    (expectedReasonCode resolutionEventId receiptDigest : String) :
    Except WorkflowError AdaptiveSessionV1 := do
  ensure (s.cursor = .modelRejected resolutionEventId expectedReasonCode) invalidAdaptive
  ensure (dispositionOperationId ≠ 0 ∧ expectedReasonCode = "fresh_observation_required" ∧
      validResolution resolutionEventId ∧ validateSha256 receiptDigest ∧
      s.requiresFreshObservation)
    invalidAdaptive
  .ok { s with cursor := .readyForModel }

def resolveBlocked (expectedReasonCode resolutionEventId : String) :
    Except WorkflowError AdaptiveSessionV1 := do
  ensure (s.cursor = .blocked expectedReasonCode ∧ validResolution resolutionEventId)
    invalidAdaptive
  .ok { s with cursor := .blockedResolved expectedReasonCode resolutionEventId }

def cancel : Except WorkflowError AdaptiveSessionV1 :=
  match s.cursor with
  | .readyForModel | .readyForTool .. | .modelRejected .. | .blockedResolved .. =>
    .ok { s with cursor := .cancelled }
  | _ => .error invalidAdaptive

def advanced (nowMs : ℕ) : AdaptiveTransitionV1 → Except WorkflowError AdaptiveSessionV1
  | .continueGoverned authorization => s.continueGoverned authorization nowMs
  | .claimModel effect previousObservationDigest =>
    s.claimModel effect previousObservationDigest nowMs
  | .resolveModel effect resultDigest decision => s.resolveModel effect resultDigest decision
  | .claimTool effect toolDigest => s.claimTool effect toolDigest nowMs
  | .observeTool observation => s.observeTool observation
  | .commitCollaboration effect actionDigest => s.commitCollaboration effect actionDigest
  | .markUnknown effect => s.markUnknown effect
  | .rejectModel effect resolutionEventId reasonCode =>
    s.rejectModel effect resolutionEventId reasonCode
  | .resumeRejectedModel dispositionOperationId expectedReasonCode resolutionEventId
      receiptDigest =>
    s.resumeRejectedModel dispositionOperationId expectedReasonCode resolutionEventId receiptDigest
  | .resolveBlocked expectedReasonCode resolutionEventId =>
    s.resolveBlocked expectedReasonCode resolutionEventId
  | .cancel => s.cancel

def transition (command : AdaptiveTransitionV1) (nowMs : ℕ) :
    Except WorkflowError AdaptiveSessionV1 := do
  ensure (s.updatedAtMs ≤ nowMs) invalidAdaptive
  let next ← s.advanced nowMs command
  let version ← orError (checkedAdd 64 next.version 1) invalidAdaptive
  .ok { next with version, updatedAtMs := nowMs }

/-- A session that is asked to make transitions: an accepted one gives the next session, a rejected
one leaves the session as it was. -/
def machine : Machine AdaptiveSessionV1 (AdaptiveTransitionV1 × ℕ)
    (Except WorkflowError AdaptiveSessionV1) where
  call s c :=
    match s.transition c.1 c.2 with
    | .ok t => (t, .ok t)
    | .error e => (s, .error e)

end
end AdaptiveSessionV1
end Sentinel.Workflow

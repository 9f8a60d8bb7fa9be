import Sentinel.Workflow.Authority

/-! The records that extend an adaptive session (`sentinel-workflow`, modules
`adaptive_resume_policy`, `adaptive_work_funding`, `adaptive_work_funding_expired_replacement` and
`adaptive_work_funding_material_expansion`): where a session is resumed, the limits of a resume
policy, and the funding epochs that raise the ceilings of a session. A digest of a record is the
SHA-256 of its JSON text under the name of its domain; it is a parameter of the development. -/

namespace Sentinel.Workflow
open Lib

def adaptiveSessionMaxCalls : ℕ := 64
def adaptiveResumeMaxReviews : ℕ := 128
def adaptiveResumeMaxWindowMs : ℕ := 300000
def adaptiveResumeMaxPolicyMs : ℕ := 24 * 60 * 60 * 1000
def adaptiveResumeDispatchMarginMs : ℕ := 1000
def adaptiveLeadershipMaxDurationMs : ℕ := 120000
def i64Max : ℕ := 2 ^ 63 - 1

structure AdaptiveEffectV1 where
  id : Uuid128
  requestDigest : String
deriving DecidableEq

inductive AdaptiveResumeSubjectV1 where
  | readyForModel (activeAllowanceDigest : String)
  | modelUnknown (effect : AdaptiveEffectV1) (sealedUnknownProofDigest : String)
deriving DecidableEq

def AdaptiveResumeSubjectV1.isReadyForModel : AdaptiveResumeSubjectV1 → Bool
  | .readyForModel _ => true
  | .modelUnknown _ _ => false

structure AdaptiveResumeSourceV1 where
  tenantId : TenantId
  projectId : ProjectId
  workItemId : WorkItemId
  sessionId : Uuid128
  expectedProjectVersion : ℕ
  expectedSessionVersion : ℕ
  projectPayloadDigest : String
  rootEntryDigest : String
  headEntryDigest : String
  continuationHistoryDigest : String
  reviewHistoryDigest : String
  assigneeAuthority : RuntimeAuthoritySnapshotV1
  baseModelCalls : ℕ
  baseToolCalls : ℕ
  baseReviewCount : ℕ
  baseWindowCount : ℕ
  subject : AdaptiveResumeSubjectV1
deriving DecidableEq

structure AdaptiveResumePolicyLimitsV1 where
  totalReviewCeiling : ℕ
  totalWindowCeiling : ℕ
  maxWindowMs : ℕ
  maxCallDurationMs : ℕ
  dispatchMarginMs : ℕ
  expiresAtUnixMs : ℕ
deriving DecidableEq

structure AdaptiveResumePolicyBindingV1 where
  schemaVersion : ℕ
  policyId : String
  receiptDigest : String
  ordinal : ℕ
  limits : AdaptiveResumePolicyLimitsV1
deriving DecidableEq

structure AdaptiveWorkFundingExpiredReplacementBindingV1 where
  schemaVersion : ℕ
  replacementKey : String
  oldFundingReceiptDigest : String
  sourceDigest : String
  reviewMembersDigest : String
deriving DecidableEq

structure AdaptiveWorkFundingBindingLimitsV1 where
  totalModelCallCeiling : ℕ
  totalToolCallCeiling : ℕ
  totalReviewCeiling : ℕ
  totalWindowCeiling : ℕ
  maxWindowMs : ℕ
  maxCallDurationMs : ℕ
  dispatchMarginMs : ℕ
  expiresAtUnixMs : ℕ
deriving DecidableEq

structure AdaptiveWorkFundingMaterialExpansionBindingV1 where
  schemaVersion : ℕ
  slotKey : String
  declinedFundingId : String
  declinedReceiptDigest : String
  refusedReviewId : Uuid128
  refusedCallDigest : String
  modelResponseDigest : String
  usageEventDigest : String
  declinedLimits : AdaptiveWorkFundingBindingLimitsV1
  authoritativeFloor : AdaptiveWorkFundingBindingLimitsV1
deriving DecidableEq

structure AdaptiveWorkFundingSourceV1 where
  resumeSource : AdaptiveResumeSourceV1
  originalModelCallCeiling : ℕ
  originalToolCallCeiling : ℕ
  currentModelCallCeiling : ℕ
  currentToolCallCeiling : ℕ
  predecessorReceiptDigest : Option String
  supersedesUnusedReceiptDigest : Option String
  expiredReviewedReplacement : Option AdaptiveWorkFundingExpiredReplacementBindingV1
  materialWindowExpansion : Option AdaptiveWorkFundingMaterialExpansionBindingV1
deriving DecidableEq

structure AdaptiveWorkFundingLimitsV1 where
  additionalModelCalls : ℕ
  additionalToolCalls : ℕ
  additionalReviews : ℕ
  additionalWindows : ℕ
  maxWindowMs : ℕ
  maxCallDurationMs : ℕ
  dispatchMarginMs : ℕ
  expiresAtUnixMs : ℕ
deriving DecidableEq

structure AdaptiveWorkFundingRequestV1 where
  schemaVersion : ℕ
  operationId : Uuid128
  source : AdaptiveWorkFundingSourceV1
  limits : AdaptiveWorkFundingLimitsV1
  reasonRef : String
deriving DecidableEq

structure AdaptiveWorkFundingReceiptV1 where
  schemaVersion : ℕ
  fundingId : String
  request : AdaptiveWorkFundingRequestV1
  issuerPrincipal : AuthenticatedCompanyPrincipalV1
  issuedAtUnixMs : ℕ
deriving DecidableEq

structure AdaptiveWorkFundingBindingV1 where
  schemaVersion : ℕ
  fundingId : String
  receiptDigest : String
  ordinal : ℕ
  limits : AdaptiveWorkFundingBindingLimitsV1
deriving DecidableEq

structure AdaptiveWorkFundingEpochV1 where
  receipt : AdaptiveWorkFundingReceiptV1
  binding : AdaptiveWorkFundingBindingV1
deriving DecidableEq

class FundingDigests where
  workFundingId : TenantId × Uuid128 × Uuid128 → String
  workFundingReceipt : AdaptiveWorkFundingReceiptV1 → String
  expiredReplacementKey : TenantId × Uuid128 × String → String
  materialWindowSlot : TenantId × ProjectId × WorkItemId × Uuid128 × String → String

def invalidFunding : WorkflowError := invalidInput "invalid adaptive work funding request"

def invalidResumePolicy : WorkflowError := invalidInput "invalid adaptive resume policy"

def invalidReplacement : WorkflowError :=
  ⟨.invalidTransition, false, "expired reviewed funding replacement rejected"⟩

def invalidExpansion : WorkflowError := invalidInput "invalid material window expansion"

def bindingConflict : WorkflowError :=
  ⟨.authorityConflict, false, "adaptive work funding binding does not match receipt"⟩

def resumeUnauthorized : WorkflowError :=
  ⟨.authorityConflict, false, "adaptive resume policy authority changed"⟩

namespace AdaptiveResumeSourceV1

def validateSubject (s : AdaptiveResumeSourceV1) : Except WorkflowError Unit :=
  match s.subject with
  | .readyForModel activeAllowanceDigest => validateDigest activeAllowanceDigest
  | .modelUnknown effect sealedUnknownProofDigest => do
    ensure (effect.id ≠ 0 ∧ s.baseModelCalls ≠ 0) invalidResumePolicy
    validateDigest effect.requestDigest
    validateDigest sealedUnknownProofDigest

def validate (s : AdaptiveResumeSourceV1) : Except WorkflowError Unit := do
  validateDomainId s.tenantId
  validateDomainId s.projectId
  validateDomainId s.workItemId
  s.assigneeAuthority.validate
  ensure (s.sessionId ≠ 0 ∧ s.expectedProjectVersion ≠ 0 ∧ s.expectedSessionVersion ≠ 0 ∧
      s.assigneeAuthority.tenantId = s.tenantId ∧ s.assigneeAuthority.projectId = s.projectId ∧
      s.assigneeAuthority.workItemId = s.workItemId ∧
      s.baseModelCalls ≤ adaptiveSessionMaxCalls ∧ s.baseToolCalls ≤ adaptiveSessionMaxCalls ∧
      s.baseReviewCount < adaptiveResumeMaxReviews ∧ s.baseWindowCount ≤ s.baseReviewCount)
    invalidResumePolicy
  checkAll validateDigest [s.projectPayloadDigest, s.rootEntryDigest, s.headEntryDigest,
    s.continuationHistoryDigest, s.reviewHistoryDigest]
  s.validateSubject

end AdaptiveResumeSourceV1

namespace AdaptiveResumePolicyLimitsV1

def validate (l : AdaptiveResumePolicyLimitsV1) : Except WorkflowError Unit :=
  ensure (l.totalReviewCeiling ≠ 0 ∧ l.totalReviewCeiling ≤ adaptiveResumeMaxReviews ∧
      l.totalWindowCeiling ≠ 0 ∧ l.totalWindowCeiling ≤ l.totalReviewCeiling ∧
      l.maxWindowMs ≤ adaptiveResumeMaxWindowMs ∧ 1000 ≤ l.maxCallDurationMs ∧
      l.maxCallDurationMs ≤ adaptiveLeadershipMaxDurationMs ∧
      adaptiveResumeDispatchMarginMs ≤ l.dispatchMarginMs ∧ l.dispatchMarginMs < l.maxWindowMs ∧
      l.expiresAtUnixMs ≠ 0 ∧ l.expiresAtUnixMs ≤ i64Max ∧
      (checkedAdd 64 l.maxCallDurationMs l.dispatchMarginMs).any (· ≤ l.maxWindowMs))
    invalidResumePolicy

end AdaptiveResumePolicyLimitsV1

namespace AdaptiveResumePolicyBindingV1

def validate (b : AdaptiveResumePolicyBindingV1) : Except WorkflowError Unit := do
  validateIdentifier b.policyId
  validateDigest b.receiptDigest
  b.limits.validate
  ensure (b.schemaVersion = 1 ∧ b.ordinal ≠ 0 ∧ b.ordinal ≤ b.limits.totalReviewCeiling)
    invalidResumePolicy

end AdaptiveResumePolicyBindingV1

def requireResumePolicyOperator (principal : AuthenticatedCompanyPrincipalV1)
    (tenant : TenantId) : Except WorkflowError Unit := do
  principal.validate
  ensure (principal.kind = .operator ∧
      (principal.role = .projectManager ∨ principal.role = .technicalLead) ∧
      principal.tenantId = tenant)
    resumeUnauthorized

namespace AdaptiveWorkFundingBindingLimitsV1

def validate (l : AdaptiveWorkFundingBindingLimitsV1) : Except WorkflowError Unit := do
  ensure (1 ≤ l.totalModelCallCeiling ∧ l.totalModelCallCeiling ≤ adaptiveSessionMaxCalls ∧
      1 ≤ l.totalToolCallCeiling ∧ l.totalToolCallCeiling ≤ adaptiveSessionMaxCalls ∧
      l.dispatchMarginMs = adaptiveResumeDispatchMarginMs)
    invalidFunding
  AdaptiveResumePolicyLimitsV1.validate
    ⟨l.totalReviewCeiling, l.totalWindowCeiling, l.maxWindowMs, l.maxCallDurationMs,
      l.dispatchMarginMs, l.expiresAtUnixMs⟩

end AdaptiveWorkFundingBindingLimitsV1

namespace AdaptiveWorkFundingLimitsV1

def validate (l : AdaptiveWorkFundingLimitsV1) : Except WorkflowError Unit := do
  ensure (l.additionalModelCalls ≤ adaptiveSessionMaxCalls ∧
      l.additionalToolCalls ≤ adaptiveSessionMaxCalls ∧ 1 ≤ l.additionalReviews ∧
      l.additionalReviews ≤ adaptiveResumeMaxReviews ∧
      l.dispatchMarginMs = adaptiveResumeDispatchMarginMs)
    invalidFunding
  AdaptiveResumePolicyLimitsV1.validate
    ⟨l.additionalReviews, l.additionalWindows, l.maxWindowMs, l.maxCallDurationMs,
      l.dispatchMarginMs, l.expiresAtUnixMs⟩

end AdaptiveWorkFundingLimitsV1

def checkedCallCeiling (current additional : ℕ) : Except WorkflowError ℕ :=
  orError ((checkedAdd 16 current additional).filter (· ≤ adaptiveSessionMaxCalls)) invalidFunding

theorem checkedCallCeiling_eq_ok {current additional total : ℕ}
    (h : checkedCallCeiling current additional = .ok total) :
    total = current + additional ∧ total ≤ adaptiveSessionMaxCalls := by
  rw [checkedCallCeiling, orError_eq_ok, Option.filter_eq_some_iff] at h
  obtain ⟨hsum, hle⟩ := h
  exact ⟨(checkedAdd_eq_some.1 hsum).1.symm, by simpa using hle⟩

section
variable [FundingDigests]

def adaptiveWorkFundingId (tenant : TenantId) (sessionId operationId : Uuid128) :
    Except WorkflowError String := do
  validateDomainId tenant
  ensure (sessionId ≠ 0 ∧ operationId ≠ 0) invalidFunding
  .ok ("work-funding-" ++ FundingDigests.workFundingId (tenant, sessionId, operationId))

def adaptiveWorkFundingExpiredReplacementKey (tenant : TenantId) (sessionId : Uuid128)
    (receiptDigest : String) : Except WorkflowError String := do
  validateDomainId tenant
  validateDigest receiptDigest
  ensure (sessionId ≠ 0) invalidReplacement
  .ok ("expired-funding-replacement-" ++
    FundingDigests.expiredReplacementKey (tenant, sessionId, receiptDigest))

def adaptiveMaterialWindowSlot (source : AdaptiveResumeSourceV1) :
    Except WorkflowError String := do
  source.validate
  .ok ("material-window-" ++ FundingDigests.materialWindowSlot
    (source.tenantId, source.projectId, source.workItemId, source.sessionId,
      source.headEntryDigest))

namespace AdaptiveWorkFundingExpiredReplacementBindingV1

def validate (b : AdaptiveWorkFundingExpiredReplacementBindingV1)
    (source : AdaptiveResumeSourceV1) : Except WorkflowError Unit := do
  validateDigest b.sourceDigest
  validateDigest b.reviewMembersDigest
  ensure (b.schemaVersion = 1) invalidReplacement
  let key ← adaptiveWorkFundingExpiredReplacementKey source.tenantId source.sessionId
    b.oldFundingReceiptDigest
  ensure (b.replacementKey = key) invalidReplacement

end AdaptiveWorkFundingExpiredReplacementBindingV1

namespace AdaptiveWorkFundingMaterialExpansionBindingV1

def validate (b : AdaptiveWorkFundingMaterialExpansionBindingV1)
    (source : AdaptiveResumeSourceV1) : Except WorkflowError Unit := do
  ensure (b.schemaVersion = 1 ∧ b.refusedReviewId ≠ 0) invalidExpansion
  let slot ← adaptiveMaterialWindowSlot source
  ensure (b.slotKey = slot) invalidExpansion
  validateIdentifier b.declinedFundingId
  checkAll validateDigest [b.declinedReceiptDigest, b.refusedCallDigest, b.modelResponseDigest,
    b.usageEventDigest]
  b.declinedLimits.validate
  b.authoritativeFloor.validate

end AdaptiveWorkFundingMaterialExpansionBindingV1

namespace AdaptiveWorkFundingSourceV1

def hasPriorAddition (s : AdaptiveWorkFundingSourceV1) : Bool :=
  s.originalModelCallCeiling < s.currentModelCallCeiling ||
    s.originalToolCallCeiling < s.currentToolCallCeiling

def validatePredecessor (s : AdaptiveWorkFundingSourceV1) : Except WorkflowError Unit :=
  match s.predecessorReceiptDigest with
  | none => ensure (!s.hasPriorAddition) invalidFunding
  | some digest => do
    validateDigest digest
    ensure s.hasPriorAddition invalidFunding

def validateSuperseded (s : AdaptiveWorkFundingSourceV1) : Except WorkflowError Unit :=
  match s.supersedesUnusedReceiptDigest with
  | none => .ok ()
  | some digest => do
    validateDigest digest
    ensure (s.predecessorReceiptDigest ≠ some digest) invalidFunding

def validateReplacement (s : AdaptiveWorkFundingSourceV1) : Except WorkflowError Unit :=
  match s.expiredReviewedReplacement with
  | none => .ok ()
  | some binding => do
    binding.validate s.resumeSource
    ensure (s.supersedesUnusedReceiptDigest = none ∧
        s.predecessorReceiptDigest ≠ some binding.oldFundingReceiptDigest)
      invalidFunding

def validateExpansion (s : AdaptiveWorkFundingSourceV1) : Except WorkflowError Unit :=
  match s.materialWindowExpansion with
  | none => .ok ()
  | some binding => do
    binding.validate s.resumeSource
    ensure (s.supersedesUnusedReceiptDigest = none ∧ s.expiredReviewedReplacement = none ∧
        s.predecessorReceiptDigest ≠ some binding.declinedReceiptDigest)
      invalidFunding

def validate (s : AdaptiveWorkFundingSourceV1) : Except WorkflowError Unit := do
  s.resumeSource.validate
  ensure (s.resumeSource.subject.isReadyForModel ∧
      1 ≤ s.originalModelCallCeiling ∧ s.originalModelCallCeiling ≤ adaptiveSessionMaxCalls ∧
      1 ≤ s.originalToolCallCeiling ∧ s.originalToolCallCeiling ≤ adaptiveSessionMaxCalls ∧
      s.originalModelCallCeiling ≤ s.currentModelCallCeiling ∧
      s.originalToolCallCeiling ≤ s.currentToolCallCeiling ∧
      s.currentModelCallCeiling ≤ adaptiveSessionMaxCalls ∧
      s.currentToolCallCeiling ≤ adaptiveSessionMaxCalls ∧
      s.resumeSource.baseModelCalls ≤ s.currentModelCallCeiling ∧
      s.resumeSource.baseToolCalls ≤ s.currentToolCallCeiling)
    invalidFunding
  s.validatePredecessor
  s.validateSuperseded
  s.validateReplacement
  s.validateExpansion

end AdaptiveWorkFundingSourceV1

namespace AdaptiveWorkFundingRequestV1

def validateShape (r : AdaptiveWorkFundingRequestV1) : Except WorkflowError Unit := do
  r.source.validate
  r.limits.validate
  validateIdentifier r.reasonRef
  ensure (r.schemaVersion = 1 ∧ r.operationId ≠ 0) invalidFunding
  ensure (¬(r.limits.additionalModelCalls = 0 ∧ r.limits.additionalToolCalls = 0 ∧
    r.source.predecessorReceiptDigest = none)) invalidFunding
  let modelCeiling ← checkedCallCeiling r.source.currentModelCallCeiling
    r.limits.additionalModelCalls
  let toolCeiling ← checkedCallCeiling r.source.currentToolCallCeiling
    r.limits.additionalToolCalls
  ensure (r.source.resumeSource.baseModelCalls < modelCeiling ∧
    r.source.resumeSource.baseToolCalls < toolCeiling) invalidFunding
  let totalReviews ← orError
    (checkedAdd 16 r.source.resumeSource.baseReviewCount r.limits.additionalReviews) invalidFunding
  let totalWindows ← orError
    (checkedAdd 16 r.source.resumeSource.baseWindowCount r.limits.additionalWindows) invalidFunding
  ensure (totalReviews ≤ adaptiveResumeMaxReviews ∧ totalWindows ≤ adaptiveResumeMaxReviews ∧
    totalWindows ≤ totalReviews) invalidFunding

def validateAt (r : AdaptiveWorkFundingRequestV1) (principal : AuthenticatedCompanyPrincipalV1)
    (nowMs : ℕ) : Except WorkflowError Unit := do
  r.validateShape
  requireResumePolicyOperator principal r.source.resumeSource.tenantId
  ensure (nowMs ≠ 0 ∧ nowMs ≤ r.limits.expiresAtUnixMs ∧
      1000 ≤ r.limits.expiresAtUnixMs - nowMs ∧
      r.limits.expiresAtUnixMs - nowMs ≤ adaptiveResumeMaxPolicyMs ∧
      ((checkedAdd 64 nowMs r.limits.maxCallDurationMs).bind
        (checkedAdd 64 · r.limits.dispatchMarginMs)).any (· ≤ r.limits.expiresAtUnixMs))
    invalidFunding

def bindingLimitsAfterValidation (r : AdaptiveWorkFundingRequestV1) :
    Except WorkflowError AdaptiveWorkFundingBindingLimitsV1 := do
  let totalModelCallCeiling ← checkedCallCeiling r.source.currentModelCallCeiling
    r.limits.additionalModelCalls
  let totalToolCallCeiling ← checkedCallCeiling r.source.currentToolCallCeiling
    r.limits.additionalToolCalls
  let totalReviewCeiling ← orError
    (checkedAdd 16 r.source.resumeSource.baseReviewCount r.limits.additionalReviews) invalidFunding
  let totalWindowCeiling ← orError
    (checkedAdd 16 r.source.resumeSource.baseWindowCount r.limits.additionalWindows) invalidFunding
  .ok
    { totalModelCallCeiling, totalToolCallCeiling, totalReviewCeiling, totalWindowCeiling
      maxWindowMs := r.limits.maxWindowMs
      maxCallDurationMs := r.limits.maxCallDurationMs
      dispatchMarginMs := r.limits.dispatchMarginMs
      expiresAtUnixMs := r.limits.expiresAtUnixMs }

omit [FundingDigests] in
theorem bindingLimits_eq_ok {r : AdaptiveWorkFundingRequestV1}
    {l : AdaptiveWorkFundingBindingLimitsV1} (h : r.bindingLimitsAfterValidation = .ok l) :
    l.totalModelCallCeiling = r.source.currentModelCallCeiling + r.limits.additionalModelCalls ∧
      l.totalModelCallCeiling ≤ adaptiveSessionMaxCalls ∧
      l.totalToolCallCeiling = r.source.currentToolCallCeiling + r.limits.additionalToolCalls ∧
      l.totalToolCallCeiling ≤ adaptiveSessionMaxCalls := by
  simp only [bindingLimitsAfterValidation, bind_eq_ok] at h
  obtain ⟨m, hm, t, ht, _, -, _, -, h⟩ := h
  obtain ⟨hmsum, hmle⟩ := checkedCallCeiling_eq_ok hm
  obtain ⟨htsum, htle⟩ := checkedCallCeiling_eq_ok ht
  cases h
  exact ⟨hmsum, hmle, htsum, htle⟩

end AdaptiveWorkFundingRequestV1

namespace AdaptiveWorkFundingBindingV1

def validate (b : AdaptiveWorkFundingBindingV1) : Except WorkflowError Unit := do
  validateIdentifier b.fundingId
  validateDigest b.receiptDigest
  b.limits.validate
  ensure (b.schemaVersion = 1 ∧ b.ordinal ≠ 0 ∧ b.ordinal ≤ b.limits.totalReviewCeiling)
    invalidFunding

end AdaptiveWorkFundingBindingV1

namespace AdaptiveWorkFundingReceiptV1

def validate (r : AdaptiveWorkFundingReceiptV1) : Except WorkflowError Unit := do
  r.request.validateAt r.issuerPrincipal r.issuedAtUnixMs
  ensure (r.schemaVersion = 1) invalidFunding
  let fundingId ← adaptiveWorkFundingId r.request.source.resumeSource.tenantId
    r.request.source.resumeSource.sessionId r.request.operationId
  ensure (r.fundingId = fundingId) invalidFunding

def receiptDigest (r : AdaptiveWorkFundingReceiptV1) : Except WorkflowError String := do
  r.validate
  .ok (FundingDigests.workFundingReceipt r)

def validateBinding (r : AdaptiveWorkFundingReceiptV1) (b : AdaptiveWorkFundingBindingV1) :
    Except WorkflowError Unit := do
  r.validate
  b.validate
  ensure (b.fundingId = r.fundingId ∧ b.receiptDigest = FundingDigests.workFundingReceipt r)
    bindingConflict
  let limits ← r.request.bindingLimitsAfterValidation
  ensure (b.limits = limits ∧ r.request.source.resumeSource.baseReviewCount < b.ordinal)
    bindingConflict

end AdaptiveWorkFundingReceiptV1

namespace AdaptiveWorkFundingEpochV1

def validate (e : AdaptiveWorkFundingEpochV1) : Except WorkflowError Unit :=
  e.receipt.validateBinding e.binding

def sameEpoch (e other : AdaptiveWorkFundingEpochV1) : Bool :=
  e.receipt = other.receipt && e.binding.fundingId = other.binding.fundingId &&
    e.binding.receiptDigest = other.binding.receiptDigest &&
    e.binding.limits = other.binding.limits

structure Raises (e : AdaptiveWorkFundingEpochV1) : Prop where
  model : e.receipt.request.source.currentModelCallCeiling ≤ e.binding.limits.totalModelCallCeiling
  tool : e.receipt.request.source.currentToolCallCeiling ≤ e.binding.limits.totalToolCallCeiling
  model_le : e.binding.limits.totalModelCallCeiling ≤ adaptiveSessionMaxCalls
  tool_le : e.binding.limits.totalToolCallCeiling ≤ adaptiveSessionMaxCalls

theorem raises_of_validate {e : AdaptiveWorkFundingEpochV1} (h : e.validate = .ok ()) :
    e.Raises := by
  simp only [validate, AdaptiveWorkFundingReceiptV1.validateBinding, bind_eq_ok,
    ensure_eq_ok] at h
  obtain ⟨_, -, _, -, _, -, limits, hlimits, heq, -⟩ := h
  obtain ⟨hm, hmle, ht, htle⟩ := AdaptiveWorkFundingRequestV1.bindingLimits_eq_ok hlimits
  rw [← heq] at hm hmle ht htle
  exact ⟨by omega, by omega, hmle, htle⟩

end AdaptiveWorkFundingEpochV1
end

end Sentinel.Workflow

import Mathlib.Data.Finset.Basic
import Sentinel.Lib.Result
import Sentinel.Lib.Text
import Sentinel.Lib.Uuid

/-! The identities, errors and authority records of the workflow crate (`sentinel-workflow`,
modules `error`, `model` and `domain`), with the checks of their form. -/

namespace Sentinel.Workflow
open Lib

inductive WorkflowErrorCode where
  | invalidInput
  | invalidDigest
  | invalidTransition
  | notFound
  | versionConflict
  | idempotencyConflict
  | authorityConflict
  | organizationUnavailable
  | executionUnavailable
  | completionUnavailable
  | gateUnavailable
  | unknownOutcome
  | corruptStore
  | persistenceFailure
deriving DecidableEq

structure WorkflowError where
  code : WorkflowErrorCode
  retryable : Bool
  message : String
deriving DecidableEq

def workflowSchemaVersion : ℕ := 1
def companyDomainSchemaVersion : ℕ := 1

abbrev Uuid128 := BitVec 128

instance : LawfulBEq Uuid128 := inferInstance

abbrev TenantId := String
abbrev ProjectId := String
abbrev WorkItemId := String
abbrev AgentId := ℕ

def invalidInput (message : String) : WorkflowError := ⟨.invalidInput, false, message⟩

def textBytes (value : String) : List UInt8 := value.toUTF8.data.toList

def isAsciiLower (b : UInt8) : Bool := 97 ≤ b && b ≤ 122

def isAsciiDigit (b : UInt8) : Bool := 48 ≤ b && b ≤ 57

def isAsciiAlphanumeric (b : UInt8) : Bool :=
  isAsciiLower b || isAsciiDigit b || (65 ≤ b && b ≤ 90)

def isSeparator (b : UInt8) : Bool := b = 45 || b = 95

def validateSha256 (value : String) : Bool :=
  (textBytes value).length = 64 &&
    (textBytes value).all fun b => isAsciiDigit b || (97 ≤ b && b ≤ 102)

/-- One to 128 bytes, each a letter, a digit or one of `.`, `_`, `:` and `-`. -/
def validIdentifier (value : String) : Bool :=
  textBytes value ≠ [] && (textBytes value).length ≤ 128 &&
    (textBytes value).all fun b => isAsciiAlphanumeric b || isSeparator b || b = 46 || b = 58

def validateIdentifier (value : String) : Except WorkflowError Unit :=
  ensure (validIdentifier value) (invalidInput "workflow identifier is invalid")

def noDoubleSeparator : List UInt8 → Bool
  | b :: c :: rest => !(isSeparator b && isSeparator c) && noDoubleSeparator (c :: rest)
  | _ => true

def validDomainBytes (bytes : List UInt8) : Bool :=
  bytes ≠ [] && bytes.length ≤ 128 &&
    (bytes.all fun b => isAsciiLower b || isAsciiDigit b || isSeparator b) &&
    bytes.head?.any isAsciiAlphanumeric && bytes.getLast?.any isAsciiAlphanumeric &&
    noDoubleSeparator bytes

def validateDomainId (value : String) : Except WorkflowError Unit :=
  ensure (validDomainBytes (textBytes value)) (invalidInput "domain identity is not canonical")

def validateDigest (value : String) : Except WorkflowError Unit :=
  ensure (validateSha256 value) ⟨.invalidDigest, false, "workflow digest is invalid"⟩

def sampleDigest : String := "9f86d081884c7d659a2feaa0c55ad015a3bf4f1b2b0b822cd15d6c15b0f00a08"

example : validateDigest sampleDigest = .ok () := by decide +kernel

def validResolution (value : String) : Bool :=
  (Uuid.parse value).any fun u => u.digits.any (· ≠ 0)

structure PrincipalAuthorityV1 where
  schemaVersion : ℕ
  principalId : String
  principalGeneration : ℕ
  authorityDigest : String
deriving DecidableEq

namespace PrincipalAuthorityV1

def validate (p : PrincipalAuthorityV1) : Except WorkflowError Unit := do
  ensure (p.schemaVersion = workflowSchemaVersion ∧ p.principalGeneration ≠ 0)
    (invalidInput "principal authority version or generation is invalid")
  validateIdentifier p.principalId
  validateDigest p.authorityDigest

end PrincipalAuthorityV1

structure RuntimeAuthoritySnapshotV1 where
  schemaVersion : ℕ
  tenantId : TenantId
  projectId : ProjectId
  workItemId : WorkItemId
  agentId : AgentId
  assignmentVersion : ℕ
  assignmentDigest : String
  organizationGeneration : ℕ
  organizationDigest : String
  principal : PrincipalAuthorityV1
  profileId : String
  profileGeneration : ℕ
  profileDigest : String
  runtimeKey : String
  runtimeGeneration : ℕ
  runtimeDigest : String
  policyGeneration : ℕ
  policyDigest : String
  active : Bool
  capabilities : List String
deriving DecidableEq

namespace RuntimeAuthoritySnapshotV1

def validate (a : RuntimeAuthoritySnapshotV1) : Except WorkflowError Unit := do
  ensure (a.schemaVersion = workflowSchemaVersion ∧ a.agentId ≠ 0 ∧ a.assignmentVersion ≠ 0 ∧
      a.organizationGeneration ≠ 0 ∧ a.profileGeneration ≠ 0 ∧ a.runtimeGeneration ≠ 0 ∧
      a.policyGeneration ≠ 0 ∧ a.active ∧ a.capabilities ≠ [])
    ⟨.authorityConflict, false, "runtime authority is incomplete or inactive"⟩
  validateDomainId a.tenantId
  validateDomainId a.projectId
  validateDomainId a.workItemId
  a.principal.validate
  validateIdentifier a.profileId
  validateIdentifier a.runtimeKey
  checkAll validateDigest [a.assignmentDigest, a.organizationDigest, a.profileDigest,
    a.runtimeDigest, a.policyDigest]
  checkAll validateIdentifier a.capabilities

end RuntimeAuthoritySnapshotV1

inductive CompanyRoleV1 where
  | customer
  | sales
  | projectManager
  | technicalLead
  | designer
  | developer
  | qa
  | releaseManager
  | gaia
deriving DecidableEq

inductive CompanyPrincipalKindV1 where
  | customer
  | operator
  | agent
deriving DecidableEq

structure AuthenticatedCompanyPrincipalV1 where
  schemaVersion : ℕ
  tenantId : TenantId
  principalId : String
  kind : CompanyPrincipalKindV1
  role : CompanyRoleV1
  customerId : Option String
  agentId : Option AgentId
  authorityGeneration : ℕ
  authorityDigest : String
deriving DecidableEq

def unauthorized : WorkflowError :=
  ⟨.authorityConflict, false, "company principal is not authorized"⟩

namespace AuthenticatedCompanyPrincipalV1

def validate (p : AuthenticatedCompanyPrincipalV1) : Except WorkflowError Unit := do
  ensure (p.schemaVersion = companyDomainSchemaVersion ∧ p.authorityGeneration ≠ 0)
    (invalidInput "company principal authority is invalid")
  validateDomainId p.tenantId
  validateIdentifier p.principalId
  validateDigest p.authorityDigest
  match p.kind, p.customerId, p.agentId with
  | .customer, some customer, none => do
    validateIdentifier customer
    ensure (p.role = .customer) unauthorized
  | .agent, none, some id => ensure (id ≠ 0 ∧ p.role ≠ .customer) unauthorized
  | .operator, none, none => ensure (p.role ≠ .customer) unauthorized
  | _, _, _ => .error unauthorized

end AuthenticatedCompanyPrincipalV1

end Sentinel.Workflow

import Sentinel.Lib.Bytes
import Sentinel.Lib.Table
import Mathlib.Data.String.Basic

/-! Owner terms, the canonical global and recipient-local owner snapshots, and their
validation (`sentinel-common`, module `fencing`). A snapshot lists one row per scope, strictly
sorted by the wire form of the scope, under a checksum of its canonical payload. -/

namespace Sentinel.Cluster
open Lib

structure NodeId where
  uuid : BitVec 128
deriving DecidableEq

inductive StateTransferScope where
  | world
  | nanoContainer (id : String)
deriving DecidableEq

namespace StateTransferScope

def toWire : StateTransferScope → String
  | world => "world"
  | nanoContainer id => "nano:" ++ id

def fromWire (s : String) : Option StateTransferScope :=
  if s = "world" then some world
  else if "nano:".toList.isPrefixOf s.toList ∧ s ≠ "nano:" then
    some (nanoContainer (String.ofList (s.toList.drop 5)))
  else none

def forAggregate (aggregateId : String) : StateTransferScope :=
  let rest := aggregateId.toList.drop 6
  if "AGENT-".toList.isPrefixOf aggregateId.toList ∧ rest ≠ [] ∧ rest.all Char.isDigit then
    nanoContainer aggregateId
  else world

theorem toWire_fromWire {s : String} {scope : StateTransferScope} (h : fromWire s = some scope) :
    scope.toWire = s := by
  unfold fromWire at h
  split_ifs at h with hw hn
  · cases h
    exact hw.symm
  · cases h
    obtain ⟨rest, hrest⟩ := List.isPrefixOf_iff_prefix.1 hn.1
    apply String.toList_injective
    rw [toWire, String.toList_append, String.toList_ofList, ← hrest]
    simp

theorem toWire_injective : Function.Injective toWire := by
  have hne : ∀ id, "world" ≠ "nano:" ++ id := by
    intro id h
    simpa using congrArg (fun s => s.toList.head?) h
  intro a b h
  cases a <;> cases b
  · rfl
  · exact absurd h (hne _)
  · exact absurd h.symm (hne _)
  · rename_i x y
    have := congrArg String.toList h
    simp only [toWire, String.toList_append, List.append_cancel_left_eq] at this
    rw [String.toList_injective this]

theorem fromWire_toWire {scope scope' : StateTransferScope}
    (h : fromWire scope.toWire = some scope') : scope' = scope :=
  toWire_injective (toWire_fromWire h)

end StateTransferScope

structure OwnerTerm where
  scope : StateTransferScope
  ownerNode : NodeId
  epoch : UInt64
  coordinatorGeneration : UInt64
deriving DecidableEq

def trackACoordinatorGeneration : UInt64 := 1
def ownerSnapshotSchemaVersion : UInt32 := 1

inductive ActivationState where
  | legacyUnknown
  | notRoutable
  | routable
deriving DecidableEq

inductive LocalOwnerBaseRole where
  | owner
  | follower
deriving DecidableEq

structure LocalOwnerBaseState where
  scope : StateTransferScope
  recipientNode : NodeId
  ownerTerm : OwnerTerm
  baseRole : LocalOwnerBaseRole
  activationState : ActivationState
deriving DecidableEq

inductive LocalOwnerOperationKind where
  | legacyReconciliation
  | handoff
  | migration
deriving DecidableEq

inductive LocalOwnerSagaRole where
  | retiring
  | retired
  | preparedTarget
  | ownerActivating
deriving DecidableEq

structure LocalOwnerSagaState where
  scope : StateTransferScope
  operationKind : LocalOwnerOperationKind
  opId : Option (BitVec 128)
  ownerTerm : OwnerTerm
  role : LocalOwnerSagaRole
  transitionSeq : UInt64
deriving DecidableEq

inductive LocalOwnerRole where
  | owner
  | retiring
  | retired
  | follower
  | preparedTarget
  | ownerActivating

structure LocalOwnerState where
  scope : StateTransferScope
  nodeId : NodeId
  epoch : UInt64
  role : LocalOwnerRole

structure OwnerTermSnapshot where
  schemaVersion : UInt32
  coordinatorGeneration : UInt64
  termSnapshotRevision : UInt64
  sortedTerms : List OwnerTerm
  checksum : Digest
deriving DecidableEq

structure LocalOwnerStateSnapshot where
  schemaVersion : UInt32
  recipientNode : NodeId
  coordinatorGeneration : UInt64
  termSnapshotRevision : UInt64
  sortedBaseStates : List LocalOwnerBaseState
  checksum : Digest
deriving DecidableEq

inductive OwnerSnapshotInstallOutcome where
  | installed
  | alreadyInstalled
  | staleSnapshot (installedRevision receivedRevision : UInt64)
  | generationMismatch (installedGeneration receivedGeneration : UInt64)
  | snapshotConflict
deriving DecidableEq

inductive OwnerSnapshotError where
  | unsupportedSchema (version : UInt32)
  | unsortedRows
  | duplicateScope (scope : String)
  | termGenerationMismatch (scope : String)
  | recipientMismatch (scope : String)
  | localTermMismatch (scope : String)
  | localRoleMismatch (scope : String)
  | legacyActivation (scope : String)
  | checksumMismatch
  | envelopeMismatch
  | fieldTooLarge
deriving DecidableEq

def OwnerSnapshotError.message : OwnerSnapshotError → String
  | unsupportedSchema v => "unsupported owner snapshot schema " ++ toString v
  | unsortedRows => "owner snapshot rows are not sorted by canonical scope"
  | duplicateScope s => "duplicate owner snapshot scope " ++ s
  | termGenerationMismatch s => "term generation does not match snapshot generation for " ++ s
  | recipientMismatch s => "local snapshot recipient does not match row for " ++ s
  | localTermMismatch s => "local owner term does not match global term for " ++ s
  | localRoleMismatch s => "recipient-local owner role does not match global owner for " ++ s
  | legacyActivation s =>
    "legacy activation is not valid in a Track-A owner snapshot for " ++ s
  | checksumMismatch => "owner snapshot checksum mismatch"
  | envelopeMismatch => "global and local snapshot envelopes do not match"
  | fieldTooLarge => "owner snapshot field exceeds canonical codec limit"

end Sentinel.Cluster

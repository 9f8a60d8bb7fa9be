import Sentinel.Cluster.OwnerSnapshot

/-! The in-memory owner registry of a node (`sentinel-common`, module `fencing`): the cached
terms, base states and overlays, the readiness latch, and the write guards issued from them. -/

namespace Sentinel.Cluster
open Lib

inductive OwnerMode where
  | singleNode
  | cluster
deriving DecidableEq

structure OwnerRegistry where
  thisNode : NodeId
  mode : OwnerMode
  terms : StateTransferScope → Option OwnerTerm
  baseStates : StateTransferScope → Option LocalOwnerBaseState
  sagaStates : StateTransferScope → Option LocalOwnerSagaState
  readiness : Bool

structure OwnerWriteGuard where
  scope : StateTransferScope
  ownerNode : NodeId
  epoch : UInt64
  coordinatorGeneration : UInt64
deriving DecidableEq

inductive OwnerIssueError where
  | readinessClosed (scope : StateTransferScope)
  | unknownScope (scope : StateTransferScope)
  | recipientMismatch (scope : StateTransferScope) (expected actual : NodeId)
  | generationMismatch (scope : StateTransferScope) (expected actual : UInt64)
  | notOwner (scope : StateTransferScope) (thisNode ownerNode : NodeId)
  | roleNotOwner (scope : StateTransferScope)
  | notRoutable (scope : StateTransferScope) (activation : ActivationState)
  | sagaOverlay (scope : StateTransferScope) (role : LocalOwnerSagaRole)
  | termChanged (scope : StateTransferScope) (guardOwner : NodeId)
      (guardEpoch guardGeneration : UInt64) (currentOwner : NodeId)
      (currentEpoch currentGeneration : UInt64)

def singleNodeEpoch : UInt64 := 1

namespace OwnerRegistry

def clusterNode (thisNode : NodeId) : OwnerRegistry :=
  ⟨thisNode, .cluster, fun _ => none, fun _ => none, fun _ => none, false⟩

def closeOwnerReadiness (r : OwnerRegistry) : OwnerRegistry := { r with readiness := false }

def seedTerm (r : OwnerRegistry) (scope : StateTransferScope) : OwnerTerm :=
  ⟨scope, r.thisNode, singleNodeEpoch, 0⟩

def currentOwner (r : OwnerRegistry) (scope : StateTransferScope) :
    Except OwnerIssueError OwnerTerm :=
  match r.mode with
  | .singleNode => .ok (r.seedTerm scope)
  | .cluster => match r.terms scope with
    | some term => .ok term
    | none => .error (.unknownScope scope)

def retireLocal (r : OwnerRegistry) (scope : StateTransferScope) (epoch : UInt64) :
    OwnerRegistry :=
  let term := match r.currentOwner scope with
    | .ok term => term
    | .error _ =>
      { scope
        ownerNode := r.thisNode
        epoch
        coordinatorGeneration := if r.mode = .cluster then trackACoordinatorGeneration else 0 }
  { r with
    sagaStates := Function.update r.sagaStates scope (some
      { scope
        operationKind := .handoff
        opId := none
        ownerTerm := term
        role := .retired
        transitionSeq := 0 }) }

def validate (r : OwnerRegistry) (guard : OwnerWriteGuard) : Except OwnerIssueError Unit := do
  ensure (r.readiness = true) (.readinessClosed guard.scope)
  let term ← r.currentOwner guard.scope
  ensure (guard.ownerNode = term.ownerNode ∧ guard.epoch = term.epoch ∧
      guard.coordinatorGeneration = term.coordinatorGeneration)
    (.termChanged guard.scope guard.ownerNode guard.epoch guard.coordinatorGeneration
      term.ownerNode term.epoch term.coordinatorGeneration)
  ensure (term.ownerNode = r.thisNode) (.notOwner guard.scope r.thisNode term.ownerNode)
  if r.mode = .singleNode then .ok ()
  else do
    ensure (term.coordinatorGeneration = trackACoordinatorGeneration)
      (.generationMismatch guard.scope trackACoordinatorGeneration term.coordinatorGeneration)
    match r.sagaStates guard.scope with
    | some overlay => .error (.sagaOverlay guard.scope overlay.role)
    | none => match r.baseStates guard.scope with
      | none => .error (.roleNotOwner guard.scope)
      | some base => do
        ensure (base.recipientNode = r.thisNode ∧ base.ownerTerm = term ∧ base.baseRole = .owner)
          (.roleNotOwner guard.scope)
        ensure (base.activationState = .routable)
          (.notRoutable guard.scope base.activationState)

def issue (r : OwnerRegistry) (scope : StateTransferScope) :
    Except OwnerIssueError OwnerWriteGuard := do
  ensure (r.readiness = true) (.readinessClosed scope)
  let term ← r.currentOwner scope
  let guard : OwnerWriteGuard :=
    ⟨scope, term.ownerNode, term.epoch, term.coordinatorGeneration⟩
  r.validate guard
  .ok guard

theorem issue_eq_ok {r : OwnerRegistry} (hmode : r.mode = .cluster) {scope : StateTransferScope}
    {guard : OwnerWriteGuard} (h : r.issue scope = .ok guard) :
    r.readiness = true ∧ r.sagaStates scope = none ∧
      ∃ term, r.terms scope = some term ∧ term.ownerNode = r.thisNode := by
  simp only [issue, validate, bind_eq_ok, ensure_eq_ok, hmode, reduceCtorEq, if_false] at h
  obtain ⟨_, hready, term, hterm, _, ⟨_, -, term', hterm', _, -, _, howner, _, -, hsaga⟩, -⟩ := h
  obtain rfl := Except.ok.inj (hterm.symm.trans hterm')
  refine ⟨hready, ?_, term, ?_, howner⟩
  · split at hsaga
    · cases hsaga
    · assumption
  · simp only [currentOwner, hmode] at hterm
    split at hterm
    · rwa [← Except.ok.inj hterm]
    · cases hterm

variable [Sha256]

def rebuildFromOwnerSnapshot (r : OwnerRegistry) (global : OwnerTermSnapshot)
    (loc : LocalOwnerStateSnapshot) (sagaStates : List LocalOwnerSagaState) :
    Except OwnerSnapshotError OwnerRegistry := do
  validateOwnerSnapshotPair global loc
  ensure (loc.recipientNode = r.thisNode) (.recipientMismatch "envelope")
  ensure (global.coordinatorGeneration = trackACoordinatorGeneration)
    (.termGenerationMismatch "envelope")
  .ok
    { r with
      terms := collect OwnerTerm.scope global.sortedTerms
      baseStates := collect LocalOwnerBaseState.scope loc.sortedBaseStates
      sagaStates := collect LocalOwnerSagaState.scope sagaStates
      mode := .cluster
      readiness := true }

theorem rebuildFromOwnerSnapshot_eq_ok {r r' : OwnerRegistry} {g : OwnerTermSnapshot}
    {l : LocalOwnerStateSnapshot} {sagas : List LocalOwnerSagaState}
    (h : r.rebuildFromOwnerSnapshot g l sagas = .ok r') :
    PairValid g l ∧ l.recipientNode = r.thisNode ∧
      g.coordinatorGeneration = trackACoordinatorGeneration ∧
      r' = { r with
        terms := collect OwnerTerm.scope g.sortedTerms
        baseStates := collect LocalOwnerBaseState.scope l.sortedBaseStates
        sagaStates := collect LocalOwnerSagaState.scope sagas
        mode := .cluster
        readiness := true } := by
  simp only [rebuildFromOwnerSnapshot, bind_eq_ok, ensure_eq_ok,
    validateOwnerSnapshotPair_eq_ok] at h
  obtain ⟨_, hpair, _, hrec, _, hgen, h⟩ := h
  exact ⟨hpair, hrec, hgen, (Except.ok.inj h).symm⟩

end OwnerRegistry
end Sentinel.Cluster

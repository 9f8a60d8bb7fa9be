import Sentinel.Cluster.OwnerRegistry
import Sentinel.Cluster.SnapshotRegister

/-! The control handler of a node (`owner_handler`): what it does on `OwnerCommit`,
`ReplicateOwnerSnapshot` and `PrepareHandoff`, and how the registry is rebuilt from the store.
Each request is handled under the owner tick barrier, so it is one step of the node. -/

namespace Sentinel.Cluster
open Lib

structure OwnerNode where
  store : ClusterMetaStore
  registry : OwnerRegistry

inductive ControlRequest where
  | ownerCommit (scope : String) (ownerNode : NodeId) (epoch : UInt64)
  | replicateOwnerSnapshot (global : OwnerTermSnapshot) (loc : LocalOwnerStateSnapshot)
  | prepareHandoff (scope : String) (epoch : UInt64)
deriving DecidableEq

inductive ControlResponse where
  | handoffPrepared (scope : String) (epoch : UInt64)
  | ownerCommitted (scope : String) (epoch : UInt64)
  | ownerSnapshotAck (outcome : OwnerSnapshotInstallOutcome)
  | rejected (reason : String)

inductive RebuildFailure where
  | readback (error : MetaError)
  | absent
  | cache (error : OwnerSnapshotError)

variable [Sha256]

namespace OwnerNode

def rebuildFromStore (node : OwnerNode) : Except RebuildFailure OwnerRegistry :=
  match node.store.installedOwnerSnapshot with
  | .error e => .error (.readback e)
  | .ok none => .error .absent
  | .ok (some (global, loc)) =>
    match node.registry.rebuildFromOwnerSnapshot global loc node.store.listLocalSagaStates with
    | .error e => .error (.cache e)
    | .ok registry => .ok registry

def restart (node : OwnerNode) : OwnerNode :=
  let node : OwnerNode := ⟨node.store.openStore, .clusterNode node.registry.thisNode⟩
  match node.rebuildFromStore with
  | .ok registry => { node with registry }
  | .error _ => node

/-! ## `PrepareHandoff` -/

def persistSourceRetirement (store : ClusterMetaStore) (thisNode : NodeId) (scopeWire : String)
    (epoch : UInt64) : Except String (ClusterMetaStore × LocalOwnerState) := do
  match StateTransferScope.fromWire scopeWire, store.installedOwnerSnapshot with
  | none, _ => .error ("unrecognized scope " ++ scopeWire.quote)
  | some _, .error e => .error ("owner snapshot readback failed: " ++ e.message)
  | some _, .ok none => .error "owner snapshot must be installed before PrepareHandoff"
  | some scope, .ok (some (global, loc)) =>
    match global.find scope, loc.find scope with
    | none, _ => .error "handoff scope is absent from installed owner snapshot"
    | some _, none => .error "recipient-local owner state is absent from installed snapshot"
    | some term, some localState => do
      ensure (global.coordinatorGeneration = trackACoordinatorGeneration ∧
          loc.coordinatorGeneration = trackACoordinatorGeneration ∧
          term.coordinatorGeneration = trackACoordinatorGeneration)
        "PrepareHandoff coordinator generation mismatch"
      ensure (term.epoch = epoch) ("PrepareHandoff epoch mismatch: installed " ++
        toString term.epoch ++ ", requested " ++ toString epoch)
      ensure (term.ownerNode = thisNode) ("PrepareHandoff source mismatch: installed owner " ++
        term.ownerNode.toText ++ ", this node " ++ thisNode.toText)
      ensure (loc.recipientNode = thisNode ∧ localState.recipientNode = thisNode ∧
          localState.ownerTerm = term ∧ localState.baseRole = .owner ∧
          localState.activationState = .routable)
        "PrepareHandoff recipient-local state is not active owner authority"
      let state : LocalOwnerState := ⟨scope, thisNode, epoch, .retired⟩
      match store.putLocalState state with
      | .error e => .error ("persist retirement failed: " ++ e.message)
      | .ok store' => .ok (store', state)

def prepareHandoff (node : OwnerNode) (scopeWire : String) (epoch : UInt64) :
    Except String OwnerNode := do
  let (store, state) ← persistSourceRetirement node.store node.registry.thisNode scopeWire epoch
  .ok ⟨store, node.registry.retireLocal state.scope epoch⟩

/-! ## `OwnerCommit` -/

def persistCommit (store : ClusterMetaStore) (scopeWire : String) (ownerNode : NodeId)
    (epoch : UInt64) : Except String ClusterMetaStore := do
  match StateTransferScope.fromWire scopeWire, store.installedOwnerSnapshot with
  | none, _ => .error ("unrecognized scope " ++ scopeWire.quote)
  | some _, .ok none => .error "owner snapshot must be installed before OwnerCommit"
  | some _, .error e => .error ("owner snapshot readback failed: " ++ e.message)
  | some scope, .ok (some (global, loc)) =>
    let term : OwnerTerm := ⟨scope, ownerNode, epoch, trackACoordinatorGeneration⟩
    match global.find scope, loc.find scope with
    | none, _ => .error "committed owner term is absent from installed snapshot"
    | some _, none => .error "recipient-local owner state is absent from installed snapshot"
    | some installedTerm, some localState => do
      ensure (installedTerm = term ∧ localState.ownerTerm = term ∧
          localState.recipientNode = term.ownerNode ∧ localState.baseRole = .owner ∧
          localState.activationState = .routable)
        "OwnerCommit does not match installed recipient-local authority"
      match store.completeHandoffOverlay term with
      | .error e => .error ("complete handoff overlay failed: " ++ e.message)
      | .ok store' => .ok store'

def ownerCommit (node : OwnerNode) (scopeWire : String) (ownerNode : NodeId) (epoch : UInt64) :
    OwnerNode × ControlResponse :=
  match persistCommit node.store scopeWire ownerNode epoch with
  | .error reason => (node, .rejected reason)
  | .ok store =>
    let node := { node with store }
    match node.rebuildFromStore with
    | .ok registry => ({ node with registry }, .ownerCommitted scopeWire epoch)
    | .error .absent =>
      (node, .rejected "owner snapshot marker disappeared during OwnerCommit")
    | .error (.readback e) =>
      (node, .rejected ("OwnerCommit durable readback failed: " ++ e.message))
    | .error (.cache e) =>
      ({ node with registry := node.registry.closeOwnerReadiness },
        .rejected ("OwnerCommit cache rebuild failed: " ++ e.message))

/-! ## `ReplicateOwnerSnapshot` -/

def installClosed (node : OwnerNode) (global : OwnerTermSnapshot)
    (loc : LocalOwnerStateSnapshot) : OwnerNode × Except MetaError OwnerSnapshotInstallOutcome :=
  (⟨(node.store.installOwnerSnapshot global loc).1, node.registry.closeOwnerReadiness⟩,
    (node.store.installOwnerSnapshot global loc).2)

def replicateOwnerSnapshot (node : OwnerNode) (global : OwnerTermSnapshot)
    (loc : LocalOwnerStateSnapshot) : OwnerNode × ControlResponse :=
  if loc.recipientNode ≠ node.registry.thisNode then
    (node, .rejected "owner snapshot recipient does not match this node")
  else
    let (closed, answer) := node.installClosed global loc
    match answer with
    | .error e => (closed, .rejected ("owner snapshot install failed: " ++ e.message))
    | .ok .snapshotConflict => (closed, .ownerSnapshotAck .snapshotConflict)
    | .ok (.generationMismatch a b) => (closed, .ownerSnapshotAck (.generationMismatch a b))
    | .ok outcome =>
      match closed.rebuildFromStore with
      | .ok registry => ({ closed with registry }, .ownerSnapshotAck outcome)
      | .error (.cache e) =>
        (closed, .rejected ("owner snapshot cache rebuild failed: " ++ e.message))
      | .error (.readback e) =>
        (closed, .rejected ("owner snapshot durable readback failed: " ++ e.message))
      | .error .absent => (closed, .rejected "owner snapshot install marker disappeared")

def handle (node : OwnerNode) : ControlRequest → OwnerNode × ControlResponse
  | .ownerCommit scope ownerNode epoch => node.ownerCommit scope ownerNode epoch
  | .replicateOwnerSnapshot global loc => node.replicateOwnerSnapshot global loc
  | .prepareHandoff scope epoch =>
    match node.prepareHandoff scope epoch with
    | .ok node' => (node', .handoffPrepared scope epoch)
    | .error reason => (node, .rejected reason)

/-! ## Steps the chef applies to itself -/

def installAndRebuild (node : OwnerNode) (global : OwnerTermSnapshot)
    (loc : LocalOwnerStateSnapshot) : OwnerNode × Bool :=
  let (closed, answer) := node.installClosed global loc
  match answer with
  | .ok .installed | .ok .alreadyInstalled =>
    match closed.registry.rebuildFromOwnerSnapshot global loc
      closed.store.listLocalSagaStates with
    | .ok registry => ({ closed with registry }, true)
    | .error _ => (closed, false)
  | _ => (closed, false)

/-- The chef's own `OwnerCommit`: clear the overlay and rebuild, without the checks of the
remote handler. -/
def commitLocally (node : OwnerNode) (term : OwnerTerm) : OwnerNode × Bool :=
  match node.store.completeHandoffOverlay term with
  | .error _ => (node, false)
  | .ok store =>
    let node := { node with store }
    match node.rebuildFromStore with
    | .ok registry => ({ node with registry }, true)
    | .error _ => (node, false)

end OwnerNode
end Sentinel.Cluster

import Sentinel.Cluster.OwnerHandler

/-! The ownership handoff as a distributed system: the chef runs any number of handoff sagas
(`handoff`) and config materialisations (`operator_api`) side by side, and the nodes handle its
control requests. A request that was sent may be handled any number of times, in any order, or
never; a saga goes on when an answer to its own request has come back. -/

namespace Sentinel.Cluster
open Lib

structure ClusterConfig where
  chef : NodeId
  myAlias : String
  peers : List (NodeId × String)

namespace ClusterConfig

def aliasForNode (cfg : ClusterConfig) (node : NodeId) : Option String :=
  if node = cfg.chef then some cfg.myAlias
  else (cfg.peers.find? fun p => p.1 = node).map Prod.snd

def route (cfg : ClusterConfig) (peerAlias : String) : Option NodeId :=
  (cfg.peers.find? fun p => p.2 = peerAlias).map Prod.fst

end ClusterConfig

def checkedAddOne (v : UInt64) : Option UInt64 :=
  if v.toNat + 1 < 2 ^ 64 then some (v + 1) else none

/-! ## The snapshots a saga builds -/

def setTerm (term : OwnerTerm) : List OwnerTerm → Option (List OwnerTerm)
  | [] => none
  | t :: ts => if t.scope = term.scope then some (term :: ts) else (setTerm term ts).map (t :: ·)

def agentText (id : UInt16) : String :=
  "AGENT-" ++ (if id < 10 then "0" else "") ++ toString id

variable [Sha256]

def handoffSnapshot (installed : OwnerTermSnapshot) (term : OwnerTerm) :
    Option OwnerTermSnapshot := do
  let terms ← setTerm term installed.sortedTerms
  let revision ← checkedAddOne installed.termSnapshotRevision
  (OwnerTermSnapshot.new trackACoordinatorGeneration revision terms).toOption

omit [Sha256] in
def addAgentTerms (chef : NodeId) (terms : List OwnerTerm) (agents : List UInt16) :
    List OwnerTerm :=
  agents.foldl (fun terms id =>
    let scope : StateTransferScope := .nanoContainer (agentText id)
    if terms.any fun t => t.scope = scope then terms
    else terms ++ [⟨scope, chef, 1, trackACoordinatorGeneration⟩]) terms

def extendOwnerSnapshotForAgents (installed : OwnerTermSnapshot) (agents : List UInt16)
    (chef : NodeId) : Option (OwnerTermSnapshot × Bool) :=
  let terms := addAgentTerms chef installed.sortedTerms agents
  if terms.length = installed.sortedTerms.length then some (installed, false)
  else do
    let revision ← checkedAddOne installed.termSnapshotRevision
    let global ← (OwnerTermSnapshot.new trackACoordinatorGeneration revision terms).toOption
    some (global, true)

/-! ## Sagas -/

structure HandoffRequest where
  scope : StateTransferScope
  sourceAlias : String
  targetAlias : String
  targetNode : NodeId
deriving DecidableEq

inductive HandoffOutcome where
  | committed (newEpoch : UInt64)
  | abortedSourceUnreachable
deriving DecidableEq

structure HandoffRun where
  req : HandoffRequest
  current : OwnerTerm
  newEpoch : UInt64
deriving DecidableEq

inductive HandoffStage where
  | preparing
  | prepared
  | built (global : OwnerTermSnapshot)
  | replicatingSource (global : OwnerTermSnapshot)
  | replicatingTarget (global : OwnerTermSnapshot)
  | committing
deriving DecidableEq

inductive SagaResult where
  | handoff (outcome : HandoffOutcome)
  | materialized
  | failed
deriving DecidableEq

/-- A call on the chef that is still running, or its result. A materialisation that is
replicating has sent its request to the first of the peers that are left. -/
inductive Saga where
  | handoff (run : HandoffRun) (stage : HandoffStage)
  | materializeBuilt (global : OwnerTermSnapshot)
  | materializeReplicating (global : OwnerTermSnapshot) (peers : List (NodeId × String))
  | finished (result : SagaResult)
deriving DecidableEq

namespace HandoffRun

def newTerm (run : HandoffRun) : OwnerTerm :=
  ⟨run.req.scope, run.req.targetNode, run.newEpoch, trackACoordinatorGeneration⟩

def prepareRequest (run : HandoffRun) : ControlRequest :=
  .prepareHandoff run.req.scope.toWire run.current.epoch

def commitRequest (run : HandoffRun) : ControlRequest :=
  .ownerCommit run.req.scope.toWire run.req.targetNode run.newEpoch

end HandoffRun

/-! ## The cluster -/

structure ClusterState where
  nodes : NodeId → OwnerNode
  sagas : List Saga
  requests : List (NodeId × ControlRequest)
  replies : List (NodeId × ControlRequest × ControlResponse)

def isPrepared : ControlResponse → Bool
  | .handoffPrepared _ _ => true
  | _ => false

def isSnapshotAck : ControlResponse → Bool
  | .ownerSnapshotAck .installed | .ownerSnapshotAck .alreadyInstalled => true
  | _ => false

def isCommitted : ControlResponse → Bool
  | .ownerCommitted _ _ => true
  | _ => false

namespace ClusterState
variable (cfg : ClusterConfig) (c : ClusterState)

def setNode (n : NodeId) (node : OwnerNode) : ClusterState :=
  { c with nodes := Function.update c.nodes n node }

def setSaga (i : Nat) (saga : Saga) : ClusterState := { c with sagas := c.sagas.set i saga }

def chefNode : OwnerNode := c.nodes cfg.chef

def send (peerAlias : String) (request : ControlRequest) : ClusterState :=
  match cfg.route peerAlias with
  | some n => { c with requests := (n, request) :: c.requests }
  | none => c

def sendUnlessLocal (peerAlias : String) (request : ControlRequest) : ClusterState :=
  if peerAlias = cfg.myAlias then c else c.send cfg peerAlias request

def answered (peerAlias : String) (request : ControlRequest) (accept : ControlResponse → Bool) :
    Bool :=
  match cfg.route peerAlias with
  | some n => c.replies.any fun r => decide (r.1 = n ∧ r.2.1 = request) && accept r.2.2
  | none => false

/-! ### One handoff -/

def startHandoff (req : HandoffRequest) : ClusterState :=
  match (c.chefNode cfg).registry.currentOwner req.scope with
  | .error _ => c
  | .ok current =>
    match cfg.aliasForNode current.ownerNode, checkedAddOne current.epoch with
    | some sourceAlias, some newEpoch =>
      if req.sourceAlias ≠ sourceAlias then c
      else
        let run : HandoffRun := ⟨req, current, newEpoch⟩
        let c := c.sendUnlessLocal cfg req.sourceAlias run.prepareRequest
        { c with sagas := c.sagas ++ [.handoff run .preparing] }
    | _, _ => c

def startReplication (i : Nat) (peerAlias : String) (recipient : NodeId)
    (global : OwnerTermSnapshot) (next : Saga) : ClusterState :=
  match localSnapshotFor global recipient with
  | .error _ => c.setSaga i (.finished .failed)
  | .ok loc =>
    (c.sendUnlessLocal cfg peerAlias (.replicateOwnerSnapshot global loc)).setSaga i next

def finishReplication (i : Nat) (peerAlias : String) (recipient : NodeId)
    (global : OwnerTermSnapshot) (next : ClusterState → ClusterState) : ClusterState :=
  match localSnapshotFor global recipient with
  | .error _ => c.setSaga i (.finished .failed)
  | .ok loc =>
    if peerAlias = cfg.myAlias then
      let (node, ok) := (c.chefNode cfg).installAndRebuild global loc
      let c := c.setNode cfg.chef node
      if ok then next c else c.setSaga i (.finished .failed)
    else if c.answered cfg peerAlias (.replicateOwnerSnapshot global loc) isSnapshotAck then next c
    else c

def replicateToTarget (i : Nat) (run : HandoffRun) (global : OwnerTermSnapshot) : ClusterState :=
  c.startReplication cfg i run.req.targetAlias run.req.targetNode global
    (.handoff run (.replicatingTarget global))

def installOnChef (i : Nat) (run : HandoffRun) (global : OwnerTermSnapshot) : ClusterState :=
  match localSnapshotFor global cfg.chef with
  | .error _ => c.setSaga i (.finished .failed)
  | .ok chefLocal =>
    let (node, ok) := (c.chefNode cfg).installAndRebuild global chefLocal
    let c := c.setNode cfg.chef node
    if !ok then c.setSaga i (.finished .failed)
    else if run.current.ownerNode ≠ cfg.chef ∧ run.current.ownerNode ≠ run.req.targetNode then
      c.startReplication cfg i run.req.sourceAlias run.current.ownerNode global
        (.handoff run (.replicatingSource global))
    else c.replicateToTarget cfg i run global

def commitTarget (i : Nat) (run : HandoffRun) : ClusterState :=
  if run.req.targetAlias = cfg.myAlias then
    match StateTransferScope.fromWire run.req.scope.toWire with
    | none => c.setSaga i (.finished .failed)
    | some scope =>
      let (node, ok) := (c.chefNode cfg).commitLocally { run.newTerm with scope }
      (c.setNode cfg.chef node).setSaga i
        (.finished (if ok then .handoff (.committed run.newEpoch) else .failed))
  else if c.answered cfg run.req.targetAlias run.commitRequest isCommitted then
    c.setSaga i (.finished (.handoff (.committed run.newEpoch)))
  else c

def advanceHandoff (i : Nat) (run : HandoffRun) : HandoffStage → ClusterState
  | .preparing =>
    if run.req.sourceAlias = cfg.myAlias then
      match (c.chefNode cfg).prepareHandoff run.req.scope.toWire run.current.epoch with
      | .error _ => c.setSaga i (.finished (.handoff .abortedSourceUnreachable))
      | .ok node => (c.setNode cfg.chef node).setSaga i (.handoff run .prepared)
    else if c.answered cfg run.req.sourceAlias run.prepareRequest isPrepared then
      c.setSaga i (.handoff run .prepared)
    else c
  | .prepared =>
    match (c.chefNode cfg).store.installedOwnerSnapshot with
    | .ok (some (installed, _)) =>
      match handoffSnapshot installed run.newTerm with
      | some global => c.setSaga i (.handoff run (.built global))
      | none => c.setSaga i (.finished .failed)
    | _ => c.setSaga i (.finished .failed)
  | .built global => c.installOnChef cfg i run global
  | .replicatingSource global =>
    c.finishReplication cfg i run.req.sourceAlias run.current.ownerNode global
      fun c => c.replicateToTarget cfg i run global
  | .replicatingTarget global =>
    c.finishReplication cfg i run.req.targetAlias run.req.targetNode global fun c =>
      (c.sendUnlessLocal cfg run.req.targetAlias run.commitRequest).setSaga i
        (.handoff run .committing)
  | .committing => c.commitTarget cfg i run

/-! ### One materialisation -/

def replicateToPeers (i : Nat) (global : OwnerTermSnapshot) :
    List (NodeId × String) → ClusterState
  | [] => c.setSaga i (.finished .materialized)
  | p :: ps => match localSnapshotFor global p.1 with
    | .error _ => c.setSaga i (.finished .failed)
    | .ok loc => (c.send cfg p.2 (.replicateOwnerSnapshot global loc)).setSaga i
        (.materializeReplicating global (p :: ps))

def startMaterialize (agents : List UInt16) : ClusterState :=
  match (c.chefNode cfg).store.installedOwnerSnapshot with
  | .ok (some (installed, _)) =>
    match extendOwnerSnapshotForAgents installed agents cfg.chef with
    | none => c
    | some (global, true) => { c with sagas := c.sagas ++ [.materializeBuilt global] }
    | some (global, false) =>
      ({ c with sagas := c.sagas ++ [.materializeBuilt global] } : ClusterState).replicateToPeers
        cfg c.sagas.length global cfg.peers
  | _ => c

def advanceMaterialize (i : Nat) (global : OwnerTermSnapshot) : ClusterState :=
  match localSnapshotFor global cfg.chef with
  | .error _ => c.setSaga i (.finished .failed)
  | .ok loc =>
    let (node, ok) := (c.chefNode cfg).installAndRebuild global loc
    let c := c.setNode cfg.chef node
    if ok then c.replicateToPeers cfg i global cfg.peers else c.setSaga i (.finished .failed)

def advancePeers (i : Nat) (global : OwnerTermSnapshot) : List (NodeId × String) → ClusterState
  | [] => c.setSaga i (.finished .materialized)
  | p :: ps => match localSnapshotFor global p.1 with
    | .error _ => c.setSaga i (.finished .failed)
    | .ok loc =>
      if c.answered cfg p.2 (.replicateOwnerSnapshot global loc) isSnapshotAck then
        c.replicateToPeers cfg i global ps
      else c

/-! ### Steps of the cluster -/

def advance (i : Nat) : ClusterState :=
  match c.sagas[i]? with
  | some (.handoff run stage) => c.advanceHandoff cfg i run stage
  | some (.materializeBuilt global) => c.advanceMaterialize cfg i global
  | some (.materializeReplicating global peers) => c.advancePeers cfg i global peers
  | some (.finished _) | none => c

def giveUp (i : Nat) : ClusterState :=
  match c.sagas[i]? with
  | some (.handoff _ .preparing) => c.setSaga i (.finished (.handoff .abortedSourceUnreachable))
  | some (.finished _) | none => c
  | some _ => c.setSaga i (.finished .failed)

def reconcile (peer : NodeId × String) : ClusterState :=
  match (c.chefNode cfg).store.installedOwnerSnapshot with
  | .ok (some (installed, _)) => match localSnapshotFor installed peer.1 with
    | .ok loc => c.send cfg peer.2 (.replicateOwnerSnapshot installed loc)
    | .error _ => c
  | _ => c

/-- A request in flight reaches its node. It stays in flight, so it may arrive again. -/
def deliver (n : NodeId) (request : ControlRequest) : ClusterState :=
  if (n, request) ∈ c.requests then
    let (node, response) := (c.nodes n).handle request
    let c := c.setNode n node
    { c with replies := (n, request, response) :: c.replies }
  else c

def restart (n : NodeId) : ClusterState :=
  let c := c.setNode n (c.nodes n).restart
  { c with sagas := if n = cfg.chef then [] else c.sagas }

end ClusterState

inductive ClusterAction where
  | startHandoff (req : HandoffRequest)
  | startMaterialize (agents : List UInt16)
  | advance (saga : Nat)
  | giveUp (saga : Nat)
  | reconcile (peer : NodeId × String)
  | deliver (node : NodeId) (request : ControlRequest)
  | restart (node : NodeId)

def clusterMachine (cfg : ClusterConfig) : Machine ClusterState ClusterAction Unit where
  call c
    | .startHandoff req => (c.startHandoff cfg req, ())
    | .startMaterialize agents => (c.startMaterialize cfg agents, ())
    | .advance i => (c.advance cfg i, ())
    | .giveUp i => (c.giveUp i, ())
    | .reconcile peer => (c.reconcile cfg peer, ())
    | .deliver n request => (c.deliver n request, ())
    | .restart n => (c.restart cfg n, ())

end Sentinel.Cluster

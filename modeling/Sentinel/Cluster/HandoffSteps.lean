import Sentinel.Cluster.Drafts

/-! What the actions of the cluster can do, said once. Every action is a chain of small steps;
each names the saga, snapshot or request that justifies it. An invariant of the small steps is
an invariant of every run. -/

namespace Sentinel.Cluster
open Lib

inductive Saga.Replicates (g : OwnerTermSnapshot) : Saga → Prop
  | source (run : HandoffRun) : Replicates g (.handoff run (.replicatingSource g))
  | target (run : HandoffRun) : Replicates g (.handoff run (.replicatingTarget g))
  | peers (ps : List (NodeId × String)) : Replicates g (.materializeReplicating g ps)

inductive Saga.Drafts (g : OwnerTermSnapshot) : Saga → Prop
  | handoff (run : HandoffRun) : Drafts g (.handoff run (.built g))
  | materialize : Drafts g (.materializeBuilt g)

namespace ClusterState
variable (cfg : ClusterConfig) (c : ClusterState)

def addSaga (saga : Saga) : ClusterState := { c with sagas := c.sagas ++ [saga] }

def post (n : NodeId) (request : ControlRequest) : ClusterState :=
  { c with requests := (n, request) :: c.requests }

theorem exists_reply_of_answered {peerAlias : String} {request : ControlRequest}
    {accept : ControlResponse → Bool} (h : c.answered cfg peerAlias request accept = true) :
    ∃ n response, (n, request, response) ∈ c.replies ∧ accept response = true := by
  unfold answered at h
  split at h
  · obtain ⟨⟨n, r, response⟩, hmem, h⟩ := List.any_eq_true.1 h
    simp only [Bool.and_eq_true, decide_eq_true_eq] at h
    obtain ⟨⟨-, rfl⟩, haccept⟩ := h
    exact ⟨n, response, hmem, haccept⟩
  · cases h

theorem setSaga_setSaga (i : Nat) (s s' : Saga) :
    (c.setSaga i s).setSaga i s' = c.setSaga i s' := by
  simp [setSaga, List.set_set]

theorem setSaga_self {i : Nat} {s : Saga} (h : c.sagas[i]? = some s) : c.setSaga i s = c := by
  obtain ⟨hlt, rfl⟩ := List.getElem?_eq_some_iff.1 h
  simp [setSaga]

theorem sendUnlessLocal_setSaga (i : Nat) (s : Saga) (peerAlias : String)
    (request : ControlRequest) : (c.sendUnlessLocal cfg peerAlias request).setSaga i s =
      (c.setSaga i s).sendUnlessLocal cfg peerAlias request := by
  unfold sendUnlessLocal send
  split_ifs
  · rfl
  · split <;> rfl

theorem sendUnlessLocal_nodes (peerAlias : String) (request : ControlRequest) :
    (c.sendUnlessLocal cfg peerAlias request).nodes = c.nodes := by
  unfold sendUnlessLocal send
  split_ifs
  · rfl
  · split <;> rfl

theorem send_setSaga (i : Nat) (s : Saga) (peerAlias : String) (request : ControlRequest) :
    (c.send cfg peerAlias request).setSaga i s = (c.setSaga i s).send cfg peerAlias request := by
  unfold send
  split <;> rfl

theorem saga_setSaga {i : Nat} {s : Saga} (h : c.sagas[i]? = some s) (s' : Saga) :
    (c.setSaga i s').sagas[i]? = some s' := by
  have hlt : i < c.sagas.length := (List.getElem?_eq_some_iff.1 h).1
  simp [setSaga, hlt]

end ClusterState

/-! ## Small steps -/

inductive SagaStep (cfg : ClusterConfig) (c : ClusterState) : Saga → Saga → Prop
  | finish (old : Saga) (r : SagaResult) : SagaStep cfg c old (.finished r)
  | prepared (run : HandoffRun)
      (hreply : c.answered cfg run.req.sourceAlias run.prepareRequest isPrepared = true) :
      SagaStep cfg c (.handoff run .preparing) (.handoff run .prepared)
  | replicate (g : OwnerTermSnapshot) {old new : Saga} (hold : old.Replicates g)
      (hnew : new.Replicates g) : SagaStep cfg c old new
  | commit (run : HandoffRun) (g : OwnerTermSnapshot) :
      SagaStep cfg c (.handoff run (.replicatingTarget g)) (.handoff run .committing)

variable [Sha256]

inductive SmallStep (cfg : ClusterConfig) (guard : ClusterState → ClusterAction → Prop)
    (c : ClusterState) : ClusterState → Prop
  | restart (n : NodeId) : SmallStep cfg guard c (c.setNode n (c.nodes n).restart)
  | dropSagas : SmallStep cfg guard c { c with sagas := [] }
  | deliver (n : NodeId) (request : ControlRequest) (hsent : (n, request) ∈ c.requests)
      (hguard : guard c (.deliver n request)) : SmallStep cfg guard c (c.deliver n request)
  | saga (i : Nat) {old new : Saga} (hsaga : c.sagas[i]? = some old)
      (hstep : SagaStep cfg c old new) : SmallStep cfg guard c (c.setSaga i new)
  | build (i : Nat) (run : HandoffRun) {installed g : OwnerTermSnapshot}
      {l : LocalOwnerStateSnapshot} (hsaga : c.sagas[i]? = some (.handoff run .prepared))
      (hread : (c.chefNode cfg).store.installedOwnerSnapshot = .ok (some (installed, l)))
      (hdraft : handoffSnapshot installed run.newTerm = some g)
      (hguard : guard c (.advance i)) :
      SmallStep cfg guard c (c.setSaga i (.handoff run (.built g)))
  | prepareLocally (i : Nat) (run : HandoffRun) {node : OwnerNode}
      (hsaga : c.sagas[i]? = some (.handoff run .preparing))
      (hprep : (c.chefNode cfg).prepareHandoff run.req.scope.toWire run.current.epoch =
        .ok node) :
      SmallStep cfg guard c ((c.setNode cfg.chef node).setSaga i (.handoff run .prepared))
  | commitLocally (term : OwnerTerm) :
      SmallStep cfg guard c (c.setNode cfg.chef ((c.chefNode cfg).commitLocally term).1)
  | install (i : Nat) {saga next : Saga} {g : OwnerTermSnapshot} {l : LocalOwnerStateSnapshot}
      (hsaga : c.sagas[i]? = some saga) (hcarries : saga.Drafts g ∨ saga.Replicates g)
      (hl : localSnapshotFor g l.recipientNode = .ok l) (hguard : guard c (.advance i))
      (hnext : next = .finished .failed ∨
        ((c.chefNode cfg).installAndRebuild g l).2 = true ∧ next.Replicates g) :
      SmallStep cfg guard c
        ((c.setNode cfg.chef ((c.chefNode cfg).installAndRebuild g l).1).setSaga i next)
  | addHandoff (run : HandoffRun)
      (hread : (c.chefNode cfg).registry.currentOwner run.req.scope = .ok run.current)
      (hepoch : checkedAddOne run.current.epoch = some run.newEpoch) :
      SmallStep cfg guard c (c.addSaga (.handoff run .preparing))
  | addMaterialize {installed g : OwnerTermSnapshot} {l : LocalOwnerStateSnapshot}
      (agents : List UInt16)
      (hread : (c.chefNode cfg).store.installedOwnerSnapshot = .ok (some (installed, l)))
      (hdraft : extendOwnerSnapshotForAgents installed agents cfg.chef = some (g, true)) :
      SmallStep cfg guard c (c.addSaga (.materializeBuilt g))
  | addReplication {installed : OwnerTermSnapshot} {l : LocalOwnerStateSnapshot} {saga : Saga}
      (hread : (c.chefNode cfg).store.installedOwnerSnapshot = .ok (some (installed, l)))
      (hsaga : saga.Replicates installed ∨ ∃ r, saga = .finished r) :
      SmallStep cfg guard c (c.addSaga saga)
  | sendSnapshot (n : NodeId) {g : OwnerTermSnapshot} {l : LocalOwnerStateSnapshot}
      (hl : localSnapshotFor g l.recipientNode = .ok l)
      (hg : (∃ saga ∈ c.sagas, saga.Replicates g) ∨
        ∃ l', (c.chefNode cfg).store.installedOwnerSnapshot = .ok (some (g, l'))) :
      SmallStep cfg guard c (c.post n (.replicateOwnerSnapshot g l))
  | sendOther (n : NodeId) (request : ControlRequest)
      (hother : ∀ g l, request ≠ .replicateOwnerSnapshot g l) :
      SmallStep cfg guard c (c.post n request)

variable (cfg : ClusterConfig) (guard : ClusterState → ClusterAction → Prop)

abbrev SmallSteps : ClusterState → ClusterState → Prop :=
  Relation.ReflTransGen (SmallStep cfg guard)

namespace ClusterState

/-! ## Replication -/

theorem startReplication_setSaga (c : ClusterState) (i : Nat) (s : Saga) (peerAlias : String)
    (recipient : NodeId) (g : OwnerTermSnapshot) (next : Saga) :
    (c.setSaga i s).startReplication cfg i peerAlias recipient g next =
      c.startReplication cfg i peerAlias recipient g next := by
  unfold startReplication
  split
  · exact c.setSaga_setSaga i _ _
  · rw [sendUnlessLocal_setSaga, setSaga_setSaga, sendUnlessLocal_setSaga]

theorem replicateToPeers_setSaga (c : ClusterState) (i : Nat) (s : Saga) (g : OwnerTermSnapshot)
    (ps : List (NodeId × String)) :
    (c.setSaga i s).replicateToPeers cfg i g ps = c.replicateToPeers cfg i g ps := by
  cases ps with
  | nil => exact c.setSaga_setSaga i _ _
  | cons p ps =>
    simp only [replicateToPeers]
    split
    · exact c.setSaga_setSaga i _ _
    · rw [send_setSaga, setSaga_setSaga, send_setSaga]

theorem localSnapshotFor_self {g : OwnerTermSnapshot} {n : NodeId}
    {l : LocalOwnerStateSnapshot} (h : localSnapshotFor g n = .ok l) :
    localSnapshotFor g l.recipientNode = .ok l := by
  rwa [localSnapshotFor_recipient h]

variable {cfg guard} {c : ClusterState} {i : Nat} {saga : Saga} {g : OwnerTermSnapshot}

section Send

variable {c' : ClusterState} {request : ControlRequest} (h : SmallSteps cfg guard c c')
  (hpost : ∀ n, SmallStep cfg guard c' (c'.post n request)) (peerAlias : String)
include h hpost

theorem smallSteps_send : SmallSteps cfg guard c (c'.send cfg peerAlias request) := by
  unfold send
  split
  · exact h.tail (hpost _)
  · exact h

theorem smallSteps_sendUnlessLocal :
    SmallSteps cfg guard c (c'.sendUnlessLocal cfg peerAlias request) := by
  unfold sendUnlessLocal
  split_ifs
  · exact h
  · exact smallSteps_send h hpost peerAlias

end Send

theorem smallSteps_startReplication (hsaga : c.sagas[i]? = some saga) (hold : saga.Replicates g)
    {next : Saga} (hnext : next.Replicates g) (peerAlias : String) (recipient : NodeId) :
    SmallSteps cfg guard c (c.startReplication cfg i peerAlias recipient g next) := by
  unfold startReplication
  split
  · exact .single (.saga i hsaga (.finish _ _))
  · rename_i l hl
    have hset : SmallSteps cfg guard c (c.setSaga i next) :=
      .single (.saga i hsaga (.replicate g hold hnext))
    rw [sendUnlessLocal_setSaga]
    exact smallSteps_sendUnlessLocal hset (fun n => .sendSnapshot n (localSnapshotFor_self hl)
      (.inl ⟨next, List.mem_of_getElem? (c.saga_setSaga hsaga next), hnext⟩)) peerAlias

theorem smallSteps_replicateToPeers (hsaga : c.sagas[i]? = some saga) (hold : saga.Replicates g)
    (ps : List (NodeId × String)) :
    SmallSteps cfg guard c (c.replicateToPeers cfg i g ps) := by
  cases ps with
  | nil => exact .single (.saga i hsaga (.finish _ _))
  | cons p ps =>
    simp only [replicateToPeers]
    split
    · exact .single (.saga i hsaga (.finish _ _))
    · rename_i l hl
      have hset : SmallSteps cfg guard c (c.setSaga i (.materializeReplicating g (p :: ps))) :=
        .single (.saga i hsaga (.replicate g hold (.peers _)))
      rw [send_setSaga]
      exact smallSteps_send hset (fun n => .sendSnapshot n (localSnapshotFor_self hl)
        (.inl ⟨_, List.mem_of_getElem? (c.saga_setSaga hsaga _), .peers _⟩)) p.2

theorem smallSteps_finishReplication (hsaga : c.sagas[i]? = some saga)
    (hold : saga.Replicates g) (hguard : guard c (.advance i)) (peerAlias : String)
    (recipient : NodeId) {next : ClusterState → ClusterState}
    (hnext : ∀ c' : ClusterState, c'.sagas[i]? = some saga → SmallSteps cfg guard c' (next c')) :
    SmallSteps cfg guard c (c.finishReplication cfg i peerAlias recipient g next) := by
  unfold finishReplication
  split
  · exact .single (.saga i hsaga (.finish _ _))
  · rename_i l hl
    split_ifs with hlocal hanswered
    · dsimp only
      split_ifs with hok
      · have hstep : SmallSteps cfg guard c
            (c.setNode cfg.chef ((c.chefNode cfg).installAndRebuild g l).1) := by
          rw [← setSaga_self (c.setNode _ _) hsaga]
          exact .single (.install i hsaga (.inr hold) (localSnapshotFor_self hl) hguard
            (.inr ⟨hok, hold⟩))
        exact hstep.trans (hnext _ hsaga)
      · exact .single (.install i hsaga (.inr hold) (localSnapshotFor_self hl) hguard (.inl rfl))
    · exact hnext c hsaga
    · exact .refl

/-! ## Actions -/

theorem smallSteps_startHandoff (c : ClusterState) (req : HandoffRequest) :
    SmallSteps cfg guard c (c.startHandoff cfg req) := by
  unfold startHandoff
  split
  · exact .refl
  · rename_i current hread
    split
    · rename_i newEpoch _ hepoch
      split_ifs
      · exact .refl
      · have hsent : SmallSteps cfg guard c (c.sendUnlessLocal cfg req.sourceAlias
            (HandoffRun.prepareRequest ⟨req, current, newEpoch⟩)) :=
          smallSteps_sendUnlessLocal .refl
            (fun n => .sendOther n _ fun _ _ => ControlRequest.noConfusion) _
        refine hsent.tail (.addHandoff ⟨req, current, newEpoch⟩ ?_ hepoch)
        rwa [chefNode, sendUnlessLocal_nodes]
    · exact .refl

theorem smallSteps_startMaterialize (c : ClusterState) (agents : List UInt16) :
    SmallSteps cfg guard c (c.startMaterialize cfg agents) := by
  unfold startMaterialize
  split
  · rename_i installed l hread
    split
    · exact .refl
    · rename_i g hg
      exact .single (.addMaterialize agents hread hg)
    · rename_i g hg
      obtain ⟨-, rfl⟩ | ⟨h, -⟩ := extendOwnerSnapshotForAgents_eq_some hg
      · have hadd : SmallSteps cfg guard c (c.addSaga (.materializeReplicating g [])) :=
          .single (.addReplication hread (.inl (.peers [])))
        have hsaga : (c.addSaga (.materializeReplicating g [])).sagas[c.sagas.length]? =
            some (.materializeReplicating g []) := by
          simp [addSaga]
        refine hadd.trans ?_
        have heq : ({ c with sagas := c.sagas ++ [.materializeBuilt g] } : ClusterState).setSaga
            c.sagas.length (.materializeReplicating g []) =
            c.addSaga (.materializeReplicating g []) := by
          simp [setSaga, addSaga]
        rw [← replicateToPeers_setSaga cfg _ _ (.materializeReplicating g []), heq]
        exact smallSteps_replicateToPeers hsaga (.peers []) cfg.peers
      · cases h
  · exact .refl

theorem smallSteps_advanceHandoff {run : HandoffRun} {stage : HandoffStage}
    (hsaga : c.sagas[i]? = some (.handoff run stage)) (hguard : guard c (.advance i)) :
    SmallSteps cfg guard c (c.advanceHandoff cfg i run stage) := by
  cases stage with
  | preparing =>
    simp only [advanceHandoff]
    split_ifs with _ hreply
    · split
      · exact .single (.saga i hsaga (.finish _ _))
      · rename_i node hprep
        exact .single (.prepareLocally i run hsaga hprep)
    · exact .single (.saga i hsaga (.prepared run hreply))
    · exact .refl
  | prepared =>
    simp only [advanceHandoff]
    split
    · rename_i installed l hread
      split
      · rename_i g hdraft
        exact .single (.build i run hsaga hread hdraft hguard)
      · exact .single (.saga i hsaga (.finish _ _))
    · exact .single (.saga i hsaga (.finish _ _))
  | built g =>
    simp only [advanceHandoff, installOnChef]
    split
    · exact .single (.saga i hsaga (.finish _ _))
    · rename_i l hl
      have hl' := localSnapshotFor_self hl
      by_cases hok : ((c.chefNode cfg).installAndRebuild g l).2 = true
      · -- the saga replicates `g` from here on; which peer comes first makes no difference
        have hgo : ∀ (peerAlias : String) (recipient : NodeId) {next : Saga},
            next.Replicates g → SmallSteps cfg guard c ((c.setNode cfg.chef
              ((c.chefNode cfg).installAndRebuild g l).1).startReplication cfg i peerAlias
                recipient g next) := by
          intro peerAlias recipient next hnext
          rw [← startReplication_setSaga cfg _ i (.handoff run (.replicatingTarget g))]
          exact (Relation.ReflTransGen.single (.install i hsaga (.inl (.handoff run)) hl' hguard
            (.inr ⟨hok, .target run⟩))).trans (smallSteps_startReplication
              (saga_setSaga (c.setNode _ _) hsaga _) (.target run) hnext peerAlias recipient)
        simp only [hok, Bool.not_true, Bool.false_eq_true, if_false]
        split_ifs
        · exact hgo _ _ (.source run)
        · exact hgo _ _ (.target run)
      · simp only [hok, Bool.not_false, if_true]
        exact .single (.install i hsaga (.inl (.handoff run)) hl' hguard (.inl rfl))
  | replicatingSource g =>
    exact smallSteps_finishReplication hsaga (.source run) hguard _ _ fun c' hc' =>
      smallSteps_startReplication hc' (.source run) (.target run) _ _
  | replicatingTarget g =>
    simp only [advanceHandoff]
    refine smallSteps_finishReplication hsaga (.target run) hguard _ _ fun c' hc' => ?_
    have hset : SmallSteps cfg guard c' (c'.setSaga i (.handoff run .committing)) :=
      .single (.saga i hc' (.commit run g))
    rw [sendUnlessLocal_setSaga]
    exact smallSteps_sendUnlessLocal hset
      (fun n => .sendOther n _ fun _ _ => ControlRequest.noConfusion) _
  | committing =>
    simp only [advanceHandoff, commitTarget]
    split_ifs
    · split
      · exact .single (.saga i hsaga (.finish _ _))
      · exact (Relation.ReflTransGen.single (.commitLocally _)).tail
          (.saga i hsaga (.finish _ _))
    · exact .single (.saga i hsaga (.finish _ _))
    · exact .refl

theorem smallSteps_advanceMaterialize (hsaga : c.sagas[i]? = some (.materializeBuilt g))
    (hguard : guard c (.advance i)) : SmallSteps cfg guard c (c.advanceMaterialize cfg i g) := by
  unfold advanceMaterialize
  split
  · exact .single (.saga i hsaga (.finish _ _))
  · rename_i l hl
    have hl' := localSnapshotFor_self hl
    dsimp only
    split_ifs with hok
    · rw [← replicateToPeers_setSaga cfg _ i (.materializeReplicating g [])]
      exact (Relation.ReflTransGen.single (.install i hsaga (.inl .materialize) hl' hguard
        (.inr ⟨hok, .peers []⟩))).trans (smallSteps_replicateToPeers
          (saga_setSaga (c.setNode _ _) hsaga _) (.peers []) cfg.peers)
    · exact .single (.install i hsaga (.inl .materialize) hl' hguard (.inl rfl))

theorem smallSteps_advancePeers {peers : List (NodeId × String)}
    (hsaga : c.sagas[i]? = some (.materializeReplicating g peers)) :
    SmallSteps cfg guard c (c.advancePeers cfg i g peers) := by
  cases peers with
  | nil => exact .single (.saga i hsaga (.finish _ _))
  | cons p ps =>
    simp only [advancePeers]
    split
    · exact .single (.saga i hsaga (.finish _ _))
    · split_ifs
      · exact smallSteps_replicateToPeers hsaga (.peers _) ps
      · exact .refl

theorem smallSteps_advance (hguard : guard c (.advance i)) :
    SmallSteps cfg guard c (c.advance cfg i) := by
  unfold advance
  split
  · exact smallSteps_advanceHandoff ‹_› hguard
  · exact smallSteps_advanceMaterialize ‹_› hguard
  · exact smallSteps_advancePeers ‹_›
  · exact .refl
  · exact .refl

theorem smallSteps_giveUp (c : ClusterState) (i : Nat) :
    SmallSteps cfg guard c (c.giveUp i) := by
  unfold giveUp
  split
  · exact .single (.saga i ‹_› (.finish _ _))
  · exact .refl
  · exact .refl
  · exact .single (.saga i ‹_› (.finish _ _))

theorem smallSteps_reconcile (c : ClusterState) (peer : NodeId × String) :
    SmallSteps cfg guard c (c.reconcile cfg peer) := by
  unfold reconcile
  split
  · rename_i installed l hread
    split
    · rename_i loc hloc
      exact smallSteps_send .refl
        (fun n => .sendSnapshot n (localSnapshotFor_self hloc) (.inr ⟨l, hread⟩)) peer.2
    · exact .refl
  · exact .refl

theorem smallSteps_restart (c : ClusterState) (n : NodeId) :
    SmallSteps cfg guard c (c.restart cfg n) := by
  unfold restart
  dsimp only
  split_ifs
  · exact (Relation.ReflTransGen.single (.restart n)).tail .dropSagas
  · exact .single (.restart n)

theorem smallSteps_deliver {n : NodeId} {request : ControlRequest}
    (hguard : guard c (.deliver n request)) : SmallSteps cfg guard c (c.deliver n request) := by
  by_cases hsent : (n, request) ∈ c.requests
  · exact .single (.deliver n request hsent hguard)
  · rw [deliver, if_neg hsent]

end ClusterState

theorem smallSteps_call {c : ClusterState} {a : ClusterAction} (hguard : guard c a) :
    SmallSteps cfg guard c ((clusterMachine cfg).call c a).1 := by
  cases a with
  | startHandoff req => exact c.smallSteps_startHandoff req
  | startMaterialize agents => exact c.smallSteps_startMaterialize agents
  | advance i => exact ClusterState.smallSteps_advance hguard
  | giveUp i => exact c.smallSteps_giveUp i
  | reconcile peer => exact c.smallSteps_reconcile peer
  | deliver n request => exact ClusterState.smallSteps_deliver hguard
  | restart n => exact c.smallSteps_restart n

theorem invariant_of_smallStep {I : ClusterState → Prop}
    (hstep : ∀ c c', I c → SmallStep cfg guard c c' → I c') {c : ClusterState} (hc : I c)
    {actions : List ClusterAction} (hmeets : (clusterMachine cfg).Meets guard c actions) :
    I ((clusterMachine cfg).final c actions) := by
  refine (clusterMachine cfg).final_invariant (fun c a hc hguard => ?_) hc hmeets
  have hsteps := smallSteps_call cfg guard hguard
  generalize ((clusterMachine cfg).call c a).1 = c' at hsteps ⊢
  induction hsteps with
  | refl => exact hc
  | tail _ hlast ih => exact hstep _ _ ih hlast

/-! ## Starting states -/

structure ClusterState.Started (c : ClusterState) (g : OwnerTermSnapshot) : Prop where
  nodes : ∀ n, ∃ store l, localSnapshotFor g n = .ok l ∧
    (ClusterMetaStore.installOwnerSnapshot store g l).2 = .ok .installed ∧
    c.nodes n = OwnerNode.restart ⟨(store.installOwnerSnapshot g l).1, .clusterNode n⟩
  sagas : c.sagas = []
  requests : c.requests = []
  replies : c.replies = []

def ClusterState.boot (g : OwnerTermSnapshot) : ClusterState where
  nodes n := match localSnapshotFor g n with
    | .ok l => OwnerNode.restart
      ⟨(ClusterMetaStore.create.installOwnerSnapshot g l).1, .clusterNode n⟩
    | .error _ => ⟨.create, .clusterNode n⟩
  sagas := []
  requests := []
  replies := []

theorem ClusterState.boot_started {g : OwnerTermSnapshot} (hg : g.Valid)
    (hgen : g.coordinatorGeneration = trackACoordinatorGeneration) : (boot g).Started g := by
  refine ⟨fun n => ?_, rfl, rfl, rfl⟩
  obtain ⟨l, hl, hpair, -⟩ := hg.localSnapshotFor n
  refine ⟨.create, l, hl, ?_, by simp only [boot, hl]⟩
  have hback : ¬ ClusterMetaStore.create.movesEpochBack g := by
    rintro ⟨_, _, _, hget, -⟩
    cases hget
  simp [ClusterMetaStore.installOwnerSnapshot, validateOwnerSnapshotPair_eq_ok (u := ()) |>.2 hpair,
    hgen, ClusterMetaStore.create, ClusterMetaStore.replaceUnlessStale] at hback ⊢
  simp [hback]

end Sentinel.Cluster

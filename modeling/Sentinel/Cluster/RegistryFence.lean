import Sentinel.Cluster.OwnerRegistry
import Sentinel.Cluster.ClusterMeta
import Sentinel.Lib.Machine
import Sentinel.Lib.Sha2

/-! Runs of the owner registry (`sentinel-common`, module `fencing`): what its calls do to the
cached terms, base states and overlays, when a retired scope is fenced, and that the residency
of a scope agrees with the guards that can be issued for it. -/

namespace Sentinel.Cluster
open Lib

inductive LocalResidency where
  | active
  | preparedFrozen
  | absent

namespace OwnerRegistry

def singleNode (thisNode : NodeId) : OwnerRegistry :=
  ⟨thisNode, .singleNode, fun _ => none, fun _ => none, fun _ => none, true⟩

def commitOwner (r : OwnerRegistry) (term : OwnerTerm) : OwnerRegistry :=
  { r with
    terms := Function.update r.terms term.scope (some term)
    mode := .cluster }

def restoredOverlay (r : OwnerRegistry) (state : LocalOwnerState) : Option LocalOwnerSagaState :=
  state.role.sagaRole?.map fun role =>
    { scope := state.scope
      operationKind := .legacyReconciliation
      opId := none
      ownerTerm := (r.terms state.scope).getD ⟨state.scope, state.nodeId, state.epoch, 0⟩
      role
      transitionSeq := 0 }

def restoreLocalRetirement (r : OwnerRegistry) (state : LocalOwnerState) : OwnerRegistry :=
  match r.restoredOverlay state with
  | some overlay =>
    { r with sagaStates := Function.update r.sagaStates state.scope (some overlay) }
  | none => r

def restoreLocalRetirements (r : OwnerRegistry) (states : List LocalOwnerState) : OwnerRegistry :=
  states.foldl restoreLocalRetirement r

def checkWorldOwned (r : OwnerRegistry) : Except OwnerIssueError Unit := do
  let scope := StateTransferScope.world
  let term ← orError (r.terms scope) (.unknownScope scope)
  let base ← orError (r.baseStates scope) (.unknownScope scope)
  ensure (base.recipientNode = r.thisNode)
    (.recipientMismatch scope r.thisNode base.recipientNode)
  ensure (base.ownerTerm = term)
    (.termChanged scope base.ownerTerm.ownerNode base.ownerTerm.epoch
      base.ownerTerm.coordinatorGeneration term.ownerNode term.epoch term.coordinatorGeneration)
  ensure (term.ownerNode = r.thisNode) (.notOwner scope r.thisNode term.ownerNode)
  ensure (base.baseRole = .owner) (.roleNotOwner scope)
  ensure (base.activationState = .routable) (.notRoutable scope base.activationState)
  match r.sagaStates scope with
  | some overlay => .error (.sagaOverlay scope overlay.role)
  | none => .ok ()

def reopenOwnerReadinessAfterVerifiedLocalRecovery (r : OwnerRegistry) :
    Except OwnerIssueError OwnerRegistry := do
  if r.mode = .cluster then r.checkWorldOwned
  .ok { r with readiness := true }

def localResidency (r : OwnerRegistry) (scope : StateTransferScope) :
    Except OwnerIssueError LocalResidency :=
  if r.mode ≠ .cluster then .ok .active
  else do
    ensure (r.readiness = true) (.readinessClosed scope)
    -- an overlay may refine the residency of a scope, never make up an unknown one
    let term ← r.currentOwner scope
    match r.sagaStates scope with
    | some overlay => .ok (if overlay.role = .preparedTarget then .preparedFrozen else .absent)
    | none => do
      let base ← orError (r.baseStates scope) (.roleNotOwner scope)
      ensure (base.recipientNode = r.thisNode ∧ base.ownerTerm = term) (.roleNotOwner scope)
      match base.baseRole, base.activationState with
      | .owner, .routable => .ok .active
      | .follower, _ => .ok .absent
      | .owner, activation => .error (.notRoutable scope activation)

/-! ## Calls -/

inductive Call where
  | retireLocal (scope : StateTransferScope) (epoch : UInt64)
  | commitOwner (term : OwnerTerm)
  | restoreLocalRetirements (states : List LocalOwnerState)
  | rebuildFromOwnerSnapshot (global : OwnerTermSnapshot) (loc : LocalOwnerStateSnapshot)
      (sagaStates : List LocalOwnerSagaState)
  | closeOwnerReadiness
  | reopenOwnerReadiness

def step [Sha256] (r : OwnerRegistry) : Call → OwnerRegistry × Bool
  | .retireLocal scope epoch => (r.retireLocal scope epoch, true)
  | .commitOwner term => (r.commitOwner term, true)
  | .restoreLocalRetirements states => (r.restoreLocalRetirements states, true)
  | .rebuildFromOwnerSnapshot g l sagas => match r.rebuildFromOwnerSnapshot g l sagas with
    | .ok r' => (r', true)
    | .error _ => (r, false)
  | .closeOwnerReadiness => (r.closeOwnerReadiness, true)
  | .reopenOwnerReadiness => match r.reopenOwnerReadinessAfterVerifiedLocalRecovery with
    | .ok r' => (r', true)
    | .error _ => (r, false)

def machine [Sha256] : Machine OwnerRegistry Call Bool := ⟨step⟩

/-! ## The fence of a retired scope -/

def KeepsOverlay [Sha256] (scope : StateTransferScope) (r : OwnerRegistry) : Call → Prop
  | .rebuildFromOwnerSnapshot g l sagas =>
    (∃ r', r.rebuildFromOwnerSnapshot g l sagas = .ok r') → ∃ row ∈ sagas, row.scope = scope
  | _ => True

def Overlaid (scope : StateTransferScope) (r : OwnerRegistry) : Prop :=
  (r.sagaStates scope).isSome

variable {r r' : OwnerRegistry} {scope : StateTransferScope} {guard : OwnerWriteGuard}

theorem Overlaid.retireLocal (h : Overlaid scope r) (other : StateTransferScope) (epoch : UInt64) :
    Overlaid scope (r.retireLocal other epoch) := by
  unfold Overlaid OwnerRegistry.retireLocal
  by_cases heq : scope = other
  · subst heq
    simp
  · simpa [Overlaid, Function.update_of_ne heq] using h

theorem overlaid_retireLocal (r : OwnerRegistry) (scope : StateTransferScope) (epoch : UInt64) :
    Overlaid scope (r.retireLocal scope epoch) := by
  simp [Overlaid, OwnerRegistry.retireLocal]

theorem Overlaid.restoreLocalRetirements {states : List LocalOwnerState} (h : Overlaid scope r) :
    Overlaid scope (r.restoreLocalRetirements states) := by
  induction states generalizing r with
  | nil => exact h
  | cons state states ih =>
    apply ih
    unfold restoreLocalRetirement
    split
    · by_cases heq : scope = state.scope
      · subst heq
        simp [Overlaid]
      · simpa [Overlaid, Function.update_of_ne heq] using h
    · exact h

theorem collect_isSome {κ α : Type} [DecidableEq κ] {key : α → κ} {rows : List α} {k : κ}
    (h : ∃ row ∈ rows, key row = k) : (collect key rows k).isSome := by
  obtain ⟨row, hrow, rfl⟩ := h
  simp only [collect, List.find?_isSome, List.mem_reverse, decide_eq_true_eq]
  exact ⟨row, hrow, rfl⟩

theorem reopen_eq_ok (h : r.reopenOwnerReadinessAfterVerifiedLocalRecovery = .ok r') :
    r' = { r with readiness := true } := by
  unfold reopenOwnerReadinessAfterVerifiedLocalRecovery at h
  split_ifs at h
  · obtain ⟨_, -, h⟩ := bind_eq_ok.1 h
    exact (Except.ok.inj h).symm
  · exact (Except.ok.inj h).symm

theorem Overlaid.step [Sha256] (h : Overlaid scope r) (call : Call)
    (hkeep : KeepsOverlay scope r call) : Overlaid scope (r.step call).1 := by
  cases call with
  | retireLocal other epoch => exact h.retireLocal other epoch
  | commitOwner term => exact h
  | restoreLocalRetirements states => exact h.restoreLocalRetirements
  | closeOwnerReadiness => exact h
  | rebuildFromOwnerSnapshot g l sagas =>
    unfold OwnerRegistry.step
    dsimp only
    split
    · rename_i r' hr'
      obtain ⟨-, -, -, rfl⟩ := rebuildFromOwnerSnapshot_eq_ok hr'
      exact collect_isSome (hkeep ⟨_, hr'⟩)
    · exact h
  | reopenOwnerReadiness =>
    unfold OwnerRegistry.step
    dsimp only
    split
    · rename_i r' hr'
      obtain rfl := reopen_eq_ok hr'
      exact h
    · exact h

structure Passes (r : OwnerRegistry) (guard : OwnerWriteGuard) (term : OwnerTerm)
    (base : LocalOwnerBaseState) : Prop where
  ready : r.readiness = true
  term_eq : r.terms guard.scope = some term
  base_eq : r.baseStates guard.scope = some base
  guard_eq : guard.ownerNode = term.ownerNode ∧ guard.epoch = term.epoch ∧
    guard.coordinatorGeneration = term.coordinatorGeneration
  owner : term.ownerNode = r.thisNode
  generation : term.coordinatorGeneration = trackACoordinatorGeneration
  overlay : r.sagaStates guard.scope = none
  base_term : base.recipientNode = r.thisNode ∧ base.ownerTerm = term ∧ base.baseRole = .owner
  routable : base.activationState = .routable

theorem currentOwner_cluster (hmode : r.mode = .cluster) {term : OwnerTerm} :
    r.currentOwner scope = .ok term ↔ r.terms scope = some term := by
  unfold currentOwner
  rw [hmode]
  cases r.terms scope <;> simp

theorem validate_cluster_eq_ok (hmode : r.mode = .cluster) {u : Unit} :
    r.validate guard = .ok u ↔ ∃ term base, r.Passes guard term base := by
  simp only [validate, bind_eq_ok, ensure_eq_ok, exists_unit, hmode, reduceCtorEq, if_false,
    currentOwner_cluster hmode]
  constructor
  · rintro ⟨hready, term, hterm, hguard, howner, hgen, h⟩
    cases hsaga : r.sagaStates guard.scope with
    | some overlay => simp [hsaga] at h
    | none =>
      cases hbase : r.baseStates guard.scope with
      | none => simp [hsaga, hbase] at h
      | some base =>
        simp only [hsaga, hbase, bind_eq_ok, ensure_eq_ok, exists_unit] at h
        exact ⟨term, base, hready, hterm, hbase, hguard, howner, hgen, hsaga, h.1, h.2⟩
  · rintro ⟨term, base, h⟩
    refine ⟨h.ready, term, h.term_eq, h.guard_eq, h.owner, h.generation, ?_⟩
    simp only [h.overlay, h.base_eq, bind_eq_ok, ensure_eq_ok, exists_unit]
    exact ⟨h.base_term, h.routable⟩

theorem validate_singleNode_eq_ok (hmode : r.mode = .singleNode) {u : Unit} :
    r.validate guard = .ok u ↔ r.readiness = true ∧ guard.ownerNode = r.thisNode ∧
      guard.epoch = singleNodeEpoch ∧ guard.coordinatorGeneration = 0 := by
  simp [validate, bind_eq_ok, currentOwner, hmode, seedTerm]

theorem Overlaid.fenced_iff (h : Overlaid scope r) :
    (∀ guard : OwnerWriteGuard, guard.scope = scope → ∃ e, r.validate guard = .error e) ↔
      r.mode = .cluster ∨ r.readiness = false := by
  have hfails : ∀ guard, (∃ e, r.validate guard = .error e) ↔ r.validate guard ≠ .ok () := by
    intro guard
    cases r.validate guard <;> simp
  simp only [hfails]
  constructor
  · intro hall
    by_contra hnot
    rw [not_or, Bool.not_eq_false] at hnot
    have hmode : r.mode = .singleNode := by
      cases hm : r.mode with
      | singleNode => rfl
      | cluster => exact absurd hm hnot.1
    -- the guard of the synthesized seed term passes without a look at the overlays
    exact hall ⟨scope, r.thisNode, singleNodeEpoch, 0⟩ rfl
      ((validate_singleNode_eq_ok hmode).2 ⟨hnot.2, rfl, rfl, rfl⟩)
  · rintro hcond guard rfl hok
    cases hm : r.mode with
    | singleNode =>
      obtain ⟨hready, -⟩ := (validate_singleNode_eq_ok hm).1 hok
      simp [hm, hready] at hcond
    | cluster =>
      obtain ⟨term, base, hpass⟩ := (validate_cluster_eq_ok hm).1 hok
      simp [Overlaid, hpass.overlay] at h

/-- **When a retired scope is fenced.** After a retirement and any calls whose rebuilds keep an
overlay of the scope, every guard of the scope fails exactly when the registry has entered
cluster mode or its readiness latch is closed. -/
theorem retired_scope_fenced_iff [Sha256] (r : OwnerRegistry) (scope : StateTransferScope)
    (epoch : UInt64) (calls : List Call)
    (hcalls : machine.Meets (KeepsOverlay scope) (r.retireLocal scope epoch) calls) :
    (∀ guard : OwnerWriteGuard, guard.scope = scope →
      ∃ e, (machine.final (r.retireLocal scope epoch) calls).validate guard = .error e) ↔
      (machine.final (r.retireLocal scope epoch) calls).mode = .cluster ∨
        (machine.final (r.retireLocal scope epoch) calls).readiness = false := by
  apply Overlaid.fenced_iff
  exact machine.final_invariant (I := Overlaid scope) (fun s a hs ha => hs.step a ha)
    (overlaid_retireLocal r scope epoch) hcalls

def worldTerm (node : NodeId) : OwnerTerm :=
  ⟨.world, node, 1, trackACoordinatorGeneration⟩

theorem committed_world_fenced :
    let _ := Sha2.instSha256
    let retired := (singleNode (nodeOf 1)).retireLocal .world 1
    ∀ guard : OwnerWriteGuard, guard.scope = .world →
      ∃ e, (machine.final retired [.commitOwner (worldTerm (nodeOf 1))]).validate guard =
        .error e := by
  intro _ retired
  exact (retired_scope_fenced_iff (singleNode (nodeOf 1)) .world 1
    [.commitOwner (worldTerm (nodeOf 1))] ⟨trivial, trivial⟩).2 (.inl rfl)

/-- A single-node registry still issues and accepts guards of the scope it has just retired. -/
theorem singleNode_retired_world_validates :
    let retired := (singleNode (nodeOf 1)).retireLocal .world 1
    retired.issue .world = .ok ⟨.world, nodeOf 1, 1, 0⟩ ∧
      retired.validate ⟨.world, nodeOf 1, 1, 0⟩ = .ok () := by
  intro retired
  have hvalid : retired.validate ⟨.world, nodeOf 1, 1, 0⟩ = .ok () :=
    (validate_singleNode_eq_ok rfl).2 ⟨rfl, rfl, rfl, rfl⟩
  refine ⟨?_, hvalid⟩
  exact toOption_eq_some.1 (by decide +kernel)

/-! ## Residency and authority -/

structure Consistent (r : OwnerRegistry) : Prop where
  term_scope : ∀ scope term, r.terms scope = some term → term.scope = scope
  owner_base : ∀ scope base, r.baseStates scope = some base → base.baseRole = .owner →
    base.ownerTerm.ownerNode = r.thisNode ∧
      base.ownerTerm.coordinatorGeneration = trackACoordinatorGeneration

theorem Consistent.congr (h : Consistent r) (hnode : r'.thisNode = r.thisNode)
    (hterms : r'.terms = r.terms) (hbase : r'.baseStates = r.baseStates) : Consistent r' := by
  refine ⟨?_, ?_⟩
  · rw [hterms]
    exact h.term_scope
  · rw [hbase, hnode]
    exact h.owner_base

theorem Consistent.commitOwner (h : Consistent r) (term : OwnerTerm) :
    Consistent (r.commitOwner term) := by
  refine ⟨fun scope t ht => ?_, h.owner_base⟩
  by_cases heq : scope = term.scope
  · subst heq
    have ht : term = t := by simpa [OwnerRegistry.commitOwner] using ht
    rw [ht]
  · apply h.term_scope scope t
    simpa [OwnerRegistry.commitOwner, Function.update_of_ne heq] using ht

theorem restoreLocalRetirements_eq (r : OwnerRegistry) (states : List LocalOwnerState) :
    ∃ sagas, r.restoreLocalRetirements states = { r with sagaStates := sagas } := by
  induction states generalizing r with
  | nil => exact ⟨r.sagaStates, rfl⟩
  | cons state states ih =>
    obtain ⟨sagas, hsagas⟩ := ih (r.restoreLocalRetirement state)
    refine ⟨sagas, hsagas.trans ?_⟩
    unfold restoreLocalRetirement
    split <;> rfl

theorem Consistent.rebuild [Sha256] {g : OwnerTermSnapshot} {l : LocalOwnerStateSnapshot}
    {sagas : List LocalOwnerSagaState} (h : r.rebuildFromOwnerSnapshot g l sagas = .ok r') :
    Consistent r' := by
  obtain ⟨hpair, hnode, hgen, rfl⟩ := rebuildFromOwnerSnapshot_eq_ok h
  refine ⟨fun scope term hterm => ?_, fun scope base hbase howner => ?_⟩
  · exact ((collect_eq_some_iff hpair.globalValid.sorted.nodup).1 hterm).2
  · obtain ⟨hmem, -⟩ := (collect_eq_some_iff hpair.localValid.sorted.nodup).1 hbase
    obtain ⟨-, hrole, -, -⟩ := hpair.rows base hmem
    obtain ⟨-, -, hrow⟩ := hpair.localValid.rows base hmem
    exact ⟨(hrole.2 howner).trans hnode, hrow.trans (hpair.generation.symm.trans hgen)⟩

theorem Consistent.step [Sha256] (h : Consistent r) (call : Call) : Consistent (r.step call).1 := by
  cases call with
  | retireLocal scope epoch => exact h.congr rfl rfl rfl
  | commitOwner term => exact h.commitOwner term
  | restoreLocalRetirements states =>
    obtain ⟨sagas, hsagas⟩ := restoreLocalRetirements_eq r states
    rw [OwnerRegistry.step, hsagas]
    exact h.congr rfl rfl rfl
  | closeOwnerReadiness => exact h.congr rfl rfl rfl
  | rebuildFromOwnerSnapshot g l sagas =>
    unfold OwnerRegistry.step
    dsimp only
    split
    · rename_i r' hr'
      exact Consistent.rebuild hr'
    · exact h
  | reopenOwnerReadiness =>
    unfold OwnerRegistry.step
    dsimp only
    split
    · rename_i r' hr'
      obtain rfl := reopen_eq_ok hr'
      exact h.congr rfl rfl rfl
    · exact h

theorem issue_cluster_isOk (hmode : r.mode = .cluster) :
    (∃ guard, r.issue scope = .ok guard) ↔ ∃ term base, r.Passes
      ⟨scope, term.ownerNode, term.epoch, term.coordinatorGeneration⟩ term base := by
  simp only [issue, bind_eq_ok, ensure_eq_ok, exists_unit, currentOwner_cluster hmode,
    validate_cluster_eq_ok hmode]
  constructor
  · rintro ⟨guard, -, term, hterm, ⟨term', base, h⟩, -⟩
    obtain rfl : term = term' := Option.some.inj (hterm.symm.trans h.term_eq)
    exact ⟨term, base, h⟩
  · rintro ⟨term, base, h⟩
    exact ⟨_, h.ready, term, h.term_eq, ⟨term, base, h⟩, rfl⟩

theorem localResidency_eq_active (hmode : r.mode = .cluster) :
    r.localResidency scope = .ok .active ↔ r.readiness = true ∧ r.sagaStates scope = none ∧
      ∃ term base, r.terms scope = some term ∧ r.baseStates scope = some base ∧
        base.recipientNode = r.thisNode ∧ base.ownerTerm = term ∧ base.baseRole = .owner ∧
        base.activationState = .routable := by
  simp only [localResidency, hmode, ne_eq, not_true_eq_false, if_false, bind_eq_ok, ensure_eq_ok,
    exists_unit, currentOwner_cluster hmode]
  constructor
  · rintro ⟨hready, term, hterm, h⟩
    cases hsaga : r.sagaStates scope with
    | some overlay =>
      -- an overlay gives one of the two frozen residencies
      rw [hsaga] at h
      dsimp only at h
      split_ifs at h <;> simp at h
    | none =>
      simp only [hsaga, bind_eq_ok, orError_eq_ok, ensure_eq_ok, exists_unit] at h
      obtain ⟨base, hbase, hmatch, h⟩ := h
      refine ⟨hready, rfl, term, base, hterm, hbase, hmatch.1, hmatch.2, ?_⟩
      revert h
      cases base.baseRole <;> cases base.activationState <;> simp
  · rintro ⟨hready, hsaga, term, base, hterm, hbase, hrec, heq, hrole, hact⟩
    refine ⟨hready, term, hterm, ?_⟩
    simp only [hsaga, bind_eq_ok, orError_eq_ok, ensure_eq_ok, exists_unit]
    refine ⟨base, hbase, ⟨hrec, heq⟩, ?_⟩
    rw [hrole, hact]

theorem Consistent.active_iff (h : Consistent r) (hmode : r.mode = .cluster)
    (scope : StateTransferScope) :
    r.localResidency scope = .ok .active ↔ ∃ guard, r.issue scope = .ok guard := by
  rw [localResidency_eq_active hmode, issue_cluster_isOk hmode]
  constructor
  · rintro ⟨hready, hsaga, term, base, hterm, hbase, hrec, heq, hrole, hact⟩
    obtain ⟨howner, hgen⟩ := h.owner_base scope base hbase hrole
    rw [heq] at howner hgen
    exact ⟨term, base, hready, hterm, hbase, ⟨rfl, rfl, rfl⟩, howner, hgen, hsaga,
      ⟨hrec, heq, hrole⟩, hact⟩
  · rintro ⟨term, base, hp⟩
    obtain ⟨hrec, heq, hrole⟩ := hp.base_term
    exact ⟨hp.ready, hp.overlay, term, base, hp.term_eq, hp.base_eq, hrec, heq, hrole, hp.routable⟩

theorem Consistent.guard_term (h : Consistent r) (hmode : r.mode = .cluster)
    (hok : r.validate guard = .ok ()) :
    r.terms guard.scope = some
        ⟨guard.scope, guard.ownerNode, guard.epoch, guard.coordinatorGeneration⟩ ∧
      guard.ownerNode = r.thisNode := by
  obtain ⟨term, base, hp⟩ := (validate_cluster_eq_ok hmode).1 hok
  obtain ⟨hnode, hepoch, hgen⟩ := hp.guard_eq
  refine ⟨?_, hnode.trans hp.owner⟩
  rw [hp.term_eq, hnode, hepoch, hgen, ← h.term_scope _ _ hp.term_eq]

/-- **Residency agrees with authority.** In every cluster-mode state the calls reach, a scope is
active exactly when a guard can be issued for it, and a guard that validates is the installed
term of its scope with this node as the owner. -/
theorem residency_agrees_with_authority [Sha256] (start : OwnerRegistry) (node : NodeId)
    (hstart : start = singleNode node ∨ start = clusterNode node) (calls : List Call)
    (hmode : (machine.final start calls).mode = .cluster) :
    (∀ scope, (machine.final start calls).localResidency scope = .ok .active ↔
      ∃ guard, (machine.final start calls).issue scope = .ok guard) ∧
    ∀ guard, (machine.final start calls).validate guard = .ok () →
      (machine.final start calls).terms guard.scope = some
        ⟨guard.scope, guard.ownerNode, guard.epoch, guard.coordinatorGeneration⟩ ∧
      guard.ownerNode = (machine.final start calls).thisNode := by
  have hinit : Consistent start := by
    rcases hstart with rfl | rfl
    · exact ⟨by simp [singleNode], by simp [singleNode]⟩
    · exact ⟨by simp [clusterNode], by simp [clusterNode]⟩
  have h : Consistent (machine.final start calls) :=
    machine.final_invariant' (I := Consistent) (fun s a hs => hs.step a) hinit calls
  exact ⟨h.active_iff hmode, fun guard hok => h.guard_term hmode hok⟩

def worldGlobal : OwnerTermSnapshot := globalLiteral 1 [worldTerm (nodeOf 1)]
  0x672d78eb0910f470e69c3da918c8a3d03b87aa33a7a21f9dad968fdc369ac36b

def worldLocal : LocalOwnerStateSnapshot := localLiteral (nodeOf 1) 1 [worldTerm (nodeOf 1)]
  0x1fd4455e9a5d8bd1a0913653642dba91c019a9a0d75214e1c2c0c1e2753b0a40

def worldRegistry : OwnerRegistry :=
  let _ := sha256OfSnapshots [worldGlobal] [worldLocal]
  machine.final (clusterNode (nodeOf 1)) [.rebuildFromOwnerSnapshot worldGlobal worldLocal []]

theorem worldRegistry_active :
    worldRegistry.mode = .cluster ∧ (∃ guard, worldRegistry.issue .world = .ok guard) ∧
      worldRegistry.localResidency .world = .ok .active := by
  let _ := sha256OfSnapshots [worldGlobal] [worldLocal]
  have hmode : worldRegistry.mode = .cluster := by decide +kernel
  have hissue : ∃ guard, worldRegistry.issue .world = .ok guard :=
    ⟨⟨.world, nodeOf 1, 1, 1⟩, toOption_eq_some.1 (by decide +kernel)⟩
  have h := (residency_agrees_with_authority (clusterNode (nodeOf 1)) (nodeOf 1) (.inr rfl)
    [.rebuildFromOwnerSnapshot worldGlobal worldLocal []] hmode).1 .world
  exact ⟨hmode, hissue, h.2 hissue⟩

end OwnerRegistry
end Sentinel.Cluster

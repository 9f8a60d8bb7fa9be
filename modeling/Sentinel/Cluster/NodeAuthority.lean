import Sentinel.Cluster.OwnerHandler

/-! What the steps of one node do to the authority it holds: the installed snapshot, the
epochs of its overlays, and the registry that is opened on top of them. -/

namespace Sentinel.Cluster
open Lib ClusterMetaStore StateTransferScope

def ClusterMetaStore.overlayEpoch (store : ClusterMetaStore) (k : StateTransferScope) :
    Option ℕ :=
  match store.localOwnerSaga.get (scopeKey k) with
  | some o => if o.scope = k then some o.ownerTerm.epoch.toNat else none
  | none => none

def ClusterMetaStore.Clean (store : ClusterMetaStore) : Prop :=
  ∀ marker ∈ store.installMarker, marker.status = .installed

variable [Sha256]

namespace ClusterMetaStore
variable {store store' : ClusterMetaStore} {g g' : OwnerTermSnapshot}
  {l l' : LocalOwnerStateSnapshot}

theorem Holds.unique (h : store.Holds g l) (h' : store.Holds g' l') : g = g' ∧ l = l' := by
  obtain ⟨m, hm, hd⟩ := h.marker
  obtain ⟨m', hm', hd'⟩ := h'.marker
  obtain rfl := Option.some.inj (hm.symm.trans hm')
  exact ⟨(h.storedGlobal hd).symm.trans (h'.storedGlobal hd'),
    (h.storedLocal hd).symm.trans (h'.storedLocal hd')⟩

theorem Holds.of_installed (h : store.Holds g l)
    (hread : store.installedOwnerSnapshot = .ok (some (g', l'))) : g' = g ∧ l' = l := by
  obtain ⟨m, hm, -⟩ := h.marker
  rw [h.installedOwnerSnapshot hm] at hread
  split_ifs at hread
  cases hread
  exact ⟨rfl, rfl⟩

omit [Sha256] in
def KeepsEpochs (g g' : OwnerTermSnapshot) : Prop :=
  ∀ k t t', g.find k = some t → g'.find k = some t' → t.epoch ≤ t'.epoch

theorem Holds.keepsEpochs_iff (h : store.Holds g l) (hvalid : g'.Valid)
    (hgen : g'.coordinatorGeneration = trackACoordinatorGeneration) :
    KeepsEpochs g g' ↔ ¬ store.movesEpochBack g' := by
  constructor
  · rintro hkeeps ⟨t', ht', t, hget, -, hlt⟩
    rw [h.get] at hget
    exact UInt64.not_lt.2 (hkeeps _ t t' hget (hvalid.find_eq_some.2 ⟨ht', rfl⟩)) hlt
  · intro hback k t t' ht ht'
    obtain ⟨hmem, hscope⟩ := h.pair.globalValid.find_eq_some.1 ht
    obtain ⟨hmem', hscope'⟩ := hvalid.find_eq_some.1 ht'
    refine UInt64.not_lt.1 fun hlt => hback ⟨t', hmem', t, ?_, ?_, hlt⟩
    · rw [hscope', h.get, ht]
    · rw [h.pair.globalValid.generations t hmem, h.generation, hgen]

theorem Holds.install (h : store.Holds g l) (g' : OwnerTermSnapshot)
    (l' : LocalOwnerStateSnapshot) :
    (store.installOwnerSnapshot g' l').2 = .ok .installed ∧
        (store.installOwnerSnapshot g' l').1.Holds g' l' ∧
        g.termSnapshotRevision < g'.termSnapshotRevision ∧ KeepsEpochs g g' ∧
        l'.recipientNode = l.recipientNode ∨
      (store.installOwnerSnapshot g' l').2 ≠ .ok .installed ∧
        (store.installOwnerSnapshot g' l').1.Holds g l ∧
        ((store.installOwnerSnapshot g' l').2 = .ok .alreadyInstalled →
          g.termSnapshotRevision = g'.termSnapshotRevision ∧ g.checksum = g'.checksum ∧
            l'.recipientNode = l.recipientNode) := by
  obtain ⟨m, hm, hd⟩ := h.marker
  have hgen : m.coordinatorGeneration ≠ 0 := by
    rw [hd.generation, h.generation]
    decide
  have hresult := store.installOwnerSnapshot_result g' l'
  generalize store.installOwnerSnapshot g' l' = r at hresult
  cases hresult with
  | failed => exact .inr ⟨by simp, h, by simp⟩
  | generationMismatch => exact .inr ⟨by simp, h, by simp⟩
  | stale => exact .inr ⟨by simp, h, by simp⟩
  | stillInConflict => exact .inr ⟨by simp, h, by simp⟩
  | already marker hmarker _ hrecipient hrevision hchecksum =>
    obtain rfl := Option.some.inj (hm.symm.trans hmarker)
    exact .inr ⟨by simp, h, fun _ => ⟨hd.revision.symm.trans hrevision,
      hd.global.symm.trans hchecksum, hrecipient.symm.trans hd.recipient⟩⟩
  | conflict marker hother => exact .inr ⟨by simp, h.conflictMarker hother.installed, by simp⟩
  | installed hpair hg hmarker hback =>
    obtain ⟨-, -, hrecipient, hlt⟩ := hmarker m hm hgen
    exact .inl ⟨rfl, holds_replaceSnapshot hpair hg, hd.revision ▸ hlt,
      (h.keepsEpochs_iff hpair.globalValid hg).2 hback, hrecipient.symm.trans hd.recipient⟩

theorem overlayEpoch_install (store : ClusterMetaStore) (g : OwnerTermSnapshot)
    (l : LocalOwnerStateSnapshot) (k : StateTransferScope) :
    (store.installOwnerSnapshot g l).1.overlayEpoch k = store.overlayEpoch k := by
  simp only [overlayEpoch, saga_of_install]

theorem Holds.openStore (h : store.Holds g l) : store.openStore = store := by
  obtain ⟨m, hm, hd⟩ := h.marker
  have hgen : m.coordinatorGeneration ≠ 0 := by
    rw [hd.generation, h.generation]
    decide
  simp [ClusterMetaStore.openStore, hm, hgen]

omit [Sha256] in
theorem overlayEpoch_putLocalSagaState (store : ClusterMetaStore) (state : LocalOwnerSagaState)
    (k : StateTransferScope) : (store.putLocalSagaState state).overlayEpoch k =
      if k = state.scope then some state.ownerTerm.epoch.toNat else store.overlayEpoch k := by
  have hkey : scopeKey k = scopeKey state.scope ↔ k = state.scope :=
    toWire_injective.eq_iff
  simp only [overlayEpoch, putLocalSagaState, Table.get_insert, hkey]
  split_ifs with h
  · simp [h]
  · rfl

omit [Sha256] in
theorem overlayEpoch_erase (store : ClusterMetaStore) (s k : StateTransferScope) (hk : k ≠ s) :
    ({ store with localOwnerSaga := store.localOwnerSaga.erase (scopeKey s) } :
      ClusterMetaStore).overlayEpoch k = store.overlayEpoch k := by
  have hkey : scopeKey k ≠ scopeKey s := fun h => hk (toWire_injective h)
  simp only [overlayEpoch, Table.get_erase, if_neg hkey]

omit [Sha256] in
theorem overlayEpoch_putLocalState {state : LocalOwnerState}
    (h : store.putLocalState state = .ok store') (k : StateTransferScope) :
    store'.overlayEpoch k = if k = state.scope then some state.epoch.toNat
      else store.overlayEpoch k := by
  obtain ⟨role, -, h⟩ := putLocalState_eq_ok h
  rcases putHandoffSagaStateCas_eq_ok h with ⟨rfl, hget⟩ | rfl
  · split_ifs with hk
    · subst hk
      simp only [overlayEpoch]
      rw [show scopeKey state.scope = scopeKey (overlayOf state role).scope from rfl, hget]
      simp [overlayOf]
    · rfl
  · exact overlayEpoch_putLocalSagaState store (overlayOf state role) k

end ClusterMetaStore

/-! ## A node in step with its store -/

namespace OwnerNode

structure Synced (node : OwnerNode) (g : OwnerTermSnapshot) : Prop where
  mode : node.registry.mode = .cluster
  terms : node.registry.readiness = true → ∀ k, node.registry.terms k = g.find k
  overlays : node.registry.readiness = true → ∀ k, (node.store.overlayEpoch k).isSome →
    node.registry.sagaStates k ≠ none

structure HoldsAt (node : OwnerNode) (n : NodeId) (g : OwnerTermSnapshot) : Prop where
  self : node.registry.thisNode = n
  holds : ∃ l, localSnapshotFor g n = .ok l ∧ node.store.Holds g l
  synced : node.Synced g

variable {node node' : OwnerNode} {n : NodeId} {g g' : OwnerTermSnapshot}

omit [Sha256] in
theorem synced_of_closed (hmode : node.registry.mode = .cluster)
    (hclosed : node.registry.readiness = false) : node.Synced g :=
  ⟨hmode, by simp [hclosed], by simp [hclosed]⟩

omit [Sha256] in
theorem mem_listLocalSagaStates {store : ClusterMetaStore} {k : StateTransferScope}
    (h : (store.overlayEpoch k).isSome) : ∃ o ∈ store.listLocalSagaStates, o.scope = k := by
  unfold ClusterMetaStore.overlayEpoch at h
  split at h
  · rename_i o ho
    split_ifs at h with hk
    · exact ⟨o, mem_sortByWire.2 (Table.mem_values_iff.2 ⟨_, ho⟩), hk⟩
    · simp at h
  · simp at h

variable {l l' : LocalOwnerStateSnapshot} {store' : ClusterMetaStore} {epoch : UInt64} {w : String}
  {r : OwnerRegistry} {term : OwnerTerm}

theorem synced_rebuild {store : ClusterMetaStore} {r' : OwnerRegistry}
    (h : r.rebuildFromOwnerSnapshot g l store.listLocalSagaStates = .ok r') :
    Synced ⟨store, r'⟩ g ∧ r'.thisNode = r.thisNode := by
  obtain ⟨hpair, -, -, rfl⟩ := OwnerRegistry.rebuildFromOwnerSnapshot_eq_ok h
  refine ⟨⟨rfl, fun _ k => hpair.globalValid.collect_eq_find k, fun _ k hk hnone => ?_⟩, rfl⟩
  obtain ⟨o, ho, hscope⟩ := mem_listLocalSagaStates hk
  have := List.find?_eq_none.1 hnone o (List.mem_reverse.2 ho)
  simp [hscope] at this

theorem synced_rebuildFromStore (hholds : node.store.Holds g l)
    (h : node.rebuildFromStore = .ok r) :
    Synced ⟨node.store, r⟩ g ∧ r.thisNode = node.registry.thisNode := by
  unfold rebuildFromStore at h
  split at h
  · cases h
  · cases h
  · rename_i g' l' hread
    obtain ⟨rfl, rfl⟩ := hholds.of_installed hread
    split at h
    · cases h
    · rename_i r' hr
      cases h
      exact synced_rebuild hr

theorem HoldsAt.restart (h : node.HoldsAt n g) :
    node.restart.HoldsAt n g ∧ node.restart.store = node.store := by
  obtain ⟨l, hl, hholds⟩ := h.holds
  unfold OwnerNode.restart
  simp only [hholds.openStore]
  split
  · rename_i r hr
    have hstore : OwnerNode.store ⟨node.store, .clusterNode node.registry.thisNode⟩ = node.store :=
      rfl
    rw [← hstore] at hholds
    obtain ⟨hsynced, hself⟩ := synced_rebuildFromStore hholds hr
    exact ⟨⟨hself.trans h.self, ⟨l, hl, hholds⟩, hsynced⟩, rfl⟩
  · exact ⟨⟨h.self, ⟨l, hl, hholds⟩, synced_of_closed rfl rfl⟩, rfl⟩

theorem holds_of_installed {store : ClusterMetaStore}
    (hinstalled : (store.installOwnerSnapshot g l).2 = .ok .installed) :
    (store.installOwnerSnapshot g l).1.Holds g l ∧ (store.installOwnerSnapshot g l).1.Clean := by
  have hresult := store.installOwnerSnapshot_result g l
  generalize store.installOwnerSnapshot g l = r at hresult hinstalled
  cases hresult with
  | installed hpair hgen =>
    refine ⟨holds_replaceSnapshot hpair hgen, fun marker hmarker => ?_⟩
    cases hmarker
    rfl
  | _ => cases hinstalled

theorem holdsAt_of_installed {store : ClusterMetaStore} (hl : localSnapshotFor g n = .ok l)
    (hinstalled : (store.installOwnerSnapshot g l).2 = .ok .installed) :
    (restart ⟨(store.installOwnerSnapshot g l).1, .clusterNode n⟩).HoldsAt n g :=
  (HoldsAt.restart ⟨rfl, ⟨l, hl, (holds_of_installed hinstalled).1⟩,
    synced_of_closed rfl rfl⟩).1

/-! ## `PrepareHandoff` -/

omit [Sha256] in
theorem synced_retireLocal {scope : StateTransferScope} (h : node.Synced g)
    (hoverlay : ∀ k, k ≠ scope → store'.overlayEpoch k = node.store.overlayEpoch k) :
    Synced ⟨store', node.registry.retireLocal scope epoch⟩ g := by
  refine ⟨h.mode, h.terms, fun hready k hk => ?_⟩
  by_cases hks : k = scope
  · subst hks
    simp [OwnerRegistry.retireLocal]
  · rw [hoverlay k hks] at hk
    simpa [OwnerRegistry.retireLocal, Function.update_of_ne hks] using h.overlays hready k hk

theorem persistSourceRetirement_eq_ok {store : ClusterMetaStore} {state : LocalOwnerState}
    (hholds : store.Holds g l) (h : persistSourceRetirement store n w epoch = .ok (store', state)) :
    ∃ t, fromWire w = some state.scope ∧ g.find state.scope = some t ∧
      t.epoch = epoch ∧ t.ownerNode = n ∧ state.epoch = epoch ∧
      store.putLocalState state = .ok store' := by
  unfold persistSourceRetirement at h
  split at h
  · cases h
  · cases h
  · cases h
  · rename_i scope g' l' hscope hread
    obtain ⟨rfl, rfl⟩ := hholds.of_installed hread
    split at h
    · cases h
    · cases h
    · rename_i t r hterm _
      simp only [bind_eq_ok, ensure_eq_ok] at h
      obtain ⟨_, -, _, hepoch, _, howner, _, -, h⟩ := h
      split at h
      · cases h
      · rename_i store'' hput
        cases h
        exact ⟨t, hscope, hterm, hepoch, howner, rfl, hput⟩

theorem HoldsAt.prepareHandoff (h : node.HoldsAt n g)
    (hprep : node.prepareHandoff w epoch = .ok node') :
    ∃ scope t, fromWire w = some scope ∧ g.find scope = some t ∧
      t.epoch = epoch ∧ t.ownerNode = n ∧ node'.HoldsAt n g ∧
      ∀ k, node'.store.overlayEpoch k =
        if k = scope then some epoch.toNat else node.store.overlayEpoch k := by
  obtain ⟨l, hl, hholds⟩ := h.holds
  obtain ⟨⟨store', state⟩, hpersist, hnode⟩ := bind_eq_ok.1 hprep
  cases hnode
  rw [h.self] at hpersist
  obtain ⟨t, hscope, hterm, hepoch, howner, hstate, hput⟩ :=
    persistSourceRetirement_eq_ok hholds hpersist
  have hoverlay := overlayEpoch_putLocalState hput
  rw [hstate] at hoverlay
  refine ⟨state.scope, t, hscope, hterm, hepoch, howner, ⟨h.self, ⟨l, hl, ?_⟩, ?_⟩, hoverlay⟩
  · exact hholds.of_sameAuthority (putLocalState_sameAuthority hput)
  · exact synced_retireLocal h.synced fun k hk => by simp [hoverlay, hk]

/-! ## `OwnerCommit` -/

omit [Sha256] in
theorem overlayEpoch_completeHandoffOverlay {store : ClusterMetaStore}
    (h : store.completeHandoffOverlay term = .ok store') (k : StateTransferScope) :
    store'.overlayEpoch k = store.overlayEpoch k ∨
      k = term.scope ∧ store'.overlayEpoch k = none := by
  rcases completeHandoffOverlay_eq_ok h with ⟨rfl, -⟩ | rfl
  · exact .inl rfl
  · by_cases hk : k = term.scope
    · refine .inr ⟨hk, ?_⟩
      simp [ClusterMetaStore.overlayEpoch, Table.get_erase, hk]
    · exact .inl (overlayEpoch_erase store term.scope k hk)

omit [Sha256] in
theorem synced_completeHandoffOverlay (h : node.Synced g)
    (hstore : node.store.completeHandoffOverlay term = .ok store') :
    Synced { node with store := store' } g := by
  refine ⟨h.mode, h.terms, fun hready k hk => h.overlays hready k ?_⟩
  rcases overlayEpoch_completeHandoffOverlay hstore k with heq | ⟨-, hnone⟩
  · rwa [← heq]
  · simp [hnone] at hk

theorem HoldsAt.completeHandoffOverlay (h : node.HoldsAt n g)
    (hstore : node.store.completeHandoffOverlay term = .ok store') :
    ({ node with store := store' } : OwnerNode).HoldsAt n g := by
  obtain ⟨l, hl, hholds⟩ := h.holds
  exact ⟨h.self, ⟨l, hl, hholds.of_sameAuthority (completeHandoffOverlay_sameAuthority hstore)⟩,
    synced_completeHandoffOverlay h.synced hstore⟩

theorem HoldsAt.rebuild (h : node.HoldsAt n g) (hr : node.rebuildFromStore = .ok r) :
    ({ node with registry := r } : OwnerNode).HoldsAt n g := by
  obtain ⟨l, hl, hholds⟩ := h.holds
  obtain ⟨hsynced, hself⟩ := synced_rebuildFromStore hholds hr
  exact ⟨hself.trans h.self, ⟨l, hl, hholds⟩, hsynced⟩

theorem HoldsAt.close (h : node.HoldsAt n g) :
    ({ node with registry := node.registry.closeOwnerReadiness } : OwnerNode).HoldsAt n g :=
  ⟨h.self, h.holds, synced_of_closed h.synced.mode rfl⟩

theorem persistCommit_eq_ok {store : ClusterMetaStore} {owner : NodeId} (hholds : store.Holds g l)
    (h : persistCommit store w owner epoch = .ok store') :
    ∃ scope, fromWire w = some scope ∧
      g.find scope = some ⟨scope, owner, epoch, trackACoordinatorGeneration⟩ ∧
      store.completeHandoffOverlay ⟨scope, owner, epoch, trackACoordinatorGeneration⟩ =
        .ok store' := by
  unfold persistCommit at h
  split at h
  · cases h
  · cases h
  · cases h
  · rename_i scope g' l' hscope hread
    obtain ⟨rfl, rfl⟩ := hholds.of_installed hread
    dsimp only at h
    split at h
    · cases h
    · cases h
    · rename_i t r hterm _
      simp only [bind_eq_ok, ensure_eq_ok] at h
      obtain ⟨_, ⟨rfl, -⟩, h⟩ := h
      split at h
      · cases h
      · rename_i store'' hcomplete
        cases h
        exact ⟨scope, hscope, hterm, hcomplete⟩

theorem HoldsAt.ownerCommit (h : node.HoldsAt n g) (w : String) (owner : NodeId)
    (epoch : UInt64) :
    (node.ownerCommit w owner epoch).1.HoldsAt n g ∧
      ∀ k, (node.ownerCommit w owner epoch).1.store.overlayEpoch k = node.store.overlayEpoch k ∨
        fromWire w = some k ∧
          g.find k = some ⟨k, owner, epoch, trackACoordinatorGeneration⟩ := by
  unfold OwnerNode.ownerCommit
  split
  · exact ⟨h, fun k => .inl rfl⟩
  · rename_i store' hpersist
    obtain ⟨l, hl, hholds⟩ := h.holds
    obtain ⟨scope, hscope, hterm, hcomplete⟩ := persistCommit_eq_ok hholds hpersist
    have hat := h.completeHandoffOverlay hcomplete
    have hoverlay : ∀ k, store'.overlayEpoch k = node.store.overlayEpoch k ∨
        fromWire w = some k ∧
          g.find k = some ⟨k, owner, epoch, trackACoordinatorGeneration⟩ := by
      intro k
      rcases overlayEpoch_completeHandoffOverlay hcomplete k with heq | ⟨rfl, -⟩
      · exact .inl heq
      · exact .inr ⟨hscope, hterm⟩
    dsimp only
    split
    · rename_i r hr
      exact ⟨hat.rebuild hr, hoverlay⟩
    · exact ⟨hat, hoverlay⟩
    · exact ⟨hat, hoverlay⟩
    · exact ⟨hat.close, hoverlay⟩

theorem HoldsAt.commitLocally (h : node.HoldsAt n g) (term : OwnerTerm) :
    (node.commitLocally term).1.HoldsAt n g := by
  unfold OwnerNode.commitLocally
  split
  · exact h
  · rename_i store' hcomplete
    have hat := h.completeHandoffOverlay hcomplete
    dsimp only
    split
    · rename_i r hr
      exact hat.rebuild hr
    · exact hat

/-! ## Installs -/

theorem HoldsAt.installClosed (h : node.HoldsAt n g)
    (hl' : localSnapshotFor g' l'.recipientNode = .ok l') :
    (node.installClosed g' l').2 = .ok .installed ∧ (node.installClosed g' l').1.HoldsAt n g' ∧
        g.termSnapshotRevision < g'.termSnapshotRevision ∧ KeepsEpochs g g' ∨
      (node.installClosed g' l').2 ≠ .ok .installed ∧ (node.installClosed g' l').1.HoldsAt n g ∧
        ((node.installClosed g' l').2 = .ok .alreadyInstalled →
          g.termSnapshotRevision = g'.termSnapshotRevision ∧ g.checksum = g'.checksum) := by
  obtain ⟨l, hl, hholds⟩ := h.holds
  have hn : l.recipientNode = n := localSnapshotFor_recipient hl
  rcases hholds.install g' l' with ⟨hanswer, hnew, hlt, hkeeps, hrec⟩ | ⟨hanswer, hold, halready⟩
  · rw [hrec, hn] at hl'
    exact .inl ⟨hanswer, ⟨h.self, ⟨l', hl', hnew⟩, synced_of_closed h.synced.mode rfl⟩, hlt,
      hkeeps⟩
  · exact .inr ⟨hanswer, ⟨h.self, ⟨l, hl, hold⟩, synced_of_closed h.synced.mode rfl⟩,
      fun ha => ⟨(halready ha).1, (halready ha).2.1⟩⟩

theorem overlayEpoch_installClosed (node : OwnerNode) (g' : OwnerTermSnapshot)
    (l' : LocalOwnerStateSnapshot) (k : StateTransferScope) :
    (node.installClosed g' l').1.store.overlayEpoch k = node.store.overlayEpoch k :=
  overlayEpoch_install node.store g' l' k

/-- A snapshot an install of `g'` may leave where `g` was: the old one, or the new one if its
revision is higher and it keeps the epochs. -/
def Successor (g g' x : OwnerTermSnapshot) : Prop :=
  x = g ∨ x = g' ∧ g.termSnapshotRevision < g'.termSnapshotRevision ∧ KeepsEpochs g g'

def MovesTo (node node' : OwnerNode) (n : NodeId) (g g' : OwnerTermSnapshot) : Prop :=
  (∃ x, node'.HoldsAt n x ∧ Successor g g' x) ∧
  ∀ k, node'.store.overlayEpoch k = node.store.overlayEpoch k

theorem HoldsAt.replicateOwnerSnapshot (h : node.HoldsAt n g)
    (hl' : localSnapshotFor g' l'.recipientNode = .ok l') :
    MovesTo node (node.replicateOwnerSnapshot g' l').1 n g g' := by
  unfold OwnerNode.replicateOwnerSnapshot
  split_ifs with hrec
  · exact ⟨⟨g, h, .inl rfl⟩, fun _ => rfl⟩
  · have hclosed : ∃ x, (node.installClosed g' l').1.HoldsAt n x ∧ Successor g g' x := by
      rcases h.installClosed hl' with ⟨-, hat, hlt⟩ | ⟨-, hat, -⟩
      · exact ⟨g', hat, .inr ⟨rfl, hlt⟩⟩
      · exact ⟨g, hat, .inl rfl⟩
    obtain ⟨x, hat, hx⟩ := hclosed
    have hoverlay := overlayEpoch_installClosed node g' l'
    dsimp only
    split
    · exact ⟨⟨x, hat, hx⟩, hoverlay⟩
    · exact ⟨⟨x, hat, hx⟩, hoverlay⟩
    · exact ⟨⟨x, hat, hx⟩, hoverlay⟩
    · split
      · rename_i r hr
        exact ⟨⟨x, hat.rebuild hr, hx⟩, hoverlay⟩
      · exact ⟨⟨x, hat, hx⟩, hoverlay⟩
      · exact ⟨⟨x, hat, hx⟩, hoverlay⟩
      · exact ⟨⟨x, hat, hx⟩, hoverlay⟩

theorem HoldsAt.installAndRebuild (h : node.HoldsAt n g)
    (hl' : localSnapshotFor g' l'.recipientNode = .ok l')
    (hcollision : g.termSnapshotRevision = g'.termSnapshotRevision →
      g.checksum = g'.checksum → g = g') :
    MovesTo node (node.installAndRebuild g' l').1 n g g' ∧
      ((node.installAndRebuild g' l').2 = true →
        (node.installAndRebuild g' l').1.HoldsAt n g') := by
  have hoverlay := overlayEpoch_installClosed node g' l'
  have hrebuild : ∀ {r : OwnerRegistry}, (node.installClosed g' l').1.HoldsAt n g' →
      (node.installClosed g' l').1.registry.rebuildFromOwnerSnapshot g' l'
        (node.installClosed g' l').1.store.listLocalSagaStates = .ok r →
      ({ (node.installClosed g' l').1 with registry := r } : OwnerNode).HoldsAt n g' := by
    intro r hat hr
    obtain ⟨hsynced, hself⟩ := synced_rebuild hr
    exact ⟨hself.trans hat.self, hat.holds, hsynced⟩
  unfold OwnerNode.installAndRebuild
  dsimp only
  rcases h.installClosed hl' with ⟨hanswer, hat, hlt⟩ | ⟨hanswer, hat, halready⟩
  · rw [hanswer]
    dsimp only
    split
    · rename_i r hr
      have hat' := hrebuild hat hr
      exact ⟨⟨⟨g', hat', .inr ⟨rfl, hlt⟩⟩, hoverlay⟩, fun _ => hat'⟩
    · exact ⟨⟨⟨g', hat, .inr ⟨rfl, hlt⟩⟩, hoverlay⟩, by simp⟩
  · split
    · rename_i hans
      exact absurd hans hanswer
    · rename_i hans
      obtain ⟨hrev, hsum⟩ := halready hans
      have heq : g = g' := hcollision hrev hsum
      rw [heq] at hat
      split
      · rename_i r hr
        have hat' := hrebuild hat hr
        exact ⟨⟨⟨g', hat', .inl heq.symm⟩, hoverlay⟩, fun _ => hat'⟩
      · exact ⟨⟨⟨g', hat, .inl heq.symm⟩, hoverlay⟩, by simp⟩
    · exact ⟨⟨⟨g, hat, .inl rfl⟩, hoverlay⟩, by simp⟩

/-! ## Conflicts -/

theorem HoldsAt.clean_install (h : node.HoldsAt n g) (hclean : node.store.Clean)
    (hl' : localSnapshotFor g' l'.recipientNode = .ok l')
    (hsame : g.termSnapshotRevision = g'.termSnapshotRevision → g = g') :
    (node.store.installOwnerSnapshot g' l').1.Clean := by
  obtain ⟨l, hl, hholds⟩ := h.holds
  obtain ⟨m, hm, hd⟩ := hholds.marker
  have hresult := node.store.installOwnerSnapshot_result g' l'
  generalize node.store.installOwnerSnapshot g' l' = r at hresult
  cases hresult with
  | conflict marker hother =>
    obtain rfl := Option.some.inj (hm.symm.trans hother.installed)
    obtain rfl := hsame (hd.revision.symm.trans hother.revision)
    rw [← hother.recipient, hd.recipient, localSnapshotFor_recipient hl, hl] at hl'
    cases hl'
    exact absurd ⟨hd.global.symm, hd.loc.symm⟩ hother.checksums
  | installed =>
    intro marker hmarker
    cases hmarker
    rfl
  | _ => exact hclean

theorem HoldsAt.clean_replicate (h : node.HoldsAt n g) (hclean : node.store.Clean)
    (hl' : localSnapshotFor g' l'.recipientNode = .ok l')
    (hsame : g.termSnapshotRevision = g'.termSnapshotRevision → g = g') :
    (node.replicateOwnerSnapshot g' l').1.store.Clean := by
  have hinstall := h.clean_install hclean hl' hsame
  unfold OwnerNode.replicateOwnerSnapshot
  split_ifs
  · exact hclean
  · dsimp only
    split
    · exact hinstall
    · exact hinstall
    · exact hinstall
    · split <;> exact hinstall

theorem HoldsAt.clean_installAndRebuild (h : node.HoldsAt n g) (hclean : node.store.Clean)
    (hl' : localSnapshotFor g' l'.recipientNode = .ok l')
    (hsame : g.termSnapshotRevision = g'.termSnapshotRevision → g = g') :
    (node.installAndRebuild g' l').1.store.Clean := by
  have hinstall := h.clean_install hclean hl' hsame
  unfold OwnerNode.installAndRebuild
  dsimp only
  split
  · split <;> exact hinstall
  · split <;> exact hinstall
  · exact hinstall

omit [Sha256] in
theorem clean_of_sameAuthority {store : ClusterMetaStore} (hclean : store.Clean)
    (hsame : SameAuthority store' store) : store'.Clean := by
  intro marker hmarker
  exact hclean marker (hsame.marker ▸ hmarker)

theorem clean_of_installed {store : ClusterMetaStore} (hl : localSnapshotFor g n = .ok l)
    (hinstalled : (store.installOwnerSnapshot g l).2 = .ok .installed) :
    (restart ⟨(store.installOwnerSnapshot g l).1, .clusterNode n⟩).store.Clean := by
  obtain ⟨hholds, hclean⟩ := holds_of_installed hinstalled
  rw [(HoldsAt.restart (n := n) ⟨rfl, ⟨l, hl, hholds⟩, synced_of_closed rfl rfl⟩).2]
  exact hclean

theorem HoldsAt.clean_prepareHandoff (h : node.HoldsAt n g) (hclean : node.store.Clean)
    (hprep : node.prepareHandoff w epoch = .ok node') : node'.store.Clean := by
  obtain ⟨l, -, hholds⟩ := h.holds
  obtain ⟨⟨store', state⟩, hpersist, hnode⟩ := bind_eq_ok.1 hprep
  cases hnode
  obtain ⟨_, -, -, -, -, -, hput⟩ := persistSourceRetirement_eq_ok hholds hpersist
  exact clean_of_sameAuthority hclean (putLocalState_sameAuthority hput)

theorem HoldsAt.clean_ownerCommit (h : node.HoldsAt n g) (hclean : node.store.Clean)
    (w : String) (owner : NodeId) (epoch : UInt64) :
    (node.ownerCommit w owner epoch).1.store.Clean := by
  unfold OwnerNode.ownerCommit
  split
  · exact hclean
  · rename_i store' hpersist
    obtain ⟨_, -, hholds⟩ := h.holds
    obtain ⟨_, -, -, hcomplete⟩ := persistCommit_eq_ok hholds hpersist
    have hclean' :=
      clean_of_sameAuthority hclean (completeHandoffOverlay_sameAuthority hcomplete)
    dsimp only
    split <;> exact hclean'

theorem clean_commitLocally (hclean : node.store.Clean) (term : OwnerTerm) :
    (node.commitLocally term).1.store.Clean := by
  unfold OwnerNode.commitLocally
  split
  · exact hclean
  · rename_i store' hcomplete
    have hclean' :=
      clean_of_sameAuthority hclean (completeHandoffOverlay_sameAuthority hcomplete)
    dsimp only
    split <;> exact hclean'

end OwnerNode
end Sentinel.Cluster

import Sentinel.Cluster.HandoffSteps
import Sentinel.Cluster.NodeAuthority

/-! Sagas that run side by side on the chef: which runs leave every node able to install the
chef's snapshot and the next one, and a run after which the chef itself no longer can. -/

namespace Sentinel.Cluster
open Lib Lib.PublishedHistory ClusterMetaStore

def NotBehind (old new : OwnerTermSnapshot) : Prop :=
  ∀ k t, old.find k = some t → ∃ t', new.find k = some t' ∧ t.epoch ≤ t'.epoch

theorem notBehind_refl (g : OwnerTermSnapshot) : NotBehind g g :=
  fun _ t ht => ⟨t, ht, UInt64.le_refl _⟩

theorem NotBehind.trans {a b c : OwnerTermSnapshot} (hab : NotBehind a b) (hbc : NotBehind b c) :
    NotBehind a c := by
  intro k t ht
  obtain ⟨t', ht', hle⟩ := hab k t ht
  obtain ⟨t'', ht'', hle'⟩ := hbc k t' ht'
  exact ⟨t'', ht'', UInt64.le_trans hle hle'⟩

variable {g' : OwnerTermSnapshot} {s : Saga}

theorem NotBehind.keepsEpochs {g : OwnerTermSnapshot} (h : NotBehind g g') : KeepsEpochs g g' := by
  intro k t t' ht ht'
  obtain ⟨u, hu, hle⟩ := h k t ht
  rwa [Option.some.inj (ht'.symm.trans hu)]

def KeepsScopes (g g' : OwnerTermSnapshot) : Prop := ∀ k, (g.find k).isSome → (g'.find k).isSome

theorem notBehind_of_kept {g : OwnerTermSnapshot} (hscopes : KeepsScopes g g')
    (hepochs : KeepsEpochs g g') : NotBehind g g' := by
  intro k t ht
  obtain ⟨t', ht'⟩ := Option.isSome_iff_exists.1 (hscopes k (by simp [ht]))
  exact ⟨t', ht', hepochs k t t' ht ht'⟩

abbrev revisionRank (g : OwnerTermSnapshot) : ℕ := g.termSnapshotRevision.toNat

/-! ## The condition on the steps -/

def OwnerNode.RevisionFree (chef : OwnerNode) (g : OwnerTermSnapshot) : Prop :=
  ∀ marker ∈ chef.store.installMarker, marker.termSnapshotRevision = g.termSnapshotRevision →
    chef.store.storedGlobal marker = g

/-- The revision of a draft is still free when the saga installs it. -/
def Saga.MayInstall (chef : OwnerNode) : Saga → Prop
  | .handoff _ (.built g) | .materializeBuilt g => chef.RevisionFree g
  | _ => True

/-- No two sagas install different drafts of one revision. -/
def RevisionGuard (cfg : ClusterConfig) (c : ClusterState) : ClusterAction → Prop
  | .advance i => ∀ saga ∈ c.sagas[i]?, saga.MayInstall (c.chefNode cfg)
  | _ => True

instance (chef : OwnerNode) (g : OwnerTermSnapshot) : Decidable (chef.RevisionFree g) :=
  inferInstanceAs (Decidable (∀ marker ∈ chef.store.installMarker, _))

instance (chef : OwnerNode) : (saga : Saga) → Decidable (saga.MayInstall chef)
  | .handoff _ (.built g) | .materializeBuilt g => inferInstanceAs (Decidable (chef.RevisionFree g))
  | .handoff _ .preparing | .handoff _ .prepared | .handoff _ (.replicatingSource _)
  | .handoff _ (.replicatingTarget _) | .handoff _ .committing | .materializeReplicating _ _
  | .finished _ => .isTrue trivial

instance (cfg : ClusterConfig) (c : ClusterState) :
    (a : ClusterAction) → Decidable (RevisionGuard cfg c a)
  | .advance i => inferInstanceAs (Decidable (∀ saga ∈ c.sagas[i]?, saga.MayInstall _))
  | .deliver _ _ | .startHandoff _ | .startMaterialize _ | .giveUp _ | .reconcile _
  | .restart _ => .isTrue trivial

section Sha256

variable [Sha256]

/-! ## What a store accepts -/

namespace ClusterMetaStore
variable {store : ClusterMetaStore} {g g' : OwnerTermSnapshot} {l l' : LocalOwnerStateSnapshot}

theorem Holds.install_same (h : store.Holds g l) (hclean : store.Clean) :
    (store.installOwnerSnapshot g l).2 = .ok .alreadyInstalled := by
  obtain ⟨m, hm, hd⟩ := h.marker
  have hstatus : m.status = .installed := hclean m hm
  have hzero : trackACoordinatorGeneration ≠ 0 := by decide
  simp [installOwnerSnapshot, validateOwnerSnapshotPair_eq_ok (u := ()) |>.2 h.pair, h.generation,
    hm, hstatus, hd.generation, hd.recipient, hd.revision, hd.global, hd.loc, hzero,
    UInt64.lt_irrefl]

theorem Holds.install_newer (h : store.Holds g l) (hclean : store.Clean) (hpair : PairValid g' l')
    (hgen : g'.coordinatorGeneration = trackACoordinatorGeneration)
    (hrecipient : l'.recipientNode = l.recipientNode)
    (hlt : g.termSnapshotRevision < g'.termSnapshotRevision) (hkeeps : KeepsEpochs g g') :
    (store.installOwnerSnapshot g' l').2 = .ok .installed := by
  obtain ⟨m, hm, hd⟩ := h.marker
  have hstatus : m.status = .installed := hclean m hm
  have hzero : trackACoordinatorGeneration ≠ 0 := by decide
  have hnotlt : ¬ g'.termSnapshotRevision < g.termSnapshotRevision :=
    UInt64.not_lt.2 (UInt64.le_of_lt hlt)
  have hne : g'.termSnapshotRevision ≠ g.termSnapshotRevision :=
    fun heq => UInt64.lt_irrefl _ (heq ▸ hlt)
  have hback := (h.keepsEpochs_iff hpair.globalValid hgen).1 hkeeps
  simp [installOwnerSnapshot, validateOwnerSnapshotPair_eq_ok (u := ()) |>.2 hpair, hgen, hm,
    hstatus, hd.generation, h.generation, hd.recipient, hrecipient, hd.revision, hnotlt, hne,
    hzero, replaceUnlessStale, hback]

theorem Holds.read (h : store.Holds g l) (hclean : store.Clean) :
    store.installedOwnerSnapshot = .ok (some (g, l)) := by
  obtain ⟨m, hm, -⟩ := h.marker
  have hstatus : m.status = .installed := hclean m hm
  simp [h.installedOwnerSnapshot hm, hstatus]

end ClusterMetaStore

theorem OwnerNode.HoldsAt.accepts_newer {node : OwnerNode} {n : NodeId} {g : OwnerTermSnapshot}
    (h : node.HoldsAt n g) (hclean : node.store.Clean) (hvalid : g'.Valid)
    (hgen : g'.coordinatorGeneration = trackACoordinatorGeneration)
    (hlt : g.termSnapshotRevision < g'.termSnapshotRevision) (hkeeps : KeepsEpochs g g') :
    ∃ l', localSnapshotFor g' n = .ok l' ∧
      (node.store.installOwnerSnapshot g' l').2 = .ok .installed := by
  obtain ⟨l, hl, hholds⟩ := h.holds
  obtain ⟨l', hl', hpair, hrecipient, -⟩ := hvalid.localSnapshotFor n
  refine ⟨l', hl', hholds.install_newer hclean hpair hgen ?_ hlt hkeeps⟩
  rw [hrecipient, localSnapshotFor_recipient hl]

/-! ## The invariant -/

inductive Drafted (st : PublishedHistory OwnerTermSnapshot NodeId) (g : OwnerTermSnapshot) : Prop
  | published (hmem : g ∈ st.history)
  | drafted (base : OwnerTermSnapshot) (hbase : base ∈ st.history) (hdraft : DraftOf base g)
      (hscopes : KeepsScopes base g)

def Saga.Rests (st : PublishedHistory OwnerTermSnapshot NodeId) (s : Saga) : Prop :=
  ∀ g, (s.Drafts g → Drafted st g) ∧ (s.Replicates g → g ∈ st.history)

/-- No node has met a conflict; every node holds a published snapshot that is not ahead of the
chef's, and every request and saga rests on published snapshots. -/
structure Unwedged (cfg : ClusterConfig) (c : ClusterState)
    (st : PublishedHistory OwnerTermSnapshot NodeId) : Prop where
  chain : st.Chained revisionRank NotBehind cfg.chef
  nodes : ∀ n, (c.nodes n).HoldsAt n (st.held n)
  clean : ∀ n, (c.nodes n).store.Clean
  requests : ∀ n g l, (n, .replicateOwnerSnapshot g l) ∈ c.requests →
    g ∈ st.history ∧ localSnapshotFor g l.recipientNode = .ok l
  sagas : ∀ s ∈ c.sagas, s.Rests st

variable {cfg : ClusterConfig} {c : ClusterState} {n : NodeId} {g : OwnerTermSnapshot}
  {st st' : PublishedHistory OwnerTermSnapshot NodeId}

theorem Drafted.mono (h : Drafted st g) (hhistory : ∀ a ∈ st.history, a ∈ st'.history) :
    Drafted st' g := by
  cases h with
  | published hmem => exact .published (hhistory g hmem)
  | drafted base hbase hdraft hscopes => exact .drafted base (hhistory base hbase) hdraft hscopes

theorem Saga.Rests.mono (h : s.Rests st) (hhistory : ∀ a ∈ st.history, a ∈ st'.history) :
    s.Rests st' :=
  fun g => ⟨fun hg => ((h g).1 hg).mono hhistory, fun hg => hhistory g ((h g).2 hg)⟩

theorem Saga.Drafts.rests (h : s.Drafts g) (hg : Drafted st g) : s.Rests st := by
  refine fun g' => ⟨fun hdrafts => ?_, fun hrep => ?_⟩
  · cases h <;> cases hdrafts <;> exact hg
  · cases h <;> cases hrep

theorem Saga.Replicates.rests (h : s.Replicates g) (hg : g ∈ st.history) : s.Rests st := by
  refine fun g' => ⟨fun hdrafts => ?_, fun hrep => ?_⟩
  · cases h <;> cases hdrafts
  · cases h <;> cases hrep <;> exact hg

theorem rests_finished (r : SagaResult) : (Saga.finished r).Rests st :=
  fun _ => ⟨nofun, nofun⟩

namespace Unwedged

theorem extend (h : Unwedged cfg c st) {node : OwnerNode}
    (hhistory : ∀ a ∈ st.history, a ∈ st'.history)
    (hchain : st'.Chained revisionRank NotBehind cfg.chef)
    (hheld : st'.held = Function.update st.held n g) (hat : node.HoldsAt n g)
    (hclean : node.store.Clean) : Unwedged cfg (c.setNode n node) st' where
  chain := hchain
  nodes := by
    rw [hheld]
    exact forall_update (P := fun m (node : OwnerNode) g => node.HoldsAt m g) h.nodes hat
  clean := by
    refine (Function.forall_update_iff c.nodes fun _ node => node.store.Clean).2 ⟨hclean, ?_⟩
    exact fun m _ => h.clean m
  requests n g l hmem := (h.requests n g l hmem).imp_left (hhistory g)
  sagas s hs := (h.sagas s hs).mono hhistory

theorem move (h : Unwedged cfg c st) {node : OwnerNode} (hat : node.HoldsAt n g)
    (hg : st.MayMove revisionRank n g) (hclean : node.store.Clean) :
    ∃ st', Unwedged cfg (c.setNode n node) st' ∧ st'.history = st.history :=
  ⟨st.setHeld n g, h.extend (fun _ ha => ha) (h.chain.setHeld hg) rfl hat hclean, rfl⟩

theorem eq_of_revision_eq (h : Unwedged cfg c st) (hg : g ∈ st.history)
    (hrev : (st.held n).termSnapshotRevision = g.termSnapshotRevision) : st.held n = g :=
  h.chain.eq_of_rank_eq (h.chain.held_mem n) hg (congrArg UInt64.toNat hrev)

variable {l : LocalOwnerStateSnapshot}

theorem replicate (h : Unwedged cfg c st) (hg : g ∈ st.history)
    (hl : localSnapshotFor g l.recipientNode = .ok l) :
    ∃ st', Unwedged cfg (c.setNode n ((c.nodes n).replicateOwnerSnapshot g l).1) st' := by
  obtain ⟨⟨x, hat, hx⟩, -⟩ := (h.nodes n).replicateOwnerSnapshot hl
  have hclean := (h.nodes n).clean_replicate (h.clean n) hl (h.eq_of_revision_eq hg)
  have hmove : st.MayMove revisionRank n x := by
    rcases hx with rfl | ⟨rfl, hlt, -⟩
    · exact .inl rfl
    · exact .inr ⟨hg, UInt64.lt_iff_toNat_lt.1 hlt⟩
  obtain ⟨st', h', -⟩ := h.move hat hmove hclean
  exact ⟨st', h'⟩

theorem install (h : Unwedged cfg c st) (hg : Drafted st g)
    (hl : localSnapshotFor g l.recipientNode = .ok l)
    (hfree : (st.held cfg.chef).termSnapshotRevision = g.termSnapshotRevision →
      st.held cfg.chef = g) :
    ∃ st', Unwedged cfg (c.setNode cfg.chef ((c.chefNode cfg).installAndRebuild g l).1) st' ∧
      (((c.chefNode cfg).installAndRebuild g l).2 = true → g ∈ st'.history) := by
  obtain ⟨⟨⟨x, hat, hx⟩, -⟩, hok⟩ :=
    (h.nodes cfg.chef).installAndRebuild hl fun hrev _ => hfree hrev
  have hclean := (h.nodes cfg.chef).clean_installAndRebuild (h.clean cfg.chef) hl hfree
  rcases hx with rfl | ⟨rfl, hlt, hkeeps⟩
  · obtain ⟨st', h', hhistory⟩ := h.move hat (.inl rfl) hclean
    refine ⟨st', h', fun htrue => ?_⟩
    obtain ⟨_, -, hholds⟩ := (hok htrue).holds
    obtain ⟨_, -, hholds'⟩ := hat.holds
    rw [(hholds.unique hholds').1, hhistory]
    exact h.chain.held_mem cfg.chef
  · -- the draft outranks the chef's snapshot, so it was drafted from it
    have hrank : revisionRank (st.held cfg.chef) < revisionRank x := UInt64.lt_iff_toNat_lt.1 hlt
    have hbehind : NotBehind (st.held cfg.chef) x := by
      cases hg with
      | published hmem => exact absurd (h.chain.rank_le hmem) (not_le.2 hrank)
      | drafted base hbase hdraft hscopes =>
        obtain rfl := h.chain.base_eq hbase hdraft.revision hrank
        exact notBehind_of_kept hscopes hkeeps
    have hpush := h.chain.push notBehind_refl .trans hrank hbehind
    exact ⟨st.push cfg.chef x, h.extend (fun _ ha => List.mem_cons_of_mem _ ha) hpush rfl hat
      hclean, fun _ => List.mem_cons_self⟩

theorem withSagas (h : Unwedged cfg c st) {sagas : List Saga}
    (hs : ∀ s ∈ sagas, s ∈ c.sagas ∨ s.Rests st) : Unwedged cfg { c with sagas } st where
  chain := h.chain
  nodes := h.nodes
  clean := h.clean
  requests := h.requests
  sagas s hmem := (hs s hmem).elim (h.sagas s) id

theorem setSaga (h : Unwedged cfg c st) {s : Saga} (hs : s.Rests st) (i : Nat) :
    Unwedged cfg (c.setSaga i s) st := by
  refine h.withSagas fun x hmem => (List.mem_or_eq_of_mem_set hmem).imp_right fun hx => ?_
  rw [hx]
  exact hs

theorem addSaga (h : Unwedged cfg c st) {s : Saga} (hs : s.Rests st) :
    Unwedged cfg (c.addSaga s) st := by
  refine h.withSagas fun x hmem => (List.mem_append.1 hmem).imp_right fun hx => ?_
  rw [List.mem_singleton.1 hx]
  exact hs

theorem post (h : Unwedged cfg c st) {request : ControlRequest}
    (hr : ∀ g l, request = .replicateOwnerSnapshot g l →
      g ∈ st.history ∧ localSnapshotFor g l.recipientNode = .ok l) :
    Unwedged cfg (c.post n request) st where
  chain := h.chain
  nodes := h.nodes
  clean := h.clean
  sagas := h.sagas
  requests m g l hmem := by
    rcases List.mem_cons.1 hmem with heq | hmem
    · cases heq
      exact hr g l rfl
    · exact h.requests m g l hmem

theorem installed_eq (h : Unwedged cfg c st) {installed : OwnerTermSnapshot}
    (hread : (c.chefNode cfg).store.installedOwnerSnapshot = .ok (some (installed, l))) :
    installed = st.held cfg.chef := by
  obtain ⟨_, -, hholds⟩ := (h.nodes cfg.chef).holds
  exact (hholds.of_installed hread).1

/-! ## Every small step keeps the invariant -/

theorem deliver (h : Unwedged cfg c st) {request : ControlRequest}
    (hsent : (n, request) ∈ c.requests) : ∃ st', Unwedged cfg (c.deliver n request) st' := by
  rw [ClusterState.deliver, if_pos hsent]
  -- a reply is not part of the invariant
  have hreply : ∀ {node : OwnerNode} {response : ControlResponse},
      (∃ st', Unwedged cfg (c.setNode n node) st') → ∃ st', Unwedged cfg
        { c.setNode n node with replies := (n, request, response) :: c.replies } st' := by
    rintro node response ⟨st', h'⟩
    exact ⟨st', h'.chain, h'.nodes, h'.clean, h'.requests, h'.sagas⟩
  refine hreply ?_
  cases request with
  | ownerCommit w owner epoch =>
    obtain ⟨st', h', -⟩ := h.move ((h.nodes n).ownerCommit w owner epoch).1 (.inl rfl)
      ((h.nodes n).clean_ownerCommit (h.clean n) w owner epoch)
    exact ⟨st', h'⟩
  | replicateOwnerSnapshot g l =>
    obtain ⟨hg, hl⟩ := h.requests n g l hsent
    exact h.replicate hg hl
  | prepareHandoff w e =>
    dsimp only
    split
    · rename_i node hprep
      obtain ⟨_, _, -, -, -, -, hat, -⟩ := (h.nodes n).prepareHandoff hprep
      obtain ⟨st', h', -⟩ :=
        h.move hat (.inl rfl) ((h.nodes n).clean_prepareHandoff (h.clean n) hprep)
      exact ⟨st', h'⟩
    · obtain ⟨st', h', -⟩ := h.move (h.nodes n) (.inl rfl) (h.clean n)
      exact ⟨st', h'⟩

theorem installStep (h : Unwedged cfg c st) {i : Nat} {saga : Saga}
    (hsaga : c.sagas[i]? = some saga) (hcarries : saga.Drafts g ∨ saga.Replicates g)
    (hl : localSnapshotFor g l.recipientNode = .ok l) (hguard : RevisionGuard cfg c (.advance i)) :
    ∃ st', Unwedged cfg (c.setNode cfg.chef ((c.chefNode cfg).installAndRebuild g l).1) st' ∧
      (((c.chefNode cfg).installAndRebuild g l).2 = true → g ∈ st'.history) := by
  have hmem := List.mem_of_getElem? hsaga
  rcases hcarries with hdrafts | hreplicates
  · refine h.install ((h.sagas saga hmem g).1 hdrafts) hl fun hrev => ?_
    have hfree : (c.chefNode cfg).RevisionFree g := by
      have hmay := hguard saga hsaga
      cases hdrafts <;> exact hmay
    obtain ⟨_, -, hholds⟩ := (h.nodes cfg.chef).holds
    obtain ⟨m, hm, hd⟩ := hholds.marker
    rw [← hholds.storedGlobal hd]
    exact hfree m hm (hd.revision.trans hrev)
  · have hg := (h.sagas saga hmem g).2 hreplicates
    exact h.install (.published hg) hl (h.eq_of_revision_eq hg)

theorem sagaStep (h : Unwedged cfg c st) {old new : Saga} (hold : old ∈ c.sagas)
    (hstep : SagaStep cfg c old new) : new.Rests st := by
  cases hstep with
  | finish _ r => exact rests_finished r
  | prepared run _ => exact fun _ => ⟨nofun, nofun⟩
  | commit run _ => exact fun _ => ⟨nofun, nofun⟩
  | replicate g hold' hnew => exact hnew.rests ((h.sagas old hold g).2 hold')

theorem smallStep (h : Unwedged cfg c st) {c' : ClusterState}
    (hstep : SmallStep cfg (RevisionGuard cfg) c c') : ∃ st', Unwedged cfg c' st' := by
  cases hstep with
  | restart n =>
    obtain ⟨hat, hstore⟩ := (h.nodes n).restart
    obtain ⟨st', h', -⟩ := h.move hat (.inl rfl) (by rw [hstore]; exact h.clean n)
    exact ⟨st', h'⟩
  | dropSagas => exact ⟨st, h.withSagas (by simp)⟩
  | deliver n request hsent _ => exact h.deliver hsent
  | saga i hsaga hstep => exact ⟨st, h.setSaga (h.sagaStep (List.mem_of_getElem? hsaga) hstep) i⟩
  | build i run hsaga hread hdraft _ =>
    obtain rfl := h.installed_eq hread
    obtain ⟨hdraftOf, -, hfind⟩ := handoffSnapshot_eq_some hdraft
    refine ⟨st, h.setSaga (Saga.Drafts.rests (.handoff run) (.drafted _
      (h.chain.held_mem cfg.chef) hdraftOf fun k hk => ?_)) i⟩
    rw [hfind]
    split_ifs
    · rfl
    · exact hk
  | prepareLocally i run hsaga hprep =>
    obtain ⟨_, _, -, -, -, -, hat, -⟩ := (h.nodes cfg.chef).prepareHandoff hprep
    obtain ⟨st', h', -⟩ :=
      h.move hat (.inl rfl) ((h.nodes cfg.chef).clean_prepareHandoff (h.clean cfg.chef) hprep)
    exact ⟨st', h'.setSaga (s := .handoff run .prepared) (fun _ => ⟨nofun, nofun⟩) i⟩
  | commitLocally term =>
    obtain ⟨st', h', -⟩ := h.move ((h.nodes cfg.chef).commitLocally term) (.inl rfl)
      (OwnerNode.clean_commitLocally (h.clean cfg.chef) term)
    exact ⟨st', h'⟩
  | install i hsaga hcarries hl hguard hnext =>
    obtain ⟨st', h', hpublished⟩ := h.installStep hsaga hcarries hl hguard
    refine ⟨st', h'.setSaga ?_ i⟩
    rcases hnext with rfl | ⟨hok, hrep⟩
    · exact rests_finished _
    · exact hrep.rests (hpublished hok)
  | addHandoff run _ _ => exact ⟨st, h.addSaga fun _ => ⟨nofun, nofun⟩⟩
  | addMaterialize agents hread hdraft =>
    obtain rfl := h.installed_eq hread
    obtain ⟨hfalse, -⟩ | ⟨-, hdraftOf, hkept⟩ := extendOwnerSnapshotForAgents_eq_some hdraft
    · cases hfalse
    · refine ⟨st, h.addSaga (Saga.Drafts.rests .materialize (.drafted _
        (h.chain.held_mem cfg.chef) hdraftOf fun k hk => ?_))⟩
      obtain ⟨t, ht⟩ := Option.isSome_iff_exists.1 hk
      simp [hkept k t ht]
  | addReplication hread hsaga =>
    obtain rfl := h.installed_eq hread
    refine ⟨st, h.addSaga ?_⟩
    rcases hsaga with hrep | ⟨r, rfl⟩
    · exact hrep.rests (h.chain.held_mem cfg.chef)
    · exact rests_finished r
  | sendSnapshot n hl hg =>
    refine ⟨st, h.post fun g' l' heq => ?_⟩
    cases heq
    refine ⟨?_, hl⟩
    rcases hg with ⟨saga, hmem, hrep⟩ | ⟨l', hread⟩
    · exact (h.sagas saga hmem _).2 hrep
    · exact h.installed_eq hread ▸ h.chain.held_mem _
  | sendOther n request hother => exact ⟨st, h.post fun g l heq => absurd heq (hother g l)⟩

end Unwedged

/-! ## Runs -/

theorem ClusterState.Started.unwedged (h : c.Started g) (cfg : ClusterConfig) :
    Unwedged cfg c ⟨[g], fun _ => g⟩ where
  chain := ⟨rfl, List.pairwise_singleton _ _, fun _ => List.mem_singleton_self _⟩
  nodes n := by
    obtain ⟨store, l, hl, hinstalled, hnode⟩ := h.nodes n
    rw [hnode]
    exact OwnerNode.holdsAt_of_installed hl hinstalled
  clean n := by
    obtain ⟨store, l, hl, hinstalled, hnode⟩ := h.nodes n
    rw [hnode]
    exact OwnerNode.clean_of_installed hl hinstalled
  requests := by simp [h.requests]
  sagas := by simp [h.sagas]

theorem Unwedged.accepts_current (h : Unwedged cfg c st) (n : NodeId) :
    ∃ l, localSnapshotFor (st.held cfg.chef) n = .ok l ∧
      ((c.nodes n).store.installOwnerSnapshot (st.held cfg.chef) l).2 ∈
        [.ok .installed, .ok .alreadyInstalled] := by
  rcases h.chain.eq_or_newest (h.chain.held_mem n) with heq | ⟨hlt, hbehind⟩
  · obtain ⟨l, hl, hholds⟩ := (h.nodes n).holds
    rw [heq] at hl hholds
    exact ⟨l, hl, by simp [hholds.install_same (h.clean n)]⟩
  · obtain ⟨_, -, hchef⟩ := (h.nodes cfg.chef).holds
    obtain ⟨l, hl, hinstall⟩ := (h.nodes n).accepts_newer (h.clean n) hchef.pair.globalValid
      hchef.generation (UInt64.lt_iff_toNat_lt.2 hlt) hbehind.keepsEpochs
    exact ⟨l, hl, by simp [hinstall]⟩

theorem Unwedged.accepts_next (h : Unwedged cfg c st) {t : OwnerTerm} {scope : StateTransferScope}
    (ht : (st.held cfg.chef).find scope = some t) {epoch : UInt64}
    (hepoch : checkedAddOne t.epoch = some epoch)
    (hrev : (st.held cfg.chef).termSnapshotRevision.toNat + 1 < 2 ^ 64) (target : NodeId) :
    ∃ g, handoffSnapshot (st.held cfg.chef) ⟨scope, target, epoch, trackACoordinatorGeneration⟩ =
        some g ∧
      ∀ n, ∃ l, localSnapshotFor g n = .ok l ∧
        ((c.nodes n).store.installOwnerSnapshot g l).2 = .ok .installed := by
  obtain ⟨_, -, hchef⟩ := (h.nodes cfg.chef).holds
  obtain ⟨g, hg⟩ : ∃ g, handoffSnapshot (st.held cfg.chef)
      ⟨scope, target, epoch, trackACoordinatorGeneration⟩ = some g :=
    hchef.pair.globalValid.handoffSnapshot_isSome hchef.generation rfl (by simp [ht]) hrev
  obtain ⟨hdraft, -, hfind⟩ := handoffSnapshot_eq_some hg
  have hnext : NotBehind (st.held cfg.chef) g := by
    intro k u hu
    by_cases hk : k = scope
    · subst hk
      obtain rfl := Option.some.inj (ht.symm.trans hu)
      have := checkedAddOne_eq_some hepoch
      exact ⟨_, (hfind _).trans (if_pos rfl), UInt64.le_iff_toNat_le.2 (by simp only; omega)⟩
    · exact ⟨u, (hfind k).trans ((if_neg hk).trans hu), UInt64.le_refl _⟩
  refine ⟨g, hg, fun n => ?_⟩
  have hrank := h.chain.rank_le (h.chain.held_mem n)
  have hlt : (st.held n).termSnapshotRevision.toNat < g.termSnapshotRevision.toNat := by
    rw [hdraft.revision]
    exact Nat.lt_succ_of_le hrank
  exact (h.nodes n).accepts_newer (h.clean n) hdraft.valid hdraft.generation
    (UInt64.lt_iff_toNat_lt.2 hlt)
    ((h.chain.newest notBehind_refl (h.chain.held_mem n)).trans hnext).keepsEpochs

/-- **Side-by-side sagas do not wedge the owner table**, in every run whose installs on the
chef find their revision free: the chef reads its snapshot back, every node installs it or has
it, and every node installs the next handoff of any scope. -/
theorem sagas_do_not_wedge (cfg : ClusterConfig) {c : ClusterState} {g : OwnerTermSnapshot}
    (hstart : c.Started g) {actions : List ClusterAction}
    (hmeets : (clusterMachine cfg).Meets (RevisionGuard cfg) c actions) :
    let after := (clusterMachine cfg).final c actions
    ∃ current l, (after.chefNode cfg).store.installedOwnerSnapshot = .ok (some (current, l)) ∧
      (∀ n, ∃ l, localSnapshotFor current n = .ok l ∧
        ((after.nodes n).store.installOwnerSnapshot current l).2 ∈
          [.ok .installed, .ok .alreadyInstalled]) ∧
      ∀ scope t epoch target, current.find scope = some t → checkedAddOne t.epoch = some epoch →
        current.termSnapshotRevision.toNat + 1 < 2 ^ 64 →
        ∃ next, handoffSnapshot current ⟨scope, target, epoch, trackACoordinatorGeneration⟩ =
            some next ∧
          ∀ n, ∃ l, localSnapshotFor next n = .ok l ∧
            ((after.nodes n).store.installOwnerSnapshot next l).2 = .ok .installed := by
  obtain ⟨st, h⟩ := invariant_of_smallStep (I := fun c => ∃ st, Unwedged cfg c st) cfg
    (RevisionGuard cfg) (fun _ _ ⟨_, h⟩ hstep => h.smallStep hstep) ⟨_, hstart.unwedged cfg⟩ hmeets
  obtain ⟨l, -, hholds⟩ := (h.nodes cfg.chef).holds
  exact ⟨st.held cfg.chef, l, hholds.read (h.clean cfg.chef), h.accepts_current,
    fun scope t epoch target ht hepoch hrev => h.accepts_next ht hepoch hrev target⟩

/-- **Nodes agree.** At any point of such a run two nodes with snapshots of one revision have the
same one; of two others the older has no scope that the newer lacks and no later epoch; and the
chef is behind no node. -/
theorem snapshots_agree (cfg : ClusterConfig) {c : ClusterState} {g : OwnerTermSnapshot}
    (hstart : c.Started g) {actions : List ClusterAction}
    (hmeets : (clusterMachine cfg).Meets (RevisionGuard cfg) c actions) {m n : NodeId}
    {a b : OwnerTermSnapshot} {la lb : LocalOwnerStateSnapshot}
    (hm : (((clusterMachine cfg).final c actions).nodes m).store.installedOwnerSnapshot =
      .ok (some (a, la)))
    (hn : (((clusterMachine cfg).final c actions).nodes n).store.installedOwnerSnapshot =
      .ok (some (b, lb))) :
    (a.termSnapshotRevision = b.termSnapshotRevision → a = b) ∧
      (a.termSnapshotRevision < b.termSnapshotRevision → NotBehind a b) ∧
      (n = cfg.chef → a.termSnapshotRevision ≤ b.termSnapshotRevision) := by
  obtain ⟨st, h⟩ := invariant_of_smallStep (I := fun c => ∃ st, Unwedged cfg c st) cfg
    (RevisionGuard cfg) (fun _ _ ⟨_, h⟩ hstep => h.smallStep hstep) ⟨_, hstart.unwedged cfg⟩ hmeets
  obtain ⟨_, -, hma⟩ := (h.nodes m).holds
  obtain ⟨_, -, hnb⟩ := (h.nodes n).holds
  obtain rfl := (hma.of_installed hm).1
  obtain rfl := (hnb.of_installed hn).1
  have ha := h.chain.held_mem m
  have hb := h.chain.held_mem n
  refine ⟨fun hrev => h.eq_of_revision_eq hb hrev, fun hlt => ?_, ?_⟩
  · exact h.chain.related_of_rank_lt ha hb (UInt64.lt_iff_toNat_lt.1 hlt)
  · rintro rfl
    exact UInt64.le_iff_toNat_le.2 (h.chain.rank_le ha)

/-! ## Two handoffs of different scopes -/

end Sha256

def twoAgents (owner₁ : UInt8) (epoch₁ : UInt64) (owner₂ : UInt8) (epoch₂ : UInt64) :
    List OwnerTerm :=
  [⟨.nanoContainer "AGENT-01", nodeOf owner₁, epoch₁, trackACoordinatorGeneration⟩,
    ⟨.nanoContainer "AGENT-02", nodeOf owner₂, epoch₂, trackACoordinatorGeneration⟩]

def bothOnChef : OwnerTermSnapshot := globalLiteral 1 (twoAgents 1 1 1 1)
  0x4abf1493bc76b5e99a046a836b605685533749a88cb8f1dfb085c474b98d4c21

def firstMoved : OwnerTermSnapshot := globalLiteral 2 (twoAgents 2 2 1 1)
  0xa0deabd05895c2e3675fc3433d251420d07d60c843d3a65766ec78b44de082cf

def secondMoved : OwnerTermSnapshot := globalLiteral 2 (twoAgents 1 1 2 2)
  0xf2141af3224a9b4b037f138c8b8e72295bd6878cdd0d2dcc9cdc7837dca2565b

def firstMovedOnChef : LocalOwnerStateSnapshot := localLiteral (nodeOf 1) 2 (twoAgents 2 2 1 1)
  0xa6f57ea62df4ea73bea69ea6a98666151f5a5dca1cf61a0a6b1e23d420486bf7

def firstMovedOnPeer : LocalOwnerStateSnapshot := localLiteral (nodeOf 2) 2 (twoAgents 2 2 1 1)
  0xb4ae97838b40c24aeb05078344b28fe35f1323188fa08d77f90147c64c38c195

def bothOnPeer : LocalOwnerStateSnapshot := localLiteral (nodeOf 2) 1 (twoAgents 1 1 1 1)
  0x8c63ed42032304bbe70973828d995eaf58992130d337e7394e9dbc28342a8b3e

@[reducible] def sagasSha256 : Sha256 :=
  sha256OfSnapshots [bothOnChef, firstMoved, secondMoved]
    [localLiteral (nodeOf 1) 1 (twoAgents 1 1 1 1)
        0xddda761e922f07f6047a1df5a2d95088c8bf1a52662d38de09f560559bc06cf1,
      bothOnPeer, firstMovedOnChef, firstMovedOnPeer,
      localLiteral (nodeOf 1) 2 (twoAgents 1 1 2 2)
        0x4323627c140ad91253f6cfe6d1c461baa5480260373a36f0ec39ee995ff02449]

attribute [local instance] sagasSha256

def twoNodes : ClusterConfig := ⟨nodeOf 1, "a", [(nodeOf 2, "b")]⟩

def firstHandoff : ClusterAction :=
  .startHandoff ⟨.nanoContainer "AGENT-01", "a", "b", nodeOf 2⟩

/-- Both handoffs draft revision 2 from revision 1. The first runs to its end; then the second
installs its draft. Every request is delivered. -/
def sideBySide : List ClusterAction :=
  [firstHandoff, .startHandoff ⟨.nanoContainer "AGENT-02", "a", "b", nodeOf 2⟩,
    .advance 0, .advance 1, .advance 0, .advance 1, .advance 0,
    .deliver (nodeOf 2) (.replicateOwnerSnapshot firstMoved firstMovedOnPeer), .advance 0,
    .deliver (nodeOf 2) (.ownerCommit "nano:AGENT-01" (nodeOf 2) 2), .advance 0, .advance 1]

def afterSideBySide : ClusterState :=
  (clusterMachine twoNodes).final (.boot bothOnChef) sideBySide

theorem boot_bothOnChef : (ClusterState.boot bothOnChef).Started bothOnChef :=
  ClusterState.boot_started (OwnerTermSnapshot.validate_eq_ok.1
    (by decide +kernel : bothOnChef.validate = .ok ())) rfl

/-- The first handoff is committed and the second failed, and from then on the chef answers
`SnapshotConflict` to its own snapshot. -/
theorem chef_wedged_by_second_saga :
    (ClusterState.boot bothOnChef).Started bothOnChef ∧
      afterSideBySide.sagas = [.finished (.handoff (.committed 2)), .finished .failed] ∧
      (afterSideBySide.chefNode twoNodes).store.listOwnerTerms = firstMoved.sortedTerms ∧
      ((afterSideBySide.chefNode twoNodes).store.installOwnerSnapshot firstMoved
        firstMovedOnChef).2.toOption = some .snapshotConflict :=
  ⟨boot_bothOnChef, by decide +kernel⟩

/-- One handoff alone, up to the chef's install. -/
def oneSaga : List ClusterAction := [firstHandoff, .advance 0, .advance 0, .advance 0]

theorem meets_oneSaga : (clusterMachine twoNodes).Meets (RevisionGuard twoNodes)
    (.boot bothOnChef) oneSaga := by decide +kernel

theorem one_saga_does_not_wedge :
    let after := (clusterMachine twoNodes).final (.boot bothOnChef) oneSaga
    ∃ current l, (after.chefNode twoNodes).store.installedOwnerSnapshot = .ok (some (current, l)) ∧
      ∀ n, ∃ l, localSnapshotFor current n = .ok l ∧
        ((after.nodes n).store.installOwnerSnapshot current l).2 ∈
          [.ok .installed, .ok .alreadyInstalled] := by
  obtain ⟨current, l, hread, haccepts, -⟩ :=
    sagas_do_not_wedge twoNodes boot_bothOnChef meets_oneSaga
  exact ⟨current, l, hread, haccepts⟩

/-- After the chef's install the peer still has the snapshot of before. -/
theorem peer_not_ahead :
    NotBehind bothOnChef firstMoved ∧
      bothOnChef.termSnapshotRevision ≤ firstMoved.termSnapshotRevision := by
  have hpeer : (((clusterMachine twoNodes).final (.boot bothOnChef) oneSaga).nodes
      (nodeOf 2)).store.installedOwnerSnapshot = .ok (some (bothOnChef, bothOnPeer)) :=
    toOption_eq_some.1 (by decide +kernel)
  have hchef : (((clusterMachine twoNodes).final (.boot bothOnChef) oneSaga).nodes
      (nodeOf 1)).store.installedOwnerSnapshot = .ok (some (firstMoved, firstMovedOnChef)) :=
    toOption_eq_some.1 (by decide +kernel)
  have h := snapshots_agree twoNodes boot_bothOnChef meets_oneSaga hpeer hchef
  exact ⟨h.2.1 (by decide), h.2.2 rfl⟩

end Sentinel.Cluster

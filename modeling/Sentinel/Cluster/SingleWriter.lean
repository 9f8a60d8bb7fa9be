import Sentinel.Cluster.HandoffSteps
import Sentinel.Cluster.NodeAuthority

/-! Single-writer safety of the handoff: which runs keep it, and a run that breaks it. The
chef is the authority of a fenced history; a node's overlays are its fences. -/

namespace Sentinel.Cluster
open Lib Lib.FencedHistory StateTransferScope

abbrev OwnerHistory := FencedHistory OwnerTermSnapshot StateTransferScope NodeId

/-! ## The condition on the steps -/

def OwnerNode.RetiredTerm (node : OwnerNode) (scopeWire : String) (owner : NodeId)
    (epoch : UInt64) : Prop :=
  ∃ scope ∈ fromWire scopeWire,
    node.store.clusterOwner.get (scopeKey scope) =
      some ⟨scope, owner, epoch, trackACoordinatorGeneration⟩ ∧
    node.store.overlayEpoch scope = some epoch.toNat

/-- A draft under the installed revision and checksum is the installed snapshot: no two
payloads of one revision have one SHA-256 checksum. -/
def OwnerNode.NoCollision (node : OwnerNode) (g : OwnerTermSnapshot) : Prop :=
  ∀ marker ∈ node.store.installMarker, marker.termSnapshotRevision = g.termSnapshotRevision →
    marker.globalChecksum = g.checksum → node.store.storedGlobal marker = g

/-- When a handoff drafts its snapshot, the chef still has the term the handoff read. -/
def Saga.MayAdvance (chef : OwnerNode) : Saga → Prop
  | .handoff run .prepared =>
    chef.store.clusterOwner.get (scopeKey run.req.scope) = some run.current
  | .handoff _ (.built g) | .materializeBuilt g => chef.NoCollision g
  | _ => True

/-- What keeps a handoff safe: its scope has not moved when the draft is made, and no late
`OwnerCommit` reaches a peer that has retired the committed term since. -/
def HandoffGuard (cfg : ClusterConfig) (c : ClusterState) : ClusterAction → Prop
  | .advance i => ∀ saga ∈ c.sagas[i]?, saga.MayAdvance (c.chefNode cfg)
  | .deliver n (.ownerCommit scope owner epoch) =>
    n = cfg.chef ∨ ¬ (c.nodes n).RetiredTerm scope owner epoch
  | _ => True

instance (node : OwnerNode) (w : String) (owner : NodeId) (epoch : UInt64) :
    Decidable (node.RetiredTerm w owner epoch) :=
  inferInstanceAs (Decidable (∃ scope ∈ fromWire w, _))

instance (node : OwnerNode) (g : OwnerTermSnapshot) : Decidable (node.NoCollision g) :=
  inferInstanceAs (Decidable (∀ marker ∈ node.store.installMarker, _))

instance (chef : OwnerNode) : (saga : Saga) → Decidable (saga.MayAdvance chef)
  | .handoff _ .prepared => inferInstanceAs (Decidable (_ = _))
  | .handoff _ (.built g) | .materializeBuilt g => inferInstanceAs (Decidable (chef.NoCollision g))
  | .handoff _ .preparing | .handoff _ (.replicatingSource _) | .handoff _ (.replicatingTarget _)
  | .handoff _ .committing | .materializeReplicating _ _ | .finished _ => .isTrue trivial

instance (cfg : ClusterConfig) (c : ClusterState) :
    (a : ClusterAction) → Decidable (HandoffGuard cfg c a)
  | .advance i => inferInstanceAs (Decidable (∀ saga ∈ c.sagas[i]?, saga.MayAdvance _))
  | .deliver _ (.ownerCommit _ _ _) => inferInstanceAs (Decidable (_ ∨ ¬ _))
  | .deliver _ (.replicateOwnerSnapshot _ _) | .deliver _ (.prepareHandoff _ _)
  | .startHandoff _ | .startMaterialize _ | .giveUp _ | .reconcile _ | .restart _ => .isTrue trivial

section Sha256

variable [Sha256]

/-! ## The invariant -/

def Saga.Safe (cfg : ClusterConfig) (st : OwnerHistory) : Saga → Prop
  | .handoff run .preparing => run.current.epoch.toNat < run.newEpoch.toNat
  | .handoff run .prepared => run.current.epoch.toNat < run.newEpoch.toNat ∧
    ∃ n, st.Passed ownerView cfg.chef n run.req.scope run.current.epoch.toNat
  | .handoff _ (.built g) | .materializeBuilt g => st.Publishable ownerView cfg.chef g
  | .handoff _ (.replicatingSource g) | .handoff _ (.replicatingTarget g)
  | .materializeReplicating g _ => g ∈ st.history
  | .handoff _ .committing | .finished _ => True

/-- The cluster follows the history: each node holds what the history says, and every request,
reply and saga rests on published snapshots. -/
structure Tracks (cfg : ClusterConfig) (c : ClusterState) (st : OwnerHistory) : Prop where
  sound : st.Sound ownerView cfg.chef
  nodes : ∀ n, (c.nodes n).HoldsAt n (st.held n)
  fences : ∀ n, st.fence n = (c.nodes n).store.overlayEpoch
  requests : ∀ n g l, (n, .replicateOwnerSnapshot g l) ∈ c.requests →
    g ∈ st.history ∧ localSnapshotFor g l.recipientNode = .ok l
  replies : ∀ n w e r, (n, .prepareHandoff w e, r) ∈ c.replies → isPrepared r = true →
    ∃ scope, fromWire w = some scope ∧
      st.Passed ownerView cfg.chef n scope e.toNat
  sagas : ∀ s ∈ c.sagas, s.Safe cfg st

variable {cfg : ClusterConfig} {c : ClusterState} {st st' : OwnerHistory} {n : NodeId}
  {g : OwnerTermSnapshot} {s : Saga}

omit [Sha256] in
theorem Saga.Replicates.safe_iff (h : s.Replicates g) : s.Safe cfg st ↔ g ∈ st.history := by
  cases h <;> exact Iff.rfl

omit [Sha256] in
theorem Saga.Drafts.safe_iff (h : s.Drafts g) :
    s.Safe cfg st ↔ st.Publishable ownerView cfg.chef g := by
  cases h <;> exact Iff.rfl

omit [Sha256] in
theorem Saga.Safe.mono (h : s.Safe cfg st) (hext : st.Extends ownerView cfg.chef st') :
    s.Safe cfg st' := by
  cases s with
  | handoff run stage =>
    cases stage with
    | preparing => exact h
    | prepared => exact ⟨h.1, h.2.imp fun n hn => hext.passed hn⟩
    | built g => exact Publishable.mono h hext
    | replicatingSource g => exact hext.history g h
    | replicatingTarget g => exact hext.history g h
    | committing => trivial
  | materializeBuilt g => exact Publishable.mono h hext
  | materializeReplicating g peers => exact hext.history g h
  | finished r => trivial

/-! ## Steps of the nodes -/

namespace Tracks

theorem extend (h : Tracks cfg c st) {nodes : NodeId → OwnerNode}
    (hext : st.Extends ownerView cfg.chef st') (hsound : st'.Sound ownerView cfg.chef)
    (hnodes : ∀ n, (nodes n).HoldsAt n (st'.held n))
    (hfences : ∀ n, st'.fence n = (nodes n).store.overlayEpoch) :
    Tracks cfg { c with nodes } st' where
  sound := hsound
  nodes := hnodes
  fences := hfences
  requests n g l hmem := (h.requests n g l hmem).imp_left (hext.history g)
  replies n w e r hmem hr :=
    (h.replies n w e r hmem hr).imp fun _ hs => hs.imp_right fun hpassed => hext.passed hpassed
  sagas s hs := (h.sagas s hs).mono hext

variable {node : OwnerNode} {l : LocalOwnerStateSnapshot}

theorem move (h : Tracks cfg c st) (hat : node.HoldsAt n g) (hg : st.MayMove ownerView.rank n g)
    (hf : KeepsFences ownerView cfg.chef st n node.store.overlayEpoch) :
    ∃ st', Tracks cfg (c.setNode n node) st' ∧ st.Extends ownerView cfg.chef st' ∧
      st'.held n = g ∧ st'.fence n = node.store.overlayEpoch :=
  ⟨st.setNode n g node.store.overlayEpoch, h.extend (h.sound.extends_setNode hg hf)
    (h.sound.setNode hg hf)
    (forall_update (P := fun m (node : OwnerNode) g => node.HoldsAt m g) h.nodes hat)
    (forall_update (P := fun _ f (node : OwnerNode) => f = node.store.overlayEpoch) h.fences rfl),
    h.sound.extends_setNode hg hf, Function.update_self .., Function.update_self ..⟩

theorem keepsFences_of_same (h : Tracks cfg c st)
    (hsame : ∀ k, node.store.overlayEpoch k = (c.nodes n).store.overlayEpoch k) :
    KeepsFences ownerView cfg.chef st n node.store.overlayEpoch := by
  refine .inr fun k t _ _ hfence => ?_
  rwa [hsame, ← h.fences]

theorem movesTo (h : Tracks cfg c st)
    (hmoves : OwnerNode.MovesTo (c.nodes n) node n (st.held n) g) (hg : g ∈ st.history) :
    ∃ st', Tracks cfg (c.setNode n node) st' ∧ st.Extends ownerView cfg.chef st' := by
  obtain ⟨⟨x, hat, hx⟩, hsame⟩ := hmoves
  have hx' : st.MayMove ownerView.rank n x := by
    rcases hx with rfl | ⟨rfl, hlt, -⟩
    · exact .inl rfl
    · exact .inr ⟨hg, UInt64.lt_iff_toNat_lt.1 hlt⟩
  obtain ⟨st', htracks, hext, -⟩ := h.move hat hx' (h.keepsFences_of_same hsame)
  exact ⟨st', htracks, hext⟩

theorem publish (h : Tracks cfg c st) (hat : node.HoldsAt cfg.chef g)
    (hpub : st.Publishable ownerView cfg.chef g)
    (hlt : (st.held cfg.chef).termSnapshotRevision < g.termSnapshotRevision)
    (hsame : ∀ k, node.store.overlayEpoch k = (c.nodes cfg.chef).store.overlayEpoch k) :
    Tracks cfg (c.setNode cfg.chef node) (st.publish cfg.chef g) := by
  obtain ⟨hsound, hext⟩ := h.sound.publish_draft hpub (UInt64.lt_iff_toNat_lt.1 hlt)
  refine h.extend hext hsound
    (forall_update (P := fun m (node : OwnerNode) g => node.HoldsAt m g) h.nodes hat) fun m => ?_
  · by_cases hm : m = cfg.chef
    · subst hm
      rw [Function.update_self, funext hsame]
      exact h.fences cfg.chef
    · simpa [FencedHistory.publish, Function.update_of_ne hm] using h.fences m

theorem install (h : Tracks cfg c st) (hpub : st.Publishable ownerView cfg.chef g)
    (hl : localSnapshotFor g l.recipientNode = .ok l)
    (hcollision : (st.held cfg.chef).termSnapshotRevision = g.termSnapshotRevision →
      (st.held cfg.chef).checksum = g.checksum → st.held cfg.chef = g) :
    ∃ st', Tracks cfg (c.setNode cfg.chef ((c.chefNode cfg).installAndRebuild g l).1) st' ∧
      (((c.chefNode cfg).installAndRebuild g l).2 = true → g ∈ st'.history) := by
  obtain ⟨⟨⟨x, hat, hx⟩, hsame⟩, hok⟩ :=
    (h.nodes cfg.chef).installAndRebuild hl hcollision
  rcases hx with rfl | ⟨rfl, hlt, -⟩
  · obtain ⟨st', htracks, hext, hheld, -⟩ :=
      h.move hat (.inl rfl) (h.keepsFences_of_same hsame)
    refine ⟨st', htracks, fun htrue => ?_⟩
    obtain ⟨_, -, hholds⟩ := (hok htrue).holds
    obtain ⟨_, -, hholds'⟩ := hat.holds
    rw [(hholds.unique hholds').1]
    exact hext.history _ (h.sound.chain.held_mem cfg.chef)
  · exact ⟨_, h.publish hat hpub hlt hsame, fun _ => List.mem_cons_self⟩

theorem prepare (h : Tracks cfg c st) {w : String} {e : UInt64}
    (hprep : (c.nodes n).prepareHandoff w e = .ok node) :
    ∃ st' scope, Tracks cfg (c.setNode n node) st' ∧ st.Extends ownerView cfg.chef st' ∧
      fromWire w = some scope ∧
      st'.Passed ownerView cfg.chef n scope e.toNat := by
  obtain ⟨scope, t, hscope, hterm, rfl, howner, hat, hoverlay⟩ :=
    (h.nodes n).prepareHandoff hprep
  have hkeeps : KeepsFences ownerView cfg.chef st n node.store.overlayEpoch := by
    refine .inr fun k u hu _ hfence => ?_
    rw [hoverlay]
    split_ifs with hk
    · subst hk
      rw [Option.some.inj (hterm.symm.trans hu)]
      rfl
    · rwa [← h.fences]
  obtain ⟨st', htracks, hext, hheld, hfence⟩ := h.move hat (.inl rfl) hkeeps
  refine ⟨st', scope, htracks, hext, hscope, t, hheld ▸ hterm, le_rfl, fun _ => ⟨howner, .inr ?_⟩⟩
  rw [hfence, hoverlay, if_pos rfl]

/-! ## Messages and sagas -/

theorem reply (h : Tracks cfg c st) {request : ControlRequest} {response : ControlResponse}
    (hr : ∀ w e, request = .prepareHandoff w e → isPrepared response = true →
      ∃ scope, fromWire w = some scope ∧
        st.Passed ownerView cfg.chef n scope e.toNat) :
    Tracks cfg { c with replies := (n, request, response) :: c.replies } st where
  sound := h.sound
  nodes := h.nodes
  fences := h.fences
  requests := h.requests
  sagas := h.sagas
  replies m w e r hmem hprep := by
    rcases List.mem_cons.1 hmem with heq | hmem
    · cases heq
      exact hr w e rfl hprep
    · exact h.replies m w e r hmem hprep

theorem post (h : Tracks cfg c st) {request : ControlRequest}
    (hr : ∀ g l, request = .replicateOwnerSnapshot g l →
      g ∈ st.history ∧ localSnapshotFor g l.recipientNode = .ok l) :
    Tracks cfg (c.post n request) st where
  sound := h.sound
  nodes := h.nodes
  fences := h.fences
  replies := h.replies
  sagas := h.sagas
  requests m g l hmem := by
    rcases List.mem_cons.1 hmem with heq | hmem
    · cases heq
      exact hr g l rfl
    · exact h.requests m g l hmem

theorem withSagas (h : Tracks cfg c st) {sagas : List Saga}
    (hs : ∀ s ∈ sagas, s ∈ c.sagas ∨ s.Safe cfg st) : Tracks cfg { c with sagas } st where
  sound := h.sound
  nodes := h.nodes
  fences := h.fences
  requests := h.requests
  replies := h.replies
  sagas s hmem := (hs s hmem).elim (h.sagas s) id

theorem setSaga (h : Tracks cfg c st) {s : Saga} (hs : s.Safe cfg st) (i : Nat) :
    Tracks cfg (c.setSaga i s) st := by
  refine h.withSagas fun x hmem => (List.mem_or_eq_of_mem_set hmem).imp_right fun hx => ?_
  rw [hx]
  exact hs

theorem addSaga (h : Tracks cfg c st) {s : Saga} (hs : s.Safe cfg st) :
    Tracks cfg (c.addSaga s) st := by
  refine h.withSagas fun x hmem => (List.mem_append.1 hmem).imp_right fun hx => ?_
  rw [List.mem_singleton.1 hx]
  exact hs

theorem installed_eq (h : Tracks cfg c st) {installed : OwnerTermSnapshot}
    (hread : (c.chefNode cfg).store.installedOwnerSnapshot = .ok (some (installed, l))) :
    installed = st.held cfg.chef := by
  obtain ⟨_, -, hholds⟩ := (h.nodes cfg.chef).holds
  exact (hholds.of_installed hread).1

/-! ## Drafts -/

theorem publishable_handoff (h : Tracks cfg c st) {run : HandoffRun}
    (hcurrent : (st.held cfg.chef).find run.req.scope = some run.current)
    (hsafe : (Saga.handoff run .prepared).Safe cfg st)
    (hdraft : handoffSnapshot (st.held cfg.chef) run.newTerm = some g) :
    st.Publishable ownerView cfg.chef g := by
  obtain ⟨hepoch, n, hpassed⟩ := hsafe
  obtain ⟨hdraftOf, -, hfind⟩ := handoffSnapshot_eq_some hdraft
  obtain rfl : run.current.ownerNode = n := h.sound.owner_of_passed hcurrent hpassed
  refine .drafted _ (h.sound.chain.held_mem cfg.chef) hdraftOf.revision (fun k t ht => ?_)
    fun k t t' ht ht' hlt => ?_
  · by_cases hk : k = run.req.scope
    · subst hk
      obtain rfl := Option.some.inj (hcurrent.symm.trans ht)
      exact ⟨run.newTerm, (hfind _).trans (if_pos rfl), .inr hepoch⟩
    · exact ⟨t, (hfind k).trans ((if_neg hk).trans ht), .inl rfl⟩
  · by_cases hk : k = run.req.scope
    · subst hk
      obtain rfl := Option.some.inj (hcurrent.symm.trans ht)
      exact hpassed
    · have hsame : g.find k = some t := (hfind k).trans ((if_neg hk).trans ht)
      rw [Option.some.inj (hsame.symm.trans ht')] at hlt
      exact absurd hlt (lt_irrefl _)

theorem publishable_materialize (h : Tracks cfg c st) {agents : List UInt16}
    (hdraft : extendOwnerSnapshotForAgents (st.held cfg.chef) agents cfg.chef = some (g, true)) :
    st.Publishable ownerView cfg.chef g := by
  obtain ⟨hfalse, -⟩ | ⟨-, hdraftOf, hkept⟩ := extendOwnerSnapshotForAgents_eq_some hdraft
  · cases hfalse
  · refine .drafted _ (h.sound.chain.held_mem cfg.chef) hdraftOf.revision
      (fun k t ht => ⟨t, hkept k t ht, .inl rfl⟩) fun k t t' ht ht' hlt => ?_
    rw [Option.some.inj ((hkept k t ht).symm.trans ht')] at hlt
    exact absurd hlt (lt_irrefl _)

theorem noCollision (h : Tracks cfg c st) (hguard : (c.chefNode cfg).NoCollision g)
    (hrev : (st.held cfg.chef).termSnapshotRevision = g.termSnapshotRevision)
    (hsum : (st.held cfg.chef).checksum = g.checksum) : st.held cfg.chef = g := by
  obtain ⟨_, -, hholds⟩ := (h.nodes cfg.chef).holds
  obtain ⟨m, hm, hd⟩ := hholds.marker
  rw [← hholds.storedGlobal hd]
  exact hguard m hm (hd.revision.trans hrev) (hd.global.trans hsum)

/-! ## Every small step keeps the invariant -/

theorem sagaStep_safe (h : Tracks cfg c st) {old new : Saga} (hold : old.Safe cfg st)
    (hstep : SagaStep cfg c old new) : new.Safe cfg st := by
  cases hstep with
  | finish _ r => trivial
  | prepared run hreply =>
    obtain ⟨n, response, hmem, hprep⟩ := c.exists_reply_of_answered cfg hreply
    obtain ⟨scope, hscope, hpassed⟩ := h.replies n _ _ response hmem hprep
    obtain rfl := fromWire_toWire hscope
    exact ⟨hold, n, hpassed⟩
  | replicate g hold' hnew => exact hnew.safe_iff.2 (hold'.safe_iff.1 hold)
  | commit run g => trivial

theorem deliver (h : Tracks cfg c st) {request : ControlRequest}
    (hsent : (n, request) ∈ c.requests) (hguard : HandoffGuard cfg c (.deliver n request)) :
    ∃ st', Tracks cfg (c.deliver n request) st' := by
  rw [ClusterState.deliver, if_pos hsent]
  cases request with
  | ownerCommit w owner epoch =>
    obtain ⟨hat, hoverlay⟩ := (h.nodes n).ownerCommit w owner epoch
    have hkeeps : KeepsFences ownerView cfg.chef st n
        ((c.nodes n).ownerCommit w owner epoch).1.store.overlayEpoch := by
      refine hguard.imp_right fun hretired k t ht _ hfence => ?_
      rcases hoverlay k with heq | ⟨hw, hterm⟩
      · rw [heq, ← h.fences, hfence]
      · -- the commit would clear the fence of a term this node has retired
        obtain rfl := Option.some.inj (hterm.symm.trans ht)
        obtain ⟨_, -, hholds⟩ := (h.nodes n).holds
        refine absurd ⟨k, hw, (hholds.get k).trans hterm, ?_⟩ hretired
        rwa [← h.fences]
    obtain ⟨st', htracks, -⟩ := h.move hat (.inl rfl) hkeeps
    exact ⟨st', htracks.reply fun _ _ h => ControlRequest.noConfusion h⟩
  | replicateOwnerSnapshot g l =>
    obtain ⟨hg, hl⟩ := h.requests n g l hsent
    obtain ⟨st', htracks, -⟩ := h.movesTo ((h.nodes n).replicateOwnerSnapshot hl) hg
    exact ⟨st', htracks.reply fun _ _ h => ControlRequest.noConfusion h⟩
  | prepareHandoff w e =>
    simp only [OwnerNode.handle]
    split
    · rename_i node hprep
      obtain ⟨st', scope, htracks, -, hscope, hpassed⟩ := h.prepare hprep
      refine ⟨st', htracks.reply fun w' e' heq _ => ?_⟩
      cases heq
      exact ⟨scope, hscope, hpassed⟩
    · obtain ⟨st', htracks, -⟩ :=
        h.move (h.nodes n) (.inl rfl) (h.keepsFences_of_same fun _ => rfl)
      exact ⟨st', htracks.reply fun _ _ _ hprep => by cases hprep⟩

theorem installStep (h : Tracks cfg c st) {i : Nat} {saga : Saga}
    (hsaga : c.sagas[i]? = some saga) (hcarries : saga.Drafts g ∨ saga.Replicates g)
    (hl : localSnapshotFor g l.recipientNode = .ok l) (hguard : HandoffGuard cfg c (.advance i)) :
    ∃ st', Tracks cfg (c.setNode cfg.chef ((c.chefNode cfg).installAndRebuild g l).1) st' ∧
      (((c.chefNode cfg).installAndRebuild g l).2 = true → g ∈ st'.history) := by
  have hsafe := h.sagas saga (List.mem_of_getElem? hsaga)
  rcases hcarries with hdrafts | hreplicates
  · have hcollision : (c.chefNode cfg).NoCollision g := by
      have hmay := hguard saga hsaga
      cases hdrafts <;> exact hmay
    exact h.install (hdrafts.safe_iff.1 hsafe) hl (h.noCollision hcollision)
  · have hmem := hreplicates.safe_iff.1 hsafe
    exact h.install (.published hmem) hl fun hrev _ =>
      h.sound.chain.eq_of_rank_eq (h.sound.chain.held_mem _) hmem (congrArg UInt64.toNat hrev)

theorem smallStep (h : Tracks cfg c st) {c' : ClusterState}
    (hstep : SmallStep cfg (HandoffGuard cfg) c c') : ∃ st', Tracks cfg c' st' := by
  cases hstep with
  | restart n =>
    obtain ⟨hat, hstore⟩ := (h.nodes n).restart
    obtain ⟨st', htracks, -⟩ :=
      h.move hat (.inl rfl) (h.keepsFences_of_same fun k => by rw [hstore])
    exact ⟨st', htracks⟩
  | dropSagas => exact ⟨st, h.withSagas (by simp)⟩
  | deliver n request hsent hguard => exact h.deliver hsent hguard
  | saga i hsaga hstep =>
    have hold := h.sagas _ (List.mem_of_getElem? hsaga)
    exact ⟨st, h.setSaga (h.sagaStep_safe hold hstep) i⟩
  | build i run hsaga hread hdraft hguard =>
    obtain rfl := h.installed_eq hread
    obtain ⟨_, -, hholds⟩ := (h.nodes cfg.chef).holds
    have hcurrent : (st.held cfg.chef).find run.req.scope = some run.current :=
      (hholds.get _).symm.trans (hguard _ hsaga)
    have hsafe := h.sagas _ (List.mem_of_getElem? hsaga)
    have hnew := h.publishable_handoff hcurrent hsafe hdraft
    exact ⟨st, h.setSaga (s := .handoff run (.built _)) hnew i⟩
  | prepareLocally i run hsaga hprep =>
    have hsafe := h.sagas _ (List.mem_of_getElem? hsaga)
    obtain ⟨st', scope, htracks, hext, hscope, hpassed⟩ := h.prepare hprep
    obtain rfl := fromWire_toWire hscope
    exact ⟨st', htracks.setSaga (s := .handoff run .prepared) ⟨hsafe, _, hpassed⟩ i⟩
  | commitLocally term =>
    obtain ⟨st', htracks, -⟩ :=
      h.move ((h.nodes cfg.chef).commitLocally term) (.inl rfl) (.inl rfl)
    exact ⟨st', htracks⟩
  | install i hsaga hcarries hl hguard hnext =>
    obtain ⟨st', htracks, hmem⟩ := h.installStep hsaga hcarries hl hguard
    refine ⟨st', htracks.setSaga ?_ i⟩
    rcases hnext with rfl | ⟨hok, hrep⟩
    · trivial
    · exact hrep.safe_iff.2 (hmem hok)
  | addHandoff run _ hepoch =>
    refine ⟨st, h.addSaga ?_⟩
    have := checkedAddOne_eq_some hepoch
    exact (by omega : run.current.epoch.toNat < run.newEpoch.toNat)
  | addMaterialize agents hread hdraft =>
    obtain rfl := h.installed_eq hread
    exact ⟨st, h.addSaga (h.publishable_materialize hdraft)⟩
  | addReplication hread hsaga =>
    obtain rfl := h.installed_eq hread
    refine ⟨st, h.addSaga ?_⟩
    rcases hsaga with hrep | ⟨r, rfl⟩
    · exact hrep.safe_iff.2 (h.sound.chain.held_mem _)
    · trivial
  | sendSnapshot n hl hg =>
    refine ⟨st, h.post fun g' l' heq => ?_⟩
    cases heq
    refine ⟨?_, hl⟩
    rcases hg with ⟨saga, hmem, hrep⟩ | ⟨l', hread⟩
    · exact hrep.safe_iff.1 (h.sagas saga hmem)
    · exact h.installed_eq hread ▸ h.sound.chain.held_mem _
  | sendOther n request hother => exact ⟨st, h.post fun g l heq => absurd heq (hother g l)⟩

end Tracks

/-! ## Runs -/

omit [Sha256] in
def OwnerNode.Issues (node : OwnerNode) (scope : StateTransferScope) : Prop :=
  ∃ guard, node.registry.issue scope = .ok guard

theorem OwnerNode.HoldsAt.issues {node : OwnerNode} (h : node.HoldsAt n g)
    {scope : StateTransferScope} (hissues : node.Issues scope) :
    node.store.overlayEpoch scope = none ∧ ∃ t, g.find scope = some t ∧ t.ownerNode = n := by
  obtain ⟨_, hissue⟩ := hissues
  obtain ⟨hready, hsaga, t, ht, howner⟩ := OwnerRegistry.issue_eq_ok h.synced.mode hissue
  refine ⟨?_, t, (h.synced.terms hready scope).symm.trans ht, howner.trans h.self⟩
  rw [← Option.not_isSome_iff_eq_none]
  exact fun hsome => h.synced.overlays hready scope hsome hsaga

theorem ClusterState.Started.tracks (h : c.Started g) (cfg : ClusterConfig) :
    Tracks cfg c ⟨⟨[g], fun _ => g⟩, fun n => (c.nodes n).store.overlayEpoch⟩ where
  sound := by
    refine ⟨⟨rfl, List.pairwise_singleton _ _, fun _ => List.mem_singleton_self _⟩, ?_⟩
    intro a ha k t ht t' ht' hlt
    rw [List.mem_singleton.1 ha] at ht
    rw [Option.some.inj (ht.symm.trans ht')] at hlt
    exact absurd hlt (lt_irrefl _)
  nodes n := by
    obtain ⟨store, l, hl, hinstalled, hnode⟩ := h.nodes n
    rw [hnode]
    exact OwnerNode.holdsAt_of_installed hl hinstalled
  fences _ := rfl
  requests := by simp [h.requests]
  replies := by simp [h.replies]
  sagas := by simp [h.sagas]

/-- **At most one node issues write guards for a scope**, after every run from a common
snapshot whose steps meet the guard: whatever is lost, delayed, duplicated or reordered, with
any number of sagas and restarts. -/
theorem singleWriter (cfg : ClusterConfig) {c : ClusterState} {g : OwnerTermSnapshot}
    (hstart : c.Started g) {actions : List ClusterAction}
    (hmeets : (clusterMachine cfg).Meets (HandoffGuard cfg) c actions)
    (scope : StateTransferScope) {m n : NodeId}
    (hm : (((clusterMachine cfg).final c actions).nodes m).Issues scope)
    (hn : (((clusterMachine cfg).final c actions).nodes n).Issues scope) : m = n := by
  obtain ⟨st, h⟩ := invariant_of_smallStep (I := fun c => ∃ st, Tracks cfg c st) cfg
    (HandoffGuard cfg) (fun _ _ ⟨_, h⟩ hstep => h.smallStep hstep) ⟨_, hstart.tracks cfg⟩ hmeets
  obtain ⟨hmFence, s, hs, hsm⟩ := (h.nodes m).issues hm
  obtain ⟨hnFence, t, ht, htn⟩ := (h.nodes n).issues hn
  exact h.sound.eq_of_unfenced hs hsm ((congrFun (h.fences m) scope).trans hmFence) ht htn
    ((congrFun (h.fences n) scope).trans hnFence)

/-! ## Two handoffs of one scope -/

end Sha256

instance (node : OwnerNode) (scope : StateTransferScope) : Decidable (node.Issues scope) :=
  match h : node.registry.issue scope with
  | .ok guard => .isTrue ⟨guard, h⟩
  | .error _ => .isFalse fun ⟨_, hok⟩ => nomatch h.symm.trans hok

def firstAgent : StateTransferScope := .nanoContainer "AGENT-01"

def firstAgentTerm (owner : UInt8) (epoch : UInt64) : OwnerTerm :=
  ⟨firstAgent, nodeOf owner, epoch, trackACoordinatorGeneration⟩

/-- The chef owns the scope; then node 2 does, and in the third revision node 3 in the same
epoch. -/
def chefOwns : OwnerTermSnapshot := globalLiteral 1 [firstAgentTerm 1 1]
  0x0ded35a19df9e2fc747941f3f4b049d67fbbd026c61e503f0a2aa40bbc1e3137

def secondOwns : OwnerTermSnapshot := globalLiteral 2 [firstAgentTerm 2 2]
  0xe15afa8c5710060bc1026a41098e618e456351186775cff1c590cda1b4b6dc36

def thirdOwns : OwnerTermSnapshot := globalLiteral 3 [firstAgentTerm 3 2]
  0x94cfd7998bc96b02e8bcdd0eaffb1c49ad3a732c286e0a4b9b22898dda35d804

def chefOwnsAt (n : UInt8) : Nat → LocalOwnerStateSnapshot :=
  localLiteral (nodeOf n) 1 [firstAgentTerm 1 1]

def secondOwnsAt (n : UInt8) : Nat → LocalOwnerStateSnapshot :=
  localLiteral (nodeOf n) 2 [firstAgentTerm 2 2]

def thirdOwnsAt (n : UInt8) : Nat → LocalOwnerStateSnapshot :=
  localLiteral (nodeOf n) 3 [firstAgentTerm 3 2]

def secondOwnsLocal : LocalOwnerStateSnapshot :=
  secondOwnsAt 2 0x1145ec5c9d94a5955ca58528e9e6ffe4459af4f141e9f2983c09829f2ed4ff86

def thirdOwnsLocal : LocalOwnerStateSnapshot :=
  thirdOwnsAt 3 0xf09ef72f7b0449f3b9208270597fd21d7505a203afdbcb201790e03314923b24

@[reducible] def handoffSha256 : Sha256 := sha256OfSnapshots [chefOwns, secondOwns, thirdOwns]
  [chefOwnsAt 1 0x32a909a389a5cfa894df57f2946c98efbe21ae2a71b989cae93243ab1b233f29,
    chefOwnsAt 2 0x39059b15666ad405b9dd2ea3d99cf7cc91a40f87be7acf1b0bf31a990fcbe5be,
    chefOwnsAt 3 0x0455591b7c0918c141bd0ef7a02e6bf7861bad4dbedf232c85329549fcc99296,
    secondOwnsAt 1 0x8970f9d5fd31a00c405c4e4ae266d73604c687f4ccf3d1aa922fd9fe1ff0e58a,
    secondOwnsLocal,
    thirdOwnsAt 1 0x5d2452c2fbcf520b8b02519414f38a76df4be7f84db11428a2b1f23d7b2fc8e7,
    thirdOwnsLocal]

attribute [local instance] handoffSha256

def threeNodes : ClusterConfig := ⟨nodeOf 1, "a", [(nodeOf 2, "b"), (nodeOf 3, "c")]⟩

/-- The chef starts to hand the scope to node 2 and to node 3 before either has moved it. Both
have it retired once and draft epoch 2, one after the other. -/
def racingHandoffs : List ClusterAction :=
  [.startHandoff ⟨firstAgent, "a", "b", nodeOf 2⟩, .startHandoff ⟨firstAgent, "a", "c", nodeOf 3⟩,
    .advance 0, .advance 1, .advance 0, .advance 0,
    .deliver (nodeOf 2) (.replicateOwnerSnapshot secondOwns secondOwnsLocal),
    .advance 1, .advance 1,
    .deliver (nodeOf 3) (.replicateOwnerSnapshot thirdOwns thirdOwnsLocal)]

def afterRace : ClusterState :=
  (clusterMachine threeNodes).final (.boot chefOwns) racingHandoffs

theorem chefOwns_valid : chefOwns.Valid :=
  OwnerTermSnapshot.validate_eq_ok.1 (by decide +kernel : chefOwns.validate = .ok ())

/-- Two nodes issue write guards for one scope in one epoch. -/
theorem two_writers_after_race :
    (ClusterState.boot chefOwns).Started chefOwns ∧
      nodeOf 2 ≠ nodeOf 3 ∧ (afterRace.nodes (nodeOf 2)).Issues firstAgent ∧
      (afterRace.nodes (nodeOf 3)).Issues firstAgent :=
  ⟨ClusterState.boot_started chefOwns_valid rfl, by decide +kernel⟩

def oneHandoff : List ClusterAction :=
  [.startHandoff ⟨firstAgent, "a", "b", nodeOf 2⟩, .advance 0, .advance 0, .advance 0,
    .deliver (nodeOf 2) (.replicateOwnerSnapshot secondOwns secondOwnsLocal)]

theorem one_writer_after_handoff :
    let after := (clusterMachine threeNodes).final (.boot chefOwns) oneHandoff
    (after.nodes (nodeOf 2)).Issues firstAgent ∧
      ∀ n, (after.nodes n).Issues firstAgent → n = nodeOf 2 := by
  have hissues : (((clusterMachine threeNodes).final (.boot chefOwns) oneHandoff).nodes
      (nodeOf 2)).Issues firstAgent := by decide +kernel
  refine ⟨hissues, fun n hn => ?_⟩
  exact singleWriter threeNodes (ClusterState.boot_started chefOwns_valid rfl)
    (by decide +kernel) firstAgent hn hissues

end Sentinel.Cluster

import Sentinel.Cluster.SnapshotRegister
import Mathlib.Data.List.Chain

/-! How far an install sequence protects the fencing epochs. The install transaction compares
the new terms with the rows in the table, so it protects every scope that the snapshot before
it still carries; a scope that was dropped in between has no row to be compared with. -/

namespace Sentinel.Cluster
open Lib ClusterMetaStore
section Sha256

variable [Sha256]

def EpochsKept (old new : OwnerTermSnapshot) : Prop :=
  ∀ t ∈ old.sortedTerms, ∀ t' ∈ new.sortedTerms, t'.scope = t.scope →
    t'.coordinatorGeneration = t.coordinatorGeneration → t.epoch ≤ t'.epoch

def installedGlobals (store : ClusterMetaStore) (calls : List MetaCall) : List OwnerTermSnapshot :=
  (installedPairs store calls).map Prod.fst

/-- Once a term is installed, every later installed term of its scope and generation has at
least its epoch. -/
def EpochsNeverGoBack (installed : List OwnerTermSnapshot) : Prop := installed.Pairwise EpochsKept

/-- A scope that the snapshot before does not carry comes back with an epoch no lower than any
it had in a still earlier snapshot. -/
def ReaddedScopesKeepEpochs (installed : List OwnerTermSnapshot) : Prop :=
  ∀ earlier prev new later, installed = earlier ++ prev :: new :: later →
    ∀ t' ∈ new.sortedTerms, (∀ t ∈ prev.sortedTerms, t.scope ≠ t'.scope) →
      ∀ old ∈ earlier, ∀ t ∈ old.sortedTerms, t.scope = t'.scope → t.epoch ≤ t'.epoch

/-! ## One install -/

def TableOf (store : ClusterMetaStore) (g : OwnerTermSnapshot) : Prop :=
  g.Valid ∧ g.coordinatorGeneration = trackACoordinatorGeneration ∧
    store.clusterOwner = ownerTable g

theorem epochsKept_of_not_movesEpochBack {store : ClusterMetaStore} {g g' : OwnerTermSnapshot}
    (h : TableOf store g) (hgen : g'.coordinatorGeneration = trackACoordinatorGeneration)
    (hback : ¬ store.movesEpochBack g') : EpochsKept g g' := by
  obtain ⟨hvalid, hgen₀, htable⟩ := h
  intro t ht t' ht' hscope _
  rw [← UInt64.not_lt]
  intro hlt
  refine hback ⟨t', ht', t, ?_, ?_, hlt⟩
  · rw [htable, ownerTable_get hvalid, hvalid.find_eq_some]
    exact ⟨ht, hscope.symm⟩
  · rw [hvalid.generations t ht, hgen₀, hgen]

/-! ## Whole runs -/

theorem installedGlobals_cons (store : ClusterMetaStore) (c : MetaCall) (cs : List MetaCall) :
    installedGlobals store (c :: cs) = ((installedPair store c).toList.map Prod.fst) ++
      installedGlobals (metaMachine.call store c).1 cs := by
  simp [installedGlobals, installedPairs]

theorem installedGlobals_valid (store : ClusterMetaStore) (calls : List MetaCall) :
    ∀ g ∈ installedGlobals store calls,
      g.Valid ∧ g.coordinatorGeneration = trackACoordinatorGeneration := by
  induction calls generalizing store with
  | nil => simp [installedGlobals, installedPairs]
  | cons c cs ih =>
    intro g hg
    rw [installedGlobals_cons] at hg
    rcases List.mem_append.1 hg with hg | hg
    · cases metaStep store c with
      | installs g' l' _ hpair hgen _ _ hinstalled =>
        obtain rfl : g = g' := by simpa [hinstalled] using hg
        exact ⟨hpair.globalValid, hgen⟩
      | conflict _ _ _ _ _ hinstalled => simp [hinstalled] at hg
      | keeps _ _ hinstalled => simp [hinstalled] at hg
    · exact ih _ g hg

theorem isChain_installedGlobals (store : ClusterMetaStore) (calls : List MetaCall)
    (prev : Option OwnerTermSnapshot) (h : ∀ g ∈ prev, TableOf store g) :
    List.IsChain EpochsKept (prev.toList ++ installedGlobals store calls) := by
  induction calls generalizing store prev with
  | nil => cases prev <;> simp [installedGlobals, installedPairs]
  | cons c cs ih =>
    rw [installedGlobals_cons]
    cases metaStep store c with
    | installs g l _ hpair hgen _ hepochs hinstalled hcall =>
      have htail := ih (store.replaceSnapshot g l) (some g)
        (by rintro _ ⟨⟩; exact ⟨hpair.globalValid, hgen, rfl⟩)
      rw [hinstalled, hcall]
      cases prev with
      | none => simpa using htail
      | some p =>
        have hkept := epochsKept_of_not_movesEpochBack (h p rfl) hgen hepochs
        simpa using List.IsChain.cons_cons hkept htail
    | conflict _ _ _ _ _ hinstalled hcall =>
      have htable : ∀ g ∈ prev, TableOf (metaMachine.call store c).1 g := by
        intro g hg
        rw [hcall]
        exact h g hg
      simpa [hinstalled] using ih _ prev htable
    | keeps hsame _ hinstalled =>
      have htable : ∀ g ∈ prev, TableOf (metaMachine.call store c).1 g := fun g hg =>
        ⟨(h g hg).1, (h g hg).2.1, hsame.terms.trans (h g hg).2.2⟩
      simpa [hinstalled] using ih _ prev htable

omit [Sha256] in
theorem epochsKept_last {hs : List OwnerTermSnapshot} {new : OwnerTermSnapshot} {gen : UInt64}
    (hgen : ∀ g ∈ hs, ∀ t ∈ g.sortedTerms, t.coordinatorGeneration = gen)
    (hpairs : EpochsNeverGoBack hs) (hchain : List.IsChain EpochsKept (hs ++ [new]))
    (hreadd : ReaddedScopesKeepEpochs (hs ++ [new])) : ∀ old ∈ hs, EpochsKept old new := by
  intro old hold
  obtain ⟨earlier, prev, rfl⟩ : ∃ earlier prev, hs = earlier ++ [prev] :=
    ⟨_, _, (List.dropLast_append_getLast (List.ne_nil_of_mem hold)).symm⟩
  have hlast : EpochsKept prev new := by
    rw [List.append_assoc] at hchain
    exact (List.isChain_append_cons_cons.1 hchain).2.1
  rcases List.mem_append.1 hold with hold | hold
  · intro t ht t' ht' hscope hgen'
    by_cases hdropped : ∀ x ∈ prev.sortedTerms, x.scope ≠ t'.scope
    · exact hreadd earlier prev new [] (by simp) t' ht' hdropped old hold t ht hscope.symm
    · push Not at hdropped
      obtain ⟨x, hx, hxscope⟩ := hdropped
      have hxgen : x.coordinatorGeneration = t.coordinatorGeneration := by
        rw [hgen prev (by simp) x hx, hgen old (by simp [hold]) t ht]
      have hfirst : EpochsKept old prev :=
        (List.pairwise_append.1 hpairs).2.2 old hold prev (by simp)
      have h₁ := hfirst t ht x hx (hxscope.trans hscope) hxgen
      have h₂ := hlast x hx t' ht' hxscope.symm (hgen'.trans hxgen.symm)
      exact UInt64.le_trans h₁ h₂
  · obtain rfl : old = prev := by simpa using hold
    exact hlast

omit [Sha256] in
theorem epochsNeverGoBack_of_chain {hs : List OwnerTermSnapshot} {gen : UInt64}
    (hgen : ∀ g ∈ hs, ∀ t ∈ g.sortedTerms, t.coordinatorGeneration = gen)
    (hchain : List.IsChain EpochsKept hs) (hreadd : ReaddedScopesKeepEpochs hs) :
    EpochsNeverGoBack hs := by
  induction hs using List.reverseRecOn with
  | nil => exact .nil
  | append_singleton hs new ih =>
    have hpre : EpochsNeverGoBack hs := by
      refine ih (fun g hg => hgen g (by simp [hg])) (List.isChain_append.1 hchain).1 ?_
      rintro earlier prev next later rfl
      exact hreadd earlier prev next (later ++ [new]) (by simp)
    refine List.pairwise_append.2 ⟨hpre, List.pairwise_singleton _ _, ?_⟩
    intro old hold x hx
    obtain rfl : x = new := by simpa using hx
    exact epochsKept_last (fun g hg => hgen g (by simp [hg])) hpre hchain hreadd old hold

/-- **Fencing epochs along an install sequence.** From any store, over any sequence of installs
and overlay writes, epochs never go backwards exactly when no installed snapshot brings a
dropped scope back below an epoch it was installed with before. -/
theorem epochsNeverGoBack_iff (store : ClusterMetaStore) (calls : List MetaCall) :
    EpochsNeverGoBack (installedGlobals store calls) ↔
      ReaddedScopesKeepEpochs (installedGlobals store calls) := by
  have hvalid := installedGlobals_valid store calls
  have hgen : ∀ g ∈ installedGlobals store calls, ∀ t ∈ g.sortedTerms,
      t.coordinatorGeneration = trackACoordinatorGeneration := fun g hg t ht =>
    ((hvalid g hg).1.generations t ht).trans (hvalid g hg).2
  constructor
  · intro h earlier prev new later heq t' ht' _ old hold t ht hscope
    have hmem : ∀ g ∈ earlier ++ prev :: new :: later, g ∈ installedGlobals store calls :=
      fun g hg => heq ▸ hg
    rw [heq] at h
    refine (List.pairwise_append.1 h).2.2 old hold new (by simp) t ht t' ht' hscope.symm ?_
    rw [hgen new (hmem new (by simp)) t' ht', hgen old (hmem old (by simp [hold])) t ht]
  · exact epochsNeverGoBack_of_chain hgen (isChain_installedGlobals store calls none (by simp))

end Sha256

/-! ## A scope that is dropped and comes back -/

def agentTerm (epoch : UInt64) : OwnerTerm :=
  ⟨.nanoContainer "AGENT-01", nodeOf 1, epoch, trackACoordinatorGeneration⟩

def scopeAtFive : OwnerTermSnapshot := globalLiteral 1 [agentTerm 5]
  0xe63f8dc836ad481a6d84b86aadf9d4b327f0a95acc326641f1e7537c0e93c154

def scopeDropped : OwnerTermSnapshot := globalLiteral 2 []
  0xb76d92d41466b9e769e526073bd34ebcbd313ee7828c33616a2b93d61b2a59f8

def scopeBackAtOne : OwnerTermSnapshot := globalLiteral 3 [agentTerm 1]
  0x61428ed625470365ac9f84eb8f85345cdb9b7d522ede7329fa44241ecf0f6506

def scopeAtFiveLocal : LocalOwnerStateSnapshot := localLiteral (nodeOf 1) 1 [agentTerm 5]
  0x6e9d777d083a594ec22ed4bb2e3378d04ad1ce67d131cc48c27e31ef1379204c

def scopeDroppedLocal : LocalOwnerStateSnapshot := localLiteral (nodeOf 1) 2 []
  0xca2e5d260a1920cf6c8c0c5b4d3ecb61ff33ba7bc7072cd0dc839db62720f524

def scopeBackAtOneLocal : LocalOwnerStateSnapshot := localLiteral (nodeOf 1) 3 [agentTerm 1]
  0x9f13abcd27a19ff3d477d73895d379ecbbeead2bc9618a4f75a6dca3a2bae18f

@[reducible] def dropSha256 : Sha256 :=
  sha256OfSnapshots [scopeAtFive, scopeDropped, scopeBackAtOne]
    [scopeAtFiveLocal, scopeDroppedLocal, scopeBackAtOneLocal]

attribute [local instance] dropSha256

def dropAndReadd : List MetaCall :=
  [.installOwnerSnapshot scopeAtFive scopeAtFiveLocal,
    .installOwnerSnapshot scopeDropped scopeDroppedLocal,
    .installOwnerSnapshot scopeBackAtOne scopeBackAtOneLocal]

theorem installedGlobals_dropAndReadd :
    installedGlobals .create dropAndReadd = [scopeAtFive, scopeDropped, scopeBackAtOne] := by
  decide +kernel

/-- Revision 1 installs the scope at epoch 5, revision 2 leaves it out, revision 3 installs it
at epoch 1: all three are accepted. -/
theorem readded_scope_goes_back :
    ¬ EpochsNeverGoBack (installedGlobals .create dropAndReadd) := by
  rw [installedGlobals_dropAndReadd]
  intro h
  have hback := (List.pairwise_cons.1 h).1 scopeBackAtOne (by simp) (agentTerm 5)
    (by simp [scopeAtFive, globalLiteral]) (agentTerm 1) (by simp [scopeBackAtOne, globalLiteral])
    rfl rfl
  exact absurd hback (by decide)

end Sentinel.Cluster

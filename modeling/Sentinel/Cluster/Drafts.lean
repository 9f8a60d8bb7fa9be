import Sentinel.Cluster.Handoff
import Sentinel.Lib.FencedHistory

/-! What the snapshots say that the chef drafts: a handoff replaces one term, a materialisation
only adds terms, and either is one revision above the snapshot it was drafted from. -/

namespace Sentinel.Cluster
open Lib

def ownerView : SnapshotView OwnerTermSnapshot StateTransferScope OwnerTerm NodeId where
  find := OwnerTermSnapshot.find
  owner := OwnerTerm.ownerNode
  epoch t := t.epoch.toNat
  rank g := g.termSnapshotRevision.toNat

theorem checkedAddOne_eq_some {v w : UInt64} (h : checkedAddOne v = some w) :
    w.toNat = v.toNat + 1 := by
  unfold checkedAddOne at h
  split_ifs at h with hlt
  cases h
  rw [UInt64.toNat_add]
  exact Nat.mod_eq_of_lt hlt

variable {terms : List OwnerTerm} {g g' : OwnerTermSnapshot} {term : OwnerTerm} {revision : UInt64}

theorem find?_setTerm {terms' : List OwnerTerm} (h : setTerm term terms = some terms') :
    (terms.find? fun t => t.scope = term.scope).isSome ∧
      ∀ k, (terms'.find? fun t => t.scope = k) =
        if k = term.scope then some term else terms.find? fun t => t.scope = k := by
  induction terms generalizing terms' with
  | nil => cases h
  | cons t ts ih =>
    unfold setTerm at h
    split_ifs at h with ht
    · cases h
      refine ⟨by simp [ht], fun k => ?_⟩
      by_cases hk : k = term.scope
      · simp [hk]
      · have hk' : ¬ term.scope = k := fun h => hk h.symm
        simp [hk, hk', ht]
    · obtain ⟨rest, hrest, rfl⟩ := Option.map_eq_some_iff.1 h
      obtain ⟨hsome, hfind⟩ := ih hrest
      refine ⟨by simpa [ht] using hsome, fun k => ?_⟩
      by_cases htk : t.scope = k
      · have hk : k ≠ term.scope := fun h => ht (htk.trans h)
        simp [htk, hk]
      · simp [htk, hfind k]

theorem setTerm_scopes {terms' : List OwnerTerm} (h : setTerm term terms = some terms') :
    terms'.map OwnerTerm.scope = terms.map OwnerTerm.scope ∧
      ∀ t ∈ terms', t = term ∨ t ∈ terms := by
  induction terms generalizing terms' with
  | nil => cases h
  | cons t ts ih =>
    unfold setTerm at h
    split_ifs at h with ht
    · cases h
      exact ⟨by simp [ht], fun u hu => (List.mem_cons.1 hu).imp_right (List.mem_cons_of_mem _)⟩
    · obtain ⟨rest, hrest, rfl⟩ := Option.map_eq_some_iff.1 h
      obtain ⟨hscopes, hmem⟩ := ih hrest
      refine ⟨by simp [hscopes], fun u hu => ?_⟩
      rcases List.mem_cons.1 hu with rfl | hu
      · exact .inr List.mem_cons_self
      · exact (hmem u hu).imp_right (List.mem_cons_of_mem _)

theorem setTerm_isSome (h : (terms.find? fun t => t.scope = term.scope).isSome) :
    ∃ terms', setTerm term terms = some terms' := by
  induction terms with
  | nil => simp at h
  | cons t ts ih =>
    unfold setTerm
    by_cases ht : t.scope = term.scope
    · exact ⟨_, if_pos ht⟩
    · obtain ⟨rest, hrest⟩ := ih (by simpa [ht] using h)
      exact ⟨t :: rest, by simp [ht, hrest]⟩

theorem find?_addAgentTerms {chef : NodeId} {k : StateTransferScope} {t : OwnerTerm}
    (agents : List UInt16) (h : (terms.find? fun t => t.scope = k) = some t) :
    ((addAgentTerms chef terms agents).find? fun t => t.scope = k) = some t := by
  induction agents generalizing terms with
  | nil => exact h
  | cons id ids ih =>
    rw [addAgentTerms, List.foldl_cons]
    refine ih ?_
    dsimp only
    split_ifs
    · exact h
    · rw [List.find?_append, h, Option.some_or]

variable [Sha256]

theorem OwnerTermSnapshot.find_new {generation : UInt64}
    (h : new generation revision terms = .ok g) (k : StateTransferScope) :
    g.find k = terms.find? fun t => t.scope = k := by
  obtain ⟨hvalid, -, -, hterms⟩ := new_eq_ok h
  have hnodup : (terms.map OwnerTerm.scope).Nodup := by
    have hsorted := hvalid.sorted.nodup
    rw [hterms] at hsorted
    exact ((List.perm_insertionSort _ terms).map _).nodup_iff.1 hsorted
  ext t
  rw [hvalid.find_eq_some, find?_key_eq_some_iff hnodup, hterms, mem_sortByWire]

omit [Sha256] in
theorem putTerm_isOk_of_scope {t u : OwnerTerm} (hscope : u.scope = t.scope)
    (h : ∃ bytes, putTerm u = .ok bytes) : ∃ bytes, putTerm t = .ok bytes := by
  obtain ⟨bytes, hbytes⟩ := h
  obtain ⟨scope, hscope', -⟩ := bind_eq_ok.1 hbytes
  exact ⟨_, bind_eq_ok.2 ⟨scope, hscope ▸ hscope', rfl⟩⟩

theorem OwnerTermSnapshot.Valid.new_of_scopes (hg : g.Valid) {generation : UInt64}
    (hscopes : terms.map OwnerTerm.scope = g.sortedTerms.map OwnerTerm.scope)
    (hgen : ∀ t ∈ terms, t.coordinatorGeneration = generation) :
    ∃ g', new generation revision terms = .ok g' := by
  have hsorted : SortedByWire OwnerTerm.scope terms := by
    have hwires : (g.sortedTerms.map OwnerTerm.scope).Pairwise fun a b => a.toWire < b.toWire :=
      List.pairwise_map.2 hg.sorted
    rw [← hscopes] at hwires
    exact (List.pairwise_map (f := OwnerTerm.scope)).1 hwires
  obtain ⟨payload, hpayload, -⟩ := hg.checksum
  simp only [canonicalPayload, bind_eq_ok] at hpayload
  obtain ⟨len, hlen, rows, hrows, -⟩ := hpayload
  have hlength : terms.length = g.sortedTerms.length := by
    simpa using congrArg List.length hscopes
  have hput : ∀ t ∈ terms, ∃ bytes, putTerm t = .ok bytes := by
    intro t ht
    have hmem : t.scope ∈ g.sortedTerms.map OwnerTerm.scope := hscopes ▸ List.mem_map_of_mem ht
    obtain ⟨u, hu, hscope⟩ := List.mem_map.1 hmem
    exact putTerm_isOk_of_scope hscope (mapAll_isOk_iff.1 ⟨rows, hrows⟩ u hu)
  obtain ⟨rows', hrows'⟩ := mapAll_isOk_iff.2 hput
  obtain ⟨bytes, hbytes⟩ : ∃ bytes, canonicalPayload ⟨ownerSnapshotSchemaVersion, generation,
      revision, terms, Vector.replicate 32 0⟩ = .ok bytes :=
    ⟨_, bind_eq_ok.2 ⟨len, hlength ▸ hlen, bind_eq_ok.2 ⟨rows', hrows', rfl⟩⟩⟩
  simp only [new, sortByWire_of_sorted hsorted, bind_eq_ok]
  exact ⟨_, (), validateRows_eq_ok.2 ⟨rfl, hsorted, hgen⟩, bytes, hbytes, rfl⟩

structure DraftOf (g g' : OwnerTermSnapshot) : Prop where
  valid : g'.Valid
  generation : g'.coordinatorGeneration = trackACoordinatorGeneration
  revision : g'.termSnapshotRevision.toNat = g.termSnapshotRevision.toNat + 1

theorem draftOf_new (hrev : checkedAddOne g.termSnapshotRevision = some revision)
    (h : OwnerTermSnapshot.new trackACoordinatorGeneration revision terms = .ok g') :
    DraftOf g g' := by
  obtain ⟨hvalid, hgen, hrevision, -⟩ := OwnerTermSnapshot.new_eq_ok h
  exact ⟨hvalid, hgen, by rw [hrevision, checkedAddOne_eq_some hrev]⟩

theorem handoffSnapshot_eq_some (h : handoffSnapshot g term = some g') :
    DraftOf g g' ∧ (g.find term.scope).isSome ∧
      ∀ k, g'.find k = if k = term.scope then some term else g.find k := by
  simp only [handoffSnapshot, Option.bind_eq_bind, Option.bind_eq_some_iff] at h
  obtain ⟨terms, hterms, revision, hrev, h⟩ := h
  have hnew := toOption_eq_some.1 h
  obtain ⟨hsome, hfind⟩ := find?_setTerm hterms
  refine ⟨draftOf_new hrev hnew, hsome, fun k => ?_⟩
  rw [OwnerTermSnapshot.find_new hnew, hfind]
  rfl

theorem OwnerTermSnapshot.Valid.handoffSnapshot_isSome (hg : g.Valid)
    (hgen : g.coordinatorGeneration = trackACoordinatorGeneration)
    (hterm : term.coordinatorGeneration = trackACoordinatorGeneration)
    (hscope : (g.find term.scope).isSome) (hrev : g.termSnapshotRevision.toNat + 1 < 2 ^ 64) :
    ∃ g', handoffSnapshot g term = some g' := by
  obtain ⟨terms, hterms⟩ := setTerm_isSome hscope
  obtain ⟨hscopes, hmem⟩ := setTerm_scopes hterms
  have hgens : ∀ t ∈ terms, t.coordinatorGeneration = trackACoordinatorGeneration := by
    intro t ht
    rcases hmem t ht with rfl | ht
    · exact hterm
    · rw [hg.generations t ht, hgen]
  obtain ⟨g', hg'⟩ : ∃ g', OwnerTermSnapshot.new trackACoordinatorGeneration
      (g.termSnapshotRevision + 1) terms = .ok g' := hg.new_of_scopes hscopes hgens
  refine ⟨g', ?_⟩
  simp only [handoffSnapshot, Option.bind_eq_bind, Option.bind_eq_some_iff]
  exact ⟨terms, hterms, _, if_pos hrev, toOption_eq_some.2 hg'⟩

theorem extendOwnerSnapshotForAgents_eq_some {agents : List UInt16} {chef : NodeId}
    {extended : Bool} (h : extendOwnerSnapshotForAgents g agents chef = some (g', extended)) :
    extended = false ∧ g' = g ∨
      extended = true ∧ DraftOf g g' ∧ ∀ k t, g.find k = some t → g'.find k = some t := by
  unfold extendOwnerSnapshotForAgents at h
  dsimp only at h
  split_ifs at h
  · cases h
    exact .inl ⟨rfl, rfl⟩
  · simp only [Option.bind_eq_bind, Option.bind_eq_some_iff] at h
    obtain ⟨revision, hrev, global, hglobal, h⟩ := h
    cases h
    have hnew := toOption_eq_some.1 hglobal
    refine .inr ⟨rfl, draftOf_new hrev hnew, fun k t ht => ?_⟩
    rw [OwnerTermSnapshot.find_new hnew]
    exact find?_addAgentTerms agents ht

end Sentinel.Cluster

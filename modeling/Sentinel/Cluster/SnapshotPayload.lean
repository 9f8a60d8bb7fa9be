import Sentinel.Cluster.RegistryFence
import Sentinel.Lib.Delimited

/-! What the canonical payload of an owner snapshot says about it (`sentinel-common`, module
`fencing`): a payload has one snapshot, and `OwnerTermSnapshot::new` depends on the set of its
rows only. An accepted pair of snapshots has one set of terms. -/

namespace Sentinel.Cluster
open Lib OwnerTermSnapshot List LocalOwnerBaseState

/-! ## Fields -/

theorem delimited_asBytes : Delimited fun (n : NodeId) x => x = n.asBytes := by
  refine delimited_of_length (n := 16) (fun n => length_beBytes _ _) fun a b h => ?_
  have hlt : ∀ n : NodeId, n.uuid.toNat < 256 ^ 16 := fun n => n.uuid.isLt
  have huuid : a.uuid.toNat = b.uuid.toNat := beBytes_inj (hlt a) (hlt b) h
  cases a
  cases b
  exact congrArg NodeId.mk (BitVec.eq_of_toNat_eq huuid)

theorem delimited_putU32 : Delimited fun v x => x = putU32 v :=
  delimited_of_length (fun _ => length_beBytes _ _)
    fun a b h => UInt32.toNat_inj.1 (beBytes_inj a.toNat_lt b.toNat_lt h)

theorem delimited_putU64 : Delimited fun v x => x = putU64 v :=
  delimited_of_length (fun _ => length_beBytes _ _)
    fun a b h => UInt64.toNat_inj.1 (beBytes_inj a.toNat_lt b.toNat_lt h)

theorem putLen_eq_ok {len : ℕ} {x : List UInt8} :
    putLen len = .ok x ↔ len < 256 ^ 4 ∧ x = beBytes 4 len := by
  unfold putLen
  split_ifs with h
  · exact ⟨fun hx => ⟨h, (Except.ok.inj hx).symm⟩, fun hx => congrArg Except.ok hx.2.symm⟩
  · exact ⟨fun hx => (nomatch hx), fun hx => absurd hx.1 h⟩

theorem delimited_putLen : Delimited fun len x => putLen len = .ok x := by
  simp only [putLen_eq_ok]
  exact delimited_beBytes 4

theorem putScope_eq_ok {scope : StateTransferScope} {x : List UInt8} :
    putScope scope = .ok x ↔ (utf8Bytes scope.toWire).length < 256 ^ 4 ∧
      x = beBytes 4 (utf8Bytes scope.toWire).length ++ utf8Bytes scope.toWire := by
  simp only [putScope, bind_eq_ok, putLen_eq_ok, Except.ok.injEq]
  constructor
  · rintro ⟨len, ⟨hlt, rfl⟩, rfl⟩
    exact ⟨hlt, rfl⟩
  · rintro ⟨hlt, rfl⟩
    exact ⟨_, ⟨hlt, rfl⟩, rfl⟩

theorem delimited_putScope : Delimited fun scope x => putScope scope = .ok x := by
  simp only [putScope_eq_ok]
  exact delimited_counted (delimited_beBytes 4)
    (utf8Bytes_injective.comp StateTransferScope.toWire_injective)

theorem delimited_putTerm : Delimited fun term x => putTerm term = .ok x := by
  intro a b x y r s ha hb h
  simp only [putTerm, bind_eq_ok, Except.ok.injEq] at ha hb
  obtain ⟨sa, hsa, rfl⟩ := ha
  obtain ⟨sb, hsb, rfl⟩ := hb
  simp only [append_assoc] at h
  obtain ⟨hscope, h⟩ := delimited_putScope hsa hsb h
  obtain ⟨hnode, h⟩ := delimited_asBytes rfl rfl h
  obtain ⟨hepoch, h⟩ := delimited_putU64 rfl rfl h
  obtain ⟨hgen, hrs⟩ := delimited_putU64 rfl rfl h
  cases a
  cases b
  exact ⟨OwnerTerm.mk.injEq .. ▸ ⟨hscope, hnode, hepoch, hgen⟩, hrs⟩

theorem LocalOwnerBaseRole.code_injective : Function.Injective LocalOwnerBaseRole.code := by
  intro a b h
  cases a <;> cases b <;> first | rfl | exact absurd h (by decide)

theorem ActivationState.code_injective : Function.Injective ActivationState.code := by
  intro a b h
  cases a <;> cases b <;> first | rfl | exact absurd h (by decide)

theorem delimited_putBaseState : Delimited fun state x => putBaseState state = .ok x := by
  intro a b x y r s ha hb h
  simp only [putBaseState, bind_eq_ok, Except.ok.injEq] at ha hb
  obtain ⟨sa, hsa, ta, hta, rfl⟩ := ha
  obtain ⟨sb, hsb, tb, htb, rfl⟩ := hb
  simp only [append_assoc, cons_append, nil_append] at h
  obtain ⟨hscope, h⟩ := delimited_putScope hsa hsb h
  obtain ⟨hnode, h⟩ := delimited_asBytes rfl rfl h
  obtain ⟨hterm, h⟩ := delimited_putTerm hta htb h
  obtain ⟨hrole, h⟩ := List.cons.inj h
  obtain ⟨hact, hrs⟩ := List.cons.inj h
  cases a
  cases b
  exact ⟨LocalOwnerBaseState.mk.injEq .. ▸ ⟨hscope, hnode, hterm,
    LocalOwnerBaseRole.code_injective hrole, ActivationState.code_injective hact⟩, hrs⟩

/-! ## Snapshots -/

theorem OwnerTermSnapshot.fields_of_canonicalPayload {s t : OwnerTermSnapshot}
    {payload : List UInt8} (hs : s.canonicalPayload = .ok payload)
    (ht : t.canonicalPayload = .ok payload) :
    s.schemaVersion = t.schemaVersion ∧ s.coordinatorGeneration = t.coordinatorGeneration ∧
      s.termSnapshotRevision = t.termSnapshotRevision ∧ s.sortedTerms = t.sortedTerms := by
  simp only [canonicalPayload, bind_eq_ok, Except.ok.injEq] at hs ht
  obtain ⟨ls, hls, rs, hrs, rfl⟩ := hs
  obtain ⟨lt, hlt, rt, hrt, h⟩ := ht
  simp only [append_assoc] at h
  obtain ⟨hschema, h⟩ := delimited_putU32 rfl rfl h
  obtain ⟨hgen, h⟩ := delimited_putU64 rfl rfl h
  obtain ⟨hrev, h⟩ := delimited_putU64 rfl rfl h
  obtain ⟨hlen, h⟩ := delimited_putLen hlt hls h
  have hrows := delimited_putTerm.flatten (r := []) (s := []) (forall₂_of_mapAll hrt)
    (forall₂_of_mapAll hrs) hlen (by rw [h])
  exact ⟨hschema.symm, hgen.symm, hrev.symm, hrows.1.symm⟩

theorem LocalOwnerStateSnapshot.fields_of_canonicalPayload {s t : LocalOwnerStateSnapshot}
    {payload : List UInt8} (hs : s.canonicalPayload = .ok payload)
    (ht : t.canonicalPayload = .ok payload) :
    s.schemaVersion = t.schemaVersion ∧ s.recipientNode = t.recipientNode ∧
      s.coordinatorGeneration = t.coordinatorGeneration ∧
      s.termSnapshotRevision = t.termSnapshotRevision ∧
      s.sortedBaseStates = t.sortedBaseStates := by
  simp only [canonicalPayload, bind_eq_ok, Except.ok.injEq] at hs ht
  obtain ⟨ls, hls, rs, hrs, rfl⟩ := hs
  obtain ⟨lt, hlt, rt, hrt, h⟩ := ht
  simp only [append_assoc] at h
  obtain ⟨hschema, h⟩ := delimited_putU32 rfl rfl h
  obtain ⟨hnode, h⟩ := delimited_asBytes rfl rfl h
  obtain ⟨hgen, h⟩ := delimited_putU64 rfl rfl h
  obtain ⟨hrev, h⟩ := delimited_putU64 rfl rfl h
  obtain ⟨hlen, h⟩ := delimited_putLen hlt hls h
  have hrows := delimited_putBaseState.flatten (r := []) (s := []) (forall₂_of_mapAll hrt)
    (forall₂_of_mapAll hrs) hlen (by rw [h])
  exact ⟨hschema.symm, hnode.symm, hgen.symm, hrev.symm, hrows.1.symm⟩

/-! ## Construction from rows in any order -/

variable {α : Type}

theorem sortByWire_perm (scope : α → StateTransferScope) (rows : List α) :
    (sortByWire scope rows).Perm rows := perm_insertionSort _ _

theorem keys_sortByWire_of_perm (scope : α → StateTransferScope) {rows rows' : List α}
    (h : rows.Perm rows') : (sortByWire scope rows).map (fun r => (scope r).toWire) =
      (sortByWire scope rows').map (fun r => (scope r).toWire) := by
  have hsorted : ∀ l : List α,
      ((sortByWire scope l).map fun r => (scope r).toWire).Pairwise (· ≤ ·) := by
    intro l
    have hle := pairwise_insertionSort (fun a b => (scope a).toWire ≤ (scope b).toWire) l
    exact pairwise_map.2 hle
  refine List.Perm.eq_of_pairwise (fun a b _ _ => le_antisymm) (hsorted rows) (hsorted rows') ?_
  exact (((sortByWire_perm scope rows).trans h).trans (sortByWire_perm scope rows').symm).map _

theorem sortByWire_of_perm {scope : α → StateTransferScope} {rows rows' : List α}
    (h : rows.Perm rows') (hnodup : (rows.map scope).Nodup) :
    sortByWire scope rows = sortByWire scope rows' := by
  -- equal keys in both lists mean equal rows, as no two rows of the list share a key
  have hperm := (sortByWire_perm scope rows).trans (h.trans (sortByWire_perm scope rows').symm)
  have hle := pairwise_insertionSort (fun a b => (scope a).toWire ≤ (scope b).toWire)
  refine List.Perm.eq_of_pairwise ?_ (hle rows) (hle rows') hperm
  intro a b ha hb hab hba
  have hscope : scope a = scope b :=
    StateTransferScope.toWire_injective (le_antisymm hab hba)
  have hmem : ∀ x ∈ sortByWire scope rows', x ∈ rows := fun x hx =>
    h.mem_iff.2 (mem_sortByWire.1 hx)
  exact inj_on_of_nodup_map hnodup (mem_sortByWire.1 ha) (hmem b hb) hscope

theorem sortedByWire_iff_keys {scope : α → StateTransferScope} {rows : List α} :
    SortedByWire scope rows ↔ (rows.map fun r => (scope r).toWire).Pairwise (· < ·) :=
  pairwise_map.symm

theorem sortedByWire_sortByWire {scope : α → StateTransferScope} {rows : List α} :
    SortedByWire scope (sortByWire scope rows) ↔ (rows.map scope).Nodup := by
  have hperm := (sortByWire_perm scope rows).map scope
  constructor
  · intro h
    exact hperm.nodup_iff.1 h.nodup
  · intro h
    have hle := pairwise_insertionSort (fun a b => (scope a).toWire ≤ (scope b).toWire) rows
    have hne : (sortByWire scope rows).Pairwise fun a b => scope a ≠ scope b :=
      pairwise_map.1 (hperm.nodup_iff.2 h)
    refine (hle.and hne).imp fun {a b} hab => ?_
    exact lt_of_le_of_ne hab.1 fun heq => hab.2 (StateTransferScope.toWire_injective heq)

theorem checkRowOrder_congr {scope : α → StateTransferScope} {rows rows' : List α}
    (h : (rows.map fun r => (scope r).toWire) = rows'.map fun r => (scope r).toWire) :
    checkRowOrder scope rows = checkRowOrder scope rows' := by
  have hsorted : rowsAreStrictlySorted scope rows = rowsAreStrictlySorted scope rows' := by
    rw [Bool.eq_iff_iff, rowsAreStrictlySorted_iff, rowsAreStrictlySorted_iff,
      sortedByWire_iff_keys, sortedByWire_iff_keys, h]
  unfold checkRowOrder
  rw [hsorted, h]

theorem putTerm_isOk_iff {term : OwnerTerm} :
    (∃ x, putTerm term = .ok x) ↔ (utf8Bytes term.scope.toWire).length < 2 ^ 32 := by
  simp only [putTerm, bind_eq_ok, putScope_eq_ok]
  constructor
  · rintro ⟨x, sc, ⟨hlt, -⟩, -⟩
    exact hlt
  · intro hlt
    exact ⟨_, _, ⟨hlt, rfl⟩, rfl⟩

theorem OwnerTermSnapshot.canonicalPayload_isOk_iff {s : OwnerTermSnapshot} :
    (∃ payload, s.canonicalPayload = .ok payload) ↔ s.sortedTerms.length < 2 ^ 32 ∧
      ∀ t ∈ s.sortedTerms, (utf8Bytes t.scope.toWire).length < 2 ^ 32 := by
  simp only [← putTerm_isOk_iff, ← mapAll_isOk_iff, canonicalPayload, bind_eq_ok, putLen_eq_ok]
  constructor
  · rintro ⟨payload, len, ⟨hlen, -⟩, rows, hrows, -⟩
    exact ⟨hlen, rows, hrows⟩
  · rintro ⟨hlen, rows, hrows⟩
    exact ⟨_, _, ⟨hlen, rfl⟩, rows, hrows, rfl⟩

variable [Sha256]

theorem OwnerTermSnapshot.Valid.eq_of_payload {s t : OwnerTermSnapshot} (hs : s.Valid)
    (ht : t.Valid) (h : s.canonicalPayload = t.canonicalPayload) : s = t := by
  obtain ⟨p, hp, hsum⟩ := hs.checksum
  obtain ⟨q, hq, hsum'⟩ := ht.checksum
  have hpq : p = q := Except.ok.inj (hp.symm.trans (h.trans hq))
  subst hpq
  obtain ⟨hschema, hgen, hrev, hrows⟩ := fields_of_canonicalPayload hp hq
  cases s
  cases t
  exact mk.injEq .. ▸ ⟨hschema, hgen, hrev, hrows, hsum.symm.trans hsum'⟩

theorem LocalOwnerStateSnapshot.Valid.eq_of_payload {s t : LocalOwnerStateSnapshot}
    (hs : s.Valid) (ht : t.Valid) (h : s.canonicalPayload = t.canonicalPayload) : s = t := by
  obtain ⟨p, hp, hsum⟩ := hs.checksum
  obtain ⟨q, hq, hsum'⟩ := ht.checksum
  have hpq : p = q := Except.ok.inj (hp.symm.trans (h.trans hq))
  subst hpq
  obtain ⟨hschema, hnode, hgen, hrev, hrows⟩ := fields_of_canonicalPayload hp hq
  cases s
  cases t
  exact LocalOwnerStateSnapshot.mk.injEq .. ▸
    ⟨hschema, hnode, hgen, hrev, hrows, hsum.symm.trans hsum'⟩

theorem OwnerTermSnapshot.new_of_perm {terms terms' : List OwnerTerm} (h : terms.Perm terms')
    (generation revision : UInt64) :
    new generation revision terms = new generation revision terms' := by
  by_cases hnodup : (terms.map OwnerTerm.scope).Nodup
  · unfold new
    rw [sortByWire_of_perm h hnodup]
  · -- both fail in the order check, at the same repeated key
    have hcheck := checkRowOrder_congr (keys_sortByWire_of_perm OwnerTerm.scope h)
    cases hfirst : checkRowOrder OwnerTerm.scope (sortByWire OwnerTerm.scope terms) with
    | ok u => exact absurd (sortedByWire_sortByWire.1 (checkRowOrder_eq_ok.1 hfirst)) hnodup
    | error e => simp [new, validateRows, ← hcheck, hfirst, ensure, bind, Except.bind]

theorem OwnerTermSnapshot.new_isOk_iff {generation revision : UInt64} {terms : List OwnerTerm} :
    (∃ g, new generation revision terms = .ok g) ↔ (terms.map OwnerTerm.scope).Nodup ∧
      (∀ t ∈ terms, t.coordinatorGeneration = generation) ∧ terms.length < 2 ^ 32 ∧
      ∀ t ∈ terms, (utf8Bytes t.scope.toWire).length < 2 ^ 32 := by
  have hlength : (sortByWire OwnerTerm.scope terms).length = terms.length :=
    (sortByWire_perm _ terms).length_eq
  simp only [new, bind_eq_ok, validateRows_eq_ok, sortedByWire_sortByWire, mem_sortByWire]
  constructor
  · rintro ⟨g, _, ⟨-, hnodup, hgen⟩, payload, hpayload, -⟩
    obtain ⟨hlen, hscopes⟩ := canonicalPayload_isOk_iff.1 ⟨payload, hpayload⟩
    simp only [hlength, mem_sortByWire] at hlen hscopes
    exact ⟨hnodup, hgen, hlen, hscopes⟩
  · rintro ⟨hnodup, hgen, hlen, hscopes⟩
    obtain ⟨payload, hpayload⟩ := (canonicalPayload_isOk_iff (s :=
      ⟨ownerSnapshotSchemaVersion, generation, revision, sortByWire OwnerTerm.scope terms,
        Vector.replicate 32 0⟩)).2 (by simpa only [hlength, mem_sortByWire] using ⟨hlen, hscopes⟩)
    exact ⟨_, (), ⟨trivial, hnodup, hgen⟩, payload, hpayload, rfl⟩

/-- **Payloads identify snapshots.** Validated snapshots with one payload are equal, and `new`
gives one result for all orders of its rows: an error exactly when a scope is repeated, a row has
another generation, or a count does not fit the 32 bits of the codec. -/
theorem snapshot_payloads_identify :
    (∀ s t : OwnerTermSnapshot, s.validate = .ok () → t.validate = .ok () →
      s.canonicalPayload = t.canonicalPayload → s = t) ∧
    (∀ s t : LocalOwnerStateSnapshot, s.validate = .ok () → t.validate = .ok () →
      s.canonicalPayload = t.canonicalPayload → s = t) ∧
    (∀ (generation revision : UInt64) (terms terms' : List OwnerTerm), terms.Perm terms' →
      OwnerTermSnapshot.new generation revision terms =
        OwnerTermSnapshot.new generation revision terms') ∧
    ∀ (generation revision : UInt64) (terms : List OwnerTerm),
      (∃ e, OwnerTermSnapshot.new generation revision terms = .error e) ↔
        ¬ (terms.map OwnerTerm.scope).Nodup ∨
        (∃ t ∈ terms, t.coordinatorGeneration ≠ generation) ∨ 2 ^ 32 ≤ terms.length ∨
        ∃ t ∈ terms, 2 ^ 32 ≤ (utf8Bytes t.scope.toWire).length := by
  refine ⟨fun s t hs ht h => ?_, fun s t hs ht h => ?_, fun gen rev terms terms' h => ?_,
    fun gen rev terms => ?_⟩
  · exact (validate_eq_ok.1 hs).eq_of_payload (validate_eq_ok.1 ht) h
  · exact (LocalOwnerStateSnapshot.validate_eq_ok.1 hs).eq_of_payload
      (LocalOwnerStateSnapshot.validate_eq_ok.1 ht) h
  · exact new_of_perm h gen rev
  · have hfails : (∃ e, new gen rev terms = .error e) ↔ ¬ ∃ g, new gen rev terms = .ok g := by
      cases new gen rev terms <;> simp
    rw [hfails, new_isOk_iff]
    simp only [not_and_or, not_forall, not_lt, exists_prop]

omit [Sha256] in
/-- A world term and an agent's, in both orders. -/
theorem two_rows_one_payload :
    let _ := Sha2.instSha256
    let world := OwnerRegistry.worldTerm (nodeOf 1)
    let agent : OwnerTerm := ⟨.nanoContainer "AGENT-01", nodeOf 1, 1, trackACoordinatorGeneration⟩
    [world, agent].Perm [agent, world] ∧
      OwnerTermSnapshot.new 1 1 [world, agent] = OwnerTermSnapshot.new 1 1 [agent, world] := by
  intro _ world agent
  have hperm : [world, agent].Perm [agent, world] := List.Perm.swap _ _ _
  exact ⟨hperm, snapshot_payloads_identify.2.2.1 1 1 _ _ hperm⟩

omit [Sha256] in
theorem length_utf8Bytes_nano (n : ℕ) : (utf8Bytes
    (StateTransferScope.nanoContainer (String.ofList (List.replicate n 'a'))).toWire).length =
      5 + n := by
  have hnano : ("nano:".toList.flatMap String.utf8EncodeChar).length = 5 := by decide
  have hone : (String.utf8EncodeChar 'a').length = 1 := by decide
  rw [StateTransferScope.toWire, utf8Bytes, String.toList_append, flatMap_append,
    length_append, hnano, String.toList_ofList, length_flatMap, map_replicate,
    sum_replicate_nat, hone, Nat.mul_one]

def longScopeTerm : OwnerTerm :=
  ⟨.nanoContainer (String.ofList (List.replicate (2 ^ 32) 'a')), nodeOf 1, 1,
    trackACoordinatorGeneration⟩

omit [Sha256] in
/-- `new` fails on a single row of the right generation. -/
theorem new_fails_on_longScopeTerm :
    let _ := Sha2.instSha256
    (∃ e, OwnerTermSnapshot.new trackACoordinatorGeneration 1 [longScopeTerm] = .error e) ∧
      ([longScopeTerm].map OwnerTerm.scope).Nodup ∧
      ∀ t ∈ [longScopeTerm], t.coordinatorGeneration = trackACoordinatorGeneration := by
  intro _
  refine ⟨?_, nodup_singleton _, fun t ht => ?_⟩
  · cases hnew : new trackACoordinatorGeneration 1 [longScopeTerm] with
    | error e => exact ⟨e, rfl⟩
    | ok g =>
      obtain ⟨-, -, -, hfits⟩ := new_isOk_iff.1 ⟨g, hnew⟩
      have hlt := hfits longScopeTerm mem_cons_self
      rw [longScopeTerm, length_utf8Bytes_nano] at hlt
      omega
  · rw [mem_singleton.1 ht]
    rfl

/-! ## Pairs -/

section Pairs
variable {g : OwnerTermSnapshot} {l : LocalOwnerStateSnapshot}

theorem PairValid.terms_sorted (h : PairValid g l) :
    SortedByWire OwnerTerm.scope (l.sortedBaseStates.map ownerTerm) := by
  refine pairwise_map.2 (h.localValid.sorted.imp_of_mem fun {a b} ha hb hab => ?_)
  rw [(h.localValid.rows a ha).2.1, (h.localValid.rows b hb).2.1]
  exact hab

theorem PairValid.terms_eq (h : PairValid g l) :
    l.sortedBaseStates.map LocalOwnerBaseState.ownerTerm = g.sortedTerms := by
  have hsorted := h.terms_sorted
  have hnodup := List.Nodup.of_map OwnerTerm.scope hsorted.nodup
  have hsubset : l.sortedBaseStates.map ownerTerm ⊆ g.sortedTerms := by
    intro t ht
    obtain ⟨r, hr, rfl⟩ := mem_map.1 ht
    exact (h.globalValid.find_eq_some.1 (h.rows r hr).1).1
  have hlength : g.sortedTerms.length ≤
      (l.sortedBaseStates.map ownerTerm).length := by
    rw [length_map, h.length]
  have hperm := (subperm_of_subset hnodup hsubset).perm_of_length_le hlength
  exact hperm.eq_of_pairwise (fun _ _ _ _ hab hba => absurd hba (lt_asymm hab)) hsorted
    h.globalValid.sorted

theorem PairValid.scopes_eq (h : PairValid g l) :
    l.sortedBaseStates.map LocalOwnerBaseState.scope = g.sortedTerms.map OwnerTerm.scope := by
  rw [← h.terms_eq, map_map]
  exact map_congr_left fun r hr => (h.localValid.rows r hr).2.1.symm

end Pairs

/-- **Local halves install.** The half that the chef derives from a valid global snapshot for any
node is accepted with it; and in every accepted pair both sides have the same scopes and terms,
in the same order, the recipient is the owner of exactly its own scopes, and no follower is
routable. -/
theorem local_snapshots_install :
    (∀ (g : OwnerTermSnapshot) (n : NodeId), g.validate = .ok () →
      ∃ l, localSnapshotFor g n = .ok l ∧ l.recipientNode = n ∧
        validateOwnerSnapshotPair g l = .ok ()) ∧
    ∀ (g : OwnerTermSnapshot) (l : LocalOwnerStateSnapshot),
      validateOwnerSnapshotPair g l = .ok () →
      l.sortedBaseStates.map LocalOwnerBaseState.scope = g.sortedTerms.map OwnerTerm.scope ∧
      l.sortedBaseStates.map LocalOwnerBaseState.ownerTerm = g.sortedTerms ∧
      ∀ r ∈ l.sortedBaseStates,
        (r.baseRole = .owner ↔ r.ownerTerm.ownerNode = l.recipientNode) ∧
        (r.baseRole = .follower → r.activationState ≠ .routable) := by
  refine ⟨fun g n hg => ?_, fun g l hpair => ?_⟩
  · obtain ⟨l, hl, hvalid, hnode, -⟩ := (validate_eq_ok.1 hg).localSnapshotFor n
    exact ⟨l, hl, hnode, validateOwnerSnapshotPair_eq_ok.2 hvalid⟩
  · have hvalid := validateOwnerSnapshotPair_eq_ok.1 hpair
    refine ⟨hvalid.scopes_eq, hvalid.terms_eq, fun r hr => ?_⟩
    obtain ⟨-, hrole, -, hfollower⟩ := hvalid.rows r hr
    refine ⟨hrole.symm, fun hr hroutable => ?_⟩
    rw [hfollower hr] at hroutable
    cases hroutable

omit [Sha256] in
/-- The world is owned by node 1 and an agent by node 2: the half of node 2, and what the accepted
pair says. -/
theorem local_half_of_two_terms :
    let world := OwnerRegistry.worldTerm (nodeOf 1)
    let agent : OwnerTerm := ⟨.nanoContainer "AGENT-01", nodeOf 2, 3, trackACoordinatorGeneration⟩
    let g := globalLiteral 1 [agent, world]
      0x80875b9470db214a3c225b61be5c035df5b6ca6374c33939f8a51a8e0628e994
    let _ := Sha2.instSha256
    g.validate = .ok () ∧ ∃ l, localSnapshotFor g (nodeOf 2) = .ok l ∧
      l.recipientNode = nodeOf 2 ∧ validateOwnerSnapshotPair g l = .ok () ∧
      l.sortedBaseStates.map ownerTerm = [agent, world] := by
  intro world agent g _
  have hg : g.validate = .ok () := by decide +kernel
  obtain ⟨l, hl, hnode, hpair⟩ := local_snapshots_install.1 g (nodeOf 2) hg
  exact ⟨hg, l, hl, hnode, hpair, (local_snapshots_install.2 g l hpair).2.1⟩

end Sentinel.Cluster

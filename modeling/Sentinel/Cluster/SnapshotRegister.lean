import Sentinel.Cluster.SagaOverlays

/-! The installed owner snapshot as a register: what a sequence of installs and overlay writes
leaves in the store, and how far the epochs of a scope are protected along it. -/

namespace Sentinel.Cluster
open Lib ClusterMetaStore
section Sha256

variable [Sha256]

/-! ## A store that holds a snapshot pair -/

structure OwnerSnapshotInstallMarker.Describes (marker : OwnerSnapshotInstallMarker)
    (g : OwnerTermSnapshot) (l : LocalOwnerStateSnapshot) : Prop where
  schema : marker.schemaVersion = g.schemaVersion
  recipient : marker.recipientNode = l.recipientNode
  generation : marker.coordinatorGeneration = g.coordinatorGeneration
  revision : marker.termSnapshotRevision = g.termSnapshotRevision
  global : marker.globalChecksum = g.checksum
  loc : marker.localChecksum = l.checksum

namespace ClusterMetaStore

structure Holds (store : ClusterMetaStore) (g : OwnerTermSnapshot)
    (l : LocalOwnerStateSnapshot) : Prop where
  pair : PairValid g l
  generation : g.coordinatorGeneration = trackACoordinatorGeneration
  terms : store.clusterOwner = ownerTable g
  rows : store.localOwner = localTable l
  marker : ∃ marker, store.installMarker = some marker ∧ marker.Describes g l

variable {store : ClusterMetaStore} {g g' : OwnerTermSnapshot} {l l' : LocalOwnerStateSnapshot}

theorem holds_replaceSnapshot (hpair : PairValid g l)
    (hgen : g.coordinatorGeneration = trackACoordinatorGeneration) :
    (store.replaceSnapshot g l).Holds g l :=
  ⟨hpair, hgen, rfl, rfl, _, rfl, ⟨rfl, rfl, rfl, rfl, rfl, rfl⟩⟩

theorem ownerTable_get (hg : g.Valid) (k : StateTransferScope) :
    (ownerTable g).get (scopeKey k) = g.find k := by
  ext t
  refine (Table.get_ofRows hg.sorted).trans (Iff.trans ?_ hg.find_eq_some.symm)
  exact and_congr_right fun _ => StateTransferScope.toWire_injective.eq_iff

theorem ownerTable_values (hg : g.Valid) : (ownerTable g).values = g.sortedTerms :=
  Table.values_ofRows hg.sorted

theorem localTable_baseStates (hl : l.Valid) :
    (localTable l).values.filterMap LocalOwnerRow.base? = l.sortedBaseStates := by
  have hentries : (Table.ofRows (fun r => scopeKey r.scope) l.sortedBaseStates).entries =
      l.sortedBaseStates.map fun r => (scopeKey r.scope, r) := Table.entries_ofRows hl.sorted
  simp [localTable, Table.values, hentries, Function.comp_def, List.filterMap_map,
    LocalOwnerRow.base?]

theorem Holds.get (h : store.Holds g l) (k : StateTransferScope) :
    store.clusterOwner.get (scopeKey k) = g.find k := by
  rw [h.terms, ownerTable_get h.pair.globalValid]

theorem Holds.listOwnerTerms (h : store.Holds g l) : store.listOwnerTerms = g.sortedTerms := by
  rw [ClusterMetaStore.listOwnerTerms, h.terms, ownerTable_values h.pair.globalValid]
  exact sortByWire_of_sorted h.pair.globalValid.sorted

theorem Holds.listLocalBaseStates (h : store.Holds g l) :
    store.listLocalBaseStates = l.sortedBaseStates := by
  rw [ClusterMetaStore.listLocalBaseStates, h.rows, localTable_baseStates h.pair.localValid]
  exact sortByWire_of_sorted h.pair.localValid.sorted

theorem Holds.storedGlobal (h : store.Holds g l) {marker : OwnerSnapshotInstallMarker}
    (hm : marker.Describes g l) : store.storedGlobal marker = g := by
  simp only [ClusterMetaStore.storedGlobal, h.listOwnerTerms, hm.schema, hm.generation,
    hm.revision, hm.global]

theorem Holds.storedLocal (h : store.Holds g l) {marker : OwnerSnapshotInstallMarker}
    (hm : marker.Describes g l) : store.storedLocal marker = l := by
  simp only [ClusterMetaStore.storedLocal, h.listLocalBaseStates, hm.schema, hm.generation,
    hm.revision, hm.recipient, hm.loc, h.pair.generation, h.pair.revision,
    h.pair.globalValid.schema.trans h.pair.localValid.schema.symm]

theorem Holds.installedOwnerSnapshot (h : store.Holds g l) {marker : OwnerSnapshotInstallMarker}
    (hmarker : store.installMarker = some marker) :
    store.installedOwnerSnapshot =
      if marker.status = .snapshotConflict then .error .manualRecoveryOfConflict
      else .ok (some (g, l)) := by
  obtain ⟨m, hm, hdesc⟩ := h.marker
  obtain rfl := Option.some.inj (hmarker.symm.trans hm)
  simp only [ClusterMetaStore.installedOwnerSnapshot, hmarker, h.storedGlobal hdesc,
    h.storedLocal hdesc, validateOwnerSnapshotPair_eq_ok (u := ()) |>.2 h.pair]

end ClusterMetaStore

/-! ## Sequences of transactions -/

inductive MetaCall where
  | installOwnerSnapshot (g : OwnerTermSnapshot) (l : LocalOwnerStateSnapshot)
  | putLocalSagaState (state : LocalOwnerSagaState)
  | overlay (call : ClusterMetaStore.OverlayCall)

def metaMachine :
    Machine ClusterMetaStore MetaCall (Except MetaError (Option OwnerSnapshotInstallOutcome)) where
  call store
    | .installOwnerSnapshot g l =>
      ((store.installOwnerSnapshot g l).1, some <$> (store.installOwnerSnapshot g l).2)
    | .putLocalSagaState state => (store.putLocalSagaState state, .ok none)
    | .overlay call =>
      ((store.overlayCall call).1, (store.overlayCall call).2.elim (.ok none) .error)

def installedPair (store : ClusterMetaStore) :
    MetaCall → Option (OwnerTermSnapshot × LocalOwnerStateSnapshot)
  | .installOwnerSnapshot g l =>
    match (store.installOwnerSnapshot g l).2 with
    | .ok .installed => some (g, l)
    | _ => none
  | _ => none

def installedPairs (store : ClusterMetaStore) :
    List MetaCall → List (OwnerTermSnapshot × LocalOwnerStateSnapshot)
  | [] => []
  | c :: cs => (installedPair store c).toList ++ installedPairs (metaMachine.call store c).1 cs

inductive MetaStep (store : ClusterMetaStore) (c : MetaCall) : Prop
  | installs (g : OwnerTermSnapshot) (l : LocalOwnerStateSnapshot)
      (hc : c = .installOwnerSnapshot g l) (hpair : PairValid g l)
      (hgen : g.coordinatorGeneration = trackACoordinatorGeneration)
      (hmarker : ∀ marker, store.installMarker = some marker → marker.coordinatorGeneration ≠ 0 →
        marker.status = .installed ∧ marker.coordinatorGeneration = g.coordinatorGeneration ∧
        marker.recipientNode = l.recipientNode ∧
        marker.termSnapshotRevision < g.termSnapshotRevision)
      (hepochs : ¬ store.movesEpochBack g)
      (hinstalled : installedPair store c = some (g, l))
      (hcall : metaMachine.call store c = (store.replaceSnapshot g l, .ok (some .installed)))
  | conflict (g : OwnerTermSnapshot) (l : LocalOwnerStateSnapshot)
      (hc : c = .installOwnerSnapshot g l) (marker : OwnerSnapshotInstallMarker)
      (hother : store.AnotherPayload g l marker) (hinstalled : installedPair store c = none)
      (hcall : metaMachine.call store c =
        ({ store with installMarker := some (conflictMarker marker g l) },
          .ok (some .snapshotConflict)))
  | keeps (hsame : ClusterMetaStore.SameAuthority (metaMachine.call store c).1 store)
      (hconflict : (metaMachine.call store c).2 = .ok (some .snapshotConflict) →
        ∃ marker, store.installMarker = some marker ∧ marker.coordinatorGeneration ≠ 0 ∧
          marker.status = .snapshotConflict)
      (hinstalled : installedPair store c = none)
      (hanswer : (metaMachine.call store c).2 ≠ .ok (some .installed))

theorem metaStep (store : ClusterMetaStore) (c : MetaCall) : MetaStep store c := by
  cases c with
  | installOwnerSnapshot g l =>
    have hresult := store.installOwnerSnapshot_result g l
    have hcall : metaMachine.call store (.installOwnerSnapshot g l) =
      ((store.installOwnerSnapshot g l).1, some <$> (store.installOwnerSnapshot g l).2) := rfl
    generalize hr : store.installOwnerSnapshot g l = r at hresult
    have hpair : installedPair store (.installOwnerSnapshot g l) =
      match r.2 with
      | .ok .installed => some (g, l)
      | _ => none := by rw [← hr]; rfl
    rw [hr] at hcall
    cases hresult with
    | failed e => exact .keeps (hcall ▸ .refl _) (hcall ▸ by simp) hpair (hcall ▸ by simp)
    | generationMismatch => exact .keeps (hcall ▸ .refl _) (hcall ▸ by simp) hpair (hcall ▸ by simp)
    | stale => exact .keeps (hcall ▸ .refl _) (hcall ▸ by simp) hpair (hcall ▸ by simp)
    | already => exact .keeps (hcall ▸ .refl _) (hcall ▸ by simp) hpair (hcall ▸ by simp)
    | stillInConflict marker hmarker hgen hstatus =>
      exact .keeps (hcall ▸ .refl _) (fun _ => ⟨marker, hmarker, hgen, hstatus⟩) hpair
        (hcall ▸ by simp)
    | conflict marker hother => exact .conflict g l rfl marker hother hpair hcall
    | installed hvalid hgen hmarker hepochs =>
      exact .installs g l rfl hvalid hgen hmarker hepochs hpair hcall
  | putLocalSagaState state =>
    exact .keeps ⟨rfl, rfl, rfl⟩ (by simp [metaMachine]) rfl (by simp [metaMachine])
  | overlay call =>
    have hsilent : ∀ outcome, (metaMachine.call store (.overlay call)).2 ≠ .ok (some outcome) := by
      intro outcome
      show (store.overlayCall call).2.elim (Except.ok none) Except.error ≠ _
      cases (store.overlayCall call).2 <;> simp
    exact .keeps (store.overlayCall_sameAuthority call) (fun h => absurd h (hsilent _)) rfl
      (hsilent _)

/-! ## The register -/

def lastInstalled (store : ClusterMetaStore) (calls : List MetaCall) :
    Option (OwnerTermSnapshot × LocalOwnerStateSnapshot) := (installedPairs store calls).getLast?

def ConflictAnswered (store : ClusterMetaStore) (calls : List MetaCall) : Prop :=
  .ok (some .snapshotConflict) ∈ metaMachine.answers store calls

theorem installedPairs_append (store : ClusterMetaStore) (as bs : List MetaCall) :
    installedPairs store (as ++ bs) =
      installedPairs store as ++ installedPairs (metaMachine.final store as) bs := by
  induction as generalizing store with
  | nil => rfl
  | cons a as ih => simp [installedPairs, ih]

theorem lastInstalled_snoc (store : ClusterMetaStore) (calls : List MetaCall) (c : MetaCall) :
    lastInstalled store (calls ++ [c]) =
      (installedPair (metaMachine.final store calls) c).or (lastInstalled store calls) := by
  cases h : installedPair (metaMachine.final store calls) c <;>
    simp [lastInstalled, installedPairs_append, installedPairs, h]

theorem conflictAnswered_snoc {store : ClusterMetaStore} {calls : List MetaCall} {c : MetaCall} :
    ConflictAnswered store (calls ++ [c]) ↔ ConflictAnswered store calls ∨
      (metaMachine.call (metaMachine.final store calls) c).2 = .ok (some .snapshotConflict) := by
  simp [ConflictAnswered, Machine.answers_append, eq_comm]

theorem final_snoc (store : ClusterMetaStore) (calls : List MetaCall) (c : MetaCall) :
    metaMachine.final store (calls ++ [c]) =
      (metaMachine.call (metaMachine.final store calls) c).1 :=
  metaMachine.final_append store calls [c]

theorem conflict_sticks (store : ClusterMetaStore) (calls : List MetaCall)
    (h : ConflictAnswered store calls) :
    ∃ marker, (metaMachine.final store calls).installMarker = some marker ∧
      marker.coordinatorGeneration ≠ 0 ∧ marker.status = .snapshotConflict := by
  induction calls using List.reverseRecOn with
  | nil => simp [ConflictAnswered] at h
  | append_singleton calls c ih =>
    rw [conflictAnswered_snoc] at h
    rw [final_snoc]
    cases metaStep (metaMachine.final store calls) c with
    | installs g l _ _ _ hmarker _ _ hcall =>
      obtain h | h := h
      · obtain ⟨marker, hm, hgen, hstatus⟩ := ih h
        simp [(hmarker marker hm hgen).1] at hstatus
      · simp [hcall] at h
    | conflict g l _ marker hother _ hcall =>
      rw [hcall]
      exact ⟨_, rfl, hother.generation_ne, rfl⟩
    | keeps hsame hconflict =>
      rw [hsame.marker]
      exact h.elim ih hconflict

namespace ClusterMetaStore

theorem Holds.of_sameAuthority {a b : ClusterMetaStore} {g : OwnerTermSnapshot}
    {l : LocalOwnerStateSnapshot} (h : b.Holds g l) (hsame : SameAuthority a b) : a.Holds g l :=
  ⟨h.pair, h.generation, hsame.terms.trans h.terms, hsame.rows.trans h.rows,
    hsame.marker ▸ h.marker⟩

theorem Holds.conflictMarker {store : ClusterMetaStore} {g g' : OwnerTermSnapshot}
    {l l' : LocalOwnerStateSnapshot} {marker : OwnerSnapshotInstallMarker} (h : store.Holds g l)
    (hmarker : store.installMarker = some marker) :
    ({ store with installMarker := some (conflictMarker marker g' l') } :
      ClusterMetaStore).Holds g l := by
  obtain ⟨m, hm, hd⟩ := h.marker
  obtain rfl := Option.some.inj (hmarker.symm.trans hm)
  exact ⟨h.pair, h.generation, h.terms, h.rows, _, rfl,
    ⟨hd.schema, hd.recipient, hd.generation, hd.revision, hd.global, hd.loc⟩⟩

end ClusterMetaStore

theorem holds_lastInstalled (store : ClusterMetaStore) (calls : List MetaCall)
    {g : OwnerTermSnapshot} {l : LocalOwnerStateSnapshot}
    (h : lastInstalled store calls = some (g, l)) :
    (metaMachine.final store calls).Holds g l ∧
      ∃ marker, (metaMachine.final store calls).installMarker = some marker ∧
        (marker.status = .snapshotConflict ↔ ConflictAnswered store calls) := by
  induction calls using List.reverseRecOn with
  | nil => simp [lastInstalled, installedPairs] at h
  | append_singleton calls c ih =>
    rw [lastInstalled_snoc] at h
    rw [final_snoc, conflictAnswered_snoc]
    cases metaStep (metaMachine.final store calls) c with
    | installs g' l' _ hpair hgen hmarker _ hinstalled hcall =>
      obtain ⟨rfl, rfl⟩ : g' = g ∧ l' = l := by simpa [hinstalled] using h
      -- an earlier conflict would have stopped this install
      have hnone : ¬ ConflictAnswered store calls := fun hc => by
        obtain ⟨marker, hm, hgen', hstatus⟩ := conflict_sticks store calls hc
        simp [(hmarker marker hm hgen').1] at hstatus
      rw [hcall]
      exact ⟨holds_replaceSnapshot hpair hgen, _, rfl,
        by simp [installedMarker, hnone]⟩
    | conflict _ _ _ marker hother hinstalled hcall =>
      obtain ⟨hholds, -⟩ := ih (by simpa [hinstalled] using h)
      rw [hcall]
      exact ⟨hholds.conflictMarker hother.installed, _, rfl,
        by simp [conflictMarker]⟩
    | keeps hsame hconflict hinstalled =>
      obtain ⟨hholds, marker, hmarker, hstatus⟩ := ih (by simpa [hinstalled] using h)
      refine ⟨hholds.of_sameAuthority hsame, marker, hsame.marker.trans hmarker, ?_⟩
      rw [hstatus, iff_comm, or_iff_left_iff_imp]
      intro hc
      obtain ⟨m, hm, -, hms⟩ := hconflict hc
      obtain rfl := Option.some.inj (hmarker.symm.trans hm)
      exact hstatus.1 hms

theorem noMarker_of_lastInstalled_none (store : ClusterMetaStore) (calls : List MetaCall)
    (hstore : store.installMarker = none) (h : lastInstalled store calls = none) :
    (metaMachine.final store calls).installMarker = none ∧ ¬ ConflictAnswered store calls := by
  induction calls using List.reverseRecOn with
  | nil => exact ⟨hstore, by simp [ConflictAnswered]⟩
  | append_singleton calls c ih =>
    rw [lastInstalled_snoc, Option.or_eq_none_iff] at h
    obtain ⟨hnone, hanswer⟩ := ih h.2
    rw [final_snoc, conflictAnswered_snoc]
    cases metaStep (metaMachine.final store calls) c with
    | installs _ _ _ _ _ _ _ hinstalled => simp [hinstalled] at h
    | conflict _ _ _ marker hother => simp [hother.installed] at hnone
    | keeps hsame hconflict =>
      refine ⟨hsame.marker.trans hnone, not_or.2 ⟨hanswer, fun hc => ?_⟩⟩
      obtain ⟨m, hm, -⟩ := hconflict hc
      simp [hnone] at hm

def OwnerSnapshotInstallMarker.Precedes (a b : OwnerSnapshotInstallMarker) : Prop :=
  b.coordinatorGeneration ≠ 0 ∧ (a.termSnapshotRevision < b.termSnapshotRevision ∨
    b.termSnapshotRevision = a.termSnapshotRevision ∧ b.globalChecksum = a.globalChecksum ∧
      b.localChecksum = a.localChecksum)

theorem precedes_step {store : ClusterMetaStore} {c : MetaCall} {a : OwnerSnapshotInstallMarker}
    (h : ∃ b, store.installMarker = some b ∧ a.Precedes b) :
    ∃ b, (metaMachine.call store c).1.installMarker = some b ∧ a.Precedes b := by
  obtain ⟨b, hb, hgen, hrev⟩ := h
  cases metaStep store c with
  | installs g l _ _ hg hmarker _ _ hcall =>
    obtain ⟨-, -, -, hlt⟩ := hmarker b hb hgen
    rw [hcall]
    refine ⟨_, rfl, by simp [installedMarker, hg, trackACoordinatorGeneration],
      .inl ?_⟩
    obtain hrev | ⟨hrev, -⟩ := hrev
    · exact UInt64.lt_trans hrev hlt
    · exact hrev ▸ hlt
  | conflict g l _ marker hother _ hcall =>
    obtain rfl := Option.some.inj (hother.installed.symm.trans hb)
    rw [hcall]
    exact ⟨_, rfl, hgen, hrev⟩
  | keeps hsame => exact ⟨b, hsame.marker.trans hb, hgen, hrev⟩

theorem precedes_final {store : ClusterMetaStore} (calls : List MetaCall)
    {a : OwnerSnapshotInstallMarker} (ha : store.installMarker = some a)
    (hgen : a.coordinatorGeneration ≠ 0) :
    ∃ b, (metaMachine.final store calls).installMarker = some b ∧ a.Precedes b :=
  metaMachine.final_invariant' (I := fun s => ∃ b, s.installMarker = some b ∧ a.Precedes b)
    (fun _ _ h => precedes_step h) ⟨a, ha, hgen, .inr ⟨rfl, rfl, rfl⟩⟩ calls

theorem tables_of_not_installed {store : ClusterMetaStore} {g : OwnerTermSnapshot}
    {l : LocalOwnerStateSnapshot} (h : (store.installOwnerSnapshot g l).2 ≠ .ok .installed) :
    (store.installOwnerSnapshot g l).1.clusterOwner = store.clusterOwner ∧
      (store.installOwnerSnapshot g l).1.localOwner = store.localOwner ∧
      ((store.installOwnerSnapshot g l).1.installMarker = store.installMarker ∨
        ∃ marker, store.AnotherPayload g l marker) := by
  have hresult := store.installOwnerSnapshot_result g l
  generalize store.installOwnerSnapshot g l = r at h hresult
  cases hresult with
  | conflict marker hother => exact ⟨rfl, rfl, .inr ⟨marker, hother⟩⟩
  | installed => simp at h
  | _ => exact ⟨rfl, rfl, .inl rfl⟩

theorem saga_of_install (store : ClusterMetaStore) (g : OwnerTermSnapshot)
    (l : LocalOwnerStateSnapshot) :
    (store.installOwnerSnapshot g l).1.localOwnerSaga = store.localOwnerSaga := by
  have hresult := store.installOwnerSnapshot_result g l
  generalize store.installOwnerSnapshot g l = r at hresult
  cases hresult <;> rfl

theorem not_installed_after_conflict {store : ClusterMetaStore} {before : List MetaCall}
    (h : ConflictAnswered store before) (after : List MetaCall) :
    .ok (some .installed) ∉ metaMachine.answers (metaMachine.final store before) after := by
  induction after using List.reverseRecOn with
  | nil => exact List.not_mem_nil
  | append_singleton after c ih =>
    rw [Machine.answers_append, List.mem_append, not_or]
    refine ⟨ih, fun hlast => ?_⟩
    replace hlast := (List.mem_singleton.1 hlast).symm
    have hconflict : ConflictAnswered store (before ++ after) := by
      rw [ConflictAnswered, Machine.answers_append]
      exact List.mem_append_left _ h
    obtain ⟨marker, hmarker, hgen, hstatus⟩ := conflict_sticks store _ hconflict
    rw [Machine.final_append] at hmarker
    cases metaStep (metaMachine.final (metaMachine.final store before) after) c with
    | installs _ _ _ _ _ hlater => simp [(hlater marker hmarker hgen).1] at hstatus
    | conflict _ _ _ _ _ _ hcall => simp [hcall] at hlast
    | keeps _ _ _ hanswer => exact hanswer hlast

theorem unreadable_after_conflict {store : ClusterMetaStore} {calls : List MetaCall}
    (h : ConflictAnswered store calls) :
    (metaMachine.final store calls).installedOwnerSnapshot = .error .manualRecoveryOfConflict := by
  obtain ⟨marker, hmarker, -, hstatus⟩ := conflict_sticks store calls h
  simp [ClusterMetaStore.installedOwnerSnapshot, hmarker, hstatus]

/-- **The installed snapshot is a monotone, atomic register with a conflict latch.** From any
store, over any sequence of installs and overlay writes: unless a call answered
`SnapshotConflict`, the installed pair is that of the last call that answered `Installed`; the
revision never decreases and keeps its checksums; a call that does not answer `Installed` writes
nothing, but for one that offers another payload under the installed revision, which answers
`SnapshotConflict` and records the offered checksums in the marker; after a conflict the pair
cannot be read and no call answers `Installed`; and no install touches the overlays. -/
theorem ownerSnapshot_register (store : ClusterMetaStore) (before after : List MetaCall) :
    (∀ pair, lastInstalled store before = some pair →
      ¬ ConflictAnswered store before →
        (metaMachine.final store before).installedOwnerSnapshot = .ok (some pair)) ∧
    (store.installMarker = none → lastInstalled store before = none →
      (metaMachine.final store before).installedOwnerSnapshot = .ok none) ∧
    (∀ a, (metaMachine.final store before).installMarker = some a →
      a.coordinatorGeneration ≠ 0 →
      ∃ b, (metaMachine.final store (before ++ after)).installMarker = some b ∧
        a.termSnapshotRevision ≤ b.termSnapshotRevision ∧
        (b.termSnapshotRevision = a.termSnapshotRevision →
          b.globalChecksum = a.globalChecksum ∧ b.localChecksum = a.localChecksum)) ∧
    (∀ g l, let s := metaMachine.final store before
      (s.installOwnerSnapshot g l).2 ≠ .ok .installed →
      (s.installOwnerSnapshot g l).1.clusterOwner = s.clusterOwner ∧
      (s.installOwnerSnapshot g l).1.localOwner = s.localOwner ∧
      ((s.installOwnerSnapshot g l).1.installMarker = s.installMarker ∨
        ∃ marker, s.AnotherPayload g l marker)) ∧
    (∀ g l marker, let s := metaMachine.final store before
      s.AnotherPayload g l marker →
      s.installOwnerSnapshot g l =
        ({ s with installMarker := some (conflictMarker marker g l) },
          .ok .snapshotConflict)) ∧
    (ConflictAnswered store before →
      .ok (some .installed) ∉ metaMachine.answers (metaMachine.final store before) after ∧
      (metaMachine.final store (before ++ after)).installedOwnerSnapshot =
        .error .manualRecoveryOfConflict) ∧
    (∀ g l, ((metaMachine.final store before).installOwnerSnapshot g l).1.localOwnerSaga =
      (metaMachine.final store before).localOwnerSaga) := by
  refine ⟨?_, ?_, ?_, fun g l h => tables_of_not_installed h,
    fun g l marker h => h.installOwnerSnapshot, ?_, fun g l => saga_of_install _ g l⟩
  · rintro ⟨g, l⟩ hlast hnone
    obtain ⟨hholds, marker, hmarker, hstatus⟩ := holds_lastInstalled store before hlast
    rw [hholds.installedOwnerSnapshot hmarker]
    exact if_neg (hstatus.not.2 hnone)
  · intro hstore hlast
    simp [ClusterMetaStore.installedOwnerSnapshot,
      (noMarker_of_lastInstalled_none store before hstore hlast).1]
  · intro a ha hgen
    obtain ⟨b, hb, -, hrev⟩ := precedes_final after ha hgen
    rw [← Machine.final_append] at hb
    refine ⟨b, hb, ?_, ?_⟩
    · obtain hrev | ⟨hrev, -⟩ := hrev
      · exact UInt64.le_of_lt hrev
      · exact UInt64.le_of_eq hrev.symm
    · intro heq
      obtain hrev | ⟨-, hsums⟩ := hrev
      · exact absurd (heq ▸ hrev) (UInt64.lt_irrefl _)
      · exact hsums
  · intro hconflict
    refine ⟨not_installed_after_conflict hconflict after, unreadable_after_conflict ?_⟩
    rw [ConflictAnswered, Machine.answers_append]
    exact List.mem_append_left _ hconflict

end Sha256

/-! ## Two payloads under one revision -/

def ownedBy (owner : NodeId) : OwnerTerm :=
  ⟨.nanoContainer "AGENT-01", owner, 1, trackACoordinatorGeneration⟩

def firstPayload : OwnerTermSnapshot := globalLiteral 1 [ownedBy (nodeOf 1)]
  0x0ded35a19df9e2fc747941f3f4b049d67fbbd026c61e503f0a2aa40bbc1e3137

def secondPayload : OwnerTermSnapshot := globalLiteral 1 [ownedBy (nodeOf 2)]
  0xba681aff21aba7e4a3da47993ea358bfd992e50e10b9f88ef99f2f627925755c

def firstPayloadLocal : LocalOwnerStateSnapshot :=
  localLiteral (nodeOf 1) 1 [ownedBy (nodeOf 1)]
    0x32a909a389a5cfa894df57f2946c98efbe21ae2a71b989cae93243ab1b233f29

def secondPayloadLocal : LocalOwnerStateSnapshot :=
  localLiteral (nodeOf 1) 1 [ownedBy (nodeOf 2)]
    0xe8e885858c1b877177a309a0c8cc9b1ee75f236852b434cf6a7a67dfdf78019b

@[reducible] def conflictSha256 : Sha256 := sha256OfSnapshots [firstPayload, secondPayload]
  [firstPayloadLocal, secondPayloadLocal]

attribute [local instance] conflictSha256

def afterFirst : ClusterMetaStore :=
  (create.installOwnerSnapshot firstPayload firstPayloadLocal).1

def afterSecond : ClusterMetaStore :=
  (afterFirst.installOwnerSnapshot secondPayload secondPayloadLocal).1

/-- The second payload is answered with `SnapshotConflict`, and yet the marker changes and the
pair installed before can no longer be read. -/
theorem conflict_writes_marker :
    (create.installOwnerSnapshot firstPayload firstPayloadLocal).2.toOption =
        some .installed ∧
      (afterFirst.installOwnerSnapshot secondPayload secondPayloadLocal).2.toOption =
        some .snapshotConflict ∧
      afterSecond.installMarker ≠ afterFirst.installMarker ∧
      afterFirst.installedOwnerSnapshot.toOption =
        some (some (firstPayload, firstPayloadLocal)) ∧
      afterSecond.installedOwnerSnapshot.toOption = none := by
  decide +kernel

end Sentinel.Cluster

import Sentinel.Cluster.OwnerSnapshot

/-! The durable cluster-meta store (`sentinel-redb`, module `cluster_meta`): the owner terms,
the recipient-local rows, the saga overlays and the install marker, and the transactions on
them. A transaction returns the store it commits; one that fails returns the store it began
with. -/

namespace Sentinel.Cluster
open Lib

inductive OwnerSnapshotInstallStatus where
  | installed
  | snapshotConflict
deriving DecidableEq

structure OwnerSnapshotInstallMarker where
  schemaVersion : UInt32
  recipientNode : NodeId
  coordinatorGeneration : UInt64
  termSnapshotRevision : UInt64
  globalChecksum : Digest
  localChecksum : Digest
  status : OwnerSnapshotInstallStatus
  conflictGlobalChecksum : Option Digest
  conflictLocalChecksum : Option Digest
deriving DecidableEq

/-- A row of the local-owner table. Rows from before the first full snapshot have another
encoding, which the readers of base states skip. -/
inductive LocalOwnerRow where
  | base (state : LocalOwnerBaseState)
  | legacy (state : LocalOwnerState)

def LocalOwnerRow.base? : LocalOwnerRow → Option LocalOwnerBaseState
  | base state => some state
  | legacy _ => none

def LocalOwnerRow.legacy? : LocalOwnerRow → Option LocalOwnerState
  | base _ => none
  | legacy state => some state

structure ClusterMetaStore where
  clusterOwner : Table String OwnerTerm
  localOwner : Table String LocalOwnerRow
  localOwnerSaga : Table String LocalOwnerSagaState
  installMarker : Option OwnerSnapshotInstallMarker

def scopeKey (scope : StateTransferScope) : String := scope.toWire

inductive MetaError where
  | snapshot (error : OwnerSnapshotError)
  | recipientChange (installed received : NodeId)
  | manualRecoveryOfConflict
  | operationKindNotHandoff
  | migrationOverlay (key : String)
  | newerHandoffOverlay (key : String)
  | concurrentHandoffOverlays (key : String)
  | conflictingHandoffTransition (key : String)
  | newerOwnerOverlay (key : String)
  | stableStateNeedsSnapshot
deriving DecidableEq

def NodeId.toText (n : NodeId) : String :=
  let digits := (List.range 32).map fun i => (n.uuid.toNat / 16 ^ (31 - i) % 16).digitChar
  String.ofList (digits.take 8 ++ '-' :: ((digits.drop 8).take 4) ++ '-' ::
    ((digits.drop 12).take 4) ++ '-' :: ((digits.drop 16).take 4) ++ '-' :: digits.drop 20)

def MetaError.message : MetaError → String
  | snapshot e => e.message
  | recipientChange a b => "recipient-local owner snapshot cannot change recipient from " ++
    a.toText ++ " to " ++ b.toText
  | manualRecoveryOfConflict => "owner snapshot conflict requires manual recovery"
  | operationKindNotHandoff => "handoff overlay API requires operation_kind=Handoff"
  | migrationOverlay key =>
    "ManualRecoveryRequired: migration overlay conflicts with handoff for " ++ key
  | newerHandoffOverlay key => "ManualRecoveryRequired: newer handoff overlay exists for " ++ key
  | concurrentHandoffOverlays key =>
    "ManualRecoveryRequired: concurrent handoff overlays for " ++ key
  | conflictingHandoffTransition key =>
    "ManualRecoveryRequired: conflicting handoff transition for " ++ key
  | newerOwnerOverlay key =>
    "ManualRecoveryRequired: newer owner overlay conflicts with handoff for " ++ key
  | stableStateNeedsSnapshot => "stable local owner state must be installed by full snapshot"

def LocalOwnerRole.sagaRole? : LocalOwnerRole → Option LocalOwnerSagaRole
  | retiring => some .retiring
  | retired => some .retired
  | preparedTarget => some .preparedTarget
  | ownerActivating => some .ownerActivating
  | owner | follower => none

namespace ClusterMetaStore

def create : ClusterMetaStore := ⟨.empty, .empty, .empty, none⟩

/-! ## Reading -/

def listOwnerTerms (store : ClusterMetaStore) : List OwnerTerm :=
  sortByWire OwnerTerm.scope store.clusterOwner.values

def listLocalBaseStates (store : ClusterMetaStore) : List LocalOwnerBaseState :=
  sortByWire LocalOwnerBaseState.scope (store.localOwner.values.filterMap LocalOwnerRow.base?)

def listLocalSagaStates (store : ClusterMetaStore) : List LocalOwnerSagaState :=
  sortByWire LocalOwnerSagaState.scope store.localOwnerSaga.values

def storedGlobal (store : ClusterMetaStore) (marker : OwnerSnapshotInstallMarker) :
    OwnerTermSnapshot where
  schemaVersion := marker.schemaVersion
  coordinatorGeneration := marker.coordinatorGeneration
  termSnapshotRevision := marker.termSnapshotRevision
  sortedTerms := store.listOwnerTerms
  checksum := marker.globalChecksum

def storedLocal (store : ClusterMetaStore) (marker : OwnerSnapshotInstallMarker) :
    LocalOwnerStateSnapshot where
  schemaVersion := marker.schemaVersion
  recipientNode := marker.recipientNode
  coordinatorGeneration := marker.coordinatorGeneration
  termSnapshotRevision := marker.termSnapshotRevision
  sortedBaseStates := store.listLocalBaseStates
  checksum := marker.localChecksum

variable [Sha256]

def installedOwnerSnapshot (store : ClusterMetaStore) :
    Except MetaError (Option (OwnerTermSnapshot × LocalOwnerStateSnapshot)) :=
  match store.installMarker with
  | none => .ok none
  | some marker =>
    if marker.status = .snapshotConflict then .error .manualRecoveryOfConflict
    else match validateOwnerSnapshotPair (store.storedGlobal marker) (store.storedLocal marker) with
      | .error e => .error (.snapshot e)
      | .ok () => .ok (some (store.storedGlobal marker, store.storedLocal marker))

/-! ## Installing a full snapshot -/

def movesEpochBack (store : ClusterMetaStore) (global : OwnerTermSnapshot) : Prop :=
  ∃ term ∈ global.sortedTerms, ∃ old, store.clusterOwner.get (scopeKey term.scope) = some old ∧
    old.coordinatorGeneration = global.coordinatorGeneration ∧ term.epoch < old.epoch

instance (store : ClusterMetaStore) (global : OwnerTermSnapshot) :
    Decidable (store.movesEpochBack global) :=
  decidable_of_iff (∃ term ∈ global.sortedTerms,
      ∃ old ∈ (store.clusterOwner.get (scopeKey term.scope)).toList,
        old.coordinatorGeneration = global.coordinatorGeneration ∧ term.epoch < old.epoch) (by
    simp [movesEpochBack])

def installedMarker (global : OwnerTermSnapshot) (loc : LocalOwnerStateSnapshot) :
    OwnerSnapshotInstallMarker where
  schemaVersion := global.schemaVersion
  recipientNode := loc.recipientNode
  coordinatorGeneration := global.coordinatorGeneration
  termSnapshotRevision := global.termSnapshotRevision
  globalChecksum := global.checksum
  localChecksum := loc.checksum
  status := .installed
  conflictGlobalChecksum := none
  conflictLocalChecksum := none

def conflictMarker (marker : OwnerSnapshotInstallMarker) (global : OwnerTermSnapshot)
    (loc : LocalOwnerStateSnapshot) : OwnerSnapshotInstallMarker :=
  { marker with
    status := .snapshotConflict
    conflictGlobalChecksum := some global.checksum
    conflictLocalChecksum := some loc.checksum }

def ownerTable (global : OwnerTermSnapshot) : Table String OwnerTerm :=
  .ofRows (fun t => scopeKey t.scope) global.sortedTerms

def localTable (loc : LocalOwnerStateSnapshot) : Table String LocalOwnerRow where
  entries := (Table.ofRows (fun s => scopeKey s.scope) loc.sortedBaseStates).entries.map
    (fun e => (e.1, .base e.2))
  sorted := List.pairwise_map.2 (Table.sorted _)

/-- Replace both owner tables and the marker. The saga table is not opened. -/
def replaceSnapshot (store : ClusterMetaStore) (global : OwnerTermSnapshot)
    (loc : LocalOwnerStateSnapshot) : ClusterMetaStore :=
  { store with
    clusterOwner := ownerTable global
    localOwner := localTable loc
    installMarker := some (installedMarker global loc) }

def replaceUnlessStale (store : ClusterMetaStore) (global : OwnerTermSnapshot)
    (loc : LocalOwnerStateSnapshot) :
    ClusterMetaStore × Except MetaError OwnerSnapshotInstallOutcome :=
  if store.movesEpochBack global then
    (store, .ok (.staleSnapshot (store.installMarker.elim 0 (·.termSnapshotRevision))
      global.termSnapshotRevision))
  else (store.replaceSnapshot global loc, .ok .installed)

def installOwnerSnapshot (store : ClusterMetaStore) (global : OwnerTermSnapshot)
    (loc : LocalOwnerStateSnapshot) :
    ClusterMetaStore × Except MetaError OwnerSnapshotInstallOutcome :=
  match validateOwnerSnapshotPair global loc with
  | .error e => (store, .error (.snapshot e))
  | .ok () =>
    if global.coordinatorGeneration ≠ trackACoordinatorGeneration then
      (store, .ok (.generationMismatch trackACoordinatorGeneration global.coordinatorGeneration))
    else match store.installMarker with
      | none => store.replaceUnlessStale global loc
      | some marker =>
        -- generation zero is legacy bootstrap metadata
        if marker.coordinatorGeneration = 0 then store.replaceUnlessStale global loc
        else if marker.status = .snapshotConflict then (store, .ok .snapshotConflict)
        else if marker.coordinatorGeneration ≠ global.coordinatorGeneration then
          (store, .ok (.generationMismatch marker.coordinatorGeneration
            global.coordinatorGeneration))
        else if marker.recipientNode ≠ loc.recipientNode then
          (store, .error (.recipientChange marker.recipientNode loc.recipientNode))
        else if global.termSnapshotRevision < marker.termSnapshotRevision then
          (store, .ok (.staleSnapshot marker.termSnapshotRevision global.termSnapshotRevision))
        else if global.termSnapshotRevision = marker.termSnapshotRevision then
          if global.checksum = marker.globalChecksum ∧ loc.checksum = marker.localChecksum then
            (store, .ok .alreadyInstalled)
          else ({ store with installMarker := some (conflictMarker marker global loc) },
            .ok .snapshotConflict)
        else store.replaceUnlessStale global loc

/-! ## Saga overlays -/

omit [Sha256]

def putLocalSagaState (store : ClusterMetaStore) (state : LocalOwnerSagaState) :
    ClusterMetaStore :=
  { store with localOwnerSaga := store.localOwnerSaga.insert (scopeKey state.scope) state }

def newerTerm (a b : OwnerTerm) : Prop :=
  b.coordinatorGeneration < a.coordinatorGeneration ∨
    a.coordinatorGeneration = b.coordinatorGeneration ∧ b.epoch < a.epoch

instance (a b : OwnerTerm) : Decidable (newerTerm a b) := inferInstanceAs (Decidable (_ ∨ _))

def putHandoffSagaStateCas (store : ClusterMetaStore) (state : LocalOwnerSagaState) :
    Except MetaError ClusterMetaStore := do
  ensure (state.operationKind = .handoff) .operationKindNotHandoff
  let key := scopeKey state.scope
  match store.localOwnerSaga.get key with
  | none => .ok (store.putLocalSagaState state)
  | some existing =>
    if existing = state then .ok store
    else do
      ensure (existing.operationKind ≠ .migration) (.migrationOverlay key)
      ensure (¬ newerTerm existing.ownerTerm state.ownerTerm) (.newerHandoffOverlay key)
      -- the same term again: only the same operation may advance
      ensure (newerTerm state.ownerTerm existing.ownerTerm ∨ existing.opId = state.opId)
        (.concurrentHandoffOverlays key)
      ensure (newerTerm state.ownerTerm existing.ownerTerm ∨
        existing.transitionSeq < state.transitionSeq) (.conflictingHandoffTransition key)
      .ok (store.putLocalSagaState state)

def completeHandoffOverlay (store : ClusterMetaStore) (committedTerm : OwnerTerm) :
    Except MetaError ClusterMetaStore :=
  let key := scopeKey committedTerm.scope
  match store.localOwnerSaga.get key with
  | none => .ok store
  | some existing => do
    ensure (existing.operationKind ≠ .migration) (.migrationOverlay key)
    ensure (¬ newerTerm existing.ownerTerm committedTerm) (.newerOwnerOverlay key)
    .ok { store with localOwnerSaga := store.localOwnerSaga.erase key }

def overlayOf (state : LocalOwnerState) (role : LocalOwnerSagaRole) : LocalOwnerSagaState where
  scope := state.scope
  operationKind := .handoff
  opId := none
  ownerTerm :=
    { scope := state.scope
      ownerNode := state.nodeId
      epoch := state.epoch
      coordinatorGeneration := if state.epoch = 0 then 0 else trackACoordinatorGeneration }
  role := role
  transitionSeq := 0

def putLocalState (store : ClusterMetaStore) (state : LocalOwnerState) :
    Except MetaError ClusterMetaStore :=
  match state.role.sagaRole? with
  | none => .error .stableStateNeedsSnapshot
  | some role => store.putHandoffSagaStateCas (overlayOf state role)

def migrateLegacyOverlay (store : ClusterMetaStore) (state : LocalOwnerState) :
    ClusterMetaStore :=
  match state.role.sagaRole?, store.localOwnerSaga.get (scopeKey state.scope) with
  | some role, none => store.putLocalSagaState
      { scope := state.scope
        operationKind := .legacyReconciliation
        opId := none
        ownerTerm :=
          { scope := state.scope
            ownerNode := state.nodeId
            epoch := state.epoch
            coordinatorGeneration := 0 }
        role := role
        transitionSeq := 0 }
  | _, _ => store

/-- Opening the database migrates the legacy rows until a full snapshot is installed. -/
def openStore (store : ClusterMetaStore) : ClusterMetaStore :=
  if store.installMarker.any (fun marker => marker.coordinatorGeneration ≠ 0) then store
  else (store.localOwner.values.filterMap LocalOwnerRow.legacy?).foldl migrateLegacyOverlay store

/-! ## What a transaction that succeeds does -/

theorem putHandoffSagaStateCas_eq_ok {store store' : ClusterMetaStore}
    {state : LocalOwnerSagaState} (h : store.putHandoffSagaStateCas state = .ok store') :
    store' = store ∧ store.localOwnerSaga.get (scopeKey state.scope) = some state ∨
      store' = store.putLocalSagaState state := by
  obtain ⟨_, -, h⟩ := bind_eq_ok.1 h
  dsimp only at h
  split at h
  · exact .inr (Except.ok.inj h).symm
  · rename_i existing hget
    split_ifs at h with heq
    · exact .inl ⟨(Except.ok.inj h).symm, heq ▸ hget⟩
    · simp only [bind_eq_ok] at h
      obtain ⟨_, -, _, -, _, -, _, -, h⟩ := h
      exact .inr (Except.ok.inj h).symm

theorem completeHandoffOverlay_eq_ok {store store' : ClusterMetaStore} {term : OwnerTerm}
    (h : store.completeHandoffOverlay term = .ok store') :
    store' = store ∧ store.localOwnerSaga.get (scopeKey term.scope) = none ∨
      store' =
        { store with localOwnerSaga := store.localOwnerSaga.erase (scopeKey term.scope) } := by
  unfold completeHandoffOverlay at h
  dsimp only at h
  split at h
  · rename_i hget
    exact .inl ⟨(Except.ok.inj h).symm, hget⟩
  · simp only [bind_eq_ok] at h
    obtain ⟨_, -, _, -, h⟩ := h
    exact .inr (Except.ok.inj h).symm

theorem putLocalState_eq_ok {store store' : ClusterMetaStore} {state : LocalOwnerState}
    (h : store.putLocalState state = .ok store') :
    ∃ role, state.role.sagaRole? = some role ∧
      store.putHandoffSagaStateCas (overlayOf state role) = .ok store' := by
  unfold putLocalState at h
  split at h
  · cases h
  · rename_i role hrole
    exact ⟨role, hrole, h⟩

variable [Sha256]

/-- Another payload is offered to the recipient of the installed one under its revision. -/
structure AnotherPayload (store : ClusterMetaStore) (g : OwnerTermSnapshot)
    (l : LocalOwnerStateSnapshot) (marker : OwnerSnapshotInstallMarker) : Prop where
  pair : PairValid g l
  current : g.coordinatorGeneration = trackACoordinatorGeneration
  installed : store.installMarker = some marker
  status : marker.status = .installed
  generation : marker.coordinatorGeneration = g.coordinatorGeneration
  recipient : marker.recipientNode = l.recipientNode
  revision : marker.termSnapshotRevision = g.termSnapshotRevision
  checksums : ¬ (g.checksum = marker.globalChecksum ∧ l.checksum = marker.localChecksum)

theorem AnotherPayload.generation_ne {store : ClusterMetaStore} {g : OwnerTermSnapshot}
    {l : LocalOwnerStateSnapshot} {marker : OwnerSnapshotInstallMarker}
    (h : store.AnotherPayload g l marker) : marker.coordinatorGeneration ≠ 0 := by
  rw [h.generation, h.current]
  decide

theorem AnotherPayload.installOwnerSnapshot {store : ClusterMetaStore} {g : OwnerTermSnapshot}
    {l : LocalOwnerStateSnapshot} {marker : OwnerSnapshotInstallMarker}
    (h : store.AnotherPayload g l marker) :
    store.installOwnerSnapshot g l =
      ({ store with installMarker := some (conflictMarker marker g l) },
        .ok .snapshotConflict) := by
  have hstatus : marker.status ≠ .snapshotConflict := by simp [h.status]
  have hvalid : validateOwnerSnapshotPair g l = .ok () := validateOwnerSnapshotPair_eq_ok.2 h.pair
  simp only [ClusterMetaStore.installOwnerSnapshot, hvalid, h.installed]
  rw [if_neg (not_not.2 h.current), if_neg h.generation_ne, if_neg hstatus,
    if_neg (not_not.2 h.generation), if_neg (not_not.2 h.recipient),
    if_neg (h.revision ▸ UInt64.lt_irrefl _), if_pos h.revision.symm, if_neg h.checksums]

inductive InstallResult (store : ClusterMetaStore) (g : OwnerTermSnapshot)
    (l : LocalOwnerStateSnapshot) :
    ClusterMetaStore × Except MetaError OwnerSnapshotInstallOutcome → Prop
  | failed (e : MetaError) : InstallResult store g l (store, .error e)
  | generationMismatch (a b : UInt64) :
      InstallResult store g l (store, .ok (.generationMismatch a b))
  | stale (a b : UInt64) : InstallResult store g l (store, .ok (.staleSnapshot a b))
  | already (marker : OwnerSnapshotInstallMarker) (hmarker : store.installMarker = some marker)
      (hgen : marker.coordinatorGeneration ≠ 0)
      (hrecipient : marker.recipientNode = l.recipientNode)
      (hrevision : marker.termSnapshotRevision = g.termSnapshotRevision)
      (hchecksum : marker.globalChecksum = g.checksum) :
      InstallResult store g l (store, .ok .alreadyInstalled)
  | stillInConflict (marker : OwnerSnapshotInstallMarker)
      (hmarker : store.installMarker = some marker) (hgen : marker.coordinatorGeneration ≠ 0)
      (hstatus : marker.status = .snapshotConflict) :
      InstallResult store g l (store, .ok .snapshotConflict)
  | conflict (marker : OwnerSnapshotInstallMarker) (h : store.AnotherPayload g l marker) :
      InstallResult store g l
        ({ store with installMarker := some (conflictMarker marker g l) }, .ok .snapshotConflict)
  | installed (hpair : PairValid g l) (hgen : g.coordinatorGeneration = trackACoordinatorGeneration)
      (hmarker : ∀ marker, store.installMarker = some marker → marker.coordinatorGeneration ≠ 0 →
        marker.status = .installed ∧
        marker.coordinatorGeneration = g.coordinatorGeneration ∧
        marker.recipientNode = l.recipientNode ∧
        marker.termSnapshotRevision < g.termSnapshotRevision)
      (hepochs : ¬ store.movesEpochBack g) :
      InstallResult store g l (store.replaceSnapshot g l, .ok .installed)

theorem replaceUnlessStale_result {store : ClusterMetaStore} {g : OwnerTermSnapshot}
    {l : LocalOwnerStateSnapshot} (hpair : PairValid g l)
    (hgen : g.coordinatorGeneration = trackACoordinatorGeneration)
    (hmarker : ∀ marker, store.installMarker = some marker → marker.coordinatorGeneration ≠ 0 →
      marker.status = .installed ∧ marker.coordinatorGeneration = g.coordinatorGeneration ∧
      marker.recipientNode = l.recipientNode ∧
      marker.termSnapshotRevision < g.termSnapshotRevision) :
    InstallResult store g l (store.replaceUnlessStale g l) := by
  unfold replaceUnlessStale
  split_ifs with h
  · exact .stale _ _
  · exact .installed hpair hgen hmarker h

theorem installOwnerSnapshot_result (store : ClusterMetaStore) (g : OwnerTermSnapshot)
    (l : LocalOwnerStateSnapshot) :
    InstallResult store g l (store.installOwnerSnapshot g l) := by
  unfold installOwnerSnapshot
  split
  · exact .failed _
  · rename_i hvalid
    have hpair : PairValid g l := validateOwnerSnapshotPair_eq_ok.1 hvalid
    split_ifs with hgen
    · exact .generationMismatch _ _
    · push Not at hgen
      split
      · rename_i hnone
        exact replaceUnlessStale_result hpair hgen (by simp [hnone])
      · rename_i marker hsome
        have hcases : marker.status ≠ .snapshotConflict → marker.status = .installed := by
          cases marker.status <;> simp
        split_ifs with h0 hstatus hgen' hrec hlt heq hsum
        · refine replaceUnlessStale_result hpair hgen fun m hm hm0 => absurd h0 ?_
          rwa [← Option.some.inj (hsome.symm.trans hm)] at hm0
        · exact .stillInConflict marker hsome h0 hstatus
        · exact .generationMismatch _ _
        · exact .failed _
        · exact .stale _ _
        · exact .already marker hsome h0 (not_not.1 hrec) heq.symm hsum.1.symm
        · exact .conflict marker ⟨hpair, hgen, hsome, hcases hstatus, not_not.1 hgen',
            not_not.1 hrec, heq.symm, hsum⟩
        · push Not at hgen' hrec
          refine replaceUnlessStale_result hpair hgen fun m hm _ => ?_
          obtain rfl := Option.some.inj (hsome.symm.trans hm)
          exact ⟨hcases hstatus, hgen', hrec,
            UInt64.lt_of_le_of_ne (UInt64.not_lt.1 hlt) (Ne.symm heq)⟩

end ClusterMetaStore
end Sentinel.Cluster

import Sentinel.Cluster.ClusterMeta
import Sentinel.Lib.Machine

/-! Runs of the four writers of saga overlays (`sentinel-redb`, module `cluster_meta`). A row is
replaced only by one that advances it, a migration row is never touched, and an accepted
completion of a handoff is the only call that clears a row. -/

namespace Sentinel.Cluster
open Lib
namespace ClusterMetaStore

/-! ## The owner tables are not touched -/

structure SameAuthority (a b : ClusterMetaStore) : Prop where
  terms : a.clusterOwner = b.clusterOwner
  rows : a.localOwner = b.localOwner
  marker : a.installMarker = b.installMarker

theorem SameAuthority.refl (store : ClusterMetaStore) : SameAuthority store store := ⟨rfl, rfl, rfl⟩

theorem SameAuthority.trans {a b c : ClusterMetaStore} (hab : SameAuthority a b)
    (hbc : SameAuthority b c) : SameAuthority a c :=
  ⟨hab.terms.trans hbc.terms, hab.rows.trans hbc.rows, hab.marker.trans hbc.marker⟩

variable {store' : ClusterMetaStore} {state : LocalOwnerSagaState} {scope : StateTransferScope}
  {term a b : OwnerTerm} {clears : Prop}

theorem putHandoffSagaStateCas_sameAuthority {store : ClusterMetaStore}
    (h : store.putHandoffSagaStateCas state = .ok store') : SameAuthority store' store := by
  rcases putHandoffSagaStateCas_eq_ok h with ⟨rfl, -⟩ | rfl
  · exact .refl _
  · exact ⟨rfl, rfl, rfl⟩

theorem completeHandoffOverlay_sameAuthority {store : ClusterMetaStore}
    (h : store.completeHandoffOverlay term = .ok store') : SameAuthority store' store := by
  rcases completeHandoffOverlay_eq_ok h with ⟨rfl, -⟩ | rfl
  · exact .refl _
  · exact ⟨rfl, rfl, rfl⟩

theorem putLocalState_sameAuthority {store : ClusterMetaStore} {state : LocalOwnerState}
    (h : store.putLocalState state = .ok store') : SameAuthority store' store := by
  obtain ⟨role, -, h⟩ := putLocalState_eq_ok h
  exact putHandoffSagaStateCas_sameAuthority h

theorem foldl_migrateLegacyOverlay_sameAuthority (store : ClusterMetaStore)
    (states : List LocalOwnerState) :
    SameAuthority (states.foldl migrateLegacyOverlay store) store := by
  induction states generalizing store with
  | nil => exact .refl _
  | cons first states ih =>
    have hfirst : SameAuthority (store.migrateLegacyOverlay first) store := by
      unfold migrateLegacyOverlay
      split <;> exact ⟨rfl, rfl, rfl⟩
    exact (ih _).trans hfirst

theorem openStore_sameAuthority (store : ClusterMetaStore) :
    SameAuthority store.openStore store := by
  unfold openStore
  split
  · exact .refl _
  · exact foldl_migrateLegacyOverlay_sameAuthority _ _

/-! ## The calls -/

inductive OverlayCall where
  | putHandoffSagaStateCas (state : LocalOwnerSagaState)
  | completeHandoffOverlay (committedTerm : OwnerTerm)
  | putLocalState (state : LocalOwnerState)
  | migrateLegacyOverlays

def commit (store : ClusterMetaStore) (result : Except MetaError ClusterMetaStore) :
    ClusterMetaStore × Option MetaError :=
  match result with
  | .ok store' => (store', none)
  | .error e => (store, some e)

def overlayCall (store : ClusterMetaStore) : OverlayCall → ClusterMetaStore × Option MetaError
  | .putHandoffSagaStateCas state => store.commit (store.putHandoffSagaStateCas state)
  | .completeHandoffOverlay term => store.commit (store.completeHandoffOverlay term)
  | .putLocalState state => store.commit (store.putLocalState state)
  | .migrateLegacyOverlays => (store.openStore, none)

def overlayMachine : Machine ClusterMetaStore OverlayCall (Option MetaError) := ⟨overlayCall⟩

theorem overlayCall_sameAuthority (store : ClusterMetaStore) (call : OverlayCall) :
    SameAuthority (store.overlayCall call).1 store := by
  have hcommit : ∀ result, (∀ store', result = .ok store' → SameAuthority store' store) →
      SameAuthority (store.commit result).1 store := by
    rintro (e | store') h
    · exact .refl _
    · exact h store' rfl
  cases call with
  | putHandoffSagaStateCas state => exact hcommit _ fun _ => putHandoffSagaStateCas_sameAuthority
  | completeHandoffOverlay term => exact hcommit _ fun _ => completeHandoffOverlay_sameAuthority
  | putLocalState state => exact hcommit _ fun _ => putLocalState_sameAuthority
  | migrateLegacyOverlays => exact openStore_sameAuthority store

def overlay (store : ClusterMetaStore) (scope : StateTransferScope) : Option LocalOwnerSagaState :=
  store.localOwnerSaga.get (scopeKey scope)

theorem scopeKey_inj {a b : StateTransferScope} : scopeKey a = scopeKey b ↔ a = b :=
  StateTransferScope.toWire_injective.eq_iff

theorem overlay_putLocalSagaState (store : ClusterMetaStore) (state : LocalOwnerSagaState)
    (scope : StateTransferScope) : (store.putLocalSagaState state).overlay scope =
      if scope = state.scope then some state else store.overlay scope := by
  simp only [overlay, putLocalSagaState, Table.get_insert, scopeKey_inj]

/-! ## How a row moves -/

def Advances (old new : LocalOwnerSagaState) : Prop :=
  newerTerm new.ownerTerm old.ownerTerm ∨
    new.ownerTerm.coordinatorGeneration = old.ownerTerm.coordinatorGeneration ∧
    new.ownerTerm.epoch = old.ownerTerm.epoch ∧ new.opId = old.opId ∧
    old.transitionSeq ≤ new.transitionSeq

theorem Advances.refl (o : LocalOwnerSagaState) : Advances o o :=
  .inr ⟨rfl, rfl, rfl, UInt64.le_refl _⟩

theorem newerTerm.trans {c : OwnerTerm} (hab : newerTerm a b) (hbc : newerTerm b c) :
    newerTerm a c := by
  rcases hab with hab | ⟨hab, hepoch⟩ <;> rcases hbc with hbc | ⟨hbc, hepoch'⟩
  · exact .inl (UInt64.lt_trans hbc hab)
  · exact .inl (hbc ▸ hab)
  · exact .inl (hab ▸ hbc)
  · exact .inr ⟨hab.trans hbc, UInt64.lt_trans hepoch' hepoch⟩

theorem newerTerm.congr {a' b' : OwnerTerm} (h : newerTerm a b)
    (hgen : a'.coordinatorGeneration = a.coordinatorGeneration) (hepoch : a'.epoch = a.epoch)
    (hgen' : b'.coordinatorGeneration = b.coordinatorGeneration) (hepoch' : b'.epoch = b.epoch) :
    newerTerm a' b' := by
  unfold newerTerm
  rw [hgen, hepoch, hgen', hepoch']
  exact h

theorem Advances.trans {a b c : LocalOwnerSagaState} (hab : Advances a b) (hbc : Advances b c) :
    Advances a c := by
  rcases hab with hab | ⟨hgen, hepoch, hop, hseq⟩ <;>
    rcases hbc with hbc | ⟨hgen', hepoch', hop', hseq'⟩
  · exact .inl (hbc.trans hab)
  · exact .inl (hab.congr hgen' hepoch' rfl rfl)
  · exact .inl (hbc.congr rfl rfl hgen.symm hepoch.symm)
  · exact .inr ⟨hgen'.trans hgen, hepoch'.trans hepoch, hop'.trans hop,
      UInt64.le_trans hseq hseq'⟩

theorem same_of_not_newerTerm (hab : ¬ newerTerm a b) (hba : ¬ newerTerm b a) :
    b.coordinatorGeneration = a.coordinatorGeneration ∧ b.epoch = a.epoch := by
  simp only [newerTerm, not_or, not_and, UInt64.not_lt] at hab hba
  have hgen : a.coordinatorGeneration = b.coordinatorGeneration :=
    UInt64.le_antisymm hab.1 hba.1
  exact ⟨hgen.symm, UInt64.le_antisymm (hba.2 hgen.symm) (hab.2 hgen) |>.symm ▸ rfl⟩

inductive RowMove (clears : Prop) : Option LocalOwnerSagaState → Option LocalOwnerSagaState → Prop
  | same (row) : RowMove clears row row
  | stored (new) : RowMove clears none (some new)
  | advanced {old new} (hkind : old.operationKind ≠ .migration) (h : Advances old new) :
      RowMove clears (some old) (some new)
  | cleared {old} (h : clears) (hkind : old.operationKind ≠ .migration) :
      RowMove clears (some old) none

theorem putHandoffSagaStateCas_move {store : ClusterMetaStore}
    (h : store.putHandoffSagaStateCas state = .ok store') (scope : StateTransferScope) :
    RowMove clears (store.overlay scope) (store'.overlay scope) := by
  obtain ⟨_, -, h⟩ := bind_eq_ok.1 h
  dsimp only at h
  by_cases hscope : scope = state.scope
  · subst hscope
    split at h
    · rename_i hnone
      cases h
      rw [overlay_putLocalSagaState, if_pos rfl]
      exact (show store.overlay state.scope = none from hnone) ▸ .stored state
    · rename_i existing hget
      have hrow : store.overlay state.scope = some existing := hget
      split_ifs at h with heq
      · cases h
        exact .same _
      · simp only [bind_eq_ok, ensure_eq_ok, exists_unit] at h
        obtain ⟨hkind, hold, hop, hseq, h⟩ := h
        cases h
        rw [overlay_putLocalSagaState, if_pos rfl, hrow]
        refine .advanced hkind ?_
        by_cases hnew : newerTerm state.ownerTerm existing.ownerTerm
        · exact .inl hnew
        · obtain ⟨hgen, hepoch⟩ := same_of_not_newerTerm hold hnew
          exact .inr ⟨hgen, hepoch, ((hop.resolve_left hnew).symm),
            UInt64.le_of_lt (hseq.resolve_left hnew)⟩
  · -- the row of another scope stays
    have hother : store'.overlay scope = store.overlay scope := by
      split at h
      · cases h
        rw [overlay_putLocalSagaState, if_neg hscope]
      · split_ifs at h
        · cases h
          rfl
        · simp only [bind_eq_ok, exists_unit] at h
          obtain ⟨-, -, -, -, h⟩ := h
          cases h
          rw [overlay_putLocalSagaState, if_neg hscope]
    rw [hother]
    exact .same _

theorem completeHandoffOverlay_move {store : ClusterMetaStore}
    (h : store.completeHandoffOverlay term = .ok store') (scope : StateTransferScope) :
    RowMove (term.scope = scope) (store.overlay scope) (store'.overlay scope) := by
  unfold completeHandoffOverlay at h
  dsimp only at h
  split at h
  · cases h
    exact .same _
  · rename_i existing hget
    simp only [bind_eq_ok, ensure_eq_ok, exists_unit] at h
    obtain ⟨hkind, -, h⟩ := h
    cases h
    simp only [overlay, Table.get_erase, scopeKey_inj]
    by_cases hscope : scope = term.scope
    · subst hscope
      rw [if_pos rfl, hget]
      exact .cleared rfl hkind
    · rw [if_neg hscope]
      exact .same _

/-! ## The migration of legacy rows -/

variable {row : LocalOwnerSagaState}

theorem migrateLegacyOverlay_keeps {store : ClusterMetaStore} (h : store.overlay scope = some row)
    (state : LocalOwnerState) : (store.migrateLegacyOverlay state).overlay scope = some row := by
  unfold migrateLegacyOverlay
  split
  · rename_i role hrole hnone
    rw [overlay_putLocalSagaState, if_neg, h]
    rintro rfl
    exact absurd (h.symm.trans hnone) (by simp)
  · exact h

theorem foldl_migrateLegacyOverlay_keeps {store : ClusterMetaStore}
    (h : store.overlay scope = some row) (states : List LocalOwnerState) :
    (states.foldl migrateLegacyOverlay store).overlay scope = some row := by
  induction states generalizing store with
  | nil => exact h
  | cons state states ih => exact ih (migrateLegacyOverlay_keeps h state)

theorem openStore_keeps {store : ClusterMetaStore} (h : store.overlay scope = some row) :
    store.openStore.overlay scope = some row := by
  unfold openStore
  split_ifs
  · exact h
  · exact foldl_migrateLegacyOverlay_keeps h _

def Migrated (store : ClusterMetaStore) (state : LocalOwnerState) : Prop :=
  state.role.sagaRole? = none ∨ (store.overlay state.scope).isSome

theorem migrateLegacyOverlay_of_migrated {store : ClusterMetaStore} {state : LocalOwnerState}
    (h : Migrated store state) : store.migrateLegacyOverlay state = store := by
  unfold migrateLegacyOverlay
  split
  · rename_i role hrole hnone
    rcases h with h | h
    · exact absurd (h.symm.trans hrole) (by simp)
    · rw [overlay, hnone] at h
      exact absurd h (by simp)
  · rfl

theorem migrated_migrateLegacyOverlay (store : ClusterMetaStore) (state : LocalOwnerState) :
    Migrated (store.migrateLegacyOverlay state) state := by
  unfold Migrated migrateLegacyOverlay
  cases hrole : state.role.sagaRole? with
  | none => exact .inl rfl
  | some role =>
    right
    cases hrow : store.localOwnerSaga.get (scopeKey state.scope) with
    | none => simp [overlay_putLocalSagaState]
    | some row => simp [overlay, hrow]

theorem Migrated.foldl {store : ClusterMetaStore} {state : LocalOwnerState}
    (h : Migrated store state) (states : List LocalOwnerState) :
    Migrated (states.foldl migrateLegacyOverlay store) state := by
  refine h.imp_right fun hsome => ?_
  obtain ⟨row, hrow⟩ := Option.isSome_iff_exists.1 hsome
  rw [foldl_migrateLegacyOverlay_keeps hrow]
  rfl

theorem migrated_foldl (store : ClusterMetaStore) (states : List LocalOwnerState) :
    ∀ state ∈ states, Migrated (states.foldl migrateLegacyOverlay store) state := by
  induction states generalizing store with
  | nil => simp
  | cons first states ih =>
    intro state hstate
    rcases List.mem_cons.1 hstate with rfl | hstate
    · exact (migrated_migrateLegacyOverlay store state).foldl states
    · exact ih _ state hstate

theorem foldl_migrateLegacyOverlay_of_migrated {store : ClusterMetaStore}
    {states : List LocalOwnerState} (h : ∀ state ∈ states, Migrated store state) :
    states.foldl migrateLegacyOverlay store = store := by
  induction states with
  | nil => rfl
  | cons first states ih =>
    obtain ⟨hfirst, hrest⟩ := List.forall_mem_cons.1 h
    rw [List.foldl_cons, migrateLegacyOverlay_of_migrated hfirst, ih hrest]

theorem openStore_openStore (store : ClusterMetaStore) :
    store.openStore.openStore = store.openStore := by
  by_cases hmarker : store.installMarker.any (fun marker => marker.coordinatorGeneration ≠ 0)
  · have hopen : store.openStore = store := if_pos hmarker
    rw [hopen, hopen]
  · set states := store.localOwner.values.filterMap LocalOwnerRow.legacy? with hstates
    have hopen : store.openStore = states.foldl migrateLegacyOverlay store := if_neg hmarker
    have hsame := foldl_migrateLegacyOverlay_sameAuthority store states
    rw [hopen]
    unfold openStore
    rw [hsame.marker, if_neg hmarker, hsame.rows, ← hstates]
    exact foldl_migrateLegacyOverlay_of_migrated (migrated_foldl store states)

/-! ## Calls and runs -/

def Completes (scope : StateTransferScope) (store : ClusterMetaStore) : OverlayCall → Prop
  | .completeHandoffOverlay term =>
    term.scope = scope ∧ ∃ store', store.completeHandoffOverlay term = .ok store'
  | _ => False

theorem RowMove.mono {clears' : Prop} (himp : clears → clears')
    {row row' : Option LocalOwnerSagaState} (h : RowMove clears row row') :
    RowMove clears' row row' := by
  cases h with
  | same => exact .same _
  | stored => exact .stored _
  | advanced hkind h => exact .advanced hkind h
  | cleared h hkind => exact .cleared (himp h) hkind

theorem commit_move {store : ClusterMetaStore} {result : Except MetaError ClusterMetaStore}
    (h : ∀ store', result = .ok store' →
      RowMove clears (store.overlay scope) (store'.overlay scope)) :
    RowMove clears (store.overlay scope) ((store.commit result).1.overlay scope) := by
  cases result with
  | ok store' => exact h store' rfl
  | error e => exact .same _

theorem overlayCall_move (store : ClusterMetaStore) (call : OverlayCall)
    (scope : StateTransferScope) : RowMove (Completes scope store call) (store.overlay scope)
      ((store.overlayCall call).1.overlay scope) := by
  cases call with
  | putHandoffSagaStateCas state =>
    exact commit_move fun store' h => putHandoffSagaStateCas_move h scope
  | completeHandoffOverlay term =>
    exact commit_move fun store' h =>
      (completeHandoffOverlay_move h scope).mono fun hscope => ⟨hscope, store', h⟩
  | putLocalState state =>
    refine commit_move fun store' h => ?_
    obtain ⟨role, -, hput⟩ := putLocalState_eq_ok h
    exact putHandoffSagaStateCas_move hput scope
  | migrateLegacyOverlays =>
    show RowMove _ _ (store.openStore.overlay scope)
    cases hrow : store.overlay scope with
    | some row =>
      rw [openStore_keeps hrow]
      exact .same _
    | none =>
      cases store.openStore.overlay scope with
      | none => exact .same _
      | some row => exact .stored row

theorem overlay_of_putHandoffSagaStateCas {store : ClusterMetaStore}
    (h : store.putHandoffSagaStateCas state = .ok store') :
    store'.overlay state.scope = some state := by
  rcases putHandoffSagaStateCas_eq_ok h with ⟨rfl, hrow⟩ | rfl
  · exact hrow
  · rw [overlay_putLocalSagaState, if_pos rfl]

theorem putHandoffSagaStateCas_repeat {store : ClusterMetaStore}
    (h : store.putHandoffSagaStateCas state = .ok store') :
    store'.putHandoffSagaStateCas state = .ok store' := by
  have hrow : store'.localOwnerSaga.get (scopeKey state.scope) = some state :=
    overlay_of_putHandoffSagaStateCas h
  obtain ⟨_, hkind, -⟩ := bind_eq_ok.1 h
  refine bind_eq_ok.2 ⟨(), hkind, ?_⟩
  simp [hrow]

theorem completeHandoffOverlay_repeat {store : ClusterMetaStore}
    (h : store.completeHandoffOverlay term = .ok store') :
    store'.completeHandoffOverlay term = .ok store' := by
  have hrow : store'.localOwnerSaga.get (scopeKey term.scope) = none := by
    rcases completeHandoffOverlay_eq_ok h with ⟨rfl, hrow⟩ | rfl
    · exact hrow
    · simp [Table.get_erase]
  simp [completeHandoffOverlay, hrow]

theorem commit_repeat {store : ClusterMetaStore}
    (write : ClusterMetaStore → Except MetaError ClusterMetaStore)
    (hrepeat : ∀ store', write store = .ok store' → write store' = .ok store')
    (h : (store.commit (write store)).2 = none) :
    let store' := (store.commit (write store)).1
    store'.commit (write store') = (store', none) := by
  cases hwrite : write store with
  | ok store' => simp [commit, hrepeat store' hwrite]
  | error e =>
    rw [hwrite] at h
    cases h

theorem overlayCall_repeat {store : ClusterMetaStore} {call : OverlayCall}
    (h : (store.overlayCall call).2 = none) :
    (store.overlayCall call).1.overlayCall call = ((store.overlayCall call).1, none) := by
  cases call with
  | putHandoffSagaStateCas state =>
    exact commit_repeat (fun s => s.putHandoffSagaStateCas state)
      (fun _ => putHandoffSagaStateCas_repeat) h
  | completeHandoffOverlay term =>
    exact commit_repeat (fun s => s.completeHandoffOverlay term)
      (fun _ => completeHandoffOverlay_repeat) h
  | putLocalState state =>
    refine commit_repeat (fun s => s.putLocalState state) (fun store' hput => ?_) h
    obtain ⟨role, hrole, hput⟩ := putLocalState_eq_ok hput
    simp only [putLocalState, hrole]
    exact putHandoffSagaStateCas_repeat hput
  | migrateLegacyOverlays =>
    show (store.openStore.openStore, none) = (store.openStore, none)
    rw [openStore_openStore]

theorem overlayCall_refused {store : ClusterMetaStore} {call : OverlayCall}
    (h : (store.overlayCall call).2 ≠ none) : (store.overlayCall call).1 = store := by
  have hcommit : ∀ result : Except MetaError ClusterMetaStore, (store.commit result).2 ≠ none →
      (store.commit result).1 = store := by
    rintro (e | store') hresult
    · rfl
    · exact absurd rfl hresult
  cases call with
  | migrateLegacyOverlays => exact absurd rfl h
  | putHandoffSagaStateCas state => exact hcommit _ h
  | completeHandoffOverlay term => exact hcommit _ h
  | putLocalState state => exact hcommit _ h

/-- **Overlays move forward.** In every run, the row of a scope only advances until a completion
of its handoff clears it; a migration row stays; an accepted call that is repeated changes
nothing; and a refused one changes nothing either. -/
theorem overlays_move_forward (store : ClusterMetaStore) (calls : List OverlayCall) :
    (∀ scope old, store.overlay scope = some old →
      overlayMachine.Meets (fun s call => ¬ Completes scope s call) store calls →
      ∃ new, (overlayMachine.final store calls).overlay scope = some new ∧ Advances old new) ∧
    (∀ scope row, store.overlay scope = some row → row.operationKind = .migration →
      (overlayMachine.final store calls).overlay scope = some row) ∧
    (∀ call, (store.overlayCall call).2 = none →
      (store.overlayCall call).1.overlayCall call = ((store.overlayCall call).1, none)) ∧
    ∀ call, (store.overlayCall call).2 ≠ none → (store.overlayCall call).1 = store := by
  refine ⟨fun scope old hold hcalls => ?_, fun scope row hrow hkind => ?_,
    fun call => overlayCall_repeat, fun call => overlayCall_refused⟩
  · refine overlayMachine.final_invariant
      (I := fun s => ∃ new, s.overlay scope = some new ∧ Advances old new)
      (fun s call hs hguard => ?_) ⟨old, hold, .refl old⟩ hcalls
    obtain ⟨new, hnew, hadv⟩ := hs
    have hmove := overlayCall_move s call scope
    generalize hrow : (s.overlayCall call).1.overlay scope = row at hmove
    rw [hnew] at hmove
    cases hmove with
    | same => exact ⟨new, hrow, hadv⟩
    | advanced _ h => exact ⟨_, hrow, hadv.trans h⟩
    | cleared h _ => exact absurd h hguard
  · refine overlayMachine.final_invariant' (I := fun s => s.overlay scope = some row)
      (fun s call hs => ?_) hrow calls
    have hmove := overlayCall_move s call scope
    generalize hnext : (s.overlayCall call).1.overlay scope = next at hmove
    rw [hs] at hmove
    cases hmove with
    | same => exact hnext
    | advanced hkind' _ => exact absurd hkind hkind'
    | cleared _ hkind' => exact absurd hkind hkind'

def worldHandoff (opId : BitVec 128) (epoch transitionSeq : UInt64) : LocalOwnerSagaState where
  scope := .world
  operationKind := .handoff
  opId := some opId
  ownerTerm := ⟨.world, nodeOf 1, epoch, trackACoordinatorGeneration⟩
  role := .retiring
  transitionSeq := transitionSeq

theorem worldHandoff_advances :
    ∃ new, (overlayMachine.final (create.putLocalSagaState (worldHandoff 7 1 0))
      [.putHandoffSagaStateCas (worldHandoff 7 1 1)]).overlay .world = some new ∧
        Advances (worldHandoff 7 1 0) new :=
  (overlays_move_forward (create.putLocalSagaState (worldHandoff 7 1 0))
    [.putHandoffSagaStateCas (worldHandoff 7 1 1)]).1 .world (worldHandoff 7 1 0)
    (by rw [overlay_putLocalSagaState, worldHandoff, if_pos rfl]) ⟨id, trivial⟩

/-- Two runs of accepted calls in which a row goes back: to an older epoch after a completion,
and to an earlier step of the same operation under a newer term. -/
theorem worldHandoff_goes_back :
    let firstRun : List OverlayCall := [.putHandoffSagaStateCas (worldHandoff 7 5 1),
      .completeHandoffOverlay (worldHandoff 7 5 1).ownerTerm,
      .putHandoffSagaStateCas (worldHandoff 8 3 0)]
    let secondRun : List OverlayCall := [.putHandoffSagaStateCas (worldHandoff 7 1 5),
      .putHandoffSagaStateCas (worldHandoff 7 2 0)]
    (overlayMachine.answers create firstRun = [none, none, none] ∧
      (overlayMachine.final create (firstRun.take 1)).overlay .world =
        some (worldHandoff 7 5 1) ∧
      (overlayMachine.final create firstRun).overlay .world = some (worldHandoff 8 3 0)) ∧
    overlayMachine.answers create secondRun = [none, none] ∧
      (overlayMachine.final create (secondRun.take 1)).overlay .world =
        some (worldHandoff 7 1 5) ∧
      (overlayMachine.final create secondRun).overlay .world = some (worldHandoff 7 2 0) := by
  decide +kernel

end ClusterMetaStore
end Sentinel.Cluster

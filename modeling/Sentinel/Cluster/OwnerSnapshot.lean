import Sentinel.Cluster.Fencing
import Sentinel.Lib.Result

/-! Construction and validation of owner snapshots (`sentinel-common`, module `fencing`), and
the recipient-local half that the chef derives from a global snapshot (`handoff`). -/

namespace Sentinel.Cluster
open Lib

/-! ## Canonical payloads -/

def NodeId.asBytes (n : NodeId) : List UInt8 := beBytes 16 n.uuid.toNat

def putU32 (value : UInt32) : List UInt8 := beBytes 4 value.toNat

def putU64 (value : UInt64) : List UInt8 := beBytes 8 value.toNat

def putLen (len : Nat) : Except OwnerSnapshotError (List UInt8) :=
  if len < 2 ^ 32 then .ok (beBytes 4 len) else .error .fieldTooLarge

def putScope (scope : StateTransferScope) : Except OwnerSnapshotError (List UInt8) := do
  let len ← putLen (utf8Bytes scope.toWire).length
  .ok (len ++ utf8Bytes scope.toWire)

def putTerm (term : OwnerTerm) : Except OwnerSnapshotError (List UInt8) := do
  let scope ← putScope term.scope
  .ok (scope ++ term.ownerNode.asBytes ++ putU64 term.epoch ++ putU64 term.coordinatorGeneration)

def LocalOwnerBaseRole.code : LocalOwnerBaseRole → UInt8
  | owner => 1
  | follower => 2

def ActivationState.code : ActivationState → UInt8
  | legacyUnknown => 0
  | notRoutable => 1
  | routable => 2

def putBaseState (state : LocalOwnerBaseState) : Except OwnerSnapshotError (List UInt8) := do
  let scope ← putScope state.scope
  let term ← putTerm state.ownerTerm
  .ok (scope ++ state.recipientNode.asBytes ++ term ++
    [state.baseRole.code, state.activationState.code])

def OwnerTermSnapshot.canonicalPayload (s : OwnerTermSnapshot) :
    Except OwnerSnapshotError (List UInt8) := do
  let len ← putLen s.sortedTerms.length
  let rows ← mapAll putTerm s.sortedTerms
  .ok (putU32 s.schemaVersion ++ putU64 s.coordinatorGeneration ++
    putU64 s.termSnapshotRevision ++ len ++ rows.flatten)

def LocalOwnerStateSnapshot.canonicalPayload (s : LocalOwnerStateSnapshot) :
    Except OwnerSnapshotError (List UInt8) := do
  let len ← putLen s.sortedBaseStates.length
  let rows ← mapAll putBaseState s.sortedBaseStates
  .ok (putU32 s.schemaVersion ++ s.recipientNode.asBytes ++ putU64 s.coordinatorGeneration ++
    putU64 s.termSnapshotRevision ++ len ++ rows.flatten)

/-! ## Row checks -/

variable {α : Type}

def rowsAreStrictlySorted (scope : α → StateTransferScope) : List α → Bool
  | a :: b :: rows =>
    decide ((scope a).toWire < (scope b).toWire) && rowsAreStrictlySorted scope (b :: rows)
  | _ => true

def repeatedNeighbour : List String → Option String
  | a :: b :: keys => if b = a then some b else repeatedNeighbour (b :: keys)
  | _ => none

def checkRowOrder (scope : α → StateTransferScope) (rows : List α) :
    Except OwnerSnapshotError Unit :=
  if rowsAreStrictlySorted scope rows then .ok ()
  else match repeatedNeighbour (rows.map fun r => (scope r).toWire) with
    | some key => .error (.duplicateScope key)
    | none => .error .unsortedRows

def SortedByWire (scope : α → StateTransferScope) (rows : List α) : Prop :=
  rows.Pairwise fun a b => (scope a).toWire < (scope b).toWire

variable {scope : α → StateTransferScope} {u : Unit} {s g : OwnerTermSnapshot}
  {l : LocalOwnerStateSnapshot} {n : NodeId}

theorem rowsAreStrictlySorted_iff {rows : List α} :
    rowsAreStrictlySorted scope rows = true ↔ SortedByWire scope rows := by
  induction rows with
  | nil => simp [rowsAreStrictlySorted, SortedByWire]
  | cons a rows ih =>
    cases rows with
    | nil => simp [rowsAreStrictlySorted, SortedByWire]
    | cons b rows =>
      simp only [rowsAreStrictlySorted, Bool.and_eq_true, decide_eq_true_eq, ih, SortedByWire,
        List.pairwise_cons (a := a)]
      refine and_congr_left fun hb => ⟨fun hab x hx => ?_, fun h => h b (by simp)⟩
      rcases List.mem_cons.1 hx with rfl | hx
      · exact hab
      · exact hab.trans ((List.pairwise_cons.1 hb).1 x hx)

theorem checkRowOrder_eq_ok {rows : List α} :
    checkRowOrder scope rows = .ok u ↔ SortedByWire scope rows := by
  rw [← rowsAreStrictlySorted_iff]
  unfold checkRowOrder
  split_ifs with h
  · simp [h]
  · split <;> simp [h]

theorem SortedByWire.nodup {rows : List α} (h : SortedByWire scope rows) :
    (rows.map scope).Nodup := by
  refine List.pairwise_map.2 (h.imp fun hab heq => ?_)
  rw [heq] at hab
  exact lt_irrefl _ hab

def OwnerTermSnapshot.validateRows (s : OwnerTermSnapshot) : Except OwnerSnapshotError Unit := do
  ensure (s.schemaVersion = ownerSnapshotSchemaVersion) (.unsupportedSchema s.schemaVersion)
  checkRowOrder OwnerTerm.scope s.sortedTerms
  checkAll (fun term => ensure (term.coordinatorGeneration = s.coordinatorGeneration)
    (.termGenerationMismatch term.scope.toWire)) s.sortedTerms

def LocalOwnerStateSnapshot.validateRows (s : LocalOwnerStateSnapshot) :
    Except OwnerSnapshotError Unit := do
  ensure (s.schemaVersion = ownerSnapshotSchemaVersion) (.unsupportedSchema s.schemaVersion)
  checkRowOrder LocalOwnerBaseState.scope s.sortedBaseStates
  checkAll (fun state => do
    ensure (state.recipientNode = s.recipientNode) (.recipientMismatch state.scope.toWire)
    ensure (state.ownerTerm.scope = state.scope ∧
      state.ownerTerm.coordinatorGeneration = s.coordinatorGeneration)
      (.localTermMismatch state.scope.toWire)) s.sortedBaseStates

theorem OwnerTermSnapshot.validateRows_eq_ok :
    s.validateRows = .ok u ↔ s.schemaVersion = ownerSnapshotSchemaVersion ∧
      SortedByWire OwnerTerm.scope s.sortedTerms ∧
      ∀ t ∈ s.sortedTerms, t.coordinatorGeneration = s.coordinatorGeneration := by
  simp [validateRows, bind_eq_ok, checkRowOrder_eq_ok, checkAll_eq_ok]

theorem LocalOwnerStateSnapshot.validateRows_eq_ok {s : LocalOwnerStateSnapshot} :
    s.validateRows = .ok u ↔ s.schemaVersion = ownerSnapshotSchemaVersion ∧
      SortedByWire LocalOwnerBaseState.scope s.sortedBaseStates ∧
      ∀ r ∈ s.sortedBaseStates, r.recipientNode = s.recipientNode ∧
        r.ownerTerm.scope = r.scope ∧
        r.ownerTerm.coordinatorGeneration = s.coordinatorGeneration := by
  simp [validateRows, bind_eq_ok, checkRowOrder_eq_ok, checkAll_eq_ok]

variable [Sha256]

def OwnerTermSnapshot.validate (s : OwnerTermSnapshot) : Except OwnerSnapshotError Unit := do
  s.validateRows
  let payload ← s.canonicalPayload
  ensure (Sha256.digest payload = s.checksum) .checksumMismatch

def LocalOwnerStateSnapshot.validate (s : LocalOwnerStateSnapshot) :
    Except OwnerSnapshotError Unit := do
  s.validateRows
  let payload ← s.canonicalPayload
  ensure (Sha256.digest payload = s.checksum) .checksumMismatch

@[mk_iff]
structure OwnerTermSnapshot.Valid (s : OwnerTermSnapshot) : Prop where
  schema : s.schemaVersion = ownerSnapshotSchemaVersion
  sorted : SortedByWire OwnerTerm.scope s.sortedTerms
  generations : ∀ t ∈ s.sortedTerms, t.coordinatorGeneration = s.coordinatorGeneration
  checksum : ∃ payload, s.canonicalPayload = .ok payload ∧ Sha256.digest payload = s.checksum

theorem OwnerTermSnapshot.validate_eq_ok {s : OwnerTermSnapshot} {u : Unit} :
    s.validate = .ok u ↔ s.Valid := by
  rw [valid_iff]
  simp only [validate, bind_eq_ok, exists_unit, validateRows_eq_ok, ensure_eq_ok, and_assoc]

@[mk_iff]
structure LocalOwnerStateSnapshot.Valid (s : LocalOwnerStateSnapshot) : Prop where
  schema : s.schemaVersion = ownerSnapshotSchemaVersion
  sorted : SortedByWire LocalOwnerBaseState.scope s.sortedBaseStates
  rows : ∀ r ∈ s.sortedBaseStates, r.recipientNode = s.recipientNode ∧
    r.ownerTerm.scope = r.scope ∧ r.ownerTerm.coordinatorGeneration = s.coordinatorGeneration
  checksum : ∃ payload, s.canonicalPayload = .ok payload ∧ Sha256.digest payload = s.checksum

theorem LocalOwnerStateSnapshot.validate_eq_ok {s : LocalOwnerStateSnapshot} {u : Unit} :
    s.validate = .ok u ↔ s.Valid := by
  rw [valid_iff]
  simp only [validate, bind_eq_ok, exists_unit, validateRows_eq_ok, ensure_eq_ok, and_assoc]

/-! ## Construction -/

def sortByWire (scope : α → StateTransferScope) (rows : List α) : List α :=
  rows.insertionSort fun a b => (scope a).toWire ≤ (scope b).toWire

def OwnerTermSnapshot.new (coordinatorGeneration termSnapshotRevision : UInt64)
    (terms : List OwnerTerm) : Except OwnerSnapshotError OwnerTermSnapshot := do
  let snapshot : OwnerTermSnapshot :=
    { schemaVersion := ownerSnapshotSchemaVersion
      coordinatorGeneration
      termSnapshotRevision
      sortedTerms := sortByWire OwnerTerm.scope terms
      checksum := Vector.replicate 32 0 }
  snapshot.validateRows
  let payload ← snapshot.canonicalPayload
  .ok { snapshot with checksum := Sha256.digest payload }

def LocalOwnerStateSnapshot.new (recipientNode : NodeId)
    (coordinatorGeneration termSnapshotRevision : UInt64) (states : List LocalOwnerBaseState) :
    Except OwnerSnapshotError LocalOwnerStateSnapshot := do
  let snapshot : LocalOwnerStateSnapshot :=
    { schemaVersion := ownerSnapshotSchemaVersion
      recipientNode
      coordinatorGeneration
      termSnapshotRevision
      sortedBaseStates := sortByWire LocalOwnerBaseState.scope states
      checksum := Vector.replicate 32 0 }
  snapshot.validateRows
  let payload ← snapshot.canonicalPayload
  .ok { snapshot with checksum := Sha256.digest payload }

def checkPairRow (global : OwnerTermSnapshot) (recipient : NodeId) (state : LocalOwnerBaseState) :
    Except OwnerSnapshotError Unit := do
  ensure (collect OwnerTerm.scope global.sortedTerms state.scope = some state.ownerTerm)
    (.localTermMismatch state.scope.toWire)
  ensure (state.ownerTerm.ownerNode = recipient ↔ state.baseRole = .owner)
    (.localRoleMismatch state.scope.toWire)
  ensure (state.activationState ≠ .legacyUnknown) (.legacyActivation state.scope.toWire)
  ensure (state.baseRole = .follower → state.activationState = .notRoutable)
    (.localRoleMismatch state.scope.toWire)

def validateOwnerSnapshotPair (global : OwnerTermSnapshot) (loc : LocalOwnerStateSnapshot) :
    Except OwnerSnapshotError Unit := do
  global.validate
  loc.validate
  ensure (global.schemaVersion = loc.schemaVersion ∧
    global.coordinatorGeneration = loc.coordinatorGeneration ∧
    global.termSnapshotRevision = loc.termSnapshotRevision) .envelopeMismatch
  ensure (global.sortedTerms.length = loc.sortedBaseStates.length) .envelopeMismatch
  checkAll (checkPairRow global loc.recipientNode) loc.sortedBaseStates

def baseStateFor (recipient : NodeId) (ownerTerm : OwnerTerm) : LocalOwnerBaseState where
  scope := ownerTerm.scope
  recipientNode := recipient
  ownerTerm := ownerTerm
  baseRole := if ownerTerm.ownerNode = recipient then .owner else .follower
  activationState := if ownerTerm.ownerNode = recipient then .routable else .notRoutable

def localSnapshotFor (global : OwnerTermSnapshot) (recipient : NodeId) :
    Except OwnerSnapshotError LocalOwnerStateSnapshot :=
  LocalOwnerStateSnapshot.new recipient global.coordinatorGeneration global.termSnapshotRevision
    (global.sortedTerms.map (baseStateFor recipient))

def OwnerTermSnapshot.find (s : OwnerTermSnapshot) (scope : StateTransferScope) :
    Option OwnerTerm :=
  s.sortedTerms.find? fun t => t.scope = scope

def LocalOwnerStateSnapshot.find (s : LocalOwnerStateSnapshot) (scope : StateTransferScope) :
    Option LocalOwnerBaseState :=
  s.sortedBaseStates.find? fun r => r.scope = scope

/-! ## What construction and pair validation guarantee -/

theorem OwnerTermSnapshot.Valid.find_eq_some (h : s.Valid) {k : StateTransferScope}
    {t : OwnerTerm} : s.find k = some t ↔ t ∈ s.sortedTerms ∧ t.scope = k :=
  find?_key_eq_some_iff h.sorted.nodup

theorem OwnerTermSnapshot.new_eq_ok {generation revision : UInt64} {terms : List OwnerTerm}
    (h : new generation revision terms = .ok g) :
    g.Valid ∧ g.coordinatorGeneration = generation ∧ g.termSnapshotRevision = revision ∧
      g.sortedTerms = sortByWire OwnerTerm.scope terms := by
  simp only [new, bind_eq_ok, validateRows_eq_ok] at h
  obtain ⟨_, ⟨-, hsorted, hgen⟩, payload, hpayload, hg⟩ := h
  cases hg
  exact ⟨⟨rfl, hsorted, hgen, payload, hpayload, rfl⟩, rfl, rfl, rfl⟩

theorem LocalOwnerStateSnapshot.new_eq_ok {recipient : NodeId} {generation revision : UInt64}
    {states : List LocalOwnerBaseState} (h : new recipient generation revision states = .ok l) :
    l.Valid ∧ l.recipientNode = recipient ∧ l.coordinatorGeneration = generation ∧
      l.termSnapshotRevision = revision ∧
      l.sortedBaseStates = sortByWire LocalOwnerBaseState.scope states := by
  simp only [new, bind_eq_ok, validateRows_eq_ok] at h
  obtain ⟨_, ⟨-, hsorted, hrows⟩, payload, hpayload, hl⟩ := h
  cases hl
  exact ⟨⟨rfl, hsorted, hrows, payload, hpayload, rfl⟩, rfl, rfl, rfl, rfl⟩

structure PairValid (g : OwnerTermSnapshot) (l : LocalOwnerStateSnapshot) : Prop where
  globalValid : g.Valid
  localValid : l.Valid
  generation : g.coordinatorGeneration = l.coordinatorGeneration
  revision : g.termSnapshotRevision = l.termSnapshotRevision
  length : g.sortedTerms.length = l.sortedBaseStates.length
  rows : ∀ r ∈ l.sortedBaseStates, g.find r.scope = some r.ownerTerm ∧
    (r.ownerTerm.ownerNode = l.recipientNode ↔ r.baseRole = .owner) ∧
    r.activationState ≠ .legacyUnknown ∧
    (r.baseRole = .follower → r.activationState = .notRoutable)

theorem OwnerTermSnapshot.Valid.collect_eq_find (h : s.Valid) (k : StateTransferScope) :
    collect OwnerTerm.scope s.sortedTerms k = s.find k := by
  ext t
  rw [collect_eq_some_iff h.sorted.nodup, h.find_eq_some]

theorem validateOwnerSnapshotPair_eq_ok {global : OwnerTermSnapshot}
    {loc : LocalOwnerStateSnapshot} :
    validateOwnerSnapshotPair global loc = .ok u ↔ PairValid global loc := by
  simp only [validateOwnerSnapshotPair, bind_eq_ok, OwnerTermSnapshot.validate_eq_ok,
    LocalOwnerStateSnapshot.validate_eq_ok, ensure_eq_ok, checkAll_eq_ok, checkPairRow]
  constructor
  · rintro ⟨_, hg, _, hl, _, ⟨-, hgen, hrev⟩, _, hlen, hrows⟩
    refine ⟨hg, hl, hgen, hrev, hlen, fun r hr => ?_⟩
    obtain ⟨_, hterm, _, hrole, _, hact, hfol⟩ := hrows r hr
    exact ⟨hg.collect_eq_find r.scope ▸ hterm, hrole, hact, hfol⟩
  · rintro ⟨hg, hl, hgen, hrev, hlen, hrows⟩
    refine ⟨(), hg, (), hl, (), ⟨hg.schema.trans hl.schema.symm, hgen, hrev⟩, (), hlen, ?_⟩
    intro r hr
    obtain ⟨hterm, hrole, hact, hfol⟩ := hrows r hr
    exact ⟨(), (hg.collect_eq_find r.scope).trans hterm, (), hrole, (), hact, hfol⟩

/-! ## The recipient-local half of a valid snapshot -/

omit [Sha256] in
theorem sortByWire_of_sorted {rows : List α} (h : SortedByWire scope rows) :
    sortByWire scope rows = rows :=
  List.Pairwise.insertionSort_eq (h.imp le_of_lt)

omit [Sha256] in
@[simp] theorem mem_sortByWire {rows : List α} {r : α} :
    r ∈ sortByWire scope rows ↔ r ∈ rows := List.mem_insertionSort _

omit [Sha256] in
theorem putBaseState_isOk {t : OwnerTerm} (h : ∃ bytes, putTerm t = .ok bytes) :
    ∃ bytes, putBaseState (baseStateFor n t) = .ok bytes := by
  obtain ⟨term, hterm⟩ := h
  obtain ⟨scope, hscope, -⟩ := bind_eq_ok.1 hterm
  exact ⟨_, bind_eq_ok.2 ⟨scope, hscope, bind_eq_ok.2 ⟨term, hterm, rfl⟩⟩⟩

omit [Sha256] in
theorem localPayload_isOk (hg : ∃ payload, g.canonicalPayload = .ok payload)
    (hl : l.sortedBaseStates = g.sortedTerms.map (baseStateFor n)) :
    ∃ payload, l.canonicalPayload = .ok payload := by
  obtain ⟨payload, hpayload⟩ := hg
  simp only [OwnerTermSnapshot.canonicalPayload, bind_eq_ok] at hpayload
  obtain ⟨len, hlen, rows, hrows, -⟩ := hpayload
  have hstates : ∃ states, mapAll putBaseState l.sortedBaseStates = .ok states := by
    rw [mapAll_isOk_iff, hl, List.forall_mem_map]
    exact fun t ht => putBaseState_isOk (mapAll_isOk_iff.1 ⟨rows, hrows⟩ t ht)
  obtain ⟨states, hstates⟩ := hstates
  refine ⟨_, bind_eq_ok.2 ⟨len, ?_, bind_eq_ok.2 ⟨states, hstates, rfl⟩⟩⟩
  simpa [hl] using hlen

theorem OwnerTermSnapshot.Valid.localSnapshotFor {g : OwnerTermSnapshot} (h : g.Valid)
    (n : NodeId) : ∃ l, localSnapshotFor g n = .ok l ∧ PairValid g l ∧ l.recipientNode = n ∧
      l.sortedBaseStates = g.sortedTerms.map (baseStateFor n) := by
  have hsorted : SortedByWire LocalOwnerBaseState.scope (g.sortedTerms.map (baseStateFor n)) :=
    List.pairwise_map.2 h.sorted
  obtain ⟨payload, hpayload, -⟩ := h.checksum
  obtain ⟨bytes, hbytes⟩ := localPayload_isOk (n := n)
    (l := ⟨ownerSnapshotSchemaVersion, n, g.coordinatorGeneration, g.termSnapshotRevision,
      g.sortedTerms.map (baseStateFor n), Vector.replicate 32 0⟩) ⟨payload, hpayload⟩ rfl
  have hrows : ∀ r ∈ g.sortedTerms.map (baseStateFor n), r.recipientNode = n ∧
      r.ownerTerm.scope = r.scope ∧
      r.ownerTerm.coordinatorGeneration = g.coordinatorGeneration := by
    simp only [List.forall_mem_map]
    exact fun t ht => ⟨rfl, rfl, h.generations t ht⟩
  have hnew : Cluster.localSnapshotFor g n = .ok ⟨ownerSnapshotSchemaVersion, n,
      g.coordinatorGeneration, g.termSnapshotRevision, g.sortedTerms.map (baseStateFor n),
      Sha256.digest bytes⟩ := by
    simp only [Cluster.localSnapshotFor, LocalOwnerStateSnapshot.new, sortByWire_of_sorted hsorted,
      bind_eq_ok]
    exact ⟨(), LocalOwnerStateSnapshot.validateRows_eq_ok.2 ⟨rfl, hsorted, hrows⟩,
      bytes, hbytes, rfl⟩
  refine ⟨_, hnew, ⟨h, (LocalOwnerStateSnapshot.new_eq_ok hnew).1, rfl, rfl, by simp, ?_⟩, rfl, rfl⟩
  simp only [List.forall_mem_map]
  intro t ht
  refine ⟨h.find_eq_some.2 ⟨ht, rfl⟩, ?_⟩
  by_cases hn : t.ownerNode = n <;> simp [baseStateFor, hn]

theorem localSnapshotFor_recipient (h : localSnapshotFor g n = .ok l) : l.recipientNode = n :=
  (LocalOwnerStateSnapshot.new_eq_ok h).2.1

/-! ## Snapshots written out -/

omit [Sha256]

def nodeOf (b : UInt8) : NodeId :=
  ⟨BitVec.ofNat 128 (b.toNat * 0x01010101010101010101010101010101)⟩

def globalLiteral (revision : UInt64) (terms : List OwnerTerm) (checksum : Nat) :
    OwnerTermSnapshot :=
  ⟨ownerSnapshotSchemaVersion, trackACoordinatorGeneration, revision, terms, digestOfNat checksum⟩

def localLiteral (recipient : NodeId) (revision : UInt64) (terms : List OwnerTerm)
    (checksum : Nat) : LocalOwnerStateSnapshot :=
  ⟨ownerSnapshotSchemaVersion, recipient, trackACoordinatorGeneration, revision,
    terms.map (baseStateFor recipient), digestOfNat checksum⟩

@[reducible] def sha256OfSnapshots (globals : List OwnerTermSnapshot)
    (locals : List LocalOwnerStateSnapshot) : Sha256 :=
  .ofTable (globals.filterMap (fun g => g.canonicalPayload.toOption.map (·, g.checksum)) ++
    locals.filterMap (fun l => l.canonicalPayload.toOption.map (·, l.checksum)))

end Sentinel.Cluster

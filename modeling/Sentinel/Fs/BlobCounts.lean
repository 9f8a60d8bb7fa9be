import Sentinel.Fs.ReferenceCounts
import Sentinel.Lib.CountTable

/-! The reference counts of the legacy blobs over whole histories of the metadata store. Besides
the namespace transaction, `create_file`, `create_file_allocating_inode`, `remove_file`,
`restore_from_trash` and the restore of a dump write rows and counts. -/

namespace Sentinel.Fs
open Lib

namespace MetadataStore

/-! ## The transactions beside `commit_namespace` -/

/-- Number zero holds the allocation counter of the layer, whose eight bytes are no inode. -/
def HoldsCounter (m : MetadataStore) (agent : String) (inode : ℕ) : Prop :=
  inode = 0 ∧ m.counters.get agent ≠ none

instance (m : MetadataStore) (agent : String) (inode : ℕ) :
    Decidable (m.HoldsCounter agent inode) :=
  inferInstanceAs (Decidable (_ ∧ _))

def countCreated (m : MetadataStore) (data : InodeData) : MetadataStore :=
  if data.kind = .regular then
    let current := (m.refcounts.get data.hash).getD 0
    { m with
      refcounts := m.refcounts.insert data.hash ((current + 1) % 2 ^ 32)
      trash := if current = 0 then m.trash.erase data.hash else m.trash }
  else m

/-- A row that stands under the number is replaced. -/
def createFile (m : MetadataStore) (agent : String) (parent : ℕ) (name : String) (inode : ℕ)
    (data : InodeData) : MetadataStore :=
  let written : MetadataStore := { m with
    inodes := m.inodes.insert (toLex (agent, inode)) (.legacy data)
    counters := if inode = 0 then m.counters.erase agent else m.counters
    dirents := m.dirents.insert (toLex (agent, toLex (parent, name))) inode }
  written.countCreated data

/-- A base row in the place of its counter does not decode as a number. -/
def restoredAllocationFloor (m : MetadataStore) : Except FsError ℕ := do
  ensure (m.workspaceInode sharedBaseLayerId 0 = none) (.other "could not convert slice to array")
  return (m.counters.get sharedBaseLayerId).getD 1

def nextNumber (m : MetadataStore) (agent : String) : ℕ :=
  max ((m.counters.get agent).getD 1) ((m.counters.get sharedBaseLayerId).getD 1) + 1

def ensureRoot (m : MetadataStore) (agent : String) (now : ℕ) : MetadataStore :=
  if m.workspaceInode agent 1 = none then m.setInode agent 1 (.directory 0o755 (now / 1000)) else m

/-- The counter takes the place of a row under number zero. -/
def createFileAllocatingInode (m : MetadataStore) (now : ℕ) (agent : String) (parent : ℕ)
    (name : String) (data : InodeData) (root : Bool) : Except FsError (ℕ × MetadataStore) := do
  let rooted := if root then m.ensureRoot agent now else m
  let current := (rooted.counters.get agent).getD 1
  let floor ← rooted.restoredAllocationFloor
  ensure (max current floor < u64Max) (.errno 28)
  let inode := max current floor + 1
  let counted : MetadataStore := { rooted with
    inodes := (rooted.inodes.erase (toLex (agent, 0))).insert (toLex (agent, inode)) (.legacy data)
    counters := rooted.counters.insert agent inode
    dirents := rooted.dirents.insert (toLex (agent, toLex (parent, name))) inode }
  return (inode, counted.countCreated data)

def countRemoved (m : MetadataStore) (now : ℕ) (data : InodeData) : MetadataStore :=
  if data.kind = .regular then
    let count := (m.refcounts.get data.hash).getD 0 - 1
    if count = 0 then
      { m with
        refcounts := m.refcounts.erase data.hash
        trash := m.trash.insert data.hash now }
    else
      { m with
        refcounts := m.refcounts.insert data.hash count
        trash := m.trash.erase data.hash }
  else m

def removeFile (m : MetadataStore) (now : ℕ) (agent : String) (parent : ℕ) (name : String)
    (inode : ℕ) : Except FsError (Option InodeData × MetadataStore) := do
  ensure (¬ m.HoldsCounter agent inode) (.other "InodeData legacy json deserialize")
  let removed : MetadataStore := { m with
    inodes := m.inodes.erase (toLex (agent, inode))
    dirents := m.dirents.erase (toLex (agent, toLex (parent, name))) }
  match m.workspaceInode agent inode with
  | none => return (none, removed)
  | some r => return (some r.data, removed.countRemoved now r.data)

def restoreFromTrash (m : MetadataStore) (hash : BlobHash) : Bool × MetadataStore :=
  if m.trash.get hash = none then (false, m)
  else
    let restored := { m with trash := m.trash.erase hash }
    if (m.refcounts.get hash).getD 0 = 0 then
      (true, { restored with refcounts := m.refcounts.insert hash 1 })
    else (true, restored)

/-! ## Histories -/

/-- The calls that write rows, counts or the trash queue. `cleanQueue` is the last write of a
collection, for the hashes it has deleted. -/
inductive CountedCall
  | commitNamespace (agent : String) (now : ℕ) (inodes : List (ℕ × WorkspaceInode))
      (dirents : List (ℕ × String × Option ℕ))
  | createFile (agent : String) (parent : ℕ) (name : String) (inode : ℕ) (data : InodeData)
  | createFileAllocatingInode (now : ℕ) (agent : String) (parent : ℕ) (name : String)
      (data : InodeData) (root : Bool)
  | removeFile (now : ℕ) (agent : String) (parent : ℕ) (name : String) (inode : ℕ)
  | restoreWorkspaceTables (dump : FsMetadataDump)
  | restoreFromTrash (hash : BlobHash)
  | cleanQueue (expired : List BlobHash)

/-- A namespace transaction fails on the counter of the layer, and a restore on a row in the place
of a counter. -/
def transact (m : MetadataStore) : CountedCall → Except FsError MetadataStore
  | .commitNamespace agent now inodes dirents => do
    ensure (∀ row ∈ inodes, ¬ m.HoldsCounter agent row.1)
      (.other "InodeData legacy json deserialize")
    m.commitNamespace agent now inodes dirents
  | .createFile agent parent name inode data => .ok (m.createFile agent parent name inode data)
  | .createFileAllocatingInode now agent parent name data root =>
    (m.createFileAllocatingInode now agent parent name data root).map Prod.snd
  | .removeFile now agent parent name inode =>
    (m.removeFile now agent parent name inode).map Prod.snd
  | .restoreWorkspaceTables dump => do
    ensure (∀ row ∈ dump.inodes.entries, (ofLex row.1).2 ≠ 0)
      (.other "Invalid inode allocation counter")
    m.restoreWorkspaceTables dump
  | .restoreFromTrash hash => .ok (m.restoreFromTrash hash).2
  | .cleanQueue expired => .ok (m.cleanQueue expired)

def afterCall (m : MetadataStore) (call : CountedCall) : MetadataStore :=
  match m.transact call with
  | .ok n => n
  | .error _ => m

def countMachine : Machine MetadataStore CountedCall Unit := ⟨fun m call => (m.afterCall call, ())⟩

/-! ## Exact counts -/

/-- A blob has a count row exactly where rows reference it, and the row holds their number. -/
def Exact (m : MetadataStore) : Prop := m.refcounts.Tallies m.references

def trackedHashes (m : MetadataStore) : List BlobHash :=
  m.refcounts.entries.map Prod.fst ++ m.trash.entries.map Prod.fst

def ofDump (dump : FsMetadataDump) : MetadataStore :=
  ⟨dump.inodes, dump.counters, dump.dirents, dump.refcounts, dump.trashQueue, .empty⟩

def Vacant (m : MetadataStore) (agent : String) (inode : ℕ) : Prop :=
  (m.workspaceInode agent inode).bind WorkspaceInode.legacyHash = none

instance (m : MetadataStore) (agent : String) (inode : ℕ) : Decidable (m.Vacant agent inode) :=
  inferInstanceAs (Decidable (_ = _))

def Countable (m : MetadataStore) (data : InodeData) : Prop :=
  data.kind = .regular → data.size ≠ u64Max ∧ m.references data.hash < u32Max

instance (m : MetadataStore) (data : InodeData) : Decidable (m.Countable data) :=
  inferInstanceAs (Decidable (_ → _))

/-- The row is no regular file, or references the blob that its removal uncounts, or that blob has
no count to lose. -/
def Removable (m : MetadataStore) (agent : String) (inode : ℕ) : Prop :=
  ∀ r ∈ m.workspaceInode agent inode, r.data.kind = .regular →
    r.legacyHash ≠ none ∨ m.references r.data.hash = 0

instance (m : MetadataStore) (agent : String) (inode : ℕ) : Decidable (m.Removable agent inode) :=
  inferInstanceAs (Decidable (∀ r ∈ m.workspaceInode agent inode, _))

def Restorable (m : MetadataStore) (dump : FsMetadataDump) : Prop :=
  (ofDump dump).Exact ∧ ∀ hash ∈ m.trackedHashes, (ofDump dump).Tracked hash

def Careful (m : MetadataStore) : CountedCall → Prop
  | .commitNamespace _ _ _ _ => True
  | .createFile agent _ _ inode data => m.Vacant agent inode ∧ m.Countable data
  | .createFileAllocatingInode _ agent _ _ data _ =>
    m.Vacant agent 0 ∧ m.Vacant agent (m.nextNumber agent) ∧ m.Countable data
  | .removeFile _ agent _ _ inode => m.Removable agent inode
  | .restoreWorkspaceTables dump => m.Restorable dump
  | .restoreFromTrash hash => m.trash.get hash = none ∨ m.references hash ≠ 0
  | .cleanQueue _ => True

/-! ## What the transactions do to the counts -/

variable {m n : MetadataStore} {hash : BlobHash} {f : BlobHash → ℕ}

theorem references_eq_zero (h : hash ∉ m.referencedHashes) : m.references hash = 0 := by
  apply List.sum_eq_zero
  intro weight hweight
  obtain ⟨r, hr, rfl⟩ := List.mem_map.1 hweight
  obtain ⟨key, hkey⟩ := Table.mem_values_iff.1 hr
  exact if_neg fun hhash => h (mem_referencedHashes.2 ⟨key, r, hkey, hhash⟩)

theorem exact_iff : m.Exact ↔
    ∀ hash ∈ m.refcounts.entries.map Prod.fst ++ m.referencedHashes,
      m.refcounts.get hash = Table.tally (m.references hash) := by
  refine ⟨fun h hash _ => h hash, fun h hash => ?_⟩
  by_cases hmem : hash ∈ m.refcounts.entries.map Prod.fst ++ m.referencedHashes
  · exact h hash hmem
  · rw [List.mem_append, not_or, Table.mem_keys, not_not] at hmem
    rw [hmem.1, references_eq_zero hmem.2]
    rfl

instance (m : MetadataStore) : Decidable m.Exact :=
  have := List.decidableBAll (fun hash => m.refcounts.get hash = Table.tally (m.references hash))
    (m.refcounts.entries.map Prod.fst ++ m.referencedHashes)
  decidable_of_iff _ exact_iff.symm

instance (m : MetadataStore) (dump : FsMetadataDump) : Decidable (m.Restorable dump) :=
  have := List.decidableBAll (fun hash => (ofDump dump).Tracked hash) m.trackedHashes
  inferInstanceAs (Decidable (_ ∧ _))

instance (m : MetadataStore) : (call : CountedCall) → Decidable (m.Careful call)
  | .commitNamespace _ _ _ _ => .isTrue trivial
  | .createFile _ _ _ _ _ => inferInstanceAs (Decidable (_ ∧ _))
  | .createFileAllocatingInode _ _ _ _ _ _ => inferInstanceAs (Decidable (_ ∧ _ ∧ _))
  | .removeFile _ agent _ _ inode => inferInstanceAs (Decidable (m.Removable agent inode))
  | .restoreWorkspaceTables dump => inferInstanceAs (Decidable (m.Restorable dump))
  | .restoreFromTrash _ => inferInstanceAs (Decidable (_ ∨ _))
  | .cleanQueue _ => .isTrue trivial

theorem mem_trackedHashes : hash ∈ m.trackedHashes ↔ m.Tracked hash := by
  rw [trackedHashes, List.mem_append, Table.mem_keys, Table.mem_keys]
  rfl

theorem tallies_removed (hash : BlobHash) {count : ℕ} (h : m.refcounts.Tallies f)
    (hcount : count = (m.refcounts.get hash).getD 0 - 1) :
    (if count = 0 then m.refcounts.erase hash else m.refcounts.insert hash count).Tallies
      fun x => f x - one (some hash) x := by
  rw [h.getD] at hcount
  have hother : ∀ x, x ≠ hash → f x - one (some hash) x = f x := by
    intro x hx
    rw [one_of_ne hx, Nat.sub_zero]
  have hown : f hash - one (some hash) hash = count := by rw [one_self, hcount]
  split_ifs with hzero
  · exact h.erase (hown.trans hzero) hother
  · exact h.insert hzero hown hother

theorem tallies_added (h : m.refcounts.Tallies f) :
    (m.refcounts.insert hash ((m.refcounts.get hash).getD 0 + 1)).Tallies
      fun x => f x + one (some hash) x := by
  refine h.insert (Nat.succ_ne_zero _) ?_ ?_
  · rw [h.getD, one_self]
  · intro x hx
    rw [one_of_ne hx, Nat.add_zero]

structure Recounts (m n : MetadataStore) (f : BlobHash → ℕ) : Prop where
  tallies : n.refcounts.Tallies f
  tracked : ∀ hash, m.Tracked hash → n.Tracked hash

variable {data : InodeData} {agent name : String} {p : MetadataStore} {inode now parent : ℕ}

theorem Recounts.congr {g : BlobHash → ℕ} (h : Recounts m n f) (heq : ∀ x, f x = g x) :
    Recounts m n g :=
  funext heq ▸ h

theorem recounts_of_eq (h : m.refcounts.Tallies f) (hrefcounts : n.refcounts = m.refcounts)
    (htrash : n.trash = m.trash) : Recounts m n f :=
  ⟨hrefcounts ▸ h, fun _ => Tracked.of_tables hrefcounts htrash⟩

/-! Only the two tables matter, on either side. -/

theorem Recounts.of_left {m' : MetadataStore} (h : Recounts m n f)
    (hcounts : m'.refcounts = m.refcounts) (htrash : m'.trash = m.trash) : Recounts m' n f :=
  ⟨h.tallies, fun hash hm => h.tracked hash (hm.of_tables hcounts.symm htrash.symm)⟩

theorem legacyHash_legacy (hkind : data.kind = .regular) (hsize : data.size ≠ u64Max) :
    (WorkspaceInode.legacy data).legacyHash = some data.hash :=
  if_pos ⟨rfl, hkind, hsize⟩

theorem legacyHash_of_kind {r : WorkspaceInode} (hkind : r.data.kind ≠ .regular) :
    r.legacyHash = none :=
  if_neg fun h => hkind h.2.1

theorem recounts_countCreated (h : m.refcounts.Tallies f)
    (hdata : data.kind = .regular → data.size ≠ u64Max ∧ f data.hash < u32Max) :
    Recounts m (m.countCreated data)
      fun x => f x + one (WorkspaceInode.legacy data).legacyHash x := by
  unfold countCreated
  split_ifs with hkind
  · obtain ⟨hsize, hroom⟩ := hdata hkind
    rw [legacyHash_legacy hkind hsize]
    -- the sum fits into 32 bits
    have hsum : ((m.refcounts.get data.hash).getD 0 + 1) % 2 ^ 32 =
        (m.refcounts.get data.hash).getD 0 + 1 := by
      rw [h.getD]
      apply Nat.mod_eq_of_lt
      unfold u32Max at hroom
      omega
    dsimp only
    rw [hsum]
    refine ⟨tallies_added h, (carries_insert (Nat.succ_ne_zero _) fun x hx => ?_).tracked⟩
    split_ifs
    · rw [Table.get_erase, if_neg hx]
    · rfl
  · rw [legacyHash_of_kind (r := .legacy data) hkind]
    exact recounts_of_eq h rfl rfl

theorem recounts_countRemoved (now : ℕ) (h : m.refcounts.Tallies f) (hkind : data.kind = .regular) :
    Recounts m (m.countRemoved now data) fun x => f x - one (some data.hash) x := by
  have htallies := tallies_removed data.hash h rfl
  unfold countRemoved
  rw [if_pos hkind]
  dsimp only
  split_ifs at htallies ⊢ with hzero
  · exact ⟨htallies, (carries_erase now data.hash).tracked⟩
  · refine ⟨htallies, (carries_insert hzero fun x hx => ?_).tracked⟩
    rw [Table.get_erase, if_neg hx]

/-! ## What the transactions do to the rows -/

theorem countCreated_inodes (m : MetadataStore) (data : InodeData) :
    (m.countCreated data).inodes = m.inodes := by
  unfold countCreated
  split_ifs <;> rfl

theorem countRemoved_inodes (m : MetadataStore) (now : ℕ) (data : InodeData) :
    (m.countRemoved now data).inodes = m.inodes := by
  unfold countRemoved
  dsimp only
  split_ifs <;> rfl

/-! ## One call -/

def Keeps (m n : MetadataStore) : Prop := Recounts m n n.references

theorem Keeps.exact (h : Keeps m n) : n.Exact := h.tallies

theorem Exact.keeps_self (h : m.Exact) : Keeps m m := recounts_of_eq h rfl rfl

theorem Recounts.keeps_insert (m : MetadataStore) (agent : String) (inode : ℕ)
    (r : WorkspaceInode) (hinodes : n.inodes = m.inodes.insert (toLex (agent, inode)) r)
    (h : Recounts p n fun x => m.references x -
      one ((m.workspaceInode agent inode).bind WorkspaceInode.legacyHash) x +
        one r.legacyHash x) : Keeps p n := by
  refine h.congr fun x => ?_
  have hrows := references_insert hinodes x
  have hle := one_le_references (m := m) agent inode x
  omega

theorem Exact.commitNamespace {rows : List (ℕ × WorkspaceInode)}
    {names : List (ℕ × String × Option ℕ)} (h : m.Exact)
    (hn : m.commitNamespace agent now rows names = .ok n) : Keeps m n := by
  obtain ⟨hcounted, hcarries, -⟩ := commitNamespace_eq_ok hn
  refine ⟨Table.tallies_iff.2 ⟨hcounted h.getD, hcarries.positive fun x => ?_⟩, hcarries.tracked⟩
  exact (Table.tallies_iff.1 h).2 x

theorem Exact.created (h : m.Exact) (hvacant : m.Vacant agent inode) (hdata : m.Countable data)
    (hinodes : p.inodes = m.inodes.insert (toLex (agent, inode)) (.legacy data))
    (hcounts : p.refcounts = m.refcounts) (htrash : p.trash = m.trash) :
    Keeps m (p.countCreated data) := by
  have hp : p.refcounts.Tallies m.references := hcounts ▸ h
  have hcreated := (recounts_countCreated hp hdata).of_left hcounts.symm htrash.symm
  refine Recounts.keeps_insert m agent inode (.legacy data) ?_ ?_
  · rw [countCreated_inodes, hinodes]
  · rw [hvacant]
    exact hcreated

theorem Exact.createFile (h : m.Exact) (hvacant : m.Vacant agent inode) (hdata : m.Countable data) :
    Keeps m (m.createFile agent parent name inode data) :=
  h.created hvacant hdata rfl rfl rfl

theorem ensureRoot_eq (m : MetadataStore) (agent : String) (now : ℕ) :
    (m.ensureRoot agent now).refcounts = m.refcounts ∧ (m.ensureRoot agent now).trash = m.trash ∧
    (m.ensureRoot agent now).counters = m.counters ∧
    (∀ inode, m.Vacant agent inode → (m.ensureRoot agent now).Vacant agent inode) ∧
    ∀ hash, (m.ensureRoot agent now).references hash = m.references hash := by
  unfold ensureRoot
  split_ifs with hnone
  · refine ⟨rfl, rfl, rfl, fun inode hvacant => ?_, fun hash => ?_⟩
    · unfold Vacant workspaceInode at hvacant ⊢
      simp only [setInode, Table.get_insert]
      split_ifs
      · rfl
      · exact hvacant
    · have hrows := references_insert (m := m)
        (n := m.setInode agent 1 (.directory 0o755 (now / 1000))) rfl hash
      rw [hnone] at hrows
      exact hrows
  · exact ⟨rfl, rfl, rfl, fun _ => id, fun _ => rfl⟩

theorem allocate_keeps (h : m.Exact) (hzero : m.Vacant agent 0) (hvacant : m.Vacant agent inode)
    (hinode : inode ≠ 0) (hdata : m.Countable data) (hinodes : p.inodes =
      (m.inodes.erase (toLex (agent, 0))).insert (toLex (agent, inode)) (.legacy data))
    (hcounts : p.refcounts = m.refcounts) (htrash : p.trash = m.trash) :
    Keeps m (p.countCreated data) := by
  let erased : MetadataStore := { m with inodes := m.inodes.erase (toLex (agent, 0)) }
  have hreferences : ∀ hash, erased.references hash = m.references hash := by
    intro hash
    have hrows := references_erase (m := m) (n := erased) rfl hash
    rw [hzero] at hrows
    exact hrows
  have hexact : erased.Exact := by
    intro hash
    rw [hreferences hash]
    exact h hash
  have hkey : ¬ toLex (agent, inode) = toLex (agent, 0) :=
    fun heq => hinode (congrArg (fun key => (ofLex key).2) heq)
  have hrow : erased.workspaceInode agent inode = m.workspaceInode agent inode :=
    (Table.get_erase _ _ _).trans (if_neg hkey)
  have hvacant' : erased.Vacant agent inode := by
    unfold Vacant
    rw [hrow]
    exact hvacant
  have hdata' : erased.Countable data := by
    intro hkind
    rw [hreferences]
    exact hdata hkind
  exact (hexact.created hvacant' hdata' hinodes hcounts htrash).of_left rfl rfl

theorem Exact.createFileAllocatingInode {root : Bool} {made : ℕ × MetadataStore} (h : m.Exact)
    (hzero : m.Vacant agent 0) (hvacant : m.Vacant agent (m.nextNumber agent))
    (hdata : m.Countable data)
    (hmade : m.createFileAllocatingInode now agent parent name data root = .ok made) :
    Keeps m made.2 := by
  simp only [MetadataStore.createFileAllocatingInode, restoredAllocationFloor, bind_eq_ok,
    ensure_eq_ok, exists_unit] at hmade
  obtain ⟨floor, ⟨-, hfloor⟩, -, hmade⟩ := hmade
  generalize hrooted : (if root = true then m.ensureRoot agent now else m) = rooted at hfloor hmade
  -- with or without the root, the layer shows the same counters and references
  have hsame : rooted.refcounts = m.refcounts ∧ rooted.trash = m.trash ∧
      rooted.counters = m.counters ∧
      (∀ inode, m.Vacant agent inode → rooted.Vacant agent inode) ∧
      ∀ hash, rooted.references hash = m.references hash := by
    rw [← hrooted]
    split_ifs
    · exact ensureRoot_eq m agent now
    · exact ⟨rfl, rfl, rfl, fun _ => id, fun _ => rfl⟩
  obtain ⟨hcounts, htrash, hcounters, hrows, hreferences⟩ := hsame
  cases hfloor
  cases hmade
  have hnumber : m.nextNumber agent = max ((rooted.counters.get agent).getD 1)
      ((rooted.counters.get sharedBaseLayerId).getD 1) + 1 := by
    rw [hcounters]
    rfl
  have hexact : rooted.Exact := by
    intro hash
    rw [hreferences hash, hcounts]
    exact h hash
  have hdata' : rooted.Countable data := by
    intro hkind
    rw [hreferences]
    exact hdata hkind
  rw [← hnumber]
  have hkept := allocate_keeps (p := { rooted with
      inodes := (rooted.inodes.erase (toLex (agent, 0))).insert
        (toLex (agent, m.nextNumber agent)) (.legacy data)
      counters := rooted.counters.insert agent (m.nextNumber agent)
      dirents := rooted.dirents.insert (toLex (agent, toLex (parent, name))) (m.nextNumber agent) })
    hexact (hrows 0 hzero) (hrows _ hvacant) (Nat.succ_ne_zero _) hdata' rfl rfl rfl
  exact hkept.of_left hcounts.symm htrash.symm

theorem Exact.removeFile {out : Option InodeData × MetadataStore} (h : m.Exact)
    (hrow : m.Removable agent inode) (hout : m.removeFile now agent parent name inode = .ok out) :
    Keeps m out.2 := by
  simp only [MetadataStore.removeFile, bind_eq_ok, ensure_eq_ok] at hout
  obtain ⟨-, -, hout⟩ := hout
  let removed : MetadataStore := { m with
    inodes := m.inodes.erase (toLex (agent, inode))
    dirents := m.dirents.erase (toLex (agent, toLex (parent, name))) }
  have hrows : ∀ x, removed.references x +
      one ((m.workspaceInode agent inode).bind WorkspaceInode.legacyHash) x = m.references x :=
    references_erase rfl
  cases hfound : m.workspaceInode agent inode with
  | none =>
    rw [hfound] at hout hrows
    cases hout
    have hsame : Recounts m removed m.references := recounts_of_eq h rfl rfl
    exact hsame.congr fun x => (hrows x).symm
  | some r =>
    rw [hfound] at hout hrows
    cases hout
    have hreferences : ∀ x, (removed.countRemoved now r.data).references x +
        one r.legacyHash x = m.references x := by
      intro x
      rw [references, countRemoved_inodes]
      exact hrows x
    have hp : removed.refcounts.Tallies m.references := h
    by_cases hkind : r.data.kind = .regular
    · have hdropped : Recounts m _ _ :=
        (recounts_countRemoved now hp hkind).of_left rfl rfl
      refine hdropped.congr fun x => ?_
      have hlegacy : r.legacyHash = some r.data.hash ∨
          r.legacyHash = none ∧ m.references r.data.hash = 0 := by
        cases hhash : r.legacyHash with
        | none => exact .inr ⟨rfl, (hrow r hfound hkind).resolve_left (fun hne => hne hhash)⟩
        | some hash =>
          unfold WorkspaceInode.legacyHash at hhash
          split_ifs at hhash
          exact .inl hhash.symm
      have hx := hreferences x
      rcases hlegacy with hlegacy | ⟨hlegacy, hzero⟩
      · rw [hlegacy] at hx
        exact Nat.sub_eq_of_eq_add hx.symm
      · rw [hlegacy, one_none, Nat.add_zero] at hx
        rw [hx]
        by_cases heq : x = r.data.hash
        · rw [heq, hzero, Nat.zero_sub]
        · rw [one_of_ne heq, Nat.sub_zero]
    · have huncounted : removed.countRemoved now r.data = removed := if_neg hkind
      have hsame : Recounts m removed m.references := recounts_of_eq h rfl rfl
      rw [huncounted] at hreferences ⊢
      refine hsame.congr fun x => ?_
      have hx := hreferences x
      rw [legacyHash_of_kind hkind] at hx
      exact hx.symm

theorem keeps_restoreWorkspaceTables {dump : FsMetadataDump} (hdump : m.Restorable dump)
    (hn : m.restoreWorkspaceTables dump = .ok n) : Keeps m n := by
  simp only [MetadataStore.restoreWorkspaceTables, bind_eq_ok] at hn
  obtain ⟨-, -, hn⟩ := hn
  cases hn
  refine ⟨hdump.1, fun hash hm => ?_⟩
  exact (hdump.2 hash (mem_trackedHashes.2 hm)).of_tables rfl rfl

theorem Exact.restoreFromTrash (h : m.Exact)
    (hhash : m.trash.get hash = none ∨ m.references hash ≠ 0) :
    Keeps m (m.restoreFromTrash hash).2 := by
  unfold MetadataStore.restoreFromTrash
  split_ifs with hnone hzero
  · exact h.keeps_self
  · rw [h.getD] at hzero
    exact absurd hzero (hhash.resolve_left hnone)
  · refine ⟨h, tracked_of_writes hash (.inl ?_) (fun _ _ => rfl) fun x hx => ?_⟩
    · intro hrow
      exact hhash.resolve_left hnone ((h.get_eq_none_iff hash).1 hrow)
    · exact (Table.get_erase _ _ _).trans (if_neg hx)

theorem tracked_cleanQueue {expired : List BlobHash} (hm : m.Tracked hash)
    (hkept : hash ∉ expired) : (m.cleanQueue expired).Tracked hash := by
  have hqueue : ∀ t : Table BlobHash ℕ, (expired.foldl (fun t hash =>
      if m.refcounts.get hash = none then t.erase hash else t) t).get hash = t.get hash := by
    induction expired with
    | nil => exact fun _ => rfl
    | cons first expired ih =>
      intro t
      have hne : hash ≠ first := fun heq => hkept (heq ▸ List.mem_cons_self)
      have htail : hash ∉ expired := fun hmem => hkept (List.mem_cons_of_mem _ hmem)
      rw [List.foldl_cons, ih htail]
      split_ifs
      · rw [Table.get_erase, if_neg hne]
      · rfl
  rcases hm with hcount | hentry
  · exact .inl hcount
  · exact .inr ((hqueue m.trash).trans_ne hentry)

/-! ## Whole histories -/

def CountedCall.Collects (hash : BlobHash) : CountedCall → Prop
  | .cleanQueue expired => hash ∈ expired
  | _ => False

theorem Exact.transact {call : CountedCall} (h : m.Exact) (hcall : m.Careful call)
    (hn : m.transact call = .ok n) :
    n.Exact ∧ ∀ hash, m.Tracked hash → n.Tracked hash ∨ call.Collects hash := by
  have hkept : Keeps m n → n.Exact ∧ ∀ hash, m.Tracked hash → n.Tracked hash ∨ call.Collects hash :=
    fun hkept => ⟨hkept.exact, fun hash hm => .inl (hkept.tracked hash hm)⟩
  cases call with
  | commitNamespace agent now inodes dirents =>
    obtain ⟨-, -, hn⟩ := bind_eq_ok.1 hn
    exact hkept (h.commitNamespace hn)
  | createFile agent parent name inode data =>
    cases hn
    exact hkept (h.createFile hcall.1 hcall.2)
  | createFileAllocatingInode now agent parent name data root =>
    obtain ⟨made, hmade, rfl⟩ := map_eq_ok.1 hn
    exact hkept (h.createFileAllocatingInode hcall.1 hcall.2.1 hcall.2.2 hmade)
  | removeFile now agent parent name inode =>
    obtain ⟨out, hout, rfl⟩ := map_eq_ok.1 hn
    exact hkept (h.removeFile hcall hout)
  | restoreWorkspaceTables dump =>
    obtain ⟨-, -, hn⟩ := bind_eq_ok.1 hn
    exact hkept (keeps_restoreWorkspaceTables hcall hn)
  | restoreFromTrash hash =>
    cases hn
    exact hkept (h.restoreFromTrash hcall)
  | cleanQueue expired =>
    cases hn
    refine ⟨h, fun hash hm => ?_⟩
    by_cases hmem : hash ∈ expired
    · exact .inr hmem
    · exact .inl (tracked_cleanQueue hm hmem)

theorem Exact.afterCall {call : CountedCall} (h : m.Exact) (hcall : m.Careful call) :
    (m.afterCall call).Exact ∧
      ∀ hash, m.Tracked hash → (m.afterCall call).Tracked hash ∨ call.Collects hash := by
  unfold MetadataStore.afterCall
  split
  · next n hn => exact h.transact hcall hn
  · exact ⟨h, fun _ => .inl⟩

theorem exact_final {run : List CountedCall} (h : m.Exact)
    (hrun : countMachine.Meets Careful m run) : (countMachine.final m run).Exact := by
  have hkeep : ∀ (m : MetadataStore) (call : CountedCall), m.Exact → m.Careful call →
      (countMachine.call m call).1.Exact := fun m call h hcall => (h.afterCall hcall).1
  exact countMachine.final_invariant hkeep h hrun

theorem tracked_final {run : List CountedCall} (h : m.Exact)
    (hrun : countMachine.Meets Careful m run) (hm : m.Tracked hash) :
    (countMachine.final m run).Tracked hash ∨ ∃ call ∈ run, call.Collects hash := by
  induction run generalizing m with
  | nil => exact .inl hm
  | cons call run ih =>
    obtain ⟨hcall, hrest⟩ := hrun
    obtain ⟨hexact, htracked⟩ := h.afterCall hcall
    rcases htracked hash hm with hnext | hcollects
    · rcases ih hexact hrest hnext with hlast | ⟨later, hmem, hcollects⟩
      · exact .inl hlast
      · exact .inr ⟨later, List.mem_cons_of_mem _ hmem, hcollects⟩
    · exact .inr ⟨call, List.mem_cons_self, hcollects⟩

/-- Exact counts, over every run of careful calls from exact counts. In every state, the count of a
blob is the number of rows that reference it, and it has no count row exactly where that number is
zero; a blob that was referenced earlier in the run and no longer is waits in the trash queue,
unless it has been collected since. -/
theorem counts_exact_of_careful (m : MetadataStore) (hm : m.Exact) (run : List CountedCall)
    (hrun : countMachine.Meets Careful m run) :
    (∀ before, before <+: run → ∀ hash,
      (countMachine.final m before).countOf hash =
          (countMachine.final m before).references hash ∧
        ((countMachine.final m before).refcounts.get hash = none ↔
          (countMachine.final m before).references hash = 0)) ∧
    ∀ before between, before ++ between <+: run → ∀ hash,
      (countMachine.final m before).references hash ≠ 0 →
      (countMachine.final m (before ++ between)).references hash = 0 →
      (countMachine.final m (before ++ between)).trash.get hash ≠ none ∨
        ∃ call ∈ between, call.Collects hash := by
  have hreached : ∀ before, before <+: run → (countMachine.final m before).Exact := by
    rintro before ⟨rest, rfl⟩
    exact exact_final hm ((countMachine.meets_append Careful m before rest).1 hrun).1
  refine ⟨fun before hbefore hash => ?_, fun before between hbefore hash hold hnew => ?_⟩
  · have hexact := hreached before hbefore
    exact ⟨hexact.getD hash, hexact.get_eq_none_iff hash⟩
  · have hfirst := hreached before ((List.prefix_append before between).trans hbefore)
    have hlast := hreached (before ++ between) hbefore
    have hmeets : countMachine.Meets Careful (countMachine.final m before) between := by
      obtain ⟨rest, rfl⟩ := hbefore
      have hboth := ((countMachine.meets_append Careful m (before ++ between) rest).1 hrun).1
      exact ((countMachine.meets_append Careful m before between).1 hboth).2
    have htracked : (countMachine.final m before).Tracked hash :=
      .inl fun hnone => hold ((hfirst.get_eq_none_iff hash).1 hnone)
    rcases tracked_final hfirst hmeets htracked with (hcount | htrash) | hcollects
    · rw [← countMachine.final_append] at hcount
      exact absurd ((hlast.get_eq_none_iff hash).2 hnew) hcount
    · rw [← countMachine.final_append] at htrash
      exact .inl htrash
    · exact .inr hcollects

def note (hash : BlobHash) : InodeData := .regular hash 1 420 0

/-- Two files of one content are made, one is overwritten and both are removed; the world is
restored from a dump of the last state, and a file takes the content out of the trash again. -/
def carefulRun : List CountedCall :=
  [.createFile "alice" 1 "a" 2 (note 7), .createFileAllocatingInode 0 "bob" 1 "b" (note 7) true,
    .commitNamespace "alice" 5 [(2, .legacy (note 8))] [(1, "a", some 2)],
    .removeFile 6 "bob" 1 "b" 2, .removeFile 7 "alice" 1 "a" 2,
    .restoreWorkspaceTables ⟨.empty, .empty, .empty, .empty, .ofEntries [(7, 6), (8, 7)]⟩,
    .createFile "alice" 1 "c" 3 (note 8), .restoreFromTrash 8, .cleanQueue [7]]

theorem exact_opened : opened.Exact := fun _ => rfl

theorem carefulRun_exact :
    (countMachine.final opened carefulRun).countOf 8 =
        (countMachine.final opened carefulRun).references 8 ∧
      (countMachine.final opened carefulRun).references 8 = 1 := by
  have hrun : countMachine.Meets Careful opened carefulRun := by decide +kernel
  have hexact := (counts_exact_of_careful opened exact_opened carefulRun hrun).1 carefulRun
    (List.prefix_refl _) 8
  exact ⟨hexact.1, by decide +kernel⟩

/-- A file is created over the row of another content, whose reference is not uncounted. -/
def overwritingRun : List CountedCall :=
  [.createFile "alice" 1 "a" 2 (note 7), .createFile "alice" 1 "a" 2 (note 8)]

/-- The namespace transaction that writes the same row gives the old content back. -/
theorem overwritingRun_miscounts :
    (countMachine.final opened overwritingRun).countOf 7 = 1 ∧
      (countMachine.final opened overwritingRun).references 7 = 0 ∧
      (countMachine.final opened [.createFile "alice" 1 "a" 2 (note 7),
        .commitNamespace "alice" 5 [(2, .legacy (note 8))] [(1, "a", some 2)]]).countOf 7 = 0 := by
  decide +kernel

end MetadataStore
end Sentinel.Fs

import Sentinel.Fs.Metadata

/-! The reference counts of the legacy blobs in the namespace transaction: a row that is written
moves one reference from the blob of the row before it to its own. -/

namespace Sentinel.Fs
open Lib Table

namespace MetadataStore

variable {m n : MetadataStore} {hash : BlobHash}

def countOf (m : MetadataStore) (hash : BlobHash) : ℕ := (m.refcounts.get hash).getD 0

def refers (hash : BlobHash) (r : WorkspaceInode) : ℕ := if r.legacyHash = some hash then 1 else 0

def references (m : MetadataStore) (hash : BlobHash) : ℕ := m.inodes.total (refers hash)

def Counted (m : MetadataStore) : Prop := ∀ hash, m.countOf hash = m.references hash

def Tracked (m : MetadataStore) (hash : BlobHash) : Prop :=
  m.refcounts.get hash ≠ none ∨ m.trash.get hash ≠ none

instance (m : MetadataStore) (hash : BlobHash) : Decidable (m.Tracked hash) :=
  inferInstanceAs (Decidable (_ ∨ _))

def one (o : Option BlobHash) (hash : BlobHash) : ℕ := if o = some hash then 1 else 0

theorem one_self (hash : BlobHash) : one (some hash) hash = 1 := if_pos rfl

theorem one_of_ne {other : BlobHash} (h : other ≠ hash) : one (some hash) other = 0 :=
  if_neg fun heq => h (Option.some.inj heq).symm

theorem one_none (hash : BlobHash) : one none hash = 0 := rfl

theorem mem_referencedHashes :
    hash ∈ m.referencedHashes ↔ ∃ key r, m.inodes.get key = some r ∧ r.legacyHash = some hash := by
  simp only [referencedHashes, List.mem_filterMap, mem_values_iff]
  constructor
  · rintro ⟨r, ⟨key, hkey⟩, hr⟩
    exact ⟨key, r, hkey, hr⟩
  · rintro ⟨key, r, hkey, hr⟩
    exact ⟨r, ⟨key, hkey⟩, hr⟩

theorem Counted.not_referenced (h : m.Counted) (hnone : m.refcounts.get hash = none) :
    hash ∉ m.referencedHashes := by
  intro hmem
  obtain ⟨key, r, hkey, hr⟩ := mem_referencedHashes.1 hmem
  have hone : 1 ≤ m.references hash := by
    have hle := le_total (f := refers hash) hkey
    rwa [refers, if_pos hr] at hle
  rw [← h hash, countOf, hnone] at hone
  exact absurd hone (by decide)

/-! ## References of the rows -/

theorem refers_eq_one (hash : BlobHash) (r : WorkspaceInode) :
    refers hash r = one r.legacyHash hash := rfl

theorem elim_refers (o : Option WorkspaceInode) (hash : BlobHash) :
    o.elim 0 (refers hash) = one (o.bind WorkspaceInode.legacyHash) hash := by
  cases o <;> rfl

variable {agent : String} {now inode : ℕ}

theorem references_insert {r : WorkspaceInode}
    (hn : n.inodes = m.inodes.insert (toLex (agent, inode)) r) (hash : BlobHash) :
    n.references hash + one ((m.workspaceInode agent inode).bind WorkspaceInode.legacyHash) hash =
      m.references hash + one r.legacyHash hash := by
  have hrows := total_insert_add (refers hash) m.inodes (toLex (agent, inode)) r
  rw [elim_refers, refers_eq_one, ← hn] at hrows
  exact hrows

theorem references_erase (hn : n.inodes = m.inodes.erase (toLex (agent, inode))) (hash : BlobHash) :
    n.references hash + one ((m.workspaceInode agent inode).bind WorkspaceInode.legacyHash) hash =
      m.references hash := by
  rw [references, references, hn, workspaceInode]
  cases hrow : m.inodes.get (toLex (agent, inode)) with
  | none =>
    have hsame : m.inodes.erase (toLex (agent, inode)) = m.inodes := by
      apply eq_of_get_eq
      intro key
      rw [get_erase]
      split_ifs with hkey
      · rw [hkey, hrow]
      · rfl
    rw [hsame]
    rfl
  | some r => exact total_erase hrow

theorem one_le_references (agent : String) (inode : ℕ) (hash : BlobHash) :
    one ((m.workspaceInode agent inode).bind WorkspaceInode.legacyHash) hash ≤
      m.references hash := by
  rw [← references_erase (n := { m with inodes := m.inodes.erase (toLex (agent, inode)) }) rfl hash]
  exact Nat.le_add_left _ _

/-! ## What a transaction carries over -/

theorem Tracked.of_tables (hrefcounts : n.refcounts = m.refcounts) (htrash : n.trash = m.trash)
    (h : m.Tracked hash) : n.Tracked hash := by
  unfold Tracked at h ⊢
  rwa [hrefcounts, htrash]

theorem tracked_of_writes (hash : BlobHash) (hown : n.Tracked hash)
    (hcounts : ∀ x, x ≠ hash → n.refcounts.get x = m.refcounts.get x)
    (htrash : ∀ x, x ≠ hash → n.trash.get x = m.trash.get x) (x : BlobHash) (hx : m.Tracked x) :
    n.Tracked x := by
  by_cases heq : x = hash
  · exact heq ▸ hown
  · unfold Tracked at hx ⊢
    rwa [hcounts x heq, htrash x heq]

/-- Beside the counts: the pins stay, no count of zero is written, and no blob is forgotten. -/
structure Carries (m n : MetadataStore) : Prop where
  pins : n.pins = m.pins
  positive : (∀ hash, m.refcounts.get hash ≠ some 0) → ∀ hash, n.refcounts.get hash ≠ some 0
  tracked : ∀ hash, m.Tracked hash → n.Tracked hash

theorem Carries.refl (m : MetadataStore) : Carries m m := ⟨rfl, id, fun _ => id⟩

theorem Carries.trans {p : MetadataStore} (h : Carries m n) (h' : Carries n p) : Carries m p :=
  ⟨h'.pins.trans h.pins, h'.positive ∘ h.positive, fun x hx => h'.tracked x (h.tracked x hx)⟩

theorem carries_erase (now : ℕ) (hash : BlobHash) : Carries m
    { m with refcounts := m.refcounts.erase hash, trash := m.trash.insert hash now } := by
  refine ⟨rfl, fun h x => ?_, tracked_of_writes hash (.inr ?_) ?_ ?_⟩
  · rw [get_erase]
    split_ifs
    · exact (Option.some_ne_none _).symm
    · exact h x
  · rw [get_insert, if_pos rfl]
    exact Option.some_ne_none _
  · intro x hx
    rw [get_erase, if_neg hx]
  · intro x hx
    rw [get_insert, if_neg hx]

theorem carries_insert {count : ℕ} (hcount : count ≠ 0) {trash : Table BlobHash ℕ}
    (htrash : ∀ x, x ≠ hash → trash.get x = m.trash.get x) :
    Carries m { m with refcounts := m.refcounts.insert hash count, trash := trash } := by
  refine ⟨rfl, fun h x => ?_, tracked_of_writes hash (.inl ?_) ?_ htrash⟩
  · rw [get_insert]
    split_ifs
    · exact fun hzero => hcount (Option.some.inj hzero)
    · exact h x
  · rw [get_insert, if_pos rfl]
    exact Option.some_ne_none _
  · intro x hx
    rw [get_insert, if_neg hx]

/-! ## Moving a reference -/

theorem dropReference_eq (now : ℕ) (old : BlobHash) :
    (m.dropReference now old).inodes = m.inodes ∧ Carries m (m.dropReference now old) ∧
      ∀ hash, (m.dropReference now old).countOf hash = m.countOf hash - one (some old) hash := by
  have hother : ∀ hash, hash ≠ old → m.countOf hash - one (some old) hash = m.countOf hash := by
    intro hash hne
    rw [one_of_ne hne, Nat.sub_zero]
  unfold dropReference
  dsimp only
  split_ifs with hzero
  · refine ⟨rfl, carries_erase now old, fun hash => ?_⟩
    by_cases heq : hash = old
    · rw [heq, one_self, countOf, countOf, get_erase, if_pos rfl, hzero]
      rfl
    · rw [hother hash heq, countOf, countOf, get_erase, if_neg heq]
  · refine ⟨rfl, carries_insert hzero fun _ _ => rfl, fun hash => ?_⟩
    by_cases heq : hash = old
    · rw [heq, one_self, countOf, countOf, get_insert, if_pos rfl]
      rfl
    · rw [hother hash heq, countOf, countOf, get_insert, if_neg heq]

theorem addReference_eq_ok {new : BlobHash} (h : m.addReference new = .ok n) :
    n.inodes = m.inodes ∧ Carries m n ∧
      ∀ hash, n.countOf hash = m.countOf hash + one (some new) hash := by
  simp only [addReference, bind_eq_ok, ensure_eq_ok] at h
  obtain ⟨-, -, hn⟩ := h
  cases hn
  refine ⟨rfl, carries_insert (Nat.succ_ne_zero _) fun x hx => ?_, fun hash => ?_⟩
  · rw [get_erase, if_neg hx]
  · by_cases heq : hash = new
    · rw [heq, one_self, countOf, countOf, get_insert, if_pos rfl]
      rfl
    · rw [one_of_ne heq, countOf, countOf, get_insert, if_neg heq]
      rfl

theorem moveReference_eq_ok {old new : Option BlobHash} (h : m.moveReference now old new = .ok n) :
    n.inodes = m.inodes ∧ Carries m n ∧
      ∀ hash, one old hash ≤ m.countOf hash →
        n.countOf hash + one old hash = m.countOf hash + one new hash := by
  unfold moveReference at h
  split_ifs at h with heq
  · cases h
    exact ⟨rfl, .refl m, fun hash _ => by rw [heq]⟩
  have hdropped : (old.elim m (m.dropReference now)).inodes = m.inodes ∧
      Carries m (old.elim m (m.dropReference now)) ∧
      ∀ hash, (old.elim m (m.dropReference now)).countOf hash = m.countOf hash - one old hash := by
    cases old with
    | none => exact ⟨rfl, .refl m, fun _ => rfl⟩
    | some old => exact dropReference_eq now old
  obtain ⟨hinodes, hcarries, hcount⟩ := hdropped
  cases new with
  | none =>
    cases h
    refine ⟨hinodes, hcarries, fun hash hle => ?_⟩
    rw [hcount hash, Nat.sub_add_cancel hle]
    rfl
  | some new =>
    obtain ⟨hinodes', hcarries', hcount'⟩ := addReference_eq_ok h
    refine ⟨hinodes'.trans hinodes, hcarries.trans hcarries', fun hash hle => ?_⟩
    rw [hcount' hash, hcount hash, Nat.add_right_comm, Nat.sub_add_cancel hle]

/-! ## The transaction -/

theorem adoptRow_eq_ok {record : WorkspaceInode} (h : m.adoptRow agent now inode record = .ok n) :
    (m.Counted → n.Counted) ∧ Carries m n ∧
      ∀ hash ∈ n.referencedHashes, hash ∈ m.referencedHashes ∨ record.legacyHash = some hash := by
  simp only [adoptRow, bind_eq_ok, ensure_eq_ok] at h
  obtain ⟨counted, hmove, -, -, hn⟩ := h
  obtain ⟨hinodes, hcarries, hcount⟩ := moveReference_eq_ok hmove
  cases hn
  refine ⟨fun hm hash => ?_, ⟨hcarries.pins, hcarries.positive, hcarries.tracked⟩,
    fun hash hmem => ?_⟩
  · have hold := one_le_references (m := m) agent inode hash
    have hmoved := hcount hash (hm hash ▸ hold)
    have hrows := references_insert (m := m) (n := { counted with
      inodes := counted.inodes.insert (toLex (agent, inode)) record }) (by rw [hinodes]) hash
    have hexact := hm hash
    show counted.countOf hash = _
    omega
  · obtain ⟨key, r, hkey, hr⟩ := mem_referencedHashes.1 hmem
    rcases get_of_insert hkey with ⟨-, rfl⟩ | hkey
    · exact .inr hr
    · exact .inl (mem_referencedHashes.2 ⟨key, r, hinodes ▸ hkey, hr⟩)

def newReferences (rows : List (ℕ × WorkspaceInode)) : List BlobHash :=
  rows.filterMap fun row => row.2.legacyHash

theorem adoptRows_eq_ok {rows : List (ℕ × WorkspaceInode)}
    (h : m.adoptRows agent now rows = .ok n) :
    (m.Counted → n.Counted) ∧ Carries m n ∧
      ∀ hash ∈ n.referencedHashes, hash ∈ m.referencedHashes ∨ hash ∈ newReferences rows := by
  induction rows generalizing m with
  | nil =>
    cases h
    exact ⟨id, .refl n, fun _ => .inl⟩
  | cons row rows ih =>
    obtain ⟨adopted, hrow, hrows⟩ := bind_eq_ok.1 h
    obtain ⟨hcounted, hcarries, hrefs⟩ := adoptRow_eq_ok hrow
    obtain ⟨hcounted', hcarries', hrefs'⟩ := ih hrows
    refine ⟨hcounted' ∘ hcounted, hcarries.trans hcarries', fun hash hmem => ?_⟩
    rcases hrefs' hash hmem with hold | hnew
    · rcases hrefs hash hold with hold | hown
      · exact .inl hold
      · exact .inr (List.mem_filterMap.2 ⟨row, List.mem_cons_self, hown⟩)
    · obtain ⟨r, hr, hown⟩ := List.mem_filterMap.1 hnew
      exact .inr (List.mem_filterMap.2 ⟨r, List.mem_cons_of_mem _ hr, hown⟩)

theorem commitNamespace_eq_ok {rows : List (ℕ × WorkspaceInode)}
    {names : List (ℕ × String × Option ℕ)} (h : m.commitNamespace agent now rows names = .ok n) :
    (m.Counted → n.Counted) ∧ Carries m n ∧
      ∀ hash ∈ n.referencedHashes, hash ∈ m.referencedHashes ∨ hash ∈ newReferences rows := by
  obtain ⟨adopted, hrows, hn⟩ := bind_eq_ok.1 h
  obtain ⟨hcounted, hcarries, hrefs⟩ := adoptRows_eq_ok hrows
  rw [foldl_adoptName_eq] at hn
  cases hn
  exact ⟨hcounted, ⟨hcarries.pins, hcarries.positive, hcarries.tracked⟩, hrefs⟩

end MetadataStore
end Sentinel.Fs

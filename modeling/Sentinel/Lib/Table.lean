import Mathlib.Algebra.GroupWithZero.Nat
import Mathlib.Algebra.BigOperators.Group.List.Basic
import Mathlib.Data.List.Induction
import Mathlib.Data.List.Sort

/-! Ordered key-value tables as an embedded store keeps them: at most one row under a key,
iterated in key order. A table is its list of rows together with the proof that the keys are
strictly increasing. -/

namespace Lib
open List

theorem find?_key_eq_some_iff {α κ : Type*} [DecidableEq κ] {key : α → κ} {rows : List α}
    (hnodup : (rows.map key).Nodup) {k : κ} {a : α} :
    rows.find? (key · = k) = some a ↔ a ∈ rows ∧ key a = k := by
  constructor
  · intro h
    exact ⟨mem_of_find?_eq_some h, by simpa using find?_some h⟩
  · rintro ⟨ha, rfl⟩
    obtain ⟨b, hb⟩ : ∃ b, rows.find? (key · = key a) = some b := by
      apply Option.isSome_iff_exists.mp
      exact find?_isSome.mpr ⟨a, ha, by simp⟩
    have hkey : key b = key a := by simpa using find?_some hb
    have hba : b = a :=
      inj_on_of_nodup_map hnodup (mem_of_find?_eq_some hb) ha hkey
    rw [hb, hba]

structure Table (κ β : Type*) [LinearOrder κ] where
  entries : List (κ × β)
  sorted : entries.Pairwise (fun a b => a.1 < b.1)

namespace Table

variable {κ β : Type*} [LinearOrder κ]

def empty : Table κ β := ⟨[], .nil⟩

def get (t : Table κ β) (k : κ) : Option β := (t.entries.find? (fun e => e.1 = k)).map Prod.snd

def values (t : Table κ β) : List β := t.entries.map Prod.snd

def erase (t : Table κ β) (k : κ) : Table κ β :=
  ⟨t.entries.filter (fun e => e.1 ≠ k), t.sorted.filter _⟩

def insert (t : Table κ β) (k : κ) (v : β) : Table κ β where
  entries := t.entries.filter (fun e => e.1 < k) ++ (k, v) :: t.entries.filter (fun e => k < e.1)
  sorted := by
    refine pairwise_append.2
      ⟨t.sorted.filter _, pairwise_cons.2 ⟨?_, t.sorted.filter _⟩, ?_⟩
    · intro e he
      exact of_decide_eq_true (mem_filter.1 he).2
    · intro a ha b hb
      have hak : a.1 < k := of_decide_eq_true (mem_filter.1 ha).2
      rcases mem_cons.1 hb with rfl | hb
      · exact hak
      · exact hak.trans (of_decide_eq_true (mem_filter.1 hb).2)

def ofRows (key : β → κ) (rows : List β) : Table κ β :=
  rows.foldl (fun t r => t.insert (key r) r) empty

theorem nodup_keys (t : Table κ β) : (t.entries.map Prod.fst).Nodup :=
  pairwise_map.2 (t.sorted.imp fun h => h.ne)

variable {t u : Table κ β} {k : κ} {v : β} {f : β → ℕ}

theorem get_eq_some_iff : t.get k = some v ↔ (k, v) ∈ t.entries := by
  simp only [get, Option.map_eq_some_iff, find?_key_eq_some_iff t.nodup_keys]
  constructor
  · rintro ⟨e, ⟨he, rfl⟩, rfl⟩
    exact he
  · intro hmem
    exact ⟨(k, v), ⟨hmem, rfl⟩, rfl⟩

theorem mem_entries_insert {e : κ × β} :
    e ∈ (t.insert k v).entries ↔ e = (k, v) ∨ e ∈ t.entries ∧ e.1 ≠ k := by
  simp only [insert, mem_append, mem_cons, mem_filter, decide_eq_true_eq,
    ne_iff_lt_or_gt]
  tauto

theorem get_insert (t : Table κ β) (k k' : κ) (v : β) :
    (t.insert k v).get k' = if k' = k then some v else t.get k' := by
  ext w
  rw [get_eq_some_iff, mem_entries_insert]
  split_ifs with h
  · simp [h, eq_comm]
  · simp [h, get_eq_some_iff]

theorem get_erase (t : Table κ β) (k k' : κ) :
    (t.erase k).get k' = if k' = k then none else t.get k' := by
  ext w
  rw [get_eq_some_iff]
  simp only [erase, mem_filter, decide_eq_true_eq]
  split_ifs with h
  · simp [h]
  · simp [h, get_eq_some_iff]

@[simp] theorem get_empty (k : κ) : (empty : Table κ β).get k = none := rfl

theorem get_of_erase {k' : κ} (h : (t.erase k).get k' = some v) : t.get k' = some v := by
  rw [get_erase] at h
  split_ifs at h
  exact h

theorem get_of_insert {k' : κ} {w : β} (h : (t.insert k v).get k' = some w) :
    k' = k ∧ v = w ∨ t.get k' = some w := by
  rw [get_insert] at h
  split_ifs at h with heq
  · exact .inl ⟨heq, Option.some.inj h⟩
  · exact .inr h

theorem mem_values_iff : v ∈ t.values ↔ ∃ k, t.get k = some v := by
  simp [values, get_eq_some_iff]

def map {γ : Type*} (f : β → γ) (t : Table κ β) : Table κ γ :=
  ⟨t.entries.map fun e => (e.1, f e.2), pairwise_map.2 t.sorted⟩

theorem get_map {γ : Type*} (f : β → γ) (t : Table κ β) (k : κ) :
    (t.map f).get k = (t.get k).map f := by
  simp only [get, map, find?_map, Option.map_map]
  rfl

def keysWhere (p : β → Bool) (t : Table κ β) : List κ :=
  (t.entries.filter fun e => p e.2).map Prod.fst

theorem mem_keysWhere {p : β → Bool} : k ∈ t.keysWhere p ↔ (t.get k).map p = some true := by
  simp only [keysWhere, mem_map, mem_filter, Option.map_eq_some_iff, get_eq_some_iff]
  constructor
  · rintro ⟨e, ⟨hmem, hp⟩, rfl⟩
    exact ⟨e.2, hmem, hp⟩
  · rintro ⟨v, hmem, hp⟩
    exact ⟨(k, v), ⟨hmem, hp⟩, rfl⟩

theorem keysWhere_congr {p : β → Bool} (h : ∀ k, (t.get k).map p = (u.get k).map p) :
    t.keysWhere p = u.keysWhere p := by
  have hsorted : ∀ t : Table κ β, (t.keysWhere p).SortedLT := fun t =>
    List.Pairwise.sortedLT (pairwise_map.2 (t.sorted.filter _))
  refine (hsorted t).eq_of_mem_iff (hsorted u) fun k => ?_
  rw [mem_keysWhere, mem_keysWhere, h]

theorem values_ne_nil_iff : t.values ≠ [] ↔ ∃ k v, t.get k = some v := by
  constructor
  · intro h
    obtain ⟨v, hv⟩ := exists_mem_of_ne_nil _ h
    obtain ⟨k, hk⟩ := mem_values_iff.1 hv
    exact ⟨k, v, hk⟩
  · rintro ⟨k, v, hk⟩
    exact ne_nil_of_mem (mem_values_iff.2 ⟨k, hk⟩)

theorem mem_of_get_ofRows {key : β → κ} {rows : List β} (h : (ofRows key rows).get k = some v) :
    v ∈ rows ∧ key v = k := by
  induction rows using List.reverseRecOn with
  | nil => cases h
  | append_singleton rows row ih =>
    rw [ofRows, foldl_concat] at h
    rcases get_of_insert h with ⟨rfl, rfl⟩ | h
    · exact ⟨mem_concat_self, rfl⟩
    · exact (ih h).imp_left (mem_append_left _)

theorem entries_foldl_insert (key : β → κ) (rows : List β) (t : Table κ β)
    (ht : ∀ e ∈ t.entries, ∀ r ∈ rows, e.1 < key r)
    (hrows : rows.Pairwise (fun a b => key a < key b)) :
    (rows.foldl (fun t r => t.insert (key r) r) t).entries =
      t.entries ++ rows.map (fun r => (key r, r)) := by
  induction rows generalizing t with
  | nil => simp
  | cons r rows ih =>
    obtain ⟨hr, hrows⟩ := pairwise_cons.1 hrows
    -- every key already present is below the new one, so the row goes to the end
    have hins : (t.insert (key r) r).entries = t.entries ++ [(key r, r)] := by
      have hlt : ∀ e ∈ t.entries, e.1 < key r := fun e he => ht e he r (by simp)
      simp only [insert]
      rw [filter_eq_self.2 (fun e he => decide_eq_true (hlt e he)),
        filter_eq_nil_iff.2 (fun e he => by simpa using (hlt e he).le)]
    have ht' : ∀ e ∈ (t.insert (key r) r).entries, ∀ x ∈ rows, e.1 < key x := by
      intro e he x hx
      rcases mem_entries_insert.1 he with rfl | ⟨he, -⟩
      · exact hr x hx
      · exact ht e he x (by simp [hx])
    rw [foldl_cons, ih _ ht' hrows, hins]
    simp

theorem entries_ofRows {key : β → κ} {rows : List β}
    (hrows : rows.Pairwise (fun a b => key a < key b)) :
    (ofRows key rows).entries = rows.map (fun r => (key r, r)) := by
  simpa [ofRows, empty] using entries_foldl_insert key rows empty (by simp [empty]) hrows

theorem values_ofRows {key : β → κ} {rows : List β}
    (hrows : rows.Pairwise (fun a b => key a < key b)) : (ofRows key rows).values = rows := by
  simp [values, entries_ofRows hrows, Function.comp_def]

theorem get_ofRows {key : β → κ} {rows : List β}
    (hrows : rows.Pairwise (fun a b => key a < key b)) {r : β} :
    (ofRows key rows).get k = some r ↔ r ∈ rows ∧ key r = k := by
  rw [get_eq_some_iff, entries_ofRows hrows]
  aesop

theorem nodup_entries (t : Table κ β) : t.entries.Nodup := t.nodup_keys.of_map

theorem get_eq_none_iff : t.get k = none ↔ ∀ e ∈ t.entries, e.1 ≠ k := by
  rw [Option.eq_none_iff_forall_ne_some]
  constructor
  · rintro h e he rfl
    exact h e.2 (get_eq_some_iff.2 he)
  · intro h v hv
    exact h (k, v) (get_eq_some_iff.1 hv) rfl

theorem mem_keys : k ∈ t.entries.map Prod.fst ↔ t.get k ≠ none := by
  rw [ne_eq, get_eq_none_iff]
  simp

theorem entries_eq_nil (h : ∀ k, t.get k = none) : t.entries = [] :=
  eq_nil_iff_forall_not_mem.2 fun e he => get_eq_none_iff.1 (h e.1) e he rfl

theorem get_of_entries_nil (h : t.entries = []) (k : κ) : t.get k = none := by
  rw [get, h]
  rfl

theorem erase_entries_nil (h : t.entries = []) (k : κ) : (t.erase k).entries = [] := by
  simp only [erase, h, filter_nil]

def total (f : β → ℕ) (t : Table κ β) : ℕ := (t.values.map f).sum

theorem total_eq_of_perm (h : u.entries.Perm ((k, v) :: t.entries)) :
    u.total f = t.total f + f v := by
  have hsum := ((h.map Prod.snd).map f).sum_eq
  rw [total, values, hsum, map_cons, map_cons, sum_cons, Nat.add_comm]
  rfl

theorem perm_entries_insert (v : β) (h : t.get k = none) :
    (t.insert k v).entries.Perm ((k, v) :: t.entries) := by
  have hfresh := get_eq_none_iff.1 h
  have hnodup : ((k, v) :: t.entries).Nodup :=
    nodup_cons.2 ⟨fun hmem => hfresh _ hmem rfl, t.nodup_entries⟩
  apply (perm_ext_iff_of_nodup (t.insert k v).nodup_entries hnodup).2
  intro e
  rw [mem_entries_insert, mem_cons]
  exact or_congr_right ⟨And.left, fun he => ⟨he, hfresh e he⟩⟩

theorem total_insert (v : β) (h : t.get k = none) : (t.insert k v).total f = t.total f + f v :=
  total_eq_of_perm (perm_entries_insert v h)

theorem perm_entries_erase (h : t.get k = some v) :
    t.entries.Perm ((k, v) :: (t.erase k).entries) := by
  have hmem := get_eq_some_iff.1 h
  have herase : ∀ e, e ∈ (t.erase k).entries ↔ e ∈ t.entries ∧ e.1 ≠ k := by
    intro e
    simp only [erase, mem_filter, decide_eq_true_eq]
  have hnodup : ((k, v) :: (t.erase k).entries).Nodup :=
    nodup_cons.2 ⟨fun hin => ((herase _).1 hin).2 rfl, (t.erase k).nodup_entries⟩
  apply (perm_ext_iff_of_nodup t.nodup_entries hnodup).2
  intro e
  rw [mem_cons, herase]
  constructor
  · intro he
    by_cases hk : e.1 = k
    · have hrow : t.get k = some e.2 := get_eq_some_iff.2 (hk ▸ he)
      left
      rw [h] at hrow
      exact Prod.ext hk (Option.some.inj hrow).symm
    · exact .inr ⟨he, hk⟩
  · rintro (rfl | ⟨he, -⟩)
    · exact hmem
    · exact he

theorem total_erase (h : t.get k = some v) : (t.erase k).total f + f v = t.total f :=
  (total_eq_of_perm (perm_entries_erase h)).symm

theorem filter_erase (t : Table κ β) (k : κ) {p : κ → Bool} (hp : p k = false) :
    (t.erase k).entries.filter (fun e => p e.1) = t.entries.filter (fun e => p e.1) := by
  rw [erase, filter_filter]
  apply filter_congr
  intro e _
  by_cases h : e.1 = k <;> simp [h, hp]

theorem insert_erase (t : Table κ β) (k : κ) (v : β) : (t.erase k).insert k v = t.insert k v := by
  have hbelow := t.filter_erase k (p := fun x => x < k) (by simp)
  have habove := t.filter_erase k (p := fun x => k < x) (by simp)
  simp only [insert, hbelow, habove]

theorem total_insert_add (f : β → ℕ) (t : Table κ β) (k : κ) (v : β) :
    (t.insert k v).total f + (t.get k).elim 0 f = t.total f + f v := by
  cases h : t.get k with
  | none => rw [total_insert v h, Option.elim_none, Nat.add_zero]
  | some w =>
    have herased : (t.erase k).get k = none := by rw [get_erase, if_pos rfl]
    rw [← insert_erase, total_insert v herased, Option.elim_some, ← total_erase h]
    omega

theorem eq_of_perm (h : t.entries.Perm u.entries) : t = u := by
  have hentries : t.entries = u.entries := by
    refine h.eq_of_pairwise ?_ t.sorted u.sorted
    intro a b _ _ hab hba
    exact absurd hab hba.not_gt
  obtain ⟨entries, sorted⟩ := t
  obtain ⟨entries', sorted'⟩ := u
  obtain rfl : entries = entries' := hentries
  rfl

theorem eq_of_get_eq (h : ∀ k, t.get k = u.get k) : t = u := by
  apply eq_of_perm
  apply (perm_ext_iff_of_nodup t.nodup_entries u.nodup_entries).2
  intro e
  show (e.1, e.2) ∈ t.entries ↔ (e.1, e.2) ∈ u.entries
  rw [← get_eq_some_iff, ← get_eq_some_iff, h]

theorem get_foldl_erase (keys : List κ) (t : Table κ β) (k : κ) :
    (keys.foldl erase t).get k = if k ∈ keys then none else t.get k := by
  induction keys generalizing t with
  | nil => simp
  | cons k' keys ih =>
    rw [foldl_cons, ih, get_erase]
    by_cases hk : k = k' <;> simp [hk]

theorem foldl_erase_keys (t : Table κ β) : (t.entries.map Prod.fst).foldl erase t = empty := by
  refine eq_of_get_eq fun k => ?_
  rw [get_foldl_erase, get_empty]
  split_ifs with hk
  · rfl
  · exact not_not.1 (mt mem_keys.2 hk)

theorem le_total (h : t.get k = some v) : f v ≤ t.total f := by
  rw [← total_erase h]
  exact Nat.le_add_left _ _

def ofEntries (rows : List (κ × β)) : Table κ β :=
  rows.foldl (fun t e => t.insert e.1 e.2) empty

theorem mem_of_get_ofEntries {rows : List (κ × β)} (h : (ofEntries rows).get k = some v) :
    (k, v) ∈ rows := by
  induction rows using List.reverseRecOn with
  | nil => cases h
  | append_singleton rows row ih =>
    rw [ofEntries, foldl_concat] at h
    rcases get_of_insert h with ⟨rfl, rfl⟩ | h
    · exact mem_concat_self
    · exact mem_append_left _ (ih h)

theorem perm_ofEntries {rows : List (κ × β)} (h : (rows.map Prod.fst).Nodup) :
    (ofEntries rows).entries.Perm rows := by
  induction rows using List.reverseRecOn with
  | nil => exact .nil
  | append_singleton rows row ih =>
    rw [map_append, nodup_append] at h
    have hrows := ih h.1
    have hfresh : (ofEntries rows).get row.1 = none := by
      refine get_eq_none_iff.2 fun e he => ?_
      exact h.2.2 e.1 (mem_map_of_mem (hrows.mem_iff.1 he)) row.1 (by simp)
    have hlast : ofEntries (rows ++ [row]) = (ofEntries rows).insert row.1 row.2 :=
      foldl_concat ..
    rw [hlast]
    refine (perm_entries_insert row.2 hfresh).trans ((hrows.cons row).trans ?_)
    exact (perm_append_singleton row rows).symm

end Table

def collect {κ β : Type*} [DecidableEq κ] (key : β → κ) (rows : List β) (k : κ) : Option β :=
  rows.reverse.find? (fun r => key r = k)

theorem collect_eq_some_iff {κ β : Type*} [DecidableEq κ] {key : β → κ} {rows : List β}
    (hrows : (rows.map key).Nodup) {k : κ} {r : β} :
    collect key rows k = some r ↔ r ∈ rows ∧ key r = k := by
  have hrev : (rows.reverse.map key).Nodup := by rwa [map_reverse, nodup_reverse]
  rw [collect, find?_key_eq_some_iff hrev, mem_reverse]

end Lib

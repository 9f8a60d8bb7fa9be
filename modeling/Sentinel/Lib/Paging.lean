import Sentinel.Lib.Table

/-! Reading an ordered table in pages while it changes. A page holds the first rows from a cursor
on, and the key of the row after them is the cursor of the next page. The walk keeps nothing else
between two pages: what it has read is below the cursor and what is left is at or above it, whether
or not the cursor's own row is still there. -/

namespace Lib
open List

structure Page (κ β : Type*) where
  entries : List (κ × β)
  next : Option κ

namespace Table

variable {κ β : Type*} [LinearOrder κ]

def range (t : Table κ β) (after : Option κ) : List (κ × β) :=
  t.entries.filter fun e => after.all (· ≤ e.1)

/-- At most `limit` rows from `after` on. One row more is read, for the next cursor. -/
def page (t : Table κ β) (after : Option κ) (limit : ℕ) : Page κ β :=
  let entries := (t.range after).take (limit + 1)
  if limit < entries.length then ⟨entries.dropLast, entries.getLast?.map Prod.fst⟩
  else ⟨entries, none⟩

variable {t : Table κ β} {after : Option κ} {limit : ℕ} {k : κ} {e : κ × β}

theorem mem_range : e ∈ t.range after ↔ e ∈ t.entries ∧ ∀ k, after = some k → k ≤ e.1 := by
  rw [range, mem_filter]
  refine and_congr_right fun _ => ?_
  cases after with
  | none => simp
  | some k => simp

theorem range_sorted (t : Table κ β) (after : Option κ) :
    (t.range after).Pairwise fun a b => a.1 < b.1 := t.sorted.filter _

theorem length_range_le (t : Table κ β) (after : Option κ) :
    (t.range after).length ≤ t.entries.length := length_filter_le _ _

theorem page_eq (t : Table κ β) (after : Option κ) (limit : ℕ) : t.page after limit =
    ⟨(t.range after).take limit, ((t.range after).drop limit).head?.map Prod.fst⟩ := by
  unfold page
  dsimp only
  split_ifs with h
  · have hlength : (t.range after).length = ((t.range after).take limit).length +
        ((t.range after).drop limit).length := by
      rw [← length_append, take_append_drop]
    rw [length_take] at h
    obtain ⟨e, rest, hdrop⟩ : ∃ e rest, (t.range after).drop limit = e :: rest := by
      rw [← length_pos_iff_exists_cons, length_drop]
      omega
    have htake : (t.range after).take (limit + 1) = (t.range after).take limit ++ [e] := by
      rw [take_add, hdrop]
      rfl
    rw [htake, dropLast_concat, getLast?_concat, hdrop, head?_cons]
  · have hle : (t.range after).length ≤ limit := by
      rw [length_take] at h
      omega
    rw [take_of_length_le (Nat.le_succ_of_le hle), take_of_length_le hle,
      drop_of_length_le hle]
    rfl

theorem length_page_le (t : Table κ β) (after : Option κ) (limit : ℕ) :
    (t.page after limit).entries.length ≤ limit := by
  rw [page_eq]
  exact length_take_le _ _

theorem page_sorted (t : Table κ β) (after : Option κ) (limit : ℕ) :
    (t.page after limit).entries.Pairwise fun a b => a.1 < b.1 := by
  rw [page_eq]
  exact (t.range_sorted after).sublist (take_sublist _ _)

theorem le_of_mem_page (he : e ∈ (t.page (some k) limit).entries) : k ≤ e.1 := by
  rw [page_eq] at he
  exact (mem_range.1 (mem_of_mem_take he)).2 k rfl

theorem mem_page_or_next_le (he : e ∈ t.range after) (limit : ℕ) :
    e ∈ (t.page after limit).entries ∨
      ∃ k, (t.page after limit).next = some k ∧ k ≤ e.1 := by
  rw [page_eq]
  rw [← take_append_drop limit (t.range after)] at he
  refine (mem_append.1 he).imp id fun hdrop => ?_
  obtain ⟨first, rest, hrest⟩ := exists_cons_of_ne_nil (ne_nil_of_mem hdrop)
  refine ⟨first.1, by rw [hrest]; rfl, ?_⟩
  have hsorted : (first :: rest).Pairwise fun a b => a.1 < b.1 :=
    hrest ▸ (t.range_sorted after).sublist (drop_sublist _ _)
  rcases mem_cons.1 (hrest ▸ hdrop) with rfl | htail
  · exact le_refl _
  · exact ((pairwise_cons.1 hsorted).1 e htail).le

theorem lt_next_of_mem_page (he : e ∈ (t.page after limit).entries)
    (hk : (t.page after limit).next = some k) : e.1 < k := by
  rw [page_eq] at he hk
  obtain ⟨first, hfirst, rfl⟩ := Option.map_eq_some_iff.1 hk
  have hsorted := t.range_sorted after
  rw [← take_append_drop limit (t.range after)] at hsorted
  exact (pairwise_append.1 hsorted).2.2 e he first (mem_of_head? hfirst)

theorem length_range_next_lt (hlimit : 0 < limit) (hk : (t.page after limit).next = some k) :
    (t.range (some k)).length < (t.range after).length := by
  have hk' := hk
  rw [page_eq] at hk'
  obtain ⟨first, hfirst, rfl⟩ := Option.map_eq_some_iff.1 hk'
  have hpos : limit < (t.range after).length := by
    by_contra hnot
    rw [drop_of_length_le (Nat.le_of_not_lt hnot)] at hfirst
    cases hfirst
  obtain ⟨head, rest, hhead⟩ := exists_cons_of_length_pos (Nat.zero_lt_of_lt hpos)
  -- the first row of this page is below the next cursor, and all rows above that are above `after`
  have hmem : head ∈ (t.page after limit).entries := by
    rw [page_eq, hhead]
    obtain ⟨n, rfl⟩ := Nat.exists_eq_succ_of_ne_zero (Nat.pos_iff_ne_zero.1 hlimit)
    exact mem_cons_self
  have hlt := lt_next_of_mem_page hmem hk
  have hfirstRange : first ∈ t.range after := mem_of_mem_drop (mem_of_head? hfirst)
  have hsubset : t.range (some first.1) ⊆ rest := by
    intro e he
    obtain ⟨hentry, hle⟩ := mem_range.1 he
    have hrange : e ∈ t.range after := mem_range.2 ⟨hentry, fun j hj =>
      ((mem_range.1 hfirstRange).2 j hj).trans (hle first.1 rfl)⟩
    rw [hhead] at hrange
    rcases mem_cons.1 hrange with rfl | htail
    · exact absurd (hle first.1 rfl) (not_le_of_gt hlt)
    · exact htail
  have hnodup : (t.range (some first.1)).Nodup := t.nodup_entries.filter _
  rw [hhead, length_cons]
  exact Nat.lt_succ_of_le (subperm_of_subset hnodup hsubset).length_le

/-! ## The walk -/

/-- The walk over a table that is `tables i` when page `i` is read: every page, with the table it
was read from. -/
def walk (tables : ℕ → Table κ β) (limit : ℕ) :
    ℕ → ℕ → Option κ → Option (List (Table κ β × Page κ β))
  | 0, _, _ => none
  | fuel + 1, i, after =>
    let page := (tables i).page after limit
    match page.next with
    | none => some [(tables i, page)]
    | some next => (walk tables limit fuel (i + 1) (some next)).map ((tables i, page) :: ·)

variable {tables : ℕ → Table κ β} {fuel i : ℕ} {steps : List (Table κ β × Page κ β)}

def keysSeen (steps : List (Table κ β × Page κ β)) : List κ :=
  (steps.flatMap fun step => step.2.entries).map Prod.fst

theorem walk_succ (h : walk tables limit (fuel + 1) i after = some steps) :
    ((tables i).page after limit).next = none ∧
        steps = [(tables i, (tables i).page after limit)] ∨
      ∃ next rest, ((tables i).page after limit).next = some next ∧
        walk tables limit fuel (i + 1) (some next) = some rest ∧
        steps = (tables i, (tables i).page after limit) :: rest := by
  rw [walk] at h
  cases hnext : ((tables i).page after limit).next with
  | none =>
    rw [hnext] at h
    exact .inl ⟨rfl, (Option.some.inj h).symm⟩
  | some next =>
    rw [hnext] at h
    obtain ⟨rest, hrest, rfl⟩ := Option.map_eq_some_iff.1 h
    exact .inr ⟨next, rest, rfl, hrest, rfl⟩

theorem walk_sizes (h : walk tables limit fuel i after = some steps) :
    ∀ step ∈ steps, step.2.entries.length ≤ limit := by
  induction fuel generalizing i after steps with
  | zero => cases h
  | succ fuel ih =>
    obtain ⟨-, rfl⟩ | ⟨next, rest, -, hrest, rfl⟩ := walk_succ h
    · exact forall_mem_singleton.2 (length_page_le _ _ _)
    · exact forall_mem_cons.2 ⟨length_page_le _ _ _, ih hrest⟩

theorem le_of_mem_keysSeen (h : walk tables limit fuel i (some k) = some steps) :
    ∀ j ∈ keysSeen steps, k ≤ j := by
  induction fuel generalizing i k steps with
  | zero => cases h
  | succ fuel ih =>
    intro j hj
    obtain ⟨e, he, rfl⟩ := mem_map.1 hj
    obtain ⟨-, rfl⟩ | ⟨next, rest, hnext, hrest, rfl⟩ := walk_succ h
    · rw [flatMap_singleton] at he
      exact le_of_mem_page he
    · rw [flatMap_cons] at he
      rcases mem_append.1 he with hpage | htail
      · exact le_of_mem_page hpage
      · -- the next cursor is the key of a row that was in the range
        have hle : k ≤ next := by
          rw [page_eq] at hnext
          obtain ⟨first, hfirst, rfl⟩ := Option.map_eq_some_iff.1 hnext
          exact (mem_range.1 (mem_of_mem_drop (mem_of_head? hfirst))).2 k rfl
        exact hle.trans (ih hrest e.1 (mem_map.2 ⟨e, htail, rfl⟩))

theorem keysSeen_sorted (h : walk tables limit fuel i after = some steps) :
    (keysSeen steps).Pairwise (· < ·) := by
  induction fuel generalizing i after steps with
  | zero => cases h
  | succ fuel ih =>
    have hpage : (((tables i).page after limit).entries.map Prod.fst).Pairwise (· < ·) :=
      pairwise_map.2 (page_sorted _ _ _)
    obtain ⟨-, rfl⟩ | ⟨next, rest, hnext, hrest, rfl⟩ := walk_succ h
    · rw [keysSeen, flatMap_singleton]
      exact hpage
    · rw [keysSeen, flatMap_cons, map_append]
      refine pairwise_append.2 ⟨hpage, ih hrest, fun a ha b hb => ?_⟩
      obtain ⟨e, he, rfl⟩ := mem_map.1 ha
      exact (lt_next_of_mem_page he hnext).trans_le (le_of_mem_keysSeen hrest b hb)

theorem mem_keysSeen (h : walk tables limit fuel i after = some steps)
    (hafter : ∀ j, after = some j → j ≤ k) (hheld : ∀ step ∈ steps, (step.1.get k).isSome) :
    k ∈ keysSeen steps := by
  induction fuel generalizing i after steps with
  | zero => cases h
  | succ fuel ih =>
    have hfirst : ((tables i).get k).isSome := by
      obtain ⟨-, rfl⟩ | ⟨next, rest, -, -, rfl⟩ := walk_succ h
      · exact hheld _ mem_cons_self
      · exact hheld _ mem_cons_self
    obtain ⟨v, hv⟩ := Option.isSome_iff_exists.1 hfirst
    have hrange : (k, v) ∈ (tables i).range after :=
      mem_range.2 ⟨get_eq_some_iff.1 hv, hafter⟩
    rcases mem_page_or_next_le hrange limit with hpage | ⟨next', hnext', hle⟩
    · refine mem_map.2 ⟨(k, v), ?_, rfl⟩
      obtain ⟨-, rfl⟩ | ⟨next, rest, -, -, rfl⟩ := walk_succ h
      · rwa [flatMap_singleton]
      · rw [flatMap_cons]
        exact mem_append_left _ hpage
    · obtain ⟨hnone, -⟩ | ⟨next, rest, hnext, hrest, rfl⟩ := walk_succ h
      · rw [hnone] at hnext'
        cases hnext'
      · obtain rfl : next' = next := Option.some.inj (hnext'.symm.trans hnext)
        have hseen := ih hrest (fun j hj => Option.some.inj hj ▸ hle)
          fun step hstep => hheld step (mem_cons_of_mem _ hstep)
        rw [keysSeen, flatMap_cons, map_append]
        exact mem_append_right _ hseen

theorem walk_of_next (hrest : ∀ next, ((tables i).page after limit).next = some next →
      ∃ rest, walk tables limit fuel (i + 1) (some next) = some rest) :
    ∃ steps, walk tables limit (fuel + 1) i after = some steps := by
  rw [walk]
  cases hnext : ((tables i).page after limit).next with
  | none => exact ⟨_, rfl⟩
  | some next =>
    obtain ⟨rest, hwalk⟩ := hrest next hnext
    exact ⟨_, Option.map_eq_some_iff.2 ⟨rest, hwalk, rfl⟩⟩

theorem walk_of_settled (hlimit : 0 < limit) (hsettled : ∀ j, i ≤ j → tables j = t)
    (hfuel : (t.range after).length < fuel) :
    ∃ steps, walk tables limit fuel i after = some steps := by
  induction fuel generalizing i after with
  | zero => exact absurd hfuel (Nat.not_lt_zero _)
  | succ fuel ih =>
    refine walk_of_next fun next hnext => ih (fun j hj => hsettled j (Nat.le_of_succ_le hj)) ?_
    rw [hsettled i (Nat.le_refl i)] at hnext
    have hlt := length_range_next_lt hlimit hnext
    omega

theorem walk_exists (hlimit : 0 < limit) {d : ℕ} (hsettled : ∀ j, i + d ≤ j → tables j = t)
    (hfuel : d + t.entries.length < fuel) :
    ∃ steps, walk tables limit fuel i after = some steps := by
  induction d generalizing fuel i after with
  | zero =>
    refine walk_of_settled hlimit hsettled ?_
    have hle := t.length_range_le after
    omega
  | succ d ih =>
    obtain ⟨f, rfl⟩ : ∃ f, fuel = f + 1 := ⟨fuel - 1, by omega⟩
    exact walk_of_next fun next _ =>
      ih (fun j hj => hsettled j (by omega)) (by omega)

end Table
end Lib

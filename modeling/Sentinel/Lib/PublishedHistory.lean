import Mathlib.Data.List.Pairwise
import Mathlib.Order.Nat

/-! Snapshots that one authority publishes and many nodes copy. The history grows at its head
and is strictly ordered by a rank; every node holds a published snapshot, perhaps an old one,
and moves only to one of higher rank. -/

namespace Lib
open Function

theorem forall_update {ι β γ : Type*} [DecidableEq ι] {P : ι → β → γ → Prop} {f : ι → β}
    {g : ι → γ} (h : ∀ i, P i (f i) (g i)) {n : ι} {x : β} {y : γ} (hn : P n x y) (i : ι) :
    P i (update f n x i) (update g n y i) := by
  by_cases hi : i = n
  · subst hi
    rwa [update_self, update_self]
  · rw [update_of_ne hi, update_of_ne hi]
    exact h i

structure PublishedHistory (α ν : Type*) where
  history : List α
  held : ν → α

namespace PublishedHistory

variable {α ν : Type*} (rank : α → ℕ) (R : α → α → Prop) (authority : ν)

/-- The authority holds the newest snapshot; an older one has a lower rank and is related to
every newer one by `R`. -/
structure Chained (st : PublishedHistory α ν) : Prop where
  latest : st.history.head? = some (st.held authority)
  ordered : st.history.Pairwise fun new old => rank old < rank new ∧ R old new
  held_mem : ∀ n, st.held n ∈ st.history

def MayMove (st : PublishedHistory α ν) (n : ν) (a : α) : Prop :=
  a = st.held n ∨ a ∈ st.history ∧ rank (st.held n) < rank a

variable {rank R authority} {st : PublishedHistory α ν}

namespace Chained

theorem eq_or_newest (h : st.Chained rank R authority) {a : α} (ha : a ∈ st.history) :
    a = st.held authority ∨ rank a < rank (st.held authority) ∧ R a (st.held authority) := by
  obtain ⟨rest, hrest⟩ : ∃ rest, st.history = st.held authority :: rest := by
    cases hh : st.history with
    | nil => simp [hh] at ha
    | cons b rest =>
      have hb : b = st.held authority := by simpa [hh] using h.latest
      exact ⟨rest, by rw [hb]⟩
  rw [hrest] at ha
  rcases List.mem_cons.1 ha with rfl | ha
  · exact .inl rfl
  · have hord := h.ordered
    rw [hrest] at hord
    exact .inr ((List.pairwise_cons.1 hord).1 a ha)

theorem rank_le (h : st.Chained rank R authority) {a : α} (ha : a ∈ st.history) :
    rank a ≤ rank (st.held authority) := by
  rcases h.eq_or_newest ha with rfl | ⟨hlt, -⟩
  · exact le_rfl
  · exact hlt.le

theorem related_of_rank_lt (h : st.Chained rank R authority) {a b : α} (ha : a ∈ st.history)
    (hb : b ∈ st.history) : rank a < rank b → R a b := by
  refine List.Pairwise.forall_of_forall_of_flip (R := fun x y => rank x < rank y → R x y)
    (fun _ _ hlt => absurd hlt (lt_irrefl _)) ?_ ?_ ha hb
  · exact h.ordered.imp fun hxy hlt => absurd hlt hxy.1.asymm
  · exact h.ordered.imp fun hxy _ => hxy.2

theorem eq_of_rank_eq (h : st.Chained rank R authority) {a b : α} (ha : a ∈ st.history)
    (hb : b ∈ st.history) : rank a = rank b → a = b := by
  refine List.Pairwise.forall_of_forall_of_flip (R := fun x y => rank x = rank y → x = y)
    (fun _ _ _ => rfl) ?_ ?_ ha hb
  · exact h.ordered.imp fun hxy heq => absurd heq hxy.1.ne'
  · exact h.ordered.imp fun hxy heq => absurd heq hxy.1.ne

theorem base_eq (h : st.Chained rank R authority) {a base : α} (hbase : base ∈ st.history)
    (hrank : rank a = rank base + 1) (hlt : rank (st.held authority) < rank a) :
    base = st.held authority := by
  have hle := h.rank_le hbase
  exact h.eq_of_rank_eq hbase (h.held_mem authority) (by omega)

theorem newest (h : st.Chained rank R authority) (hrefl : ∀ a, R a a) {a : α}
    (ha : a ∈ st.history) : R a (st.held authority) := by
  rcases h.eq_or_newest ha with rfl | ⟨-, hR⟩
  · exact hrefl _
  · exact hR

theorem move (h : st.Chained rank R authority) (hrefl : ∀ a, R a a) {n : ν} {a : α}
    (ha : st.MayMove rank n a) : R (st.held n) a := by
  rcases ha with rfl | ⟨hmem, hlt⟩
  · exact hrefl _
  · exact h.related_of_rank_lt (h.held_mem n) hmem hlt

end Chained

/-! ## Steps -/

section Steps
variable [DecidableEq ν]

def setHeld (st : PublishedHistory α ν) (n : ν) (a : α) : PublishedHistory α ν :=
  { st with held := update st.held n a }

def push (st : PublishedHistory α ν) (authority : ν) (a : α) : PublishedHistory α ν where
  history := a :: st.history
  held := update st.held authority a

theorem Chained.setHeld_authority (h : st.Chained rank R authority) {n : ν} {a : α}
    (ha : st.MayMove rank n a) : (st.setHeld n a).held authority = st.held authority := by
  by_cases hn : authority = n
  · subst hn
    rcases ha with rfl | ⟨hmem, hlt⟩
    · simp [setHeld]
    · exact absurd (h.rank_le hmem) (not_le.2 hlt)
  · simp [setHeld, update_of_ne hn]

theorem Chained.setHeld (h : st.Chained rank R authority) {n : ν} {a : α}
    (ha : st.MayMove rank n a) : (st.setHeld n a).Chained rank R authority := by
  refine ⟨h.setHeld_authority ha ▸ h.latest, h.ordered, fun m => ?_⟩
  by_cases hm : m = n
  · subst hm
    have hmem : a ∈ st.history := ha.elim (fun heq => heq ▸ h.held_mem m) And.left
    simpa [PublishedHistory.setHeld] using hmem
  · simpa [PublishedHistory.setHeld, update_of_ne hm] using h.held_mem m

theorem Chained.push (h : st.Chained rank R authority) (hrefl : ∀ a, R a a)
    (htrans : ∀ {a b c}, R a b → R b c → R a c) {a : α} (hrank : rank (st.held authority) < rank a)
    (hR : R (st.held authority) a) : (st.push authority a).Chained rank R authority := by
  refine ⟨by simp [PublishedHistory.push], ?_, fun m => ?_⟩
  · refine List.pairwise_cons.2 ⟨fun b hb => ?_, h.ordered⟩
    exact ⟨(h.rank_le hb).trans_lt hrank, htrans (h.newest hrefl hb) hR⟩
  · by_cases hm : m = authority
    · subst hm
      simp [PublishedHistory.push]
    · simpa [PublishedHistory.push, update_of_ne hm] using .inr (h.held_mem m)

end Steps
end PublishedHistory
end Lib

import Sentinel.Lib.Table

/-! Tables of counts in which a key has a row exactly where its count is not zero. Counts go up and
down by one; the rules below follow a table through such changes. -/

namespace Lib.Table

variable {κ : Type*} [LinearOrder κ] {t : Table κ ℕ} {f g : κ → ℕ} {k : κ}

def tally (n : ℕ) : Option ℕ := if n = 0 then none else some n

def Tallies (t : Table κ ℕ) (f : κ → ℕ) : Prop := ∀ k, t.get k = tally (f k)

theorem getD_tally (n : ℕ) : (tally n).getD 0 = n := by
  unfold tally
  split_ifs with h
  · exact h.symm
  · rfl

theorem tally_eq_none_iff {n : ℕ} : tally n = none ↔ n = 0 := by
  unfold tally
  split_ifs with h
  · exact ⟨fun _ => h, fun _ => rfl⟩
  · exact ⟨nofun, fun hzero => absurd hzero h⟩

theorem Tallies.getD (h : t.Tallies f) (k : κ) : (t.get k).getD 0 = f k := by
  rw [h k, getD_tally]

theorem tallies_iff : t.Tallies f ↔ (∀ k, (t.get k).getD 0 = f k) ∧ ∀ k, t.get k ≠ some 0 := by
  refine ⟨fun h => ⟨h.getD, fun k hzero => ?_⟩, fun h k => ?_⟩
  · have hcount : 0 = f k := by simpa [hzero] using h.getD k
    rw [h k, tally, if_pos hcount.symm] at hzero
    cases hzero
  · have hcount := h.1 k
    have hpositive := h.2 k
    cases hget : t.get k with
    | none =>
      rw [hget] at hcount
      rw [← hcount]
      rfl
    | some n =>
      obtain rfl : n = f k := by rwa [hget] at hcount
      rw [hget] at hpositive
      rw [tally, if_neg fun hzero => hpositive (congrArg some hzero)]

theorem Tallies.get_eq_none_iff (h : t.Tallies f) (k : κ) : t.get k = none ↔ f k = 0 := by
  rw [h k, tally_eq_none_iff]

theorem Tallies.insert (h : t.Tallies f) {n : ℕ} (hn : n ≠ 0) (hk : g k = n)
    (hother : ∀ x, x ≠ k → g x = f x) : (t.insert k n).Tallies g := by
  intro x
  rw [get_insert]
  split_ifs with hx
  · rw [hx, hk, tally, if_neg hn]
  · rw [hother x hx]
    exact h x

theorem Tallies.erase (h : t.Tallies f) (hk : g k = 0) (hother : ∀ x, x ≠ k → g x = f x) :
    (t.erase k).Tallies g := by
  intro x
  rw [get_erase]
  split_ifs with hx
  · rw [hx, hk]
    rfl
  · rw [hother x hx]
    exact h x

end Lib.Table

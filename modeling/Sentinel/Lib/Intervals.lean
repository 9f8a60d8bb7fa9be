import Mathlib.Data.List.Basic
import Mathlib.Order.Nat

/-! A log whose positions are hidden by half-open intervals. A cut remembers the visible
positions up to a point; it stays true as long as no later interval starts below that point. -/

namespace Lib
open List

def Covered (ranges : List (ℕ × ℕ)) (n : ℕ) : Prop := ∃ r ∈ ranges, r.1 < n ∧ n ≤ r.2

instance (ranges : List (ℕ × ℕ)) (n : ℕ) : Decidable (Covered ranges n) :=
  inferInstanceAs (Decidable (∃ r ∈ ranges, r.1 < n ∧ n ≤ r.2))

def visible (ranges : List (ℕ × ℕ)) (positions : List ℕ) : List ℕ :=
  positions.filter fun n => ¬ Covered ranges n

def visibleTo (ranges : List (ℕ × ℕ)) (positions : List ℕ) (cut : ℕ) : List ℕ :=
  (visible ranges positions).filter (· ≤ cut)

variable {ranges : List (ℕ × ℕ)} {positions : List ℕ} {n cut : ℕ}

theorem covered_append_singleton {r : ℕ × ℕ} :
    Covered (ranges ++ [r]) n ↔ Covered ranges n ∨ r.1 < n ∧ n ≤ r.2 := by
  simp only [Covered, mem_append, mem_singleton]
  constructor
  · rintro ⟨x, hx | rfl, hn⟩
    · exact .inl ⟨x, hx, hn⟩
    · exact .inr hn
  · rintro (⟨x, hx, hn⟩ | hn)
    · exact ⟨x, .inl hx, hn⟩
    · exact ⟨r, .inr rfl, hn⟩

theorem mem_visible : n ∈ visible ranges positions ↔ n ∈ positions ∧ ¬ Covered ranges n := by
  simp [visible]

theorem mem_visibleTo :
    n ∈ visibleTo ranges positions cut ↔ (n ∈ positions ∧ ¬ Covered ranges n) ∧ n ≤ cut := by
  simp [visibleTo, mem_visible]

theorem visible_append (ranges : List (ℕ × ℕ)) (as bs : List ℕ) :
    visible ranges (as ++ bs) = visible ranges as ++ visible ranges bs :=
  filter_append ..

theorem visibleTo_push {lo hi : ℕ} (h : cut ≤ lo) :
    visibleTo (ranges ++ [(lo, hi)]) positions cut = visibleTo ranges positions cut := by
  simp only [visibleTo, visible, filter_filter]
  refine filter_congr fun n _ => ?_
  by_cases hn : n ≤ cut
  · have hlo : ¬ lo < n := not_lt.2 (hn.trans h)
    simp [covered_append_singleton, hn, hlo]
  · simp [hn]

theorem visibleTo_append {new : List ℕ} (h : ∀ m ∈ new, cut < m) :
    visibleTo ranges (positions ++ new) cut = visibleTo ranges positions cut := by
  have hnew : (visible ranges new).filter (· ≤ cut) = [] := by
    rw [filter_eq_nil_iff]
    intro m hm
    simpa using h m (mem_visible.1 hm).1
  rw [visibleTo, visible_append, filter_append, hnew, append_nil, visibleTo]

theorem visible_push {hi : ℕ} (h : ∀ m ∈ positions, m ≤ hi) :
    visible (ranges ++ [(cut, hi)]) positions = visibleTo ranges positions cut := by
  simp only [visibleTo, visible, filter_filter]
  refine filter_congr fun n hn => ?_
  have hhi := h n hn
  by_cases hcut : n ≤ cut
  · simp [covered_append_singleton, hcut, not_lt.2 hcut]
  · simp [covered_append_singleton, hcut, not_le.1 hcut, hhi]

theorem visibleTo_of_le (h : ∀ m ∈ positions, m ≤ cut) :
    visibleTo ranges positions cut = visible ranges positions := by
  refine filter_eq_self.2 fun n hn => ?_
  simpa using h n (mem_visible.1 hn).1

theorem visibleTo_append_between (hincreasing : positions.Pairwise (· < ·)) {upper : ℕ}
    (h : cut ≤ upper) :
    visibleTo ranges positions cut ++
        (visible ranges positions).filter (fun n => cut < n ∧ n ≤ upper) =
      visibleTo ranges positions upper := by
  have hvisible : (visible ranges positions).Pairwise (· < ·) := hincreasing.filter _
  unfold visibleTo
  generalize visible ranges positions = live at hvisible ⊢
  induction live with
  | nil => rfl
  | cons n ns ih =>
    obtain ⟨hhead, htail⟩ := pairwise_cons.1 hvisible
    have hrest := ih htail
    by_cases hcut : n ≤ cut
    · have hupper : n ≤ upper := hcut.trans h
      simp only [filter_cons, hcut, hupper, not_lt.2 hcut, decide_true, decide_false,
        false_and, if_true, cons_append]
      rw [← hrest]
      simp
    · -- the head is above the cut, so nothing of the tail is up to it
      have hnone : ns.filter (· ≤ cut) = [] := by
        rw [filter_eq_nil_iff]
        intro m hm
        have := hhead m hm
        simp only [decide_eq_true_eq]
        omega
      rw [hnone, nil_append] at hrest
      simp only [filter_cons, hcut, not_le.1 hcut, hnone, decide_false, true_and]
      by_cases hupper : n ≤ upper
      · simpa [hupper] using hrest
      · simpa [hupper] using hrest

end Lib

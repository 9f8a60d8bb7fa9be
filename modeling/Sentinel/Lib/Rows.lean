import Mathlib.Algebra.GroupWithZero.Nat
import Mathlib.Data.List.Basic

/-! Lists of records in which the first one that passes a test is changed in place. -/

namespace Lib
open List

variable {α β : Type*} {p : α → Bool} {f : α → α} {l : List α} {a : α}

def modifyFirst (p : α → Bool) (f : α → α) : List α → List α
  | [] => []
  | a :: as => if p a then f a :: as else a :: modifyFirst p f as

theorem modifyFirst_split (h : l.find? p = some a) :
    ∃ as bs, l = as ++ a :: bs ∧ modifyFirst p f l = as ++ f a :: bs := by
  induction l with
  | nil => cases h
  | cons x l ih =>
    by_cases hx : p x
    · rw [find?_cons_of_pos hx, Option.some.injEq] at h
      subst h
      exact ⟨[], l, rfl, by simp [modifyFirst, hx]⟩
    · rw [find?_cons_of_neg hx] at h
      obtain ⟨as, bs, hl, hmod⟩ := ih h
      exact ⟨x :: as, bs, by simp [hl], by simp [modifyFirst, hx, hmod]⟩

theorem map_modifyFirst {g : α → β} (h : l.find? p = some a) (hg : g (f a) = g a) :
    (modifyFirst p f l).map g = l.map g := by
  obtain ⟨as, bs, hl, hmod⟩ := modifyFirst_split (f := f) h
  rw [hmod, hl]
  simp [hg]

theorem map_modifyFirst_of_forall {g : α → β} (hg : ∀ a, g (f a) = g a) :
    (modifyFirst p f l).map g = l.map g := by
  induction l with
  | nil => rfl
  | cons a l ih =>
    rw [modifyFirst]
    split_ifs
    · rw [map_cons, map_cons, hg]
    · rw [map_cons, map_cons, ih]

theorem sum_map_modifyFirst (g : α → ℕ) (h : l.find? p = some a) :
    ((modifyFirst p f l).map g).sum + g a = (l.map g).sum + g (f a) := by
  obtain ⟨as, bs, hl, hmod⟩ := modifyFirst_split (f := f) h
  rw [hmod, hl]
  simp only [map_append, map_cons, sum_append, sum_cons]
  omega

theorem sum_filter_modifyFirst_le {c : α → Bool} {g : α → ℕ} (h : l.find? p = some a)
    (hc : c (f a) = c a) (hg : g (f a) ≤ g a) :
    (((modifyFirst p f l).filter c).map g).sum ≤ ((l.filter c).map g).sum := by
  obtain ⟨as, bs, hl, hmod⟩ := modifyFirst_split (f := f) h
  rw [hmod, hl]
  simp only [filter_append, filter_cons, hc]
  split_ifs <;> simp only [map_append, map_cons, sum_append, sum_cons] <;>
    omega

theorem mem_modifyFirst {x : α} (h : l.find? p = some a) (hx : x ∈ modifyFirst p f l) :
    x = f a ∨ x ∈ l := by
  obtain ⟨as, bs, hl, hmod⟩ := modifyFirst_split (f := f) h
  rw [hmod] at hx
  rw [hl]
  simp only [mem_append, mem_cons] at hx ⊢
  tauto

end Lib

import Mathlib.Data.List.Induction
import Mathlib.Order.Lattice

/-! Registers that keep the newest of the values written to them. A value that is no newer than
the one held is dropped, so among equally new values the first one written stays. What is left
then depends on the set of values written and not on their order, provided that the newest ones
agree in what is read from the register. -/

namespace Lib

variable {α β ρ : Type*} [LinearOrder ρ] (rank : α → ρ)

def keepNewer : Option α → α → Option α
  | none, a => some a
  | some b, a => if rank a ≤ rank b then some b else some a

def register (writes : List α) : Option α := writes.foldl (keepNewer rank) none

def Newest (writes : List α) (a : α) : Prop := a ∈ writes ∧ ∀ b ∈ writes, rank b ≤ rank a

/-- The newest values of the list agree in `f`. -/
def Settled (f : α → β) (writes : List α) : Prop :=
  ∀ a b, Newest rank writes a → Newest rank writes b → f a = f b

variable {rank} {f : α → β} {writes : List α}

theorem register_append_singleton (a : α) :
    register rank (writes ++ [a]) = keepNewer rank (register rank writes) a := by
  rw [register, List.foldl_append]
  rfl

theorem foldl_keepNewer_of_le {a : α} (h : ∀ b ∈ writes, rank b ≤ rank a) :
    writes.foldl (keepNewer rank) (some a) = some a := by
  induction writes with
  | nil => rfl
  | cons b writes ih =>
    have hb : keepNewer rank (some a) b = some a := if_pos (h b (by simp))
    rw [List.foldl_cons, hb]
    exact ih fun c hc => h c (by simp [hc])

theorem register_cons_of_le {a : α} (h : ∀ b ∈ writes, rank b ≤ rank a) :
    register rank (a :: writes) = some a :=
  foldl_keepNewer_of_le h

theorem register_eq_none_iff : register rank writes = none ↔ writes = [] := by
  induction writes using List.reverseRecOn with
  | nil => simp [register]
  | append_singleton writes a _ =>
    rw [register_append_singleton]
    cases register rank writes with
    | none => simp [keepNewer]
    | some b =>
      simp only [keepNewer]
      split_ifs <;> simp

theorem newest_of_register {a : α} (h : register rank writes = some a) :
    Newest rank writes a := by
  induction writes using List.reverseRecOn generalizing a with
  | nil => cases h
  | append_singleton writes b ih =>
    rw [register_append_singleton] at h
    cases hheld : register rank writes with
    | none =>
      rw [hheld] at h
      obtain rfl : b = a := Option.some.inj h
      rw [register_eq_none_iff.1 hheld]
      exact ⟨by simp, by simp⟩
    | some c =>
      obtain ⟨hmem, hle⟩ := ih hheld
      rw [hheld, keepNewer] at h
      split_ifs at h with hbc
      · obtain rfl : c = a := Option.some.inj h
        refine ⟨by simp [hmem], fun d hd => ?_⟩
        rcases List.mem_append.1 hd with hd | hd
        · exact hle d hd
        · rwa [List.mem_singleton.1 hd]
      · obtain rfl : b = a := Option.some.inj h
        refine ⟨by simp, fun d hd => ?_⟩
        rcases List.mem_append.1 hd with hd | hd
        · exact (hle d hd).trans (le_of_not_ge hbc)
        · rw [List.mem_singleton.1 hd]

theorem Newest.congr {a : α} {others : List α} (h : Newest rank writes a)
    (hsame : ∀ b, b ∈ others ↔ b ∈ writes) : Newest rank others a :=
  ⟨(hsame a).2 h.1, fun b hb => h.2 b ((hsame b).1 hb)⟩

theorem Settled.map_register {others : List α} (h : Settled rank f writes)
    (hsame : ∀ b, b ∈ others ↔ b ∈ writes) :
    (register rank others).map f = (register rank writes).map f := by
  cases hothers : register rank others with
  | none =>
    have hempty : writes = [] := by
      rw [register_eq_none_iff] at hothers
      apply List.eq_nil_iff_forall_not_mem.2
      intro b hb
      rw [← hsame, hothers] at hb
      cases hb
    rw [hempty]
    rfl
  | some a =>
    have ha := newest_of_register hothers
    cases hwrites : register rank writes with
    | none =>
      rw [register_eq_none_iff] at hwrites
      have hmem := (hsame a).1 ha.1
      rw [hwrites] at hmem
      cases hmem
    | some b =>
      have hb := newest_of_register hwrites
      exact congrArg some (h a b (ha.congr fun c => (hsame c).symm) hb)

end Lib

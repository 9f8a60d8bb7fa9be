import Mathlib.Data.List.Induction

/-! Machines that answer every call. A call takes the state to the next one and returns an
answer; a run is a list of calls. The rules below turn facts about one call into facts about
whole runs, also for runs whose calls all meet a condition in the state they are made in. -/

namespace Lib
open List

structure Machine (σ α ρ : Type*) where
  call : σ → α → σ × ρ

namespace Machine

variable {σ α ρ : Type*} (m : Machine σ α ρ)

def final (s : σ) : List α → σ
  | [] => s
  | a :: as => final (m.call s a).1 as

def answers (s : σ) : List α → List ρ
  | [] => []
  | a :: as => (m.call s a).2 :: answers (m.call s a).1 as

def trace (s : σ) : List α → List (α × ρ)
  | [] => []
  | a :: as => (a, (m.call s a).2) :: trace (m.call s a).1 as

/-- Every call of the run meets `guard` in the state it is made in. -/
def Meets (guard : σ → α → Prop) (s : σ) : List α → Prop
  | [] => True
  | a :: as => guard s a ∧ Meets guard (m.call s a).1 as

instance decidableMeets (guard : σ → α → Prop) [∀ s a, Decidable (guard s a)] :
    ∀ (s : σ) (as : List α), Decidable (m.Meets guard s as)
  | _, [] => .isTrue trivial
  | s, a :: as =>
    have := decidableMeets guard (m.call s a).1 as
    inferInstanceAs (Decidable (guard s a ∧ m.Meets guard (m.call s a).1 as))

@[simp] theorem final_nil (s : σ) : m.final s [] = s := rfl

@[simp] theorem final_cons (s : σ) (a : α) (as : List α) :
    m.final s (a :: as) = m.final (m.call s a).1 as := rfl

@[simp] theorem answers_nil (s : σ) : m.answers s [] = [] := rfl

@[simp] theorem answers_cons (s : σ) (a : α) (as : List α) :
    m.answers s (a :: as) = (m.call s a).2 :: m.answers (m.call s a).1 as := rfl

@[simp] theorem trace_nil (s : σ) : m.trace s [] = [] := rfl

@[simp] theorem trace_cons (s : σ) (a : α) (as : List α) :
    m.trace s (a :: as) = (a, (m.call s a).2) :: m.trace (m.call s a).1 as := rfl

theorem final_append (s : σ) (as bs : List α) :
    m.final s (as ++ bs) = m.final (m.final s as) bs := by
  induction as generalizing s with
  | nil => rfl
  | cons a as ih => exact ih _

theorem answers_append (s : σ) (as bs : List α) :
    m.answers s (as ++ bs) = m.answers s as ++ m.answers (m.final s as) bs := by
  induction as generalizing s with
  | nil => rfl
  | cons a as ih => simp only [cons_append, answers_cons, final_cons, ih]

theorem trace_append (s : σ) (as bs : List α) :
    m.trace s (as ++ bs) = m.trace s as ++ m.trace (m.final s as) bs := by
  induction as generalizing s with
  | nil => rfl
  | cons a as ih => simp only [cons_append, trace_cons, final_cons, ih]

variable {s : σ} {as : List α} {guard : σ → α → Prop} {I P : σ → Prop}

theorem fst_mem_of_mem_trace {x : α × ρ} (h : x ∈ m.trace s as) : x.1 ∈ as := by
  induction as generalizing s with
  | nil => cases h
  | cons a as ih =>
    rcases mem_cons.1 h with rfl | h
    · exact mem_cons_self
    · exact mem_cons_of_mem _ (ih h)

theorem meets_append (guard : σ → α → Prop) (s : σ) (as bs : List α) :
    m.Meets guard s (as ++ bs) ↔ m.Meets guard s as ∧ m.Meets guard (m.final s as) bs := by
  induction as generalizing s with
  | nil => simp [Meets]
  | cons a as ih => simp only [cons_append, Meets, final_cons, ih, and_assoc]

theorem meets_of_forall_mem {allowed : α → Prop} (has : ∀ a ∈ as, allowed a) (s : σ) :
    m.Meets (fun _ => allowed) s as := by
  induction as generalizing s with
  | nil => trivial
  | cons a as ih =>
    obtain ⟨ha, htail⟩ := forall_mem_cons.1 has
    exact ⟨ha, ih htail _⟩

theorem meets_iff_forall_mem {allowed : α → Prop} :
    m.Meets (fun _ a => allowed a) s as ↔ ∀ a ∈ as, allowed a := by
  refine ⟨fun h => ?_, fun h => m.meets_of_forall_mem h s⟩
  induction as generalizing s with
  | nil => exact fun a ha => absurd ha not_mem_nil
  | cons a as ih => exact forall_mem_cons.2 ⟨h.1, ih h.2⟩

theorem meets_true (s : σ) (as : List α) : m.Meets (fun _ _ => True) s as := by
  induction as generalizing s with
  | nil => trivial
  | cons a as ih => exact ⟨trivial, ih _⟩

/-- **Invariant rule.** What holds at the start and is kept by every call that meets the
condition holds after every run whose calls meet it. -/
theorem final_invariant (hstep : ∀ s a, I s → guard s a → I (m.call s a).1) (hs : I s)
    (has : m.Meets guard s as) : I (m.final s as) := by
  induction as generalizing s with
  | nil => exact hs
  | cons a as ih => exact ih (hstep s a hs has.1) has.2

theorem final_invariant' (hstep : ∀ s a, I s → I (m.call s a).1) (hs : I s) (as : List α) :
    I (m.final s as) :=
  m.final_invariant (fun s a h _ => hstep s a h) hs (m.meets_true s as)

theorem final_history {s₀ : σ} {I : List α → σ → Prop}
    (hstep : ∀ past s a, s = m.final s₀ past → I past s → guard s a →
      I (past ++ [a]) (m.call s a).1) (hs : I [] s₀) (has : m.Meets guard s₀ as) :
    I as (m.final s₀ as) := by
  induction as using List.reverseRecOn with
  | nil => exact hs
  | append_singleton as a ih =>
    obtain ⟨hbefore, hlast, -⟩ := (m.meets_append guard s₀ as [a]).1 has
    rw [final_append]
    exact hstep as _ a rfl (ih hbefore) hlast

theorem final_trace {I : List (α × ρ) → σ → Prop} {s₀ : σ}
    (hstep : ∀ past s a, I past s → I (past ++ [(a, (m.call s a).2)]) (m.call s a).1)
    (hs : I [] s₀) (as : List α) : I (m.trace s₀ as) (m.final s₀ as) := by
  induction as using List.reverseRecOn with
  | nil => exact hs
  | append_singleton as a ih =>
    rw [trace_append, final_append]
    exact hstep _ _ a ih

theorem meets_iff_meets {P : σ → α → Prop} (hkeep : ∀ s a, I s → guard s a → I (m.call s a).1)
    (hiff : ∀ s a, I s → (P s a ↔ guard s a)) (hs : I s) (as : List α) :
    m.Meets P s as ↔ m.Meets guard s as := by
  induction as generalizing s with
  | nil => exact Iff.rfl
  | cons a as ih =>
    refine (and_congr_left' (hiff s a hs)).trans (and_congr_right fun hguard => ?_)
    exact ih (hkeep s a hs hguard)

/-- **Exact guard rule.** Where a call of the run that meets the condition keeps the invariant,
and one that does not leads out of `P`, all states the run passes through are in `P` exactly when
all its calls meet the condition. -/
theorem forall_reached_iff_meets_of_meets {allowed : σ → α → Prop} (hI : ∀ s, I s → P s)
    (hkeep : ∀ s a, allowed s a → I s → guard s a → I (m.call s a).1)
    (hleave : ∀ s a, allowed s a → I s → ¬ guard s a → ¬ P (m.call s a).1) (hs : I s)
    (has : m.Meets allowed s as) :
    (∀ before, before <+: as → P (m.final s before)) ↔ m.Meets guard s as := by
  induction as generalizing s with
  | nil =>
    refine ⟨fun _ => trivial, fun _ before hbefore => ?_⟩
    rw [prefix_nil.1 hbefore]
    exact hI s hs
  | cons a as ih =>
    obtain ⟨ha, htail⟩ := has
    constructor
    · intro h
      have hguard : guard s a := by
        by_contra hnot
        exact hleave s a ha hs hnot (h [a] ⟨as, rfl⟩)
      refine ⟨hguard, (ih (hkeep s a ha hs hguard) htail).1 fun before hbefore => ?_⟩
      exact h (a :: before) ((prefix_cons_inj a).2 hbefore)
    · rintro ⟨hguard, hmeets⟩ before hbefore
      cases before with
      | nil => exact hI s hs
      | cons b before =>
        obtain ⟨rfl, hrest⟩ := cons_prefix_cons.1 hbefore
        exact (ih (hkeep s b ha hs hguard) htail).2 hmeets before hrest

/-- **Exact guard rule for histories.** Where a law of the calls made so far survives a call exactly
when the call meets the condition, it holds all along a run exactly when all calls meet it. -/
theorem forall_prefix_iff_meets {P : List α → Prop} (hnil : P [])
    (hstep : ∀ as a, P as → (P (as ++ [a]) ↔ guard (m.final s as) a)) (as : List α) :
    (∀ before, before <+: as → P before) ↔ m.Meets guard s as := by
  induction as using List.reverseRecOn with
  | nil =>
    refine ⟨fun _ => trivial, fun _ before hbefore => ?_⟩
    rw [prefix_nil.1 hbefore]
    exact hnil
  | append_singleton as a ih =>
    rw [meets_append, ← ih]
    constructor
    · intro h
      have has : ∀ before, before <+: as → P before := fun before hbefore =>
        h before (hbefore.trans (prefix_append ..))
      exact ⟨has, (hstep as a (has as prefix_rfl)).1 (h _ prefix_rfl), trivial⟩
    · rintro ⟨has, hguard, -⟩ before hbefore
      rcases prefix_concat_iff.1 hbefore with rfl | hbefore
      · exact (hstep as a (has as prefix_rfl)).2 hguard
      · exact has before hbefore

theorem forall_reached_iff_meets_of_mem {allowed : α → Prop} (hI : ∀ s, I s → P s)
    (hkeep : ∀ s a, allowed a → I s → guard s a → I (m.call s a).1)
    (hleave : ∀ s a, allowed a → I s → ¬ guard s a → ¬ P (m.call s a).1) (hs : I s)
    (has : ∀ a ∈ as, allowed a) :
    (∀ before, before <+: as → P (m.final s before)) ↔ m.Meets guard s as :=
  m.forall_reached_iff_meets_of_meets hI hkeep hleave hs (m.meets_of_forall_mem has s)

theorem forall_reached_iff_meets (hI : ∀ s, I s → P s)
    (hkeep : ∀ s a, I s → guard s a → I (m.call s a).1)
    (hleave : ∀ s a, I s → ¬ guard s a → ¬ P (m.call s a).1) (hs : I s) (as : List α) :
    (∀ before, before <+: as → P (m.final s before)) ↔ m.Meets guard s as :=
  m.forall_reached_iff_meets_of_mem hI (fun s a (_ : True) => hkeep s a)
    (fun s a _ => hleave s a) hs fun _ _ => trivial

end Machine
end Lib

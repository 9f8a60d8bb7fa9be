import Sentinel.Lib.Machine

/-! Machines whose calls answer with the events they cause. The log of a run is the list of all
events in order; a law about the run is a condition on every event, stated over what the events
before it add up to. -/

namespace Lib

section Checked

variable {τ ε : Type*} (next : τ → ε → τ) (start : τ)

def Checked (P : τ → ε → Prop) (log : List ε) : Prop :=
  ∀ before e, before ++ [e] <+: log → P (before.foldl next start) e

variable {next start} {P : τ → ε → Prop} {log : List ε} {e : ε}

theorem checked_nil : Checked next start P [] := by
  intro before e h
  have hnil : before ++ [e] = [] := List.prefix_nil.1 h
  simp at hnil

theorem checked_concat :
    Checked next start P (log ++ [e]) ↔ Checked next start P log ∧ P (log.foldl next start) e := by
  constructor
  · intro h
    refine ⟨fun before e' hpre => h before e' ?_, h log e List.prefix_rfl⟩
    exact hpre.trans (List.prefix_append log [e])
  · rintro ⟨hlog, hlast⟩ before e' hpre
    rcases List.prefix_concat_iff.1 hpre with heq | hpre
    · obtain ⟨rfl, he⟩ := List.append_inj' heq rfl
      obtain rfl : e' = e := by simpa using he
      exact hlast
    · exact hlog before e' hpre

end Checked

namespace Machine

variable {σ α ε : Type*} (m : Machine σ α (List ε))

def log (s : σ) (as : List α) : List ε := (m.answers s as).flatten

theorem log_concat (s : σ) (as : List α) (a : α) :
    m.log s (as ++ [a]) = m.log s as ++ (m.call (m.final s as) a).2 := by
  simp [log, answers_append]

theorem final_log {I : List ε → σ → Prop} {s₀ : σ}
    (hstep : ∀ log s a, I log s → I (log ++ (m.call s a).2) (m.call s a).1)
    (hs : I [] s₀) (as : List α) : I (m.log s₀ as) (m.final s₀ as) := by
  induction as using List.reverseRecOn with
  | nil => exact hs
  | append_singleton as a ih =>
    rw [log_concat, final_append]
    exact hstep _ _ a ih

/-- **Exact guard rule for logs.** Where a law of the log survives a call exactly when the call
meets the condition, it holds of the whole log exactly when all calls meet it. -/
theorem log_iff_meets {I : List ε → σ → Prop} {Q : List ε → Prop} {guard : σ → α → Prop} {s₀ : σ}
    (hstep : ∀ log s a, I log s → I (log ++ (m.call s a).2) (m.call s a).1)
    (hlaw : ∀ log s a, I log s → (Q (log ++ (m.call s a).2) ↔ Q log ∧ guard s a))
    (hs : I [] s₀) (hnil : Q []) (as : List α) : Q (m.log s₀ as) ↔ m.Meets guard s₀ as := by
  induction as using List.reverseRecOn with
  | nil => exact ⟨fun _ => trivial, fun _ => hnil⟩
  | append_singleton as a ih =>
    have hreached : I (m.log s₀ as) (m.final s₀ as) := m.final_log hstep hs as
    have hlast : m.Meets guard (m.final s₀ as) [a] ↔ guard (m.final s₀ as) a :=
      iff_of_eq (and_true _)
    rw [log_concat, meets_append, hlast, ← ih]
    exact hlaw _ _ a hreached

end Machine
end Lib

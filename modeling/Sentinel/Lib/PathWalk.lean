import Mathlib.Logic.Relation
import Sentinel.Lib.PathText

/-! Resolving a path one component at a time. What a resolver finds under a list of names is a
directory, a link with the components of its target, or an entry that nothing is below. A walk
ends when no component is left; it gets stuck at a missing entry, and at a leaf with components
after it. -/

namespace Lib.PathText

inductive Entry
  | directory
  | link (text : List Component)
  | leaf

structure Walk where
  cwd : List Name
  todo : List Component
  deriving DecidableEq

namespace Walk

def step (look : List Name → Option Entry) : Walk → Option Walk
  | ⟨_, []⟩ => none
  | ⟨_, .rootDir :: rest⟩ => some ⟨[], rest⟩
  | ⟨cwd, .curDir :: rest⟩ => some ⟨cwd, rest⟩
  | ⟨cwd, .parentDir :: rest⟩ => some ⟨cwd.dropLast, rest⟩
  | ⟨cwd, .normal name :: rest⟩ =>
    match look (cwd ++ [name]) with
    | none => none
    | some .directory => some ⟨cwd ++ [name], rest⟩
    | some (.link text) => some ⟨cwd, text ++ rest⟩
    | some .leaf => if rest = [] then some ⟨cwd ++ [name], []⟩ else none

variable {look : List Name → Option Entry} {cwd : List Name} {name : Name}
  {rest text : List Component} {v w : Walk}

theorem step_directory (h : look (cwd ++ [name]) = some .directory) :
    step look ⟨cwd, .normal name :: rest⟩ = some ⟨cwd ++ [name], rest⟩ := by
  rw [step, h]

theorem step_link (h : look (cwd ++ [name]) = some (.link text)) :
    step look ⟨cwd, .normal name :: rest⟩ = some ⟨cwd, text ++ rest⟩ := by
  rw [step, h]

theorem step_leaf (h : look (cwd ++ [name]) = some .leaf) :
    step look ⟨cwd, .normal name :: rest⟩ =
      if rest = [] then some ⟨cwd ++ [name], []⟩ else none := by
  rw [step, h]

def Reaches (look : List Name → Option Entry) : Walk → Walk → Prop :=
  Relation.ReflTransGen fun v w => v.step look = some w

theorem reaches_iff_of_step (h : v.step look = some w) {u : Walk} :
    v.Reaches look u ↔ u = v ∨ w.Reaches look u := by
  refine Relation.ReflTransGen.cases_head_iff.trans (or_congr eq_comm ?_)
  constructor
  · rintro ⟨x, hx, hreach⟩
    obtain rfl : w = x := Option.some.inj (h.symm.trans hx)
    exact hreach
  · exact fun hreach => ⟨w, h, hreach⟩

theorem reaches_iff_of_stop (h : v.step look = none) {u : Walk} :
    v.Reaches look u ↔ u = v := by
  refine Relation.ReflTransGen.cases_head_iff.trans ⟨?_, fun hu => .inl hu.symm⟩
  rintro (rfl | ⟨x, hx, -⟩)
  · rfl
  · cases h.symm.trans hx

/-- The walk is about to go above the root, or to start there again. -/
def Rises (w : Walk) : Prop :=
  w.todo.head? = some .rootDir ∨ w.cwd = [] ∧ w.todo.head? = some .parentDir

/-- The walk is stuck at a leaf with nothing but a `.` after it. -/
def AtLeaf (look : List Name → Option Entry) (w : Walk) : Prop :=
  ∃ name rest, w.todo = .normal name :: rest ∧ rest ≠ [] ∧ (∀ c ∈ rest, c = .curDir) ∧
    look (w.cwd ++ [name]) = some .leaf

def Resolves (look : List Name → Option Entry) (v : Walk) : Prop :=
  ∃ w, v.Reaches look w ∧ w.todo = [] ∧ (look w.cwd).isSome

/-- The walk stays below the root, and only a leaf keeps it from an entry. -/
structure Followed (look : List Name → Option Entry) (v : Walk) : Prop where
  inside : ∀ w, v.Reaches look w → ¬ w.Rises
  ends : v.Resolves look ↔ ∀ w, v.Reaches look w → ¬ w.AtLeaf look

theorem step_atLeaf (h : v.AtLeaf look) : v.step look = none := by
  obtain ⟨cwd, todo⟩ := v
  obtain ⟨name, rest, rfl, hrest, -, hleaf⟩ := h
  rw [step_leaf hleaf, if_neg hrest]

theorem Followed.of_step (h : v.step look = some w) (hinside : ¬ v.Rises)
    (hw : w.Followed look) : v.Followed look := by
  have hleaf : ¬ v.AtLeaf look := by
    intro hat
    rw [step_atLeaf hat] at h
    cases h
  constructor
  · intro u hu
    rcases (reaches_iff_of_step h).1 hu with rfl | hu
    · exact hinside
    · exact hw.inside u hu
  · have hresolves : v.Resolves look ↔ w.Resolves look := by
      constructor
      · rintro ⟨u, hu, hend, hentry⟩
        rcases (reaches_iff_of_step h).1 hu with rfl | hu
        · obtain ⟨cwd, todo⟩ := u
          obtain rfl : todo = [] := hend
          cases h
        · exact ⟨u, hu, hend, hentry⟩
      · rintro ⟨u, hu, hend⟩
        exact ⟨u, (reaches_iff_of_step h).2 (.inr hu), hend⟩
    rw [hresolves, hw.ends]
    constructor
    · intro hall u hu
      rcases (reaches_iff_of_step h).1 hu with rfl | hu
      · exact hleaf
      · exact hall u hu
    · exact fun hall u hu => hall u ((reaches_iff_of_step h).2 (.inr hu))

theorem Followed.of_end (hend : v.todo = []) (hentry : (look v.cwd).isSome) :
    v.Followed look := by
  obtain ⟨cwd, todo⟩ := v
  obtain rfl : todo = [] := hend
  have hstop : ∀ u, (Walk.mk cwd []).Reaches look u → u = ⟨cwd, []⟩ :=
    fun u hu => (reaches_iff_of_stop rfl).1 hu
  refine ⟨fun u hu => ?_, iff_of_true ⟨_, .refl, rfl, hentry⟩ fun u hu => ?_⟩
  · rw [hstop u hu]
    simp [Rises]
  · rw [hstop u hu]
    rintro ⟨name, rest, htodo, -⟩
    cases htodo

theorem Followed.of_atLeaf (h : v.AtLeaf look) : v.Followed look := by
  have hstop : ∀ u, v.Reaches look u → u = v :=
    fun u hu => (reaches_iff_of_stop (step_atLeaf h)).1 hu
  obtain ⟨name, rest, htodo, -⟩ := id h
  refine ⟨fun u hu => ?_, iff_of_false ?_ fun hall => hall v .refl h⟩
  · rw [hstop u hu]
    simp [Rises, htodo]
  · rintro ⟨u, hu, hend, -⟩
    rw [hstop u hu, htodo] at hend
    cases hend

end Walk
end Lib.PathText

import Mathlib.Data.Finset.Card

/-! Depth first search for a cycle. The search carries the path it is on and the list of finished
points; a point is finished after all its successors. The finished points are therefore a
topological order, and the search only fails where the path meets itself. -/

namespace Lib
open List

variable {α : Type}

def Topological (next : α → List α) : List α → Prop
  | [] => True
  | a :: rest => (∀ b ∈ next a, b ∈ rest) ∧ Topological next rest

def Leads (next : α → List α) (a b : α) : Prop := b ∈ next a

variable {next : α → List α}

namespace Topological

theorem mem_of_leads {l : List α} (h : Topological next l) {a b : α} (ha : a ∈ l)
    (hab : Leads next a b) : b ∈ l := by
  induction l with
  | nil => simp at ha
  | cons c l ih =>
    rcases mem_cons.mp ha with rfl | ha
    · exact mem_cons_of_mem _ (h.1 b hab)
    · exact mem_cons_of_mem _ (ih h.2 ha)

theorem mem_of_reaches {l : List α} (h : Topological next l) {a b : α} (ha : a ∈ l)
    (hab : Relation.ReflTransGen (Leads next) a b) : b ∈ l := by
  induction hab with
  | refl => exact ha
  | tail _ hstep ih => exact h.mem_of_leads ih hstep

theorem not_cyclic {l : List α} (h : Topological next l) {a : α} (ha : a ∈ l) :
    ¬ Relation.TransGen (Leads next) a a := by
  induction l with
  | nil => simp at ha
  | cons c l ih =>
    intro hcycle
    rcases mem_cons.mp ha with rfl | ha
    · -- The cycle leaves the first point for a later one, and never comes back to it.
      obtain ⟨b, hab, hba⟩ := Relation.TransGen.head'_iff.mp hcycle
      have hb : b ∈ l := h.1 b hab
      have ha : a ∈ l := h.2.mem_of_reaches hb hba
      exact ih h.2 ha hcycle
    · exact ih h.2 ha hcycle

end Topological

structure Extends (next : α → List α) (finished finished' : List α) : Prop where
  grows : finished ⊆ finished'
  ordered : Topological next finished → Topological next finished'

theorem Extends.trans {l m n : List α} (h : Extends next l m) (h' : Extends next m n) :
    Extends next l n :=
  ⟨fun _ ha => h'.grows (h.grows ha), fun hl => h'.ordered (h.ordered hl)⟩

theorem extends_foldlM {visit : α → List α → Option (List α)}
    (hvisit : ∀ a l l', visit a l = some l' → Extends next l l' ∧ a ∈ l') (points : List α) :
    ∀ {l l' : List α}, points.foldlM (fun seen a => visit a seen) l = some l' →
      Extends next l l' ∧ ∀ a ∈ points, a ∈ l' := by
  induction points with
  | nil =>
    intro l l' h
    obtain rfl : l = l' := by simpa using h
    exact ⟨⟨List.Subset.refl _, id⟩, by simp⟩
  | cons a points ih =>
    intro l l' h
    rw [foldlM_cons, Option.bind_eq_bind, Option.bind_eq_some_iff] at h
    obtain ⟨m, hm, hrest⟩ := h
    obtain ⟨hfirst, ha⟩ := hvisit a l m hm
    obtain ⟨hlater, hpoints⟩ := ih hrest
    refine ⟨hfirst.trans hlater, ?_⟩
    intro b hb
    rcases mem_cons.mp hb with rfl | hb
    · exact hlater.grows ha
    · exact hpoints b hb

theorem isSome_foldlM {visit : α → List α → Option (List α)} {points : List α}
    (hvisit : ∀ a ∈ points, ∀ l, (visit a l).isSome) (l : List α) :
    (points.foldlM (fun seen a => visit a seen) l).isSome := by
  induction points generalizing l with
  | nil => simp
  | cons a points ih =>
    obtain ⟨m, hm⟩ := Option.isSome_iff_exists.mp (hvisit a mem_cons_self l)
    have hrest := ih (fun b hb => hvisit b (mem_cons_of_mem _ hb)) m
    rw [foldlM_cons, hm]
    exact hrest

structure PathTo (next : α → List α) (points path : List α) (a : α) : Prop where
  distinct : path.Nodup
  known : ∀ b ∈ path, b ∈ points
  leads : ∀ b ∈ path, Relation.TransGen (Leads next) b a

namespace PathTo

variable {points path : List α} {a : α}

theorem step (h : PathTo next points path a) (ha : a ∈ points) (hnew : a ∉ path) {b : α}
    (hb : b ∈ next a) : PathTo next points (a :: path) b where
  distinct := nodup_cons.mpr ⟨hnew, h.distinct⟩
  known := forall_mem_cons.mpr ⟨ha, h.known⟩
  leads := by
    have hab : Leads next a b := hb
    refine forall_mem_cons.mpr ⟨.single hab, ?_⟩
    intro c hc
    exact (h.leads c hc).tail hab

end PathTo

/-! ### The search -/

variable [DecidableEq α]

/-- Finish a point and all it leads to, or find a cycle. `path` are the points being visited and
`finished` the ones that are done. -/
def depthFirst (next : α → List α) : ℕ → α → List α → List α → Option (List α)
  | 0, _, _, _ => none
  | fuel + 1, a, path, finished =>
    if a ∈ finished then some finished
    else if a ∈ path then none
    else
      ((next a).foldlM (fun seen b => depthFirst next fuel b (a :: path) seen) finished).map
        (a :: ·)

theorem depthFirst_extends {fuel : ℕ} {a : α} {path l l' : List α}
    (h : depthFirst next fuel a path l = some l') : Extends next l l' ∧ a ∈ l' := by
  induction fuel generalizing a path l l' with
  | zero => simp [depthFirst] at h
  | succ fuel ih =>
    rw [depthFirst] at h
    split_ifs at h with hdone hpath
    · obtain rfl : l = l' := by simpa using h
      exact ⟨⟨List.Subset.refl _, id⟩, hdone⟩
    · obtain ⟨m, hm, rfl⟩ := Option.map_eq_some_iff.mp h
      obtain ⟨hext, hnext⟩ := extends_foldlM (fun b s t hb => ih hb) _ hm
      refine ⟨⟨fun b hb => mem_cons_of_mem _ (hext.grows hb), ?_⟩, mem_cons_self⟩
      intro hl
      exact ⟨hnext, hext.ordered hl⟩

theorem isSome_depthFirst {points : List α} (hclosed : ∀ a ∈ points, ∀ b ∈ next a, b ∈ points)
    (hacyclic : ∀ a, ¬ Relation.TransGen (Leads next) a a) {fuel : ℕ} {a : α}
    {path : List α} (hpath : PathTo next points path a) (ha : a ∈ points)
    (hfuel : points.length < fuel + path.length) (l : List α) :
    (depthFirst next fuel a path l).isSome := by
  induction fuel generalizing a path l with
  | zero =>
    -- A path of known, distinct points is no longer than the list of points.
    have hle : path.length ≤ points.length :=
      (subperm_of_subset hpath.distinct hpath.known).length_le
    omega
  | succ fuel ih =>
    have hnew : a ∉ path := fun hmem => hacyclic a (hpath.leads a hmem)
    rw [depthFirst]
    split_ifs
    · rfl
    · rw [Option.isSome_map]
      apply isSome_foldlM
      intro b hb m
      apply ih (hpath.step ha hnew hb) (hclosed a ha b hb)
      simp only [length_cons]
      omega

theorem isSome_search_iff {points : List α} (hclosed : ∀ a ∈ points, ∀ b ∈ next a, b ∈ points)
    (hnone : ∀ a ∉ points, next a = []) :
    (points.foldlM (fun seen a => depthFirst next (points.length + 1) a [] seen) []).isSome ↔
      ∀ a, ¬ Relation.TransGen (Leads next) a a := by
  constructor
  · intro h a hcycle
    obtain ⟨l, hl⟩ := Option.isSome_iff_exists.mp h
    obtain ⟨hext, hall⟩ := extends_foldlM (fun b s t hb => depthFirst_extends hb) _ hl
    have hordered : Topological next l := hext.ordered trivial
    by_cases ha : a ∈ points
    · exact hordered.not_cyclic (hall a ha) hcycle
    · obtain ⟨b, hab, _⟩ := Relation.TransGen.head'_iff.mp hcycle
      have hb : b ∈ next a := hab
      rw [hnone a ha] at hb
      simp at hb
  · intro hacyclic
    apply isSome_foldlM
    intro a ha l
    have hempty : PathTo next points [] a := ⟨nodup_nil, by simp, by simp⟩
    exact isSome_depthFirst hclosed hacyclic hempty ha (by simp) l

end Lib

import Sentinel.Lib.PublishedHistory

/-! Single-writer authority by fencing. A published snapshot gives each key a term, which has
an owner and an epoch. A node may fence a key it owns at the epoch it holds. The authority moves
a key to a higher epoch only after the owner of the old one has fenced it or moved on. Then no
two nodes own a key unfenced, however late the snapshots travel. -/

namespace Lib

structure SnapshotView (α κ τ ν : Type*) where
  find : α → κ → Option τ
  owner : τ → ν
  epoch : τ → ℕ
  rank : α → ℕ

structure FencedHistory (α κ ν : Type*) extends PublishedHistory α ν where
  fence : ν → κ → Option ℕ

variable {α κ τ ν : Type*} (V : SnapshotView α κ τ ν)

def SnapshotView.Supersedes (old new : α) : Prop :=
  ∀ k t, V.find old k = some t →
    ∃ t', V.find new k = some t' ∧ (t' = t ∨ V.epoch t < V.epoch t')

variable {V}

theorem SnapshotView.Supersedes.trans {a b c : α} (hab : V.Supersedes a b)
    (hbc : V.Supersedes b c) : V.Supersedes a c := by
  intro k t ht
  obtain ⟨t', ht', hor⟩ := hab k t ht
  obtain ⟨t'', ht'', hor'⟩ := hbc k t' ht'
  refine ⟨t'', ht'', ?_⟩
  rcases hor with rfl | hlt
  · exact hor'
  · rcases hor' with rfl | hlt'
    · exact .inr hlt
    · exact .inr (hlt.trans hlt')

theorem SnapshotView.supersedes_refl (a : α) : V.Supersedes a a :=
  fun _ t ht => ⟨t, ht, .inl rfl⟩

namespace FencedHistory

variable (V) (authority : ν)

/-- Node `n` can no longer write `k` at epoch `e`: it holds a later epoch, or it owns this one
and has fenced it. The authority itself is never behind, so it needs no fence. -/
def Passed (st : FencedHistory α κ ν) (n : ν) (k : κ) (e : ℕ) : Prop :=
  ∃ t, V.find (st.held n) k = some t ∧ e ≤ V.epoch t ∧
    (V.epoch t = e → V.owner t = n ∧ (n = authority ∨ st.fence n k = some e))

structure Sound (st : FencedHistory α κ ν) : Prop where
  chain : st.Chained V.rank V.Supersedes authority
  passed : ∀ a ∈ st.history, ∀ k t, V.find a k = some t →
    ∀ t', V.find (st.held authority) k = some t' → V.epoch t < V.epoch t' →
      st.Passed V authority (V.owner t) k (V.epoch t)

variable {V authority} {st : FencedHistory α κ ν}

theorem Sound.supersedes_newest (h : st.Sound V authority) {a : α} (ha : a ∈ st.history) :
    V.Supersedes a (st.held authority) :=
  h.chain.newest V.supersedes_refl ha

theorem Sound.owner_of_passed (h : st.Sound V authority) {n : ν} {k : κ} {t : τ}
    (ht : V.find (st.held authority) k = some t) (hn : st.Passed V authority n k (V.epoch t)) :
    V.owner t = n := by
  obtain ⟨u, hu, hle, howner⟩ := hn
  obtain ⟨u', hu', hor⟩ := h.supersedes_newest (h.chain.held_mem n) k u hu
  obtain rfl := Option.some.inj (ht.symm.trans hu')
  rcases hor with rfl | hlt
  · exact (howner rfl).1
  · exact absurd hlt (not_lt.2 hle)

/-! ## Single writer -/

theorem Sound.eq_of_unfenced (h : st.Sound V authority) {k : κ} {m n : ν} {s t : τ}
    (hs : V.find (st.held m) k = some s) (hsm : V.owner s = m) (hm : st.fence m k = none)
    (ht : V.find (st.held n) k = some t) (htn : V.owner t = n) (hn : st.fence n k = none) :
    m = n := by
  -- an unfenced owner holds the newest term of the key
  have hnewest : ∀ {p : ν} {u : τ}, V.find (st.held p) k = some u → V.owner u = p →
      st.fence p k = none → V.find (st.held authority) k = some u := by
    intro p u hu hup hp
    obtain ⟨u', hu', rfl | hlt⟩ := h.supersedes_newest (h.chain.held_mem p) k u hu
    · exact hu'
    · obtain ⟨w, hw, -, howner⟩ := h.passed _ (h.chain.held_mem p) k u hu u' hu' hlt
      rw [hup] at hw howner
      obtain rfl := Option.some.inj (hu.symm.trans hw)
      rcases (howner rfl).2 with rfl | hfence
      · rw [Option.some.inj (hu.symm.trans hu')] at hlt
        exact absurd hlt (lt_irrefl _)
      · rw [hp] at hfence
        cases hfence
  have hst : s = t := Option.some.inj ((hnewest hs hsm hm).symm.trans (hnewest ht htn hn))
  rw [← hsm, ← htn, hst]

/-! ## Drafts -/

/-- A snapshot the authority may install: one it has published, or a draft one rank above a
published one, where the owner of each replaced term has passed it. -/
inductive Publishable (V : SnapshotView α κ τ ν) (authority : ν) (st : FencedHistory α κ ν)
    (a : α) : Prop
  | published (hmem : a ∈ st.history)
  | drafted (base : α) (hbase : base ∈ st.history) (hrank : V.rank a = V.rank base + 1)
      (hsup : V.Supersedes base a)
      (hpassed : ∀ k t t', V.find base k = some t → V.find a k = some t' →
        V.epoch t < V.epoch t' → st.Passed V authority (V.owner t) k (V.epoch t))

structure Extends (V : SnapshotView α κ τ ν) (authority : ν) (st st' : FencedHistory α κ ν) :
    Prop where
  history : ∀ a ∈ st.history, a ∈ st'.history
  passed : ∀ {n k e}, st.Passed V authority n k e → st'.Passed V authority n k e

theorem Publishable.mono {st' : FencedHistory α κ ν} {a : α} (h : st.Publishable V authority a)
    (hext : st.Extends V authority st') : st'.Publishable V authority a := by
  cases h with
  | published hmem => exact .published (hext.history a hmem)
  | drafted base hbase hrank hsup hpassed =>
    exact .drafted base (hext.history base hbase) hrank hsup fun k t t' ht ht' hlt =>
      hext.passed (hpassed k t t' ht ht' hlt)

/-! ## Steps -/

section Steps
variable [DecidableEq ν]

def setNode (st : FencedHistory α κ ν) (n : ν) (a : α) (f : κ → Option ℕ) :
    FencedHistory α κ ν where
  toPublishedHistory := st.setHeld n a
  fence := Function.update st.fence n f

def publish (st : FencedHistory α κ ν) (authority : ν) (a : α) : FencedHistory α κ ν :=
  { st with toPublishedHistory := st.push authority a }

def KeepsFences (V : SnapshotView α κ τ ν) (authority : ν) (st : FencedHistory α κ ν) (n : ν)
    (f : κ → Option ℕ) : Prop :=
  n = authority ∨ ∀ k t, V.find (st.held n) k = some t → V.owner t = n →
    st.fence n k = some (V.epoch t) → f k = some (V.epoch t)

variable {a : α} {n : ν} {f : κ → Option ℕ}

theorem Passed.setNode {m : ν} {k : κ} {e : ℕ} (h : st.Passed V authority m k e)
    (hsup : V.Supersedes (st.held n) a) (hf : KeepsFences V authority st n f) :
    (st.setNode n a f).Passed V authority m k e := by
  by_cases hmn : m = n
  · subst hmn
    obtain ⟨t, ht, hle, howner⟩ := h
    obtain ⟨t', ht', hor⟩ := hsup k t ht
    refine ⟨t', by simpa [FencedHistory.setNode, PublishedHistory.setHeld] using ht', ?_, ?_⟩
    · rcases hor with rfl | hlt
      · exact hle
      · exact hle.trans hlt.le
    · intro heq
      rcases hor with rfl | hlt
      · obtain ⟨hown, hfence⟩ := howner heq
        refine ⟨hown, hfence.elim .inl fun hfence => ?_⟩
        rcases hf with rfl | hf
        · exact .inl rfl
        · refine .inr ?_
          rw [← heq] at hfence ⊢
          simpa [FencedHistory.setNode] using hf k t' ht hown hfence
      · omega
  · simpa only [Passed, FencedHistory.setNode, PublishedHistory.setHeld,
      Function.update_of_ne hmn] using h

theorem Passed.publish {m : ν} {k : κ} {e : ℕ} (h : st.Passed V authority m k e)
    (hsup : V.Supersedes (st.held authority) a) :
    (st.publish authority a).Passed V authority m k e := by
  have hstep := h.setNode (f := st.fence authority) hsup (.inl rfl)
  simpa only [Passed, FencedHistory.publish, FencedHistory.setNode, PublishedHistory.setHeld,
    PublishedHistory.push, Function.update_eq_self] using hstep

theorem Sound.extends_setNode (h : st.Sound V authority) (ha : st.MayMove V.rank n a)
    (hf : KeepsFences V authority st n f) : st.Extends V authority (st.setNode n a f) :=
  ⟨fun _ hmem => hmem, fun hpassed => hpassed.setNode (h.chain.move V.supersedes_refl ha) hf⟩

theorem Sound.setNode (h : st.Sound V authority) (ha : st.MayMove V.rank n a)
    (hf : KeepsFences V authority st n f) : (st.setNode n a f).Sound V authority := by
  refine ⟨h.chain.setHeld ha, fun b hb k t ht t' ht' hlt => ?_⟩
  have hauth : (st.setNode n a f).held authority = st.held authority :=
    h.chain.setHeld_authority ha
  rw [hauth] at ht'
  exact (h.extends_setNode ha hf).passed (h.passed b hb k t ht t' ht' hlt)

theorem Sound.publish (h : st.Sound V authority) (hrank : V.rank (st.held authority) < V.rank a)
    (hsup : V.Supersedes (st.held authority) a)
    (hpassed : ∀ k t t', V.find (st.held authority) k = some t → V.find a k = some t' →
      V.epoch t < V.epoch t' → st.Passed V authority (V.owner t) k (V.epoch t)) :
    (st.publish authority a).Sound V authority := by
  have hheld : (st.publish authority a).held authority = a := by
    simp [FencedHistory.publish, PublishedHistory.push]
  refine ⟨h.chain.push V.supersedes_refl .trans hrank hsup, fun b hb k t ht t' ht' hlt => ?_⟩
  rw [hheld] at ht'
  rcases List.mem_cons.1 hb with rfl | hb
  · rw [Option.some.inj (ht.symm.trans ht')] at hlt
    exact absurd hlt (lt_irrefl _)
  · obtain ⟨u, hu, rfl | hlt'⟩ := h.supersedes_newest hb k t ht
    · exact (hpassed k u t' hu ht' hlt).publish hsup
    · exact (h.passed b hb k t ht u hu hlt').publish hsup

theorem Sound.publish_draft (h : st.Sound V authority) (ha : st.Publishable V authority a)
    (hrank : V.rank (st.held authority) < V.rank a) :
    (st.publish authority a).Sound V authority ∧
      st.Extends V authority (st.publish authority a) := by
  cases ha with
  | published hmem => exact absurd (h.chain.rank_le hmem) (not_le.2 hrank)
  | drafted base hbase hbaseRank hsup hpassed =>
    obtain rfl := h.chain.base_eq hbase hbaseRank hrank
    exact ⟨h.publish hrank hsup hpassed, fun b hb => List.mem_cons_of_mem _ hb,
      fun hpassed => hpassed.publish hsup⟩

end Steps
end FencedHistory
end Lib

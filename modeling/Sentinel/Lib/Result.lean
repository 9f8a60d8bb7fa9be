import Mathlib.Algebra.GroupWithZero.Nat
import Mathlib.Data.List.Basic

/-! Computations that may fail: what it means for a check, a sequence of checks or a chain of
steps to succeed. -/

namespace Lib

variable {ε α β : Type}

def ensure (p : Prop) [Decidable p] (e : ε) : Except ε Unit := if p then .ok () else .error e

variable {f : α → Except ε β} {x : Except ε α} {a : α} {c bits : ℕ} {e : ε} {b : β} {bs : List β}

@[simp] theorem ensure_eq_ok {p : Prop} [Decidable p] {u : Unit} : ensure p e = .ok u ↔ p := by
  unfold ensure
  split_ifs with h <;> simp [h]

theorem bind_eq_ok : x >>= f = .ok b ↔ ∃ a, x = .ok a ∧ f a = .ok b := by
  cases x with
  | error e => simp [bind, Except.bind]
  | ok a => simp [bind, Except.bind]

theorem exists_unit {p : Unit → Prop} : (∃ u, p u) ↔ p () := ⟨fun ⟨_, h⟩ => h, fun h => ⟨(), h⟩⟩

theorem elim_eq_ok {o : Option α} : o.elim (Except.error e) Except.ok = .ok a ↔ o = some a := by
  cases o <;> simp

theorem mapError_eq_ok {f : ε → ε} : x.mapError f = .ok a ↔ x = .ok a := by
  cases x <;> simp [Except.mapError]

def orError (o : Option α) (e : ε) : Except ε α := o.elim (.error e) .ok

@[simp] theorem orError_eq_ok {o : Option α} : orError o e = .ok a ↔ o = some a :=
  elim_eq_ok

/-- Addition of machine words of `bits` bits; nothing where the sum does not fit. -/
def checkedAdd (bits a b : ℕ) : Option ℕ := if a + b < 2 ^ bits then some (a + b) else none

theorem checkedAdd_eq_some {a b : ℕ} : checkedAdd bits a b = some c ↔ a + b = c ∧ c < 2 ^ bits := by
  unfold checkedAdd
  split_ifs with h
  · simp only [Option.some.injEq]
    exact ⟨fun hc => ⟨hc, hc ▸ h⟩, fun hc => hc.1⟩
  · simp only [false_iff, not_and]
    exact fun hc => hc ▸ h

def checkedSum (bits : ℕ) (rows : List ℕ) : Option ℕ := rows.foldlM (checkedAdd bits) 0

theorem foldlM_checkedAdd_eq_some {a : ℕ} {rows : List ℕ} (ha : a < 2 ^ bits) :
    rows.foldlM (checkedAdd bits) a = some c ↔ a + rows.sum = c ∧ c < 2 ^ bits := by
  induction rows generalizing a with
  | nil =>
    simp only [List.foldlM_nil, List.sum_nil, Nat.add_zero, pure, Option.some.injEq]
    exact ⟨fun hc => ⟨hc, hc ▸ ha⟩, fun hc => hc.1⟩
  | cons r rows ih =>
    rw [List.foldlM_cons, List.sum_cons, ← Nat.add_assoc]
    by_cases hr : a + r < 2 ^ bits
    · rw [show checkedAdd bits a r = some (a + r) from if_pos hr]
      exact ih hr
    · rw [show checkedAdd bits a r = none from if_neg hr]
      -- the partial sum is already too large, and the rest can only add to it
      constructor
      · intro hc
        cases hc
      · rintro ⟨hc, hlt⟩
        omega

theorem checkedSum_eq_some {rows : List ℕ} :
    checkedSum bits rows = some c ↔ rows.sum = c ∧ c < 2 ^ bits := by
  rw [checkedSum, foldlM_checkedAdd_eq_some (Nat.two_pow_pos bits), Nat.zero_add]

def checkedSub (a b : ℕ) : Option ℕ := if b ≤ a then some (a - b) else none

theorem checkedSub_eq_some {a b : ℕ} : checkedSub a b = some c ↔ a = c + b := by
  unfold checkedSub
  split_ifs with h
  · simp only [Option.some.injEq]
    omega
  · simp only [false_iff]
    omega

theorem toOption_eq_some : x.toOption = some a ↔ x = .ok a := by
  cases x <;> simp [Except.toOption]

theorem map_eq_ok {f : α → β} : f <$> x = .ok b ↔ ∃ a, x = .ok a ∧ f a = b := by
  cases x with
  | error e => simp [Functor.map, Except.map]
  | ok a => simp [Functor.map, Except.map]

theorem foldlM_invariant {step : β → α → Except ε β} {rows : List α} {I : β → Prop} {s t : β}
    (hstep : ∀ a ∈ rows, ∀ u v, I u → step u a = .ok v → I v) (hs : I s)
    (h : rows.foldlM step s = .ok t) : I t := by
  induction rows generalizing s with
  | nil =>
    obtain rfl : s = t := by simpa [pure, Except.pure] using h
    exact hs
  | cons a rows ih =>
    obtain ⟨ha, hrows⟩ := List.forall_mem_cons.1 hstep
    rw [List.foldlM_cons, bind_eq_ok] at h
    obtain ⟨u, hu, hrest⟩ := h
    exact ih hrows (ha s u hs hu) hrest

def checkAll (check : α → Except ε Unit) : List α → Except ε Unit
  | [] => .ok ()
  | a :: as => check a >>= fun _ => checkAll check as

theorem checkAll_eq_ok {check : α → Except ε Unit} {rows : List α} {u : Unit} :
    checkAll check rows = .ok u ↔ ∀ r ∈ rows, check r = .ok () := by
  induction rows with
  | nil => simp [checkAll]
  | cons r rows ih =>
    simp only [checkAll, bind_eq_ok, ih, List.forall_mem_cons]
    exact ⟨fun ⟨_, h, hrows⟩ => ⟨h, hrows⟩, fun ⟨h, hrows⟩ => ⟨(), h, hrows⟩⟩

def mapAll (f : α → Except ε β) : List α → Except ε (List β)
  | [] => .ok []
  | a :: as => f a >>= fun b => mapAll f as >>= fun bs => .ok (b :: bs)

theorem mem_mapAll {rows : List α} (h : mapAll f rows = .ok bs) :
    b ∈ bs ↔ ∃ r ∈ rows, f r = .ok b := by
  induction rows generalizing bs with
  | nil =>
    obtain rfl : bs = [] := by simpa [mapAll, eq_comm] using h
    simp
  | cons r rows ih =>
    simp only [mapAll, bind_eq_ok, Except.ok.injEq] at h
    obtain ⟨c, hc, cs, hcs, rfl⟩ := h
    rw [List.mem_cons, ih hcs, List.exists_mem_cons_iff, hc, Except.ok.injEq, eq_comm]

theorem mem_of_mapAll {rows : List α} (h : mapAll f rows = .ok bs) :
    ∀ b ∈ bs, ∃ r ∈ rows, f r = .ok b :=
  fun _ hb => (mem_mapAll h).1 hb

theorem length_mapAll {rows : List α} (h : mapAll f rows = .ok bs) : rows.length = bs.length := by
  induction rows generalizing bs with
  | nil =>
    obtain rfl : bs = [] := by simpa [mapAll, eq_comm] using h
    rfl
  | cons r rows ih =>
    simp only [mapAll, bind_eq_ok, Except.ok.injEq] at h
    obtain ⟨b, hb, cs, hcs, rfl⟩ := h
    rw [List.length_cons, List.length_cons, ih hcs]

theorem mapAll_map_eq_ok_iff {f : β → Except ε α} {g : α → β} {rows : List α} :
    mapAll f (rows.map g) = .ok rows ↔ ∀ r ∈ rows, f (g r) = .ok r := by
  induction rows with
  | nil => simp [mapAll]
  | cons r rows ih =>
    simp only [List.map_cons, mapAll, bind_eq_ok, Except.ok.injEq, List.cons.injEq,
      List.forall_mem_cons, ← ih]
    constructor
    · rintro ⟨b, hb, cs, hcs, rfl, rfl⟩
      exact ⟨hb, hcs⟩
    · rintro ⟨hr, hrows⟩
      exact ⟨r, hr, rows, hrows, rfl, rfl⟩

theorem mapAll_isOk_iff {rows : List α} :
    (∃ bs, mapAll f rows = .ok bs) ↔ ∀ r ∈ rows, ∃ b, f r = .ok b := by
  induction rows with
  | nil => simp [mapAll]
  | cons r rows ih =>
    simp only [mapAll, bind_eq_ok, List.forall_mem_cons, ← ih]
    constructor
    · rintro ⟨_, b, hb, bs, hbs, -⟩
      exact ⟨⟨b, hb⟩, bs, hbs⟩
    · rintro ⟨⟨b, hb⟩, bs, hbs⟩
      exact ⟨_, b, hb, bs, hbs, rfl⟩

end Lib

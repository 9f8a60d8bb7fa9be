import Sentinel.Lib.Bytes
import Sentinel.Lib.Result
import Mathlib.Data.List.Forall2

/-! Self-delimiting encodings. An encoding is given as a relation between values and lists, so
that partial encoders need no case of their own. Read from the front of a longer list, a
delimited encoding determines its value and where it ends. -/

namespace Lib
open List
variable {α β : Type*}

/-- `code a x` says that `x` is an encoding of `a`. -/
def Delimited (code : α → List β → Prop) : Prop :=
  ∀ ⦃a b x y r s⦄, code a x → code b y → x ++ r = y ++ s → a = b ∧ r = s

theorem delimited_of_length {encode : α → List β} {n : ℕ} (hlen : ∀ a, (encode a).length = n)
    (hinj : Function.Injective encode) : Delimited fun a x => x = encode a := by
  rintro a b x y r s rfl rfl h
  obtain ⟨hxy, hrs⟩ := append_inj h ((hlen a).trans (hlen b).symm)
  exact ⟨hinj hxy, hrs⟩

theorem append_mark_inj {mark : β} {u v r s : List β} (hu : mark ∉ u) (hv : mark ∉ v)
    (h : u ++ mark :: r = v ++ mark :: s) : u = v ∧ r = s := by
  induction u generalizing v with
  | nil =>
    cases v with
    | nil => exact ⟨rfl, (List.cons.inj h).2⟩
    | cons c v => exact absurd (mem_cons.2 (.inl (List.cons.inj h).1)) hv
  | cons c u ih =>
    cases v with
    | nil => exact absurd (mem_cons.2 (.inl (List.cons.inj h).1.symm)) hu
    | cons d v =>
      obtain ⟨hcd, hrest⟩ := List.cons.inj h
      obtain ⟨huv, hrs⟩ := ih (fun hm => hu (mem_cons_of_mem _ hm))
        (fun hm => hv (mem_cons_of_mem _ hm)) hrest
      exact ⟨congrArg₂ List.cons hcd huv, hrs⟩

theorem delimited_terminated {encode : α → List β} {mark : β} (hmark : ∀ a, mark ∉ encode a)
    (hinj : Function.Injective encode) : Delimited fun a x => x = encode a ++ [mark] := by
  rintro a b x y r s rfl rfl h
  rw [append_assoc, append_assoc] at h
  obtain ⟨hab, hrs⟩ := append_mark_inj (hmark a) (hmark b) h
  exact ⟨hinj hab, hrs⟩

theorem delimited_counted {head : ℕ → List β} {fits : ℕ → Prop} {body : α → List β}
    (hhead : Delimited fun n x => fits n ∧ x = head n) (hbody : Function.Injective body) :
    Delimited fun a x => fits (body a).length ∧ x = head (body a).length ++ body a := by
  rintro a b x y r s ⟨ha, rfl⟩ ⟨hb, rfl⟩ h
  rw [append_assoc, append_assoc] at h
  obtain ⟨hlen, hrest⟩ := hhead ⟨ha, rfl⟩ ⟨hb, rfl⟩ h
  obtain ⟨hab, hrs⟩ := append_inj hrest hlen
  exact ⟨hbody hab, hrs⟩

theorem Delimited.flatten {code : α → List β → Prop} (h : Delimited code) {as bs : List α}
    {xs ys : List (List β)} {r s : List β} (has : List.Forall₂ code as xs)
    (hbs : List.Forall₂ code bs ys) (hlen : as.length = bs.length)
    (heq : xs.flatten ++ r = ys.flatten ++ s) : as = bs ∧ r = s := by
  induction has generalizing bs ys with
  | nil =>
    obtain rfl := length_eq_zero_iff.1 hlen.symm
    cases hbs
    exact ⟨rfl, heq⟩
  | cons ha _ ih =>
    cases hbs with
    | nil => simp at hlen
    | cons hb hbs =>
      simp only [flatten_cons, append_assoc] at heq
      obtain ⟨rfl, hrest⟩ := h ha hb heq
      obtain ⟨rfl, hrs⟩ := ih hbs (Nat.succ.inj hlen) hrest
      exact ⟨rfl, hrs⟩

theorem forall₂_of_mapAll {ε γ δ : Type} {f : γ → Except ε δ} {l : List γ} {r : List δ}
    (h : mapAll f l = .ok r) : List.Forall₂ (fun a c => f a = .ok c) l r := by
  induction l generalizing r with
  | nil =>
    cases h
    exact .nil
  | cons a l ih =>
    simp only [mapAll, bind_eq_ok] at h
    obtain ⟨c, hc, cs, hcs, h⟩ := h
    cases h
    exact .cons hc (ih hcs)

/-! ## Bytes -/

theorem beBytes_inj {n a b : ℕ} (ha : a < 256 ^ n) (hb : b < 256 ^ n)
    (h : beBytes n a = beBytes n b) : a = b := by
  induction n generalizing a b with
  | zero => omega
  | succ n ih =>
    obtain ⟨hhigh, hlow⟩ := append_inj' h rfl
    have hdiv : a / 256 = b / 256 := by
      apply ih _ _ hhigh <;> rw [Nat.div_lt_iff_lt_mul (by decide)] <;> rwa [← Nat.pow_succ]
    have hmod : a % 256 = b % 256 := by
      simpa using congrArg UInt8.toNat (List.cons.inj hlow).1
    omega

theorem delimited_beBytes (n : ℕ) : Delimited fun v x => v < 256 ^ n ∧ x = beBytes n v := by
  rintro a b x y r s ⟨ha, rfl⟩ ⟨hb, rfl⟩ h
  obtain ⟨hxy, hrs⟩ := append_inj h (by rw [length_beBytes, length_beBytes])
  exact ⟨beBytes_inj ha hb hxy, hrs⟩

theorem utf8Bytes_injective : Function.Injective utf8Bytes := by
  intro s t h
  apply String.toByteArray_inj.1
  rw [← String.ofList_toList (s := s), ← String.ofList_toList (s := t),
    String.toByteArray_ofList, String.toByteArray_ofList]
  exact toByteArray_inj.2 h

end Lib

import Mathlib.Data.List.Basic
import Mathlib.Data.List.Induction

/-! Plain arrays as lists: values given by a function of the index, cutting or extending with
zeros, and overwriting a range. -/

namespace Lib
open List

section Tabulate
variable {α : Type*}

def tabulate (n : ℕ) (f : ℕ → α) : List α := (List.range n).map f

@[simp] theorem length_tabulate (n : ℕ) (f : ℕ → α) : (tabulate n f).length = n := by
  simp [tabulate]

theorem getElem?_tabulate (n : ℕ) (f : ℕ → α) (i : ℕ) :
    (tabulate n f)[i]? = if i < n then some (f i) else none := by
  rw [tabulate, getElem?_map]
  split_ifs with h
  · rw [getElem?_range h]
    rfl
  · rw [getElem?_eq_none (by simpa using h)]
    rfl

theorem tabulate_congr {n : ℕ} {f g : ℕ → α} (h : ∀ i < n, f i = g i) :
    tabulate n f = tabulate n g :=
  map_congr_left fun i hi => h i (mem_range.1 hi)

end Tabulate

section Bytes
variable {α : Type*} [Zero α]

theorem getD_tabulate (n : ℕ) (f : ℕ → α) (i : ℕ) :
    (tabulate n f).getD i 0 = if i < n then f i else 0 := by
  rw [getD_eq_getElem?_getD, getElem?_tabulate]
  split_ifs <;> rfl

theorem tabulate_getD (a : List α) : tabulate a.length (fun i => a.getD i 0) = a := by
  apply ext_getElem?
  intro i
  rw [getElem?_tabulate]
  split_ifs with h
  · rw [getD_eq_getElem?_getD, getElem?_eq_getElem h]
    rfl
  · rw [getElem?_eq_none (by omega)]

variable {a file : List α}

theorem ext_getD {b : List α} (hlength : a.length = b.length)
    (hvalue : ∀ i < a.length, a.getD i 0 = b.getD i 0) : a = b := by
  rw [← tabulate_getD a, ← tabulate_getD b, ← hlength]
  exact tabulate_congr hvalue

theorem getD_take (a : List α) (n i : ℕ) :
    (a.take n).getD i 0 = if i < n then a.getD i 0 else 0 := by
  rw [getD_eq_getElem?_getD, getElem?_take]
  split_ifs with h
  · rw [getD_eq_getElem?_getD]
  · rfl

theorem getD_drop (a : List α) (n i : ℕ) : (a.drop n).getD i 0 = a.getD (n + i) 0 := by
  rw [getD_eq_getElem?_getD, getElem?_drop, getD_eq_getElem?_getD]

theorem getD_append (a b : List α) (i : ℕ) :
    (a ++ b).getD i 0 = if i < a.length then a.getD i 0 else b.getD (i - a.length) 0 := by
  rw [getD_eq_getElem?_getD, getElem?_append]
  split_ifs <;> rw [getD_eq_getElem?_getD]

theorem getD_of_length_le {i : ℕ} (h : a.length ≤ i) : a.getD i 0 = 0 := by
  rw [getD_eq_getElem?_getD, getElem?_eq_none h]
  rfl

def resize (n : ℕ) (a : List α) : List α := tabulate n fun i => a.getD i 0

@[simp] theorem length_resize (n : ℕ) (a : List α) : (resize n a).length = n :=
  length_tabulate _ _

theorem getD_resize (n : ℕ) (a : List α) (i : ℕ) :
    (resize n a).getD i 0 = if i < n then a.getD i 0 else 0 := getD_tabulate _ _ _

def overwrite (a : List α) (start : ℕ) (src : List α) : List α :=
  tabulate a.length fun i =>
    if start ≤ i ∧ i < start + src.length then src.getD (i - start) 0 else a.getD i 0

@[simp] theorem length_overwrite (a : List α) (start : ℕ) (src : List α) :
    (overwrite a start src).length = a.length := length_tabulate _ _

theorem getD_overwrite {i : ℕ} (h : i < a.length) (start : ℕ) (src : List α) :
    (overwrite a start src).getD i 0 =
      if start ≤ i ∧ i < start + src.length then src.getD (i - start) 0 else a.getD i 0 := by
  rw [overwrite, getD_tabulate, if_pos h]

theorem overwrite_eq_append {start : ℕ} {src : List α} (h : start + src.length ≤ a.length) :
    overwrite a start src = a.take start ++ src ++ a.drop (start + src.length) := by
  have hstart : min start a.length = start := by omega
  apply ext_getD
  · simp only [length_overwrite, length_append, length_take, length_drop]
    omega
  · intro i hi
    rw [length_overwrite] at hi
    rw [getD_overwrite hi, getD_append, getD_append, getD_take, getD_drop, length_append,
      length_take, hstart]
    by_cases hbefore : i < start
    · rw [if_neg (by omega), if_pos (by omega), if_pos hbefore, if_pos hbefore]
    by_cases hinside : i < start + src.length
    · rw [if_pos ⟨by omega, hinside⟩, if_pos hinside, if_neg hbefore]
    · rw [if_neg (by omega), if_neg hinside]
      congr 1
      omega

/-! ## Files -/

def writeAt (file : List α) (offset : ℕ) (data : List α) : List α :=
  if data = [] then file
  else overwrite (resize (max file.length (offset + data.length)) file) offset data

def readAt (file : List α) (offset length : ℕ) : Option (List α) :=
  if length = 0 ∨ offset + length ≤ file.length then some ((file.drop offset).take length)
  else none

theorem le_length_writeAt (file : List α) (offset : ℕ) (data : List α) :
    file.length ≤ (writeAt file offset data).length := by
  unfold writeAt
  split_ifs
  · exact Nat.le_refl _
  · rw [length_overwrite, length_resize]
    exact Nat.le_max_left _ _

theorem add_le_length_writeAt {offset : ℕ} (h : offset ≤ file.length) (data : List α) :
    offset + data.length ≤ (writeAt file offset data).length := by
  unfold writeAt
  split_ifs with hdata
  · rw [hdata]
    exact h
  · rw [length_overwrite, length_resize]
    exact Nat.le_max_right _ _

theorem readAt_writeAt (file : List α) (offset : ℕ) (data : List α) :
    readAt (writeAt file offset data) offset data.length = some data := by
  by_cases hdata : data = []
  · subst hdata
    simp [readAt]
  · have hfits : offset + data.length ≤
        (resize (max file.length (offset + data.length)) file).length := by
      rw [length_resize]
      exact Nat.le_max_right _ _
    have hoffset : min offset (max file.length (offset + data.length)) = offset := by omega
    rw [readAt, writeAt, if_neg hdata, if_pos (.inr (by rw [length_overwrite]; exact hfits)),
      overwrite_eq_append hfits, append_assoc, drop_append, length_take,
      length_resize, hoffset, Nat.sub_self, drop_zero]
    simp

theorem readAt_writeAt_before {offset : ℕ} {data : List α} {start length : ℕ} {value : List α}
    (hbefore : start + length ≤ offset) (h : readAt file start length = some value) :
    readAt (writeAt file offset data) start length = some value := by
  have hgrown := le_length_writeAt file offset data
  unfold readAt at h ⊢
  split_ifs at h with hread
  rw [if_pos (hread.imp_right fun hle => Nat.le_trans hle hgrown), ← Option.some.inj h]
  congr 1
  rcases hread with rfl | hle
  · simp
  · apply ext_getD
    · simp only [length_take, length_drop]
      omega
    · intro i hi
      rw [length_take, length_drop, Nat.lt_min] at hi
      rw [getD_take, getD_take, if_pos hi.1, if_pos hi.1, getD_drop, getD_drop]
      unfold writeAt
      split_ifs
      · rfl
      · rw [getD_overwrite (by rw [length_resize]; omega), if_neg (by omega), getD_resize,
          if_pos (by omega)]

theorem length_writeAt (file : List α) (offset : ℕ) (data : List α) :
    (writeAt file offset data).length =
      if data = [] then file.length else max file.length (offset + data.length) := by
  unfold writeAt
  split_ifs
  · rfl
  · rw [length_overwrite, length_resize]

theorem getD_writeAt (file : List α) (offset : ℕ) (data : List α) (i : ℕ) :
    (writeAt file offset data).getD i 0 =
      if offset ≤ i ∧ i < offset + data.length then data.getD (i - offset) 0
      else file.getD i 0 := by
  by_cases hdata : data = []
  · rw [writeAt, if_pos hdata, if_neg (by rw [hdata, length_nil]; omega)]
  by_cases hi : i < max file.length (offset + data.length)
  · rw [writeAt, if_neg hdata, getD_overwrite (by rwa [length_resize]), getD_resize, if_pos hi]
  · -- past the end of both the file and the data
    rw [getD_of_length_le (by rw [length_writeAt, if_neg hdata]; omega), if_neg (by omega),
      getD_of_length_le (by omega)]

def writeAll (file : List α) (writes : List (ℕ × List α)) : List α :=
  writes.foldl (fun file w => writeAt file w.1 w.2) file

def lastWritten (writes : List (ℕ × List α)) (i : ℕ) : Option α :=
  writes.reverse.findSome? fun w => if w.1 ≤ i then w.2[i - w.1]? else none

theorem le_length_writeAll (file : List α) (writes : List (ℕ × List α)) :
    file.length ≤ (writeAll file writes).length := by
  induction writes generalizing file with
  | nil => exact Nat.le_refl _
  | cons w writes ih => exact Nat.le_trans (le_length_writeAt file w.1 w.2) (ih _)

theorem length_writeAll_eq_iff {writes : List (ℕ × List α)} :
    (writeAll file writes).length = file.length ↔
      ∀ w ∈ writes, w.2 = [] ∨ w.1 + w.2.length ≤ file.length := by
  induction writes generalizing file with
  | nil => simp [writeAll]
  | cons w writes ih =>
    have hfirst := le_length_writeAt file w.1 w.2
    have hrest := le_length_writeAll (writeAt file w.1 w.2) writes
    have hkeeps : (writeAt file w.1 w.2).length = file.length ↔
        (w.2 = [] ∨ w.1 + w.2.length ≤ file.length) := by
      rw [length_writeAt]
      by_cases hdata : w.2 = []
      · simp [hdata]
      · rw [if_neg hdata, or_iff_right hdata]
        omega
    have hsplit : (writeAll file (w :: writes)).length = file.length ↔
        (writeAt file w.1 w.2).length = file.length ∧
          (writeAll (writeAt file w.1 w.2) writes).length =
            (writeAt file w.1 w.2).length := by
      change (writeAll (writeAt file w.1 w.2) writes).length = file.length ↔ _
      omega
    rw [hsplit, forall_mem_cons, ← hkeeps]
    apply and_congr_right
    intro hlength
    rw [ih, hlength]

theorem getD_writeAll (file : List α) (writes : List (ℕ × List α)) (i : ℕ) :
    (writeAll file writes).getD i 0 = (lastWritten writes i).getD (file.getD i 0) := by
  induction writes using List.reverseRecOn with
  | nil => rfl
  | append_singleton writes w ih =>
    rw [writeAll, foldl_concat, getD_writeAt, lastWritten, reverse_concat,
      findSome?_cons]
    by_cases hcovers : w.1 ≤ i ∧ i < w.1 + w.2.length
    · have hplace : i - w.1 < w.2.length := by omega
      rw [if_pos hcovers, if_pos hcovers.1, getD_eq_getElem?_getD,
        getElem?_eq_getElem hplace]
      rfl
    · have hnone : (if w.1 ≤ i then w.2[i - w.1]? else none) = none := by
        split_ifs with hle
        · exact getElem?_eq_none (by omega)
        · rfl
      rw [if_neg hcovers, hnone]
      exact ih

end Bytes

/-- A range of an array whose values stand in a part of some source, or a hole of zeros. -/
structure Extent (κ : Type*) where
  start : ℕ
  len : ℕ
  source : Option κ
  offset : ℕ

def Extent.slice {κ : Type*} (e : Extent κ) (start stop : ℕ) : Extent κ :=
  ⟨start, stop - start, e.source, e.offset + start - e.start⟩

def Extents.partitionPoint {κ : Type*} (p : Extent κ → Bool) (es : List (Extent κ)) : ℕ :=
  (es.takeWhile p).length

end Lib

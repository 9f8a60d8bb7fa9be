import Mathlib.Data.List.Basic
import Mathlib.Order.Nat

/-! Content-defined chunking with a rolling gear hash (`sentinel-fs`, module `chunker`). -/

namespace Sentinel.Fs

def minChunkBytes : ℕ := 16384
def targetChunkBytes : ℕ := 65536
def maxChunkBytes : ℕ := 262144

def gearStep (state : UInt64) : UInt64 :=
  let a := state ^^^ state <<< 12
  let b := a ^^^ a >>> 25
  b ^^^ b <<< 27

def gearFrom : ℕ → UInt64 → List UInt64
  | 0, _ => []
  | n + 1, state =>
    let next := gearStep state
    next * 0x2545f4914f6cdd1d :: gearFrom n next

def gear : List UInt64 := gearFrom 256 0x9e3779b97f4a7c15

def chunkMask : UInt64 := UInt64.ofNat (targetChunkBytes - 1)

def rollSplit : ℕ → UInt64 → List UInt8 → ℕ
  | i, _, [] => i
  | i, fp, b :: rest =>
    let fp := fp <<< 1 + gear.getD b.toNat 0
    if minChunkBytes ≤ i ∧ fp &&& chunkMask = 0 then i + 1 else rollSplit (i + 1) fp rest

def nextSplit (data : List UInt8) : ℕ :=
  if data.length ≤ maxChunkBytes then data.length else rollSplit 0 0 (data.take maxChunkBytes)

def chunksFrom : ℕ → List UInt8 → List (List UInt8)
  | 0, _ => []
  | _ + 1, [] => []
  | fuel + 1, b :: data =>
    let split := nextSplit (b :: data)
    (b :: data).take split :: chunksFrom fuel ((b :: data).drop split)

def chunkData (data : List UInt8) : List (List UInt8) := chunksFrom data.length data

theorem rollSplit_bounds (i : ℕ) (fp : UInt64) {data : List UInt8} (h : data ≠ []) :
    i < rollSplit i fp data ∧ rollSplit i fp data ≤ i + data.length := by
  induction data generalizing i fp with
  | nil => exact absurd rfl h
  | cons b rest ih =>
    rw [rollSplit]
    split
    · simp only [List.length_cons]
      omega
    · cases rest with
      | nil =>
        simp only [rollSplit, List.length_cons, List.length_nil]
        omega
      | cons c rest =>
        have hnext := ih (i + 1) (fp <<< 1 + gear.getD b.toNat 0) (List.cons_ne_nil c rest)
        simp only [List.length_cons] at hnext ⊢
        omega

theorem nextSplit_bounds {data : List UInt8} (h : data ≠ []) :
    0 < nextSplit data ∧ nextSplit data ≤ data.length := by
  have hpos := List.length_pos_iff.2 h
  unfold nextSplit
  split
  · exact ⟨hpos, le_rfl⟩
  · have hne : data.take maxChunkBytes ≠ [] := by
      intro hnil
      have hlen := congrArg List.length hnil
      simp only [List.length_take, List.length_nil, maxChunkBytes] at hlen
      omega
    obtain ⟨hlow, hhigh⟩ := rollSplit_bounds 0 0 hne
    rw [List.length_take] at hhigh
    omega

theorem chunksFrom_flatten {fuel : ℕ} {data : List UInt8} (h : data.length ≤ fuel) :
    (chunksFrom fuel data).flatten = data := by
  induction fuel generalizing data with
  | zero =>
    rw [List.eq_nil_of_length_eq_zero (Nat.le_zero.1 h)]
    rfl
  | succ fuel ih =>
    cases data with
    | nil => rfl
    | cons b data =>
      have hsplit := nextSplit_bounds (List.cons_ne_nil b data)
      have hrest : ((b :: data).drop (nextSplit (b :: data))).length ≤ fuel := by
        rw [List.length_drop]
        omega
      rw [chunksFrom, List.flatten_cons, ih hrest, List.take_append_drop]

theorem chunkData_flatten (data : List UInt8) : (chunkData data).flatten = data :=
  chunksFrom_flatten le_rfl

end Sentinel.Fs

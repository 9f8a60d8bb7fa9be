import Mathlib.Data.Option.Basic
import Mathlib.Data.List.Induction

/-! Tables by their primary key: under each key a row or none. The statements that write one
row act on it alone; after a list of them a row is what the last one for its key left. -/

namespace Lib

abbrev Keyed (κ β : Type) := κ → Option β

namespace Keyed

variable {κ β γ : Type}

def empty : Keyed κ β := fun _ => none

/-- `INSERT … ON CONFLICT DO UPDATE`: a new row, or `f` of the one that is there. -/
def upsert [DecidableEq κ] (t : Keyed κ β) (k : κ) (new : β) (f : β → β) : Keyed κ β :=
  fun j => if j = k then some ((t j).elim new f) else t j

def mapRows (f : κ → β → γ) (t : Keyed κ β) : Keyed κ γ := fun j => (t j).map (f j)

variable [DecidableEq κ]

/-- Inserts and removals in order; a removal writes nothing under its key. -/
def writeAll (t : Keyed κ β) (writes : List (κ × Option β)) : Keyed κ β :=
  writes.foldl (fun t w => Function.update t w.1 w.2) t

def lastWrite (writes : List (κ × Option β)) (k : κ) : Option (Option β) :=
  (writes.reverse.find? (·.1 = k)).map Prod.snd

theorem writeAll_append (t : Keyed κ β) (a b : List (κ × Option β)) :
    t.writeAll (a ++ b) = (t.writeAll a).writeAll b :=
  List.foldl_append

theorem writeAll_apply (t : Keyed κ β) (writes : List (κ × Option β)) (k : κ) :
    t.writeAll writes k = (lastWrite writes k).getD (t k) := by
  induction writes using List.reverseRecOn with
  | nil => rfl
  | append_singleton writes w ih =>
    have hlast : lastWrite (writes ++ [w]) k =
        if w.1 = k then some w.2 else lastWrite writes k := by
      unfold lastWrite
      rw [List.reverse_append, List.reverse_singleton, List.singleton_append, List.find?_cons]
      by_cases hk : w.1 = k <;> simp [hk]
    rw [writeAll_append, hlast]
    show Function.update (t.writeAll writes) w.1 w.2 k = _
    by_cases hk : w.1 = k
    · rw [if_pos hk, ← hk, Function.update_self, Option.getD_some]
    · rw [if_neg hk, Function.update_of_ne (Ne.symm hk), ih]

end Keyed

end Lib

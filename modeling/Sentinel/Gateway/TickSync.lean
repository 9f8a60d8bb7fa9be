import Mathlib.Data.List.TakeWhile
import Mathlib.Data.Prod.Lex
import Mathlib.Data.String.Basic
import Sentinel.Lib.Clock
import Sentinel.Lib.EventLog
import Sentinel.Lib.Table

/-! The tick-sync buffer of the gateway (`cortex-gateway`, package `ticksync`): responses are held
by tick and delivered together. A step is one critical section or the delivery of one response by a
flush in progress, so a list of steps is an interleaving of callers and flushes. The steps answer
with the responses they deliver. -/

namespace Sentinel.Gateway.TickSync
open Lib List

/-- A held response. The number stands for the response with its writer and its channel. -/
structure Entry where
  number : ℕ
  agentID : ℤ
  requestID : String
  priority : ℤ
  heldAt : ℤ

def Entry.rank (e : Entry) : ℤ ×ₗ ℤ ×ₗ String := toLex (e.priority, toLex (e.agentID, e.requestID))

/-- What `sort.Slice` may do: it need not be stable. -/
structure SortSlice where
  sort : List Entry → List Entry
  perm : ∀ entries, (sort entries).Perm entries
  sorted : ∀ entries, (sort entries).Pairwise fun a b => a.rank ≤ b.rank

structure Delivery where
  flush : ℕ
  tick : ℕ
  entry : Entry

def Delivery.rank (d : Delivery) : ℕ ×ₗ ℤ ×ₗ ℤ ×ₗ String := toLex (d.tick, d.entry.rank)

structure Buffer where
  pending : Table ℕ (List Entry)
  timeout : ℤ
  enabled : Bool

structure System extends Buffer where
  held : ℕ
  flushes : ℕ
  inFlight : List Delivery

def newBuffer (timeout : ℤ) (enabled : Bool) : Buffer := ⟨Table.empty, timeout, enabled⟩

def start (timeout : ℤ) (enabled : Bool) : System := ⟨newBuffer timeout enabled, 0, 0, []⟩

def hold (s : System) (tick : ℕ) (agentID priority : ℤ) (requestID : String) (now : ℤ) : System :=
  let entry : Entry := ⟨s.held, agentID, requestID, priority, now⟩
  { s with
    pending := s.pending.insert tick ((s.pending.get tick).getD [] ++ [entry])
    held := s.held + 1 }

def flushEntries (sorter : SortSlice) (flush : ℕ) (groups : List (ℕ × List Entry)) :
    List Delivery :=
  groups.flatMap fun g => (sorter.sort g.2).map fun e => ⟨flush, g.1, e⟩

def beginFlush (sorter : SortSlice) (s : System) (groups : List (ℕ × List Entry))
    (rest : Table ℕ (List Entry)) : System :=
  { s with
    pending := rest
    flushes := s.flushes + 1
    inFlight := s.inFlight ++ flushEntries sorter s.flushes groups }

def expired (timeout now : ℤ) : List Entry → Bool
  | [] => false
  | oldest :: _ => timeout ≤ timeSub now oldest.heldAt

def flushExpired (sorter : SortSlice) (s : System) (now : ℤ) : System :=
  beginFlush sorter s (s.pending.entries.filter fun g => expired s.timeout now g.2)
    ⟨s.pending.entries.filter fun g => !expired s.timeout now g.2, s.pending.sorted.filter _⟩

def setEnabled (sorter : SortSlice) (s : System) (v : Bool) : System :=
  if s.enabled = v then s
  else if v then { s with enabled := v }
  else beginFlush sorter { s with enabled := v } s.pending.entries Table.empty

def setTimeout (s : System) (timeout : ℤ) : System :=
  if timeout ≤ 0 then s else { s with timeout := timeout }

def deliver (s : System) (flush : ℕ) : System × List Delivery :=
  match s.inFlight.dropWhile fun d => d.flush ≠ flush with
  | [] => (s, [])
  | d :: later =>
    ({ s with inFlight := (s.inFlight.takeWhile fun d => d.flush ≠ flush) ++ later }, [d])

inductive Step where
  | hold (tick : ℕ) (agentID priority : ℤ) (requestID : String) (now : ℤ)
  | flushExpired (now : ℤ)
  | setEnabled (v : Bool)
  | setTimeout (timeout : ℤ)
  | deliver (flush : ℕ)

def machine (sorter : SortSlice) : Machine System Step (List Delivery) where
  call s
    | .hold tick agentID priority requestID now =>
      (hold s tick agentID priority requestID now, [])
    | .flushExpired now => (flushExpired sorter s now, [])
    | .setEnabled v => (setEnabled sorter s v, [])
    | .setTimeout timeout => (setTimeout s timeout, [])
    | .deliver flush => deliver s flush

def Settled (s : System) : Prop := s.enabled = false → s.pending.entries = []

def HeldWhileEnabled (s : System) : Step → Prop
  | .hold .. => s.enabled = true
  | _ => True

/-! ### Every response is in one place -/

def numbers (groups : List (ℕ × List Entry)) : List ℕ :=
  groups.flatMap fun g => g.2.map Entry.number

def deliveredNumbers (deliveries : List Delivery) : List ℕ := deliveries.map fun d => d.entry.number

/-- Each response held so far is delivered, in flight or pending, once; what one flush delivers,
has delivered or will deliver is in order. -/
structure Conserved (log : List Delivery) (s : System) : Prop where
  once : (deliveredNumbers (log ++ s.inFlight) ++ numbers s.pending.entries).Perm
    (List.range s.held)
  begun : ∀ d ∈ log ++ s.inFlight, d.flush < s.flushes
  ordered : ∀ flush, ((log ++ s.inFlight).filter fun d => d.flush = flush).Pairwise
    fun a b => a.rank ≤ b.rank

theorem conserved_start (timeout : ℤ) (enabled : Bool) : Conserved [] (start timeout enabled) where
  once := .refl _
  begun d hd := by simp [start] at hd
  ordered _ := .nil

section Steps

variable {log : List Delivery} {s : System} (sorter : SortSlice)

theorem numbers_insert (t : Table ℕ (List Entry)) (tick : ℕ) (e : Entry) :
    (numbers (t.insert tick ((t.get tick).getD [] ++ [e])).entries).Perm
      (e.number :: numbers t.entries) := by
  cases hget : t.get tick with
  | none =>
    have hperm := Table.perm_entries_insert [e] hget
    exact hperm.flatMap_right _
  | some old =>
    have herased : (t.erase tick).get tick = none := by rw [Table.get_erase, if_pos rfl]
    have hnew := (Table.perm_entries_insert (old ++ [e]) herased).flatMap_right
      fun g => g.2.map Entry.number
    have hold := (Table.perm_entries_erase hget).flatMap_right fun g => g.2.map Entry.number
    rw [Table.insert_erase] at hnew
    refine hnew.trans (.trans ?_ (hold.symm.cons _))
    simp only [flatMap_cons, map_append, map_cons, map_nil, append_assoc,
      singleton_append]
    exact perm_middle

theorem conserved_hold (h : Conserved log s) (tick : ℕ) (agentID priority : ℤ)
    (requestID : String) (now : ℤ) :
    Conserved log (hold s tick agentID priority requestID now) where
  once := by
    have hinsert := numbers_insert s.pending tick ⟨s.held, agentID, requestID, priority, now⟩
    rw [hold, range_succ]
    refine (hinsert.append_left _).trans (perm_middle.trans ?_)
    exact (h.once.cons _).trans (perm_append_singleton _ _).symm
  begun := h.begun
  ordered := h.ordered

theorem numbers_flushEntries (flush : ℕ) (groups : List (ℕ × List Entry)) :
    (deliveredNumbers (flushEntries sorter flush groups)).Perm (numbers groups) := by
  induction groups with
  | nil => exact .refl _
  | cons g groups ih =>
    have hhead : ((sorter.sort g.2).map Entry.number).Perm (g.2.map Entry.number) :=
      (sorter.perm g.2).map _
    simpa [flushEntries, deliveredNumbers, numbers, Function.comp_def] using hhead.append ih

theorem ordered_flushEntries (flush : ℕ) {groups : List (ℕ × List Entry)}
    (hgroups : groups.Pairwise fun a b => a.1 < b.1) :
    (flushEntries sorter flush groups).Pairwise fun a b => a.rank ≤ b.rank := by
  refine pairwise_flatMap.2 ⟨fun g _ => ?_, hgroups.imp fun hlt a ha b hb => ?_⟩
  · refine pairwise_map.2 ((sorter.sorted g.2).imp fun hle => ?_)
    exact Prod.Lex.toLex_le_toLex.2 (.inr ⟨rfl, hle⟩)
  · obtain ⟨e, -, rfl⟩ := mem_map.1 ha
    obtain ⟨e', -, rfl⟩ := mem_map.1 hb
    exact Prod.Lex.toLex_le_toLex.2 (.inl hlt)

theorem conserved_beginFlush (h : Conserved log s) {groups : List (ℕ × List Entry)}
    {rest : Table ℕ (List Entry)} (hgroups : groups.Pairwise fun a b => a.1 < b.1)
    (hperm : (groups ++ rest.entries).Perm s.pending.entries) :
    Conserved log (beginFlush sorter s groups rest) where
  once := by
    have hnumbers : (numbers groups ++ numbers rest.entries).Perm (numbers s.pending.entries) := by
      simpa [numbers] using hperm.flatMap_right fun g => g.2.map Entry.number
    have hflush := numbers_flushEntries sorter s.flushes groups
    refine .trans ?_ ((hnumbers.append_left _).trans h.once)
    simp only [beginFlush, deliveredNumbers, map_append, append_assoc] at hflush ⊢
    exact ((hflush.append_right _).append_left _).append_left _
  begun d hd := by
    rw [beginFlush, ← append_assoc, mem_append] at hd
    rcases hd with hd | hd
    · exact Nat.lt_succ_of_lt (h.begun d hd)
    · obtain ⟨g, -, hd⟩ := mem_flatMap.1 hd
      obtain ⟨e, -, rfl⟩ := mem_map.1 hd
      exact Nat.lt_succ_self _
  ordered flush := by
    rw [beginFlush, ← append_assoc, filter_append]
    by_cases hflush : flush = s.flushes
    · -- Nothing of a new flush is under way before it begins.
      have hnone : (log ++ s.inFlight).filter (fun d => d.flush = flush) = [] := by
        refine filter_eq_nil_iff.2 fun d hd => ?_
        simpa [hflush] using (h.begun d hd).ne
      rw [hnone, nil_append]
      exact (ordered_flushEntries sorter s.flushes hgroups).filter _
    · have hnone :
          (flushEntries sorter s.flushes groups).filter (fun d => d.flush = flush) = [] := by
        refine filter_eq_nil_iff.2 fun d hd => ?_
        obtain ⟨g, -, hd⟩ := mem_flatMap.1 hd
        obtain ⟨e, -, rfl⟩ := mem_map.1 hd
        simpa using Ne.symm hflush
      rw [hnone, append_nil]
      exact h.ordered flush

theorem conserved_deliver (h : Conserved log s) (flush : ℕ) :
    Conserved (log ++ (deliver s flush).2) (deliver s flush).1 := by
  unfold deliver
  split
  case h_1 => simpa using h
  case h_2 d later hdrop =>
    have hsplit := s.inFlight.takeWhile_append_dropWhile (p := fun d => d.flush ≠ flush)
    have hothers : ∀ e ∈ s.inFlight.takeWhile fun d => d.flush ≠ flush, e.flush ≠ flush :=
      fun e he => by simpa using mem_takeWhile_imp he
    have hflush : d.flush = flush := by
      have hhead := head?_dropWhile_not (fun d : Delivery => d.flush ≠ flush) s.inFlight
      rw [hdrop] at hhead
      simpa using hhead
    rw [hdrop] at hsplit
    generalize (s.inFlight.takeWhile fun d => d.flush ≠ flush) = earlier at *
    have hperm : (log ++ [d] ++ (earlier ++ later)).Perm (log ++ s.inFlight) := by
      have hmiddle : (d :: (earlier ++ later)).Perm (earlier ++ d :: later) :=
        perm_middle.symm
      rw [← hsplit, append_assoc]
      exact hmiddle.append_left log
    have hfilter : ∀ f, (log ++ [d] ++ (earlier ++ later)).filter (fun e => e.flush = f) =
        (log ++ s.inFlight).filter fun e => e.flush = f := by
      intro f
      rw [← hsplit]
      by_cases hf : d.flush = f
      · have hnone : earlier.filter (fun e => e.flush = f) = [] :=
          filter_eq_nil_iff.2 fun e he => by simpa [← hf, hflush] using hothers e he
        simp [filter_append, hnone, hf]
      · simp [filter_append, hf]
    exact ⟨((hperm.map _).append_right _).trans h.once,
      fun e he => h.begun e (hperm.mem_iff.1 he), fun f => by rw [hfilter]; exact h.ordered f⟩

theorem conserved_call (log : List Delivery) (s : System) (step : Step) (h : Conserved log s) :
    Conserved (log ++ ((machine sorter).call s step).2) ((machine sorter).call s step).1 := by
  cases step with
  | hold tick agentID priority requestID now =>
    simpa [machine] using conserved_hold h tick agentID priority requestID now
  | flushExpired now =>
    have hflush : Conserved log (flushExpired sorter s now) :=
      conserved_beginFlush sorter h (s.pending.sorted.filter _) (filter_append_perm _ _)
    simpa [machine] using hflush
  | setEnabled v =>
    have henabled : Conserved log { s with enabled := v } := ⟨h.once, h.begun, h.ordered⟩
    have hset : Conserved log (setEnabled sorter s v) := by
      unfold setEnabled
      split
      · exact h
      split
      · exact henabled
      · exact conserved_beginFlush sorter henabled s.pending.sorted (by simp [Table.empty])
    simpa [machine] using hset
  | setTimeout timeout =>
    have hset : Conserved log (setTimeout s timeout) := by
      unfold setTimeout
      split
      · exact h
      · exact ⟨h.once, h.begun, h.ordered⟩
    simpa [machine] using hset
  | deliver flush => exact conserved_deliver h flush

/-! ### Switching the buffer off -/

theorem settled_call (s : System) (step : Step) (h : Settled s) (hheld : HeldWhileEnabled s step) :
    Settled ((machine sorter).call s step).1 := by
  cases step with
  | hold tick agentID priority requestID now =>
    intro hdisabled
    exact absurd (hheld.symm.trans hdisabled) (by simp)
  | flushExpired now =>
    intro hdisabled
    show s.pending.entries.filter _ = []
    rw [h hdisabled, filter_nil]
  | setEnabled v =>
    show Settled (setEnabled sorter s v)
    unfold setEnabled
    split
    · exact h
    split
    case isTrue hv =>
      intro hdisabled
      exact absurd (hv.symm.trans hdisabled) (by simp)
    case isFalse => exact fun _ => rfl
  | setTimeout timeout =>
    show Settled (setTimeout s timeout)
    unfold setTimeout
    split <;> exact h
  | deliver flush =>
    show Settled (deliver s flush).1
    unfold deliver
    split <;> exact h

theorem not_settled_hold (s : System) (step : Step) (hheld : ¬ HeldWhileEnabled s step) :
    ¬ Settled ((machine sorter).call s step).1 := by
  cases step with
  | hold tick agentID priority requestID now =>
    intro hsettled
    have hdisabled : s.enabled = false := Bool.eq_false_iff.2 hheld
    have hnil := hsettled hdisabled
    simp [machine, hold, Table.insert] at hnil
  | flushExpired | setEnabled | setTimeout | deliver => exact absurd trivial hheld

end Steps

/-- **Tick-synchronised responses.** No response is delivered twice, each flush delivers in the
order of tick, priority, agent and request, and a disabled buffer has nothing pending in any state
of the run exactly when every response was held while the buffer was enabled. -/
theorem tick_sync_law (sorter : SortSlice) (timeout : ℤ) (enabled : Bool) (steps : List Step) :
    let log := (machine sorter).log (start timeout enabled) steps
    (deliveredNumbers log).Nodup ∧
      (∀ flush, (log.filter fun d => d.flush = flush).Pairwise fun a b => a.rank ≤ b.rank) ∧
      ((∀ before, before <+: steps →
          Settled ((machine sorter).final (start timeout enabled) before)) ↔
        (machine sorter).Meets HeldWhileEnabled (start timeout enabled) steps) := by
  intro log
  have hconserved := (machine sorter).final_log (conserved_call sorter)
    (conserved_start timeout enabled) steps
  refine ⟨?_, fun flush => ?_, ?_⟩
  · have hall := hconserved.once.nodup_iff.2 nodup_range
    rw [deliveredNumbers, map_append] at hall
    exact (nodup_append.1 (nodup_append.1 hall).1).1
  · have hall := hconserved.ordered flush
    rw [filter_append] at hall
    exact (pairwise_append.1 hall).1
  · exact (machine sorter).forall_reached_iff_meets (I := Settled) (fun s h => h)
      (settled_call sorter) (fun s step _ => not_settled_hold sorter s step) (fun _ => rfl) steps

def insertionSorter : SortSlice where
  sort := List.insertionSort fun a b => a.rank ≤ b.rank
  perm := perm_insertionSort _
  sorted entries := pairwise_insertionSort _ entries

/-- The caller saw the buffer enabled, then it is switched off, then the response is held: it stays
pending and no flush is left to deliver it. -/
theorem hold_after_disable_stays_pending :
    ¬ Settled ((machine insertionSorter).final (start 2000000000 true)
      [.setEnabled false, .hold 7 1 0 "req-1" 0]) := by
  intro h
  have hnil := h (by decide)
  exact absurd (congrArg List.length hnil) (by decide)

end Sentinel.Gateway.TickSync

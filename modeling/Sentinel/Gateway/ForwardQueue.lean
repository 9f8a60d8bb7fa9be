import Mathlib.Data.Int.Order.Basic
import Mathlib.Data.List.Nodup
import Sentinel.Lib.EventLog

/-! The forward queue of the gateway (`cortex-gateway`, package `forwardqueue`): a counter of
active calls, a limit that can be changed at any time, and a queue of waiters. A step is one
critical section or one channel operation, so a list of steps is an interleaving of any number of
callers. The steps answer with the arrivals, grants, cancellations and releases they cause. -/

namespace Sentinel.Gateway.ForwardQueue
open Lib List Function

/-- Where one call of `Acquire` is. `selecting` waits for its channel or its context, `leaving`
has seen its context end and waits for the lock; both carry `granted` of the waiter. -/
inductive Stage where
  | absent
  | selecting (granted : Bool)
  | leaving (granted : Bool)
  | holding
  | failed
  | released

def Stage.grant : Stage → Stage
  | .selecting _ => .selecting true
  | .leaving _ => .leaving true
  | stage => stage

structure Manager where
  maxConcurrent : ℕ
  active : ℕ
  queue : List ℕ

/-- The manager with its callers. Calls of `Acquire` are numbered as they come. `closed` lists the
closed channels, `ready` the waiters whose channel `SetMaxConcurrent` still has to close. -/
structure System extends Manager where
  calls : ℕ
  stage : ℕ → Stage
  closed : List ℕ
  ready : List ℕ

inductive Event where
  | arrived (call : ℕ)
  | granted (call limit : ℕ)
  | cancelled (call : ℕ)
  | released (call : ℕ)
deriving DecidableEq

def atLeastOne (maxConcurrent : ℤ) : ℕ := if maxConcurrent ≤ 0 then 1 else maxConcurrent.toNat

def newManager (maxConcurrent : ℤ) : Manager := ⟨atLeastOne maxConcurrent, 0, []⟩

def start (maxConcurrent : ℤ) : System :=
  { newManager maxConcurrent with calls := 0, stage := fun _ => .absent, closed := [], ready := [] }

def acquire (s : System) : System × List Event :=
  if s.active < s.maxConcurrent ∧ s.queue = [] then
    ({ s with
        active := s.active + 1
        calls := s.calls + 1
        stage := update s.stage s.calls .holding },
      [.arrived s.calls, .granted s.calls s.maxConcurrent])
  else
    ({ s with
        queue := s.queue ++ [s.calls]
        calls := s.calls + 1
        stage := update s.stage s.calls (.selecting false) },
      [.arrived s.calls])

def receive (s : System) (call : ℕ) : System :=
  match s.stage call with
  | .selecting _ =>
    if call ∈ s.closed then { s with stage := update s.stage call .holding } else s
  | _ => s

def contextDone (s : System) (call : ℕ) : System :=
  match s.stage call with
  | .selecting granted => { s with stage := update s.stage call (.leaving granted) }
  | _ => s

def leave (s : System) (call : ℕ) : System × List Event :=
  match s.stage call with
  | .leaving true => ({ s with stage := update s.stage call .holding }, [])
  | .leaving false =>
    ({ s with queue := s.queue.erase call, stage := update s.stage call .failed },
      [.cancelled call])
  | _ => (s, [])

def release (s : System) (call : ℕ) : System × List Event :=
  match s.stage call with
  | .holding =>
    let stage := update s.stage call .released
    match s.queue with
    | next :: queue =>
      ({ s with
          queue := queue
          stage := update stage next (stage next).grant
          closed := s.closed ++ [next] },
        [.released call, .granted next s.maxConcurrent])
    | [] =>
      ({ s with active := if 0 < s.active then s.active - 1 else s.active, stage := stage },
        [.released call])
  | _ => (s, [])

def fill : List ℕ → System → System × List Event
  | [], s => (s, [])
  | next :: queue, s =>
    if s.active < s.maxConcurrent then
      let rest := fill queue
        { s with
          queue := queue
          active := s.active + 1
          stage := update s.stage next (s.stage next).grant
          ready := s.ready ++ [next] }
      (rest.1, .granted next s.maxConcurrent :: rest.2)
    else (s, [])

def setMaxConcurrent (s : System) (maxConcurrent : ℤ) : System × List Event :=
  fill s.queue { s with maxConcurrent := atLeastOne maxConcurrent }

def close (s : System) (call : ℕ) : System :=
  if call ∈ s.ready then
    { s with ready := s.ready.erase call, closed := s.closed ++ [call] }
  else s

inductive Step where
  | acquire
  | receive (call : ℕ)
  | contextDone (call : ℕ)
  | leave (call : ℕ)
  | release (call : ℕ)
  | setMaxConcurrent (maxConcurrent : ℤ)
  | close (call : ℕ)

def machine : Machine System Step (List Event) where
  call s step :=
    match step with
    | .acquire => acquire s
    | .receive call => (receive s call, [])
    | .contextDone call => (contextDone s call, [])
    | .leave call => leave s call
    | .release call => release s call
    | .setMaxConcurrent maxConcurrent => setMaxConcurrent s maxConcurrent
    | .close call => (close s call, [])

/-! ### What the events say

The abstract queue: the calls that wait, in the order they came, and the grants not yet
released. -/

structure Ledger where
  waiting : List ℕ
  outstanding : List ℕ

@[simp] def Ledger.record (l : Ledger) : Event → Ledger
  | .arrived call => { l with waiting := l.waiting ++ [call] }
  | .granted call _ => ⟨l.waiting.erase call, l.outstanding ++ [call]⟩
  | .cancelled call => { l with waiting := l.waiting.erase call }
  | .released call => { l with outstanding := l.outstanding.erase call }

def ledger (log : List Event) : Ledger := log.foldl Ledger.record ⟨[], []⟩

def InTurn (l : Ledger) : Event → Prop
  | .granted call _ => l.waiting.head? = some call
  | _ => True

def BelowLimit (l : Ledger) : Event → Prop
  | .granted _ limit => l.outstanding.length < limit
  | _ => True

def GrantedInOrder (log : List Event) : Prop := Checked Ledger.record ⟨[], []⟩ InTurn log

def GrantedBelowLimit (log : List Event) : Prop := Checked Ledger.record ⟨[], []⟩ BelowLimit log

section Log

variable {log : List Event} {call limit : ℕ}

@[simp] theorem ledger_concat (e : Event) : ledger (log ++ [e]) = (ledger log).record e :=
  foldl_concat _ _ _ _

theorem grantedInOrder_concat {e : Event} :
    GrantedInOrder (log ++ [e]) ↔ GrantedInOrder log ∧ InTurn (ledger log) e :=
  checked_concat

theorem grantedBelowLimit_concat {e : Event} :
    GrantedBelowLimit (log ++ [e]) ↔ GrantedBelowLimit log ∧ BelowLimit (ledger log) e :=
  checked_concat

end Log

/-! ### Stages and the ledger -/

def Stage.Fits (queued held signalled granted : Prop) : Stage → Prop
  | .absent | .failed => ¬ queued ∧ ¬ held ∧ ¬ signalled ∧ ¬ granted
  | .selecting false | .leaving false => queued ∧ ¬ held ∧ ¬ signalled ∧ ¬ granted
  | .selecting true => ¬ queued ∧ held ∧ signalled
  | .leaving true | .holding => ¬ queued ∧ held
  | .released => ¬ queued ∧ ¬ held

structure Tracked (log : List Event) (s : System) : Prop where
  queue_eq : s.queue = (ledger log).waiting
  fits : ∀ c, (s.stage c).Fits (c ∈ s.queue) (c ∈ (ledger log).outstanding)
    (c ∈ s.closed ++ s.ready) (∃ limit, .granted c limit ∈ log)
  absent : ∀ c, s.calls ≤ c → s.stage c = .absent
  nodup_queue : s.queue.Nodup
  nodup_outstanding : (ledger log).outstanding.Nodup
  nodup_signals : (s.closed ++ s.ready).Nodup
  inOrder : GrantedInOrder log

section Stages

variable {log : List Event} {s : System} {c : ℕ}

theorem tracked_start (n : ℤ) : Tracked [] (start n) where
  queue_eq := rfl
  fits c := by simp [start, newManager, Stage.Fits, ledger]
  absent _ _ := rfl
  nodup_queue := nodup_nil
  nodup_outstanding := nodup_nil
  nodup_signals := nodup_nil
  inOrder := checked_nil

theorem Tracked.recount (h : Tracked log s) (active limit : ℕ) :
    Tracked log { s with active := active, maxConcurrent := limit } :=
  ⟨h.queue_eq, h.fits, h.absent, h.nodup_queue, h.nodup_outstanding, h.nodup_signals, h.inOrder⟩

theorem Tracked.absent_update (h : Tracked log s) (hc : s.stage c ≠ .absent) (stage : Stage)
    (d : ℕ) (hd : s.calls ≤ d) : update s.stage c stage d = .absent := by
  have hne : d ≠ c := by
    intro heq
    exact hc (heq ▸ h.absent d hd)
  simpa [hne] using h.absent d hd

theorem Tracked.move (h : Tracked log s) {stage : Stage} (hc : s.stage c ≠ .absent)
    (hstage : ∀ {q o g r}, (s.stage c).Fits q o g r → stage.Fits q o g r) :
    Tracked log { s with stage := update s.stage c stage } :=
  { h with
    fits := fun d => by
      by_cases hd : d = c
      · subst hd
        simpa using hstage (h.fits d)
      · simpa [hd] using h.fits d
    absent := h.absent_update hc stage }

theorem Tracked.granted (h : Tracked log s) {next : ℕ} {queue : List ℕ}
    (hqueue : s.queue = next :: queue) (limit : ℕ) (closed ready : List ℕ)
    (hsignals : (closed ++ ready).Perm (next :: (s.closed ++ s.ready))) :
    Tracked (log ++ [.granted next limit])
      { s with
        queue := queue
        stage := update s.stage next (s.stage next).grant
        closed := closed
        ready := ready } := by
  have hnodup : (next :: queue).Nodup := hqueue ▸ h.nodup_queue
  have hwaiting : (ledger log).waiting = next :: queue := h.queue_eq.symm.trans hqueue
  have hnext := h.fits next
  -- Only a call that waits without a slot is in the queue.
  have hstage : s.stage next = .selecting false ∨ s.stage next = .leaving false := by
    cases hs : s.stage next with
    | selecting granted | leaving granted =>
      cases granted <;> simp_all [Stage.Fits]
    | _ => simp_all [Stage.Fits]
  have hfree : next ∉ (ledger log).outstanding ∧ next ∉ s.closed ++ s.ready := by
    rcases hstage with hs | hs <;>
    · rw [hs] at hnext
      exact ⟨hnext.2.1, hnext.2.2.1⟩
  constructor
  · simp [hwaiting]
  · intro d
    by_cases hd : d = next
    · subst hd
      have hmem : d ∈ closed ++ ready := hsignals.mem_iff.2 mem_cons_self
      rcases hstage with hs | hs <;>
        simp [hs, Stage.grant, Stage.Fits, (nodup_cons.1 hnodup).1,
          mem_append.1 hmem]
    · have hsame : d ∈ closed ++ ready ↔ d ∈ s.closed ++ s.ready := by
        simp [hsignals.mem_iff, hd]
      have hfits := h.fits d
      rw [← hsame, hqueue] at hfits
      simpa [hd] using hfits
  · exact h.absent_update (by rcases hstage with hs | hs <;> simp [hs]) _
  · exact (nodup_cons.1 hnodup).2
  · have hcons := nodup_cons.2 ⟨hfree.1, h.nodup_outstanding⟩
    simpa using nodup_append_comm.1 hcons
  · exact hsignals.nodup_iff.2 (nodup_cons.2 ⟨hfree.2, h.nodup_signals⟩)
  · exact grantedInOrder_concat.2 ⟨h.inOrder, by simp [InTurn, hwaiting]⟩

theorem Tracked.released (h : Tracked log s) (hc : s.stage c = .holding) :
    Tracked (log ++ [.released c]) { s with stage := update s.stage c .released } where
  queue_eq := by simpa using h.queue_eq
  fits d := by
    have hfits := h.fits d
    by_cases hd : d = c
    · subst hd
      rw [hc] at hfits
      simpa [Stage.Fits, h.nodup_outstanding.not_mem_erase] using hfits.1
    · simpa [hd, mem_erase_of_ne] using hfits
  absent := h.absent_update (by simp [hc]) .released
  nodup_queue := h.nodup_queue
  nodup_outstanding := by simpa using h.nodup_outstanding.erase c
  nodup_signals := h.nodup_signals
  inOrder := grantedInOrder_concat.2 ⟨h.inOrder, trivial⟩

theorem Tracked.outstanding_of_holding (h : Tracked log s) (hc : s.stage c = .holding) :
    c ∈ (ledger log).outstanding := by
  have hfits := h.fits c
  rw [hc] at hfits
  exact hfits.2

theorem Tracked.cancelled (h : Tracked log s) (hc : s.stage c = .leaving false) :
    Tracked (log ++ [.cancelled c])
      { s with queue := s.queue.erase c, stage := update s.stage c .failed } where
  queue_eq := by simp [h.queue_eq]
  fits d := by
    have hfits := h.fits d
    by_cases hd : d = c
    · subst hd
      rw [hc] at hfits
      simpa [Stage.Fits, h.nodup_queue.not_mem_erase] using hfits.2
    · simpa [hd, mem_erase_of_ne] using hfits
  absent := h.absent_update (by simp [hc]) .failed
  nodup_queue := h.nodup_queue.erase c
  nodup_outstanding := by simpa using h.nodup_outstanding
  nodup_signals := h.nodup_signals
  inOrder := grantedInOrder_concat.2 ⟨h.inOrder, trivial⟩

theorem Tracked.absent_succ (h : Tracked log s) (stage : Stage) (d : ℕ) (hd : s.calls + 1 ≤ d) :
    update s.stage s.calls stage d = .absent := by
  have hne : d ≠ s.calls := Nat.ne_of_gt hd
  simpa [hne] using h.absent d (Nat.le_of_succ_le hd)

theorem Tracked.new_fits (h : Tracked log s) :
    Stage.absent.Fits (s.calls ∈ s.queue) (s.calls ∈ (ledger log).outstanding)
      (s.calls ∈ s.closed ++ s.ready) (∃ limit, .granted s.calls limit ∈ log) := by
  have hfits := h.fits s.calls
  rwa [h.absent s.calls (Nat.le_refl _)] at hfits

theorem Tracked.enqueued (h : Tracked log s) :
    Tracked (log ++ [.arrived s.calls])
      { s with
        queue := s.queue ++ [s.calls]
        calls := s.calls + 1
        stage := update s.stage s.calls (.selecting false) } where
  queue_eq := by simp [h.queue_eq]
  fits d := by
    by_cases hd : d = s.calls
    · subst hd
      simpa [Stage.Fits] using h.new_fits.2
    · simpa [hd] using h.fits d
  absent := h.absent_succ _
  nodup_queue := by
    have hcons := nodup_cons.2 ⟨h.new_fits.1, h.nodup_queue⟩
    simpa using nodup_append_comm.1 hcons
  nodup_outstanding := by simpa using h.nodup_outstanding
  nodup_signals := h.nodup_signals
  inOrder := grantedInOrder_concat.2 ⟨h.inOrder, trivial⟩

theorem Tracked.direct (h : Tracked log s) (hempty : s.queue = []) (limit : ℕ) :
    Tracked (log ++ [.arrived s.calls, .granted s.calls limit])
      { s with
        calls := s.calls + 1
        stage := update s.stage s.calls .holding } := by
  have hwaiting : (ledger log).waiting = [] := h.queue_eq.symm.trans hempty
  have hledger : ledger (log ++ [.arrived s.calls, .granted s.calls limit]) =
      ⟨[], (ledger log).outstanding ++ [s.calls]⟩ := by
    rw [append_cons, ledger_concat, ledger_concat]
    simp [hwaiting]
  constructor
  · rw [hledger]
    exact hempty
  · intro d
    by_cases hd : d = s.calls
    · simp [hd, hledger, hempty, Stage.Fits]
    · simpa [hd, hledger] using h.fits d
  · exact h.absent_succ _
  · exact h.nodup_queue
  · rw [hledger]
    have hcons := nodup_cons.2 ⟨h.new_fits.2.1, h.nodup_outstanding⟩
    simpa using nodup_append_comm.1 hcons
  · exact h.nodup_signals
  · rw [append_cons, grantedInOrder_concat, grantedInOrder_concat, ledger_concat]
    exact ⟨⟨h.inOrder, trivial⟩, by simp [InTurn, hwaiting]⟩

theorem Tracked.close (h : Tracked log s) (c : ℕ) : Tracked log (close s c) := by
  unfold ForwardQueue.close
  split
  case isFalse => exact h
  case isTrue hc =>
    have hperm : (s.closed ++ [c] ++ s.ready.erase c).Perm (s.closed ++ s.ready) := by
      rw [append_assoc]
      exact (perm_cons_erase hc).symm.append_left s.closed
    exact { h with
      fits := fun d => by simpa only [hperm.mem_iff] using h.fits d
      nodup_signals := hperm.nodup_iff.2 h.nodup_signals }

theorem Tracked.receive (h : Tracked log s) (c : ℕ) : Tracked log (receive s c) := by
  unfold ForwardQueue.receive
  split
  case h_2 => exact h
  case h_1 granted hc =>
    split
    case isFalse => exact h
    case isTrue hclosed =>
      have hfits := h.fits c
      -- Only the channel of a waiter that has its slot is closed.
      have hgranted : granted = true := by
        cases granted
        · rw [hc] at hfits
          exact absurd (mem_append_left _ hclosed) hfits.2.2.1
        · rfl
      subst hgranted
      refine h.move (by simp [hc]) fun hold => ?_
      rw [hc] at hold
      exact ⟨hold.1, hold.2.1⟩

theorem Tracked.contextDone (h : Tracked log s) (c : ℕ) : Tracked log (contextDone s c) := by
  unfold ForwardQueue.contextDone
  split
  case h_2 => exact h
  case h_1 granted hc =>
    refine h.move (by simp [hc]) fun hold => ?_
    rw [hc] at hold
    cases granted
    · exact hold
    · exact ⟨hold.1, hold.2.1⟩

end Stages

/-! ### The counter and the limit -/

structure Accounted (log : List Event) (s : System) : Prop extends Tracked log s where
  positive : 0 < s.maxConcurrent
  active_eq : s.active = (ledger log).outstanding.length
  full : s.queue ≠ [] → s.maxConcurrent ≤ s.active

theorem atLeastOne_pos (n : ℤ) : 0 < atLeastOne n := by
  unfold atLeastOne
  split <;> omega

theorem accounted_start (n : ℤ) : Accounted [] (start n) :=
  { tracked_start n with
    positive := atLeastOne_pos n
    active_eq := rfl
    full := fun h => absurd rfl h }

/-- A waiter is handed a slot only while the calls in progress stay within the limit. -/
def HandoverWithinLimit (s : System) : Step → Prop
  | .release call => s.stage call = .holding → s.queue ≠ [] → s.active ≤ s.maxConcurrent
  | _ => True

section Steps

variable {log : List Event} {s : System}

theorem Accounted.of_eq (h : Accounted log s) {s' : System} (ht : Tracked log s')
    (hmanager : s'.toManager = s.toManager) : Accounted log s' := by
  have hmax : s'.maxConcurrent = s.maxConcurrent := congrArg Manager.maxConcurrent hmanager
  have hactive : s'.active = s.active := congrArg Manager.active hmanager
  have hqueue : s'.queue = s.queue := congrArg Manager.queue hmanager
  exact { ht with
    positive := hmax ▸ h.positive
    active_eq := hactive.trans h.active_eq
    full := by rw [hqueue, hmax, hactive]; exact h.full }

theorem accounted_acquire (h : Accounted log s) :
    Accounted (log ++ (acquire s).2) (acquire s).1 := by
  unfold acquire
  split
  case isTrue hfree =>
    have htracked := (h.toTracked.direct hfree.2 s.maxConcurrent).recount (s.active + 1)
      s.maxConcurrent
    exact { htracked with
      positive := h.positive
      active_eq := by
        rw [append_cons, ledger_concat, ledger_concat]
        simp [h.active_eq]
      full := fun hne => absurd hfree.2 hne }
  case isFalse hbusy =>
    exact { h.toTracked.enqueued with
      positive := h.positive
      active_eq := by simpa using h.active_eq
      full := fun _ => by
        by_cases hempty : s.queue = []
        · simpa [hempty] using hbusy
        · exact h.full hempty }

theorem belowLimit_acquire (h : Accounted log s) :
    GrantedBelowLimit (log ++ (acquire s).2) ↔ GrantedBelowLimit log := by
  unfold acquire
  split
  case isTrue hfree =>
    rw [append_cons, grantedBelowLimit_concat, grantedBelowLimit_concat]
    simpa [BelowLimit, ← h.active_eq] using fun _ => hfree.1
  case isFalse => simp [grantedBelowLimit_concat, BelowLimit]

theorem accounted_leave (h : Accounted log s) (c : ℕ) :
    Accounted (log ++ (leave s c).2) (leave s c).1 := by
  unfold leave
  split
  case h_1 hc =>
    have htracked : Tracked log { s with stage := update s.stage c .holding } :=
      h.toTracked.move (by simp [hc]) fun hold => by rwa [hc] at hold
    simpa using h.of_eq htracked rfl
  case h_2 hc =>
    exact { h.toTracked.cancelled hc with
      positive := h.positive
      active_eq := by simpa using h.active_eq
      full := fun hne => h.full fun hempty => hne (by simp [hempty]) }
  case h_3 => simpa using h

theorem belowLimit_leave (c : ℕ) :
    GrantedBelowLimit (log ++ (leave s c).2) ↔ GrantedBelowLimit log := by
  unfold leave
  split <;> simp [grantedBelowLimit_concat, BelowLimit]

theorem accounted_release (h : Accounted log s) (c : ℕ) :
    Accounted (log ++ (release s c).2) (release s c).1 := by
  unfold release
  split
  case h_2 => simpa using h
  case h_1 hc =>
    have hreleased := h.toTracked.released hc
    have hmem : c ∈ (ledger log).outstanding := h.toTracked.outstanding_of_holding hc
    have hlength : (ledger log).outstanding.length =
        ((ledger log).outstanding.erase c).length + 1 := by
      rw [length_erase_of_mem hmem]
      have := length_pos_of_mem hmem
      omega
    split
    case h_1 next queue hqueue =>
      have hgranted := hreleased.granted hqueue s.maxConcurrent (s.closed ++ [next]) s.ready
        (by simp)
      have hledger : (ledger (log ++ [.released c, .granted next s.maxConcurrent])).outstanding =
          (ledger log).outstanding.erase c ++ [next] := by
        rw [append_cons, ledger_concat, ledger_concat]
        rfl
      rw [append_assoc] at hgranted
      exact { hgranted with
        positive := h.positive
        active_eq := by
          show s.active =
            (ledger (log ++ [.released c, .granted next s.maxConcurrent])).outstanding.length
          rw [hledger, length_append, length_singleton, ← hlength]
          exact h.active_eq
        full := fun _ => h.full (by simp [hqueue]) }
    case h_2 hqueue =>
      have hactive : 0 < s.active := by
        rw [h.active_eq, hlength]
        exact Nat.succ_pos _
      exact { hreleased.recount _ _ with
        positive := h.positive
        active_eq := by
          have := h.active_eq
          simp [hactive]
          omega
        full := fun hne => absurd hqueue hne }

theorem belowLimit_release (h : Accounted log s) (c : ℕ) :
    GrantedBelowLimit (log ++ (release s c).2) ↔
      GrantedBelowLimit log ∧ HandoverWithinLimit s (.release c) := by
  unfold release
  split
  case h_2 hc =>
    rw [append_nil]
    exact (and_iff_left fun hholding => absurd hholding hc).symm
  case h_1 hc =>
    have hmem : c ∈ (ledger log).outstanding := h.toTracked.outstanding_of_holding hc
    split
    case h_1 next queue hqueue =>
      have hpos := length_pos_of_mem hmem
      rw [append_cons, grantedBelowLimit_concat, grantedBelowLimit_concat]
      simp only [BelowLimit, and_true, ledger_concat, Ledger.record, length_erase_of_mem hmem,
        HandoverWithinLimit, hc, hqueue, h.active_eq, ne_eq, reduceCtorEq, not_false_eq_true,
        forall_const]
      refine and_congr_right fun _ => ?_
      omega
    case h_2 hqueue => simp [grantedBelowLimit_concat, BelowLimit, HandoverWithinLimit, hqueue]

theorem accounted_fill (queue : List ℕ) (h : Tracked log s) (hpos : 0 < s.maxConcurrent)
    (hactive : s.active = (ledger log).outstanding.length) (hqueue : s.queue = queue) :
    Accounted (log ++ (fill queue s).2) (fill queue s).1 ∧
      (GrantedBelowLimit (log ++ (fill queue s).2) ↔ GrantedBelowLimit log) := by
  induction queue generalizing log s with
  | nil =>
    refine ⟨?_, by simp [fill]⟩
    simpa [fill] using { h with
      positive := hpos
      active_eq := hactive
      full := fun hne => absurd hqueue hne : Accounted log s }
  | cons next queue ih =>
    unfold fill
    split
    case isFalse hfull =>
      refine ⟨?_, by simp⟩
      simpa using { h with
        positive := hpos
        active_eq := hactive
        full := fun _ => Nat.le_of_not_lt hfull : Accounted log s }
    case isTrue hfree =>
      have hgranted := (h.granted hqueue s.maxConcurrent s.closed (s.ready ++ [next])
        (by simpa using perm_append_singleton next (s.closed ++ s.ready))).recount
        (s.active + 1) s.maxConcurrent
      have hcount : s.active + 1 =
          (ledger (log ++ [.granted next s.maxConcurrent])).outstanding.length := by
        simp [hactive]
      have hnext := ih hgranted hpos hcount rfl
      have hbelow : GrantedBelowLimit (log ++ [.granted next s.maxConcurrent]) ↔
          GrantedBelowLimit log := by
        rw [grantedBelowLimit_concat]
        exact and_iff_left (by simpa [BelowLimit, ← hactive] using hfree)
      rw [← hbelow]
      simpa using hnext

theorem accounted_setMaxConcurrent (h : Accounted log s) (n : ℤ) :
    Accounted (log ++ (setMaxConcurrent s n).2) (setMaxConcurrent s n).1 ∧
      (GrantedBelowLimit (log ++ (setMaxConcurrent s n).2) ↔ GrantedBelowLimit log) := by
  have htracked := h.toTracked.recount s.active (atLeastOne n)
  exact accounted_fill s.queue htracked (atLeastOne_pos n) h.active_eq rfl

theorem accounted_call (log : List Event) (s : System) (step : Step) (h : Accounted log s) :
    Accounted (log ++ (machine.call s step).2) (machine.call s step).1 := by
  cases step with
  | acquire => exact accounted_acquire h
  | receive c =>
    have hmanager : (receive s c).toManager = s.toManager := by
      unfold receive
      split
      · split <;> rfl
      · rfl
    simpa [machine] using h.of_eq (h.toTracked.receive c) hmanager
  | contextDone c =>
    have hmanager : (contextDone s c).toManager = s.toManager := by
      unfold contextDone
      split <;> rfl
    simpa [machine] using h.of_eq (h.toTracked.contextDone c) hmanager
  | leave c => exact accounted_leave h c
  | release c => exact accounted_release h c
  | setMaxConcurrent n => exact (accounted_setMaxConcurrent h n).1
  | close c =>
    have hmanager : (close s c).toManager = s.toManager := by
      unfold close
      split <;> rfl
    simpa [machine] using h.of_eq (h.toTracked.close c) hmanager

theorem belowLimit_call (log : List Event) (s : System) (step : Step) (h : Accounted log s) :
    GrantedBelowLimit (log ++ (machine.call s step).2) ↔
      GrantedBelowLimit log ∧ HandoverWithinLimit s step := by
  cases step with
  | acquire => exact (belowLimit_acquire h).trans (and_iff_left trivial).symm
  | leave c => exact (belowLimit_leave c).trans (and_iff_left trivial).symm
  | release c => exact belowLimit_release h c
  | setMaxConcurrent n =>
    exact (accounted_setMaxConcurrent h n).2.trans (and_iff_left trivial).symm
  | receive c | contextDone c | close c => simp [machine, HandoverWithinLimit]

end Steps

/-- No slot is lost. A call that was granted one holds it or has released it; one that has not
returned yet returns with it, whether its context ends or its channel is received from; and while
calls wait, the limit is reached. -/
structure SlotsKept (log : List Event) (s : System) : Prop where
  granted : ∀ c limit, .granted c limit ∈ log →
    c ∈ (ledger log).outstanding ∨ s.stage c = .released
  cancelled : ∀ c ∈ (ledger log).outstanding, s.stage c ≠ .holding →
    (leave (contextDone s c) c).1.stage c = .holding
  received : ∀ c, s.stage c = .selecting true → (receive (close s c) c).stage c = .holding
  full : s.queue ≠ [] → s.maxConcurrent ≤ s.active

theorem Accounted.slotsKept {log : List Event} {s : System} (h : Accounted log s) :
    SlotsKept log s where
  granted c limit hmem := by
    have hfits := h.fits c
    have hgranted : ∃ limit, .granted c limit ∈ log := ⟨limit, hmem⟩
    cases hs : s.stage c with
    | selecting granted | leaving granted =>
      cases granted <;> simp_all [Stage.Fits]
    | _ => simp_all [Stage.Fits]
  cancelled c hmem hne := by
    have hfits := h.fits c
    cases hs : s.stage c with
    | selecting granted | leaving granted =>
      cases granted <;> simp_all [Stage.Fits, contextDone, leave]
    | _ => simp_all [Stage.Fits]
  received c hc := by
    have hfits := h.fits c
    rw [hc] at hfits
    rcases mem_append.1 hfits.2.2 with hclosed | hready
    · have hnot : c ∉ s.ready := fun hready =>
        disjoint_of_nodup_append h.nodup_signals hclosed hready
      simp [close, hnot, receive, hc, hclosed]
    · simp [close, hready, receive, hc]
  full := h.full

theorem forward_queue_law (n : ℤ) (steps : List Step) :
    let s := machine.final (start n) steps
    let log := machine.log (start n) steps
    (s.active = (ledger log).outstanding.length ∧ s.queue = (ledger log).waiting) ∧
      GrantedInOrder log ∧ SlotsKept log s ∧
      (GrantedBelowLimit log ↔ machine.Meets HandoverWithinLimit (start n) steps) := by
  intro s log
  have hreached : Accounted log s := machine.final_log accounted_call (accounted_start n) steps
  refine ⟨⟨hreached.active_eq, hreached.queue_eq⟩, hreached.inOrder, hreached.slotsKept, ?_⟩
  exact machine.log_iff_meets accounted_call belowLimit_call (accounted_start n) checked_nil steps

/-- The limit is lowered to one while two calls are active and a third waits: the first release
hands its slot on although the other call alone reaches the limit. -/
theorem handover_above_lowered_limit :
    ¬ GrantedBelowLimit (machine.log (start 2)
      [.acquire, .acquire, .acquire, .setMaxConcurrent 1, .release 0]) := by
  intro h
  have hlast : BelowLimit _ (.granted 2 1) := h
    [.arrived 0, .granted 0 2, .arrived 1, .granted 1 2, .arrived 2, .released 0] _ (by decide)
  exact absurd hlast (by simp [BelowLimit])

end Sentinel.Gateway.ForwardQueue

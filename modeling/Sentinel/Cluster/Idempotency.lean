import Mathlib.Data.Prod.Lex
import Sentinel.Cluster.Fencing
import Sentinel.Lib.Machine

/-! The cache that answers repeated control requests (`sentinel-cluster-control`, module
`idempotency`). Many tasks call `get_or_compute`; one at a time holds the lock of the table, and
the others go on meanwhile with the computations they run outside of it. A turn is one access to
what the tasks share, and a run is any sequence of turns. -/

namespace Sentinel.Cluster.Idempotency
open Lib List Table

structure IdempotencyScope where
  peerNode : NodeId
  method : String
  idempotencyKey : String

instance : LinearOrder IdempotencyScope :=
  LinearOrder.lift' (fun s => toLex (s.peerNode.uuid.toNat, toLex (s.method, s.idempotencyKey)))
    (by
      rintro ⟨⟨n⟩, m, k⟩ ⟨⟨n'⟩, m', k'⟩ h
      simpa [BitVec.toNat_inj] using h)

abbrev RequestDigest := BitVec 256

inductive IdempotencyOutcome (R : Type) where
  | computed (value : R)
  | cached (value : R)
  | digestConflict
  | capacityExhausted
deriving DecidableEq

namespace IdempotencyOutcome

variable {R : Type}

def value? : IdempotencyOutcome R → Option R
  | computed r | cached r => some r
  | digestConflict | capacityExhausted => none

theorem value?_ite (existed : Bool) (value : R) :
    (if existed then cached value else computed value).value? = some value := by
  split_ifs <;> rfl

end IdempotencyOutcome

/-- An entry shares its response with the calls that wait for it; `response` is the number of the
shared cell. -/
structure CacheEntry where
  digest : RequestDigest
  insertedAt : ℕ
  response : ℕ

/-- A cell that is written once. While a task runs the initializer the others wait; an initializer
that panics leaves the cell as it was. -/
inductive OnceLock (R : Type) where
  | unset
  | initializing (task : ℕ)
  | set (value : R)

structure Call where
  scope : IdempotencyScope
  digest : RequestDigest
deriving DecidableEq

structure Cell (R : Type) where
  call : Call
  response : OnceLock R

/-- Where the task that holds the lock is: in `retain`, or in the search for the oldest completed
entry. It has still to look at the entries `todo`, in any order. -/
inductive Section where
  | retaining (todo : List IdempotencyScope)
  | findingOldest (todo : List IdempotencyScope) (oldest : Option (IdempotencyScope × ℕ))

structure Locked where
  task : ℕ
  call : Call
  now : ℕ
  place : Section

structure Pending where
  call : Call
  cell : ℕ
  existed : Bool
  computing : Bool

inductive Happened (R : Type) where
  | started (call : Call) (cell : ℕ)
  | completed (call : Call) (cell : ℕ) (value : R)
  | failed (call : Call) (cell : ℕ)
  | answered (task : ℕ) (call : Call) (outcome : IdempotencyOutcome R)
deriving DecidableEq

structure IdempotencyCache (R : Type) where
  inner : Table IdempotencyScope CacheEntry
  cells : List (Cell R)
  lock : Option Locked
  pending : Table ℕ Pending
  history : List (Happened R)

variable {R : Type}

namespace IdempotencyCache

def new : IdempotencyCache R := ⟨.empty, [], none, .empty, []⟩

def responseAt (cells : List (Cell R)) (c : ℕ) : OnceLock R :=
  (cells[c]?.map (·.response)).getD .unset

def isSet (cells : List (Cell R)) (e : CacheEntry) : Bool :=
  match responseAt cells e.response with
  | .set _ => true
  | _ => false

def callAt (cells : List (Cell R)) (c : ℕ) : Option Call := cells[c]?.map (·.call)

def setResponse (cells : List (Cell R)) (c : ℕ) (response : OnceLock R) : List (Cell R) :=
  cells.modify c fun cell => { cell with response }

variable (s : IdempotencyCache R)

/-! ### Under the lock -/

def acquire (task : ℕ) (call : Call) (now : ℕ) : IdempotencyCache R :=
  if s.lock.isNone ∧ (s.pending.get task).isNone then
    { s with lock := some ⟨task, call, now, .retaining (s.inner.entries.map Prod.fst)⟩ }
  else s

def retains (ttl now : ℕ) (e : CacheEntry) : Bool :=
  !isSet s.cells e || now - e.insertedAt < ttl

def older (oldest : Option (IdempotencyScope × ℕ)) (scope : IdempotencyScope) :
    Option (IdempotencyScope × ℕ) :=
  match s.inner.get scope with
  | some e =>
    if isSet s.cells e ∧ oldest.all (e.insertedAt < ·.2) then some (scope, e.insertedAt)
    else oldest
  | none => oldest

def lookAt (ttl : ℕ) (scope : IdempotencyScope) (l : Locked) : IdempotencyCache R :=
  match l.place with
  | .retaining todo =>
    if scope ∈ todo then
      { s with
        inner := if (s.inner.get scope).all (s.retains ttl l.now) then s.inner
          else s.inner.erase scope
        lock := some { l with place := .retaining (todo.erase scope) } }
    else s
  | .findingOldest todo oldest =>
    if scope ∈ todo then
      { s with lock := some { l with
        place := .findingOldest (todo.erase scope) (s.older oldest scope) } }
    else s

def refuse (l : Locked) (outcome : IdempotencyOutcome R) : IdempotencyCache R :=
  { s with lock := none, history := .answered l.task l.call outcome :: s.history }

def insertEntry (l : Locked) : IdempotencyCache R :=
  { s with
    inner := s.inner.insert l.call.scope ⟨l.call.digest, l.now, s.cells.length⟩
    cells := s.cells ++ [⟨l.call, .unset⟩]
    lock := none
    pending := s.pending.insert l.task ⟨l.call, s.cells.length, false, false⟩ }

def lookUp (capacity : ℕ) (l : Locked) : IdempotencyCache R :=
  match s.inner.get l.call.scope with
  | some e =>
    if e.digest ≠ l.call.digest then s.refuse l .digestConflict
    else
      { s with lock := none, pending := s.pending.insert l.task ⟨l.call, e.response, true, false⟩ }
  | none =>
    if s.inner.entries.length ≥ capacity then
      { s with lock := some { l with
        place := .findingOldest (s.inner.entries.map Prod.fst) none } }
    else s.insertEntry l

def makeRoom (l : Locked) : Option (IdempotencyScope × ℕ) → IdempotencyCache R
  | some (key, _) => { s with inner := s.inner.erase key }.insertEntry l
  | none => s.refuse l .capacityExhausted

def proceed (capacity : ℕ) (l : Locked) : IdempotencyCache R :=
  match l.place with
  | .retaining [] => s.lookUp capacity l
  | .findingOldest [] oldest => s.makeRoom l oldest
  | _ => s

/-! ### Outside of the lock -/

def answer (task : ℕ) (p : Pending) (value : R) : IdempotencyCache R :=
  { s with
    pending := s.pending.erase task
    history := .answered task p.call (if p.existed then .cached value else .computed value) ::
      s.history }

def getOrInit (task : ℕ) (p : Pending) : IdempotencyCache R :=
  if p.computing then s
  else
    match responseAt s.cells p.cell with
    | .set value => s.answer task p value
    | .initializing _ => s
    | .unset =>
      { s with
        cells := setResponse s.cells p.cell (.initializing task)
        pending := s.pending.insert task { p with computing := true }
        history := .started p.call p.cell :: s.history }

def finish (task : ℕ) (value : R) (p : Pending) : IdempotencyCache R :=
  if p.computing then
    { s with
      cells := setResponse s.cells p.cell (.set value)
      history := .completed p.call p.cell value :: s.history }.answer task p value
  else s

def fail (task : ℕ) (p : Pending) : IdempotencyCache R :=
  if p.computing then
    { s with
      cells := setResponse s.cells p.cell .unset
      pending := s.pending.erase task
      history := .failed p.call p.cell :: s.history }
  else s

end IdempotencyCache

open IdempotencyCache

inductive Turn (R : Type) where
  | acquire (task : ℕ) (call : Call) (now : ℕ)
  | lookAt (scope : IdempotencyScope)
  | proceed
  | getOrInit (task : ℕ)
  | finish (task : ℕ) (value : R)
  | fail (task : ℕ)

def step (ttl capacity : ℕ) (s : IdempotencyCache R) : Turn R → IdempotencyCache R
  | .acquire task call now => s.acquire task call now
  | .lookAt scope => s.lock.elim s (s.lookAt ttl scope)
  | .proceed => s.lock.elim s (s.proceed capacity)
  | .getOrInit task => (s.pending.get task).elim s (s.getOrInit task)
  | .finish task value => (s.pending.get task).elim s (s.finish task value)
  | .fail task => (s.pending.get task).elim s (s.fail task)

def machine (ttl capacity : ℕ) : Machine (IdempotencyCache R) (Turn R) Unit :=
  ⟨fun s t => (step ttl capacity s t, ())⟩

def run (ttl capacity : ℕ) (turns : List (Turn R)) : IdempotencyCache R :=
  (machine ttl capacity).final .new turns

/-! ### The cells -/

section Cells

variable {cells : List (Cell R)} {c d : ℕ} {x : OnceLock R}

@[simp] theorem callAt_setResponse : callAt (setResponse cells c x) d = callAt cells d := by
  simp only [callAt, setResponse, getElem?_modify]
  cases cells[d]? with
  | none => rfl
  | some cell => split_ifs <;> rfl

theorem responseAt_setResponse_of_ne (h : d ≠ c) :
    responseAt (setResponse cells c x) d = responseAt cells d := by
  simp [responseAt, setResponse, h.symm]

theorem responseAt_setResponse_self {call : Call} (h : callAt cells c = some call) :
    responseAt (setResponse cells c x) c = x := by
  obtain ⟨cell, hcell, _⟩ := Option.map_eq_some_iff.mp h
  simp [responseAt, setResponse, hcell]

theorem responseAt_append (call : Call) :
    responseAt (cells ++ [⟨call, .unset⟩]) d = responseAt cells d := by
  rcases lt_trichotomy d cells.length with h | rfl | h
  · simp [responseAt, getElem?_append_left h]
  · simp [responseAt]
  · have hnone : (cells ++ [(⟨call, .unset⟩ : Cell R)])[d]? = none := by simp; omega
    have hnone' : cells[d]? = none := by simp; omega
    rw [responseAt, responseAt, hnone, hnone']

theorem callAt_append {call : Call} :
    callAt (cells ++ [⟨call, .unset⟩]) d = if d = cells.length then some call
      else callAt cells d := by
  split_ifs with hd
  · simp [callAt, hd]
  · rcases Nat.lt_or_gt_of_ne hd with h | h
    · simp [callAt, getElem?_append_left h]
    · have hnone : (cells ++ [(⟨call, .unset⟩ : Cell R)])[d]? = none := by simp; omega
      have hnone' : cells[d]? = none := by simp; omega
      rw [callAt, callAt, hnone, hnone']

theorem isSet_iff {e : CacheEntry} :
    isSet cells e = true ↔ ∃ r, responseAt cells e.response = .set r := by
  unfold isSet
  cases responseAt cells e.response <;> simp

theorem isSet_setResponse {e : CacheEntry} (hc : ∀ r, responseAt cells c ≠ .set r)
    (he : isSet cells e = true) : isSet (setResponse cells c x) e = true := by
  obtain ⟨r, hr⟩ := isSet_iff.mp he
  have hne : e.response ≠ c := fun heq => hc r (heq ▸ hr)
  exact isSet_iff.mpr ⟨r, (responseAt_setResponse_of_ne hne).trans hr⟩

end Cells

/-! ### The table and its cells -/

structure Backed (inner : Table IdempotencyScope CacheEntry) (cells : List (Cell R)) : Prop where
  owned : ∀ {scope e}, inner.get scope = some e →
    callAt cells e.response = some ⟨scope, e.digest⟩
  retained : ∀ {c call}, callAt cells c = some call → (∀ r, responseAt cells c ≠ .set r) →
    ∃ e, inner.get call.scope = some e ∧ e.response = c

namespace Backed

variable {inner : Table IdempotencyScope CacheEntry} {cells : List (Cell R)}

theorem digest_eq (h : Backed inner cells) {call : Call} {e : CacheEntry}
    (he : inner.get call.scope = some e) (hcall : callAt cells e.response = some call) :
    e.digest = call.digest := by
  have hown := (h.owned he).symm.trans hcall
  exact congrArg Call.digest (Option.some.inj hown)

theorem erase (h : Backed inner cells) {key : IdempotencyScope}
    (hset : ∀ e, inner.get key = some e → isSet cells e = true) :
    Backed (inner.erase key) cells where
  owned := by
    intro scope e he
    exact h.owned (get_of_erase he)
  retained := by
    intro c call hcall hpending
    obtain ⟨e, he, rfl⟩ := h.retained hcall hpending
    have hne : call.scope ≠ key := by
      rintro rfl
      obtain ⟨r, hr⟩ := isSet_iff.mp (hset e he)
      exact hpending r hr
    exact ⟨e, by rw [get_erase, if_neg hne, he], rfl⟩

theorem insert (h : Backed inner cells) {call : Call} (hnew : inner.get call.scope = none)
    (now : ℕ) :
    Backed (inner.insert call.scope ⟨call.digest, now, cells.length⟩)
      (cells ++ [⟨call, .unset⟩]) where
  owned := by
    intro scope e he
    rw [get_insert] at he
    rw [callAt_append]
    split_ifs at he with hscope
    · obtain rfl := Option.some.inj he
      simp [hscope]
    · have hown := h.owned he
      have hne : e.response ≠ cells.length := fun heq => by simp [heq, callAt] at hown
      rw [if_neg hne, hown]
  retained := by
    intro c owner howner hpending
    rw [callAt_append] at howner
    simp only [responseAt_append] at hpending
    split_ifs at howner with hc
    · obtain rfl := Option.some.inj howner
      exact ⟨_, by rw [get_insert, if_pos rfl], hc.symm⟩
    · obtain ⟨e, he, hresponse⟩ := h.retained howner hpending
      have hne : owner.scope ≠ call.scope := by
        intro heq
        rw [heq, hnew] at he
        cases he
      exact ⟨e, by rw [get_insert, if_neg hne, he], hresponse⟩

theorem setResponse (h : Backed inner cells) {c : ℕ} (hc : ∀ r, responseAt cells c ≠ .set r)
    (x : OnceLock R) : Backed inner (setResponse cells c x) where
  owned := by
    intro scope e he
    rw [callAt_setResponse]
    exact h.owned he
  retained := by
    intro d call hcall hpending
    rw [callAt_setResponse] at hcall
    apply h.retained hcall
    intro r hr
    have hne : d ≠ c := by
      rintro rfl
      exact hc r hr
    exact hpending r ((responseAt_setResponse_of_ne hne).trans hr)

end Backed

variable {inner : Table IdempotencyScope CacheEntry} {scope : IdempotencyScope}

theorem get_erase_of_inFlight {cells : List (Cell R)} {key : IdempotencyScope} {e : CacheEntry}
    (hset : ∀ e, inner.get key = some e → isSet cells e = true) (he : inner.get scope = some e)
    (hflight : isSet cells e = false) : (inner.erase key).get scope = some e := by
  have hne : scope ≠ key := by
    rintro rfl
    rw [hset e he] at hflight
    cases hflight
  rw [get_erase, if_neg hne, he]

theorem length_insert (e : CacheEntry) (h : inner.get scope = none) :
    (inner.insert scope e).entries.length = inner.entries.length + 1 :=
  (perm_entries_insert e h).length_eq

theorem length_erase_lt {e : CacheEntry} (h : inner.get scope = some e) :
    (inner.erase scope).entries.length < inner.entries.length := by
  apply length_filter_lt_length_iff_exists.mpr
  exact ⟨_, get_eq_some_iff.mp h, by simp⟩

/-! ### The history -/

namespace Happened

def starts (c : ℕ) : Happened R → Bool
  | started _ d => d = c
  | _ => false

def completes (c : ℕ) : Happened R → Bool
  | completed _ d _ => d = c
  | _ => false

def fails (c : ℕ) : Happened R → Bool
  | failed _ d => d = c
  | _ => false

end Happened

def OnceLock.runs : OnceLock R → ℕ
  | .unset => 0
  | .initializing _ | .set _ => 1

def OnceLock.completions : OnceLock R → ℕ
  | .unset | .initializing _ => 0
  | .set _ => 1

/-- What a call does to its cell, with what is recorded of it. -/
inductive Moves (call : Call) (c : ℕ) (old : OnceLock R) : OnceLock R → Happened R → Prop
  | start (task : ℕ) (h : old = .unset) : Moves call c old (.initializing task) (.started call c)
  | fail {task : ℕ} (h : old = .initializing task) : Moves call c old .unset (.failed call c)
  | complete {task : ℕ} (h : old = .initializing task) (r : R) :
    Moves call c old (.set r) (.completed call c r)

structure Recorded (cells : List (Cell R)) (history : List (Happened R)) : Prop where
  runs : ∀ c, history.countP (Happened.starts c) =
    history.countP (Happened.fails c) + (responseAt cells c).runs
  completions : ∀ c, history.countP (Happened.completes c) = (responseAt cells c).completions
  stored : ∀ {c call r}, callAt cells c = some call → responseAt cells c = .set r →
    .completed call c r ∈ history
  answered : ∀ {task call outcome r}, .answered task call outcome ∈ history →
    outcome.value? = some r → ∃ c, .completed call c r ∈ history

namespace Recorded

variable {cells : List (Cell R)} {history : List (Happened R)}

theorem append (h : Recorded cells history) (call : Call) :
    Recorded (cells ++ [⟨call, .unset⟩]) history where
  runs c := by rw [responseAt_append]; exact h.runs c
  completions c := by rw [responseAt_append]; exact h.completions c
  stored := by
    intro c owner r howner hr
    rw [responseAt_append] at hr
    rw [callAt_append] at howner
    split_ifs at howner with hc
    · simp [hc, responseAt] at hr
    · exact h.stored howner hr
  answered := h.answered

theorem answer (h : Recorded cells history) {task : ℕ} {call : Call}
    {outcome : IdempotencyOutcome R}
    (hvalue : ∀ r, outcome.value? = some r → ∃ c, .completed call c r ∈ history) :
    Recorded cells (.answered task call outcome :: history) where
  runs c := by simpa [countP_cons, Happened.starts, Happened.fails] using h.runs c
  completions c := by simpa [countP_cons, Happened.completes] using h.completions c
  stored hcall hr := mem_cons_of_mem _ (h.stored hcall hr)
  answered := by
    intro task' call' outcome' r hmem hr
    rcases mem_cons.mp hmem with heq | hmem
    · obtain ⟨rfl, rfl, rfl⟩ : task' = task ∧ call' = call ∧ outcome' = outcome := by
        simpa using heq
      obtain ⟨c, hc⟩ := hvalue r hr
      exact ⟨c, mem_cons_of_mem _ hc⟩
    · obtain ⟨c, hc⟩ := h.answered hmem hr
      exact ⟨c, mem_cons_of_mem _ hc⟩

theorem setResponse (h : Recorded cells history) {c : ℕ} {call : Call}
    (hcall : callAt cells c = some call) {x : OnceLock R} {a : Happened R}
    (hmove : Moves call c (responseAt cells c) x a) :
    Recorded (IdempotencyCache.setResponse cells c x) (a :: history) where
  runs d := by
    have hold := h.runs d
    rcases eq_or_ne d c with rfl | hd
    · rw [responseAt_setResponse_self hcall]
      cases hmove <;> simp_all [OnceLock.runs, Happened.starts, Happened.fails]
    · rw [responseAt_setResponse_of_ne hd]
      cases hmove <;> simpa [Happened.starts, Happened.fails, hd.symm] using hold
  completions d := by
    have hold := h.completions d
    rcases eq_or_ne d c with rfl | hd
    · rw [responseAt_setResponse_self hcall]
      cases hmove <;> simp_all [OnceLock.completions, Happened.completes]
    · rw [responseAt_setResponse_of_ne hd]
      cases hmove <;> simpa [Happened.completes, hd.symm] using hold
  stored := by
    intro d owner r howner hr
    rw [callAt_setResponse] at howner
    rcases eq_or_ne d c with rfl | hd
    · rw [responseAt_setResponse_self hcall] at hr
      obtain rfl : owner = call := Option.some.inj (howner.symm.trans hcall)
      cases hmove <;> cases hr
      exact mem_cons_self
    · rw [responseAt_setResponse_of_ne hd] at hr
      exact mem_cons_of_mem _ (h.stored howner hr)
  answered := by
    intro task call outcome r hmem hr
    rcases mem_cons.mp hmem with heq | hmem
    · cases hmove <;> cases heq
    · obtain ⟨d, hd⟩ := h.answered hmem hr
      exact ⟨d, mem_cons_of_mem _ hd⟩

end Recorded

/-! ### The invariant -/

structure Consistent (capacity : ℕ) (s : IdempotencyCache R) : Prop where
  size : s.inner.entries.length ≤ capacity
  backed : Backed s.inner s.cells
  recorded : Recorded s.cells s.history
  calls : ∀ {task p}, s.pending.get task = some p → callAt s.cells p.cell = some p.call ∧
    (p.computing = true → responseAt s.cells p.cell = .initializing task)
  /-- The search goes on only when there is no entry for the call, and what it has found is
  complete. -/
  search : ∀ {l todo oldest}, s.lock = some l → l.place = .findingOldest todo oldest →
    s.inner.get l.call.scope = none ∧
      ∀ key time, oldest = some (key, time) → ∃ e, s.inner.get key = some e ∧ isSet s.cells e

namespace Consistent

variable {ttl capacity : ℕ} {s : IdempotencyCache R}

theorem new : Consistent capacity (IdempotencyCache.new : IdempotencyCache R) where
  size := Nat.zero_le _
  backed := ⟨by simp [IdempotencyCache.new], by simp [IdempotencyCache.new, callAt]⟩
  recorded := by
    constructor <;>
      simp [IdempotencyCache.new, callAt, responseAt, OnceLock.runs, OnceLock.completions]
  calls := by simp [IdempotencyCache.new]
  search := by simp [IdempotencyCache.new]

/-- What a turn keeps: the invariant, and every entry in flight. If it starts a computation, then
of a cell that is not set. -/
structure Keeps (capacity : ℕ) (s s' : IdempotencyCache R) : Prop where
  consistent : Consistent capacity s'
  inFlight : ∀ {scope e}, s.inner.get scope = some e → isSet s.cells e = false →
    s'.inner.get scope = some e
  started : ∀ {call c}, s'.history = .started call c :: s.history →
    callAt s.cells c = some call ∧ responseAt s.cells c = .unset

theorem keeps_of_eq {s' : IdempotencyCache R} (h : Consistent capacity s')
    (hinner : s'.inner = s.inner) (hhistory : s'.history = s.history) : Keeps capacity s s' where
  consistent := h
  inFlight he _ := hinner ▸ he
  started hs := absurd (hhistory.symm.trans hs) (cons_ne_self _ _).symm

theorem keeps_self (h : Consistent capacity s) : Keeps capacity s s := keeps_of_eq h rfl rfl

theorem keeps_elim {α : Type} {o : Option α} {f : α → IdempotencyCache R}
    (h : Consistent capacity s) (hf : ∀ a, o = some a → Keeps capacity s (f a)) :
    Keeps capacity s (o.elim s f) := by
  cases o with
  | none => exact keeps_self h
  | some a => exact hf a rfl

theorem acquire (h : Consistent capacity s) (task : ℕ) (call : Call) (now : ℕ) :
    Keeps capacity s (s.acquire task call now) := by
  unfold IdempotencyCache.acquire
  split_ifs
  · refine keeps_of_eq { h with search := ?_ } rfl rfl
    rintro l todo oldest ⟨⟩ ⟨⟩
  · exact keeps_self h

theorem refuse (h : Consistent capacity s) (l : Locked) {outcome : IdempotencyOutcome R}
    (hvalue : outcome.value? = none) : Keeps capacity s (s.refuse l outcome) where
  consistent :=
    { h with
      recorded := h.recorded.answer (by simp [hvalue])
      search := by rintro l todo oldest ⟨⟩ }
  inFlight he _ := he
  started hs := by cases hs

variable {l : Locked} {task : ℕ} {p : Pending} {todo : List IdempotencyScope}
  {oldest : Option (IdempotencyScope × ℕ)}

theorem older_complete (h : Consistent capacity s) (hl : s.lock = some l)
    (hplace : l.place = .findingOldest todo oldest) (scope key : IdempotencyScope) (time : ℕ)
    (hkey : s.older oldest scope = some (key, time)) :
    ∃ e, s.inner.get key = some e ∧ isSet s.cells e := by
  unfold IdempotencyCache.older at hkey
  cases he : s.inner.get scope with
  | none =>
    rw [he] at hkey
    exact (h.search hl hplace).2 key time hkey
  | some e =>
    simp only [he] at hkey
    split_ifs at hkey with hset
    · obtain ⟨rfl, _⟩ : scope = key ∧ e.insertedAt = time := by simpa using hkey
      exact ⟨e, he, hset.1⟩
    · exact (h.search hl hplace).2 key time hkey

theorem lookAt (h : Consistent capacity s) (hl : s.lock = some l) (key : IdempotencyScope) :
    Keeps capacity s (s.lookAt ttl key l) := by
  unfold IdempotencyCache.lookAt
  cases hplace : l.place with
  | retaining todo =>
    dsimp only
    split_ifs with hmem hkeep
    · exact keeps_of_eq { h with search := by rintro l todo oldest ⟨⟩ ⟨⟩ } rfl rfl
    · -- What is not retained has a response.
      have hset : ∀ e, s.inner.get key = some e → isSet s.cells e = true := by
        intro e he
        by_contra hnot
        simp [he, IdempotencyCache.retains, hnot] at hkeep
      refine ⟨?_, ?_, fun hs => absurd hs (cons_ne_self _ _).symm⟩
      · exact
          { h with
            size := (length_filter_le _ _).trans h.size
            backed := h.backed.erase hset
            search := by rintro l todo oldest ⟨⟩ ⟨⟩ }
      · exact get_erase_of_inFlight hset
    · exact keeps_self h
  | findingOldest todo oldest =>
    dsimp only
    split_ifs with hmem
    · refine keeps_of_eq { h with search := ?_ } rfl rfl
      rintro l todo' oldest' ⟨⟩ ⟨⟩
      exact ⟨(h.search hl hplace).1, h.older_complete hl hplace key⟩
    · exact keeps_self h

theorem insertEntry (h : Consistent capacity s) (hnew : s.inner.get l.call.scope = none)
    (hroom : s.inner.entries.length < capacity) : Keeps capacity s (s.insertEntry l) := by
  refine ⟨?_, ?_, fun hs => absurd hs (cons_ne_self _ _).symm⟩
  · refine
      { size := (length_insert _ hnew).trans_le hroom
        backed := h.backed.insert hnew l.now
        recorded := h.recorded.append l.call
        calls := ?_
        search := by rintro l todo oldest ⟨⟩ }
    intro task p hp
    simp only [IdempotencyCache.insertEntry, get_insert] at hp ⊢
    rw [callAt_append, responseAt_append]
    split_ifs at hp with htask
    · obtain rfl := Option.some.inj hp
      simp
    · obtain ⟨hcall, hcomputing⟩ := h.calls hp
      have hne : p.cell ≠ s.cells.length := fun heq => by simp [heq, callAt] at hcall
      rw [if_neg hne]
      exact ⟨hcall, hcomputing⟩
  · intro scope e he _
    have hne : scope ≠ l.call.scope := fun heq => by simp [← heq, he] at hnew
    simp only [IdempotencyCache.insertEntry, get_insert, if_neg hne, he]

theorem lookUp (h : Consistent capacity s) (l : Locked) :
    Keeps capacity s (s.lookUp capacity l) := by
  unfold IdempotencyCache.lookUp
  cases he : s.inner.get l.call.scope with
  | none =>
    dsimp only
    split_ifs with hfull
    · refine keeps_of_eq { h with search := ?_ } rfl rfl
      rintro l' todo oldest ⟨⟩ ⟨⟩
      exact ⟨he, by simp⟩
    · exact h.insertEntry he (Nat.lt_of_not_ge hfull)
  | some e =>
    dsimp only
    split_ifs with hdigest
    · exact h.refuse l rfl
    · refine keeps_of_eq { h with calls := ?_, search := by rintro l todo oldest ⟨⟩ } rfl rfl
      intro task p hp
      rcases get_of_insert hp with ⟨htask, rfl⟩ | hp
      · have hown := h.backed.owned he
        rw [not_not.mp hdigest] at hown
        exact ⟨hown, by simp⟩
      · exact h.calls hp

theorem makeRoom (h : Consistent capacity s) (hl : s.lock = some l)
    (hplace : l.place = .findingOldest todo oldest) : Keeps capacity s (s.makeRoom l oldest) := by
  obtain ⟨hnew, hcomplete⟩ := h.search hl hplace
  cases oldest with
  | none => exact h.refuse l rfl
  | some found =>
    obtain ⟨e, he, hset⟩ := hcomplete found.1 found.2 rfl
    have hset' : ∀ e', s.inner.get found.1 = some e' → isSet s.cells e' = true := by
      intro e' he'
      rw [he] at he'
      exact Option.some.inj he' ▸ hset
    have hgone : (s.inner.erase found.1).get l.call.scope = none := by
      rw [get_erase, hnew, ite_self]
    have hroom := (length_erase_lt he).trans_le h.size
    -- The search ends here, so that it does not matter that its find is gone.
    have herased : Consistent capacity { s with inner := s.inner.erase found.1, lock := none } :=
      { h with
        size := hroom.le
        backed := h.backed.erase hset'
        search := by rintro l todo oldest ⟨⟩ }
    have hinsert := herased.insertEntry hgone hroom
    exact ⟨hinsert.consistent,
      fun he hflight => hinsert.inFlight (get_erase_of_inFlight hset' he hflight) hflight,
      hinsert.started⟩

theorem proceed (h : Consistent capacity s) (hl : s.lock = some l) :
    Keeps capacity s (s.proceed capacity l) := by
  unfold IdempotencyCache.proceed
  split
  · exact h.lookUp l
  · rename_i oldest hplace
    exact h.makeRoom hl hplace
  · exact keeps_self h

/-! ### The turns outside of the lock -/

theorem search_setResponse (h : Consistent capacity s) {c : ℕ}
    (hc : ∀ r, responseAt s.cells c ≠ .set r) (x : OnceLock R) (hl : s.lock = some l)
    (hplace : l.place = .findingOldest todo oldest) :
    s.inner.get l.call.scope = none ∧
      ∀ key time, oldest = some (key, time) →
        ∃ e, s.inner.get key = some e ∧ isSet (setResponse s.cells c x) e := by
  obtain ⟨hnew, hcomplete⟩ := h.search hl hplace
  refine ⟨hnew, ?_⟩
  intro key time hkey
  obtain ⟨e, he, hset⟩ := hcomplete key time hkey
  exact ⟨e, he, isSet_setResponse hc hset⟩

theorem calls_setResponse (h : Consistent capacity s) {c : ℕ}
    (hc : ∀ task', responseAt s.cells c = .initializing task' → task' = task) (x : OnceLock R)
    {task' : ℕ} (hne : task' ≠ task) (hp : s.pending.get task' = some p) :
    callAt (setResponse s.cells c x) p.cell = some p.call ∧
      (p.computing = true → responseAt (setResponse s.cells c x) p.cell =
        .initializing task') := by
  obtain ⟨hcall, hcomputing⟩ := h.calls hp
  refine ⟨callAt_setResponse.trans hcall, ?_⟩
  intro hp'
  have hcell : p.cell ≠ c := fun heq => hne (hc task' (heq ▸ hcomputing hp'))
  exact (responseAt_setResponse_of_ne hcell).trans (hcomputing hp')

theorem getOrInit (h : Consistent capacity s) (hp : s.pending.get task = some p) :
    Keeps capacity s (s.getOrInit task p) := by
  unfold IdempotencyCache.getOrInit
  split_ifs with hcomputing
  · exact keeps_self h
  obtain ⟨hcall, _⟩ := h.calls hp
  cases hresponse : responseAt s.cells p.cell with
  | initializing other => exact keeps_self h
  | set value =>
    refine ⟨{ h with recorded := ?_, calls := ?_ }, fun he _ => he, fun hs => by cases hs⟩
    · apply h.recorded.answer
      intro r hr
      rw [IdempotencyOutcome.value?_ite] at hr
      exact ⟨p.cell, Option.some.inj hr ▸ h.recorded.stored hcall hresponse⟩
    · exact fun hp' => h.calls (get_of_erase hp')
  | unset =>
    have hunset : ∀ r, responseAt s.cells p.cell ≠ .set r := by simp [hresponse]
    refine
      ⟨{ size := h.size
         backed := h.backed.setResponse hunset _
         recorded := ?_
         calls := ?_
         search := h.search_setResponse hunset _ }, fun he _ => he, ?_⟩
    · exact h.recorded.setResponse hcall (.start task hresponse)
    · intro task' p' hp'
      simp only [get_insert] at hp'
      split_ifs at hp' with htask
      · obtain rfl := Option.some.inj hp'
        exact ⟨callAt_setResponse.trans hcall,
          fun _ => htask ▸ responseAt_setResponse_self hcall⟩
      · exact h.calls_setResponse (by simp [hresponse]) _ htask hp'
    · intro call c hs
      obtain ⟨rfl, rfl⟩ : p.call = call ∧ p.cell = c := by simpa using hs
      exact ⟨hcall, hresponse⟩

theorem leave (h : Consistent capacity s) (hp : s.pending.get task = some p)
    (hcomputing : p.computing = true) {x : OnceLock R} {a : Happened R}
    (hmove : responseAt s.cells p.cell = .initializing task →
      Moves p.call p.cell (responseAt s.cells p.cell) x a) :
    Consistent capacity
      { s with
        cells := setResponse s.cells p.cell x
        pending := s.pending.erase task
        history := a :: s.history } := by
  obtain ⟨hcall, hresponse⟩ := h.calls hp
  have hresponse := hresponse hcomputing
  have hunset : ∀ r, responseAt s.cells p.cell ≠ .set r := by simp [hresponse]
  refine
    { size := h.size
      backed := h.backed.setResponse hunset _
      recorded := ?_
      calls := ?_
      search := h.search_setResponse hunset _ }
  · exact h.recorded.setResponse hcall (hmove hresponse)
  · intro task' p' hp'
    simp only [get_erase] at hp'
    split_ifs at hp' with htask
    exact h.calls_setResponse (by simp [hresponse]) _ htask hp'

theorem fail (h : Consistent capacity s) (hp : s.pending.get task = some p) :
    Keeps capacity s (s.fail task p) := by
  unfold IdempotencyCache.fail
  split_ifs with hcomputing
  · exact ⟨h.leave hp hcomputing .fail, fun he _ => he, fun hs => by cases hs⟩
  · exact keeps_self h

theorem finish (h : Consistent capacity s) (value : R) (hp : s.pending.get task = some p) :
    Keeps capacity s (s.finish task value p) := by
  unfold IdempotencyCache.finish
  split_ifs with hcomputing
  · have hleft := h.leave hp hcomputing (.complete · value)
    refine ⟨{ hleft with recorded := hleft.recorded.answer ?_ }, fun he _ => he,
      fun hs => by cases hs⟩
    intro r hr
    rw [IdempotencyOutcome.value?_ite] at hr
    exact ⟨p.cell, Option.some.inj hr ▸ mem_cons_self⟩
  · exact keeps_self h

theorem step (h : Consistent capacity s) (t : Turn R) :
    Keeps capacity s (step ttl capacity s t) := by
  cases t with
  | acquire task call now => exact h.acquire task call now
  | lookAt scope => exact keeps_elim h fun l hl => h.lookAt hl scope
  | proceed => exact keeps_elim h fun l hl => h.proceed hl
  | getOrInit task => exact keeps_elim h fun p hp => h.getOrInit hp
  | finish task value => exact keeps_elim h fun p hp => h.finish value hp
  | fail task => exact keeps_elim h fun p hp => h.fail hp

theorem run (ttl capacity : ℕ) (turns : List (Turn R)) :
    Consistent capacity (run ttl capacity turns) :=
  (machine ttl capacity).final_invariant' (fun _ t h => (h.step t).consistent) new turns

end Consistent

/-! ### Every run -/

/-- In every run the table is within its capacity and every entry in flight stays. A computation
starts only for the entry that is retained for its call, which has no response and no other
computation; it completes at most once, and runs again only after it has failed. A response comes
from a computation for the same call, and a call with another digest than the entry's is refused
at once. -/
theorem get_or_compute_idempotent (ttl capacity : ℕ) (turns : List (Turn R)) :
    let s := run ttl capacity turns
    s.inner.entries.length ≤ capacity ∧
    (∀ scope e t, s.inner.get scope = some e → isSet s.cells e = false →
      (step ttl capacity s t).inner.get scope = some e) ∧
    (∀ t call c, (step ttl capacity s t).history = .started call c :: s.history →
      (∃ e, s.inner.get call.scope = some e ∧ e.digest = call.digest ∧ e.response = c) ∧
        responseAt s.cells c = .unset) ∧
    (∀ c, s.history.countP (Happened.starts c) ≤ s.history.countP (Happened.fails c) + 1 ∧
      s.history.countP (Happened.completes c) ≤ 1) ∧
    (∀ task call outcome r, .answered task call outcome ∈ s.history →
      outcome.value? = some r → ∃ c, .completed call c r ∈ s.history) ∧
    (∀ l e, s.lock = some l → l.place = .retaining [] → s.inner.get l.call.scope = some e →
      e.digest ≠ l.call.digest →
      step ttl capacity s .proceed = s.refuse l .digestConflict) := by
  intro s
  have h : Consistent capacity s := .run ttl capacity turns
  refine ⟨h.size, ?_, ?_, ?_, ?_, ?_⟩
  · intro scope e t he hflight
    exact (h.step t).inFlight he hflight
  · intro t call c hstart
    obtain ⟨hcall, hunset⟩ := (h.step t).started hstart
    obtain ⟨e, he, hresponse⟩ := h.backed.retained hcall (by simp [hunset])
    exact ⟨⟨e, he, h.backed.digest_eq he (hresponse ▸ hcall), hresponse⟩, hunset⟩
  · intro c
    have hruns := h.recorded.runs c
    have hcompletions := h.recorded.completions c
    rw [hruns, hcompletions]
    cases responseAt s.cells c <;> simp [OnceLock.runs, OnceLock.completions]
  · intro task call outcome r hmem hr
    exact h.recorded.answered hmem hr
  · intro l e hl hplace he hdigest
    simp only [step, hl, Option.elim, IdempotencyCache.proceed, hplace, IdempotencyCache.lookUp,
      he, if_pos hdigest]

def sampleCall : Call := ⟨⟨⟨1⟩, "owner_commit", "key"⟩, 7⟩

def retriedTurns : List (Turn ℕ) :=
  [.acquire 0 sampleCall 0, .proceed, .getOrInit 0, .fail 0,
    .acquire 1 sampleCall 1, .lookAt sampleCall.scope, .proceed, .getOrInit 1]

/-- Two computations for one entry, which is in the table all the time. -/
theorem failed_computation_runs_again :
    (run 10 1 retriedTurns).history =
      [.started sampleCall 0, .failed sampleCall 0, .started sampleCall 0] ∧
    ((run 10 1 retriedTurns).inner.get sampleCall.scope).map (·.response) = some 0 := by
  decide +kernel

end Sentinel.Cluster.Idempotency

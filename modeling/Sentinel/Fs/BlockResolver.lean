import Sentinel.Fs.Metadata
import Sentinel.Lib.EventLog
import Sentinel.Lib.Keyed
import Mathlib.Algebra.Order.BigOperators.Group.Finset

/-! Resolving blocks that may be remote (`sentinel-fs`, module `block_resolver`). Each call takes
the gate of its key, created on demand and shared by reference count, checks again under it and
pulls the block if it is still missing. The threads run in any order; what a thread does between
two locks is one step. -/

namespace Sentinel.Fs.Resolver
open Lib Function

inductive Key
  | blob (hash : BlobHash)
  | chunk (hash : ChunkHash)
  deriving DecidableEq

/-- An allocated gate, told apart by the number of its allocation. -/
@[ext] structure Gate where
  key : Key
  serial : ℕ
  deriving DecidableEq

inductive Phase
  | waiting
  | holding
  | absent
  | willing
  | pulling
  | pulled (ok : Bool)
  | cleared
  | settled (result : Bool)
  | leaving (result : Bool)
  | released (result : Bool)
  deriving DecidableEq

namespace Phase

def locked : Phase → Bool
  | waiting | released _ => false
  | _ => true

def inside : Phase → Bool
  | leaving _ | released _ => false
  | _ => true

def foundMissing : Phase → Bool
  | absent | willing => true
  | _ => false

def mayPull : Phase → Bool
  | willing | pulling | pulled true => true
  | _ => false

theorem guarded_of_foundMissing {p : Phase} (h : p.foundMissing = true) :
    p.inside = true ∧ p.locked = true := by
  cases p <;> first | exact ⟨rfl, rfl⟩ | cases h

theorem guarded_of_mayPull {p : Phase} (h : p.mayPull = true) :
    p.inside = true ∧ p.locked = true := by
  cases p <;> first | exact ⟨rfl, rfl⟩ | cases h

end Phase

inductive Stage
  | idle
  | called (key : Key)
  | missing (key : Key)
  | inCall (gate : Gate) (phase : Phase)
  deriving DecidableEq

namespace Stage

def arc : Stage → Option Gate
  | inCall gate _ => some gate
  | _ => none

def lock : Stage → Option Gate
  | inCall gate phase => if phase.locked then some gate else none
  | _ => none

def left : Stage → Option Gate
  | inCall gate (.released _) => some gate
  | _ => none

theorem arc_eq_some {stage : Stage} {g : Gate} :
    stage.arc = some g ↔ ∃ p, stage = .inCall g p := by
  cases stage <;> simp [arc]

end Stage

structure BlockResolver (n : ℕ) where
  now : ℕ
  present : Key → Bool
  inflight : Keyed Key ℕ
  nextGate : ℕ
  negative : Keyed Key ℕ
  negativeTtl : ℕ
  recentlyPulled : Keyed Key ℕ
  stage : Fin n → Stage

inductive Event
  | started (key : Key) (time : ℕ)
  | finished (key : Key) (ok : Bool) (time : ℕ)
  | fetched (key : Key)
  | lost (key : Key)
  | returned (key : Key) (result : Bool)

inductive Step (n : ℕ)
  | tick (duration : ℕ)
  /-- The block becomes local by other means than a pull. -/
  | store (key : Key)
  | lose (key : Key)
  | ensure (thread : Fin n) (key : Key)
  | run (thread : Fin n)
  /-- The pull of the thread stores the block. -/
  | deliver (thread : Fin n)
  | finish (thread : Fin n) (ok : Bool)

namespace BlockResolver

variable {n : ℕ}

def new (n negativeTtl : ℕ) (present : Key → Bool) : BlockResolver n :=
  ⟨0, present, .empty, 0, .empty, negativeTtl, .empty, fun _ => .idle⟩

def setStage (s : BlockResolver n) (t : Fin n) (stage : Stage) : BlockResolver n :=
  { s with stage := update s.stage t stage }

def inNegativeCache (s : BlockResolver n) (key : Key) : Bool :=
  (s.negative key).any fun time => s.now - time < s.negativeTtl

def strongCount (s : BlockResolver n) (gate : Gate) : ℕ :=
  1 + (Finset.univ.filter fun t => (s.stage t).arc = some gate).card

def tidied (s : BlockResolver n) (key : Key) : Keyed Key ℕ :=
  match s.inflight key with
  | some serial =>
    if s.strongCount ⟨key, serial⟩ ≤ 2 then update s.inflight key none else s.inflight
  | none => s.inflight

def advance (s : BlockResolver n) (t : Fin n) (gate : Gate) : Phase → BlockResolver n × List Event
  | .waiting =>
    if ∀ other, (s.stage other).lock ≠ some gate then
      (s.setStage t (.inCall gate .holding), [])
    else (s, [])
  | .holding =>
    (s.setStage t (.inCall gate (if s.present gate.key then .settled true else .absent)), [])
  | .absent =>
    (s.setStage t (.inCall gate (if s.inNegativeCache gate.key then .settled false else .willing)),
      [])
  | .willing => (s.setStage t (.inCall gate .pulling), [.started gate.key s.now])
  | .pulling => (s, [])
  | .pulled true =>
    ({ s with negative := update s.negative gate.key none }.setStage t
      (.inCall gate .cleared), [])
  | .pulled false =>
    ({ s with negative := update s.negative gate.key (some s.now) }.setStage t
      (.inCall gate (.settled false)), [])
  | .cleared =>
    ({ s with recentlyPulled := update s.recentlyPulled gate.key (some s.now) }.setStage t
      (.inCall gate (.settled true)), [])
  | .settled result =>
    ({ s with inflight := s.tidied gate.key }.setStage t (.inCall gate (.leaving result)), [])
  -- the guard of the gate is dropped before the reference to it
  | .leaving result => (s.setStage t (.inCall gate (.released result)), [])
  | .released result => (s.setStage t .idle, [.returned gate.key result])

def runThread (s : BlockResolver n) (t : Fin n) : BlockResolver n × List Event :=
  match s.stage t with
  | .idle => (s, [])
  | .called key =>
    if s.present key then (s.setStage t .idle, [.returned key true])
    else (s.setStage t (.missing key), [])
  | .missing key =>
    match s.inflight key with
    | some serial => (s.setStage t (.inCall ⟨key, serial⟩ .waiting), [])
    | none =>
      ({ s with
          inflight := update s.inflight key (some s.nextGate)
          nextGate := s.nextGate + 1 }.setStage t (.inCall ⟨key, s.nextGate⟩ .waiting), [])
  | .inCall gate phase => s.advance t gate phase

def perform (s : BlockResolver n) : Step n → BlockResolver n × List Event
  | .tick duration => ({ s with now := s.now + duration }, [])
  | .store key => ({ s with present := update s.present key true }, [])
  | .lose key => ({ s with present := update s.present key false }, [.lost key])
  | .ensure t key => (if s.stage t = .idle then s.setStage t (.called key) else s, [])
  | .run t => s.runThread t
  | .deliver t =>
    match s.stage t with
    | .inCall gate .pulling =>
      ({ s with present := update s.present gate.key true }, [.fetched gate.key])
    | _ => (s, [])
  | .finish t ok =>
    match s.stage t with
    | .inCall gate .pulling =>
      (s.setStage t (.inCall gate (.pulled ok)), [.finished gate.key ok s.now])
    | _ => (s, [])

end BlockResolver

open BlockResolver

def blockResolver (n : ℕ) : Machine (BlockResolver n) (Step n) (List Event) :=
  ⟨perform⟩

/-! ## The law -/

/-- What the events so far say of each key: a pull is running, when the last one failed, and
whether the block came by a pull and has been there since. -/
structure Past where
  running : Key → Bool
  lastFailed : Keyed Key ℕ
  fetched : Key → Bool

namespace Past

def start : Past := ⟨fun _ => false, .empty, fun _ => false⟩

def next (past : Past) : Event → Past
  | .started key _ => { past with running := update past.running key true }
  | .finished key true _ => { past with running := update past.running key false }
  | .finished key false time =>
    { past with
      running := update past.running key false
      lastFailed := update past.lastFailed key (some time) }
  | .fetched key => { past with fetched := update past.fetched key true }
  | .lost key => { past with fetched := update past.fetched key false }
  | .returned _ _ => past

def Rested (ttl : ℕ) (past : Past) (now : ℕ) (key : Key) : Prop :=
  ∀ failed, past.lastFailed key = some failed → failed + ttl ≤ now

/-- A pull starts only where none is running, the last failure is long enough ago, and the block
did not come by a pull. -/
def Starts (ttl : ℕ) (past : Past) (e : Event) : Prop :=
  ∀ key time, e = .started key time →
    past.running key = false ∧ past.Rested ttl time key ∧ past.fetched key = false

end Past

def SingleFlight (ttl : ℕ) (log : List Event) : Prop :=
  Checked Past.next .start (Past.Starts ttl) log

/-- A call that looks at the table again finds no other one that has given up the gate and still
has its reference. -/
def prompt {n : ℕ} (s : BlockResolver n) : Step n → Bool
  | .run t =>
    match s.stage t with
    | .inCall gate (.settled _) => decide (∀ other, (s.stage other).left ≠ some gate)
    | _ => true
  | _ => true

section Invariant

variable {n : ℕ}

/-- The invariant. Where `timely` holds, every gate of the table belongs to a call that will look
at the table again. -/
structure Sound (timely : Prop) (past : Past) (s : BlockResolver n) : Prop where
  manned : timely → ∀ key serial, s.inflight key = some serial →
    ∃ t p, s.stage t = .inCall ⟨key, serial⟩ p ∧ p.inside = true
  inside : ∀ t g p, s.stage t = .inCall g p → p.inside = true → s.inflight g.key = some g.serial
  exclusive : ∀ t t' g p p', s.stage t = .inCall g p → s.stage t' = .inCall g p' →
    p.locked = true → p'.locked = true → t = t'
  missing : ∀ t g p, s.stage t = .inCall g p → p.foundMissing = true → past.fetched g.key = false
  rested : ∀ t g p, s.stage t = .inCall g p → p.mayPull = true →
    past.Rested s.negativeTtl s.now g.key
  running : ∀ key, past.running key = true → ∃ t g, s.stage t = .inCall g .pulling ∧ g.key = key
  fetched : ∀ key, past.fetched key = true → s.present key = true
  failed : ∀ key time, past.lastFailed key = some time → time ≤ s.now
  recorded : ∀ key time, s.negative key = some time → time ≤ s.now
  noted : ∀ key failed, past.lastFailed key = some failed → failed + s.negativeTtl ≤ s.now ∨
    (∃ time, s.negative key = some time ∧ failed ≤ time) ∨
    ∃ t g, s.stage t = .inCall g (.pulled false) ∧ g.key = key

namespace Sound

variable {timely : Prop} {past : Past} {s : BlockResolver n} {t : Fin n} {g : Gate} {p p' : Phase}

theorem start (ttl : ℕ) (present : Key → Bool) : Sound timely .start (.new n ttl present) where
  manned := nofun
  inside := nofun
  exclusive := nofun
  missing := nofun
  rested := nofun
  running := nofun
  fetched := nofun
  failed := nofun
  recorded := nofun
  noted := nofun

theorem alone (h : Sound timely past s) {t' : Fin n} {g' : Gate} (hs : s.stage t = .inCall g p)
    (hs' : s.stage t' = .inCall g' p') (hkey : g'.key = g.key)
    (hp : p.inside = true ∧ p.locked = true) (hp' : p'.inside = true ∧ p'.locked = true) :
    t' = t := by
  have hin := h.inside t g p hs hp.1
  have hin' := h.inside t' g' p' hs' hp'.1
  obtain rfl : g = g' := by
    rw [hkey, hin] at hin'
    exact Gate.ext hkey.symm (Option.some_inj.1 hin')
  exact h.exclusive t' t _ p' p hs' hs hp'.2 hp.2

theorem setStage (h : Sound timely past s) {x : Stage}
    (hmanned : timely → ∀ g p, s.stage t = .inCall g p → p.inside = true →
      ∃ p', x = .inCall g p' ∧ p'.inside = true)
    (hinside : ∀ g p, x = .inCall g p → p.inside = true → s.inflight g.key = some g.serial)
    (hlock : ∀ g p, x = .inCall g p → p.locked = true →
      ∀ t' p', t' ≠ t → s.stage t' = .inCall g p' → p'.locked = false)
    (hmissing : ∀ g p, x = .inCall g p → p.foundMissing = true → past.fetched g.key = false)
    (hrested : ∀ g p, x = .inCall g p → p.mayPull = true →
      past.Rested s.negativeTtl s.now g.key)
    (hpulling : ∀ g, s.stage t = .inCall g .pulling → past.running g.key = false)
    (hpulled : ∀ g, s.stage t = .inCall g (.pulled false) → ∃ time, s.negative g.key = some time ∧
      ∀ failed, past.lastFailed g.key = some failed → failed ≤ time) :
    Sound timely past (s.setStage t x) := by
  have hself : (s.setStage t x).stage t = x := update_self ..
  have hother : ∀ t', t' ≠ t → (s.setStage t x).stage t' = s.stage t' :=
    fun t' hne => update_of_ne hne ..
  -- what holds of every call holds of the others as before, and of this one by assumption
  have hcalls : ∀ {Q : Gate → Phase → Prop}, (∀ g p, x = .inCall g p → Q g p) →
      (∀ t g p, s.stage t = .inCall g p → Q g p) →
      ∀ t' g p, (s.setStage t x).stage t' = .inCall g p → Q g p := by
    intro Q hx hold t' g p hs
    rcases eq_or_ne t' t with rfl | hne
    · exact hx g p (hself.symm.trans hs)
    · exact hold t' g p ((hother t' hne).symm.trans hs)
  refine ⟨?_, hcalls hinside h.inside, ?_, hcalls hmissing h.missing, hcalls hrested h.rested, ?_,
    h.fetched, h.failed, h.recorded, ?_⟩
  · intro htimely key serial hin
    obtain ⟨t', p, hs, hp⟩ := h.manned htimely key serial hin
    rcases eq_or_ne t' t with rfl | hne
    · obtain ⟨p', hx, hp'⟩ := hmanned htimely _ p hs hp
      exact ⟨t', p', hself.trans hx, hp'⟩
    · exact ⟨t', p, (hother t' hne).trans hs, hp⟩
  · intro t₁ t₂ g p₁ p₂ h₁ h₂ hp₁ hp₂
    by_contra hne
    rcases eq_or_ne t₁ t with rfl | hne₁
    · have hfree := hlock g p₁ (hself.symm.trans h₁) hp₁ t₂ p₂ (Ne.symm hne)
        ((hother t₂ (Ne.symm hne)).symm.trans h₂)
      exact Bool.false_ne_true (hfree.symm.trans hp₂)
    rcases eq_or_ne t₂ t with rfl | hne₂
    · have hfree := hlock g p₂ (hself.symm.trans h₂) hp₂ t₁ p₁ hne₁
        ((hother t₁ hne₁).symm.trans h₁)
      exact Bool.false_ne_true (hfree.symm.trans hp₁)
    · exact hne (h.exclusive t₁ t₂ g p₁ p₂ ((hother t₁ hne₁).symm.trans h₁)
        ((hother t₂ hne₂).symm.trans h₂) hp₁ hp₂)
  · intro key hrun
    obtain ⟨t', g, hs, rfl⟩ := h.running key hrun
    have hne : t' ≠ t := fun heq =>
      Bool.false_ne_true ((hpulling g (heq ▸ hs)).symm.trans hrun)
    exact ⟨t', g, (hother t' hne).trans hs, rfl⟩
  · intro key failed hfailed
    rcases h.noted key failed hfailed with hrest | hnoted | ⟨t', g, hs, rfl⟩
    · exact .inl hrest
    · exact .inr (.inl hnoted)
    · rcases eq_or_ne t' t with rfl | hne
      · obtain ⟨time, htime, hle⟩ := hpulled g hs
        exact .inr (.inl ⟨time, htime, hle failed hfailed⟩)
      · exact .inr (.inr ⟨t', g, (hother t' hne).trans hs, rfl⟩)

theorem move (h : Sound timely past s) (hs : s.stage t = .inCall g p)
    (hmanned : timely → p.inside = true → p'.inside = true)
    (hinside : p'.inside = true → p.inside = true) (hlocked : p'.locked = true → p.locked = true)
    (hmissing : p'.foundMissing = true → past.fetched g.key = false)
    (hrested : p'.mayPull = true → past.Rested s.negativeTtl s.now g.key)
    (hpulling : p = .pulling → past.running g.key = false)
    (hpulled : p = .pulled false → ∃ time, s.negative g.key = some time ∧
      ∀ failed, past.lastFailed g.key = some failed → failed ≤ time) :
    Sound timely past (s.setStage t (.inCall g p')) := by
  refine h.setStage ?_ ?_ ?_ ?_ ?_ ?_ ?_
  · intro htimely g' q hs' hq
    cases hs.symm.trans hs'
    exact ⟨p', rfl, hmanned htimely hq⟩
  · rintro _ _ ⟨rfl, rfl⟩ hp
    exact h.inside t g p hs (hinside hp)
  · rintro _ _ ⟨rfl, rfl⟩ hp t' p' hne hs'
    rw [← Bool.not_eq_true]
    exact fun hp' => hne (h.exclusive t' t g p' p hs' hs hp' (hlocked hp))
  · rintro _ _ ⟨rfl, rfl⟩
    exact hmissing
  · rintro _ _ ⟨rfl, rfl⟩
    exact hrested
  · intro g' hs'
    cases hs.symm.trans hs'
    exact hpulling rfl
  · intro g' hs'
    cases hs.symm.trans hs'
    exact hpulled rfl

theorem settle (h : Sound timely past s) (hs : s.stage t = .inCall g p) (hp : p.locked = true)
    (hpulling : p ≠ .pulling) (hpulled : p ≠ .pulled false) (hinside : p'.inside = p.inside)
    (hidle : p'.foundMissing = false ∧ p'.mayPull = false) :
    Sound timely past (s.setStage t (.inCall g p')) :=
  h.move hs (fun _ hp => hinside.trans hp) (fun hp' => hinside.symm.trans hp') (fun _ => hp)
    (fun hp' => absurd (hidle.1.symm.trans hp') Bool.false_ne_true)
    (fun hp' => absurd (hidle.2.symm.trans hp') Bool.false_ne_true)
    (fun heq => absurd heq hpulling) (fun heq => absurd heq hpulled)

theorem tick (h : Sound timely past s) (d : ℕ) : Sound timely past { s with now := s.now + d } where
  manned := h.manned
  inside := h.inside
  exclusive := h.exclusive
  missing := h.missing
  rested t g p hs hp failed hfailed :=
    (h.rested t g p hs hp failed hfailed).trans (Nat.le_add_right ..)
  running := h.running
  fetched := h.fetched
  failed key time ht := (h.failed key time ht).trans (Nat.le_add_right ..)
  recorded key time ht := (h.recorded key time ht).trans (Nat.le_add_right ..)
  noted key failed hfailed :=
    (h.noted key failed hfailed).imp_left fun hle => hle.trans (Nat.le_add_right ..)

theorem store (h : Sound timely past s) (key : Key) :
    Sound timely past { s with present := update s.present key true } := by
  refine { h with fetched := fun key' hfetched => ?_ }
  rcases eq_or_ne key' key with rfl | hne
  · exact update_self ..
  · exact (update_of_ne hne ..).trans (h.fetched key' hfetched)

theorem take (h : Sound timely past s) {key : Key} {serial : ℕ} (hs : s.stage t = .missing key)
    (hin : s.inflight key = some serial) :
    Sound timely past (s.setStage t (.inCall ⟨key, serial⟩ .waiting)) := by
  refine h.setStage (by simp [hs]) ?_ ?_ ?_ ?_ (by simp [hs]) (by simp [hs]) <;>
    rintro _ _ ⟨rfl, rfl⟩ hp
  · exact hin
  all_goals cases hp

theorem takeNew (h : Sound timely past s) {key : Key} (hs : s.stage t = .missing key)
    (hnone : s.inflight key = none) (serial nextGate : ℕ) :
    Sound timely past ({ s with
      inflight := update s.inflight key (some serial), nextGate }.setStage t
        (.inCall ⟨key, serial⟩ .waiting)) := by
  have hadded : Sound False past { s with
      inflight := update s.inflight key (some serial), nextGate } := by
    -- no call is inside for a key that has no gate
    refine { h with manned := nofun, inside := fun t g p hs hp => ?_ }
    have hin := h.inside t g p hs hp
    have hne : g.key ≠ key := by
      rintro rfl
      rw [hnone] at hin
      cases hin
    exact (update_of_ne hne ..).trans hin
  refine { hadded.take hs (update_self ..) with manned := ?_ }
  intro htimely key' serial' hin
  replace hin : update s.inflight key (some serial) key' = some serial' := hin
  rcases eq_or_ne key' key with rfl | hne
  · rw [update_self] at hin
    cases hin
    exact ⟨t, .waiting, update_self .., rfl⟩
  · rw [update_of_ne hne] at hin
    obtain ⟨t', p, hs', hp⟩ := h.manned htimely key' serial' hin
    have hne' : t' ≠ t := by
      rintro rfl
      cases hs.symm.trans hs'
    exact ⟨t', p, (update_of_ne hne' ..).trans hs', hp⟩

theorem note (h : Sound timely past s) (key : Key) (entry : Option ℕ)
    (hrecorded : ∀ time, entry = some time → time ≤ s.now)
    (hnoted : ∀ failed, past.lastFailed key = some failed →
      failed + s.negativeTtl ≤ s.now ∨ ∃ time, entry = some time ∧ failed ≤ time) :
    Sound timely past { s with negative := update s.negative key entry } := by
  have hothers : ∀ {key'}, key' ≠ key → update s.negative key entry key' = s.negative key' :=
    fun hne => update_of_ne hne ..
  refine { h with recorded := fun key' time ht => ?_, noted := fun key' failed hfailed => ?_ }
  · rcases eq_or_ne key' key with rfl | hne
    · exact hrecorded time ((update_self key' entry s.negative).symm.trans ht)
    · exact h.recorded key' time ((hothers hne).symm.trans ht)
  · rcases eq_or_ne key' key with rfl | hne
    · rcases hnoted failed hfailed with hrest | ⟨time, rfl, hle⟩
      · exact .inl hrest
      · exact .inr (.inl ⟨time, update_self .., hle⟩)
    · dsimp only
      rw [hothers hne]
      exact h.noted key' failed hfailed

theorem lose (h : Sound timely past s) (key : Key) :
    Sound timely (past.next (.lost key))
      { s with present := update s.present key false } := by
  have hless : ∀ key', update past.fetched key false key' = true →
      key' ≠ key ∧ past.fetched key' = true := by
    intro key' hfetched
    rcases eq_or_ne key' key with rfl | hne
    · rw [update_self] at hfetched
      cases hfetched
    · exact ⟨hne, (update_of_ne hne ..).symm.trans hfetched⟩
  refine { h with missing := fun t g p hs hp => ?_, fetched := fun key' hfetched => ?_ }
  · rw [← Bool.not_eq_true]
    exact fun hfetched =>
      Bool.false_ne_true ((h.missing t g p hs hp).symm.trans (hless g.key hfetched).2)
  · obtain ⟨hne, hbefore⟩ := hless key' hfetched
    exact (update_of_ne hne ..).trans (h.fetched key' hbefore)

theorem deliver (h : Sound timely past s) (hs : s.stage t = .inCall g .pulling) :
    Sound timely (past.next (.fetched g.key))
      { s with present := update s.present g.key true } := by
  have hmore : ∀ key', key' ≠ g.key →
      update past.fetched g.key true key' = past.fetched key' :=
    fun key' hne => update_of_ne hne ..
  refine { h.store g.key with missing := fun t' g' p hs' hp => ?_, fetched := fun key' hf => ?_ }
  · refine (hmore g'.key fun hkey => ?_).trans (h.missing t' g' p hs' hp)
    -- whoever has found the block missing holds the gate, and this call does
    obtain rfl := h.alone hs hs' hkey ⟨rfl, rfl⟩ (Phase.guarded_of_foundMissing hp)
    cases hs.symm.trans hs'
    cases hp
  · rcases eq_or_ne key' g.key with rfl | hne
    · exact update_self ..
    · exact (h.store g.key).fetched key' ((hmore key' hne).symm.trans hf)

theorem begin (h : Sound timely past s) (hs : s.stage t = .inCall g .willing) :
    Sound timely (past.next (.started g.key s.now)) (s.setStage t (.inCall g .pulling)) := by
  have hmove : Sound timely past (s.setStage t (.inCall g .pulling)) :=
    h.move hs (fun _ _ => rfl) (fun _ => rfl) (fun _ => rfl) nofun
      (fun _ => h.rested t g _ hs rfl) nofun nofun
  refine { hmove with running := fun key hrun => ?_ }
  rcases eq_or_ne key g.key with rfl | hne
  · exact ⟨t, g, update_self .., rfl⟩
  · exact hmove.running key ((update_of_ne hne ..).symm.trans hrun)

theorem stop (h : Sound timely past s) (key : Key) :
    Sound timely { past with running := update past.running key false } s := by
  refine { h with running := fun key' hrun => h.running key' ?_ }
  rcases eq_or_ne key' key with rfl | hne
  · cases (update_self ..).symm.trans hrun
  · exact (update_of_ne hne ..).symm.trans hrun

theorem fail (h : Sound timely past s) (hs : s.stage t = .inCall g (.pulled false)) :
    Sound timely { past with lastFailed := update past.lastFailed g.key (some s.now) }
      s := by
  have hothers : ∀ {key failed}, key ≠ g.key →
      update past.lastFailed g.key (some s.now) key = some failed →
      past.lastFailed key = some failed :=
    fun hne hfailed => (update_of_ne hne ..).symm.trans hfailed
  refine { h with
    rested := fun t' g' p hs' hp failed hfailed => ?_
    failed := fun key time ht => ?_
    noted := fun key failed hfailed => ?_ }
  · refine h.rested t' g' p hs' hp failed (hothers (fun hkey => ?_) hfailed)
    obtain rfl := h.alone hs hs' hkey ⟨rfl, rfl⟩ (Phase.guarded_of_mayPull hp)
    cases hs.symm.trans hs'
    cases hp
  · rcases eq_or_ne key g.key with rfl | hne
    · have hnow := (update_self g.key (some s.now) past.lastFailed).symm.trans ht
      exact (Option.some_inj.1 hnow).ge
    · exact h.failed key time (hothers hne ht)
  · rcases eq_or_ne key g.key with rfl | hne
    · exact .inr (.inr ⟨t, g, hs, rfl⟩)
    · exact h.noted key failed (hothers hne hfailed)

theorem finish (h : Sound timely past s) (hs : s.stage t = .inCall g .pulling) (ok : Bool) :
    Sound timely (past.next (.finished g.key ok s.now))
      (s.setStage t (.inCall g (.pulled ok))) := by
  have hmove : Sound timely { past with running := update past.running g.key false }
      (s.setStage t (.inCall g (.pulled ok))) :=
    (h.stop g.key).move hs (fun _ _ => rfl) (fun _ => rfl) (fun _ => rfl) nofun
      (fun _ => h.rested t g _ hs rfl) (fun _ => update_self ..) nofun
  cases ok with
  | true => exact hmove
  | false => exact hmove.fail (update_self ..)

theorem rested_of_free (h : Sound timely past s) (hs : s.stage t = .inCall g .absent)
    (hfree : ¬ s.inNegativeCache g.key) : past.Rested s.negativeTtl s.now g.key := by
  intro failed hfailed
  rcases h.noted g.key failed hfailed with hrest | ⟨time, htime, hle⟩ | ⟨t', g', hs', hkey⟩
  · exact hrest
  · have hpast := h.recorded g.key time htime
    rw [inNegativeCache, htime, Option.any_some, decide_eq_true_eq] at hfree
    omega
  · -- the failure is not noted yet: the call that will note it would hold the gate too
    obtain rfl := h.alone hs hs' hkey ⟨rfl, rfl⟩ ⟨rfl, rfl⟩
    cases hs.symm.trans hs'

theorem starts (h : Sound timely past s) (hs : s.stage t = .inCall g .willing) :
    past.Starts s.negativeTtl (.started g.key s.now) := by
  rintro _ _ ⟨rfl, rfl⟩
  refine ⟨?_, h.rested t g _ hs rfl, h.missing t g _ hs rfl⟩
  rw [← Bool.not_eq_true]
  intro hrun
  obtain ⟨t', g', hs', hkey⟩ := h.running _ hrun
  obtain rfl := h.alone hs hs' hkey ⟨rfl, rfl⟩ ⟨rfl, rfl⟩
  cases hs.symm.trans hs'

end Sound

def Keeps (timely : Prop) (ttl : ℕ) (s : BlockResolver n) : Past → List Event → Prop
  | past, [] => s.negativeTtl = ttl ∧ Sound timely past s
  | past, e :: events => past.Starts ttl e ∧ Keeps timely ttl s (past.next e) events

section Step

variable {timely : Prop} {past : Past} {s : BlockResolver n} {t : Fin n} {g : Gate}

theorem strongCount_le_two {p : Phase} (hs : s.stage t = .inCall g p) :
    s.strongCount g ≤ 2 ↔ ∀ t' p', s.stage t' = .inCall g p' → t' = t := by
  have hcard : s.strongCount g ≤ 2 ↔
      (Finset.univ.filter fun t => (s.stage t).arc = some g).card ≤ 1 := by
    unfold strongCount
    omega
  rw [hcard, Finset.card_le_one]
  simp only [Finset.mem_filter, Finset.mem_univ, true_and, Stage.arc_eq_some]
  constructor
  · intro hone t' p' hs'
    exact hone t' ⟨p', hs'⟩ t ⟨p, hs⟩
  · rintro hall a ⟨pa, ha⟩ b ⟨pb, hb⟩
    rw [hall a pa ha, hall b pb hb]

theorem sound_tidied {result : Bool} (h : Sound timely past s)
    (hs : s.stage t = .inCall g (.settled result))
    (hprompt : timely → ∀ other, (s.stage other).left ≠ some g) :
    Sound timely past
      ({ s with inflight := s.tidied g.key }.setStage t (.inCall g (.leaving result))) := by
  have hmove : Sound False past (s.setStage t (.inCall g (.leaving result))) :=
    Sound.move { h with manned := nofun } hs nofun nofun (fun _ => rfl) nofun nofun nofun nofun
  have hin : s.inflight g.key = some g.serial := h.inside t g _ hs rfl
  -- the calls inside for other keys stay
  have hothers : timely → ∀ key serial, key ≠ g.key → s.inflight key = some serial →
      ∃ t' p, (s.setStage t (.inCall g (.leaving result))).stage t' = .inCall ⟨key, serial⟩ p ∧
        p.inside = true := by
    intro htimely key serial hkey hkeyin
    obtain ⟨t', p, hs', hinside⟩ := h.manned htimely key serial hkeyin
    have hne : t' ≠ t := by
      rintro rfl
      cases hs.symm.trans hs'
      exact hkey rfl
    exact ⟨t', p, (update_of_ne hne ..).trans hs', hinside⟩
  unfold tidied
  rw [hin]
  dsimp only
  split_ifs with hcount
  · refine { hmove with
      manned := fun htimely key serial hkeyin => ?_, inside := fun t' g' p hs' hp => ?_ }
    · rcases eq_or_ne key g.key with rfl | hne
      · cases (update_self ..).symm.trans hkeyin
      · exact hothers htimely key serial hne ((update_of_ne hne ..).symm.trans hkeyin)
    · have hin' : s.inflight g'.key = some g'.serial := hmove.inside t' g' p hs' hp
      refine (update_of_ne (fun hkey => ?_) ..).trans hin'
      -- another call inside would hold the same gate
      obtain rfl : g = g' := by
        rw [hkey, hin] at hin'
        exact Gate.ext hkey.symm (Option.some_inj.1 hin')
      rcases eq_or_ne t' t with rfl | hne
      · cases (update_self ..).symm.trans hs'
        cases hp
      · exact hne ((strongCount_le_two hs).1 hcount t' p
          ((update_of_ne hne ..).symm.trans hs'))
  · refine { hmove with manned := fun htimely key serial hkeyin => ?_ }
    rcases eq_or_ne key g.key with rfl | hne
    · obtain rfl : g.serial = serial := Option.some_inj.1 (hin.symm.trans hkeyin)
      -- some other call has a reference, and it is still inside
      obtain ⟨t', p', hs', hne⟩ : ∃ t' p', s.stage t' = .inCall g p' ∧ t' ≠ t := by
        by_contra hnone
        refine hcount ((strongCount_le_two hs).2 fun t' p' hs' => ?_)
        by_contra hne
        exact hnone ⟨t', p', hs', hne⟩
      refine ⟨t', p', (update_of_ne hne ..).trans hs', ?_⟩
      cases p' with
      | leaving result' => exact absurd (h.exclusive t' t g _ _ hs' hs rfl rfl) hne
      | released result' => exact absurd (congrArg Stage.left hs') (hprompt htimely t')
      | _ => rfl
    · exact hothers htimely key serial hne hkeyin

theorem keeps_advance (h : Sound timely past s) {p : Phase} (hs : s.stage t = .inCall g p)
    (hprompt : timely → prompt s (.run t) = true) :
    Keeps timely s.negativeTtl (s.advance t g p).1 past (s.advance t g p).2 := by
  cases p with
  | waiting =>
    dsimp only [advance]
    split_ifs with hfree
    · refine ⟨rfl, h.setStage ?_ ?_ ?_ ?_ ?_ (by simp [hs]) (by simp [hs])⟩
      · intro _ g' q hs' _
        cases hs.symm.trans hs'
        exact ⟨.holding, rfl, rfl⟩
      · rintro _ _ ⟨rfl, rfl⟩ _
        exact h.inside t g _ hs rfl
      · -- the gate is free, so every other call with it waits or is gone
        rintro _ _ ⟨rfl, rfl⟩ _ t' p' _ hs'
        have hlock := hfree t'
        rw [hs'] at hlock
        simpa [Stage.lock] using hlock
      · rintro _ _ ⟨rfl, rfl⟩ hp
        cases hp
      · rintro _ _ ⟨rfl, rfl⟩ hp
        cases hp
    · exact ⟨rfl, h⟩
  | holding =>
    dsimp only [advance]
    split_ifs with hpresent
    · exact ⟨rfl, h.settle hs rfl nofun nofun rfl ⟨rfl, rfl⟩⟩
    · have hmissing : past.fetched g.key = false := by
        rw [← Bool.not_eq_true]
        exact fun hfetched => hpresent (h.fetched _ hfetched)
      exact ⟨rfl, h.move hs (fun _ _ => rfl) (fun _ => rfl) (fun _ => rfl) (fun _ => hmissing)
        nofun nofun nofun⟩
  | absent =>
    dsimp only [advance]
    split_ifs with hnegative
    · exact ⟨rfl, h.settle hs rfl nofun nofun rfl ⟨rfl, rfl⟩⟩
    · exact ⟨rfl, h.move hs (fun _ _ => rfl) (fun _ => rfl) (fun _ => rfl)
        (fun _ => h.missing t g _ hs rfl) (fun _ => h.rested_of_free hs hnegative) nofun nofun⟩
  | willing => exact ⟨h.starts hs, rfl, h.begin hs⟩
  | pulling => exact ⟨rfl, h⟩
  | pulled ok =>
    cases ok with
    | true =>
      have hcleared := h.note g.key none nofun fun failed hfailed =>
        .inl (h.rested t g _ hs rfl failed hfailed)
      exact ⟨rfl, hcleared.settle hs rfl nofun nofun rfl ⟨rfl, rfl⟩⟩
    | false =>
      have hrecorded := h.note g.key (some s.now)
        (fun _ htime => (Option.some_inj.1 htime).ge)
        fun failed hfailed => .inr ⟨s.now, rfl, h.failed g.key failed hfailed⟩
      exact ⟨rfl, hrecorded.move hs (fun _ _ => rfl) (fun _ => rfl) (fun _ => rfl) nofun
        nofun nofun fun _ => ⟨s.now, update_self .., h.failed g.key⟩⟩
  | cleared =>
    have hpulled : Sound timely past { s with
        recentlyPulled := update s.recentlyPulled g.key (some s.now) } := { h with }
    exact ⟨rfl, hpulled.settle hs rfl nofun nofun rfl ⟨rfl, rfl⟩⟩
  | settled result =>
    refine ⟨rfl, sound_tidied h hs fun htimely => ?_⟩
    have hleft := hprompt htimely
    simp only [prompt, hs, decide_eq_true_eq] at hleft
    exact hleft
  | leaving result => exact ⟨rfl, h.move hs (fun _ => nofun) nofun nofun nofun nofun nofun nofun⟩
  | released result =>
    refine ⟨nofun, rfl, h.setStage ?_ nofun nofun nofun nofun (by simp [hs]) (by simp [hs])⟩
    intro _ g' q hs' hq
    cases hs.symm.trans hs'
    cases hq

theorem keeps_perform {ttl : ℕ} {step : Step n} (httl : s.negativeTtl = ttl)
    (h : Sound timely past s) (hprompt : timely → prompt s step = true) :
    Keeps timely ttl (s.perform step).1 past (s.perform step).2 := by
  subst httl
  -- a thread outside of `guarded` moves on
  have houtside : ∀ {t x}, (∀ g p, s.stage t ≠ .inCall g p) → (∀ g p, x ≠ .inCall g p) →
      Sound timely past (s.setStage t x) :=
    fun hs hx => h.setStage (fun _ g p hs' => absurd hs' (hs g p))
      (fun g p hx' => absurd hx' (hx g p)) (fun g p hx' => absurd hx' (hx g p))
      (fun g p hx' => absurd hx' (hx g p)) (fun g p hx' => absurd hx' (hx g p))
      (fun g hs' => absurd hs' (hs g _)) (fun g hs' => absurd hs' (hs g _))
  cases step with
  | tick duration => exact ⟨rfl, h.tick duration⟩
  | store key => exact ⟨rfl, h.store key⟩
  | lose key => exact ⟨nofun, rfl, h.lose key⟩
  | ensure t key =>
    dsimp only [perform]
    split_ifs with hs
    · exact ⟨rfl, houtside (by simp [hs]) nofun⟩
    · exact ⟨rfl, h⟩
  | deliver t =>
    dsimp only [perform]
    split
    next g hs => exact ⟨nofun, rfl, h.deliver hs⟩
    next => exact ⟨rfl, h⟩
  | finish t ok =>
    dsimp only [perform]
    split
    next g hs => exact ⟨nofun, rfl, h.finish hs ok⟩
    next => exact ⟨rfl, h⟩
  | run t =>
    dsimp only [perform, runThread]
    cases hs : s.stage t with
    | idle => exact ⟨rfl, h⟩
    | called key =>
      dsimp only
      split_ifs
      · exact ⟨nofun, rfl, houtside (by simp [hs]) nofun⟩
      · exact ⟨rfl, houtside (by simp [hs]) nofun⟩
    | missing key =>
      dsimp only
      cases hin : s.inflight key with
      | some serial => exact ⟨rfl, h.take hs hin⟩
      | none => exact ⟨rfl, h.takeNew hs hin s.nextGate (s.nextGate + 1)⟩
    | inCall g p => exact keeps_advance h hs hprompt

theorem Keeps.append {ttl : ℕ} {log events : List Event} (h : SingleFlight ttl log)
    (hkeeps : Keeps timely ttl s (log.foldl Past.next .start) events) :
    SingleFlight ttl (log ++ events) ∧
      Keeps timely ttl s ((log ++ events).foldl Past.next .start) [] := by
  induction events generalizing log with
  | nil =>
    rw [List.append_nil]
    exact ⟨h, hkeeps⟩
  | cons e events ih =>
    rw [← List.singleton_append, ← List.append_assoc]
    refine ih (checked_concat.2 ⟨h, hkeeps.1⟩) ?_
    rw [List.foldl_concat]
    exact hkeeps.2

end Step

theorem keeps_run (ttl : ℕ) (present : Key → Bool) (steps : List (Step n)) :
    SingleFlight ttl ((blockResolver n).log (.new n ttl present) steps) ∧
      Keeps ((blockResolver n).Meets (fun s step => prompt s step) (.new n ttl present) steps) ttl
        ((blockResolver n).final (.new n ttl present) steps)
        (((blockResolver n).log (.new n ttl present) steps).foldl Past.next .start) [] := by
  induction steps using List.reverseRecOn with
  | nil => exact ⟨checked_nil, rfl, .start ttl present⟩
  | append_singleton steps step ih =>
    obtain ⟨hlog, httl, hsound⟩ := ih
    rw [Machine.log_concat, Machine.final_append, Machine.meets_append]
    refine Keeps.append hlog ?_
    refine keeps_perform httl ?_ fun hmeets => hmeets.2.1
    exact { hsound with manned := fun hmeets => hsound.manned hmeets.1 }

end Invariant

/-- **Single flight.** Pulls of one key do not overlap, none starts too soon after a failure or
for a block that a pull has brought; and if calls drop their references in time, the table is
empty whenever no call is in progress. -/
theorem block_resolver_single_flight (n ttl : ℕ) (present : Key → Bool) (steps : List (Step n)) :
    SingleFlight ttl ((blockResolver n).log (.new n ttl present) steps) ∧
      ((blockResolver n).Meets (fun s step => prompt s step) (.new n ttl present) steps →
        (∀ t, ((blockResolver n).final (.new n ttl present) steps).stage t = .idle) →
          ∀ key, ((blockResolver n).final (.new n ttl present) steps).inflight key = none) := by
  obtain ⟨hlog, -, hsound⟩ := keeps_run ttl present steps
  refine ⟨hlog, fun hprompt hidle key => ?_⟩
  rw [Option.eq_none_iff_forall_ne_some]
  intro serial hin
  obtain ⟨t, p, hs, -⟩ := hsound.manned hprompt key serial hin
  cases (hidle t).symm.trans hs

/-- Two calls for one blob: the first has pulled it and given up the gate, on which the second
waits. -/
def sharedGate : List (Step 2) :=
  [.ensure 0 (.blob 1), .ensure 1 (.blob 1), .run 0, .run 1, .run 0, .run 1, .run 0, .run 0, .run 0,
    .run 0, .deliver 0, .finish 0 true, .run 0, .run 0, .run 0, .run 0]

theorem shared_gate_dropped :
    let steps := sharedGate ++ [.run 0, .run 1, .run 1, .run 1, .run 1, .run 1]
    let final := (blockResolver 2).final (.new 2 5 fun _ => false) steps
    (∀ t, final.stage t = .idle) ∧ final.present (.blob 1) = true ∧
      ∀ key, final.inflight key = none := by
  intro steps final
  have hidle : ∀ t, final.stage t = .idle := by decide +kernel
  have hprompt : (blockResolver 2).Meets (fun s step => prompt s step) (.new 2 5 fun _ => false)
      steps := by decide +kernel
  exact ⟨hidle, by decide +kernel, (block_resolver_single_flight 2 5 _ steps).2 hprompt hidle⟩

/-- The second call looks at the table while the first one still has its reference. -/
theorem shared_gate_left_over :
    let steps := sharedGate ++ [.run 1, .run 1, .run 1, .run 0, .run 1, .run 1]
    let final := (blockResolver 2).final (.new 2 5 fun _ => false) steps
    (∀ t, final.stage t = .idle) ∧ final.inflight (.blob 1) = some 0 := by
  decide +kernel

/-! ## No call gets stuck -/

section Progress

variable {n : ℕ} {s : BlockResolver n} {t : Fin n}

@[simp] def Phase.toGo : Phase → ℕ
  | .waiting => 10
  | .holding => 9
  | .absent => 8
  | .willing => 7
  | .pulling => 6
  | .pulled _ => 5
  | .cleared => 4
  | .settled _ => 3
  | .leaving _ => 2
  | .released _ => 1

@[simp] def Stage.toGo : Stage → ℕ
  | .idle => 0
  | .called _ => 12
  | .missing _ => 11
  | .inCall _ phase => phase.toGo

/-- The step brings the call of `t` nearer to its end, and touches no other call. -/
def Moves (s : BlockResolver n) (t : Fin n) (step : Step n) : Prop :=
  ∃ stage : Stage, (s.perform step).1.stage = update s.stage t stage ∧
    stage.toGo < (s.stage t).toGo

theorem moves_inCall {gate : Gate} {phase : Phase} (ok : Bool)
    (hs : s.stage t = .inCall gate phase) (hphase : phase ≠ .waiting) :
    ∃ step, (step = .run t ∨ step = .finish t ok) ∧ Moves s t step := by
  cases phase
  case waiting => exact absurd rfl hphase
  case pulling =>
    refine ⟨_, .inr rfl, .inCall gate (.pulled ok), ?_, by simp [hs]⟩
    simp [perform, hs, setStage]
  all_goals
    refine ⟨_, .inl rfl, ?_⟩
    simp only [Moves, perform, runThread, hs]
  case holding | absent => exact ⟨_, rfl, by split_ifs <;> simp⟩
  case pulled result => cases result <;> exact ⟨_, rfl, by simp⟩
  all_goals exact ⟨_, rfl, by simp⟩

/-- If the call of `t` waits for a gate, the call that has locked it does not. -/
theorem exists_moves (ok : Bool) (hbusy : s.stage t ≠ .idle) :
    ∃ t' step, (step = .run t' ∨ step = .finish t' ok) ∧ Moves s t' step := by
  cases hs : s.stage t with
  | idle => exact absurd hs hbusy
  | called key =>
    refine ⟨t, _, .inl rfl, ?_⟩
    simp only [Moves, perform, runThread, hs]
    split_ifs <;> exact ⟨_, rfl, by simp⟩
  | missing key =>
    refine ⟨t, _, .inl rfl, ?_⟩
    simp only [Moves, perform, runThread, hs]
    split <;> exact ⟨_, rfl, by simp⟩
  | inCall gate phase =>
    by_cases hphase : phase = .waiting
    · by_cases hfree : ∀ other, (s.stage other).lock ≠ some gate
      · refine ⟨t, _, .inl rfl, .inCall gate .holding, ?_, by simp [hs, hphase]⟩
        simp [perform, runThread, advance, hs, hphase,
          hfree, setStage]
      · push Not at hfree
        obtain ⟨other, hlock⟩ := hfree
        cases hother : s.stage other with
        | inCall gate' phase' =>
          refine ⟨other, moves_inCall ok hother ?_⟩
          rintro rfl
          simp [hother, Stage.lock, Phase.locked] at hlock
        | _ => simp [hother, Stage.lock] at hlock
    · exact ⟨t, moves_inCall ok hs hphase⟩

theorem Moves.sum_lt {step : Step n} (h : Moves s t step) :
    ∑ i, ((s.perform step).1.stage i).toGo < ∑ i, (s.stage i).toGo := by
  obtain ⟨stage, hstage, hlt⟩ := h
  rw [hstage]
  refine Finset.sum_lt_sum (fun i _ => ?_) ⟨t, Finset.mem_univ t, ?_⟩
  · rcases eq_or_ne i t with rfl | hne
    · rw [update_self]
      exact hlt.le
    · rw [update_of_ne hne]
  · rw [update_self]
    exact hlt

/-- **Every call can be brought to its end.** Wherever the calls stand, and whether the pulls
succeed or fail, some order of the steps they have to go lets all of them return. -/
theorem calls_can_finish (s : BlockResolver n) (ok : Bool) :
    ∃ steps : List (Step n), steps.length ≤ ∑ i, (s.stage i).toGo ∧
      (∀ step ∈ steps, ∃ t, step = .run t ∨ step = .finish t ok) ∧
      ∀ t, ((blockResolver n).final s steps).stage t = .idle := by
  induction hk : ∑ i, (s.stage i).toGo using Nat.strong_induction_on generalizing s with
  | _ k ih =>
    subst hk
    by_cases hidle : ∀ t, s.stage t = .idle
    · exact ⟨[], Nat.zero_le _, by simp, hidle⟩
    · push Not at hidle
      obtain ⟨t, hbusy⟩ := hidle
      obtain ⟨t', step, hstep, hmoves⟩ := exists_moves ok hbusy
      obtain ⟨steps, hlength, hsteps, hfinal⟩ := ih _ hmoves.sum_lt (s.perform step).1 rfl
      refine ⟨step :: steps, hlength.trans_lt hmoves.sum_lt, ?_, hfinal⟩
      exact List.forall_mem_cons.2 ⟨⟨t', hstep⟩, hsteps⟩

end Progress

end Sentinel.Fs.Resolver

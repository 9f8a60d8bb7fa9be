import Sentinel.Fs.ArtifactPlane
import Sentinel.Lib.EventLog
import Sentinel.Lib.Keyed

/-! The cache of decompressed chunks (`sentinel-fs`, module `chunk_cache`): lookup, admission by
the accesses seen before, and eviction in the order of insertion. -/

namespace Sentinel.Fs
open Lib Function List

structure ChunkCache where
  entries : Table ChunkHash (List UInt8)
  order : List ChunkHash
  currentBytes : ℕ
  maxBytes : ℕ
  seen : Keyed ChunkHash ℕ
  hits : ℕ
  misses : ℕ

namespace ChunkCache

def new (maxBytes : ℕ) : ChunkCache := ⟨.empty, [], 0, maxBytes, .empty, 0, 0⟩

def countAccess (c : ChunkCache) (hash : ChunkHash) : Keyed ChunkHash ℕ :=
  c.seen.upsert hash 1 fun count => min (count + 1) 255

def get (c : ChunkCache) (hash : ChunkHash) : ChunkCache × Option (List UInt8) :=
  match c.entries.get hash with
  | some data => ({ c with hits := c.hits + 1 }, some data)
  | none => ({ c with misses := c.misses + 1, seen := c.countAccess hash }, none)

def evictFrom (c : ChunkCache) : List ChunkHash → ChunkCache × Bool
  | [] => ({ c with order := [] }, false)
  | hash :: order =>
    match c.entries.get hash with
    | some data =>
      ({ c with
          order
          entries := c.entries.erase hash
          currentBytes := c.currentBytes - data.length }, true)
    | none => evictFrom c order

def evictOne (c : ChunkCache) : ChunkCache × Bool := c.evictFrom c.order

theorem length_order_evictFrom {c : ChunkCache} {order : List ChunkHash}
    (h : (c.evictFrom order).2 = true) : (c.evictFrom order).1.order.length < order.length := by
  induction order with
  | nil => cases h
  | cons hash order ih =>
    unfold evictFrom at h ⊢
    cases hget : c.entries.get hash with
    | some data => exact Nat.lt_succ_self _
    | none =>
      rw [hget] at h
      exact (ih h).trans (Nat.lt_succ_self _)

def makeRoom (len : ℕ) (c : ChunkCache) : ChunkCache × Bool :=
  if c.maxBytes < c.currentBytes + len then
    if _h : c.evictOne.2 = true then makeRoom len c.evictOne.1 else (c.evictOne.1, false)
  else (c, true)
termination_by c.order.length
decreasing_by exact length_order_evictFrom _h

def keep (c : ChunkCache) (hash : ChunkHash) (data : List UInt8) : ChunkCache :=
  { c with
    currentBytes := c.currentBytes + data.length
    entries := c.entries.insert hash data
    order := c.order ++ [hash]
    seen := update c.seen hash none }

def insert (c : ChunkCache) (hash : ChunkHash) (data : List UInt8) : ChunkCache :=
  if (c.entries.get hash).isSome then c
  else if (c.seen hash).getD 0 < 1 then c
  else if c.maxBytes / 4 < data.length then c
  else
    match makeRoom data.length c with
    | (room, true) => room.keep hash data
    | (room, false) => room

inductive Call
  | get (hash : ChunkHash)
  | insert (hash : ChunkHash) (data : List UInt8)
  deriving DecidableEq

inductive Event
  | hit (hash : ChunkHash) (data : List UInt8)
  | missed (hash : ChunkHash)
  | admitted (hash : ChunkHash) (data : List UInt8)
  deriving DecidableEq

def perform (c : ChunkCache) : Call → ChunkCache × List Event
  | .get hash =>
    ((c.get hash).1,
      [match (c.get hash).2 with | some data => .hit hash data | none => .missed hash])
  | .insert hash data =>
    -- admitted is a chunk that was not cached before the call and is after it
    (c.insert hash data,
      if c.entries.get hash = none ∧ (c.insert hash data).entries.get hash ≠ none then
        [.admitted hash data] else [])

end ChunkCache

open ChunkCache

def chunkCache : Machine ChunkCache Call (List Event) := ⟨perform⟩

namespace ChunkCache

section Law

structure Bookkept (c : ChunkCache) : Prop where
  bytes : c.currentBytes = c.entries.total List.length
  capacity : c.currentBytes ≤ c.maxBytes
  nodup : c.order.Nodup
  cached : ∀ hash, hash ∈ c.order ↔ (c.entries.get hash).isSome

def countMiss (counts : ChunkHash → ℕ) : Event → ChunkHash → ℕ
  | .hit _ _ => counts
  | .missed hash => update counts hash (counts hash + 1)
  | .admitted hash _ => update counts hash 0

def missesSince (log : List Event) : ChunkHash → ℕ := log.foldl countMiss fun _ => 0

def AdmittedOnSecond (log : List Event) : Prop :=
  Checked countMiss (fun _ => 0)
    (fun counts e => ∀ hash data, e = .admitted hash data → 2 ≤ counts hash) log

def noteAdmitted (contents : Keyed ChunkHash (List UInt8)) : Event → Keyed ChunkHash (List UInt8)
  | .admitted hash data => update contents hash (some data)
  | _ => contents

def lastAdmitted (log : List Event) : Keyed ChunkHash (List UInt8) := log.foldl noteAdmitted .empty

def noteOffered (contents : Keyed ChunkHash (List UInt8)) : Call → Keyed ChunkHash (List UInt8)
  | .insert hash data => update contents hash (some data)
  | .get _ => contents

def lastOffered (calls : List Call) : Keyed ChunkHash (List UInt8) := calls.foldl noteOffered .empty

def HitsCurrent (calls : List Call) (c : ChunkCache) : Prop :=
  ∀ hash data, (c.get hash).2 = some data → lastOffered calls hash = some data

/-- A chunk that is not cached and not too large is not inserted after just one miss. -/
def NotAfterOneMiss (c : ChunkCache) : Call → Prop
  | .get _ => True
  | .insert hash data =>
    c.entries.get hash = none → data.length ≤ c.maxBytes / 4 → (c.seen hash).getD 0 ≠ 1

/-- An insert of a cached chunk carries the cached bytes. -/
def SameBytes (c : ChunkCache) : Call → Prop
  | .get _ => True
  | .insert hash data => ∀ cached, c.entries.get hash = some cached → data = cached

end Law

section Steps

variable {c : ChunkCache}

theorem bookkept_new (maxBytes : ℕ) : Bookkept (new maxBytes) where
  bytes := rfl
  capacity := Nat.zero_le _
  nodup := .nil
  cached _ := by simp [new]

theorem Bookkept.evictOne (h : Bookkept c) :
    (c.order = [] ∧ c.evictOne = (c, false)) ∨
      ∃ evicted, Bookkept evicted ∧ c.evictOne = (evicted, true) ∧
        evicted.maxBytes = c.maxBytes ∧ evicted.seen = c.seen ∧
        ∀ hash data, evicted.entries.get hash = some data → c.entries.get hash = some data := by
  cases horder : c.order with
  | nil =>
    left
    have hsame : { c with order := [] } = c := by rw [← horder]
    exact ⟨rfl, by rw [ChunkCache.evictOne, horder, evictFrom, hsame]⟩
  | cons hash order =>
    right
    obtain ⟨hhash, hnodup⟩ := nodup_cons.1 (horder ▸ h.nodup)
    obtain ⟨data, hdata⟩ := Option.isSome_iff_exists.1 ((h.cached hash).1 (by simp [horder]))
    have htotal : (c.entries.erase hash).total List.length + data.length = c.currentBytes :=
      (Table.total_erase hdata).trans h.bytes.symm
    refine ⟨{ c with order, entries := c.entries.erase hash,
                     currentBytes := c.currentBytes - data.length }, ?_, ?_, rfl, rfl, ?_⟩
    · constructor
      · exact (Nat.eq_sub_of_add_eq htotal).symm
      · exact (Nat.sub_le ..).trans h.capacity
      · exact hnodup
      · intro other
        dsimp only
        rw [Table.get_erase]
        split_ifs with heq
        · simp [heq, hhash]
        · rw [← h.cached, horder, mem_cons, or_iff_right heq]
    · rw [ChunkCache.evictOne, horder, evictFrom, hdata]
    · intro other bytes hget
      dsimp only at hget
      exact Table.get_of_erase hget

theorem Bookkept.makeRoom (h : Bookkept c) {len : ℕ} (hlen : len ≤ c.maxBytes) :
    ∃ roomy, Bookkept roomy ∧ makeRoom len c = (roomy, true) ∧
      roomy.currentBytes + len ≤ c.maxBytes ∧ roomy.maxBytes = c.maxBytes ∧ roomy.seen = c.seen ∧
      ∀ hash data, roomy.entries.get hash = some data → c.entries.get hash = some data := by
  fun_induction ChunkCache.makeRoom len c with
  | case1 c hfull hevict ih =>
    obtain ⟨-, hfail⟩ | ⟨evicted, hkept, hevicted, hmax, hseen, hentries⟩ := h.evictOne
    · rw [hfail] at hevict
      cases hevict
    · rw [hevicted] at ih ⊢
      obtain ⟨roomy, hroomy, heq, hfits, hmax', hseen', hentries'⟩ := ih hkept (hmax ▸ hlen)
      exact ⟨roomy, hroomy, heq, hmax ▸ hfits, hmax'.trans hmax, hseen'.trans hseen,
        fun hash data hget => hentries hash data (hentries' hash data hget)⟩
  | case2 c hfull hevict =>
    obtain ⟨horder, -⟩ | ⟨evicted, -, hevicted, -⟩ := h.evictOne
    · -- an empty cache has room
      have hempty : c.entries.entries = [] := by
        apply Table.entries_eq_nil
        intro hash
        have hnone := (h.cached hash).not.1 (by simp [horder])
        simpa using hnone
      have hzero : c.currentBytes = 0 := by
        rw [h.bytes, Table.total, Table.values, hempty]
        rfl
      omega
    · rw [hevicted] at hevict
      exact absurd rfl hevict
  | case3 c hfull =>
    exact ⟨c, h, rfl, Nat.not_lt.1 hfull, rfl, rfl, fun _ _ hget => hget⟩

theorem Bookkept.keep (h : Bookkept c) {hash : ChunkHash} {data : List UInt8}
    (hnew : c.entries.get hash = none) (hfits : c.currentBytes + data.length ≤ c.maxBytes) :
    Bookkept (c.keep hash data) where
  bytes := by
    show c.currentBytes + data.length = (c.entries.insert hash data).total List.length
    rw [h.bytes, Table.total_insert data hnew]
  capacity := hfits
  nodup := by
    have hfresh : hash ∉ c.order := by simp [h.cached, hnew]
    have hnodup := (nodup_concat c.order hash).2 ⟨hfresh, h.nodup⟩
    rwa [concat_eq_append] at hnodup
  cached other := by
    show other ∈ c.order ++ [hash] ↔ ((c.entries.insert hash data).get other).isSome
    rw [mem_append, h.cached, mem_singleton, Table.get_insert]
    split_ifs with heq <;> simp [heq]

inductive Performed (c : ChunkCache) : Call → ChunkCache × List Event → Prop
  | hit {hash : ChunkHash} {data : List UInt8} (hget : c.entries.get hash = some data) :
    Performed c (.get hash) ({ c with hits := c.hits + 1 }, [.hit hash data])
  | missed {hash : ChunkHash} (hget : c.entries.get hash = none) :
    Performed c (.get hash)
      ({ c with misses := c.misses + 1, seen := c.countAccess hash }, [.missed hash])
  | skipped {hash : ChunkHash} {data : List UInt8}
    (hwhy : c.entries.get hash = none → data.length ≤ c.maxBytes / 4 → (c.seen hash).getD 0 = 0) :
    Performed c (.insert hash data) (c, [])
  | admitted {hash : ChunkHash} {data : List UInt8} {c' : ChunkCache}
    (hnew : c.entries.get hash = none) (hseen : 1 ≤ (c.seen hash).getD 0)
    (hsmall : data.length ≤ c.maxBytes / 4) (hkept : Bookkept c')
    (hseen' : c'.seen = update c.seen hash none) (hdata : c'.entries.get hash = some data)
    (hothers : ∀ other bytes, other ≠ hash → c'.entries.get other = some bytes →
      c.entries.get other = some bytes) :
    Performed c (.insert hash data) (c', [.admitted hash data])

theorem Performed.of_skipped {hash : ChunkHash} {data : List UInt8} (h : c.insert hash data = c)
    (hwhy : c.entries.get hash = none → data.length ≤ c.maxBytes / 4 → (c.seen hash).getD 0 = 0) :
    Performed c (.insert hash data) (c.perform (.insert hash data)) := by
  have hperform : c.perform (.insert hash data) = (c, []) := by
    simp only [perform, h]
    rw [if_neg fun hboth => hboth.2 hboth.1]
  rw [hperform]
  exact .skipped hwhy

theorem Bookkept.perform (h : Bookkept c) (call : Call) : Performed c call (c.perform call) := by
  cases call with
  | get hash =>
    cases hget : c.entries.get hash with
    | some data =>
      simp only [ChunkCache.perform, ChunkCache.get, hget]
      exact .hit hget
    | none =>
      simp only [ChunkCache.perform, ChunkCache.get, hget]
      exact .missed hget
  | insert hash data =>
    by_cases hcached : (c.entries.get hash).isSome
    · refine .of_skipped (if_pos hcached) fun hnone => ?_
      rw [hnone] at hcached
      cases hcached
    by_cases hseen : (c.seen hash).getD 0 < 1
    · refine .of_skipped ?_ fun _ _ => Nat.lt_one_iff.1 hseen
      rw [insert, if_neg hcached, if_pos hseen]
    by_cases hlarge : c.maxBytes / 4 < data.length
    · refine .of_skipped ?_ fun _ hsmall => absurd hsmall (Nat.not_le.2 hlarge)
      rw [insert, if_neg hcached, if_neg hseen, if_pos hlarge]
    have hnew : c.entries.get hash = none := Option.not_isSome_iff_eq_none.1 hcached
    have hsmall : data.length ≤ c.maxBytes / 4 := Nat.not_lt.1 hlarge
    obtain ⟨room, hkept, hroom, hfits, hmax, hseen', hentries⟩ :=
      h.makeRoom (hsmall.trans (Nat.div_le_self ..))
    have hinsert : c.insert hash data = room.keep hash data := by
      rw [insert, if_neg hcached, if_neg hseen, if_neg hlarge, hroom]
    have hgone : room.entries.get hash = none := by
      rw [Option.eq_none_iff_forall_ne_some]
      intro bytes hget
      rw [hentries hash bytes hget] at hnew
      cases hnew
    have hdata : (room.keep hash data).entries.get hash = some data :=
      (Table.get_insert ..).trans (if_pos rfl)
    have hperform :
        c.perform (.insert hash data) = (room.keep hash data, [.admitted hash data]) := by
      simp only [ChunkCache.perform, hinsert]
      rw [if_pos ⟨hnew, by rw [hdata]; exact Option.some_ne_none data⟩]
    rw [hperform]
    refine .admitted hnew (Nat.not_lt.1 hseen) hsmall (hkept.keep hgone (hmax ▸ hfits))
      (by rw [← hseen']; rfl) hdata fun other bytes hne hget => ?_
    replace hget : (room.entries.insert hash data).get other = some bytes := hget
    rw [Table.get_insert, if_neg hne] at hget
    exact hentries other bytes hget

structure Sound (log : List Event) (c : ChunkCache) : Prop where
  kept : Bookkept c
  seen : ∀ hash, (c.seen hash).getD 0 = min (missesSince log hash) 255
  contents : ∀ hash data, c.entries.get hash = some data → lastAdmitted log hash = some data

theorem missesSince_concat (log : List Event) (e : Event) :
    missesSince (log ++ [e]) = countMiss (missesSince log) e := foldl_concat ..

theorem lastAdmitted_concat (log : List Event) (e : Event) :
    lastAdmitted (log ++ [e]) = noteAdmitted (lastAdmitted log) e := foldl_concat ..

theorem seen_countAccess {counts : ChunkHash → ℕ} (hash : ChunkHash)
    (h : ∀ hash, (c.seen hash).getD 0 = min (counts hash) 255) (other : ChunkHash) :
    (c.countAccess hash other).getD 0 =
      min (update counts hash (counts hash + 1) other) 255 := by
  have hother := h other
  unfold countAccess Keyed.upsert
  by_cases heq : other = hash
  · subst heq
    rw [if_pos rfl, update_self]
    cases hseen : c.seen other with
    | none =>
      rw [hseen, Option.getD_none] at hother
      simp only [Option.elim_none, Option.getD_some]
      omega
    | some count =>
      rw [hseen, Option.getD_some] at hother
      simp only [Option.elim_some, Option.getD_some]
      omega
  · rw [if_neg heq, update_of_ne heq, hother]

theorem Sound.perform {log : List Event} (h : Sound log c) (call : Call) :
    Sound (log ++ (c.perform call).2) (c.perform call).1 := by
  have hcases := h.kept.perform call
  generalize c.perform call = after at hcases ⊢
  cases hcases with
  | hit hget =>
    refine ⟨{ h.kept with }, ?_, ?_⟩
    · rw [missesSince_concat]
      exact h.seen
    · rw [lastAdmitted_concat]
      exact h.contents
  | missed hget =>
    refine ⟨{ h.kept with }, ?_, ?_⟩
    · rw [missesSince_concat]
      exact seen_countAccess _ h.seen
    · rw [lastAdmitted_concat]
      exact h.contents
  | skipped _ =>
    rw [append_nil]
    exact h
  | @admitted hash data c' hnew hseen hsmall hkept hseen' hdata hothers =>
    refine ⟨hkept, fun other => ?_, fun other bytes hget => ?_⟩
    · rw [missesSince_concat]
      show (c'.seen other).getD 0 = min (update (missesSince log) hash 0 other) 255
      rw [hseen']
      by_cases heq : other = hash
      · subst heq
        rw [update_self, update_self]
        rfl
      · rw [update_of_ne heq, update_of_ne heq, h.seen]
    · rw [lastAdmitted_concat]
      show update (lastAdmitted log) hash (some data) other = some bytes
      by_cases heq : other = hash
      · subst heq
        rw [update_self, ← hdata, hget]
      · rw [update_of_ne heq]
        exact h.contents other bytes (hothers other bytes heq hget)

theorem sound_final (maxBytes : ℕ) (calls : List Call) :
    Sound (chunkCache.log (.new maxBytes) calls) (chunkCache.final (.new maxBytes) calls) := by
  refine chunkCache.final_log (fun log c call h => h.perform call) ?_ calls
  exact ⟨bookkept_new maxBytes, fun _ => rfl, fun hash data hget => by cases hget⟩

/-! ## Admission -/

theorem admittedOnSecond_concat (log : List Event) (c : ChunkCache) (call : Call)
    (h : Sound log c) :
    AdmittedOnSecond (log ++ (c.perform call).2) ↔
      AdmittedOnSecond log ∧ NotAfterOneMiss c call := by
  have hcases := h.kept.perform call
  generalize c.perform call = after at hcases ⊢
  unfold AdmittedOnSecond
  cases hcases with
  | hit hget | missed hget =>
    rw [checked_concat]
    exact and_congr_right fun _ => iff_of_true (fun _ _ heq => by cases heq) trivial
  | skipped hwhy =>
    rw [append_nil]
    refine (and_iff_left fun hnew hsmall => ?_).symm
    rw [hwhy hnew hsmall]
    exact Nat.zero_ne_one
  | @admitted hash data c' hnew hseen hsmall hkept hseen' hdata hothers =>
    rw [checked_concat]
    refine and_congr_right fun _ => ?_
    have hcount : (c.seen hash).getD 0 = min (missesSince log hash) 255 := h.seen hash
    constructor
    · intro htwice _ _
      -- the counter saturates, but not below two
      have hmisses : 2 ≤ missesSince log hash := htwice hash data rfl
      omega
    · rintro hone _ _ ⟨rfl, rfl⟩
      show 2 ≤ missesSince log hash
      have := hone hnew hsmall
      omega

theorem admittedOnSecond_iff (maxBytes : ℕ) (calls : List Call) :
    AdmittedOnSecond (chunkCache.log (.new maxBytes) calls) ↔
      chunkCache.Meets NotAfterOneMiss (.new maxBytes) calls := by
  refine chunkCache.log_iff_meets (fun log c call h => h.perform call) admittedOnSecond_concat
    ?_ checked_nil calls
  exact ⟨bookkept_new maxBytes, fun _ => rfl, fun hash data hget => by cases hget⟩

theorem missesSince_le_count (maxBytes : ℕ) (calls : List Call) (hash : ChunkHash) :
    missesSince (chunkCache.log (.new maxBytes) calls) hash ≤ calls.count (.get hash) := by
  induction calls using List.reverseRecOn with
  | nil => exact Nat.zero_le _
  | append_singleton calls call ih =>
    have hcases := (sound_final maxBytes calls).kept.perform call
    rw [Machine.log_concat, count_append]
    change missesSince (_ ++ (ChunkCache.perform _ call).2) hash ≤ _
    generalize ChunkCache.perform _ call = after at hcases ⊢
    cases hcases with
    | hit hget =>
      rw [missesSince_concat]
      exact ih.trans (Nat.le_add_right ..)
    | @missed other hget =>
      rw [missesSince_concat]
      show update (missesSince _) other _ hash ≤ _
      by_cases heq : hash = other
      · subst heq
        rw [update_self, count_singleton_self]
        exact Nat.add_le_add_right ih 1
      · rw [update_of_ne heq]
        exact ih.trans (Nat.le_add_right ..)
    | skipped _ =>
      rw [append_nil]
      exact ih.trans (Nat.le_add_right ..)
    | @admitted other data c' hnew hseen hsmall hkept hseen' hdata hothers =>
      rw [missesSince_concat]
      show update (missesSince _) other 0 hash ≤ _
      by_cases heq : hash = other
      · subst heq
        rw [update_self]
        exact Nat.zero_le _
      · rw [update_of_ne heq]
        exact ih.trans (Nat.le_add_right ..)

theorem entries_scan {maxBytes : ℕ} {before scan : List Call}
    (h : AdmittedOnSecond (chunkCache.log (.new maxBytes) (before ++ scan)))
    (hnew : ∀ hash data, .insert hash data ∈ scan → (before ++ scan).count (.get hash) ≤ 1) :
    (chunkCache.final (.new maxBytes) (before ++ scan)).entries =
      (chunkCache.final (.new maxBytes) before).entries := by
  induction scan using List.reverseRecOn with
  | nil => rw [append_nil]
  | append_singleton scan call ih =>
    rw [← append_assoc] at h hnew ⊢
    have hsound := sound_final maxBytes (before ++ scan)
    have hmisses := missesSince_le_count maxBytes (before ++ scan)
    rw [Machine.log_concat] at h
    obtain ⟨hbefore, hlast⟩ := (admittedOnSecond_concat _ _ call hsound).1 h
    rw [Machine.final_append]
    refine Eq.trans ?_ (ih hbefore fun hash data hmem => ?_)
    · have hcases := hsound.kept.perform call
      change (ChunkCache.perform _ call).1.entries = _
      generalize ChunkCache.perform _ call = after at hcases ⊢
      cases hcases with
      | hit _ | missed _ | skipped _ => rfl
      | @admitted hash data c' hget hseen hsmall hkept hseen' hdata hothers =>
        -- it was missed exactly once, which the law excludes
        have honce := hnew hash data (by simp)
        have hcount := hsound.seen hash
        have hone := hlast hget hsmall
        have hle := (hmisses hash).trans (((sublist_append_left ..).count_le _).trans honce)
        omega
    · exact ((sublist_append_left ..).count_le _).trans
        (hnew hash data (mem_append_left _ hmem))

/-! ## Hits -/

theorem get_snd (c : ChunkCache) (hash : ChunkHash) : (c.get hash).2 = c.entries.get hash := by
  unfold ChunkCache.get
  cases hget : c.entries.get hash <;> rfl

theorem hitsCurrent_concat {log : List Event} (hsound : Sound log c) {calls : List Call}
    (h : HitsCurrent calls c) (call : Call) :
    HitsCurrent (calls ++ [call]) (c.perform call).1 ↔ SameBytes c call := by
  have hcases := hsound.kept.perform call
  have hoffered : lastOffered (calls ++ [call]) = noteOffered (lastOffered calls) call :=
    foldl_concat ..
  generalize c.perform call = after at hcases ⊢
  simp only [HitsCurrent, get_snd, hoffered] at h ⊢
  cases hcases with
  | hit _ | missed _ => exact iff_of_true h trivial
  | @skipped other bytes _ =>
    show (∀ hash data, c.entries.get hash = some data →
      update (lastOffered calls) other (some bytes) hash = some data) ↔ _
    constructor
    · intro hupdated cached hget
      have hsame := hupdated other cached hget
      rw [update_self] at hsame
      exact Option.some.inj hsame
    · intro hsame hash data hget
      by_cases heq : hash = other
      · subst heq
        rw [update_self, hsame data hget]
      · rw [update_of_ne heq]
        exact h hash data hget
  | @admitted other bytes c' hnew hseen hsmall hkept hseen' hdata hothers =>
    refine iff_of_true (fun hash data hget => ?_) fun cached hget => ?_
    · show update (lastOffered calls) other (some bytes) hash = some data
      by_cases heq : hash = other
      · subst heq
        rw [update_self, ← hdata, hget]
      · rw [update_of_ne heq]
        exact h hash data (hothers hash data heq hget)
    · rw [hnew] at hget
      cases hget

theorem lawful_iff (maxBytes : ℕ) (calls : List Call) :
    (∀ before, before <+: calls → AdmittedOnSecond (chunkCache.log (.new maxBytes) before) ∧
        HitsCurrent before (chunkCache.final (.new maxBytes) before)) ↔
      chunkCache.Meets (fun c call => NotAfterOneMiss c call ∧ SameBytes c call)
        (.new maxBytes) calls := by
  refine chunkCache.forall_prefix_iff_meets ⟨checked_nil, fun hash data hget => by cases hget⟩
    (fun before call h => ?_) calls
  have hsound := sound_final maxBytes before
  rw [Machine.log_concat, Machine.final_append]
  refine and_congr ?_ (hitsCurrent_concat hsound h.2 call)
  exact (admittedOnSecond_concat _ _ call hsound).trans (and_iff_right h.1)

end Steps

/-- **Bookkeeping of the chunk cache.** In every run the counters and the order describe the cached
chunks and a hit returns the bytes last admitted. All along the run chunks are admitted on their
second request and hits return the bytes last inserted exactly when no chunk is inserted after just
one miss and none that is cached is inserted with other bytes; a scan of new chunks then changes
nothing. -/
theorem chunk_cache_law (maxBytes : ℕ) (calls : List Call) :
    let log := chunkCache.log (.new maxBytes) calls
    let final := chunkCache.final (.new maxBytes) calls
    Bookkept final ∧
      (∀ hash data, (final.get hash).2 = some data → lastAdmitted log hash = some data) ∧
      ((∀ before, before <+: calls → AdmittedOnSecond (chunkCache.log (.new maxBytes) before) ∧
          HitsCurrent before (chunkCache.final (.new maxBytes) before)) ↔
        chunkCache.Meets (fun c call => NotAfterOneMiss c call ∧ SameBytes c call)
          (.new maxBytes) calls) ∧
      (AdmittedOnSecond log ↔ chunkCache.Meets NotAfterOneMiss (.new maxBytes) calls) ∧
      (AdmittedOnSecond log → ∀ before scan, before ++ scan = calls →
        (∀ hash data, .insert hash data ∈ scan → calls.count (.get hash) ≤ 1) →
          final.entries = (chunkCache.final (.new maxBytes) before).entries) := by
  intro log final
  have hsound : Sound log final := sound_final maxBytes calls
  refine ⟨hsound.kept, ?_, lawful_iff maxBytes calls, admittedOnSecond_iff maxBytes calls, ?_⟩
  · intro hash data hget
    rw [get_snd] at hget
    exact hsound.contents hash data hget
  · rintro hsecond before scan rfl hnew
    exact entries_scan hsecond hnew

/-- One pass over five new chunks: each is admitted on its first request, and the last one evicts
the first. -/
theorem single_scan_evicts :
    let scan := ([1, 2, 3, 4, 5] : List ChunkHash).flatMap fun hash =>
      [.get hash, .insert hash [7]]
    (chunkCache.final (.new 4) (scan.take 8)).order = [1, 2, 3, 4] ∧
      (chunkCache.final (.new 4) scan).order = [2, 3, 4, 5] ∧
      ¬ AdmittedOnSecond (chunkCache.log (.new 4) scan) := by
  refine ⟨by decide +kernel, by decide +kernel, fun h => ?_⟩
  have htwice := h [.missed 1] (.admitted 1 [7]) (by decide +kernel) 1 [7] rfl
  revert htwice
  decide +kernel

end ChunkCache

end Sentinel.Fs

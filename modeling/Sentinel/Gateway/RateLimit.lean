import Mathlib.Data.Rat.Floor
import Mathlib.Data.Fintype.EquivFin
import Mathlib.Data.String.Basic
import Sentinel.Lib.Clock
import Sentinel.Lib.Machine
import Sentinel.Lib.Table

/-! The rate limiter of the gateway (`cortex-gateway`, `guardrails/ratelimit.go`): one token bucket
for all calls and one for each agent, with tokens as exact rationals. A run is a list of calls made
at one instant. -/

namespace Sentinel.Gateway
open Lib

structure Bucket where
  tokens : ℚ
  max : ℚ
  rate : ℚ
  lastCheck : ℤ

namespace Bucket

def newBucket (callsPerMin burstMultiple : ℤ) (now : ℤ) : Bucket :=
  let rate := (callsPerMin : ℚ) / 60
  let max := if rate * burstMultiple < 1 then 1 else rate * burstMultiple
  ⟨max, max, rate, now⟩

def refilled (b : Bucket) (now : ℤ) : ℚ :=
  let elapsed := (timeSub now b.lastCheck : ℚ) / 1000000000
  let tokens := b.tokens + elapsed * b.rate
  if b.max < tokens then b.max else tokens

def allow (b : Bucket) (now : ℤ) : Bucket × Bool :=
  let b := { b with tokens := b.refilled now, lastCheck := now }
  if b.tokens < 1 then (b, false) else ({ b with tokens := b.tokens - 1 }, true)

end Bucket

structure RateLimiter where
  perAgent : Table String Bucket
  global : Bucket
  agentRPM : ℤ
  globalRPM : ℤ
  burstMultiple : ℤ

namespace RateLimiter

def newRateLimiter (agentCallsPerMin globalCallsPerMin burstMultiple now : ℤ) : RateLimiter :=
  let burstMultiple := if burstMultiple ≤ 0 then 2 else burstMultiple
  ⟨Table.empty, Bucket.newBucket globalCallsPerMin burstMultiple now, agentCallsPerMin,
    globalCallsPerMin, burstMultiple⟩

def bucketOf (rl : RateLimiter) (agentID : String) (now : ℤ) : Bucket :=
  (rl.perAgent.get agentID).getD (Bucket.newBucket rl.agentRPM rl.burstMultiple now)

def Limited (rl : RateLimiter) (agentID : String) : Prop := agentID ≠ "" ∧ 0 < rl.agentRPM

instance (rl : RateLimiter) (agentID : String) : Decidable (rl.Limited agentID) :=
  inferInstanceAs (Decidable (_ ∧ _))

def allow (rl : RateLimiter) (agentID : String) (now : ℤ) : RateLimiter × Bool × String :=
  let (global, globally) := rl.global.allow now
  if !globally then ({ rl with global := global }, false, "global")
  else if rl.Limited agentID then
    let (bucket, locally) := (rl.bucketOf agentID now).allow now
    ({ rl with global := global, perAgent := rl.perAgent.insert agentID bucket },
      if !locally then (false, "per_agent") else (true, ""))
  else ({ rl with global := global }, true, "")

def machine (now : ℤ) : Machine RateLimiter String (Bool × String) where
  call rl agentID := rl.allow agentID now

def allowed (now : ℤ) (rl : RateLimiter) (calls : List String) : ℕ :=
  ((machine now).trace rl calls).countP fun call => call.2.1

def allowedOf (now : ℤ) (rl : RateLimiter) (agentID : String) (calls : List String) : ℕ :=
  ((machine now).trace rl calls).countP fun call => call.1 = agentID ∧ call.2.1

/-- The greatest number of further calls that agents other than the given one can make now. -/
def OthersCanMake (now : ℤ) (rl : RateLimiter) (agentID : String) (n : ℕ) : Prop :=
  IsGreatest { k | ∃ calls, (∀ c ∈ calls, c ≠ agentID ∧ c ≠ "") ∧ allowed now rl calls = k } n

def Isolates (now : ℤ) (rl : RateLimiter) (agentID : String) : Prop :=
  (rl.allow agentID now).2 = (false, "per_agent") →
    ∀ n, OthersCanMake now (rl.allow agentID now).1 agentID n ↔ OthersCanMake now rl agentID n

def HasToken (now : ℤ) (rl : RateLimiter) (agentID : String) : Prop :=
  rl.global.refilled now < 1 ∨ ¬ rl.Limited agentID ∨ 1 ≤ (rl.bucketOf agentID now).refilled now

end RateLimiter

/-! ### One bucket at one instant -/

namespace Bucket

variable {b : Bucket} {now : ℤ}

theorem refilled_of_lastCheck (hlast : b.lastCheck = now) (hmax : b.tokens ≤ b.max) :
    b.refilled now = b.tokens := by
  unfold refilled
  have hnot : ¬ b.max < b.tokens := not_lt.2 hmax
  simp [hlast, timeSub, hnot]

theorem refilled_le_max : b.refilled now ≤ b.max := by
  unfold refilled
  dsimp only
  split
  · exact le_rfl
  · exact not_lt.1 ‹_›

theorem refilled_newBucket (callsPerMin burstMultiple : ℤ) :
    1 ≤ (newBucket callsPerMin burstMultiple now).refilled now := by
  have hfull : (newBucket callsPerMin burstMultiple now).refilled now =
      (newBucket callsPerMin burstMultiple now).max := refilled_of_lastCheck rfl le_rfl
  rw [hfull]
  unfold newBucket
  dsimp only
  split
  · exact le_rfl
  · exact not_lt.1 ‹_›

theorem allow_eq_true_iff : (b.allow now).2 = true ↔ 1 ≤ b.refilled now := by
  unfold allow
  dsimp only
  split <;> simp_all

theorem refilled_allow :
    (b.allow now).1.refilled now = b.refilled now - if (b.allow now).2 then 1 else 0 := by
  have hmax : b.refilled now ≤ b.max := refilled_le_max
  unfold allow
  dsimp only
  split
  · rw [refilled_of_lastCheck rfl hmax]
    simp
  · rw [refilled_of_lastCheck rfl (by linarith : b.refilled now - 1 ≤ b.max)]
    simp

theorem floor_refilled_allow (b : Bucket) (now : ℤ) :
    ⌊(b.allow now).1.refilled now⌋₊ + (if (b.allow now).2 then 1 else 0) = ⌊b.refilled now⌋₊ := by
  rw [refilled_allow]
  by_cases h : (b.allow now).2 = true
  · have hpos : 1 ≤ b.refilled now := allow_eq_true_iff.1 h
    have hfloor : 1 ≤ ⌊b.refilled now⌋₊ := Nat.le_floor (by simpa using hpos)
    simp only [h, if_true, Nat.floor_sub_one]
    omega
  · simp [h]

end Bucket

/-! ### Calls at one instant -/

namespace RateLimiter

variable {rl : RateLimiter} {now : ℤ} {agentID c : String}

theorem allow_cases (rl : RateLimiter) (agentID : String) (now : ℤ) :
    (rl.global.refilled now < 1 ∧
      rl.allow agentID now = ({ rl with global := (rl.global.allow now).1 }, false, "global")) ∨
    (1 ≤ rl.global.refilled now ∧ rl.Limited agentID ∧
      rl.allow agentID now =
        ({ rl with
            global := (rl.global.allow now).1
            perAgent := rl.perAgent.insert agentID ((rl.bucketOf agentID now).allow now).1 },
          if 1 ≤ (rl.bucketOf agentID now).refilled now then (true, "")
          else (false, "per_agent"))) ∨
    (1 ≤ rl.global.refilled now ∧ ¬ rl.Limited agentID ∧
      rl.allow agentID now = ({ rl with global := (rl.global.allow now).1 }, true, "")) := by
  unfold allow
  by_cases hglobal : 1 ≤ rl.global.refilled now
  · have hg : (rl.global.allow now).2 = true := Bucket.allow_eq_true_iff.2 hglobal
    by_cases hlimited : rl.Limited agentID
    · refine .inr (.inl ⟨hglobal, hlimited, ?_⟩)
      simp only [hg, hlimited, ← Bucket.allow_eq_true_iff]
      cases ((rl.bucketOf agentID now).allow now).2 <;> rfl
    · refine .inr (.inr ⟨hglobal, hlimited, ?_⟩)
      simp [hg, hlimited]
  · have hg : (rl.global.allow now).2 = false :=
      Bool.eq_false_iff.2 fun h => hglobal (Bucket.allow_eq_true_iff.1 h)
    exact .inl ⟨not_le.1 hglobal, by simp [hg]⟩

theorem allow_global : (rl.allow agentID now).1.global = (rl.global.allow now).1 := by
  rcases rl.allow_cases agentID now with ⟨-, h⟩ | ⟨-, -, h⟩ | ⟨-, -, h⟩ <;> rw [h]

theorem floor_global_allow : ⌊(rl.allow agentID now).1.global.refilled now⌋₊ =
    ⌊rl.global.refilled now⌋₊ - if 1 ≤ rl.global.refilled now then 1 else 0 := by
  have hfloor := Bucket.floor_refilled_allow rl.global now
  simp only [Bucket.allow_eq_true_iff] at hfloor
  rw [allow_global]
  omega

theorem allowed_cons (calls : List String) : allowed now rl (c :: calls) =
    allowed now (rl.allow c now).1 calls + if (rl.allow c now).2.1 then 1 else 0 := by
  simp [allowed, machine, List.countP_cons]

theorem allowed_le_global (calls : List String) :
    allowed now rl calls ≤ ⌊rl.global.refilled now⌋₊ := by
  induction calls generalizing rl with
  | nil => exact Nat.zero_le _
  | cons c calls ih =>
    have hrest : allowed now (rl.allow c now).1 calls ≤ _ := ih
    rw [floor_global_allow] at hrest
    rw [allowed_cons]
    by_cases hglobal : 1 ≤ rl.global.refilled now
    · have hpos : 1 ≤ ⌊rl.global.refilled now⌋₊ := Nat.le_floor (by simpa using hglobal)
      rw [if_pos hglobal] at hrest
      split <;> omega
    · have hrefused : (rl.allow c now).2.1 = false := by
        rcases rl.allow_cases c now with ⟨-, h⟩ | ⟨hle, -, -⟩ | ⟨hle, -, -⟩
        · rw [h]
        · exact absurd hle hglobal
        · exact absurd hle hglobal
      simpa [hrefused, hglobal] using hrest

theorem bucketOf_allow : (rl.allow c now).1.bucketOf agentID now =
    if c = agentID ∧ 1 ≤ rl.global.refilled now ∧ rl.Limited c then
      ((rl.bucketOf c now).allow now).1
    else rl.bucketOf agentID now := by
  rcases rl.allow_cases c now with ⟨hlt, h⟩ | ⟨hle, hlimited, h⟩ | ⟨-, hnot, h⟩
  · rw [h, if_neg fun hcond => absurd hcond.2.1 (not_le.2 hlt)]
    rfl
  · rw [h]
    by_cases hc : c = agentID
    · simp [hc, hle, hc ▸ hlimited, bucketOf, Table.get_insert]
    · simp [hc, Ne.symm hc, bucketOf, Table.get_insert]
  · rw [h, if_neg fun hcond => hnot hcond.2.2]
    rfl

theorem limited_allow : (rl.allow c now).1.Limited agentID ↔ rl.Limited agentID := by
  rcases rl.allow_cases c now with ⟨-, h⟩ | ⟨-, -, h⟩ | ⟨-, -, h⟩ <;> rw [h] <;> rfl

theorem allowedOf_cons (calls : List String) : allowedOf now rl agentID (c :: calls) =
    allowedOf now (rl.allow c now).1 agentID calls +
      if c = agentID ∧ (rl.allow c now).2.1 then 1 else 0 := by
  simp [allowedOf, machine, List.countP_cons]

theorem allowedOf_le_agent (hlimited : rl.Limited agentID) (calls : List String) :
    allowedOf now rl agentID calls ≤ ⌊(rl.bucketOf agentID now).refilled now⌋₊ := by
  induction calls generalizing rl with
  | nil => exact Nat.zero_le _
  | cons c calls ih =>
    have hrest := ih (limited_allow.2 hlimited : (rl.allow c now).1.Limited agentID)
    rw [bucketOf_allow] at hrest
    rw [allowedOf_cons]
    by_cases hc : c = agentID
    · subst hc
      have hfloor := Bucket.floor_refilled_allow (rl.bucketOf c now) now
      simp only [Bucket.allow_eq_true_iff] at hfloor
      rcases rl.allow_cases c now with ⟨hlt, h⟩ | ⟨hle, -, h⟩ | ⟨-, hnot, -⟩
      · simpa [h, not_le.2 hlt] using hrest
      · rw [if_pos ⟨rfl, hle, hlimited⟩] at hrest
        by_cases hagent : 1 ≤ (rl.bucketOf c now).refilled now
        · rw [if_pos hagent] at hfloor
          split <;> omega
        · have hrefused : (rl.allow c now).2.1 = false := by
            rw [h]
            simp [hagent]
          rw [if_neg hagent] at hfloor
          simp only [hrefused, Bool.false_eq_true, and_false, if_false]
          omega
      · exact absurd hlimited hnot
    · simpa [hc] using hrest

/-! ### What is left for the other agents -/

theorem allow_new_agent (hnew : rl.perAgent.get agentID = none)
    (hglobal : 1 ≤ rl.global.refilled now) : (rl.allow agentID now).2.1 = true := by
  have hagent : 1 ≤ (rl.bucketOf agentID now).refilled now := by
    simpa [bucketOf, hnew] using Bucket.refilled_newBucket rl.agentRPM rl.burstMultiple
  rcases rl.allow_cases agentID now with ⟨hlt, -⟩ | ⟨-, -, h⟩ | ⟨-, -, h⟩
  · exact absurd hglobal (not_le.2 hlt)
  · rw [h]
    simp [hagent]
  · rw [h]

theorem exists_new_agent (rl : RateLimiter) (agentID : String) :
    ∃ c, rl.perAgent.get c = none ∧ c ≠ agentID ∧ c ≠ "" := by
  obtain ⟨c, hc⟩ := Infinite.exists_notMem_finset
    (agentID :: "" :: rl.perAgent.entries.map Prod.fst).toFinset
  simp only [List.toFinset_cons, Finset.mem_insert, List.mem_toFinset, Table.mem_keys, not_or,
    not_not] at hc
  exact ⟨c, hc.2.2, hc.1, hc.2.1⟩

theorem exists_calls_of_others (n : ℕ) (hn : n ≤ ⌊rl.global.refilled now⌋₊) :
    ∃ calls, (∀ c ∈ calls, c ≠ agentID ∧ c ≠ "") ∧ allowed now rl calls = n := by
  induction n generalizing rl with
  | zero => exact ⟨[], by simp, rfl⟩
  | succ n ih =>
    have hglobal : 1 ≤ rl.global.refilled now := by
      simpa using (Nat.le_floor_iff' (Nat.succ_ne_zero 0)).1 ((Nat.le_add_left 1 n).trans hn)
    obtain ⟨c, hnew, hne⟩ := rl.exists_new_agent agentID
    have hleft : n ≤ ⌊(rl.allow c now).1.global.refilled now⌋₊ := by
      rw [floor_global_allow, if_pos hglobal]
      omega
    obtain ⟨calls, hothers, hcount⟩ := ih hleft
    refine ⟨c :: calls, List.forall_mem_cons.2 ⟨hne, hothers⟩, ?_⟩
    rw [allowed_cons, hcount, allow_new_agent hnew hglobal, if_pos rfl]

theorem othersCanMake_iff (n : ℕ) :
    OthersCanMake now rl agentID n ↔ n = ⌊rl.global.refilled now⌋₊ := by
  have hgreatest : OthersCanMake now rl agentID ⌊rl.global.refilled now⌋₊ := by
    refine ⟨exists_calls_of_others _ le_rfl, ?_⟩
    rintro k ⟨calls, -, rfl⟩
    exact allowed_le_global calls
  constructor
  · exact fun h => h.unique hgreatest
  · rintro rfl
    exact hgreatest

theorem isolates_iff : Isolates now rl agentID ↔ HasToken now rl agentID := by
  unfold Isolates HasToken
  simp only [othersCanMake_iff]
  rcases rl.allow_cases agentID now with ⟨hlt, h⟩ | ⟨hle, hlimited, h⟩ | ⟨-, hnot, h⟩
  · simp [h, hlt]
  · have hpos : 1 ≤ ⌊rl.global.refilled now⌋₊ := Nat.le_floor (by simpa using hle)
    by_cases hagent : 1 ≤ (rl.bucketOf agentID now).refilled now
    · simp [h, hagent]
    · -- The token taken from the global bucket is not put back.
      have hrefused : (rl.allow agentID now).2 = (false, "per_agent") := by
        rw [h]
        simp [hagent]
      refine iff_of_false (fun hsame => ?_) (by simp [hle, hlimited, hagent])
      have hcount := (hsame hrefused ⌊rl.global.refilled now⌋₊).2 rfl
      rw [floor_global_allow, if_pos hle] at hcount
      omega
  · simp [h, hnot]

/-- **Rate limits at one instant.** The calls let through stay within the tokens of the global
bucket and of the agent's bucket; every call leaves the other agents what they had exactly when no
call is made by an agent without a token while the global bucket still has one. -/
theorem rate_limit_law (rl : RateLimiter) (now : ℤ) (calls : List String) :
    (allowed now rl calls ≤ ⌊rl.global.refilled now⌋₊ ∧
      ∀ agentID, rl.Limited agentID →
        allowedOf now rl agentID calls ≤ ⌊(rl.bucketOf agentID now).refilled now⌋₊) ∧
    ((machine now).Meets (Isolates now) rl calls ↔
      (machine now).Meets (HasToken now) rl calls) := by
  refine ⟨⟨allowed_le_global calls, fun agentID h => allowedOf_le_agent h calls⟩, ?_⟩
  exact (machine now).meets_iff_meets (I := fun _ => True) (fun _ _ _ _ => trivial)
    (fun _ _ _ => isolates_iff) trivial calls

/-- Two tokens for all, one for each agent. The second call of agent a is refused for its own
limit and takes the token that agent b could have used. -/
theorem refused_call_takes_token :
    let rl := newRateLimiter 30 60 2 0
    (machine 0).answers rl ["a", "b"] = [(true, ""), (true, "")] ∧
      (machine 0).answers rl ["a", "a", "b"] =
        [(true, ""), (false, "per_agent"), (false, "global")] ∧
      ¬ (machine 0).Meets (Isolates 0) rl ["a", "a"] := by
  refine ⟨by decide +kernel, by decide +kernel, fun h => ?_⟩
  have hsecond := isolates_iff.1 h.2.1
  exact absurd hsecond (by unfold HasToken; decide +kernel)

end RateLimiter
end Sentinel.Gateway

import Sentinel.Lib.Clock
import Sentinel.Lib.Machine

/-! The circuit breaker of a provider (`cortex-gateway`, `proxy/circuit_breaker.go`). Both entry
points run under one lock, so an interleaving of concurrent requests is a list of calls. Beside the
breaker the model keeps what an observer of the calls knows: which half-open period a request was
let through in, how many were let through in the present one and how many of those succeeded. -/

namespace Sentinel.Gateway
open Lib

inductive BreakerState where
  | stateClosed
  | stateOpen
  | stateHalfOpen
deriving DecidableEq

/-- `ratioReached failures total` is the outcome of the floating-point comparison of
`failures / total` with `FailureRatio`. -/
structure BreakerConfig where
  windowSeconds : ℤ
  minRequests : ℤ
  ratioReached : ℕ → ℕ → Bool
  failureThreshold : ℤ
  openSeconds : ℤ
  halfOpenProbes : ℤ

structure RequestRecord where
  time : ℤ
  failed : Bool

structure CircuitBreaker where
  state : BreakerState
  records : List RequestRecord
  consecutive : ℕ
  openedAt : ℤ
  probeCount : ℕ
  config : BreakerConfig

structure ProviderFailure where
  admission : Bool
  contextEnded : Bool
  netError : Bool
  statusCode : Option ℤ

def isCircuitBreakerFailure : Option ProviderFailure → Bool
  | none => false
  | some err =>
    if err.admission then false
    else if err.contextEnded || err.netError then true
    else match err.statusCode with
      | some code => decide (500 ≤ code ∨ code = 429)
      | none => true

def rejectedAdmission : Option ProviderFailure → Bool
  | none => false
  | some err => err.admission

namespace CircuitBreaker

def newCircuitBreaker (config : BreakerConfig) : CircuitBreaker where
  state := .stateClosed
  records := []
  consecutive := 0
  openedAt := 0
  probeCount := 0
  config := config

def openElapsed (cb : CircuitBreaker) (now : ℤ) : Bool :=
  seconds cb.config.openSeconds ≤ timeSub now cb.openedAt

def allow (cb : CircuitBreaker) (now : ℤ) : CircuitBreaker × Bool :=
  match cb.state with
  | .stateClosed => (cb, true)
  | .stateOpen =>
    if cb.openElapsed now then ({ cb with state := .stateHalfOpen, probeCount := 0 }, true)
    else (cb, false)
  | .stateHalfOpen => (cb, decide ((cb.probeCount : ℤ) < cb.config.halfOpenProbes))

def pruneWindow (cb : CircuitBreaker) (now : ℤ) : CircuitBreaker :=
  let cutoff := now + wrap64 (-seconds cb.config.windowSeconds)
  { cb with records := cb.records.dropWhile fun r => r.time < cutoff }

def shouldTrip (cb : CircuitBreaker) : Bool :=
  if cb.config.failureThreshold ≤ cb.consecutive then true
  else if (cb.records.length : ℤ) < cb.config.minRequests then false
  else cb.config.ratioReached (cb.records.countP (·.failed)) cb.records.length

def tripOpen (cb : CircuitBreaker) (now : ℤ) : CircuitBreaker :=
  { cb with state := .stateOpen, openedAt := now, probeCount := 0 }

def countResult (cb : CircuitBreaker) (failed : Bool) (now : ℤ) : CircuitBreaker :=
  { { cb with records := cb.records ++ [RequestRecord.mk now failed] }.pruneWindow now with
    consecutive := if failed then cb.consecutive + 1 else 0 }

def record (cb : CircuitBreaker) (err : Option ProviderFailure) (now : ℤ) : CircuitBreaker :=
  if rejectedAdmission err then cb
  else
    let failed := isCircuitBreakerFailure err
    match cb.state with
    | .stateClosed =>
      let cb := cb.countResult failed now
      if cb.shouldTrip then cb.tripOpen now else cb
    | .stateHalfOpen =>
      if failed then cb.tripOpen now
      else
        let cb := { cb with probeCount := cb.probeCount + 1 }
        if cb.config.halfOpenProbes ≤ cb.probeCount then
          { cb with state := .stateClosed, records := [], consecutive := 0 }
        else cb
    | .stateOpen => cb

theorem record_cases (cb : CircuitBreaker) (err : Option ProviderFailure) (now : ℤ) :
    cb.record err now = cb ∨ (cb.record err now).state = .stateClosed ∨
      (cb.state ≠ .stateOpen ∧ (cb.record err now).state = .stateOpen ∧
        (cb.record err now).openedAt = now) ∨
      ((cb.record err now).state = .stateHalfOpen ∧
        (cb.record err now).probeCount < cb.config.halfOpenProbes) := by
  unfold record
  split
  · exact .inl rfl
  cases hstate : cb.state with
  | stateClosed =>
    dsimp only
    split
    · exact .inr (.inr (.inl ⟨by simp, rfl, rfl⟩))
    · exact .inr (.inl (by rw [← hstate]; rfl))
  | stateHalfOpen =>
    dsimp only
    split
    · exact .inr (.inr (.inl ⟨by simp, rfl, rfl⟩))
    split
    · exact .inr (.inl rfl)
    · exact .inr (.inr (.inr ⟨rfl, Int.not_le.1 ‹_›⟩))
  | stateOpen => exact .inl rfl

theorem record_config (cb : CircuitBreaker) (err : Option ProviderFailure) (now : ℤ) :
    (cb.record err now).config = cb.config := by
  unfold record
  split
  · rfl
  cases cb.state <;> dsimp only
  · split <;> rfl
  · split
    · rfl
    · split <;> rfl

end CircuitBreaker

/-- The breaker and what its callers see. Requests are numbered by their calls of `Allow`, half-open
periods from one on; `allowedIn` is the number of the last period begun when an outstanding request
was let through. -/
structure Traffic where
  breaker : CircuitBreaker
  requests : ℕ
  allowedIn : ℕ → Option ℕ
  period : ℕ
  probes : ℕ
  successes : ℕ
  openSince : ℤ

/-- A request that bypasses `Allow` still records its result; it has no number. -/
inductive BreakerCall where
  | allow (now : ℤ)
  | record (request : Option ℕ) (err : Option ProviderFailure) (now : ℤ)

namespace Traffic

def start (config : BreakerConfig) : Traffic :=
  ⟨CircuitBreaker.newCircuitBreaker config, 0, fun _ => none, 0, 0, 0, 0⟩

def Own (s : Traffic) (request : Option ℕ) : Prop :=
  request.bind s.allowedIn = some s.period

instance (s : Traffic) (request : Option ℕ) : Decidable (s.Own request) :=
  inferInstanceAs (Decidable (_ = _))

def Earlier (s : Traffic) (request : Option ℕ) : Prop :=
  request.bind s.allowedIn ≠ none ∧ ¬ s.Own request

instance (s : Traffic) (request : Option ℕ) : Decidable (s.Earlier request) :=
  inferInstanceAs (Decidable (_ ∧ _))

def allow (s : Traffic) (now : ℤ) : Traffic × Bool :=
  let (breaker, allowed) := s.breaker.allow now
  let after := { s with breaker := breaker, requests := s.requests + 1 }
  match s.breaker.state, allowed with
  | .stateOpen, true =>
    ({ after with
        period := s.period + 1
        probes := 1
        successes := 0
        allowedIn := Function.update s.allowedIn s.requests (some (s.period + 1)) },
      true)
  | .stateHalfOpen, true =>
    ({ after with
        probes := s.probes + 1
        allowedIn := Function.update s.allowedIn s.requests (some s.period) },
      true)
  | .stateClosed, true =>
    ({ after with allowedIn := Function.update s.allowedIn s.requests (some s.period) }, true)
  | _, false => (after, false)

def record (s : Traffic) (request : Option ℕ) (err : Option ProviderFailure) (now : ℤ) : Traffic :=
  let breaker := s.breaker.record err now
  let succeeded := !rejectedAdmission err && !isCircuitBreakerFailure err
  { s with
    breaker := breaker
    allowedIn := fun r => if request = some r then none else s.allowedIn r
    successes := if s.Own request ∧ succeeded then s.successes + 1 else s.successes
    openSince := if s.breaker.state ≠ .stateOpen ∧ breaker.state = .stateOpen then now
      else s.openSince }

def machine : Machine Traffic BreakerCall (Option Bool) where
  call s
    | .allow now => ((s.allow now).1, some (s.allow now).2)
    | .record request err now => (s.record request err now, none)

/-- No request passes an open breaker before its time, a half-open period lets at most the
configured number of requests through and closes only after that many of them succeeded, and the
result of an earlier request neither closes nor reopens the breaker. -/
def Disciplined (s : Traffic) : BreakerCall → Prop
  | .allow now =>
    (s.breaker.state = .stateOpen → (s.allow now).2 = true →
      s.breaker.config.openSeconds * 1000000000 ≤ now - s.openSince) ∧
    ((s.allow now).1.breaker.state = .stateHalfOpen →
      (s.allow now).1.probes ≤ s.breaker.config.halfOpenProbes)
  | .record request err now =>
    s.breaker.state = .stateHalfOpen →
      ((s.record request err now).breaker.state = .stateClosed →
        s.breaker.config.halfOpenProbes ≤ (s.record request err now).successes) ∧
      (s.Earlier request → (s.record request err now).breaker.state = .stateHalfOpen)

/-- The condition on a call. `Allow` finds the open period over when the breaker takes it to be
over, or a half-open period that has let fewer requests through than configured. A failure recorded
in a half-open period, and a success that completes the count, do not come from an earlier request,
and enough of the successes counted came from requests of the period. -/
def Timely (s : Traffic) : BreakerCall → Prop
  | .allow now =>
    (s.breaker.state = .stateOpen → s.breaker.openElapsed now = true →
      s.breaker.config.openSeconds * 1000000000 ≤ now - s.breaker.openedAt ∧
      1 ≤ s.breaker.config.halfOpenProbes) ∧
    (s.breaker.state = .stateHalfOpen → s.probes < s.breaker.config.halfOpenProbes)
  | .record request err _ =>
    s.breaker.state = .stateHalfOpen → rejectedAdmission err = false →
      (isCircuitBreakerFailure err = true → ¬ s.Earlier request) ∧
      (isCircuitBreakerFailure err = false →
        s.breaker.config.halfOpenProbes ≤ s.breaker.probeCount + 1 →
        ¬ s.Earlier request ∧
          s.breaker.config.halfOpenProbes ≤ s.successes + if s.Own request then 1 else 0)

instance (s : Traffic) (call : BreakerCall) : Decidable (s.Disciplined call) := by
  cases call <;> unfold Disciplined <;> infer_instance

/-! ### The counter of a half-open period -/

structure Counted (s : Traffic) : Prop where
  opened : s.breaker.state = .stateOpen → s.breaker.openedAt = s.openSince
  counting : s.breaker.state = .stateHalfOpen →
    s.breaker.probeCount < s.breaker.config.halfOpenProbes

section Calls

variable {s : Traffic}

theorem counted_start (config : BreakerConfig) : (start config).Counted := by
  constructor <;> intro h <;> cases h

theorem disciplined_allow_iff (h : s.Counted) (now : ℤ) :
    s.Disciplined (.allow now) ↔ s.Timely (.allow now) := by
  unfold Disciplined Timely allow CircuitBreaker.allow
  cases hstate : s.breaker.state with
  | stateClosed => simp [hstate]
  | stateOpen =>
    by_cases helapsed : s.breaker.openElapsed now = true
    · simp [helapsed, h.opened hstate]
    · simp [helapsed, hstate]
  | stateHalfOpen =>
    have hcount := h.counting hstate
    simp only [hstate, hcount, reduceCtorEq, decide_true, forall_const, IsEmpty.forall_iff,
      Int.natCast_add, Int.cast_ofNat_Int, true_and]
    omega

theorem disciplined_record_iff (request : Option ℕ) (err : Option ProviderFailure) (now : ℤ) :
    s.Disciplined (.record request err now) ↔ s.Timely (.record request err now) := by
  unfold Disciplined Timely
  refine imp_congr_right fun hstate => ?_
  unfold record CircuitBreaker.record
  by_cases hrejected : rejectedAdmission err = true
  · simp [hrejected, hstate]
  by_cases hfailed : isCircuitBreakerFailure err = true
  · simp [hrejected, hfailed, hstate, CircuitBreaker.tripOpen]
  -- A success closes the breaker when it completes the count.
  by_cases hown : s.Own request <;> by_cases hearlier : s.Earlier request <;>
    by_cases hlast : s.breaker.config.halfOpenProbes ≤ s.breaker.probeCount + 1 <;>
    simp [hrejected, hfailed, hstate, hown, hearlier, hlast]

theorem counted_allow (h : s.Counted) {now : ℤ} (htimely : s.Timely (.allow now)) :
    (s.allow now).1.Counted := by
  unfold allow CircuitBreaker.allow
  cases hstate : s.breaker.state with
  | stateClosed => exact ⟨by simp [hstate], by simp [hstate]⟩
  | stateOpen =>
    by_cases helapsed : s.breaker.openElapsed now = true
    · have hprobes := (htimely.1 hstate helapsed).2
      simp only [helapsed, if_true]
      exact ⟨by simp, fun _ => Int.lt_of_lt_of_le Int.zero_lt_one hprobes⟩
    · simp only [helapsed]
      exact ⟨fun _ => h.opened hstate, by simp [hstate]⟩
  | stateHalfOpen =>
    have hcount := h.counting hstate
    simp only [hcount, decide_true]
    exact ⟨by simp [hstate], fun _ => hcount⟩

theorem counted_record (h : s.Counted) (request : Option ℕ) (err : Option ProviderFailure)
    (now : ℤ) : (s.record request err now).Counted := by
  have hconfig := s.breaker.record_config err now
  rcases s.breaker.record_cases err now with
    hsame | hclosed | ⟨hbefore, hopen, htime⟩ | ⟨hhalf, hcount⟩
  · constructor
    · intro hopen
      have hopen' : s.breaker.state = .stateOpen := hsame ▸ hopen
      simpa [record, hsame, hopen'] using h.opened hopen'
    · simpa [record, hsame] using h.counting
  · constructor <;> simp [record, hclosed]
  · constructor
    · simp [record, hbefore, hopen, htime]
    · simp [record, hopen]
  · constructor
    · simp [record, hhalf]
    · simpa [record, hconfig] using fun _ => hcount

theorem counted_call (s : Traffic) (call : BreakerCall) (h : s.Counted) (htimely : s.Timely call) :
    (machine.call s call).1.Counted := by
  cases call with
  | allow now => exact counted_allow h htimely
  | record request err now => exact counted_record h request err now

end Calls

/-- **Half-open discipline.** A run keeps the discipline exactly when each of its calls is
timely. -/
theorem half_open_discipline (config : BreakerConfig) (calls : List BreakerCall) :
    machine.Meets Disciplined (start config) calls ↔ machine.Meets Timely (start config) calls := by
  refine machine.meets_iff_meets counted_call (fun s call h => ?_) (counted_start config) calls
  cases call with
  | allow now => exact disciplined_allow_iff h now
  | record request err now => exact disciplined_record_iff request err now

def timeout : Option ProviderFailure := some ⟨false, true, false, none⟩

def oneProbe : BreakerConfig := ⟨20, 20, fun _ _ => false, 1, 1, 1⟩

/-- Requests 0 and 1 pass the closed breaker, request 0 fails and opens it, request 2 is the probe
of the half-open period. Then the late success of request 1 closes the breaker, its late failure
reopens it, and a further request is let through beside the probe. -/
theorem late_results_break_discipline :
    let before := [.allow 0, .allow 0, .record (some 0) timeout 0, .allow 1000000000]
    machine.Meets Disciplined (start oneProbe) before ∧
      ¬ machine.Meets Disciplined (start oneProbe) (before ++ [.record (some 1) none 1000000000]) ∧
      ¬ machine.Meets Disciplined (start oneProbe)
        (before ++ [.record (some 1) timeout 1000000000]) ∧
      ¬ machine.Meets Disciplined (start oneProbe) (before ++ [.allow 1000000000]) := by
  decide +kernel

end Traffic
end Sentinel.Gateway

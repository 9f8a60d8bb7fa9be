import Sentinel.Gateway.Pipeline

/-! Which calls a provider's circuit breaker hears of. The handler chooses the breaker before the
guardrails, which may send the request to another provider, and reports the result of the call to
the breaker it chose. Requests are handled one after another here; each consults the breakers as
the ones before it left them. -/

namespace Sentinel.Gateway.Pipeline
open Lib List Function

structure Handling where
  snap : Snapshot
  req : Request
  outcomes : Outcomes
  consultedAt : ℤ
  endedAt : ℤ

abbrev Breakers := String → CircuitBreaker

def Handling.outcomesIn (g : PipelineHandler) (h : Handling) (s : Breakers) : Outcomes :=
  { h.outcomes with
    allowed := match resolveProvider g (requestedProvider h.snap h.req) with
      | none => false
      | some name => ((s name).allow h.consultedAt).2 }

def Handling.effects (g : PipelineHandler) (h : Handling) (s : Breakers) : List Effect :=
  serveHTTP g h.snap h.req (h.outcomesIn g s)

def Handling.perform (h : Handling) (s : Breakers) : Effect → Breakers
  | .allow name _ => update s name ((s name).allow h.consultedAt).1
  | .record name failure => update s name ((s name).record failure h.endedAt)
  | _ => s

/-- A main call as it was made: to which provider, when that provider's breaker was or should have
been asked before it, when it ended and how. -/
structure MainCall where
  provider : String
  consultedAt : Option ℤ
  endedAt : ℤ
  failure : Option ProviderFailure

def failureOf : SendResult → Option ProviderFailure
  | .ok _ => none
  | .error failure => some failure

def Handling.mainCall (g : PipelineHandler) (h : Handling) (provider : String)
    (failure : Option ProviderFailure) : MainCall :=
  ⟨provider, if consults g h.req then some h.consultedAt else none, h.endedAt, failure⟩

def Handling.mainCallOf (g : PipelineHandler) (h : Handling) : Effect → Option MainCall
  | .send provider .main result => some (h.mainCall g provider (failureOf result))
  | .stream provider failure => some (h.mainCall g provider failure)
  | _ => none

def traffic (g : PipelineHandler) : Machine Breakers Handling (List MainCall) where
  call s h := ((h.effects g s).foldl h.perform s, (h.effects g s).filterMap (h.mainCallOf g))

def replay (config : BreakerConfig) (calls : List MainCall) : CircuitBreaker :=
  calls.foldl (fun cb call => ((call.consultedAt.elim cb fun now => (cb.allow now).1).record
    call.failure call.endedAt)) (.newCircuitBreaker config)

def closedBreakers (config : BreakerConfig) : Breakers := fun _ => .newCircuitBreaker config

def Attributed (config : BreakerConfig) (log : List MainCall) (s : Breakers) : Prop :=
  ∀ provider, s provider = replay config (log.filter fun call => call.provider = provider)

def Admitted (g : PipelineHandler) (s : Breakers) (h : Handling) : Prop :=
  consults g h.req → ∀ call ∈ ((traffic g).call s h).2,
    ((s call.provider).allow h.consultedAt).2 = true

/-- The guardrails do not send the request to another provider, and a consultation that changes
the breaker is followed by the main call. -/
def Direct (g : PipelineHandler) (s : Breakers) (h : Handling) : Prop :=
  ∀ name, resolveProvider g (requestedProvider h.snap h.req) = some name →
    (∀ provider, (applyGuardrails g h.snap h.req (h.outcomesIn g s) name).2 = some provider →
        provider = name) ∧
      (consults g h.req → ((s name).allow h.consultedAt).1 ≠ s name →
        ((traffic g).call s h).2 ≠ [])

section Frame

variable {g : PipelineHandler} {h : Handling} {s : Breakers}

def Neutral (e : Effect) : Prop :=
  match e with
  | .allow .. | .record .. | .stream .. | .send _ .main _ => False
  | _ => True

theorem perform_neutral {effects : List Effect} (hneutral : ∀ e ∈ effects, Neutral e)
    (s : Breakers) : effects.foldl h.perform s = s ∧ effects.filterMap (h.mainCallOf g) = [] := by
  induction effects with
  | nil => exact ⟨rfl, rfl⟩
  | cons e effects ih =>
    obtain ⟨he, hrest⟩ := forall_mem_cons.1 hneutral
    obtain ⟨hfold, hcalls⟩ := ih hrest
    have hstep : h.perform s e = s ∧ h.mainCallOf g e = none := by
      cases e with
      | allow | record | stream => exact he.elim
      | send provider purpose result =>
        cases purpose with
        | main => exact he.elim
        | judge | personality | quality | fourthWall => exact ⟨rfl, rfl⟩
      | check | recordTokens | budgetStatus | markP1Active | hasActiveP1 | findP1 | awaitP1
      | completeP1 => exact ⟨rfl, rfl⟩
    rw [foldl_cons, hstep.1, filterMap_cons, hstep.2]
    exact ⟨hfold, hcalls⟩

theorem neutral_of_isSideCall {provider : String} {e : Effect} (he : IsSideCall provider e) :
    Neutral e := by
  obtain ⟨purpose, result, hpurpose, rfl⟩ := he
  cases purpose with
  | main => exact absurd rfl hpurpose
  | judge | personality | quality | fourthWall => trivial

variable {snap : Snapshot} {req : Request} {o : Outcomes}

theorem neutral_between (name provider : String) :
    ∀ e ∈ (applyGuardrails g snap req o name).1 ++ (synthesisStage g snap req o provider).1 ++
      (sequencingStage g snap req o).1, Neutral e := by
  refine forall_mem_append.2 ⟨forall_mem_append.2 ⟨?_, ?_⟩, ?_⟩
  · unfold applyGuardrails
    split
    · exact fun e he => absurd he not_mem_nil
    · exact forall_mem_singleton.2 trivial
  · exact fun e he => neutral_of_isSideCall (isSideCall_synthesisStage e he)
  · intro e he
    have hkind := isSequencing_sequencingStage e he
    cases e with
    | markP1Active | hasActiveP1 | findP1 | awaitP1 => exact True.intro
    | _ => exact hkind.elim

theorem neutral_completion (provider : String) (reply : Reply) :
    ∀ e ∈ completion g snap req o provider reply, Neutral e := by
  unfold completion
  split
  · exact fun e he => absurd he not_mem_nil
  · split
    · exact forall_mem_singleton.2 trivial
    · exact fun e he => absurd he not_mem_nil

def Handling.consulted (g : PipelineHandler) (h : Handling) (s : Breakers) (name : String) :
    CircuitBreaker :=
  if consults g h.req then ((s name).allow h.consultedAt).1 else s name

inductive Outcome (g : PipelineHandler) (h : Handling) (s : Breakers) :
    Breakers × List MainCall → Prop
  | unheard : Outcome g h s (s, [])
  | asked (name : String) (hname : resolveProvider g (requestedProvider h.snap h.req) = some name) :
      Outcome g h s (update s name (h.consulted g s name), [])
  | called (name provider : String) (failure : Option ProviderFailure)
      (hname : resolveProvider g (requestedProvider h.snap h.req) = some name)
      (hprovider : (applyGuardrails g h.snap h.req (h.outcomesIn g s) name).2 = some provider)
      (hallowed : consults g h.req → ((s name).allow h.consultedAt).2 = true) :
      Outcome g h s (update s name ((h.consulted g s name).record failure h.endedAt),
        [h.mainCall g provider failure])

theorem perform_consultation (name : String) :
    (consultation g h.req name).foldl h.perform s = update s name (h.consulted g s name) ∧
      (consultation g h.req name).filterMap (h.mainCallOf g) = [] := by
  unfold consultation Handling.consulted
  by_cases hconsults : consults g h.req = true
  · rw [if_pos hconsults, if_pos hconsults]
    exact ⟨rfl, rfl⟩
  · rw [if_neg hconsults, if_neg hconsults, update_eq_self]
    exact ⟨rfl, rfl⟩

variable (g h s) in
theorem perform_consultation_append (name : String) {between : List Effect} (tail : List Effect)
    (hneutral : ∀ e ∈ between, Neutral e) :
    (consultation g h.req name ++ between ++ tail).foldl h.perform s =
        tail.foldl h.perform (update s name (h.consulted g s name)) ∧
      (consultation g h.req name ++ between ++ tail).filterMap (h.mainCallOf g) =
        tail.filterMap (h.mainCallOf g) := by
  obtain ⟨hfold, hcalls⟩ := perform_consultation (g := g) (h := h) (s := s) name
  obtain ⟨hbetween, hnone⟩ := perform_neutral (g := g) (h := h) hneutral
    (update s name (h.consulted g s name))
  rw [foldl_append, foldl_append, hfold, hbetween, filterMap_append,
    filterMap_append, hcalls, hnone]
  exact ⟨rfl, rfl⟩

theorem record_updated (name : String) (cb : CircuitBreaker) (failure : Option ProviderFailure) :
    h.perform (update s name cb) (.record name failure) =
      update s name (cb.record failure h.endedAt) := by
  simp [Handling.perform]

theorem outcome_forward {name provider : String} {tail : List Effect}
    (hname : resolveProvider g (requestedProvider h.snap h.req) = some name)
    (hprovider : (applyGuardrails g h.snap h.req (h.outcomesIn g s) name).2 = some provider)
    (hallowed : consults g h.req → ((s name).allow h.consultedAt).2 = true)
    (htail : Forwarded g h.snap h.req (h.outcomesIn g s) name provider tail) :
    Outcome g h s (tail.foldl h.perform (update s name (h.consulted g s name)),
      tail.filterMap (h.mainCallOf g)) := by
  have hrecord := record_updated (h := h) (s := s) name (h.consulted g s name)
  have hcalled := fun failure => Outcome.called name provider failure hname hprovider hallowed
  cases htail with
  | stopped => exact .asked name hname
  | streamed =>
    have hstep := hcalled (h.outcomesIn g s).streamed
    rw [← hrecord] at hstep
    exact hstep
  | failed failure =>
    have hstep := hcalled (some failure)
    rw [← hrecord] at hstep
    exact hstep
  | stale reply =>
    have hstep := hcalled none
    rw [← hrecord] at hstep
    exact hstep
  | delivered reply =>
    -- what follows the report of the result touches no breaker
    generalize hrest : recordUsage g reply ++
      (guardStage g h.snap h.req (h.outcomesIn g s) provider reply.content).1 ++
        completion g h.snap h.req (h.outcomesIn g s) provider reply = rest
    have hneutral : ∀ e ∈ rest, Neutral e := by
      rw [← hrest]
      refine forall_mem_append.2 ⟨forall_mem_append.2 ⟨?_, ?_⟩, neutral_completion _ _⟩
      · unfold recordUsage
        split
        · exact forall_mem_cons.2 ⟨trivial, forall_mem_singleton.2 trivial⟩
        · exact fun e he => absurd he not_mem_nil
      · exact fun e he => neutral_of_isSideCall (isSideCall_guardStage _ e he)
    obtain ⟨hfold, hnone⟩ := perform_neutral (g := g) (h := h) hneutral
      (update s name ((h.consulted g s name).record none h.endedAt))
    have hstep := hcalled none
    rw [← hnone, ← hfold, ← hrecord] at hstep
    exact hstep

theorem outcome_call : Outcome g h s ((traffic g).call s h) := by
  show Outcome g h s ((h.effects g s).foldl h.perform s, (h.effects g s).filterMap (h.mainCallOf g))
  rcases path_serveHTTP g h.snap h.req (h.outcomesIn g s) with hnil | ⟨name, hname, hpath⟩
  · rw [Handling.effects, hnil]
    exact .unheard
  have hanswer : (h.outcomesIn g s).allowed = ((s name).allow h.consultedAt).2 := by
    simp only [Handling.outcomesIn, hname]
  have hquiet : ∀ between, (∀ e ∈ between, Neutral e) → Outcome g h s
      ((consultation g h.req name ++ between).foldl h.perform s,
        (consultation g h.req name ++ between).filterMap (h.mainCallOf g)) := by
    intro between hneutral
    obtain ⟨hfold, hcalls⟩ := perform_consultation_append g h s name [] hneutral
    rw [append_nil] at hfold hcalls
    rw [hfold, hcalls]
    exact .asked name hname
  have hmiddle : ∀ provider, ∀ e ∈ (applyGuardrails g h.snap h.req (h.outcomesIn g s) name).1 ++
      (synthesisStage g h.snap h.req (h.outcomesIn g s) provider).1 ++
        (sequencingStage g h.snap h.req (h.outcomesIn g s)).1, Neutral e := neutral_between name
  unfold Handling.effects
  generalize serveHTTP g h.snap h.req (h.outcomesIn g s) = effects at hpath ⊢
  cases hpath with
  | broken hconsults =>
    have hasked := Outcome.asked (s := s) name hname
    rw [Handling.consulted, if_pos hconsults] at hasked
    exact hasked
  | rejected =>
    apply hquiet
    intro e he
    exact hmiddle "" e (mem_append_left _ (mem_append_left _ he))
  | answered provider =>
    rw [append_assoc]
    apply hquiet
    intro e he
    exact hmiddle provider e (mem_append_left _ he)
  | dropped provider =>
    have hquiet' := hquiet _ (hmiddle provider)
    rw [← append_assoc, ← append_assoc] at hquiet'
    exact hquiet'
  | forwarded provider hallowed hprovider =>
    obtain ⟨hfold, hcalls⟩ := perform_consultation_append g h s name
      (forward g h.snap h.req (h.outcomesIn g s) name provider) (hmiddle provider)
    rw [← append_assoc, ← append_assoc] at hfold hcalls
    rw [hfold, hcalls]
    refine outcome_forward hname hprovider (fun hconsults => ?_) (forwarded_forward name provider)
    rw [← hanswer]
    exact hallowed hconsults

end Frame

section Law

variable {g : PipelineHandler} {config : BreakerConfig}

theorem replay_append (config : BreakerConfig) (log : List MainCall) (call : MainCall) :
    replay config (log ++ [call]) =
      (call.consultedAt.elim (replay config log) fun now =>
        ((replay config log).allow now).1).record call.failure call.endedAt := by
  simp [replay]

theorem attributed_call {log : List MainCall} {s : Breakers} {h : Handling}
    (hs : Attributed config log s) (hdirect : Direct g s h) :
    Attributed config (log ++ ((traffic g).call s h).2) ((traffic g).call s h).1 ∧
      Admitted g s h := by
  have houtcome := outcome_call (g := g) (h := h) (s := s)
  unfold Admitted Direct at *
  generalize (traffic g).call s h = result at houtcome hdirect ⊢
  cases houtcome with
  | unheard =>
    rw [append_nil]
    exact ⟨hs, fun _ call hcall => absurd hcall not_mem_nil⟩
  | asked name hname =>
    have hsame : h.consulted g s name = s name := by
      unfold Handling.consulted
      split
      · next hconsults =>
        by_contra hchanged
        exact (hdirect name hname).2 hconsults hchanged rfl
      · rfl
    rw [append_nil, hsame, update_eq_self]
    exact ⟨hs, fun _ call hcall => absurd hcall not_mem_nil⟩
  | called name provider failure hname hprovider hallowed =>
    obtain rfl : provider = name := (hdirect name hname).1 provider hprovider
    refine ⟨fun p => ?_, fun hconsults call hcall => ?_⟩
    · dsimp only
      by_cases hp : p = provider
      · subst hp
        rw [update_self, filter_append, filter_singleton]
        have hself : (h.mainCall g p failure).provider = p := rfl
        rw [decide_eq_true hself, cond_true, replay_append, ← hs p]
        unfold Handling.consulted Handling.mainCall
        split <;> rfl
      · rw [update_of_ne hp, filter_append, filter_singleton]
        have hother : ¬ (h.mainCall g provider failure).provider = p := fun heq => hp heq.symm
        rw [decide_eq_false hother, cond_false, append_nil]
        exact hs p
    · rw [mem_singleton.1 hcall]
      exact hallowed hconsults

/-- In every sequence of requests that go to the provider whose breaker was chosen, and that make
their call when asking the breaker has changed it, every breaker is what the calls to its own
provider make it, and no request that has to ask is sent past a refusal. -/
theorem breakers_hear_their_own (g : PipelineHandler) (config : BreakerConfig)
    (requests : List Handling)
    (hdirect : (traffic g).Meets (Direct g) (closedBreakers config) requests) :
    Attributed config ((traffic g).log (closedBreakers config) requests)
        ((traffic g).final (closedBreakers config) requests) ∧
      ∀ before h, before ++ [h] <+: requests →
        Admitted g ((traffic g).final (closedBreakers config) before) h := by
  have hreached : ∀ before, before <+: requests →
      Attributed config ((traffic g).log (closedBreakers config) before)
        ((traffic g).final (closedBreakers config) before) := by
    rintro before ⟨rest, rfl⟩
    have hstart : Attributed config [] (closedBreakers config) := fun _ => rfl
    refine (traffic g).final_history (I := fun past s => Attributed config
      ((traffic g).log (closedBreakers config) past) s) (fun past s h hs hpast hguard => ?_)
      hstart (((traffic g).meets_append _ _ _ _).1 hdirect).1
    rw [Machine.log_concat, ← hs]
    exact (attributed_call hpast hguard).1
  refine ⟨hreached requests prefix_rfl, fun before h hbefore => ?_⟩
  have hpast := hreached before ((prefix_append before [h]).trans hbefore)
  obtain ⟨rest, rfl⟩ := hbefore
  have hmeets := ((traffic g).meets_append _ _ _ _).1
    (((traffic g).meets_append _ _ _ _).1 hdirect).1
  exact (attributed_call hpast hmeets.2.1).2

def sampleHandling (outcomes : Outcomes) : Handling :=
  ⟨sampleSnapshot, sampleRequest, outcomes, 0, 1⟩

def touchy : BreakerConfig := ⟨20, 20, fun _ _ => false, 1, 1, 1⟩

theorem direct_call_attributed :
    let requests := [sampleHandling sampleOutcomes]
    (traffic sampleHandler).Meets (Direct sampleHandler) (closedBreakers touchy) requests ∧
      Attributed touchy ((traffic sampleHandler).log (closedBreakers touchy) requests)
        ((traffic sampleHandler).final (closedBreakers touchy) requests) := by
  intro requests
  have hdirect : (traffic sampleHandler).Meets (Direct sampleHandler) (closedBreakers touchy)
      requests := by
    refine ⟨fun name hname => ⟨fun provider hprovider => ?_, fun _ hchanged => ?_⟩, trivial⟩
    · unfold applyGuardrails at hprovider
      split at hprovider
      · exact (Option.some.inj hprovider).symm
      · exact (Option.some.inj hprovider).symm
    · exact absurd rfl hchanged
  exact ⟨hdirect, (breakers_hear_their_own sampleHandler touchy requests hdirect).1⟩

/-- With the budget exhausted the request goes to `spare` and fails there: the breaker of `main`,
which was not called, opens, and that of `spare` hears nothing. -/
theorem fallback_trips_other_breaker :
    let requests := [sampleHandling { sampleOutcomes with
      check := ⟨false, true, "spare"⟩, main := .error ⟨false, true, false, none⟩ }]
    let final := (traffic sampleHandler).final (closedBreakers touchy) requests
    let log := (traffic sampleHandler).log (closedBreakers touchy) requests
    log.map MainCall.provider = ["spare"] ∧ (final "main").state = .stateOpen ∧
      (final "spare").state = .stateClosed ∧ ¬ Attributed touchy log final := by
  intro requests final log
  have hcalls : log.map MainCall.provider = ["spare"] := by decide +kernel
  have hopen : (final "main").state = .stateOpen := by decide +kernel
  refine ⟨hcalls, hopen, by decide +kernel, fun hattributed => ?_⟩
  have hmain : (final "main").state = (replay touchy (log.filter fun call =>
      call.provider = "main")).state := congrArg CircuitBreaker.state (hattributed "main")
  rw [hopen] at hmain
  revert hmain
  decide +kernel

end Law

end Sentinel.Gateway.Pipeline

import Sentinel.Gateway.CircuitBreaker
import Sentinel.Gateway.Interception
import Sentinel.Lib.Keyed
import Sentinel.Lib.Text

/-! One request through the gateway (`cortex-gateway`, `proxy/pipeline.go`, `ServeHTTP`). What
the request meets outside the handler (providers, judges, operators, deadlines, and the answers of
the components it shares with other requests) is given by its `Outcomes`; `serveHTTP` lists, in
order, what the handler then does to providers, breakers, guardrails and sequencer. -/

namespace Sentinel.Gateway.Pipeline
open Lib Intercept List

structure PipelineHandler where
  breakersEnabled : Bool
  registered : String → Bool
  primary : Option String
  guardrails : Bool
  synthesis : Bool
  observer : Bool
  sequencer : Bool
  interceptor : Bool
  responseInterceptor : Bool
  drift : Bool
  quality : Bool

structure Snapshot where
  localLoopEnabled : Bool
  primaryProvider : String
  agentOverrides : Keyed String String
  maxTokens : Int64
  synthesisEnabled : Bool
  apicpEnabled : Bool
  interceptMode : String
  sequencingEnabled : Bool
  personalityGuardEnabled : Bool
  qualityGateEnabled : Bool
  qualityMaxRegen : ℤ

structure Request where
  id : String
  metadata : String → String
  preferredProvider : String
  modelWork : Bool
  streaming : Bool

structure Reply where
  content : String
  inputTokens : Int64
  outputTokens : Int64

abbrev SendResult := Except ProviderFailure Reply

inductive Purpose
  | main
  | judge
  | personality
  | quality
  | fourthWall
  deriving DecidableEq

/-- What the handler does, with the answer it gets. A listener looks up the speaker it waits for
(`findP1`) and then waits for that one (`awaitP1`), with no content when the time is up. -/
inductive Effect
  | allow (provider : String) (answer : Bool)
  | record (provider : String) (failure : Option ProviderFailure)
  | check (agentId : String) (maxTokens : Int64) (rateLimited : Bool)
  | recordTokens (input output : Int64)
  | budgetStatus
  | send (provider : String) (purpose : Purpose) (result : SendResult)
  | stream (provider : String) (failure : Option ProviderFailure)
  | markP1Active (room requestId agent : String)
  | hasActiveP1 (room : String) (answer : Bool)
  | findP1 (room : String) (found : Bool)
  | awaitP1 (content : Option String)
  | completeP1 (room requestId content : String)

structure CheckResult where
  rateLimited : Bool
  budgetExhausted : Bool
  fallbackProvider : String

structure WallCheck where
  judge : Option SendResult
  cleared : Bool

def WallCheck.clean (w : WallCheck) : Bool :=
  match w.judge with
  | none => true
  | some (.error _) => false
  | some (.ok _) => w.cleared

structure QualityAttempt where
  result : SendResult
  passes : Bool

inductive Release
  | keep
  | replace (content : String)
  | drop

structure Outcomes where
  accepted : Bool
  activated : Bool
  allowed : Bool
  check : CheckResult
  synthesised : Bool
  synthesisWall : WallCheck
  learned : Bool
  probe : Bool
  manualDecision : Option RequestDecision
  activeP1 : Bool
  foundP1 : Bool
  p1Agent : String
  p1Content : Option String
  policyResolved : Bool
  canStream : Bool
  streamed : Option ProviderFailure
  expired : Bool
  main : SendResult
  fresh : Bool
  drifted : Option SendResult
  lowQuality : Bool
  qualityAttempt : ℕ → QualityAttempt
  wall : ℕ → WallCheck
  wallRegen : ℕ → SendResult
  workAllowed : Bool
  release : Release

def localLoopProviderName : String := "local-loop"

variable (g : PipelineHandler) (snap : Snapshot) (req : Request) (o : Outcomes)

def atoi (s : String) : Option ℤ :=
  let digits : List Char → Option ℤ := fun ds =>
    if ds ≠ [] ∧ ds.all Char.isDigit then
      some (ds.foldl (fun n d => 10 * n + (d.toNat - 48 : ℤ)) 0)
    else none
  let value := match s.toList with
    | '-' :: ds => (digits ds).map Neg.neg
    | '+' :: ds => digits ds
    | ds => digits ds
  value.filter fun n => -2 ^ 63 ≤ n ∧ n < 2 ^ 63

def agentCode (n : ℤ) : String :=
  "AGENT-" ++ (if 0 ≤ n ∧ n < 10 then "0" else "") ++ toString n

def agentName : String :=
  if req.metadata "agent_name" ≠ "" then req.metadata "agent_name"
  else if req.metadata "agent_id" ≠ "" then agentCode ((atoi (req.metadata "agent_id")).getD 0)
  else ""

def isLocalLoopActive : Bool :=
  snap.localLoopEnabled || (trim snap.primaryProvider).toLower = localLoopProviderName

def resolveAgentProvider : String :=
  let byId := if req.metadata "agent_id" = "" then none
    else (atoi (req.metadata "agent_id")).bind fun n => snap.agentOverrides (agentCode n)
  let byName := if req.metadata "agent_name" = "" then none
    else snap.agentOverrides (req.metadata "agent_name")
  (byId.or byName).getD snap.primaryProvider

def resolveProvider (name : String) : Option String :=
  if g.registered name then some name else g.primary

def requestedProvider : String :=
  if isLocalLoopActive snap then localLoopProviderName
  else if req.preferredProvider ≠ "" then req.preferredProvider
  else resolveAgentProvider snap req

def isUrgent : Bool :=
  (req.metadata "synth_fp").toList.tails.any ("|IM:1".toList.isPrefixOf ·) ||
    req.metadata "is_directly_addressed" = "true" || req.metadata "heard" ≠ ""

def applyGuardrails (name : String) : List Effect × Option String :=
  if ¬ g.guardrails ∨ name = localLoopProviderName then ([], some name)
  else
    ([.check (req.metadata "agent_id") snap.maxTokens o.check.rateLimited],
      if o.check.rateLimited then none
      else if o.check.budgetExhausted ∧ o.check.fallbackProvider ≠ "" ∧
          g.registered o.check.fallbackProvider then some o.check.fallbackProvider
      else some name)

def isManual : Bool := trim snap.interceptMode = "manual"

def applyOutboundInterception (release : Release) (content : String) : Option String :=
  if isManual snap ∧ g.responseInterceptor then
    match release with
    | .keep => some content
    | .replace new => some (if new ≠ "" then new else content)
    | .drop => none
  else some content

def judgeEffects (provider : String) (w : WallCheck) : List Effect :=
  (w.judge.map (.send provider .judge)).toList

def synthesisStage (provider : String) : List Effect × Bool :=
  let bySynthesis : List Effect × Bool :=
    if ¬ req.modelWork ∧ g.synthesis ∧ snap.synthesisEnabled ∧ ¬ req.streaming ∧ o.synthesised then
      (judgeEffects provider o.synthesisWall, o.synthesisWall.clean)
    else ([], false)
  let byPattern : Bool :=
    ¬ req.modelWork ∧ g.observer ∧ snap.apicpEnabled ∧ ¬ req.streaming ∧ o.learned ∧ ¬ o.probe
  (bySynthesis.1, bySynthesis.2 || byPattern)

def interceptInboundRequest : List Effect × RequestDecision :=
  let room := trim (req.metadata "room_id")
  if isManual snap then
    if ¬ g.interceptor then ([], .forward "manual mode unavailable")
    else ([], o.manualDecision.getD (.forward "manual intercept timeout"))
  else if ¬ g.sequencer ∨ ¬ snap.sequencingEnabled then ([], .forward "sequencing disabled")
  else if room = "" then ([], .forward "missing room_id")
  else if trim (req.metadata "heard") = "" then ([], .forward "no heard context")
  else if (trim (req.metadata "is_directly_addressed")).toLower = "true" then
    ([.markP1Active room req.id (agentName req)], .forward "p1 immediate forward")
  else if ¬ o.activeP1 then ([.hasActiveP1 room false], .forward "no active p1")
  else if ¬ o.foundP1 then ([.hasActiveP1 room true, .findP1 room false], .forward "p1 timeout")
  else
    ([.hasActiveP1 room true, .findP1 room true, .awaitP1 o.p1Content],
      match o.p1Content with
      | none => .forward "p1 timeout"
      | some content =>
        if content = "" then .forward "p1 timeout"
        else .modify "p3 inject p1 context"
          ("\n[KONTEXT] " ++ o.p1Agent ++ " hat gerade gesagt: \"" ++ content ++ "\" [/KONTEXT]"))

def sequencingStep : Bool := isManual snap ∨ (g.sequencer ∧ snap.sequencingEnabled)

def sequencingStage : List Effect × RequestDecision :=
  if sequencingStep g snap then interceptInboundRequest g snap req o else ([], .forward "")

def contentOr (result : SendResult) (content : String) : String :=
  match result with
  | .ok reply => reply.content
  | .error _ => content

def personalityGuardCheck (provider content : String) : List Effect × String :=
  if ¬ g.drift ∨ ¬ snap.personalityGuardEnabled then ([], content)
  else match o.drifted with
    | none => ([], content)
    | some result => ([.send provider .personality result], contentOr result content)

def qualityLoop (provider : String) (attempt : ℕ → QualityAttempt) :
    ℕ → ℕ → String → List Effect × String
  | 0, _, content => ([], content)
  | left + 1, i, content =>
    let a := attempt i
    match a.result with
    | .error e => ([.send provider .quality (.error e)], content)
    | .ok reply =>
      let rest := if a.passes then ([], reply.content)
        else qualityLoop provider attempt left (i + 1) reply.content
      (.send provider .quality (.ok reply) :: rest.1, rest.2)

def qualityGateCheck (provider content : String) : List Effect × String :=
  if ¬ g.quality ∨ ¬ snap.qualityGateEnabled ∨ ¬ o.lowQuality then ([], content)
  else qualityLoop provider o.qualityAttempt snap.qualityMaxRegen.toNat 0 content

def maxRegenAttempts : ℕ := 2

def wallLoop (provider : String) (check : ℕ → WallCheck) (regen : ℕ → SendResult) :
    ℕ → ℕ → String → List Effect × String
  | 0, _, content => ([], content)
  | left + 1, i, content =>
    if (check i).clean then (judgeEffects provider (check i), content)
    else match regen i with
      | .error e =>
        (judgeEffects provider (check i) ++ [.send provider .fourthWall (.error e)], content)
      | .ok reply =>
        let rest := wallLoop provider check regen left (i + 1) reply.content
        (judgeEffects provider (check i) ++ .send provider .fourthWall (.ok reply) :: rest.1,
          rest.2)

def fourthWallCheck (provider content : String) : List Effect × String :=
  wallLoop provider o.wall o.wallRegen maxRegenAttempts 0 content

def guardStage (provider content : String) : List Effect × String :=
  if req.modelWork ∨ agentName req = "" then ([], content)
  else
    let personality := personalityGuardCheck g snap o provider content
    let quality := qualityGateCheck g snap o provider personality.2
    let wall := fourthWallCheck o provider quality.2
    (personality.1 ++ quality.1 ++ wall.1, wall.2)

def completes : Bool :=
  g.sequencer ∧ sequencingStep g snap ∧ req.metadata "room_id" ≠ "" ∧
    req.metadata "is_directly_addressed" = "true" ∧ trim (req.metadata "heard") ≠ ""

def released (provider : String) (reply : Reply) : Option String :=
  (applyOutboundInterception g snap o.release
    (guardStage g snap req o provider reply.content).2).filter fun content =>
      ¬ (req.modelWork ∧ (¬ o.workAllowed ∨ content ≠ reply.content))

def completion (provider : String) (reply : Reply) : List Effect :=
  match released g snap req o provider reply with
  | none => []
  | some content =>
    if completes g snap req then [.completeP1 (req.metadata "room_id") req.id content] else []

/-- `Enforcer.Record` adds the tokens and then reads the status of the budget for its gauges. -/
def recordUsage (reply : Reply) : List Effect :=
  if g.guardrails then [.recordTokens reply.inputTokens reply.outputTokens, .budgetStatus] else []

def deliver (provider : String) (reply : Reply) : List Effect :=
  if ¬ o.fresh then []
  else
    recordUsage g reply ++ (guardStage g snap req o provider reply.content).1 ++
      completion g snap req o provider reply

def forward (name provider : String) : List Effect :=
  if ¬ o.policyResolved then []
  else if req.streaming then
    if o.canStream then [.stream provider o.streamed, .record name o.streamed] else []
  else if req.modelWork ∧ o.expired then []
  else
    match o.main with
    | .error e => [.send provider .main (.error e), .record name (some e)]
    | .ok reply =>
      .send provider .main (.ok reply) :: .record name none :: deliver g snap req o provider reply

def answer (name provider : String) : List Effect :=
  (synthesisStage g snap req o provider).1 ++
    if (synthesisStage g snap req o provider).2 then []
    else (sequencingStage g snap req o).1 ++
      if (sequencingStage g snap req o).2.action = .drop then []
      else forward g snap req o name provider

def admitted (name : String) : List Effect :=
  (applyGuardrails g snap req o name).1 ++
    match (applyGuardrails g snap req o name).2 with
    | none => []
    | some provider => answer g snap req o name provider

def consults : Bool := g.breakersEnabled && !isUrgent req

def serveHTTP : List Effect :=
  if ¬ o.accepted then []
  else match resolveProvider g (requestedProvider snap req) with
    | none => []
    | some name =>
      if ¬ o.activated then []
      else if consults g req then
        .allow name o.allowed :: if o.allowed then admitted g snap req o name else []
      else admitted g snap req o name

def IsSideCall (provider : String) (e : Effect) : Prop :=
  ∃ purpose result, purpose ≠ .main ∧ e = .send provider purpose result

variable {g snap req o} {provider : String}

theorem isSideCall_judgeEffects {w : WallCheck} :
    ∀ e ∈ judgeEffects provider w, IsSideCall provider e := by
  intro e he
  obtain ⟨result, -, rfl⟩ := Option.map_eq_some_iff.1 (Option.mem_toList.1 he)
  exact ⟨.judge, result, by decide, rfl⟩

theorem isSideCall_qualityLoop {attempt : ℕ → QualityAttempt} (left i : ℕ) (content : String) :
    ∀ e ∈ (qualityLoop provider attempt left i content).1, IsSideCall provider e := by
  induction left generalizing i content with
  | zero => exact fun e he => absurd he not_mem_nil
  | succ left ih =>
    unfold qualityLoop
    cases hresult : (attempt i).result with
    | error failure =>
      simp only [hresult, forall_mem_singleton]
      exact ⟨.quality, .error failure, by decide, rfl⟩
    | ok reply =>
      simp only [hresult]
      refine forall_mem_cons.2 ⟨⟨.quality, .ok reply, by decide, rfl⟩, ?_⟩
      split
      · exact fun e he => absurd he not_mem_nil
      · exact ih (i + 1) reply.content

theorem isSideCall_wallLoop {check : ℕ → WallCheck} {regen : ℕ → SendResult} (left i : ℕ)
    (content : String) :
    ∀ e ∈ (wallLoop provider check regen left i content).1, IsSideCall provider e := by
  induction left generalizing i content with
  | zero => exact fun e he => absurd he not_mem_nil
  | succ left ih =>
    unfold wallLoop
    split
    · exact isSideCall_judgeEffects
    · cases hregen : regen i with
      | error failure =>
        refine forall_mem_append.2 ⟨isSideCall_judgeEffects, forall_mem_singleton.2 ?_⟩
        exact ⟨.fourthWall, .error failure, by decide, rfl⟩
      | ok reply =>
        refine forall_mem_append.2 ⟨isSideCall_judgeEffects, forall_mem_cons.2 ⟨?_, ?_⟩⟩
        · exact ⟨.fourthWall, .ok reply, by decide, rfl⟩
        · exact ih (i + 1) reply.content

theorem isSideCall_guardStage (content : String) :
    ∀ e ∈ (guardStage g snap req o provider content).1, IsSideCall provider e := by
  unfold guardStage
  split
  · exact fun e he => absurd he not_mem_nil
  refine forall_mem_append.2 ⟨forall_mem_append.2 ⟨?_, ?_⟩, isSideCall_wallLoop _ _ _⟩
  · unfold personalityGuardCheck
    split
    · exact fun e he => absurd he not_mem_nil
    · cases o.drifted with
      | none => exact fun e he => absurd he not_mem_nil
      | some result =>
        exact forall_mem_singleton.2 ⟨.personality, result, by decide, rfl⟩
  · unfold qualityGateCheck
    split
    · exact fun e he => absurd he not_mem_nil
    · exact isSideCall_qualityLoop _ _ _

theorem isSideCall_synthesisStage :
    ∀ e ∈ (synthesisStage g snap req o provider).1, IsSideCall provider e := by
  unfold synthesisStage
  dsimp only
  split
  · exact isSideCall_judgeEffects
  · exact fun e he => absurd he not_mem_nil

def IsSpeaker (g : PipelineHandler) (snap : Snapshot) (req : Request) : Prop :=
  ¬ isManual snap ∧ g.sequencer ∧ snap.sequencingEnabled ∧ trim (req.metadata "room_id") ≠ "" ∧
    trim (req.metadata "heard") ≠ "" ∧
    (trim (req.metadata "is_directly_addressed")).toLower = "true"

def IsListening (room : String) : Effect → Prop
  | .hasActiveP1 .. | .awaitP1 .. => True
  | .findP1 room' _ => room' = room
  | _ => False

variable (g snap req o) in
theorem sequencingStage_cases :
    (∀ e ∈ (sequencingStage g snap req o).1, IsListening (trim (req.metadata "room_id")) e) ∨
      IsSpeaker g snap req ∧ (sequencingStage g snap req o).2.action = .forward ∧
        (sequencingStage g snap req o).1 =
          [.markP1Active (trim (req.metadata "room_id")) req.id (agentName req)] := by
  have hnil : ∀ e ∈ ([] : List Effect), IsListening (trim (req.metadata "room_id")) e :=
    fun e he => absurd he not_mem_nil
  unfold sequencingStage
  split
  case isFalse => exact .inl hnil
  unfold interceptInboundRequest
  dsimp only
  split
  · split <;> exact .inl hnil
  next hauto =>
  split
  · exact .inl hnil
  next hsequencer =>
  split
  · exact .inl hnil
  next hroom =>
  split
  · exact .inl hnil
  next hheard =>
  split
  · next haddressed =>
    obtain ⟨hsequencer, henabled⟩ := not_or.1 hsequencer
    exact .inr ⟨⟨hauto, not_not.1 hsequencer, not_not.1 henabled, hroom, hheard, haddressed⟩,
      rfl, rfl⟩
  refine .inl ?_
  split
  · exact forall_mem_singleton.2 trivial
  split
  · exact forall_mem_cons.2 ⟨trivial, forall_mem_singleton.2 rfl⟩
  · exact forall_mem_cons.2
      ⟨trivial, forall_mem_cons.2 ⟨rfl, forall_mem_singleton.2 trivial⟩⟩

def IsSequencing : Effect → Prop
  | .markP1Active .. | .hasActiveP1 .. | .findP1 .. | .awaitP1 .. => True
  | _ => False

theorem isSequencing_sequencingStage :
    ∀ e ∈ (sequencingStage g snap req o).1, IsSequencing e := by
  intro e he
  rcases sequencingStage_cases g snap req o with hlistening | ⟨-, -, heq⟩
  · have hlistens : IsListening (trim (req.metadata "room_id")) e := hlistening e he
    cases e with
    | hasActiveP1 | findP1 | awaitP1 => trivial
    | _ => exact hlistens.elim
  · rw [heq] at he
    cases mem_singleton.1 he
    trivial

def consultation (g : PipelineHandler) (req : Request) (name : String) : List Effect :=
  if consults g req then [.allow name true] else []

inductive Path (g : PipelineHandler) (snap : Snapshot) (req : Request) (o : Outcomes)
    (name : String) : List Effect → Prop
  | broken (hconsults : consults g req) (hallowed : o.allowed = false) :
      Path g snap req o name [.allow name false]
  | rejected : Path g snap req o name
      (consultation g req name ++ (applyGuardrails g snap req o name).1)
  | answered (provider : String) : Path g snap req o name
      (consultation g req name ++ (applyGuardrails g snap req o name).1 ++
        (synthesisStage g snap req o provider).1)
  | dropped (provider : String) (hdrop : (sequencingStage g snap req o).2.action = .drop) :
      Path g snap req o name
        (consultation g req name ++ (applyGuardrails g snap req o name).1 ++
          (synthesisStage g snap req o provider).1 ++ (sequencingStage g snap req o).1)
  | forwarded (provider : String) (hallowed : consults g req → o.allowed = true)
      (hprovider : (applyGuardrails g snap req o name).2 = some provider) :
      Path g snap req o name
        (consultation g req name ++ (applyGuardrails g snap req o name).1 ++
          (synthesisStage g snap req o provider).1 ++ (sequencingStage g snap req o).1 ++
            forward g snap req o name provider)

variable (g snap req o) in
theorem path_admitted (name : String) (hallowed : consults g req → o.allowed = true) :
    Path g snap req o name (consultation g req name ++ admitted g snap req o name) := by
  unfold admitted
  cases hprovider : (applyGuardrails g snap req o name).2 with
  | none =>
    rw [append_nil]
    exact .rejected
  | some provider =>
    show Path g snap req o name (_ ++ (_ ++ answer g snap req o name provider))
    unfold answer
    by_cases hanswered : (synthesisStage g snap req o provider).2 = true
    · rw [if_pos hanswered, append_nil, ← append_assoc]
      exact .answered provider
    rw [if_neg hanswered]
    by_cases hdrop : (sequencingStage g snap req o).2.action = .drop
    · rw [if_pos hdrop, append_nil, ← append_assoc, ← append_assoc]
      exact .dropped provider hdrop
    · rw [if_neg hdrop, ← append_assoc, ← append_assoc, ← append_assoc]
      exact .forwarded provider hallowed hprovider

variable (g snap req o) in
theorem path_serveHTTP : serveHTTP g snap req o = [] ∨
    ∃ name, resolveProvider g (requestedProvider snap req) = some name ∧
      Path g snap req o name (serveHTTP g snap req o) := by
  unfold serveHTTP
  split
  · exact .inl rfl
  split
  · exact .inl rfl
  next name hname =>
  split
  · exact .inl rfl
  refine .inr ⟨name, hname, ?_⟩
  split
  · next hconsults =>
    cases hallowed : o.allowed with
    | false => exact .broken hconsults hallowed
    | true =>
      have hpath := path_admitted g snap req o name fun _ => hallowed
      rw [consultation, if_pos hconsults, singleton_append] at hpath
      rw [if_pos rfl]
      exact hpath
  · next hconsults =>
    have hpath := path_admitted g snap req o name fun hyes => absurd hyes hconsults
    rw [consultation, if_neg hconsults] at hpath
    exact hpath

inductive Forwarded (g : PipelineHandler) (snap : Snapshot) (req : Request) (o : Outcomes)
    (name provider : String) : List Effect → Prop
  | stopped : Forwarded g snap req o name provider []
  | streamed (hstream : req.streaming = true) :
      Forwarded g snap req o name provider [.stream provider o.streamed, .record name o.streamed]
  | failed (failure : ProviderFailure) : Forwarded g snap req o name provider
      [.send provider .main (.error failure), .record name (some failure)]
  | stale (reply : Reply) (hstale : o.fresh = false) : Forwarded g snap req o name provider
      [.send provider .main (.ok reply), .record name none]
  | delivered (reply : Reply) (hfresh : o.fresh = true) : Forwarded g snap req o name provider
      (.send provider .main (.ok reply) :: .record name none ::
        (recordUsage g reply ++ (guardStage g snap req o provider reply.content).1 ++
          completion g snap req o provider reply))

theorem forwarded_forward (name provider : String) :
    Forwarded g snap req o name provider (forward g snap req o name provider) := by
  unfold forward
  split
  · exact .stopped
  split
  · next hstream =>
    split
    · exact .streamed hstream
    · exact .stopped
  split
  · exact .stopped
  cases o.main with
  | error failure => exact .failed failure
  | ok reply =>
    show Forwarded g snap req o name provider (.send provider .main (.ok reply) ::
      .record name none :: deliver g snap req o provider reply)
    by_cases hfresh : o.fresh = true
    · rw [deliver, if_neg (not_not.2 hfresh)]
      exact .delivered reply hfresh
    · rw [deliver, if_pos hfresh]
      exact .stale reply (Bool.eq_false_of_not_eq_true hfresh)

/-! A gateway with the provider `main`, and a request that is sent to it and answered. -/

def sampleHandler : PipelineHandler where
  breakersEnabled := true
  registered name := name = "main" ∨ name = "spare"
  primary := some "main"
  guardrails := true
  synthesis := false
  observer := false
  sequencer := true
  interceptor := false
  responseInterceptor := false
  drift := false
  quality := true

def sampleSnapshot : Snapshot where
  localLoopEnabled := false
  primaryProvider := "main"
  agentOverrides := Keyed.empty
  maxTokens := 100
  synthesisEnabled := false
  apicpEnabled := false
  interceptMode := "auto"
  sequencingEnabled := true
  personalityGuardEnabled := false
  qualityGateEnabled := true
  qualityMaxRegen := 1

def sampleRequest : Request where
  id := "r"
  metadata key := if key = "agent_name" then "agent" else ""
  preferredProvider := ""
  modelWork := false
  streaming := false

def sampleOutcomes : Outcomes where
  accepted := true
  activated := true
  allowed := true
  check := ⟨false, false, ""⟩
  synthesised := false
  synthesisWall := ⟨none, false⟩
  learned := false
  probe := false
  manualDecision := none
  activeP1 := false
  foundP1 := false
  p1Agent := ""
  p1Content := none
  policyResolved := true
  canStream := false
  streamed := none
  expired := false
  main := .ok ⟨"yes", 10, 5⟩
  fresh := true
  drifted := none
  lowQuality := false
  qualityAttempt _ := ⟨.ok ⟨"yes indeed", 20, 10⟩, true⟩
  wall _ := ⟨none, false⟩
  wallRegen _ := .ok ⟨"", 0, 0⟩
  workAllowed := true
  release := .keep

end Sentinel.Gateway.Pipeline

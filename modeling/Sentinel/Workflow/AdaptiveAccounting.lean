import Sentinel.Workflow.AdaptiveSteps

/-! The accounts of an adaptive session: over every run from a valid grant, accepted or rejected
transitions at any clock values, the counters are the accepted claims, no effect is claimed twice
and every ceiling holds. -/

namespace Sentinel.Workflow
open Lib List

namespace AdaptiveSessionV1

section
variable (s : AdaptiveSessionV1) (a : AdaptiveContinuationAuthorizationV1)

@[simp] theorem history_continued : (s.continued a).history = s.history ++ [a] := rfl

@[simp] theorem grant_continued : (s.continued a).grant = s.grant := rfl

@[simp] theorem activeModelCeiling_continued :
    (s.continued a).activeModelCeiling = s.modelCalls + a.additionalModelCalls := rfl

@[simp] theorem activeWorkFunding_continued :
    (s.continued a).activeWorkFunding = a.workFunding.or s.activeWorkFunding := by
  simp only [activeWorkFunding, history_continued, reverse_append, reverse_singleton,
    singleton_append, findSome?_cons]
  cases a.workFunding <;> rfl

variable (tool : WorkbenchTool) (observation : AdaptiveObservationRefV1)

@[simp] theorem history_recordObservation :
    (s.recordObservation tool observation).history = s.history := by
  unfold recordObservation
  split
  · simp only [history, observed, Option.map_map]
    rfl
  · rfl

@[simp] theorem grant_recordObservation :
    (s.recordObservation tool observation).grant = s.grant := by
  unfold recordObservation
  split <;> rfl

@[simp] theorem activeModelCeiling_recordObservation :
    (s.recordObservation tool observation).activeModelCeiling = s.activeModelCeiling := by
  unfold recordObservation
  split
  · simp only [activeModelCeiling, observed, Option.map_map]
    rfl
  · rfl

@[simp] theorem counters_recordObservation :
    (s.recordObservation tool observation).modelCalls = s.modelCalls ∧
      (s.recordObservation tool observation).toolCalls = s.toolCalls ∧
      (s.recordObservation tool observation).effectIds = s.effectIds ∧
      (s.recordObservation tool observation).version = s.version := by
  unfold recordObservation
  split <;> exact ⟨rfl, rfl, rfl, rfl⟩

end

structure Grows (s t : AdaptiveSessionV1) : Prop where
  models : s.modelCalls ≤ t.modelCalls
  tools : s.toolCalls ≤ t.toolCalls
  modelCeiling : s.fundedModelCallCeiling ≤ t.fundedModelCallCeiling
  toolCeiling : s.fundedToolCallCeiling ≤ t.fundedToolCallCeiling

structure Bounded (grant : AdaptiveSessionGrantV1) (s : AdaptiveSessionV1) : Prop where
  grant_eq : s.grant = grant
  models : s.modelCalls ≤ s.activeModelCeiling
  window : s.activeModelCeiling ≤ s.fundedModelCallCeiling
  modelCeiling : s.fundedModelCallCeiling ≤ adaptiveSessionMaxCalls
  tools : s.toolCalls ≤ s.fundedToolCallCeiling
  toolCeiling : s.fundedToolCallCeiling ≤ adaptiveSessionMaxCalls

variable {s t : AdaptiveSessionV1} {grant : AdaptiveSessionGrantV1}

theorem Continues.ceilings {a : AdaptiveContinuationAuthorizationV1} (h : s.Continues a)
    (hb : s.Bounded grant) :
    (s.fundedModelCallCeiling ≤ (s.continued a).fundedModelCallCeiling ∧
        (s.continued a).fundedModelCallCeiling ≤ adaptiveSessionMaxCalls) ∧
      s.fundedToolCallCeiling ≤ (s.continued a).fundedToolCallCeiling ∧
        (s.continued a).fundedToolCallCeiling ≤ adaptiveSessionMaxCalls := by
  cases hfunding : a.workFunding with
  | none =>
    have hsame : (s.continued a).activeWorkFunding = s.activeWorkFunding := by simp [hfunding]
    have hmodel : (s.continued a).fundedModelCallCeiling = s.fundedModelCallCeiling := by
      simp only [fundedModelCallCeiling, hsame]
      rfl
    have htool : (s.continued a).fundedToolCallCeiling = s.fundedToolCallCeiling := by
      simp only [fundedToolCallCeiling, hsame]
      rfl
    rw [hmodel, htool]
    exact ⟨⟨le_rfl, hb.modelCeiling⟩, le_rfl, hb.toolCeiling⟩
  | some epoch =>
    have hnew : (s.continued a).activeWorkFunding = some epoch := by simp [hfunding]
    have hmodel : (s.continued a).fundedModelCallCeiling =
        epoch.binding.limits.totalModelCallCeiling := by simp [fundedModelCallCeiling, hnew]
    have htool : (s.continued a).fundedToolCallCeiling =
        epoch.binding.limits.totalToolCallCeiling := by simp [fundedToolCallCeiling, hnew]
    obtain ⟨hraises, hsource⟩ := h.funded epoch hfunding
    rw [hmodel, htool]
    refine ⟨⟨?_, hraises.model_le⟩, ?_, hraises.tool_le⟩
    -- an epoch adopted again keeps its limits; a successor starts from the present ceilings
    · rcases hsource with ⟨prior, hprior, hlimits⟩ | ⟨hcurrent, -⟩
      · simp [fundedModelCallCeiling, hprior, hlimits]
      · exact hcurrent ▸ hraises.model
    · rcases hsource with ⟨prior, hprior, hlimits⟩ | ⟨-, hcurrent⟩
      · simp [fundedToolCallCeiling, hprior, hlimits]
      · exact hcurrent ▸ hraises.tool

theorem Continues.window_le {a : AdaptiveContinuationAuthorizationV1} (h : s.Continues a) :
    (s.continued a).activeModelCeiling ≤ (s.continued a).fundedModelCallCeiling := by
  have hwithin := h.within
  rw [activeModelCeiling_continued]
  cases hfunding : a.workFunding with
  | none =>
    have hactive := h.unfunded hfunding
    simpa [fundedModelCallCeiling, hfunding, hactive] using hwithin
  | some epoch => simpa [fundedModelCallCeiling, hfunding] using hwithin

variable {command : AdaptiveTransitionV1}

theorem Moves.bounded (h : s.Moves command t) (hb : s.Bounded grant) : t.Bounded grant := by
  cases h with
  | continued a hcont =>
    obtain ⟨⟨hm, hmle⟩, ht, htle⟩ := hcont.ceilings hb
    exact ⟨hb.grant_eq, Nat.le_add_right _ _, hcont.window_le, hmle, hb.tools.trans ht, htle⟩
  | claimedModel effect digest hcursor hcalls hnew => exact { hb with models := hcalls }
  | resolved => exact { hb with }
  | claimedTool effect tool digest hcursor hcalls hnew hlooks => exact { hb with tools := hcalls }
  | observed observation tool hcursor =>
    have hcounts := counters_recordObservation s tool observation
    have hfunding : (s.recordObservation tool observation).activeWorkFunding =
        s.activeWorkFunding := by simp [activeWorkFunding]
    constructor <;>
      simp only [grant_recordObservation, activeModelCeiling_recordObservation, hcounts.1,
        hcounts.2.1, fundedModelCallCeiling, fundedToolCallCeiling, hfunding]
    exacts [hb.grant_eq, hb.models, hb.window, hb.modelCeiling, hb.tools, hb.toolCeiling]
  | quiet => exact { hb with }

theorem Moves.grows (h : s.Moves command t) (hb : s.Bounded grant) : s.Grows t := by
  cases h with
  | continued a hcont =>
    obtain ⟨⟨hm, -⟩, ht, -⟩ := hcont.ceilings hb
    exact ⟨le_rfl, le_rfl, hm, ht⟩
  | claimedModel => exact ⟨Nat.le_succ _, le_rfl, le_rfl, le_rfl⟩
  | resolved => exact ⟨le_rfl, le_rfl, le_rfl, le_rfl⟩
  | claimedTool => exact ⟨le_rfl, Nat.le_succ _, le_rfl, le_rfl⟩
  | observed observation tool hcursor =>
    have hfunding : (s.recordObservation tool observation).activeWorkFunding =
        s.activeWorkFunding := by simp [activeWorkFunding]
    constructor <;>
      simp [fundedModelCallCeiling, fundedToolCallCeiling, hfunding]
  | quiet => exact ⟨le_rfl, le_rfl, le_rfl, le_rfl⟩

theorem Moves.window_continued {a : AdaptiveContinuationAuthorizationV1}
    (h : s.Moves (.continueGoverned a) t) :
    t.activeModelCeiling = s.modelCalls + a.additionalModelCalls := by
  cases h with
  | continued => exact activeModelCeiling_continued s a
  | quiet _ _ hcommand => cases hcommand

theorem Moves.window (h : s.Moves command t) (hcommand : ∀ a, command ≠ .continueGoverned a) :
    t.activeModelCeiling = s.activeModelCeiling := by
  cases h with
  | continued a => exact absurd rfl (hcommand a)
  | observed observation tool => exact activeModelCeiling_recordObservation s tool observation
  | _ => rfl

/-! ### The accounts of a run -/

abbrev Event := (AdaptiveTransitionV1 × ℕ) × Except WorkflowError AdaptiveSessionV1

namespace Event

def accepted (e : Event) : Bool := e.2.isOk

def modelClaim (e : Event) : Bool :=
  match e.1.1 with
  | .claimModel .. => e.accepted
  | _ => false

def toolClaim (e : Event) : Bool :=
  match e.1.1 with
  | .claimTool .. => e.accepted
  | _ => false

def claimedId? (e : Event) : Option Uuid128 :=
  match e.1.1 with
  | .claimModel effect _ | .claimTool effect _ => if e.accepted then some effect.id else none
  | _ => none

end Event

structure Accounted (run : List Event) (s : AdaptiveSessionV1) : Prop where
  models : run.countP Event.modelClaim = s.modelCalls
  tools : run.countP Event.toolClaim = s.toolCalls
  once : (run.filterMap Event.claimedId?).Nodup
  taken : ∀ id, id ∈ run.filterMap Event.claimedId? ↔ id ∈ s.effectIds
  version : s.version = 1 + run.countP Event.accepted

theorem Accounted.append {run : List Event} (h : Accounted run s) (e : Event)
    (hmodels : t.modelCalls = s.modelCalls + e.modelClaim.toNat)
    (htools : t.toolCalls = s.toolCalls + e.toolClaim.toNat)
    (hversion : t.version = s.version + e.accepted.toNat)
    (hids : (e.claimedId? = none ∧ t.effectIds = s.effectIds) ∨
      ∃ id, e.claimedId? = some id ∧ id ∉ s.effectIds ∧ t.effectIds = insert id s.effectIds) :
    Accounted (run ++ [e]) t := by
  have hcount : ∀ p : Event → Bool, (run ++ [e]).countP p = run.countP p + (p e).toNat := by
    intro p
    rw [countP_append, countP_singleton]
    cases p e <;> rfl
  have htaken : ((run ++ [e]).filterMap Event.claimedId?).Nodup ∧
      ∀ id, id ∈ (run ++ [e]).filterMap Event.claimedId? ↔ id ∈ t.effectIds := by
    rw [filterMap_append]
    rcases hids with ⟨hnone, hsame⟩ | ⟨id, hid, hnew, hinsert⟩
    · simp only [filterMap_cons, hnone, filterMap_nil, append_nil, hsame]
      exact ⟨h.once, h.taken⟩
    · simp only [filterMap_cons, hid, filterMap_nil, hinsert]
      constructor
      · refine nodup_append.2 ⟨h.once, nodup_singleton id, ?_⟩
        rintro x hx y hy rfl
        exact hnew ((h.taken id).1 (mem_singleton.1 hy ▸ hx))
      · intro other
        rw [mem_append, mem_singleton, h.taken, Finset.mem_insert, or_comm]
  exact
    { models := by rw [hcount, h.models, hmodels]
      tools := by rw [hcount, h.tools, htools]
      once := htaken.1
      taken := htaken.2
      version := by rw [hcount, hversion, h.version, Nat.add_assoc] }

theorem Accounted.reject {run : List Event} (h : Accounted run s)
    (call : AdaptiveTransitionV1 × ℕ) (e : WorkflowError) :
    Accounted (run ++ [(call, .error e)]) s := by
  obtain ⟨command, now⟩ := call
  cases command <;> exact h.append _ rfl rfl rfl (.inl ⟨rfl, rfl⟩)

theorem Accounted.move {run : List Event} (h : Accounted run s) (hmoves : s.Moves command t)
    (now : ℕ) (answer : AdaptiveSessionV1) :
    Accounted (run ++ [((command, now), .ok answer)])
      { t with version := t.version + 1, updatedAtMs := now } := by
  cases hmoves with
  | continued | resolved => exact h.append _ rfl rfl rfl (.inl ⟨rfl, rfl⟩)
  | claimedModel effect digest hcursor hcalls hnew =>
    exact h.append _ rfl rfl rfl (.inr ⟨effect.id, rfl, hnew, rfl⟩)
  | claimedTool effect tool digest hcursor hcalls hnew =>
    exact h.append _ rfl rfl rfl (.inr ⟨effect.id, rfl, hnew, rfl⟩)
  | observed observation tool hcursor =>
    obtain ⟨hmodels, htools, hids, hversion⟩ := counters_recordObservation s tool observation
    exact h.append _ hmodels htools (congrArg (· + 1) hversion) (.inl ⟨rfl, hids⟩)
  | quiet command cursor hcommand =>
    cases command <;> first
      | exact h.append _ rfl rfl rfl (.inl ⟨rfl, rfl⟩)
      | cases hcommand

def opened (grant : AdaptiveSessionGrantV1) : AdaptiveSessionV1 :=
  { grant, version := 1, modelCalls := 0, toolCalls := 0, cursor := .readyForModel
    lastObservation := none, lastModelResultDigest := none, effectIds := ∅
    updatedAtMs := grant.createdAtMs, continuation := none }

theorem initial_eq_ok (h : initial grant = .ok s) :
    s = opened grant ∧ ∀ recordedAtMs : ℕ,
      ({ opened grant with updatedAtMs := recordedAtMs } : AdaptiveSessionV1).Bounded grant := by
  simp only [initial, AdaptiveSessionGrantV1.validate, bind_eq_ok, ensure_eq_ok,
    Except.ok.injEq] at h
  obtain ⟨_, ⟨_, -, hbounds⟩, rfl⟩ := h
  have hmodel : grant.maxModelCalls ≤ adaptiveSessionMaxCalls := by tauto
  have htool : grant.maxToolCalls ≤ adaptiveSessionMaxCalls := by tauto
  exact ⟨rfl, fun _ => ⟨rfl, Nat.zero_le _, le_rfl, hmodel, Nat.zero_le _, htool⟩⟩

section
variable [AdaptiveDigests]

theorem call_cases (s : AdaptiveSessionV1) (call : AdaptiveTransitionV1 × ℕ) :
    (∃ e, s.transition call.1 call.2 = .error e ∧ machine.call s call = (s, .error e)) ∨
      ∃ next t, s.transition call.1 call.2 = .ok t ∧ s.Moves call.1 next ∧
        t = { next with version := next.version + 1, updatedAtMs := call.2 } ∧
        machine.call s call = (t, .ok t) := by
  cases h : s.transition call.1 call.2 with
  | error e => exact .inl ⟨e, rfl, by simp only [machine, h]⟩
  | ok t =>
    obtain ⟨next, hmoves, ht⟩ := transition_moves h
    exact .inr ⟨next, t, rfl, hmoves, ht, by simp only [machine, h]⟩

/-- What every accepted transition keeps, a run keeps. -/
theorem final_of_transition {I : AdaptiveSessionV1 → Prop}
    (hstep : ∀ s t command nowMs, I s → s.transition command nowMs = .ok t → I t) (hs : I s)
    (calls : List (AdaptiveTransitionV1 × ℕ)) : I (machine.final s calls) := by
  refine machine.final_invariant' (fun s call hs => ?_) hs calls
  rcases call_cases s call with ⟨e, -, hcall⟩ | ⟨next, t, ht, -, -, hcall⟩
  · rw [hcall]
    exact hs
  · rw [hcall]
    exact hstep s t call.1 call.2 hs ht

theorem Bounded.final (hb : s.Bounded grant) (calls : List (AdaptiveTransitionV1 × ℕ)) :
    (machine.final s calls).Bounded grant := by
  refine final_of_transition (fun s t command nowMs hb ht => ?_) hb calls
  obtain ⟨next, hmoves, rfl⟩ := transition_moves ht
  exact { hmoves.bounded hb with }

theorem Bounded.grows_final (hb : s.Bounded grant) (calls : List (AdaptiveTransitionV1 × ℕ)) :
    s.Grows (machine.final s calls) := by
  have hrun : (machine.final s calls).Bounded grant ∧ s.Grows (machine.final s calls) := by
    refine final_of_transition (I := fun u => u.Bounded grant ∧ s.Grows u) ?_
      ⟨hb, le_rfl, le_rfl, le_rfl, le_rfl⟩ calls
    rintro u t command nowMs ⟨hbounded, hgrows⟩ ht
    obtain ⟨next, hmoves, rfl⟩ := transition_moves ht
    have hstep := hmoves.grows hbounded
    exact ⟨{ hmoves.bounded hbounded with },
      hgrows.models.trans hstep.models, hgrows.tools.trans hstep.tools,
      hgrows.modelCeiling.trans hstep.modelCeiling, hgrows.toolCeiling.trans hstep.toolCeiling⟩
  exact hrun.2

theorem Accounted.final (h : Accounted [] s) (calls : List (AdaptiveTransitionV1 × ℕ)) :
    Accounted (machine.trace s calls) (machine.final s calls) := by
  refine machine.final_trace (fun past s call hs => ?_) h calls
  rcases call_cases s call with ⟨e, -, hcall⟩ | ⟨next, t, -, hmoves, rfl, hcall⟩
  · rw [hcall]
    exact hs.reject call e
  · rw [hcall]
    exact hs.move hmoves call.2 _

/-- **Adaptive session accounting.** After every run from a valid grant, recorded at any time, the
counters are the accepted claims, no effect id was claimed twice, the spent calls lie below the open
window, the window below the funded ceiling, and the grant is the first one. Spent calls and funded
ceilings never go down, only a continuation moves the window, to the spent calls and those it
grants, and a rejected transition changes nothing. -/
theorem adaptive_accounting (h : initial grant = .ok s) (recordedAtMs : ℕ)
    (calls : List (AdaptiveTransitionV1 × ℕ)) :
    let first := { s with updatedAtMs := recordedAtMs }
    let run := machine.trace first calls
    let t := machine.final first calls
    run.countP Event.modelClaim = t.modelCalls ∧ run.countP Event.toolClaim = t.toolCalls ∧
      (run.filterMap Event.claimedId?).Nodup ∧
      t.modelCalls ≤ t.activeModelCeiling ∧ t.activeModelCeiling ≤ t.fundedModelCallCeiling ∧
      t.fundedModelCallCeiling ≤ 64 ∧ t.toolCalls ≤ t.fundedToolCallCeiling ∧
      t.fundedToolCallCeiling ≤ 64 ∧ t.grant = grant ∧
      t.version = 1 + run.countP Event.accepted ∧
      (∀ more, t.Grows (machine.final t more)) ∧
      ∀ command now,
        (∀ e, t.transition command now = .error e → machine.call t (command, now) = (t, .error e)) ∧
        (∀ u, t.transition command now = .ok u → (∀ a, command ≠ .continueGoverned a) →
          u.activeModelCeiling = t.activeModelCeiling) ∧
        (∀ u a, t.transition command now = .ok u → command = .continueGoverned a →
          u.activeModelCeiling = t.modelCalls + a.additionalModelCalls) := by
  intro first run t
  obtain ⟨rfl, hopened⟩ := initial_eq_ok h
  have hbounded : t.Bounded grant := (hopened recordedAtMs).final calls
  have haccounts : Accounted run t :=
    Accounted.final ⟨rfl, rfl, nodup_nil, by simp [first, opened], rfl⟩ calls
  refine ⟨haccounts.models, haccounts.tools, haccounts.once, hbounded.models, hbounded.window,
    hbounded.modelCeiling, hbounded.tools, hbounded.toolCeiling, hbounded.grant_eq,
    haccounts.version, hbounded.grows_final, fun command now => ⟨?_, ?_, ?_⟩⟩
  · intro e he
    simp only [machine, he]
  · intro u hu hcommand
    obtain ⟨next, hmoves, rfl⟩ := transition_moves hu
    exact hmoves.window hcommand
  · rintro u a hu rfl
    obtain ⟨next, hmoves, rfl⟩ := transition_moves hu
    exact hmoves.window_continued

end

/-! ### A run -/

def sampleAuthority : RuntimeAuthoritySnapshotV1 where
  schemaVersion := 1
  tenantId := "tenant-a"
  projectId := "project-a"
  workItemId := "work-a"
  agentId := 7
  assignmentVersion := 1
  assignmentDigest := sampleDigest
  organizationGeneration := 1
  organizationDigest := sampleDigest
  principal := ⟨1, "agent-7", 1, sampleDigest⟩
  profileId := "developer"
  profileGeneration := 1
  profileDigest := sampleDigest
  runtimeKey := "runtime-7"
  runtimeGeneration := 1
  runtimeDigest := sampleDigest
  policyGeneration := 1
  policyDigest := sampleDigest
  active := true
  capabilities := ["observation.retain_private"]

def sampleGrant : AdaptiveSessionGrantV1 where
  schemaVersion := 1
  sessionId := 1
  authority := sampleAuthority
  providerAllowanceId := "allowance-1"
  providerAuthorityDigest := sampleDigest
  provider := "codex-cli"
  model := "model-a"
  catalogDigest := sampleDigest
  maxOutputTokens := 1024
  maxCallDurationMs := 60000
  maxModelCalls := 10
  maxToolCalls := 10
  createdAtMs := 1000
  deadlineMs := 100000

def sampleContinuation : AdaptiveContinuationAuthorizationV1 where
  schemaVersion := 1
  operationId := 11
  reviewId := 12
  resolutionEventId := 13
  sessionId := 1
  sourceSessionVersion := 3
  source := .blocked "no_private_observation"
  abandonedModelEffect := none
  providerAllowanceId := "allowance-2"
  providerAuthorityDigest := sampleDigest
  issuedAtMs := 200000
  deadlineMs := 260000
  additionalModelCalls := 1
  localAdoption := none
  resumePolicy := none
  workFunding := none

def sampleTool : WorkbenchTool := .listDirectory "." none 10

@[reducible] def sampleDigests : AdaptiveDigests where
  workFundingId _ := sampleDigest
  workFundingReceipt _ := sampleDigest
  expiredReplacementKey _ := sampleDigest
  materialWindowSlot _ := sampleDigest
  adaptiveTool _ := sampleDigest
  adaptiveCollaboration _ := sampleDigest
  adaptiveBudgetHistory _ := sampleDigest
  adoptedFundingBinding _ := sampleDigest
  toolShapeValid _ := true
  toolEncodedBytes _ := 66
  adoptionCheck _ := .ok ()

def sampleFunding : AdaptiveWorkFundingReceiptV1 where
  schemaVersion := 1
  fundingId := "work-funding-" ++ sampleDigest
  request :=
    { schemaVersion := 1
      operationId := 31
      source :=
        { resumeSource :=
            { tenantId := "tenant-a"
              projectId := "project-a"
              workItemId := "work-a"
              sessionId := 1
              expectedProjectVersion := 1
              expectedSessionVersion := 5
              projectPayloadDigest := sampleDigest
              rootEntryDigest := sampleDigest
              headEntryDigest := sampleDigest
              continuationHistoryDigest := sampleDigest
              reviewHistoryDigest := sampleDigest
              assigneeAuthority := sampleAuthority
              baseModelCalls := 1
              baseToolCalls := 1
              baseReviewCount := 0
              baseWindowCount := 0
              subject := .readyForModel sampleDigest }
          originalModelCallCeiling := 10
          originalToolCallCeiling := 10
          currentModelCallCeiling := 10
          currentToolCallCeiling := 10
          predecessorReceiptDigest := none
          supersedesUnusedReceiptDigest := none
          expiredReviewedReplacement := none
          materialWindowExpansion := none }
      limits := ⟨2, 2, 4, 4, 100000, 60000, 1000, 1000000⟩
      reasonRef := "reason-a" }
  issuerPrincipal :=
    ⟨1, "tenant-a", "operator-1", .operator, .projectManager, none, none, 1, sampleDigest⟩
  issuedAtUnixMs := 150000

def fundedContinuation : AdaptiveContinuationAuthorizationV1 :=
  { sampleContinuation with
    sourceSessionVersion := 5
    source := .budgetWindowExhausted sampleDigest sampleDigest
    deadlineMs := 290000
    additionalModelCalls := 3
    workFunding := some
      ⟨sampleFunding, ⟨1, sampleFunding.fundingId, sampleDigest, 1,
        ⟨12, 12, 4, 4, 100000, 60000, 1000, 1000000⟩⟩⟩ }

/-- A model and a tool call, a funded window opened after the deadline, and a call made in it. -/
def fundedCalls : List (AdaptiveTransitionV1 × ℕ) :=
  [(.claimModel ⟨21, sampleDigest⟩ none, 2000),
    (.resolveModel ⟨21, sampleDigest⟩ sampleDigest (.tool sampleTool sampleDigest), 3000),
    (.claimTool ⟨22, sampleDigest⟩ sampleDigest, 4000),
    (.observeTool ⟨⟨22, sampleDigest⟩, sampleDigest⟩, 5000),
    (.continueGoverned fundedContinuation, 200000),
    (.claimModel ⟨22, sampleDigest⟩ (some sampleDigest), 201000),
    (.claimModel ⟨23, sampleDigest⟩ (some sampleDigest), 202000)]

attribute [local instance] sampleDigests

/-- The last call but one names an effect that was claimed before and is refused. -/
theorem adaptive_accounting_funded :
    let first := { opened sampleGrant with updatedAtMs := 1500 }
    let t := machine.final first fundedCalls
    initial sampleGrant = .ok (opened sampleGrant) ∧
      (machine.trace first fundedCalls).countP Event.modelClaim = t.modelCalls ∧
      t.version = 1 + (machine.trace first fundedCalls).countP Event.accepted ∧
      t.modelCalls = 2 ∧ t.toolCalls = 1 ∧ t.version = 7 ∧
      t.activeModelCeiling = 4 ∧ t.fundedModelCallCeiling = 12 := by
  have hgrant : initial sampleGrant = .ok (opened sampleGrant) := by decide +kernel
  obtain ⟨hmodels, -, -, -, -, -, -, -, -, hversion, -⟩ :=
    adaptive_accounting hgrant 1500 fundedCalls
  exact ⟨hgrant, hmodels, hversion, by decide +kernel⟩

def blockedCalls : List (AdaptiveTransitionV1 × ℕ) :=
  [(.claimModel ⟨21, sampleDigest⟩ none, 2000),
    (.resolveModel ⟨21, sampleDigest⟩ sampleDigest (.blocked "no_private_observation"), 3000)]

/-- A continuation can close the window: of ten model calls one is spent, and the continuation
grants one more, so the active ceiling falls from ten to two. -/
theorem window_narrows_at_continuation :
    let before := machine.final (opened sampleGrant) blockedCalls
    let after := machine.call before (.continueGoverned sampleContinuation, 200000)
    initial sampleGrant = .ok (opened sampleGrant) ∧ after.2 = .ok after.1 ∧
      before.activeModelCeiling = 10 ∧ after.1.activeModelCeiling = 2 := by
  decide +kernel

end AdaptiveSessionV1
end Sentinel.Workflow

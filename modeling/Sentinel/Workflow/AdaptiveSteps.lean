import Sentinel.Workflow.AdaptiveSession

/-! What an accepted transition of an adaptive session does. Every property of runs is derived
from `transition_moves`. -/

namespace Sentinel.Workflow
open Lib

namespace AdaptiveCursorV1

def effect? : AdaptiveCursorV1 → Option AdaptiveEffectV1
  | .modelPending effect | .modelUnknown effect | .toolPending effect _ _
  | .toolUnknown effect _ _ | .collaborationProposed effect _ => some effect
  | _ => none

def toolCall? : AdaptiveCursorV1 → Option (AdaptiveEffectV1 × WorkbenchTool)
  | .toolPending effect tool _ | .toolUnknown effect tool _ => some (effect, tool)
  | _ => none

theorem effect?_of_toolCall? {c : AdaptiveCursorV1} {effect : AdaptiveEffectV1}
    {tool : WorkbenchTool} (h : c.toolCall? = some (effect, tool)) : c.effect? = some effect := by
  cases c with
  | toolPending | toolUnknown =>
    simp only [toolCall?, Option.some.injEq, Prod.mk.injEq] at h
    simp only [effect?, h.1]
  | _ => simp [toolCall?] at h

end AdaptiveCursorV1

namespace AdaptiveTransitionV1

def quiet : AdaptiveTransitionV1 → Bool
  | .commitCollaboration .. | .markUnknown _ | .rejectModel .. | .resumeRejectedModel ..
  | .resolveBlocked .. | .cancel => true
  | _ => false

def effect? : AdaptiveTransitionV1 → Option AdaptiveEffectV1
  | .claimModel effect _ | .resolveModel effect _ _ | .claimTool effect _
  | .commitCollaboration effect _ | .markUnknown effect | .rejectModel effect _ _ => some effect
  | .observeTool observation => some observation.effect
  | _ => none

end AdaptiveTransitionV1

namespace AdaptiveSessionV1

def continued (s : AdaptiveSessionV1) (a : AdaptiveContinuationAuthorizationV1) :
    AdaptiveSessionV1 :=
  { s with
    cursor := .readyForModel
    continuation := some
      { authorizations := s.history ++ [a]
        modelCeiling := s.modelCalls + a.additionalModelCalls
        observationRequired := true } }

def claimed (s : AdaptiveSessionV1) (effect : AdaptiveEffectV1) : AdaptiveSessionV1 :=
  { s with effectIds := insert effect.id s.effectIds }

structure Continues (s : AdaptiveSessionV1) (a : AdaptiveContinuationAuthorizationV1) : Prop where
  funded : ∀ epoch, a.workFunding = some epoch → epoch.Raises ∧
    ((∃ prior, s.activeWorkFunding = some prior ∧ prior.binding.limits = epoch.binding.limits) ∨
      epoch.receipt.request.source.currentModelCallCeiling = s.fundedModelCallCeiling ∧
      epoch.receipt.request.source.currentToolCallCeiling = s.fundedToolCallCeiling)
  unfunded : a.workFunding = none → s.activeWorkFunding = none
  within : s.modelCalls + a.additionalModelCalls ≤
    (a.workFunding.map (·.binding.limits.totalModelCallCeiling)).getD s.grant.maxModelCalls
  abandons : ∀ effect, a.abandonedModelEffect = some effect → s.cursor = .modelUnknown effect

inductive Moves (s : AdaptiveSessionV1) : AdaptiveTransitionV1 → AdaptiveSessionV1 → Prop
  | continued (a) (h : s.Continues a) : Moves s (.continueGoverned a) (s.continued a)
  | claimedModel (effect digest) (hcursor : s.cursor = .readyForModel)
      (hcalls : s.modelCalls < s.activeModelCeiling) (hnew : effect.id ∉ s.effectIds) :
      Moves s (.claimModel effect digest)
        { s.claimed effect with modelCalls := s.modelCalls + 1, cursor := .modelPending effect }
  | resolved (effect result decision cursor) (hcursor : s.cursor.effect? = some effect)
      (hlooks : s.requiresFreshObservation → decision.looks)
      (hnext : cursor.toolCall? = none ∧ (cursor.effect? = none ∨ cursor.effect? = some effect)) :
      Moves s (.resolveModel effect result decision)
        { s with lastModelResultDigest := some result, cursor := cursor }
  | claimedTool (effect tool digest) (hcursor : s.cursor = .readyForTool tool digest)
      (hcalls : s.toolCalls < s.fundedToolCallCeiling) (hnew : effect.id ∉ s.effectIds)
      (hlooks : s.requiresFreshObservation → tool.looks) :
      Moves s (.claimTool effect digest)
        { s.claimed effect with
          toolCalls := s.toolCalls + 1, cursor := .toolPending effect tool digest }
  | observed (observation tool) (hcursor : s.cursor.toolCall? = some (observation.effect, tool)) :
      Moves s (.observeTool observation) (s.recordObservation tool observation)
  | quiet (command cursor)
      (hcommand : command.quiet)
      (hnamed : command.effect? = none ∨ command.effect? = s.cursor.effect?)
      (htool : cursor.toolCall? = none ∨ cursor.toolCall? = s.cursor.toolCall?)
      (heffect : cursor.effect? = none ∨ cursor.effect? = s.cursor.effect?) :
      Moves s command { s with cursor := cursor }

variable {s t : AdaptiveSessionV1}

theorem claim_eq_ok {effect : AdaptiveEffectV1} (h : s.claim effect = .ok t) :
    effect.id ∉ s.effectIds ∧ t = s.claimed effect := by
  simp only [claim, bind_eq_ok, ensure_eq_ok, Except.ok.injEq] at h
  obtain ⟨_, hnew, rfl⟩ := h
  exact ⟨hnew.2.2, rfl⟩

theorem effect?_of_model_cursor {effect : AdaptiveEffectV1}
    (h : s.cursor = .modelPending effect ∨ s.cursor = .modelUnknown effect) :
    s.cursor.effect? = some effect := by
  rcases h with h | h <;> rw [h] <;> rfl

section
variable [AdaptiveDigests] {a : AdaptiveContinuationAuthorizationV1} {nowMs : ℕ}

theorem continuationCeiling_eq_ok {ceiling : ℕ} (hvalid : a.validate = .ok ())
    (h : s.continuationCeiling a = .ok ceiling) :
    ceiling = (a.workFunding.map (·.binding.limits.totalModelCallCeiling)).getD
        s.grant.maxModelCalls ∧
      (a.workFunding = none → s.activeWorkFunding = none) ∧
      ∀ epoch, a.workFunding = some epoch → epoch.Raises ∧
        ((∃ prior, s.activeWorkFunding = some prior ∧
            prior.binding.limits = epoch.binding.limits) ∨
          epoch.receipt.request.source.currentModelCallCeiling = s.fundedModelCallCeiling ∧
          epoch.receipt.request.source.currentToolCallCeiling = s.fundedToolCallCeiling) := by
  unfold continuationCeiling at h
  split at h
  case h_1 epoch hepoch =>
    simp only [bind_eq_ok, validateWorkFundingTransition, ensure_eq_ok, Except.ok.injEq] at h
    obtain ⟨_, ⟨_, -, hfunding⟩, rfl⟩ := h
    refine ⟨by simp [hepoch], by simp [hepoch], ?_⟩
    intro epoch' hepoch'
    obtain rfl : epoch = epoch' := by simpa [hepoch] using hepoch'
    refine ⟨AdaptiveContinuationAuthorizationV1.raises_of_validate hvalid hepoch, ?_⟩
    split at hfunding
    case isTrue hsame =>
      obtain ⟨prior, hprior, hsame⟩ := (Option.any_eq_true _ _).1 hsame
      simp only [AdaptiveWorkFundingEpochV1.sameEpoch, Bool.and_eq_true, decide_eq_true_eq] at hsame
      exact .inl ⟨prior, hprior, hsame.2⟩
    case isFalse =>
      unfold validateSuccessorEpoch at hfunding
      split at hfunding
      case h_1 =>
        right
        simp only [ensure_eq_ok] at hfunding
        exact ⟨hfunding.2.2.1, hfunding.2.2.2.1⟩
      case h_2 => cases hfunding
  case h_2 hnone =>
    simp only [bind_eq_ok, ensure_eq_ok, Except.ok.injEq] at h
    obtain ⟨_, hactive, rfl⟩ := h
    exact ⟨by simp [hnone], fun _ => hactive, by simp [hnone]⟩

theorem matchesSource_abandons (h : s.matchesSource a) {effect : AdaptiveEffectV1}
    (heffect : a.abandonedModelEffect = some effect) : s.cursor = .modelUnknown effect := by
  unfold matchesSource at h
  split at h
  case h_4 seen _ abandoned hcursor _ habandoned =>
    obtain rfl : abandoned = effect := by simpa [habandoned] using heffect
    rw [hcursor, of_decide_eq_true h]
  all_goals simp_all

theorem continueGoverned_eq_ok (h : s.continueGoverned a nowMs = .ok t) :
    s.Continues a ∧ t = s.continued a := by
  simp only [continueGoverned, bind_eq_ok, ensure_eq_ok, Except.ok.injEq] at h
  obtain ⟨_, -, _, hvalid, ceiling, hceiling, _, -, _, hbounds, _, hmatch, rfl⟩ := h
  obtain ⟨hceil, hunfunded, hfunded⟩ := continuationCeiling_eq_ok hvalid hceiling
  have hwithin : s.modelCalls + a.additionalModelCalls ≤ ceiling := by
    obtain ⟨total, htotal, hle⟩ := (Option.any_eq_true _ _).1 hbounds.2.2.2.2.2.2.2.2
    rw [(checkedAdd_eq_some.1 htotal).1]
    simpa using hle
  exact ⟨⟨hfunded, hunfunded, hceil ▸ hwithin, fun _ => matchesSource_abandons hmatch⟩, rfl⟩

theorem decided_eq_ok {effect : AdaptiveEffectV1} {decision : AdaptiveModelDecisionV1}
    {cursor : AdaptiveCursorV1} (h : decided effect decision = .ok cursor) :
    cursor.toolCall? = none ∧ (cursor.effect? = none ∨ cursor.effect? = some effect) := by
  cases decision <;>
    simp only [decided, bind_eq_ok, ensure_eq_ok, Except.ok.injEq] at h <;>
    obtain ⟨_, -, rfl⟩ := h <;>
    simp [AdaptiveCursorV1.toolCall?, AdaptiveCursorV1.effect?]

theorem advanced_moves {command : AdaptiveTransitionV1} (h : s.advanced nowMs command = .ok t) :
    s.Moves command t := by
  cases command with
  | continueGoverned a =>
    obtain ⟨hcont, rfl⟩ := continueGoverned_eq_ok h
    exact .continued a hcont
  | claimModel effect digest =>
    simp only [advanced, claimModel, bind_eq_ok, ensure_eq_ok, Except.ok.injEq] at h
    obtain ⟨_, ⟨hcursor, hadmit, -⟩, next, hclaim, rfl⟩ := h
    obtain ⟨hnew, rfl⟩ := claim_eq_ok hclaim
    exact .claimedModel effect digest hcursor (calls_lt_of_admissible hadmit) hnew
  | resolveModel effect result decision =>
    simp only [advanced, resolveModel, bind_eq_ok, ensure_eq_ok, Except.ok.injEq] at h
    obtain ⟨_, hcursor, _, ⟨-, -, hlooks⟩, cursor, hdecided, rfl⟩ := h
    exact .resolved effect result decision cursor (effect?_of_model_cursor hcursor) hlooks
      (decided_eq_ok hdecided)
  | claimTool effect digest =>
    simp only [advanced, claimTool] at h
    split at h
    case h_1 tool digest' hcursor =>
      simp only [bind_eq_ok, ensure_eq_ok, Except.ok.injEq] at h
      obtain ⟨_, ⟨rfl, -, hcalls, hlooks⟩, next, hclaim, rfl⟩ := h
      obtain ⟨hnew, rfl⟩ := claim_eq_ok hclaim
      exact .claimedTool effect tool _ hcursor hcalls hnew hlooks
    case h_2 => cases h
  | observeTool observation =>
    simp only [advanced, observeTool] at h
    split at h
    case h_1 effect tool digest hcursor | h_2 effect tool digest hcursor =>
      simp only [bind_eq_ok, ensure_eq_ok, Except.ok.injEq] at h
      obtain ⟨_, ⟨rfl, -⟩, rfl⟩ := h
      exact .observed observation tool (by rw [hcursor]; rfl)
    case h_3 => cases h
  | commitCollaboration effect digest =>
    simp only [advanced, commitCollaboration] at h
    split at h
    case h_1 effect' action hcursor =>
      simp only [bind_eq_ok, ensure_eq_ok, Except.ok.injEq] at h
      obtain ⟨_, ⟨rfl, -⟩, rfl⟩ := h
      exact .quiet _ _ rfl (.inr (by rw [hcursor]; rfl)) (.inl rfl) (.inl rfl)
    case h_2 => cases h
  | markUnknown effect =>
    simp only [advanced, markUnknown] at h
    split at h
    case h_1 effect' hcursor | h_2 effect' tool digest hcursor =>
      simp only [bind_eq_ok, ensure_eq_ok, Except.ok.injEq] at h
      obtain ⟨_, rfl, rfl⟩ := h
      refine .quiet _ _ rfl ?_ ?_ ?_ <;> right <;> rw [hcursor] <;> rfl
    case h_3 => cases h
  | rejectModel effect event reason =>
    simp only [advanced, rejectModel, bind_eq_ok, ensure_eq_ok, Except.ok.injEq] at h
    obtain ⟨_, hcursor, _, -, rfl⟩ := h
    exact .quiet _ _ rfl (.inr (effect?_of_model_cursor hcursor).symm) (.inl rfl) (.inl rfl)
  | resumeRejectedModel operation reason event receipt =>
    simp only [advanced, resumeRejectedModel, bind_eq_ok, ensure_eq_ok, Except.ok.injEq] at h
    obtain ⟨_, -, _, -, rfl⟩ := h
    exact .quiet _ _ rfl (.inl rfl) (.inl rfl) (.inl rfl)
  | resolveBlocked reason event =>
    simp only [advanced, resolveBlocked, bind_eq_ok, ensure_eq_ok, Except.ok.injEq] at h
    obtain ⟨_, -, rfl⟩ := h
    exact .quiet _ _ rfl (.inl rfl) (.inl rfl) (.inl rfl)
  | cancel =>
    simp only [advanced, cancel] at h
    split at h <;> cases h
    all_goals exact .quiet _ _ rfl (.inl rfl) (.inl rfl) (.inl rfl)

theorem transition_moves {command : AdaptiveTransitionV1} (h : s.transition command nowMs = .ok t) :
    ∃ next, s.Moves command next ∧
      t = { next with version := next.version + 1, updatedAtMs := nowMs } := by
  simp only [transition, bind_eq_ok, ensure_eq_ok, orError_eq_ok, checkedAdd_eq_some,
    Except.ok.injEq] at h
  obtain ⟨_, -, next, hnext, version, ⟨rfl, -⟩, rfl⟩ := h
  exact ⟨next, advanced_moves hnext, rfl⟩

end
end AdaptiveSessionV1
end Sentinel.Workflow

import Sentinel.Workflow.AdaptiveAccounting

/-! The windows of model calls. The duration of a call, the window it is made in and the margin
before the deadline come from the grant, from the continuation opened last and from the funding
epoch adopted last. What ties the three together is the check of the authorization opened last. -/

namespace Sentinel.Workflow
open Lib

namespace AdaptiveContinuationAuthorizationV1

def safetyMargin? (a : AdaptiveContinuationAuthorizationV1) : Option ℕ :=
  match a.workFunding with
  | some epoch => some epoch.binding.limits.dispatchMarginMs
  | none => a.resumePolicy.map (·.limits.dispatchMarginMs)

variable {a : AdaptiveContinuationAuthorizationV1}

theorem le_window_of_fitsCall {duration margin : ℕ} (h : a.fitsCall duration margin) :
    duration ≤ a.windowMs := by
  obtain ⟨total, htotal, hle⟩ := (Option.any_eq_true _ _).1 h
  have hsum : duration + margin = total := (checkedAdd_eq_some.1 htotal).1
  have hfits : total ≤ a.windowMs := of_decide_eq_true hle
  exact (Nat.le_add_right duration margin).trans (hsum.le.trans hfits)

variable [AdaptiveDigests]

theorem funded_call_le_window (h : a.validate = .ok ()) {epoch : AdaptiveWorkFundingEpochV1}
    (hepoch : a.workFunding = some epoch) :
    epoch.binding.limits.maxCallDurationMs ≤ a.windowMs := by
  simp only [validate, validateFunding, hepoch, bind_eq_ok, ensure_eq_ok] at h
  obtain ⟨_, -, _, ⟨_, -, hbounds⟩, -⟩ := h
  exact le_window_of_fitsCall hbounds.2.2.2.2.2.2.2

theorem policy_call_le_window (h : a.validate = .ok ()) {binding : AdaptiveResumePolicyBindingV1}
    (hbinding : a.resumePolicy = some binding) :
    binding.limits.maxCallDurationMs ≤ a.windowMs := by
  simp only [validate, validateResume, hbinding, bind_eq_ok, ensure_eq_ok] at h
  obtain ⟨_, -, _, -, _, ⟨_, -, hbounds⟩, -⟩ := h
  exact le_window_of_fitsCall hbounds.2.2.2.2

end AdaptiveContinuationAuthorizationV1

namespace AdaptiveSessionV1

/-- `effective_grant`: the grant as the window opened last narrows or widens it. -/
def effectiveGrant (s : AdaptiveSessionV1) : AdaptiveSessionGrantV1 :=
  match s.lastAuthorization with
  | none => s.grant
  | some a =>
    { s.grant with
      providerAllowanceId := a.providerAllowanceId
      providerAuthorityDigest := a.providerAuthorityDigest
      createdAtMs := a.issuedAtMs
      deadlineMs := a.deadlineMs
      maxModelCalls := s.activeModelCeiling
      maxToolCalls := s.fundedToolCallCeiling
      maxCallDurationMs := s.effectiveCallDurationMs }

def activeWindowMs (s : AdaptiveSessionV1) : ℕ :=
  s.effectiveGrant.deadlineMs - s.effectiveGrant.createdAtMs

variable {s : AdaptiveSessionV1}

theorem activeWindowMs_root (h : s.lastAuthorization = none) :
    s.activeWindowMs = s.grant.deadlineMs - s.grant.createdAtMs := by
  simp only [activeWindowMs, effectiveGrant, h]

theorem activeWindowMs_continued {a : AdaptiveContinuationAuthorizationV1}
    (h : s.lastAuthorization = some a) : s.activeWindowMs = a.windowMs := by
  simp only [activeWindowMs, effectiveGrant, h]
  rfl

/-! ### The duration of a call without funding -/

section
variable (root : ℕ)

theorem durationAfter_le_root (history : List AdaptiveContinuationAuthorizationV1) {duration : ℕ}
    (h : duration ≤ root) : durationAfter root duration history ≤ root := by
  induction history generalizing duration with
  | nil => exact h
  | cons a rest ih =>
    unfold durationAfter
    split
    · exact ih (min_le_left _ _)
    · split_ifs
      · exact Nat.zero_le _
      · exact ih (min_le_left _ _)
      · exact ih ((min_le_left _ _).trans h)

theorem durationAfter_concat_le (history : List AdaptiveContinuationAuthorizationV1)
    (a : AdaptiveContinuationAuthorizationV1) (duration : ℕ) :
    durationAfter root duration (history ++ [a]) ≤
      (a.resumePolicy.map (·.limits.maxCallDurationMs)).getD a.windowMs := by
  induction history generalizing duration with
  | nil =>
    rw [List.nil_append]
    unfold durationAfter
    cases hpolicy : a.resumePolicy with
    | some binding => exact min_le_right _ _
    | none =>
      show (if _ then _ else _) ≤ a.windowMs
      split_ifs
      · exact Nat.zero_le _
      · exact min_le_right _ _
      · exact min_le_right _ _
  | cons prior rest ih =>
    rw [List.cons_append]
    unfold durationAfter
    split
    · exact ih _
    · split_ifs
      · exact Nat.zero_le _
      · exact ih _
      · exact ih _

end

theorem effectiveCallDurationMs_le_root (h : s.activeWorkFunding = none) :
    s.effectiveCallDurationMs ≤ s.grant.maxCallDurationMs := by
  rw [effectiveCallDurationMs, h]
  exact durationAfter_le_root _ s.history le_rfl

/-! ### The authorization opened last -/

section
variable [AdaptiveDigests]

/-- The authorization opened last passed its check, and where it carries no epoch the session has
none: a funded session is only continued by funded windows. -/
def Windowed (s : AdaptiveSessionV1) : Prop :=
  ∀ a, s.lastAuthorization = some a →
    a.validate = .ok () ∧ s.activeWorkFunding = a.workFunding

variable {s t : AdaptiveSessionV1}

theorem windowed_of_history_eq (hs : s.Windowed) (h : t.history = s.history) : t.Windowed := by
  intro a ha
  simp only [lastAuthorization, activeWorkFunding, h] at ha ⊢
  exact hs a ha

variable {a : AdaptiveContinuationAuthorizationV1} {nowMs : ℕ}

theorem windowed_continued (hvalid : a.validate = .ok ())
    (hunfunded : a.workFunding = none → s.activeWorkFunding = none) : (s.continued a).Windowed := by
  intro b hb
  have hlast : (s.continued a).lastAuthorization = some a := by
    simp only [lastAuthorization, history_continued, List.getLast?_concat]
  obtain rfl : a = b := by simpa [hlast] using hb
  refine ⟨hvalid, ?_⟩
  rw [activeWorkFunding_continued]
  cases hfunding : a.workFunding with
  | none => simpa using hunfunded hfunding
  | some epoch => rfl

theorem validate_of_continueGoverned (h : s.continueGoverned a nowMs = .ok t) :
    a.validate = .ok () := by
  simp only [continueGoverned, bind_eq_ok, ensure_eq_ok, Except.ok.injEq] at h
  obtain ⟨_, -, _, hvalid, -⟩ := h
  exact hvalid

omit [AdaptiveDigests] in
theorem Moves.history_eq {command : AdaptiveTransitionV1} (h : s.Moves command t)
    (hcommand : ∀ a, command ≠ .continueGoverned a) : t.history = s.history := by
  cases h with
  | continued a => exact absurd rfl (hcommand a)
  | observed observation tool => exact history_recordObservation s tool observation
  | _ => rfl

theorem Windowed.transition (hs : s.Windowed) {command : AdaptiveTransitionV1} {nowMs : ℕ}
    (h : s.transition command nowMs = .ok t) : t.Windowed := by
  have hparts := h
  simp only [AdaptiveSessionV1.transition, bind_eq_ok, orError_eq_ok, Except.ok.injEq] at hparts
  obtain ⟨_, -, next, hnext, version, -, rfl⟩ := hparts
  -- the version and the clock are not read by the history
  suffices hnextW : next.Windowed from windowed_of_history_eq hnextW rfl
  cases command with
  | continueGoverned a =>
    obtain ⟨hcont, rfl⟩ := continueGoverned_eq_ok hnext
    exact windowed_continued (validate_of_continueGoverned hnext) hcont.unfunded
  | _ =>
    apply windowed_of_history_eq hs
    refine (advanced_moves hnext).history_eq fun a ha => ?_
    cases ha

theorem Windowed.final (hs : s.Windowed) (calls : List (AdaptiveTransitionV1 × ℕ)) :
    (machine.final s calls).Windowed :=
  final_of_transition (fun _ _ _ _ hs ht => hs.transition ht) hs calls

theorem Windowed.duration_le (hs : s.Windowed) (ha : s.lastAuthorization = some a) :
    s.effectiveCallDurationMs ≤ a.windowMs := by
  obtain ⟨hvalid, hfunding⟩ := hs a ha
  unfold effectiveCallDurationMs
  rw [hfunding]
  cases hepoch : a.workFunding with
  | some epoch => exact AdaptiveContinuationAuthorizationV1.funded_call_le_window hvalid hepoch
  | none =>
    obtain ⟨earlier, hhistory⟩ : ∃ earlier, s.history = earlier ++ [a] :=
      List.getLast?_eq_some_iff.1 ha
    have hlast := durationAfter_concat_le s.grant.maxCallDurationMs earlier a
      s.grant.maxCallDurationMs
    show durationAfter _ _ s.history ≤ _
    rw [hhistory]
    refine hlast.trans ?_
    cases hpolicy : a.resumePolicy with
    | some binding => exact AdaptiveContinuationAuthorizationV1.policy_call_le_window hvalid hpolicy
    | none => exact le_rfl

theorem Windowed.dispatchMarginMs_eq (hs : s.Windowed) (ha : s.lastAuthorization = some a) :
    s.dispatchMarginMs = a.safetyMargin? := by
  unfold dispatchMarginMs AdaptiveContinuationAuthorizationV1.safetyMargin?
  rw [(hs a ha).2, ha]
  cases a.workFunding <;> rfl

omit [AdaptiveDigests] in
theorem slack_of_admissible {margin : ℕ} (hmargin : s.dispatchMarginMs = some margin)
    (h : s.modelAdmissionAt nowMs = .admissible) :
    nowMs + s.effectiveCallDurationMs + margin ≤ s.activeDeadlineMs := by
  unfold modelAdmissionAt at h
  rw [hmargin] at h
  split_ifs at h with _ _ hdeadline
  simp only [ite_eq_left_iff, reduceCtorEq, imp_false, not_not] at h
  obtain ⟨total, htotal, hle⟩ := (Option.any_eq_true _ _).1 h
  have hsum : s.effectiveCallDurationMs + margin = total := (checkedAdd_eq_some.1 htotal).1
  have hroom : total ≤ s.activeDeadlineMs - nowMs := of_decide_eq_true hle
  omega

theorem admissible_of_claimModel {effect : AdaptiveEffectV1} {digest : Option String}
    (h : s.transition (.claimModel effect digest) nowMs = .ok t) :
    s.modelAdmissionAt nowMs = .admissible := by
  simp only [AdaptiveSessionV1.transition, advanced, claimModel, bind_eq_ok, ensure_eq_ok] at h
  obtain ⟨_, -, _, ⟨_, ⟨-, hadmit, -⟩, -⟩, -⟩ := h
  exact hadmit

/-- **Model-call windows.** In every session a run reaches from a valid grant, recorded at any
time, the duration of a call fits the active window exactly when a continuation has been opened or
the root cap fits the root window; without funding it never exceeds the root cap; and a model call
accepted inside a policy or funded window ends before the deadline with its margin to spare. -/
theorem model_calls_fit_windows {grant : AdaptiveSessionGrantV1} (h : initial grant = .ok s)
    (recordedAtMs : ℕ) (calls : List (AdaptiveTransitionV1 × ℕ)) :
    let t := machine.final { s with updatedAtMs := recordedAtMs } calls
    (t.effectiveCallDurationMs ≤ t.activeWindowMs ↔
        t.lastAuthorization ≠ none ∨
          grant.maxCallDurationMs ≤ grant.deadlineMs - grant.createdAtMs) ∧
      (t.activeWorkFunding = none → t.effectiveCallDurationMs ≤ grant.maxCallDurationMs) ∧
      ∀ a margin effect digest nowMs u, t.lastAuthorization = some a →
        a.safetyMargin? = some margin →
        t.transition (.claimModel effect digest) nowMs = .ok u →
        nowMs + t.effectiveCallDurationMs + margin ≤ a.deadlineMs := by
  intro t
  obtain ⟨rfl, hopened⟩ := initial_eq_ok h
  have hstart : ({ opened grant with updatedAtMs := recordedAtMs } : AdaptiveSessionV1).Windowed :=
    fun a ha => nomatch ha
  have hwindowed : t.Windowed := hstart.final calls
  have hbounded : t.Bounded grant := (hopened recordedAtMs).final calls
  have hgrant : t.grant = grant := hbounded.grant_eq
  refine ⟨?_, ?_, ?_⟩
  · cases hlast : t.lastAuthorization with
    | none =>
      -- no window has been opened: the root cap stands beside the root window
      have hempty : t.history = [] := List.getLast?_eq_none_iff.1 hlast
      have hduration : t.effectiveCallDurationMs = grant.maxCallDurationMs := by
        simp [effectiveCallDurationMs, activeWorkFunding, hempty, durationAfter, hgrant]
      rw [activeWindowMs_root hlast, hduration, hgrant]
      simp
    | some a =>
      rw [activeWindowMs_continued hlast]
      simp [hwindowed.duration_le hlast]
  · intro hunfunded
    exact hgrant ▸ effectiveCallDurationMs_le_root hunfunded
  · intro a margin effect digest nowMs u hlast hmargin hclaim
    have hdeadline : t.activeDeadlineMs = a.deadlineMs := by simp [activeDeadlineMs, hlast]
    rw [← hdeadline]
    apply slack_of_admissible
    · rw [hwindowed.dispatchMarginMs_eq hlast, hmargin]
    · exact admissible_of_claimModel hclaim

end

/-! ### A policy window, and a root window shorter than its cap -/

def policyContinuation : AdaptiveContinuationAuthorizationV1 :=
  { sampleContinuation with
    source := .modelUnknown
    abandonedModelEffect := some ⟨21, sampleDigest⟩
    deadlineMs := 290000
    resumePolicy := some
      { schemaVersion := 1, policyId := "policy-1", receiptDigest := sampleDigest, ordinal := 1
        limits :=
          { totalReviewCeiling := 4, totalWindowCeiling := 4, maxWindowMs := 100000
            maxCallDurationMs := 60000, dispatchMarginMs := 1000, expiresAtUnixMs := 1000000 } } }

def policyCalls : List (AdaptiveTransitionV1 × ℕ) :=
  [(.claimModel ⟨21, sampleDigest⟩ none, 2000), (.markUnknown ⟨21, sampleDigest⟩, 3000),
    (.continueGoverned policyContinuation, 200000)]

attribute [local instance] sampleDigests

def policyWindow : AdaptiveSessionV1 :=
  machine.final { opened sampleGrant with updatedAtMs := 1000 } policyCalls

def policyClaim : Except WorkflowError AdaptiveSessionV1 :=
  transition policyWindow (.claimModel ⟨22, sampleDigest⟩ none) 210000

theorem policy_call_fits_window :
    policyClaim.isOk ∧ policyWindow.effectiveCallDurationMs = 60000 ∧
      policyWindow.effectiveCallDurationMs ≤ policyWindow.activeWindowMs ∧
      210000 + policyWindow.effectiveCallDurationMs + 1000 ≤ 290000 := by
  have hok : policyClaim.isOk := by decide +kernel
  have hlast : policyWindow.lastAuthorization = some policyContinuation := by decide +kernel
  obtain ⟨hwindow, -, hclaims⟩ := model_calls_fit_windows
    (show initial sampleGrant = .ok (opened sampleGrant) by decide +kernel) 1000 policyCalls
  obtain ⟨u, hu⟩ : ∃ u, policyClaim = .ok u := by
    cases hclaim : policyClaim with
    | ok u => exact ⟨u, rfl⟩
    | error e => rw [hclaim] at hok; cases hok
  refine ⟨hok, by decide +kernel, hwindow.2 (.inl ?_), ?_⟩
  · exact ne_of_eq_of_ne hlast (Option.some_ne_none _)
  · exact hclaims policyContinuation 1000 _ none 210000 u hlast rfl hu

def shortGrant : AdaptiveSessionGrantV1 := { sampleGrant with maxCallDurationMs := 120000 }

theorem root_cap_exceeds_window :
    initial shortGrant = .ok (opened shortGrant) ∧
      (opened shortGrant).activeWindowMs = 99000 ∧
      (opened shortGrant).effectiveCallDurationMs = 120000 := by
  decide +kernel

end AdaptiveSessionV1
end Sentinel.Workflow

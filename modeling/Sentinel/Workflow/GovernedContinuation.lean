import Sentinel.Workflow.AdaptiveAccounting

/-! After a governed continuation an adaptive session looks before it acts, and an effect that a
continuation abandoned is never named again. -/

namespace Sentinel.Workflow
open Lib

namespace AdaptiveSessionV1

namespace Event

def ClaimsTool (e : Event) (effect : AdaptiveEffectV1) (tool : WorkbenchTool) : Prop :=
  ∃ digest now t, e = ((.claimTool effect digest, now), .ok t) ∧
    t.cursor = .toolPending effect tool digest

def Observes (e : Event) (effect : AdaptiveEffectV1) : Prop :=
  ∃ observation now t, e = ((.observeTool observation, now), .ok t) ∧ observation.effect = effect

end Event

def HasLooked (run : List Event) : Prop :=
  ∃ claim observation effect tool, [claim, observation].Sublist run ∧
    Event.ClaimsTool claim effect tool ∧ tool.looks ∧ Event.Observes observation effect

def Acts (s : AdaptiveSessionV1) (command : AdaptiveTransitionV1) : Prop :=
  (∃ effect tool digest, command = .claimTool effect digest ∧
      s.cursor = .readyForTool tool digest ∧ ¬ tool.looks) ∨
    (∃ effect result artifact, command = .resolveModel effect result
      (.proposeCompletion artifact)) ∨
    ∃ effect result action, command = .resolveModel effect result (.collaborate action)

variable {s t u : AdaptiveSessionV1} {command : AdaptiveTransitionV1}

theorem Moves.not_acts (h : s.Moves command t) (hfresh : s.requiresFreshObservation) :
    ¬ s.Acts command := by
  rintro (⟨effect, tool, digest, rfl, hcursor, hactive⟩ | ⟨effect, result, artifact, rfl⟩ |
    ⟨effect, result, action, rfl⟩)
  · cases h with
    | claimedTool _ tool' _ hcursor' hcalls hnew hlooks =>
      obtain rfl : tool' = tool := by simpa using hcursor'.symm.trans hcursor
      exact hactive (hlooks hfresh)
    | quiet _ _ hcommand => cases hcommand
  · cases h with
    | resolved _ _ _ _ _ hlooks => cases hlooks hfresh
    | quiet _ _ hcommand => cases hcommand
  · cases h with
    | resolved _ _ _ _ _ hlooks => cases hlooks hfresh
    | quiet _ _ hcommand => cases hcommand

/-- Since the continuation the session has looked, or it still has to, and then every tool call it
waits for was claimed since. -/
def LooksFirst (run : List Event) (s : AdaptiveSessionV1) : Prop :=
  HasLooked run ∨ s.requiresFreshObservation ∧
    ∀ effect tool, s.cursor.toolCall? = some (effect, tool) →
      ∃ claim ∈ run, Event.ClaimsTool claim effect tool

theorem HasLooked.append {run : List Event} (h : HasLooked run) (more : List Event) :
    HasLooked (run ++ more) := by
  obtain ⟨claim, observation, effect, tool, hsub, hrest⟩ := h
  exact ⟨claim, observation, effect, tool, hsub.trans (List.sublist_append_left _ _), hrest⟩

theorem LooksFirst.wait {run : List Event} (e : Event)
    (hfresh : s.requiresFreshObservation)
    (hclaims : ∀ effect tool, s.cursor.toolCall? = some (effect, tool) →
      ∃ claim ∈ run, Event.ClaimsTool claim effect tool) :
    LooksFirst (run ++ [e]) s := by
  refine .inr ⟨hfresh, fun effect tool hcall => ?_⟩
  obtain ⟨claim, hmem, hclaim⟩ := hclaims effect tool hcall
  exact ⟨claim, List.mem_append_left _ hmem, hclaim⟩

theorem LooksFirst.move {run : List Event} (h : LooksFirst run s) {now : ℕ}
    (hmoves : s.Moves command t)
    (hanswer : u = { t with version := t.version + 1, updatedAtMs := now }) :
    LooksFirst (run ++ [((command, now), .ok u)]) u := by
  rcases h with h | ⟨hfresh, hclaims⟩
  · exact .inl (h.append _)
  have hidle : ∀ {c : AdaptiveCursorV1}, c.toolCall? = none → ∀ effect tool,
      c.toolCall? = some (effect, tool) → ∃ claim ∈ run, Event.ClaimsTool claim effect tool := by
    intro c hnone effect tool hcall
    rw [hnone] at hcall
    cases hcall
  subst hanswer
  cases hmoves with
  | continued a hcont => exact LooksFirst.wait _ rfl (hidle rfl)
  | claimedModel effect digest hcursor hcalls hnew => exact LooksFirst.wait _ hfresh (hidle rfl)
  | resolved effect result decision cursor hcursor hlooks hnext =>
    exact LooksFirst.wait _ hfresh (hidle hnext.1)
  | claimedTool effect tool digest hcursor hcalls hnew hlooks =>
    -- the claim itself is the event that is now looked for
    refine .inr ⟨hfresh, fun effect' tool' hcall => ?_⟩
    obtain ⟨rfl, rfl⟩ : effect = effect' ∧ tool = tool' := by
      simpa [AdaptiveCursorV1.toolCall?] using hcall
    exact ⟨_, List.mem_append_right _ (List.mem_singleton_self _), digest, now, _, rfl, rfl⟩
  | observed observation tool hcursor =>
    by_cases hlooks : tool.looks = true
    · obtain ⟨claim, hmem, hclaim⟩ := hclaims _ _ hcursor
      have hsub : ∀ e : Event, [claim, e].Sublist (run ++ [e]) :=
        fun e => (List.singleton_sublist.2 hmem).append (List.Sublist.refl [e])
      exact .inl ⟨claim, _, observation.effect, tool, hsub _, hclaim, hlooks,
        observation, now, _, rfl, rfl⟩
    · have hstill : (s.recordObservation tool observation).requiresFreshObservation := by
        simpa [recordObservation, hlooks, requiresFreshObservation] using hfresh
      have hready : (s.recordObservation tool observation).cursor = .readyForModel := rfl
      exact LooksFirst.wait _ hstill (hidle (by rw [hready]; rfl))
  | quiet command cursor hcommand hnamed htool heffect =>
    rcases htool with htool | htool
    · exact LooksFirst.wait _ hfresh (hidle htool)
    · exact LooksFirst.wait _ hfresh (fun effect tool hcall => hclaims effect tool (htool ▸ hcall))

/-! ### Abandoned effects -/

structure Settled (s : AdaptiveSessionV1) : Prop where
  claimed : ∀ effect, s.cursor.effect? = some effect → effect.id ∈ s.effectIds
  abandoned : ∀ a ∈ s.history, ∀ effect, a.abandonedModelEffect = some effect →
    effect.id ∈ s.effectIds
  apart : ∀ a ∈ s.history, ∀ old, a.abandonedModelEffect = some old →
    ∀ effect, s.cursor.effect? = some effect → effect.id ≠ old.id

theorem Settled.of_cursor (h : s.Settled) (hhistory : t.history = s.history)
    (hids : t.effectIds = s.effectIds)
    (hcursor : t.cursor.effect? = none ∨ t.cursor.effect? = s.cursor.effect?) : t.Settled := by
  have hsame : ∀ effect, t.cursor.effect? = some effect → s.cursor.effect? = some effect := by
    intro effect heffect
    rcases hcursor with hnone | hsame
    · rw [hnone] at heffect
      cases heffect
    · rwa [hsame] at heffect
  refine ⟨?_, ?_, ?_⟩
  · intro effect heffect
    rw [hids]
    exact h.claimed effect (hsame effect heffect)
  · rw [hhistory, hids]
    exact h.abandoned
  · rw [hhistory]
    intro a ha old hold effect heffect
    exact h.apart a ha old hold effect (hsame effect heffect)

theorem Settled.of_claim (h : s.Settled) {effect : AdaptiveEffectV1}
    (hnew : effect.id ∉ s.effectIds) (hhistory : t.history = s.history)
    (hids : t.effectIds = insert effect.id s.effectIds)
    (hcursor : t.cursor.effect? = some effect) : t.Settled := by
  refine ⟨?_, ?_, ?_⟩
  · intro other hother
    obtain rfl : effect = other := by simpa [hcursor] using hother
    simp [hids]
  · rw [hhistory, hids]
    exact fun a ha old hold => Finset.mem_insert_of_mem (h.abandoned a ha old hold)
  · rw [hhistory]
    intro a ha old hold other hother hid
    obtain rfl : effect = other := by simpa [hcursor] using hother
    exact hnew (hid ▸ h.abandoned a ha old hold)

theorem Moves.settled (hmoves : s.Moves command t) (h : s.Settled) : t.Settled := by
  cases hmoves with
  | continued a hcont =>
    refine ⟨fun effect heffect => ?_, fun b hb old hold => ?_,
      fun b hb old hold effect heffect => ?_⟩
    · cases heffect
    · rw [history_continued, List.mem_append, List.mem_singleton] at hb
      rcases hb with hb | rfl
      · exact h.abandoned b hb old hold
      · exact h.claimed old (by rw [hcont.abandons old hold]; rfl)
    · cases heffect
  | claimedModel effect digest hcursor hcalls hnew => exact h.of_claim hnew rfl rfl rfl
  | resolved effect result decision cursor hcursor hlooks hnext =>
    exact h.of_cursor rfl rfl (hcursor ▸ hnext.2)
  | claimedTool effect tool digest hcursor hcalls hnew hlooks => exact h.of_claim hnew rfl rfl rfl
  | observed observation tool hcursor =>
    exact h.of_cursor (history_recordObservation s tool observation)
      (counters_recordObservation s tool observation).2.2.1 (.inl rfl)
  | quiet command cursor hcommand hnamed htool heffect => exact h.of_cursor rfl rfl heffect

theorem Moves.names_no_abandoned (hmoves : s.Moves command t) (h : s.Settled)
    {a : AdaptiveContinuationAuthorizationV1} (ha : a ∈ s.history) {old named : AdaptiveEffectV1}
    (hold : a.abandonedModelEffect = some old) (hnamed : command.effect? = some named) :
    named.id ≠ old.id := by
  have hnew : ∀ {effect : AdaptiveEffectV1}, effect.id ∉ s.effectIds → effect.id ≠ old.id := by
    intro effect hfresh hid
    exact hfresh (hid ▸ h.abandoned a ha old hold)
  have hwaits : s.cursor.effect? = some named → named.id ≠ old.id := h.apart a ha old hold named
  cases hmoves with
  | continued => cases hnamed
  | claimedModel effect digest hcursor hcalls hfresh =>
    cases hnamed
    exact hnew hfresh
  | resolved effect result decision cursor hcursor =>
    cases hnamed
    exact hwaits hcursor
  | claimedTool effect tool digest hcursor hcalls hfresh =>
    cases hnamed
    exact hnew hfresh
  | observed observation tool hcursor =>
    cases hnamed
    exact hwaits (AdaptiveCursorV1.effect?_of_toolCall? hcursor)
  | quiet command cursor hcommand hsays =>
    rcases hsays with hnone | hsame
    · rw [hnone] at hnamed
      cases hnamed
    · exact hwaits (hsame ▸ hnamed)

theorem Moves.history_subset (hmoves : s.Moves command t)
    {a : AdaptiveContinuationAuthorizationV1} (ha : a ∈ s.history) : a ∈ t.history := by
  cases hmoves with
  | continued b =>
    rw [history_continued]
    exact List.mem_append_left _ ha
  | observed observation tool =>
    rw [history_recordObservation]
    exact ha
  | _ => exact ha

theorem settled_opened (grant : AdaptiveSessionGrantV1) (recordedAtMs : ℕ) :
    ({ opened grant with updatedAtMs := recordedAtMs } : AdaptiveSessionV1).Settled where
  claimed _ h := by cases h
  abandoned _ h := by cases h
  apart _ h := by cases h

section
variable [AdaptiveDigests]

theorem LooksFirst.final (h : LooksFirst [] s) (calls : List (AdaptiveTransitionV1 × ℕ)) :
    LooksFirst (machine.trace s calls) (machine.final s calls) := by
  refine machine.final_trace (fun past s call hs => ?_) h calls
  rcases call_cases s call with ⟨e, -, hcall⟩ | ⟨next, t, -, hmoves, ht, hcall⟩
  · rw [hcall]
    rcases hs with hs | ⟨hfresh, hclaims⟩
    · exact .inl (hs.append _)
    · exact LooksFirst.wait _ hfresh hclaims
  · rw [hcall]
    exact hs.move hmoves ht

theorem Settled.transition (h : s.Settled) {command : AdaptiveTransitionV1} {now : ℕ}
    (ht : s.transition command now = .ok t) : t.Settled := by
  obtain ⟨next, hmoves, rfl⟩ := transition_moves ht
  exact (hmoves.settled h).of_cursor rfl rfl (.inr rfl)

theorem Settled.final (h : s.Settled) (calls : List (AdaptiveTransitionV1 × ℕ)) :
    (machine.final s calls).Settled :=
  final_of_transition (fun _ _ _ _ hs ht => hs.transition ht) h calls

theorem mem_history_final {a : AdaptiveContinuationAuthorizationV1} (ha : a ∈ s.history)
    (calls : List (AdaptiveTransitionV1 × ℕ)) : a ∈ (machine.final s calls).history := by
  refine final_of_transition (I := fun u => a ∈ u.history) ?_ ha calls
  intro u t command nowMs hu ht
  obtain ⟨next, hmoves, rfl⟩ := transition_moves ht
  exact hmoves.history_subset hu

theorem continueGoverned_starts {a : AdaptiveContinuationAuthorizationV1} {now : ℕ}
    (h : s.transition (.continueGoverned a) now = .ok t) : LooksFirst [] t ∧ a ∈ t.history := by
  obtain ⟨next, hmoves, rfl⟩ := transition_moves h
  cases hmoves with
  | continued a hcont =>
    refine ⟨.inr ⟨rfl, fun _ _ hcall => by cases hcall⟩, ?_⟩
    show a ∈ (s.continued a).history
    simp
  | quiet _ _ hcommand => cases hcommand

/-- **A governed continuation is read-only until it has looked.** After an accepted continuation, a
transition that claims another tool or proposes a completion or a collaboration is accepted only
when, since the continuation, an effect was claimed for a looking tool and then observed. The effect
that a continuation of a session abandoned is named by no later accepted transition. -/
theorem governed_continuation {a : AdaptiveContinuationAuthorizationV1} {now : ℕ}
    (h : s.transition (.continueGoverned a) now = .ok t)
    (calls : List (AdaptiveTransitionV1 × ℕ)) {command : AdaptiveTransitionV1} {later : ℕ}
    (hnext : (machine.final t calls).transition command later = .ok u) :
    ((machine.final t calls).Acts command → HasLooked (machine.trace t calls)) ∧
      ∀ grant first recordedAtMs past, initial grant = .ok first →
        s = machine.final { first with updatedAtMs := recordedAtMs } past →
        ∀ old, a.abandonedModelEffect = some old →
          ∀ named, command.effect? = some named → named.id ≠ old.id := by
  obtain ⟨hstart, hmem⟩ := continueGoverned_starts h
  obtain ⟨last, hlast, -⟩ := transition_moves hnext
  constructor
  · intro hacts
    rcases hstart.final calls with hlooked | ⟨hfresh, -⟩
    · exact hlooked
    · exact absurd hacts (hlast.not_acts hfresh)
  · rintro grant first recordedAtMs past hfirst rfl old hold named hnamed
    obtain ⟨rfl, -⟩ := initial_eq_ok hfirst
    have hsettled : t.Settled := ((settled_opened grant recordedAtMs).final past).transition h
    exact hlast.names_no_abandoned (hsettled.final calls) (mem_history_final hmem calls) hold hnamed

end

/-! ### A run -/

def lookingCalls : List (AdaptiveTransitionV1 × ℕ) :=
  [(.claimModel ⟨22, sampleDigest⟩ none, 201000),
    (.resolveModel ⟨22, sampleDigest⟩ sampleDigest (.tool sampleTool sampleDigest), 202000),
    (.claimTool ⟨23, sampleDigest⟩ sampleDigest, 203000),
    (.observeTool ⟨⟨23, sampleDigest⟩, sampleDigest⟩, 204000),
    (.claimModel ⟨24, sampleDigest⟩ (some sampleDigest), 205000)]

attribute [local instance] sampleDigests

def unknownSession : AdaptiveSessionV1 :=
  machine.final { opened sampleGrant with updatedAtMs := 1500 }
    [(.claimModel ⟨21, sampleDigest⟩ none, 2000), (.markUnknown ⟨21, sampleDigest⟩, 3000)]

def abandoningContinuation : AdaptiveContinuationAuthorizationV1 :=
  { sampleContinuation with
    source := .modelUnknown
    abandonedModelEffect := some ⟨21, sampleDigest⟩
    additionalModelCalls := 3 }

def continuedSession : AdaptiveSessionV1 :=
  (machine.call unknownSession (.continueGoverned abandoningContinuation, 200000)).1

def completionProposal : AdaptiveTransitionV1 :=
  .resolveModel ⟨24, sampleDigest⟩ sampleDigest (.proposeCompletion sampleDigest)

/-- A call whose outcome is unknown is abandoned; the completion proposed later comes after a look
and names another effect. -/
theorem governed_continuation_completed :
    HasLooked (machine.trace continuedSession lookingCalls) ∧
      ((machine.final continuedSession lookingCalls).cursor =
        .modelPending ⟨24, sampleDigest⟩) ∧
      ∀ old, abandoningContinuation.abandonedModelEffect = some old →
        ∀ named, completionProposal.effect? = some named → named.id ≠ old.id := by
  have hstart : transition unknownSession (.continueGoverned abandoningContinuation) 200000 =
      .ok continuedSession := by decide +kernel
  have hnext : transition (machine.final continuedSession lookingCalls) completionProposal 206000 =
      .ok (machine.final continuedSession
        (lookingCalls ++ [(completionProposal, 206000)])) := by decide +kernel
  have hproposes : (machine.final continuedSession lookingCalls).Acts completionProposal :=
    .inr (.inl ⟨_, _, _, rfl⟩)
  obtain ⟨hlooked, hnamed⟩ := governed_continuation hstart lookingCalls hnext
  exact ⟨hlooked hproposes, by decide +kernel,
    hnamed sampleGrant (opened sampleGrant) 1500 _ (by decide +kernel) rfl⟩

end AdaptiveSessionV1
end Sentinel.Workflow

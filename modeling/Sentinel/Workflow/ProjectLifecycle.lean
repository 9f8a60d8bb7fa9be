import Sentinel.Workflow.CostLedger

/-! The lifecycle of a project. Two helpers recompute it: one looks at the work and the open
blockers, the other returns to the state that the last blocker record remembers, be it resolved or
not. The first part says when a project can fall back into `Planning`, the second when it can leave
`Blocked` with a blocker still open. -/

namespace Sentinel.Workflow.Company
open Lib List

/-! ### What the blockers remember -/

def memories (p : ProjectV1) : List (Option ProjectLifecycleStateV1) :=
  p.blockers.map (·.blockedFromState)

def raisesBlocker : CompanyWorkflowCommandV1 → Bool
  | .raiseBlocker .. => true
  | _ => false

section Steps

variable {p q : ProjectV1} {r : CompanyRequest} {actor : AgentId}

theorem memories_modifyFirst {chosen : BlockerV1 → Bool} {f : BlockerV1 → BlockerV1}
    (hf : ∀ b, (f b).blockedFromState = b.blockedFromState) :
    memories { p with blockers := modifyFirst chosen f p.blockers } = memories p :=
  map_modifyFirst_of_forall hf

variable {l : ProjectLifecycleStateV1} {ref : String}

theorem memories_resolveBudgetBlockers (h : resolveBudgetBlockersIfHeadroom p r actor ref = .ok q) :
    memories q = memories p := by
  rcases resolveBudgetBlockersIfHeadroom_eq_ok h with ⟨-, rfl⟩ | ⟨-, rfl⟩
  · rfl
  · show (withoutBudgetBlockers r actor ref p.blockers).map _ = memories p
    rw [withoutBudgetBlockers, map_map]
    refine map_congr_left fun b _ => ?_
    rw [Function.comp_apply]
    split_ifs <;> rfl

theorem Changes.memories [CompanyIds] (h : Changes p r actor q) :
    memories q = memories p ∨ memories q = memories p ++ [some p.lifecycleState] ∧
      (raisesBlocker r.command ∨ p.lifecycleState = .active) := by
  cases h with
  | raised id cause owner b hcommand hfrom hstate =>
    refine .inr ⟨?_, .inl (by rw [hcommand]; rfl)⟩
    rw [Company.memories, map_append, ← hfrom]
    rfl
  | escalated | resolved | restarted => exact .inl (memories_modifyFirst fun _ => rfl)
  | reserved id provider amount q hcommand h =>
    obtain ⟨hreserves, rfl | rfl⟩ := reserveCost_eq_ok h
    · exact .inl rfl
    · refine .inr ⟨?_, .inr hreserves.active⟩
      rw [Company.memories, map_append]
      rfl
  | settled id f reserved committed c q hcommand h =>
    obtain ⟨ref, hresolve⟩ := h.resolved
    have hsame := memories_resolveBudgetBlockers hresolve
    exact .inl hsame
  | _ => exact .inl rfl

/-! ### How a state comes back -/

theorem lifecycleState_of_refreshed (hl : l = .planning ∨ l = .cancelled)
    (h : (refreshProjectLifecycle p).lifecycleState = l) : p.lifecycleState = l := by
  simp only [refreshProjectLifecycle, refreshedLifecycle] at h
  split_ifs at h with hcancelled hdone hblocked hplanning
  · rw [hcancelled, h]
  all_goals rcases hl with rfl | rfl <;> simp_all

theorem restoredLifecycle_cases (p : ProjectV1) :
    restoredLifecycle p = p.lifecycleState ∨ some (restoredLifecycle p) ∈ memories p := by
  unfold restoredLifecycle
  split_ifs with hopen
  · exact .inl rfl
  · cases hfound : rememberedLifecycle p with
    | none => exact .inl rfl
    | some l =>
      have hmem := mem_of_find?_eq_some hfound
      obtain ⟨b, hb, hfrom⟩ := mem_filterMap.1 hmem
      exact .inr (mem_map.2 ⟨b, mem_reverse.1 hb, hfrom⟩)

theorem lifecycleState_of_refreshed_restored (hl : l = .planning ∨ l = .cancelled)
    (h : (refreshProjectLifecycle (restoreProjectLifecycleAfterLastBlocker q)).lifecycleState = l)
    (hmemories : memories q = memories p) : q.lifecycleState = l ∨ some l ∈ memories p := by
  have hrestored : restoredLifecycle q = l := lifecycleState_of_refreshed hl h
  rw [← hmemories, ← hrestored]
  exact (restoredLifecycle_cases q).imp_left Eq.symm

theorem lifecycleState_of_resolveBudgetBlockers (hl : l = .planning ∨ l = .cancelled)
    (h : resolveBudgetBlockersIfHeadroom p r actor ref = .ok q) (hq : q.lifecycleState = l) :
    p.lifecycleState = l ∨ some l ∈ memories p := by
  have hmemories := memories_resolveBudgetBlockers h
  rcases resolveBudgetBlockersIfHeadroom_eq_ok h with ⟨-, rfl⟩ | ⟨-, rfl⟩
  · exact .inl hq
  · have hback := lifecycleState_of_refreshed_restored hl hq hmemories
    exact hback

theorem Changes.lifecycle_back [CompanyIds] (h : Changes p r actor q)
    (hl : l = .planning ∨ l = .cancelled) (hq : q.lifecycleState = l) :
    p.lifecycleState = l ∨ some l ∈ Company.memories p := by
  have hmade : ∀ {made : ProjectLifecycleStateV1}, made = l → made = .active ∨ made = .blocked →
      p.lifecycleState = l ∨ some l ∈ Company.memories p := by
    rintro made rfl (rfl | rfl)
    all_goals simp at hl
  cases h with
  | activated | extended => exact hmade hq (.inl rfl)
  | raised => exact hmade hq (.inr rfl)
  | handedOver | transitioned | corrected | escalated =>
    have hback := lifecycleState_of_refreshed hl hq
    exact .inl hback
  | restarted review source blockerId digest id w corrections hstate =>
    have hrestored : restoredLifecycle (archivedReview p r actor review source blockerId digest) =
        l := lifecycleState_of_refreshed hl hq
    have hmemories : Company.memories (archivedReview p r actor review source blockerId digest) =
        Company.memories p := memories_modifyFirst fun _ => rfl
    rw [← hmemories, ← hrestored]
    exact (restoredLifecycle_cases _).imp_left Eq.symm
  | resolved id ref b before hcommand hfind hstate =>
    have hback := lifecycleState_of_refreshed_restored hl hq (memories_modifyFirst fun _ => rfl)
    exact hback
  | reserved id provider amount q hcommand h =>
    obtain ⟨-, rfl | rfl⟩ := reserveCost_eq_ok h
    · exact .inl hq
    · exact hmade hq (.inr rfl)
  | settled id f reserved committed c q hcommand h =>
    obtain ⟨ref, hresolve⟩ := h.resolved
    have hback := lifecycleState_of_resolveBudgetBlockers hl hresolve hq
    exact hback
  | _ => exact .inl hq

/-! ### The invariants -/

structure Alive (p : ProjectV1) : Prop where
  alive : p.lifecycleState ≠ .cancelled
  remembered : some .cancelled ∉ memories p

theorem Alive.changes [CompanyIds] (h : Alive p) (hc : Changes p r actor q) : Alive q where
  alive hq := (hc.lifecycle_back (.inr rfl) hq).elim h.alive h.remembered
  remembered hmem := by
    rcases hc.memories with heq | ⟨heq, -⟩
    · exact h.remembered (heq ▸ hmem)
    · rw [heq, mem_append, mem_singleton, Option.some.injEq] at hmem
      exact hmem.elim h.remembered fun hnow => h.alive hnow.symm

structure Forward (p : ProjectV1) : Prop extends Alive p where
  planning : some .planning ∉ memories p
  idle : p.lifecycleState = .planning → p.blockers = [] ∧ p.reservations = []

def RaisesInPlanning (p : ProjectV1) (r : CompanyRequest) : Prop :=
  p.lifecycleState = .planning ∧ raisesBlocker r.command

instance (p : ProjectV1) (r : CompanyRequest) : Decidable (RaisesInPlanning p r) :=
  inferInstanceAs (Decidable (_ ∧ _))

theorem Changes.reservations_nil [CompanyIds] (h : Changes p r actor q)
    (hnil : p.reservations = []) (hlife : p.lifecycleState ≠ .active) : q.reservations = [] := by
  rcases h.books with hbooks | ⟨id, provider, amount, -, hq⟩ | ⟨id, f, reserved, committed, c, hs⟩ |
      ⟨admissions, rfl, -⟩
  · rw [hbooks.reservations, hnil]
  · exact absurd (reserveCost_eq_ok hq).1.active hlife
  · have hfind := hs.found
    simp [hnil] at hfind
  · exact hnil

theorem Forward.changes [CompanyIds] (h : Forward p) (hc : Changes p r actor q)
    (hguard : ¬ RaisesInPlanning p r) :
    Forward q ∧ (p.lifecycleState ≠ .planning → q.lifecycleState ≠ .planning) := by
  have hback : q.lifecycleState = .planning → p.lifecycleState = .planning := by
    intro hq
    exact (hc.lifecycle_back (.inl rfl) hq).resolve_right h.planning
  -- the states that a new blocker can remember
  have hnew : memories q = memories p ++ [some p.lifecycleState] ∧
      (raisesBlocker r.command ∨ p.lifecycleState = .active) → p.lifecycleState ≠ .planning := by
    rintro ⟨-, hraises | hactive⟩ hlife
    · exact hguard ⟨hlife, hraises⟩
    · rw [hlife] at hactive
      cases hactive
  refine ⟨⟨h.toAlive.changes hc, ?_, ?_⟩, fun hlife hq => hlife (hback hq)⟩
  · intro hmem
    rcases hc.memories with heq | hadded
    · exact h.planning (heq ▸ hmem)
    · rw [hadded.1, mem_append, mem_singleton, Option.some.injEq] at hmem
      exact hmem.elim h.planning fun hnow => hnew hadded hnow.symm
  · intro hq
    obtain ⟨hblockers, hreservations⟩ := h.idle (hback hq)
    refine ⟨?_, hc.reservations_nil hreservations (by rw [hback hq]; simp)⟩
    rcases hc.memories with heq | hadded
    · rw [memories, memories, hblockers, map_nil, map_eq_nil_iff] at heq
      exact heq
    · exact absurd (hback hq) (hnew hadded)

/-! ### Settling and resolving -/

@[simp] theorem allDone_refresh : (refreshProjectLifecycle p).allDone = p.allDone := rfl

@[simp] theorem hasUnresolvedBlocker_refresh :
    (refreshProjectLifecycle p).hasUnresolvedBlocker = p.hasUnresolvedBlocker := rfl

@[simp] theorem hasBlockedWork_refresh :
    (refreshProjectLifecycle p).hasBlockedWork = p.hasBlockedWork := rfl

theorem lifecycleValid_refresh (hwork : p.workItems.values ≠ [])
    (hlife : p.lifecycleState ≠ .planning) : lifecycleValid (refreshProjectLifecycle p) := by
  have hvalues : (refreshProjectLifecycle p).workItems.values ≠ [] := hwork
  have hstate : (refreshProjectLifecycle p).lifecycleState = refreshedLifecycle p := rfl
  simp only [lifecycleValid, hstate, refreshedLifecycle, allDone_refresh,
    hasUnresolvedBlocker_refresh, hasBlockedWork_refresh]
  split_ifs with hcancelled hdone hopen
  · rfl
  · exact hdone
  · simp [hvalues, hopen]
  · simp [hvalues, hopen]

theorem work_ne_nil (hchecked : Checked p) (halive : p.lifecycleState ≠ .cancelled)
    (hlife : p.lifecycleState ≠ .planning) : p.workItems.values ≠ [] := by
  have hvalid := hchecked.lifecycle
  cases hstate : p.lifecycleState with
  | planning => exact absurd hstate hlife
  | cancelled => exact absurd hstate halive
  | active | blocked | deliveryCandidate =>
    simp only [lifecycleValid, hstate, ProjectV1.allDone, Bool.and_eq_true,
      decide_eq_true_eq] at hvalid
    exact hvalid.1

def restoresLifecycle : CompanyWorkflowCommandV1 → Bool
  | .commitCost .. | .releaseCost .. | .resolveBlocker .. => true
  | _ => false

theorem Forward.restores_ne_planning [CompanyIds] (h : Forward p)
    (hcommand : restoresLifecycle r.command) (hbranch : branch p r actor = .ok q) :
    p.lifecycleState ≠ .planning := by
  intro hlife
  obtain ⟨hblockers, hreservations⟩ := h.idle hlife
  cases hc : r.command with
  | commitCost id actual usage =>
    rw [branch, hc] at hbranch
    obtain ⟨c, hs⟩ := commitCost_eq_ok hbranch
    have hfind := hs.found
    simp [hreservations] at hfind
  | releaseCost id ref =>
    rw [branch, hc] at hbranch
    obtain ⟨c, hs⟩ := releaseCost_eq_ok hbranch
    have hfind := hs.found
    simp [hreservations] at hfind
  | resolveBlocker id ref =>
    rw [branch, hc] at hbranch
    obtain ⟨b, before, hfind, -⟩ := resolveBlocker_eq_ok hbranch
    simp [hblockers] at hfind
  | _ => simp [hc, restoresLifecycle] at hcommand

theorem lifecycleValid_refresh_restore (h : Forward p) (hchecked : Checked p)
    (hlife : p.lifecycleState ≠ .planning) (hwork : q.workItems = p.workItems)
    (hstate : q.lifecycleState = p.lifecycleState) (hmemories : memories q = memories p) :
    lifecycleValid (refreshProjectLifecycle (restoreProjectLifecycleAfterLastBlocker q)) := by
  refine lifecycleValid_refresh ?_ ?_
  · show q.workItems.values ≠ []
    rw [hwork]
    exact work_ne_nil hchecked h.alive hlife
  · show restoredLifecycle q ≠ .planning
    intro hrestored
    rcases restoredLifecycle_cases q with hsame | hmem
    · exact hlife (hstate ▸ hsame ▸ hrestored)
    · rw [hrestored, hmemories] at hmem
      exact h.planning hmem

variable {id : String} {f : CostReservationV1 → CostReservationV1} {reserved committed : ℕ}
  {c : CostReservationV1}

theorem lifecycleValid_settled (h : Forward p) (hchecked : Checked p)
    (hlife : p.lifecycleState ≠ .planning)
    (hs : Settles p r actor id f reserved committed c q) : lifecycleValid q := by
  obtain ⟨ref, hresolve⟩ := hs.resolved
  have hsame := memories_resolveBudgetBlockers hresolve
  rcases resolveBudgetBlockersIfHeadroom_eq_ok hresolve with ⟨-, rfl⟩ | ⟨-, rfl⟩
  · exact hchecked.lifecycle
  · exact lifecycleValid_refresh_restore h hchecked hlife rfl rfl hsame

theorem Forward.lifecycleValid_restores [CompanyIds] (h : Forward p) (hchecked : Checked p)
    (hcommand : restoresLifecycle r.command) (hbranch : branch p r actor = .ok q) :
    lifecycleValid (stamped q r) := by
  have hlife := h.restores_ne_planning hcommand hbranch
  show lifecycleValid q
  cases hc : r.command with
  | commitCost id actual usage =>
    rw [branch, hc] at hbranch
    obtain ⟨c, hs⟩ := commitCost_eq_ok hbranch
    exact lifecycleValid_settled h hchecked hlife hs
  | releaseCost id ref =>
    rw [branch, hc] at hbranch
    obtain ⟨c, hs⟩ := releaseCost_eq_ok hbranch
    exact lifecycleValid_settled h hchecked hlife hs
  | resolveBlocker id ref =>
    rw [branch, hc] at hbranch
    obtain ⟨b, before, -, -, rfl⟩ := resolveBlocker_eq_ok hbranch
    exact lifecycleValid_refresh_restore h hchecked hlife rfl rfl
      (memories_modifyFirst fun _ => rfl)
  | _ => simp [hc, restoresLifecycle] at hcommand

end Steps

/-! ### Runs -/

section Runs

variable [CompanyIds]

theorem forward_final {s : ProjectStore} (hs : Forward s.project) {calls : List CompanyRequest}
    (hcalls : machine.Meets (fun t r => ¬ RaisesInPlanning t.project r) s calls) :
    Forward (machine.final s calls).project ∧ (s.project.lifecycleState ≠ .planning →
      (machine.final s calls).project.lifecycleState ≠ .planning) := by
  refine machine.final_invariant
    (I := fun t => Forward t.project ∧ (s.project.lifecycleState ≠ .planning →
      t.project.lifecycleState ≠ .planning)) ?_ ⟨hs, id⟩ hcalls
  rintro t r ⟨hforward, hlife⟩ hguard
  rcases call_cases t r with ⟨heq, -⟩ | ⟨-, actor, q, hpass, heq, -⟩
  · rw [heq]
    exact ⟨hforward, hlife⟩
  · obtain ⟨hnext, hkeep⟩ := hforward.changes (branch_changes hpass.branch_eq) hguard
    rw [heq]
    exact ⟨⟨⟨hnext.alive, hnext.remembered⟩, hnext.planning, hnext.idle⟩,
      fun h => hkeep (hlife h)⟩

/-- **No way back to `Planning`.** In a run in which no blocker is raised in `Planning`, a project
that has left `Planning` does not come back to it, and no `CommitCost`, `ReleaseCost` or
`ResolveBlocker` computes `Planning` or a lifecycle that the check of the project refuses. -/
theorem lifecycle_forward {s : ProjectStore} {opening : CompanyRequest}
    {governance : ProposalGovernanceV1} {ceiling : ℕ} {providers : Table String ℕ}
    (hopen : acceptProposal opening governance ceiling providers = .ok s.project)
    {calls : List CompanyRequest}
    (hcalls : machine.Meets (fun t r => ¬ RaisesInPlanning t.project r) s calls) :
    (∀ before after, calls = before ++ after →
      (machine.final s before).project.lifecycleState ≠ .planning →
        (machine.final s calls).project.lifecycleState ≠ .planning) ∧
    ∀ r actor q, Passes (machine.final s calls).project r actor q →
      restoresLifecycle r.command →
        q.lifecycleState ≠ .planning ∧ lifecycleValid (stamped q r) := by
  have hopened := acceptProposal_eq_ok hopen
  have hstart : Forward s.project := by
    have hnil : memories s.project = [] := congrArg (List.map _) hopened.blockers
    refine ⟨⟨?_, ?_⟩, ?_, fun _ => ⟨hopened.blockers, hopened.reservations⟩⟩
    · rw [hopened.lifecycle]
      simp
    · simp [hnil]
    · simp [hnil]
  constructor
  · rintro before after rfl hlife
    obtain ⟨hbefore, hafter⟩ := (machine.meets_append _ s before after).1 hcalls
    rw [machine.final_append]
    exact (forward_final (forward_final hstart hbefore).1 hafter).2 hlife
  · intro r actor q hpass hcommand
    have hforward := (forward_final hstart hcalls).1
    have hchecked := checked_final hopened.checked calls
    have hlife := hforward.restores_ne_planning hcommand hpass.branch_eq
    refine ⟨?_, hforward.lifecycleValid_restores hchecked hcommand hpass.branch_eq⟩
    intro hq
    rcases (branch_changes hpass.branch_eq).lifecycle_back (.inl rfl) hq with hback | hmem
    · exact hlife hback
    · exact hforward.planning hmem

end Runs

attribute [local instance] sampleIds

def openBlocker : String := "blocker-dca27c31b52ecf593100ae8b"

def activatedCalls : List CompanyRequest :=
  [planned, request manager 3 2 (.raiseBlocker none "unclear" 1),
    request manager 8 3 (.resolveBlocker openBlocker "clear"),
    request manager 5 4 (.activateProject "start")]

def settledRequest (version : ℕ) : CompanyRequest :=
  request manager 7 version (.commitCost "reservation-2310ef43d00a9194e73c1d8f" 10 none)

def regressingCalls : List CompanyRequest :=
  activatedCalls ++ [request manager 6 5 (.reserveCost (some "work-a") "openai" 10)]

def refusedCalls : List CompanyRequest :=
  activatedCalls ++ [request manager 4 5 (.assignWork "work-a" 3 1 sampleDigest "assign"),
    request manager 6 6 (.reserveCost (some "work-a") "openai" 10)]

def forwardCalls : List CompanyRequest :=
  [planned, started, request manager 6 3 (.reserveCost (some "work-a") "openai" 10),
    request manager 9 4 (.raiseBlocker (some "work-a") "unclear" 1)]

def returningCalls : List CompanyRequest :=
  [settledRequest 5,
    request manager 8 6 (.resolveBlocker "blocker-5dfa1096c02553fdc30ea58e" "clear")]

theorem lifecycle_forward_settled :
    machine.Meets (fun t r => ¬ RaisesInPlanning t.project r) sampleStore
        (forwardCalls ++ returningCalls) ∧
      machine.Meets Accepted sampleStore (forwardCalls ++ returningCalls) ∧
      (machine.final sampleStore forwardCalls).project.lifecycleState = .blocked ∧
      (machine.final sampleStore (forwardCalls ++ returningCalls)).project.lifecycleState ≠
        .planning := by
  have hcalls : machine.Meets (fun t r => ¬ RaisesInPlanning t.project r) sampleStore
      (forwardCalls ++ returningCalls) := by decide +kernel
  have hblocked : (machine.final sampleStore forwardCalls).project.lifecycleState = .blocked := by
    decide +kernel
  refine ⟨hcalls, by decide +kernel, hblocked,
    (lifecycle_forward (s := sampleStore) sampleProject_opened hcalls).1 forwardCalls _ rfl ?_⟩
  rw [hblocked]
  simp

/-- The blocker was resolved long ago, but settling the cost returns to the state it remembers: the
active project is in `Planning` again, or, once work is assigned, the commit is refused. -/
theorem settled_project_in_planning :
    acceptProposal opening sampleGovernance 100 sampleCeilings = .ok sampleStore.project ∧
      machine.Meets Accepted sampleStore (regressingCalls ++ [settledRequest 6]) ∧
      (machine.final sampleStore regressingCalls).project.lifecycleState = .active ∧
      (machine.final sampleStore (regressingCalls ++ [settledRequest 6])).project.lifecycleState =
        .planning ∧
      (machine.call (machine.final sampleStore refusedCalls) (settledRequest 7)).2 =
        .refused corrupt :=
  ⟨sampleProject_opened, by decide +kernel, by decide +kernel, by decide +kernel,
    by decide +kernel⟩

/-! ### Blocked projects -/

def BlockedWhileOpen (p : ProjectV1) : Prop :=
  p.hasUnresolvedBlocker → p.lifecycleState = .blocked

def finishesWork (p : ProjectV1) : CompanyWorkflowCommandV1 → Bool
  | .applyWorkTransition receipt => receipt.toState = .done &&
    p.workItems.entries.all fun e => e.1 = receipt.workItemId || e.2.state = .done
  | .escalateBlocker .. | .resolveBlocker .. => p.allDone
  | .commitCost id actual _ => p.allDone &&
    (p.reservations.find? (·.reservationId = id)).any fun c =>
      p.reservedCostMicros - (c.reservedMicros - actual) < p.costCeilingMicros
  | .releaseCost id _ => p.allDone &&
    (p.reservations.find? (·.reservationId = id)).any fun c =>
      p.reservedCostMicros - c.reservedMicros < p.costCeilingMicros
  | _ => false

def leavesBlocker (p : ProjectV1) : CompanyWorkflowCommandV1 → Bool
  | .resolveBlocker id _ => p.blockers.any fun b => b.unresolved && b.blockerId ≠ id
  | .commitCost .. | .releaseCost .. =>
    p.blockers.any fun b => b.unresolved && b.blockerKind ≠ .budgetExhausted
  | _ => p.hasUnresolvedBlocker

section Blocked

variable {p q : ProjectV1} {r : CompanyRequest} {actor : AgentId}

theorem blockedWhileOpen_refresh {done opened : Prop} (hlife : p.lifecycleState ≠ .cancelled)
    (hdone : p.allDone ↔ done) (hopened : p.hasUnresolvedBlocker ↔ opened) :
    BlockedWhileOpen (refreshProjectLifecycle p) ↔ ¬ (done ∧ opened) := by
  have hstate : (refreshProjectLifecycle p).lifecycleState = refreshedLifecycle p := rfl
  rw [← hdone, ← hopened, BlockedWhileOpen, hasUnresolvedBlocker_refresh, hstate,
    refreshedLifecycle, if_neg hlife]
  by_cases hopen : p.hasUnresolvedBlocker
  · by_cases hall : p.allDone <;> simp [hopen, hall]
  · simp [hopen]

theorem allDone_iff : p.allDone ↔ (∃ id w, p.workItems.get id = some w) ∧
    ∀ id w, p.workItems.get id = some w → w.state = .done := by
  rw [ProjectV1.allDone, Bool.and_eq_true, decide_eq_true_eq, Table.values_ne_nil_iff,
    all_eq_true]
  refine and_congr_right fun _ => ⟨fun h id w hw => ?_, fun h w hw => ?_⟩
  · simpa using h w (Table.mem_values_iff.2 ⟨id, hw⟩)
  · obtain ⟨id, hid⟩ := Table.mem_values_iff.1 hw
    simpa using h id w hid

theorem allDone_transitioned {receipt : WorkTransitionReceiptV1} {next : CompanyWorkItemV1}
    {items : Table WorkItemId CompanyWorkItemV1} (hnext : next.state = receipt.toState)
    (hready : MadeReady (p.workItems.insert receipt.workItemId next) items) :
    ({ p with workItems := items } : ProjectV1).allDone ↔
      finishesWork p (.applyWorkTransition receipt) := by
  have hinsert : ∀ {id w}, (p.workItems.insert receipt.workItemId next).get id = some w ↔
      (id = receipt.workItemId ∧ next = w) ∨
        (id ≠ receipt.workItemId ∧ p.workItems.get id = some w) := by
    intro id w
    rw [Table.get_insert]
    split_ifs with hid <;> simp [hid]
  rw [allDone_iff]
  simp only [finishesWork, Bool.and_eq_true, decide_eq_true_eq, all_eq_true, Bool.or_eq_true]
  constructor
  · rintro ⟨-, hdone⟩
    -- an item that was made ready would not be done
    have hold : ∀ {id old}, (p.workItems.insert receipt.workItemId next).get id = some old →
        old.state = .done := by
      intro id old hget
      obtain ⟨w, hw, rfl | ⟨hwready, -⟩⟩ := hready.present hget
      · exact hdone id w hw
      · rw [hdone id w hw] at hwready
        cases hwready
    refine ⟨hnext ▸ hold (hinsert.2 (.inl ⟨rfl, rfl⟩)), fun e he => ?_⟩
    by_cases hid : e.1 = receipt.workItemId
    · exact .inl hid
    · exact .inr (hold (hinsert.2 (.inr ⟨hid, Table.get_eq_some_iff.2 he⟩)))
  · rintro ⟨hdone, hothers⟩
    have hold : ∀ {id old}, (p.workItems.insert receipt.workItemId next).get id = some old →
        old.state = .done := by
      intro id old hget
      rcases hinsert.1 hget with ⟨-, rfl⟩ | ⟨hid, hget⟩
      · rw [hnext, hdone]
      · exact (hothers _ (Table.get_eq_some_iff.1 hget)).resolve_left hid
    obtain ⟨w, hw, -⟩ := hready.present (hinsert.2 (.inl ⟨rfl, rfl⟩))
    refine ⟨⟨_, w, hw⟩, fun id w hw => ?_⟩
    rcases hready.kept hw with hget | ⟨-, old, hget, hpending⟩
    · exact hold hget
    · rw [hold hget] at hpending
      cases hpending

theorem blockedWhileOpen_transition {receipt : WorkTransitionReceiptV1} (halive : Alive p)
    (h : applyWorkTransition p r actor receipt = .ok q) :
    BlockedWhileOpen q ↔
      ¬ (finishesWork p (.applyWorkTransition receipt) ∧ p.hasUnresolvedBlocker) := by
  obtain ⟨w, next, items, -, hnext, hready, rfl⟩ := applyWorkTransition_eq_ok h
  exact blockedWhileOpen_refresh halive.alive
    (allDone_transitioned (transitioned_eq_ok hnext).state hready) Iff.rfl

variable {ref : String}

theorem blockedWhileOpen_escalate {id : String} {target : AgentId} (halive : Alive p)
    (h : escalateBlocker p r actor id target ref = .ok q) :
    BlockedWhileOpen q ↔ ¬ (p.allDone ∧ p.hasUnresolvedBlocker) := by
  obtain ⟨b, hfind, hstate, rfl⟩ := escalateBlocker_eq_ok h
  refine blockedWhileOpen_refresh halive.alive Iff.rfl ?_
  obtain ⟨as, bs, hl, hmod⟩ :=
    modifyFirst_split (f := escalatedBlocker r actor target ref) hfind
  show (modifyFirst _ _ p.blockers).any _ ↔ p.blockers.any _
  rw [hmod, hl]
  -- the blocker is open before and after
  simp [BlockerV1.unresolved, escalatedBlocker, hstate]

theorem Alive.restored (h : Alive p) (hlife : q.lifecycleState = p.lifecycleState)
    (hmemories : memories q = memories p) : restoredLifecycle q ≠ .cancelled := by
  intro hrestored
  rcases restoredLifecycle_cases q with hsame | hmem
  · exact h.alive (by rw [← hlife, ← hsame, hrestored])
  · rw [hrestored, hmemories] at hmem
    exact h.remembered hmem

theorem blockedWhileOpen_resolve {id : String} (halive : Alive p) (hchecked : Checked p)
    (h : resolveBlocker p r actor id ref = .ok q) :
    BlockedWhileOpen q ↔ ¬ (p.allDone ∧ leavesBlocker p (.resolveBlocker id ref)) := by
  obtain ⟨b, before, hfind, hstate, rfl⟩ := resolveBlocker_eq_ok h
  refine blockedWhileOpen_refresh
    (halive.restored rfl (memories_modifyFirst fun _ => rfl)) Iff.rfl ?_
  obtain ⟨as, bs, hl, hmod⟩ := modifyFirst_split (f := resolvedBlocker r actor before ref) hfind
  have hid : b.blockerId = id := by simpa using find?_some hfind
  -- no other blocker has the name of the resolved one
  have hids := hchecked.blockerIds
  rw [hl, map_append, map_cons, nodup_middle, nodup_cons, ← map_append,
    hid] at hids
  have hother : ∀ c ∈ as ++ bs, c.blockerId ≠ id := by
    intro c hc heq
    exact hids.1 (mem_map.2 ⟨c, hc, heq⟩)
  show (modifyFirst _ _ p.blockers).any _ ↔ _
  rw [hmod, leavesBlocker, hl]
  simp only [any_eq_true, mem_append, mem_cons,
    Bool.and_eq_true, decide_eq_true_eq]
  constructor
  · rintro ⟨c, (hc | rfl | hc), hopen⟩
    · exact ⟨c, .inl hc, hopen, hother c (mem_append_left _ hc)⟩
    · simp [resolvedBlocker, BlockerV1.unresolved] at hopen
    · exact ⟨c, .inr (.inr hc), hopen, hother c (mem_append_right _ hc)⟩
  · rintro ⟨c, (hc | rfl | hc), hopen, hne⟩
    · exact ⟨c, .inl hc, hopen⟩
    · exact absurd hid hne
    · exact ⟨c, .inr (.inr hc), hopen⟩

theorem any_withoutBudgetBlockers (blockers : List BlockerV1) :
    (withoutBudgetBlockers r actor ref blockers).any (·.unresolved) =
      blockers.any fun b => b.unresolved && b.blockerKind ≠ .budgetExhausted := by
  rw [withoutBudgetBlockers, any_map]
  congr 1
  funext b
  rw [Function.comp_apply]
  split_ifs with hbudget
  · simp only [isOpenBudgetBlocker, Bool.and_eq_true, decide_eq_true_eq] at hbudget
    simp [resolvedBlocker, BlockerV1.unresolved, hbudget.1]
  · simp only [isOpenBudgetBlocker, Bool.and_eq_true, decide_eq_true_eq, not_and] at hbudget
    cases hopen : b.unresolved with
    | false => rfl
    | true => simpa [hopen] using fun hkind => hbudget hkind hopen

theorem blockedWhileOpen_settled {id : String} {f : CostReservationV1 → CostReservationV1}
    {reserved committed : ℕ} {c : CostReservationV1} (halive : Alive p)
    (hblocked : BlockedWhileOpen p) (hs : Settles p r actor id f reserved committed c q) :
    BlockedWhileOpen q ↔ ¬ ((p.allDone ∧ reserved < p.costCeilingMicros) ∧
      p.blockers.any fun b => b.unresolved && b.blockerKind ≠ .budgetExhausted) := by
  obtain ⟨ref, hresolve⟩ := hs.resolved
  have hmemories := memories_resolveBudgetBlockers hresolve
  rcases resolveBudgetBlockersIfHeadroom_eq_ok hresolve with ⟨hfull, rfl⟩ | ⟨hroom, rfl⟩
  · refine iff_of_true hblocked fun hdone => ?_
    exact absurd hdone.1.2 (Nat.not_lt.2 hfull)
  · refine blockedWhileOpen_refresh (halive.restored rfl hmemories) ?_ ?_
    · exact (and_iff_left hroom).symm
    · exact Bool.eq_iff_iff.1 (any_withoutBudgetBlockers p.blockers)

def recomputesLifecycle : CompanyWorkflowCommandV1 → Bool
  | .applyWorkTransition .. | .escalateBlocker .. | .resolveBlocker .. | .commitCost ..
  | .releaseCost .. => true
  | _ => false

theorem blockedWhileOpen_refresh_insert {items : Table WorkItemId CompanyWorkItemV1}
    {id : WorkItemId} {w : CompanyWorkItemV1} (hlife : p.lifecycleState ≠ .cancelled)
    (hw : w.state = .assigned) (hitems : p.workItems = items.insert id w) :
    BlockedWhileOpen (refreshProjectLifecycle p) := by
  refine (blockedWhileOpen_refresh hlife Iff.rfl Iff.rfl).2 ?_
  rintro ⟨hall, -⟩
  have hstate := (allDone_iff.1 hall).2 id w (by rw [hitems, Table.get_insert, if_pos rfl])
  rw [hw] at hstate
  cases hstate

theorem BlockedWhileOpen.changes [CompanyIds] (hblocked : BlockedWhileOpen p) (halive : Alive p)
    (hcommand : recomputesLifecycle r.command = false) (h : Changes p r actor q) :
    BlockedWhileOpen q := by
  have hclosed : ∀ {l : ProjectLifecycleStateV1}, p.lifecycleState = l → l ≠ .blocked →
      p.hasUnresolvedBlocker = true → False := by
    rintro l rfl hne hopen
    exact hne (hblocked hopen)
  cases h with
  | planned | assigned | admitted | recorded => exact hblocked
  | activated hlife | extended items hlife hnew =>
    intro hopen
    exact (hclosed hlife (by simp) hopen).elim
  | handedOver id w hstate | corrected id w corrections hstate =>
    refine blockedWhileOpen_refresh_insert ?_ hstate rfl
    exact halive.alive
  | restarted review source blockerId digest id w corrections hstate =>
    refine blockedWhileOpen_refresh_insert ?_ hstate rfl
    show restoredLifecycle (archivedReview p r actor review source blockerId digest) ≠ _
    exact halive.restored rfl (memories_modifyFirst fun _ => rfl)
  | raised => exact fun _ => rfl
  | reserved id provider amount q _ h =>
    obtain ⟨-, rfl | rfl⟩ := reserveCost_eq_ok h
    · exact hblocked
    · exact fun _ => rfl
  | transitioned _ _ _ _ hc | escalated _ _ _ _ hc | resolved _ _ _ _ hc =>
    rw [hc] at hcommand
    cases hcommand
  | settled _ _ _ _ _ _ hc =>
    cases hcost : r.command <;> simp [hcost, settlesCost, recomputesLifecycle] at hc hcommand

def ClosesOverBlocker (p : ProjectV1) (r : CompanyRequest) : Prop :=
  finishesWork p r.command ∧ leavesBlocker p r.command

instance (p : ProjectV1) (r : CompanyRequest) : Decidable (ClosesOverBlocker p r) :=
  inferInstanceAs (Decidable (_ ∧ _))

theorem blockedWhileOpen_stamped_iff [CompanyIds] (hblocked : BlockedWhileOpen p) (halive : Alive p)
    (hchecked : Checked p) (hpass : Passes p r actor q) :
    BlockedWhileOpen (stamped q r) ↔ ¬ ClosesOverBlocker p r := by
  have hbranch := hpass.branch_eq
  show BlockedWhileOpen q ↔ _
  cases hcommand : r.command with
  | applyWorkTransition receipt =>
    rw [branch, hcommand] at hbranch
    rw [ClosesOverBlocker, hcommand]
    exact blockedWhileOpen_transition halive hbranch
  | escalateBlocker id target ref =>
    rw [branch, hcommand] at hbranch
    rw [ClosesOverBlocker, hcommand]
    exact blockedWhileOpen_escalate halive hbranch
  | resolveBlocker id ref =>
    rw [branch, hcommand] at hbranch
    rw [ClosesOverBlocker, hcommand]
    exact blockedWhileOpen_resolve halive hchecked hbranch
  | commitCost id actual usage =>
    rw [branch, hcommand] at hbranch
    rw [ClosesOverBlocker, hcommand]
    obtain ⟨c, hs⟩ := commitCost_eq_ok hbranch
    simp only [finishesWork, hs.found, Option.any_some, Bool.and_eq_true, decide_eq_true_eq]
    exact blockedWhileOpen_settled halive hblocked hs
  | releaseCost id ref =>
    rw [branch, hcommand] at hbranch
    rw [ClosesOverBlocker, hcommand]
    obtain ⟨c, hs⟩ := releaseCost_eq_ok hbranch
    simp only [finishesWork, hs.found, Option.any_some, Bool.and_eq_true, decide_eq_true_eq]
    exact blockedWhileOpen_settled halive hblocked hs
  | _ =>
    have hkeep := hblocked.changes halive (by rw [hcommand]; rfl) (branch_changes hbranch)
    simp [hkeep, ClosesOverBlocker, hcommand, finishesWork]

/-- **Blocked while a blocker is open.** In a run of accepted commands, a project with an open
blocker is in `Blocked` all along exactly when no command of the run leaves all work done and a
blocker open. -/
theorem blocked_while_open_iff [CompanyIds] {s : ProjectStore} {opening : CompanyRequest}
    {governance : ProposalGovernanceV1} {ceiling : ℕ} {providers : Table String ℕ}
    (hopen : acceptProposal opening governance ceiling providers = .ok s.project)
    {calls : List CompanyRequest} (haccepted : machine.Meets Accepted s calls) :
    (∀ before, before <+: calls → BlockedWhileOpen (machine.final s before).project) ↔
      machine.Meets (fun t r => ¬ ClosesOverBlocker t.project r) s calls := by
  have hopened := acceptProposal_eq_ok hopen
  refine machine.forall_reached_iff_meets_of_meets
    (I := fun t => Checked t.project ∧ Alive t.project ∧ BlockedWhileOpen t.project)
    (fun t ht => ht.2.2) ?_ ?_ ⟨hopened.checked, ⟨?_, ?_⟩, ?_⟩ haccepted
  · rintro t r hcall ⟨hchecked, halive, hblocked⟩ hguard
    obtain ⟨actor, q, hpass, heq, hafter⟩ := accepted_cases hcall
    rw [heq]
    refine ⟨hafter, ?_, (blockedWhileOpen_stamped_iff hblocked halive hchecked hpass).2 hguard⟩
    have hnext := halive.changes (branch_changes hpass.branch_eq)
    exact ⟨hnext.alive, hnext.remembered⟩
  · rintro t r hcall ⟨hchecked, halive, hblocked⟩ hguard hafter
    obtain ⟨actor, q, hpass, heq, -⟩ := accepted_cases hcall
    rw [heq] at hafter
    exact hguard ((blockedWhileOpen_stamped_iff hblocked halive hchecked hpass).1 hafter)
  · rw [hopened.lifecycle]
    simp
  · simp [memories, hopened.blockers]
  · simp [BlockedWhileOpen, ProjectV1.hasUnresolvedBlocker, hopened.blockers]

end Blocked

def moved (principal : AuthenticatedCompanyPrincipalV1) (operationId : Uuid128)
    (version workVersion : ℕ) (before after : CompanyWorkStateV1)
    (outputs : List WorkOutputReceiptV1) (gate : Option QualityGateReceiptBindingV1) :
    CompanyRequest :=
  request principal operationId version (.applyWorkTransition
    ⟨1, sampleProject.projectId, "work-a", version, workVersion, 1, before, after, outputs, gate,
      sampleDigest, "moved", version + 1⟩)

def pageReceipts : List WorkOutputReceiptV1 := [⟨"page", 1, sampleDigest, sampleDigest⟩]

def reviewCalls (plan : CompanyRequest) : List CompanyRequest :=
  [plan, started, request manager 4 3 (.assignWork "work-a" 3 1 sampleDigest "assign"),
    moved developer 5 4 2 .assigned .inProgress [] none,
    moved developer 6 5 3 .inProgress .inReview pageReceipts none]

def approved (version : ℕ) : CompanyRequest :=
  moved tester 8 version 4 .inReview .done pageReceipts
    (some ⟨"gate-a", 1, sampleDigest, sampleDigest, true⟩)

def blockerRaised (version : ℕ) : CompanyRequest :=
  request manager 7 version (.raiseBlocker none "unclear" 1)

theorem blocked_while_open_delivered :
    machine.Meets Accepted sampleStore (reviewCalls planned ++ [approved 6, blockerRaised 7]) ∧
      ∀ before, before <+: reviewCalls planned ++ [approved 6, blockerRaised 7] →
        BlockedWhileOpen (machine.final sampleStore before).project := by
  have haccepted : machine.Meets Accepted sampleStore
      (reviewCalls planned ++ [approved 6, blockerRaised 7]) := by decide +kernel
  refine ⟨haccepted,
    (blocked_while_open_iff (s := sampleStore) sampleProject_opened haccepted).2 ?_⟩
  decide +kernel

/-- The last item is approved while a blocker is open: the project becomes a candidate for
delivery. -/
theorem delivery_candidate_with_blocker :
    acceptProposal opening sampleGovernance 100 sampleCeilings = .ok sampleStore.project ∧
      machine.Meets Accepted sampleStore (reviewCalls planned ++ [blockerRaised 6, approved 7]) ∧
      (machine.final sampleStore
        (reviewCalls planned ++ [blockerRaised 6, approved 7])).project.hasUnresolvedBlocker ∧
      (machine.final sampleStore
        (reviewCalls planned ++ [blockerRaised 6, approved 7])).project.lifecycleState =
          .deliveryCandidate :=
  ⟨sampleProject_opened, by decide +kernel, by decide +kernel, by decide +kernel⟩

end Sentinel.Workflow.Company

import Sentinel.Workflow.CostLedger

/-! Monetary reservations and collaboration reservations draw on one ceiling. What an admission
takes to be left of it counts committed cost twice; `ReserveCost` does not look at the
collaboration reservations at all. Both differences are made exact here. -/

namespace Sentinel.Workflow.Company
open Lib

/-! ### What is left of the ceiling -/

def heldTotal (p : ProjectV1) : ℕ := p.effectiveTotal + p.unreleasedCosts.sum

def remainingAuthority (p : ProjectV1) : Option ℕ := checkedSub p.costCeilingMicros (heldTotal p)

theorem availableCost_eq_ok {p : ProjectV1} {a : ℕ} :
    availableCost p = .ok a ↔ p.unreleasedCosts.sum < 2 ^ 64 ∧
      p.costCeilingMicros =
        a + p.unreleasedCosts.sum + p.committedCostMicros + p.reservedCostMicros := by
  simp only [availableCost, bind_eq_ok, orError_eq_ok, checkedSum_eq_some, Option.bind_eq_bind,
    Option.bind_eq_some_iff, checkedSub_eq_some]
  constructor
  · rintro ⟨collaboration, ⟨rfl, hfits⟩, unreserved, hunreserved, uncommitted, rfl, rfl⟩
    exact ⟨hfits, hunreserved⟩
  · rintro ⟨hfits, hceiling⟩
    exact ⟨_, ⟨rfl, hfits⟩, _, hceiling, _, rfl, rfl⟩

section Available

variable {p q : ProjectV1}

theorem heldTotal_of_balanced (h : Balanced p) :
    heldTotal p = p.reservedCostMicros + p.unreleasedCosts.sum := by
  rw [heldTotal, h.reserved]

theorem availableCost_eq_remainingAuthority_iff (hbalanced : Balanced p)
    (hword : p.costCeilingMicros < 2 ^ 64) :
    (availableCost p).toOption = remainingAuthority p ↔
      p.committedCostMicros = 0 ∨ remainingAuthority p = none := by
  have hheld := heldTotal_of_balanced hbalanced
  cases hleft : remainingAuthority p with
  | none =>
    simp only [or_true, iff_true]
    -- the code subtracts at least as much
    cases havailable : availableCost p with
    | error e => rfl
    | ok a =>
      obtain ⟨-, hceiling⟩ := availableCost_eq_ok.1 havailable
      have hsome : remainingAuthority p = some (a + p.committedCostMicros) := by
        rw [remainingAuthority, checkedSub_eq_some]
        omega
      rw [hsome] at hleft
      cases hleft
  | some left =>
    rw [remainingAuthority, checkedSub_eq_some] at hleft
    rw [toOption_eq_some, availableCost_eq_ok]
    simp only [reduceCtorEq, or_false]
    omega

theorem checkCostAuthority_iff (hbalanced : Balanced p) (hword : p.costCeilingMicros < 2 ^ 64)
    {input : CollaborationAdmissionInputV1} {w : CompanyWorkItemV1} {left : ℕ}
    (hleft : remainingAuthority p = some left) (hw : p.workItems.get input.workItemId = some w)
    (hremaining : input.remainingCostBudgetMicros = left)
    (hcost : input.budget.maxCostMicros = min w.spec.budgetMicros left) :
    checkCostAuthority p input = .ok () ↔ p.committedCostMicros = 0 := by
  have hiff := availableCost_eq_remainingAuthority_iff hbalanced hword
  simp only [hleft, toOption_eq_some, reduceCtorEq, or_false] at hiff
  rw [← hiff]
  simp only [checkCostAuthority, bind_eq_ok, orError_eq_ok, ensure_eq_ok, hw, Option.some.injEq]
  constructor
  · rintro ⟨available, havailable, _, rfl, rfl, -⟩
    rw [havailable, hremaining]
  · intro havailable
    exact ⟨left, havailable, w, rfl, hremaining, hcost⟩

theorem unreleasedCosts_congr (h : q.collaborationAdmissions = p.collaborationAdmissions) :
    q.unreleasedCosts = p.unreleasedCosts := by
  rw [ProjectV1.unreleasedCosts, h]
  rfl

end Available

/-! ### What one command adds to the reservations -/

section Held

variable {p q : ProjectV1} {r : CompanyRequest} {actor : AgentId}

def heldCost (d : CollaborationAdmissionDecisionV1) : ℕ :=
  if d.state.isTerminal then 0
  else ((d.reservations.filter fun c => !c.released).map (·.costMicros)).sum

theorem sum_unreleasedCosts (p : ProjectV1) :
    p.unreleasedCosts.sum = (p.collaborationAdmissions.map heldCost).sum := by
  unfold ProjectV1.unreleasedCosts
  induction p.collaborationAdmissions with
  | nil => rfl
  | cons d rest ih =>
    rw [List.map_cons, List.sum_cons, ← ih, List.filter_cons, heldCost]
    split_ifs with hopen hterminal hterminal <;> simp_all

theorem heldCost_le_of_validate {d : CollaborationAdmissionDecisionV1} {now : ℕ}
    (h : d.validate now = .ok ()) : heldCost d ≤ d.input.budget.maxCostMicros := by
  simp only [CollaborationAdmissionDecisionV1.validate, bind_eq_ok, ensure_eq_ok] at h
  obtain ⟨_, -, _, -, _, -, _, -, _, -, -, -, -, ⟨cost, hsum, hbudget⟩, -⟩ := h
  rw [Option.mem_def, reservedCost, checkedSum_eq_some] at hsum
  obtain ⟨hcost, -⟩ := hsum
  have hcost_le : cost ≤ d.input.budget.maxCostMicros := by
    split_ifs at hbudget <;> omega
  have hfilter : ((d.reservations.filter fun c => !c.released).map (·.costMicros)).sum ≤
      (d.reservations.map (·.costMicros)).sum :=
    (List.filter_sublist.map _).sum_le_sum fun _ _ => Nat.zero_le _
  unfold heldCost
  split_ifs <;> omega

theorem heldCost_progress {d next : CollaborationAdmissionDecisionV1} {g : CollaborationProgressV1}
    {now : ℕ} (h : applyCollaborationProgress d g now = .ok next) :
    heldCost next ≤ heldCost d := by
  simp only [applyCollaborationProgress, reported, bind_eq_ok, ensure_eq_ok, Except.ok.injEq] at h
  obtain ⟨_, -, _, ⟨hopen, -⟩, _, -, _, -, _, -, _, -, _, -, counted, ⟨_, -, _, -, _, -, rfl⟩, _,
    -, _, -, rfl⟩ := h
  simp only [heldCost, hopen]
  split_ifs <;> simp_all

theorem heldTotal_progress {id : String} {g : CollaborationProgressV1}
    (h : progressCollaborationAdmission p r actor id g = .ok q) : heldTotal q ≤ heldTotal p := by
  simp only [progressCollaborationAdmission, bind_eq_ok, orError_eq_ok, Except.ok.injEq] at h
  obtain ⟨_, -, d, hfind, _, -, _, -, _, -, next, hnext, _, -, _, -, rfl⟩ := h
  have hsum := sum_map_modifyFirst
    (f := fun _ => { next with requestBindings := next.requestBindings ++ [r.operationId] })
    heldCost hfind
  have hle : heldCost next ≤ heldCost d := heldCost_progress hnext
  rw [heldTotal, heldTotal, sum_unreleasedCosts, sum_unreleasedCosts]
  refine Nat.add_le_add_left ?_ p.effectiveTotal
  -- the operation that is bound to the report holds nothing
  have hbound : heldCost
      { next with requestBindings := next.requestBindings ++ [r.operationId] } =
        heldCost next := rfl
  dsimp only
  omega

end Held

section Commands

variable [CompanyIds] {p q : ProjectV1} {r : CompanyRequest} {actor : AgentId}

theorem availableCost_full_commit {id : String} {actual before : ℕ} {usage : Option String}
    {c : CostReservationV1} (hcommand : r.command = .commitCost id actual usage)
    (h : applyCompanyCommand p r = .ok q)
    (hfind : p.reservations.find? (·.reservationId = id) = some c)
    (hfull : actual = c.reservedMicros) (hbefore : availableCost p = .ok before) :
    (∃ after, availableCost q = .ok after ∧ before ≤ after) ↔ actual = 0 := by
  obtain ⟨actor, q, hpass, rfl, -⟩ := applyCompanyCommand_eq_ok h
  have hbranch := hpass.branch_eq
  rw [branch, hcommand] at hbranch
  obtain ⟨d, hs⟩ := commitCost_eq_ok hbranch
  obtain rfl : c = d := Option.some_inj.1 (hfind.symm.trans hs.found)
  obtain ⟨hbooks, -⟩ := hs.books
  have hcosts : (stamped q r).unreleasedCosts = p.unreleasedCosts :=
    unreleasedCosts_congr hbooks.admissions
  have hceiling : (stamped q r).costCeilingMicros = p.costCeilingMicros := hbooks.ceiling
  have hreserved : (stamped q r).reservedCostMicros =
      p.reservedCostMicros - (c.reservedMicros - actual) := hbooks.reserved
  have hcommitted : (stamped q r).committedCostMicros = p.committedCostMicros + actual :=
    hbooks.committed
  obtain ⟨hfits, hsum⟩ := availableCost_eq_ok.1 hbefore
  simp only [availableCost_eq_ok, hcosts, hceiling, hreserved, hcommitted]
  constructor
  · rintro ⟨after, ⟨-, hafter⟩, hle⟩
    omega
  · intro hzero
    exact ⟨before, ⟨hfits, by omega⟩, le_refl before⟩

theorem heldTotal_admit {input : CollaborationAdmissionInputV1} (hbalanced : Balanced p)
    (h : admitCollaboration p r input = .ok q) : heldTotal q ≤ p.costCeilingMicros := by
  simp only [admitCollaboration, checkCostAuthority, bind_eq_ok, ensure_eq_ok,
    Except.ok.injEq] at h
  obtain ⟨_, -, w, -, _, -, _, ⟨available, havailable, _, -, hremaining, hcost⟩, _, -, _, -, _, -,
    _, hvalid, _, -, rfl⟩ := h
  obtain ⟨-, hceiling⟩ := availableCost_eq_ok.1 havailable
  have hheld : heldCost (admittedDecision r input) ≤ input.budget.maxCostMicros :=
    heldCost_le_of_validate hvalid
  have hreserved := hbalanced.reserved
  have hmin : input.budget.maxCostMicros ≤ available := hcost ▸ min_le_right _ _
  rw [sum_unreleasedCosts] at hceiling
  rw [heldTotal, sum_unreleasedCosts, List.map_append, List.sum_append]
  show p.effectiveTotal + (_ + (heldCost (admittedDecision r input) + 0)) ≤ _
  omega

theorem Changes.ceiling (h : Changes p r actor q) :
    q.costCeilingMicros = p.costCeilingMicros := by
  rcases h.books with hbooks | ⟨id, provider, amount, -, hq⟩ | ⟨id, f, reserved, committed, c, hs⟩ |
      ⟨admissions, rfl, -⟩
  · exact hbooks.ceiling
  · obtain ⟨-, rfl | rfl⟩ := reserveCost_eq_ok hq
    all_goals rfl
  · exact hs.books.1.ceiling
  · rfl

theorem costCeilingMicros_final (s : ProjectStore) (calls : List CompanyRequest) :
    (machine.final s calls).project.costCeilingMicros = s.project.costCeilingMicros := by
  refine final_of_passes (I := fun p => p.costCeilingMicros = s.project.costCeilingMicros) ?_ rfl
    calls
  intro p r actor q hp hpass _
  exact (branch_changes hpass.branch_eq).ceiling.trans hp

/-- **Remaining cost authority.** In every project that a run of commands reaches, what an
admission takes to be left of the ceiling is what the two kinds of reservation leave of it exactly
when nothing is committed (or they hold more than there is). A commit in full lowers it unless the
amount is zero, and a request that names what is left is refused once anything is committed. -/
theorem remaining_cost_authority {s : ProjectStore} {opening : CompanyRequest}
    {governance : ProposalGovernanceV1} {ceiling : ℕ} {providers : Table String ℕ}
    (hopen : acceptProposal opening governance ceiling providers = .ok s.project)
    (hword : ceiling < 2 ^ 64) (calls : List CompanyRequest) :
    ((availableCost (machine.final s calls).project).toOption =
        remainingAuthority (machine.final s calls).project ↔
      (machine.final s calls).project.committedCostMicros = 0 ∨
        remainingAuthority (machine.final s calls).project = none) ∧
    (∀ r id actual usage c before next, r.command = .commitCost id actual usage →
      applyCompanyCommand (machine.final s calls).project r = .ok next →
      (machine.final s calls).project.reservations.find? (·.reservationId = id) = some c →
      actual = c.reservedMicros → availableCost (machine.final s calls).project = .ok before →
        ((∃ after, availableCost next = .ok after ∧ before ≤ after) ↔ actual = 0)) ∧
    ∀ input w left, remainingAuthority (machine.final s calls).project = some left →
      (machine.final s calls).project.workItems.get input.workItemId = some w →
      input.remainingCostBudgetMicros = left →
      input.budget.maxCostMicros = min w.spec.budgetMicros left →
        (checkCostAuthority (machine.final s calls).project input = .ok () ↔
          (machine.final s calls).project.committedCostMicros = 0) := by
  have hchecked := checked_final (acceptProposal_eq_ok hopen).checked calls
  have hceiling : (machine.final s calls).project.costCeilingMicros < 2 ^ 64 := by
    rw [costCeilingMicros_final, (acceptProposal_eq_ok hopen).ceiling_eq]
    exact hword
  refine ⟨availableCost_eq_remainingAuthority_iff hchecked.balanced hceiling, ?_, ?_⟩
  · intro r id actual usage c before next hcommand h hfind hfull hbefore
    exact availableCost_full_commit hcommand h hfind hfull hbefore
  · intro input w left hleft hw hremaining hcost
    exact checkCostAuthority_iff hchecked.balanced hceiling hleft hw hremaining hcost

end Commands

attribute [local instance] sampleIds

def heldCalls : List CompanyRequest :=
  [planned, started, request manager 6 3 (.reserveCost (some "work-a") "openai" 40)]

def settledCalls : List CompanyRequest :=
  heldCalls ++
    [request manager 7 4 (.commitCost "reservation-2310ef43d00a9194e73c1d8f" 40 none)]

def admissionInput (remaining cost deadline : ℕ) : CollaborationAdmissionInputV1 :=
  ⟨"work-a", 3, remaining, 300000, 1, ⟨4, 4, 32000, cost, deadline, 100000, 2⟩⟩

theorem remaining_cost_authority_held :
    (availableCost (machine.final sampleStore heldCalls).project).toOption =
        remainingAuthority (machine.final sampleStore heldCalls).project ∧
      availableCost (machine.final sampleStore heldCalls).project = .ok 60 :=
  ⟨(remaining_cost_authority (s := sampleStore) sampleProject_opened (by decide)
    heldCalls).1.2 (.inl (by decide +kernel)),
    by decide +kernel⟩

/-- Forty micros are reserved and then committed in full. The reservations still leave sixty, but
an admission sees twenty and refuses a request for the sixty. -/
theorem committed_cost_counted_twice :
    acceptProposal opening sampleGovernance 100 sampleCeilings = .ok sampleStore.project ∧
      availableCost (machine.final sampleStore heldCalls).project = .ok 60 ∧
      availableCost (machine.final sampleStore settledCalls).project = .ok 20 ∧
      remainingAuthority (machine.final sampleStore settledCalls).project = some 60 ∧
      checkCostAuthority (machine.final sampleStore settledCalls).project
        (admissionInput 60 60 300006) = .error unauthorized :=
  ⟨sampleProject_opened, by decide +kernel, by decide +kernel, by decide +kernel,
    by decide +kernel⟩

/-! ### One ceiling -/

section Ceiling

variable [CompanyIds] {p q : ProjectV1} {r : CompanyRequest} {actor : AgentId}

def reservedAmount : CompanyWorkflowCommandV1 → Option ℕ
  | .reserveCost _ _ amount => some amount
  | _ => none

def LeavesRoom (p : ProjectV1) (r : CompanyRequest) : Prop :=
  ∀ amount ∈ reservedAmount r.command,
    p.reservedCostMicros + amount + p.unreleasedCosts.sum ≤ p.costCeilingMicros

instance (p : ProjectV1) (r : CompanyRequest) : Decidable (LeavesRoom p r) :=
  inferInstanceAs (Decidable (∀ amount ∈ reservedAmount r.command, _))

theorem heldTotal_reserve {amount : ℕ} (hamount : reservedAmount r.command = some amount)
    (hpass : Passes p r actor q) (hafter : Balanced (stamped q r)) :
    heldTotal (stamped q r) = p.reservedCostMicros + amount + p.unreleasedCosts.sum := by
  have hbranch := hpass.branch_eq
  cases hcommand : r.command with
  | reserveCost id provider micros =>
    obtain rfl : micros = amount := by simpa [hcommand, reservedAmount] using hamount
    rw [branch, hcommand] at hbranch
    rw [heldTotal_of_balanced hafter]
    obtain ⟨-, rfl | rfl⟩ := reserveCost_eq_ok hbranch
    all_goals rfl
  | _ => simp [hcommand, reservedAmount] at hamount

theorem heldTotal_others (hnone : reservedAmount r.command = none) (hbalanced : Balanced p)
    (hpass : Passes p r actor q) (hafter : Balanced (stamped q r)) :
    heldTotal (stamped q r) ≤ heldTotal p ∨ heldTotal (stamped q r) ≤ p.costCeilingMicros := by
  have hheld : heldTotal (stamped q r) = q.reservedCostMicros + q.unreleasedCosts.sum :=
    heldTotal_of_balanced hafter
  have hbefore := heldTotal_of_balanced hbalanced
  rcases (branch_changes hpass.branch_eq).books with hbooks | ⟨id, provider, amount, hcommand, hq⟩ |
      ⟨id, f, reserved, committed, c, hs⟩ | ⟨admissions, -, ⟨input, hq⟩ | ⟨id, g, hq⟩⟩
  · left
    rw [hheld, hbefore, hbooks.reserved, unreleasedCosts_congr hbooks.admissions]
  · rw [hcommand] at hnone
    cases hnone
  · -- a settled reservation holds no more than before, and the admissions are untouched
    left
    obtain ⟨hbooks, -⟩ := hs.books
    have hle : reserved ≤ p.reservedCostMicros := by
      have := hs.reserved_eq
      have := hs.effective_le
      omega
    rw [hheld, hbefore, hbooks.reserved, unreleasedCosts_congr hbooks.admissions]
    exact Nat.add_le_add_right hle _
  · right
    show heldTotal q ≤ p.costCeilingMicros
    exact heldTotal_admit hbalanced hq
  · left
    show heldTotal q ≤ heldTotal p
    exact heldTotal_progress hq

/-- **One ceiling.** In a run of accepted commands, what the two kinds of reservation hold stays
within the ceiling all along exactly when every `ReserveCost` of the run leaves room for what the
admissions hold. -/
theorem reservations_within_ceiling_iff {s : ProjectStore} {opening : CompanyRequest}
    {governance : ProposalGovernanceV1} {ceiling : ℕ} {providers : Table String ℕ}
    (hopen : acceptProposal opening governance ceiling providers = .ok s.project)
    {calls : List CompanyRequest} (haccepted : machine.Meets Accepted s calls) :
    (∀ before, before <+: calls → heldTotal (machine.final s before).project ≤
        (machine.final s before).project.costCeilingMicros) ↔
      machine.Meets (fun t r => LeavesRoom t.project r) s calls := by
  have hopened := acceptProposal_eq_ok hopen
  refine machine.forall_reached_iff_meets_of_meets
    (I := fun t => Balanced t.project ∧ heldTotal t.project ≤ t.project.costCeilingMicros)
    (fun t ht => ht.2) ?_ ?_ ⟨hopened.checked.balanced, ?_⟩ haccepted
  · rintro t r hcall ⟨hbalanced, hle⟩ hroom
    obtain ⟨actor, q, hpass, heq, hchecked⟩ := accepted_cases hcall
    have hceiling := (branch_changes hpass.branch_eq).ceiling
    rw [heq]
    refine ⟨hchecked.balanced, ?_⟩
    show heldTotal (stamped q r) ≤ q.costCeilingMicros
    rw [hceiling]
    cases hamount : reservedAmount r.command with
    | none =>
      rcases heldTotal_others hamount hbalanced hpass hchecked.balanced with hdown | hwithin
      · exact hdown.trans hle
      · exact hwithin
    | some amount =>
      rw [heldTotal_reserve hamount hpass hchecked.balanced]
      exact hroom amount hamount
  · rintro t r hcall ⟨hbalanced, hle⟩ hroom hwithin
    obtain ⟨actor, q, hpass, heq, hchecked⟩ := accepted_cases hcall
    have hceiling := (branch_changes hpass.branch_eq).ceiling
    refine hroom fun amount hamount => ?_
    rw [heq, heldTotal_reserve hamount hpass hchecked.balanced] at hwithin
    exact hceiling ▸ hwithin
  · rw [heldTotal_of_balanced hopened.checked.balanced, ProjectV1.unreleasedCosts,
      hopened.admissions]
    exact hopened.checked.balanced.reserved_le

end Ceiling

def admittedCalls : List CompanyRequest :=
  [planned, started, request manager 4 3 (.assignWork "work-a" 3 1 sampleDigest "assign"),
    request manager 8 4 (.admitCollaboration (admissionInput 100 60 300005))]

def reservedCalls (amount : ℕ) : List CompanyRequest :=
  admittedCalls ++ [request manager 6 5 (.reserveCost (some "work-a") "openai" amount)]

theorem reservations_within_ceiling_forty :
    machine.Meets Accepted sampleStore (reservedCalls 40) ∧
      ∀ before, before <+: reservedCalls 40 →
        heldTotal (machine.final sampleStore before).project ≤
          (machine.final sampleStore before).project.costCeilingMicros := by
  have haccepted : machine.Meets Accepted sampleStore (reservedCalls 40) := by decide +kernel
  refine ⟨haccepted,
    (reservations_within_ceiling_iff (s := sampleStore) sampleProject_opened haccepted).2 ?_⟩
  decide +kernel

/-- An admission holds sixty of the hundred micros, and a reservation takes another fifty. -/
theorem ceiling_overcommitted :
    acceptProposal opening sampleGovernance 100 sampleCeilings = .ok sampleStore.project ∧
      machine.Meets Accepted sampleStore (reservedCalls 50) ∧
      (machine.final sampleStore (reservedCalls 50)).project.costCeilingMicros = 100 ∧
      heldTotal (machine.final sampleStore (reservedCalls 50)).project = 110 :=
  ⟨sampleProject_opened, by decide +kernel, by decide +kernel, by decide +kernel⟩

end Sentinel.Workflow.Company

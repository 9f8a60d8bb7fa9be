import Sentinel.Workflow.ProjectLifecycle

/-! The order of the work and the separation of duties. Items leave `DependencyPending` only on
finished dependencies, and an item is `Done` only because a reviewer said so who did not hold it. -/

namespace Sentinel.Workflow.Company
open Lib

def Delivers (dependency : CompanyWorkItemV1) (i : WorkInputContractV1) : Prop :=
  ∃ o ∈ dependency.outputReceipts, o.name = i.producerOutputName ∧
    o.contractGeneration = i.expectedContractGeneration ∧
    o.contractDigest = i.expectedContractDigest

/-- The entry of a log was written by a reviewer other than the agent assigned at that point. -/
def ReviewedIndependently (p : ProjectV1) (w : CompanyWorkItemV1) (index : ℕ)
    (audit : StateTransitionAuditV1 CompanyWorkStateV1) : Prop :=
  ∃ reviewer, p.governance.participant? audit.actorAgentId = some reviewer ∧
    reviewer.principalId = audit.actorId ∧ isReviewer reviewer.role ∧
    ∀ a, p.assignmentAtTransition w index = some a → a.agentId ≠ reviewer.agentId

structure WorkOrdered (p : ProjectV1) : Prop where
  dependencies : ∀ id w, p.workItems.get id = some w → w.state ≠ .dependencyPending →
    ∀ d ∈ w.spec.dependencyIds, ∃ dependency, p.workItems.get d = some dependency ∧
      dependency.state = .done ∧
      ∀ i ∈ w.spec.inputs, i.producerWorkItemId = d → Delivers dependency i
  reviewed : ∀ id w, p.workItems.get id = some w → ∀ index audit,
    w.transitionHistory[index]? = some audit → audit.after = .done →
      ReviewedIndependently p w index audit
  assignment : ∀ id w, p.workItems.get id = some w →
    ((w.assignments.filter (·.active)).length = 1 ↔ w.needsAssignment)
  versions : ∀ id w, p.workItems.get id = some w →
    w.assignments.map (·.assignmentVersion) = List.range' 1 w.assignments.length

section Order

variable {p q : ProjectV1} {r : CompanyRequest} {actor : AgentId} {id : WorkItemId}
  {w : CompanyWorkItemV1}

theorem dependenciesSatisfied_iff : p.dependenciesSatisfied w ↔
    ∀ d ∈ w.spec.dependencyIds, ∃ dependency, p.workItems.get d = some dependency ∧
      dependency.state = .done ∧
      ∀ i ∈ w.spec.inputs, i.producerWorkItemId = d → Delivers dependency i := by
  simp only [ProjectV1.dependenciesSatisfied, ProjectV1.inputDelivered, Delivers, List.all_eq_true,
    Option.any_eq_true, Bool.and_eq_true, decide_eq_true_eq, List.mem_filter, List.any_eq_true,
    and_imp, and_assoc]

theorem reviewedIndependently_of_authorized {index : ℕ}
    {audit : StateTransitionAuditV1 CompanyWorkStateV1} {reviewer : ParticipantBindingV1}
    (h : workTransitionActorIsAuthorized p w index audit reviewer) (hdone : audit.after = .done) :
    isReviewer reviewer.role ∧
      ∀ a, p.assignmentAtTransition w index = some a → a.agentId ≠ reviewer.agentId := by
  unfold workTransitionActorIsAuthorized at h
  rw [hdone] at h
  cases hbefore : audit.before with
  | inReview =>
    simp only [hbefore, Bool.and_eq_true, Bool.not_eq_true', decide_eq_false_iff_not] at h
    refine ⟨h.1, fun a ha heq => h.2 ?_⟩
    rw [ha, Option.map_some, heq]
  | _ => simp [hbefore] at h

theorem Checked.work_item (h : Checked p) (hw : p.workItems.get id = some w) :
    validateWorkItem p.updatedAt id w = .ok () := by
  have hgraph := h.graph
  have hne : p.workItems.values ≠ [] := Table.values_ne_nil_iff.2 ⟨id, w, hw⟩
  rw [validateWorkGraphIfPresent, if_neg hne] at hgraph
  simp only [bind_eq_ok, checkAll_eq_ok] at hgraph
  obtain ⟨_, -, _, -, hitems⟩ := hgraph
  exact hitems (id, w) (Table.get_eq_some_iff.1 hw)

theorem Checked.workOrdered (h : Checked p) : WorkOrdered p where
  dependencies id w hw hstate := by
    have hwork := h.work id w hw
    simp only [validateWork, bind_eq_ok, ensure_eq_ok] at hwork
    obtain ⟨_, -, _, -, _, -, _, -, _, -, hpending⟩ := hwork
    refine dependenciesSatisfied_iff.1 ?_
    by_contra hnot
    exact hstate (hpending.2 (by simpa using hnot))
  reviewed id w hw index audit haudit hdone := by
    have hwork := h.work id w hw
    simp only [validateWork, bind_eq_ok, checkAll_eq_ok] at hwork
    obtain ⟨_, -, _, htransitions, -⟩ := hwork
    have htransition := htransitions (audit, index) (List.mem_zipIdx_iff_getElem?.2 haudit)
    simp only [validateWorkTransition, bind_eq_ok, orError_eq_ok, ensure_eq_ok] at htransition
    obtain ⟨reviewer, hfind, hname, hauthorized⟩ := htransition
    obtain ⟨hrole, hother⟩ := reviewedIndependently_of_authorized hauthorized hdone
    exact ⟨reviewer, hfind, hname, hrole, hother⟩
  assignment id w hw := by
    have hitem := h.work_item hw
    simp only [validateWorkItem, bind_eq_ok, ensure_eq_ok] at hitem
    obtain ⟨_, -, _, -, _, hactive, -⟩ := hitem
    rw [hactive]
    cases w.needsAssignment <;> simp
  versions id w hw := by
    have hitem := h.work_item hw
    simp only [validateWorkItem, bind_eq_ok, ensure_eq_ok] at hitem
    obtain ⟨_, -, _, ⟨-, -, hversions⟩, -⟩ := hitem
    exact hversions

/-! ### Who finishes work -/

structure Approves (p : ProjectV1) (r : CompanyRequest) (actor : AgentId) (id : WorkItemId) :
    Prop where
  command : ∃ receipt, r.command = .applyWorkTransition receipt ∧ receipt.workItemId = id ∧
    receipt.toState = .done
  independent : ∃ old a, p.workItems.get id = some old ∧ old.currentAssignment = some a ∧
    a.agentId ≠ actor
  reviewer : isReviewer r.principal.role

theorem legalTransition_done {before : CompanyWorkStateV1} {assignee : Bool} {role : CompanyRoleV1}
    (h : legalTransition before .done assignee role) : isReviewer role ∧ assignee = false := by
  cases before with
  | inReview => simpa [legalTransition] using h
  | _ => cases h

theorem get_of_insert_assigned {items : Table WorkItemId CompanyWorkItemV1} {other : WorkItemId}
    {put : CompanyWorkItemV1} (hput : put.state = .assigned)
    (hw : (items.insert other put).get id = some w) (hdone : w.state = .done) :
    items.get id = some w := by
  rcases Table.get_of_insert hw with ⟨-, rfl⟩ | hw
  · rw [hput] at hdone
    cases hdone
  · exact hw

theorem Changes.done [CompanyIds] (h : Changes p r actor q) (hw : q.workItems.get id = some w)
    (hdone : w.state = .done) : p.workItems.get id = some w ∨ Approves p r actor id := by
  cases h with
  | planned items hlife hempty hnew => exact absurd hdone (hnew id w hw)
  | extended items hlife hnew => exact .inl ((hnew id w hw).resolve_right (not_not_intro hdone))
  | assigned other put hlife hput => exact .inl (get_of_insert_assigned hput hw hdone)
  | handedOver other put hput | corrected other put corrections hput =>
    exact .inl (get_of_insert_assigned hput hw hdone)
  | restarted review source blockerId digest other put corrections hput =>
    have hold := get_of_insert_assigned hput hw hdone
    exact .inl (Table.get_of_erase hold)
  | transitioned receipt old next items hcommand hget hnext hready =>
    have htransits := transitioned_eq_ok hnext
    rcases hready.kept hw with hkept | ⟨hwready, -⟩
    · rcases Table.get_of_insert hkept with ⟨hid, rfl⟩ | hkept
      · obtain ⟨a, ha, hlegal⟩ := htransits.assignee
        have hstate : receipt.toState = .done := htransits.state.symm.trans hdone
        rw [hstate] at hlegal
        obtain ⟨hrole, hother⟩ := legalTransition_done hlegal
        exact .inr ⟨⟨receipt, hcommand, hid.symm, hstate⟩,
          ⟨old, a, hid ▸ hget, ha, by simpa using hother⟩, hrole⟩
      · exact .inl hkept
    · rw [hdone] at hwready
      cases hwready
  | reserved other provider amount q hcommand h =>
    obtain ⟨-, rfl | rfl⟩ := reserveCost_eq_ok h
    all_goals exact .inl hw
  | settled other f reserved committed c q hcommand h =>
    rw [h.books.2] at hw
    exact .inl hw
  | _ => exact .inl hw

/-- **Order of work and separation of duties.** In every project that a run of commands reaches,
items beyond `DependencyPending` rest on finished dependencies with the bound outputs, the log of
every item shows an independent reviewer at each `Done`, items in an assigned state and only those
have one active assignment, and assignment versions count from one. And whenever a command leaves
an item `Done` that was not there like this before, it is the approval of that item by an
authorised participant who is a reviewer and does not hold it. -/
theorem work_order_and_duties [CompanyIds] {s : ProjectStore} {opening : CompanyRequest}
    {governance : ProposalGovernanceV1} {ceiling : ℕ} {providers : Table String ℕ}
    (hopen : acceptProposal opening governance ceiling providers = .ok s.project)
    (calls : List CompanyRequest) :
    WorkOrdered (machine.final s calls).project ∧
      ∀ r, Accepted (machine.final s calls) r → ∀ id w,
        (machine.call (machine.final s calls) r).1.project.workItems.get id = some w →
        w.state = .done → (machine.final s calls).project.workItems.get id = some w ∨
          ∃ actor, authorizeProjectActor (machine.final s calls).project r.principal = .ok actor ∧
            Approves (machine.final s calls).project r actor id := by
  refine ⟨(checked_final (acceptProposal_eq_ok hopen).checked calls).workOrdered, ?_⟩
  intro r haccepted id w hw hdone
  obtain ⟨actor, q, hpass, heq, -⟩ := accepted_cases haccepted
  rw [heq] at hw
  refine ((branch_changes hpass.branch_eq).done hw hdone).imp_right fun happroves => ?_
  obtain ⟨receipt, hcommand, -⟩ := happroves.command
  have hactor := hpass.actor_eq
  rw [commandActor, hcommand] at hactor
  exact ⟨actor, hactor, happroves⟩

end Order

/-- Waits for the page of the other item. -/
def linkedSpec : CompanyWorkItemSpecV1 :=
  { sampleSpec with
    workItemId := "work-b"
    dependencyIds := ["work-a"]
    inputs := [⟨"source", "work-a", "page", 1, sampleDigest⟩]
    outputs := [⟨"site", "text/html", "sha256", 1, sampleDigest⟩]
    budgetMicros := 40 }

def linkedCalls : List CompanyRequest :=
  reviewCalls (request manager 2 1 (.planWorkGraph [sampleSpec, linkedSpec])) ++ [approved 6]

attribute [local instance] sampleIds

theorem work_order_and_duties_approved :
    WorkOrdered (machine.final sampleStore linkedCalls).project ∧
      ((machine.final sampleStore linkedCalls).project.workItems.values.map (·.state)) =
        [.done, .ready] :=
  ⟨(work_order_and_duties (s := sampleStore) sampleProject_opened linkedCalls).1, by decide +kernel⟩

end Sentinel.Workflow.Company

import Sentinel.Workflow.ProjectCommands

/-! What an accepted command does to a project. Each command is taken apart once; the results
about the ledger, the lifecycle and the work go by cases on `Changes`. -/

namespace Sentinel.Workflow.Company
open Lib Except

section Helpers

variable {p q : ProjectV1} {r : CompanyRequest} {actor : AgentId}

theorem appendWorkTransition_eq_ok {w next : CompanyWorkItemV1}
    {before after : CompanyWorkStateV1} {reasonRef : String}
    (h : appendWorkTransition w r actor before after reasonRef = .ok next) :
    next = { w with
      transitionHistory := w.transitionHistory ++
        [⟨before, after, r.principal.principalId, actor, reasonRef, r.now⟩] } := by
  simp only [appendWorkTransition, bind_eq_ok, ok.injEq] at h
  obtain ⟨_, -, rfl⟩ := h
  rfl

structure MadeReady (items next : Table WorkItemId CompanyWorkItemV1) : Prop where
  kept : ∀ {id w}, next.get id = some w → items.get id = some w ∨
    w.state = .ready ∧ ∃ old, items.get id = some old ∧ old.state = .dependencyPending
  present : ∀ {id old}, items.get id = some old → ∃ w, next.get id = some w ∧
    (w = old ∨ w.state = .ready ∧ old.state = .dependencyPending)

theorem MadeReady.refl (items : Table WorkItemId CompanyWorkItemV1) : MadeReady items items where
  kept h := .inl h
  present {_ old} h := ⟨old, h, .inl rfl⟩

theorem MadeReady.insert {items next : Table WorkItemId CompanyWorkItemV1} {id : WorkItemId}
    {old w : CompanyWorkItemV1} (h : MadeReady items next) (hold : items.get id = some old)
    (hpending : old.state = .dependencyPending) (hready : w.state = .ready) :
    MadeReady items (next.insert id w) where
  kept {k v} hk := by
    rcases Table.get_of_insert hk with ⟨heq, rfl⟩ | hk
    · exact .inr ⟨hready, old, heq ▸ hold, hpending⟩
    · exact h.kept hk
  present {k v} hk := by
    rw [Table.get_insert]
    split_ifs with heq
    · subst heq
      obtain rfl : old = v := Option.some_inj.1 (hold.symm.trans hk)
      exact ⟨w, rfl, .inr ⟨hready, hpending⟩⟩
    · exact h.present hk

theorem refreshDependencyStates_eq_ok (h : refreshDependencyStates p r actor = .ok q) :
    ∃ items, MadeReady p.workItems items ∧ q = { p with workItems := items } := by
  refine foldlM_invariant
    (I := fun t => ∃ items, MadeReady p.workItems items ∧ t = { p with workItems := items }) ?_
    ⟨p.workItems, MadeReady.refl _, rfl⟩ h
  rintro id hid _ next ⟨items, hitems, rfl⟩ hnext
  -- the ids were collected from the pending items before any was promoted
  obtain ⟨e, he, rfl⟩ := List.mem_map.1 hid
  obtain ⟨hmem, hpending⟩ := List.mem_filter.1 he
  simp only [Bool.and_eq_true, decide_eq_true_eq] at hpending
  simp only [makeReady, bind_eq_ok, ok.injEq] at hnext
  obtain ⟨w, -, logged, -, version, -, rfl⟩ := hnext
  exact ⟨_, hitems.insert (Table.get_eq_some_iff.2 hmem) hpending.1 rfl, rfl⟩

structure Transits (r : CompanyRequest) (actor : AgentId) (w : CompanyWorkItemV1)
    (receipt : WorkTransitionReceiptV1) (next : CompanyWorkItemV1) : Prop where
  assignee : ∃ a, w.currentAssignment = some a ∧ legalTransition w.state receipt.toState
    (a.agentId = actor) r.principal.role
  state : next.state = receipt.toState

theorem transitioned_eq_ok {w next : CompanyWorkItemV1} {receipt : WorkTransitionReceiptV1}
    (h : transitioned r actor w receipt = .ok next) : Transits r actor w receipt next := by
  simp only [transitioned, bind_eq_ok, ensure_eq_ok, orError_eq_ok] at h
  obtain ⟨a, ha, _, ⟨-, hstate, -⟩, _, hlegal, hrest⟩ := h
  rw [← hstate] at hlegal
  split_ifs at hrest
  all_goals
    simp only [bind_eq_ok] at hrest
    obtain ⟨_, -, _, -, _, -, hnext⟩ := hrest
    rw [appendWorkTransition_eq_ok hnext]
    exact ⟨⟨a, ha, hlegal⟩, rfl⟩

theorem initialState_ne_done (spec : CompanyWorkItemSpecV1) : initialState spec ≠ .done := by
  unfold initialState
  split_ifs <;> simp

end Helpers

section Inversions

variable {p q : ProjectV1} {r : CompanyRequest} {actor : AgentId}

theorem assigned_eq_ok {w next : CompanyWorkItemV1} {a : AssignmentV1} {reasonRef : String}
    (h : assigned r actor w a reasonRef = .ok next) : next.state = .assigned := by
  simp only [assigned, bind_eq_ok, ok.injEq] at h
  obtain ⟨_, -, logged, -, rfl⟩ := h
  rfl

theorem foldlM_insertNew {rows : List CompanyWorkItemV1}
    {items next : Table WorkItemId CompanyWorkItemV1}
    (hrows : ∀ w ∈ rows, w.state ≠ .done) (h : rows.foldlM insertNew items = .ok next) :
    ∀ id w, next.get id = some w → items.get id = some w ∨ w.state ≠ .done := by
  refine foldlM_invariant
    (I := fun t => ∀ id w, t.get id = some w → items.get id = some w ∨ w.state ≠ .done) ?_
    (fun id w hw => .inl hw) h
  intro row hrow old new hold hnew id w hw
  simp only [insertNew, bind_eq_ok, ok.injEq] at hnew
  obtain ⟨_, -, rfl⟩ := hnew
  rcases Table.get_of_insert hw with ⟨-, rfl⟩ | hw
  · exact .inr (hrows row hrow)
  · exact hold id w hw

def settledProject (p : ProjectV1) (id : String) (f : CostReservationV1 → CostReservationV1)
    (reserved committed : ℕ) : ProjectV1 :=
  { p with
    reservations := modifyFirst (·.reservationId = id) f p.reservations
    reservedCostMicros := reserved
    committedCostMicros := committed }

/-- What `CommitCost` and `ReleaseCost` have in common: an active reservation is settled by `f` and
the difference is booked. -/
structure Settles (p : ProjectV1) (r : CompanyRequest) (actor : AgentId) (id : String)
    (f : CostReservationV1 → CostReservationV1) (reserved committed : ℕ) (c : CostReservationV1)
    (q : ProjectV1) : Prop where
  found : p.reservations.find? (·.reservationId = id) = some c
  active : c.state = .active
  kept : f c = { c with
    committedMicros := (f c).committedMicros
    usageEventOperationId := (f c).usageEventOperationId
    state := (f c).state
    updatedAt := r.now }
  amounts : c.committedMicros = none → settledAsStated (f c)
  effective_le : reservationEffectiveAmount (f c) ≤ c.reservedMicros
  reserved_eq :
    reserved + c.reservedMicros = p.reservedCostMicros + reservationEffectiveAmount (f c)
  committed_eq : c.committedMicros = none →
    committed = p.committedCostMicros + (f c).committedMicros.getD 0
  fits : p.committedCostMicros < 2 ^ 64 → committed < 2 ^ 64
  usage : c.usageEventOperationId = none → ∀ o, (f c).usageEventOperationId = some o →
    ((f c).state = .committed ∧ usagePrefixed o ∧ validIdentifier o) ∧
      ∀ d ∈ p.reservations, d.reservationId ≠ id → d.usageEventOperationId ≠ some o
  resolved : ∃ ref, resolveBudgetBlockersIfHeadroom (settledProject p id f reserved committed) r
    actor ref = .ok q

theorem commitCost_eq_ok {id : String} {actual : ℕ} {usage : Option String}
    (h : commitCost p r actor id actual usage = .ok q) :
    ∃ c, Settles p r actor id (committedReservation r actual usage)
      (p.reservedCostMicros - (c.reservedMicros - actual)) (p.committedCostMicros + actual)
        c q := by
  simp only [commitCost, checkUsageOperation, validateIdentifier, bind_eq_ok, ensure_eq_ok,
    checkAll_eq_ok, orError_eq_ok, checkedAdd_eq_some, checkedSub_eq_some,
    Option.mem_toList] at h
  obtain ⟨_, -, _, husage, c, hfound, _, ⟨hactive, hwithin⟩, _, ⟨rfl, hfits⟩, _, -, reserved,
    hreserved, hq⟩ := h
  obtain rfl : reserved = p.reservedCostMicros - (c.reservedMicros - actual) := by omega
  refine ⟨c, hfound, hactive, rfl, fun _ => decide_eq_true hwithin, hwithin, ?_, fun _ => rfl,
    fun _ => hfits, fun _ o ho => ?_, _, hq⟩
  · show _ + c.reservedMicros = _ + actual
    omega
  · obtain ⟨_, hvalid, hrest⟩ := husage o ho
    exact ⟨⟨rfl, hrest.1, hvalid⟩, hrest.2⟩

theorem releaseCost_eq_ok {id ref : String} (h : releaseCost p r actor id ref = .ok q) :
    ∃ c, Settles p r actor id (releasedReservation r) (p.reservedCostMicros - c.reservedMicros)
      p.committedCostMicros c q := by
  simp only [releaseCost, bind_eq_ok, ensure_eq_ok, orError_eq_ok, checkedSub_eq_some] at h
  obtain ⟨_, -, _, -, _, -, c, hfound, _, hactive, reserved, hreserved, hq⟩ := h
  obtain rfl : reserved = p.reservedCostMicros - c.reservedMicros := by omega
  refine ⟨c, hfound, hactive, rfl, fun hnone => ?_, Nat.zero_le _, ?_, fun hnone => ?_,
    fun hfits => hfits, fun hnone o ho => ?_, _, hq⟩
  · simp [settledAsStated, releasedReservation, hnone]
  · show _ + c.reservedMicros = _ + 0
    omega
  · simp [releasedReservation, hnone]
  · rw [releasedReservation, hnone] at ho
    cases ho

def settlesCost : CompanyWorkflowCommandV1 → Bool
  | .commitCost .. | .releaseCost .. => true
  | _ => false

theorem applyWorkTransition_eq_ok {receipt : WorkTransitionReceiptV1}
    (h : applyWorkTransition p r actor receipt = .ok q) :
    ∃ w next items, p.workItems.get receipt.workItemId = some w ∧
      transitioned r actor w receipt = .ok next ∧
      MadeReady (p.workItems.insert receipt.workItemId next) items ∧
      q = refreshProjectLifecycle { p with workItems := items } := by
  simp only [applyWorkTransition, bind_eq_ok, orError_eq_ok, ok.injEq] at h
  obtain ⟨_, -, _, -, _, -, w, hget, next, hnext, moved, hmoved, rfl⟩ := h
  obtain ⟨items, hitems, rfl⟩ := refreshDependencyStates_eq_ok hmoved
  exact ⟨w, next, items, hget, hnext, hitems, rfl⟩

theorem escalateBlocker_eq_ok {id ref : String} {target : AgentId}
    (h : escalateBlocker p r actor id target ref = .ok q) :
    ∃ b, p.blockers.find? (·.blockerId = id) = some b ∧ b.state = .opened ∧
      q = refreshProjectLifecycle { p with
        blockers := modifyFirst (·.blockerId = id) (escalatedBlocker r actor target ref)
          p.blockers } := by
  simp only [escalateBlocker, bind_eq_ok, orError_eq_ok, ensure_eq_ok, ok.injEq] at h
  obtain ⟨_, -, _, -, b, hfind, _, ⟨hstate, -⟩, _, -, rfl⟩ := h
  exact ⟨b, hfind, hstate, rfl⟩

theorem resolveBlocker_eq_ok {id ref : String} (h : resolveBlocker p r actor id ref = .ok q) :
    ∃ b before, p.blockers.find? (·.blockerId = id) = some b ∧ b.unresolved ∧
      q = refreshProjectLifecycle (restoreProjectLifecycleAfterLastBlocker { p with
        blockers := modifyFirst (·.blockerId = id) (resolvedBlocker r actor before ref)
          p.blockers }) := by
  simp only [resolveBlocker, bind_eq_ok, orError_eq_ok, ensure_eq_ok, ok.injEq] at h
  obtain ⟨_, -, _, -, b, hfind, _, ⟨hstate, -⟩, _, -, rfl⟩ := h
  exact ⟨b, _, hfind, hstate, rfl⟩

theorem progressCollaborationAdmission_eq_ok {id : String} {g : CollaborationProgressV1}
    (h : progressCollaborationAdmission p r actor id g = .ok q) :
    ∃ admissions, q = { p with collaborationAdmissions := admissions } := by
  simp only [progressCollaborationAdmission, bind_eq_ok, ok.injEq] at h
  obtain ⟨_, -, _, -, _, -, _, -, _, -, _, -, _, -, _, -, rfl⟩ := h
  exact ⟨_, rfl⟩

def stamped (q : ProjectV1) (r : CompanyRequest) : ProjectV1 :=
  { q with version := q.version + 1, updatedAt := r.now }

variable [CompanyIds]

theorem handOver_eq_ok {w next : CompanyWorkItemV1} {current : AssignmentV1}
    {participant : ParticipantBindingV1} {generation : ℕ} {digest : String}
    {delegatedBy : Option AgentId} {reasonRef : String}
    (h : handOver r actor w current participant generation digest delegatedBy reasonRef =
      .ok next) : next.state = .assigned := by
  simp only [handOver, bind_eq_ok] at h
  obtain ⟨_, -, hassigned⟩ := h
  exact assigned_eq_ok hassigned

theorem reworkItem_eq_ok {generation : ℕ} {candidate feedback delivery : String}
    {source w : CompanyWorkItemV1}
    (h : reworkItem p r generation candidate feedback delivery source = .ok w) :
    w.state ≠ .done := by
  simp only [reworkItem, bind_eq_ok, ok.injEq] at h
  obtain ⟨_, -, _, -, _, -, rfl⟩ := h
  exact initialState_ne_done _

inductive Changes (p : ProjectV1) (r : CompanyRequest) (actor : AgentId) : ProjectV1 → Prop
  | planned (items) (hlife : p.lifecycleState = .planning) (hempty : p.workItems.values = [])
      (hnew : ∀ id w, items.get id = some w → w.state ≠ .done) :
      Changes p r actor { p with workItems := items }
  | activated (hlife : p.lifecycleState = .planning) :
      Changes p r actor { p with lifecycleState := .active }
  | extended (items) (hlife : p.lifecycleState = .deliveryCandidate)
      (hnew : ∀ id w, items.get id = some w → p.workItems.get id = some w ∨ w.state ≠ .done) :
      Changes p r actor { p with workItems := items, lifecycleState := .active }
  | assigned (id w) (hlife : p.lifecycleState = .active) (hstate : w.state = .assigned) :
      Changes p r actor { p with workItems := p.workItems.insert id w }
  | handedOver (id w) (hstate : w.state = .assigned) :
      Changes p r actor (refreshProjectLifecycle { p with workItems := p.workItems.insert id w })
  | transitioned (receipt w next items) (hcommand : r.command = .applyWorkTransition receipt)
      (hget : p.workItems.get receipt.workItemId = some w)
      (hnext : transitioned r actor w receipt = .ok next)
      (hready : MadeReady (p.workItems.insert receipt.workItemId next) items) :
      Changes p r actor (refreshProjectLifecycle { p with workItems := items })
  | corrected (id w corrections) (hstate : w.state = .assigned) :
      Changes p r actor (refreshProjectLifecycle
        { p with workItems := p.workItems.insert id w, workCorrections := corrections })
  | restarted (review source blockerId digest id w corrections) (hstate : w.state = .assigned) :
      Changes p r actor (refreshProjectLifecycle
        { restoreProjectLifecycleAfterLastBlocker
            (archivedReview p r actor review source blockerId digest) with
          workItems := (p.workItems.erase review.spec.workItemId).insert id w
          workCorrections := corrections })
  | raised (id cause owner b) (hcommand : r.command = .raiseBlocker id cause owner)
      (hfrom : b.blockedFromState = some p.lifecycleState) (hstate : b.state = .opened) :
      Changes p r actor { p with blockers := p.blockers ++ [b], lifecycleState := .blocked }
  | escalated (id target ref b) (hcommand : r.command = .escalateBlocker id target ref)
      (hfind : p.blockers.find? (·.blockerId = id) = some b) (hstate : b.state = .opened) :
      Changes p r actor (refreshProjectLifecycle
        { p with
          blockers := modifyFirst (·.blockerId = id) (escalatedBlocker r actor target ref)
            p.blockers })
  | resolved (id ref b before) (hcommand : r.command = .resolveBlocker id ref)
      (hfind : p.blockers.find? (·.blockerId = id) = some b) (hstate : b.unresolved) :
      Changes p r actor (refreshProjectLifecycle (restoreProjectLifecycleAfterLastBlocker
        { p with
          blockers := modifyFirst (·.blockerId = id) (resolvedBlocker r actor before ref)
            p.blockers }))
  | reserved (id provider amount q) (hcommand : r.command = .reserveCost id provider amount)
      (h : reserveCost p r id provider amount = .ok q) : Changes p r actor q
  | settled (id f reserved committed c q) (hcommand : settlesCost r.command)
      (h : Settles p r actor id f reserved committed c q) : Changes p r actor q
  | admitted (admissions)
      (h : (∃ input, admitCollaboration p r input =
          .ok { p with collaborationAdmissions := admissions }) ∨
        ∃ id g, progressCollaborationAdmission p r actor id g =
          .ok { p with collaborationAdmissions := admissions }) :
      Changes p r actor { p with collaborationAdmissions := admissions }
  | recorded (hcommand : r.command = .record) : Changes p r actor p

theorem planWorkGraph_changes {items : List CompanyWorkItemSpecV1}
    (h : planWorkGraph p r items = .ok q) : Changes p r actor q := by
  simp only [planWorkGraph, bind_eq_ok, ensure_eq_ok, ok.injEq] at h
  obtain ⟨_, -, _, -, _, -, _, -, _, ⟨hlife, hempty⟩, _, -, rfl⟩ := h
  refine .planned _ hlife hempty fun id w hw => ?_
  obtain ⟨spec, -, rfl⟩ := List.mem_map.1 (Table.mem_of_get_ofRows hw).1
  exact initialState_ne_done spec

theorem appendSourceReview_changes {item : CompanyWorkItemSpecV1}
    (h : appendSourceReview p r actor item = .ok q) : Changes p r actor q := by
  simp only [appendSourceReview, bind_eq_ok, ensure_eq_ok, ok.injEq] at h
  obtain ⟨_, -, _, ⟨hlife, -⟩, _, -, _, -, _, -, _, -, _, -, _, -, _, -, logged, -, rfl⟩ := h
  refine .extended _ hlife fun id w hw => ?_
  rcases Table.get_of_insert hw with ⟨-, rfl⟩ | hw
  · exact .inr (by simp)
  · exact .inl hw

theorem createGovernedRework_changes {candidate feedback delivery : String}
    (h : createGovernedRework p r candidate feedback delivery = .ok q) : Changes p r actor q := by
  simp only [createGovernedRework, bind_eq_ok, ensure_eq_ok, ok.injEq] at h
  obtain ⟨_, -, _, -, _, -, _, -, _, ⟨hlife, -⟩, _, -, _, -, _, -, generation, -, created,
    hcreated, items, hitems, rfl⟩ := h
  refine .extended _ hlife (foldlM_insertNew (fun w hw => ?_) hitems)
  obtain ⟨source, -, hsource⟩ := mem_of_mapAll hcreated w hw
  exact reworkItem_eq_ok hsource

theorem assignWork_changes {id : WorkItemId} {agent : AgentId} {generation : ℕ}
    {digest ref : String} {profile : Option WorkProfileBindingV1}
    (h : assignWork p r actor id agent generation digest ref profile = .ok q) :
    Changes p r actor q := by
  simp only [assignWork, bind_eq_ok, ensure_eq_ok, ok.injEq] at h
  obtain ⟨_, -, _, -, _, -, _, -, _, -, w, -, _, ⟨hlife, -⟩, _, -, _, -, next, hnext, rfl⟩ := h
  exact .assigned id next hlife (assigned_eq_ok hnext)

theorem requestWorkCorrection_eq_ok {id : WorkItemId} {version : ℕ} {ref : String}
    (h : requestWorkCorrection p r actor id version ref = .ok q) :
    ∃ w corrections, w.state = .assigned ∧ q = refreshProjectLifecycle
      { p with workItems := p.workItems.insert id w, workCorrections := corrections } := by
  simp only [requestWorkCorrection, bind_eq_ok, ok.injEq] at h
  obtain ⟨_, -, _, -, _, -, previous, -, _, -, _, -, _, -, _, -, next, hnext, rfl⟩ := h
  refine ⟨next, _, ?_, rfl⟩
  rw [appendWorkTransition_eq_ok hnext]

theorem restartSourceAfterQa_changes {review source : WorkItemId} {blockerId digest : String}
    {version : ℕ} (h : restartSourceAfterQa p r actor review source blockerId digest version =
      .ok q) : Changes p r actor q := by
  simp only [restartSourceAfterQa, bind_eq_ok] at h
  obtain ⟨_, -, _, -, _, -, _, -, _, -, old, -, reviewed, -, _, -, _, -, _, -, hrequest⟩ := h
  obtain ⟨w, corrections, hstate, rfl⟩ := requestWorkCorrection_eq_ok hrequest
  exact .restarted reviewed old blockerId digest source w corrections hstate

theorem admitCollaboration_eq_ok {input : CollaborationAdmissionInputV1}
    (h : admitCollaboration p r input = .ok q) :
    ∃ admissions, q = { p with collaborationAdmissions := admissions } := by
  simp only [admitCollaboration, bind_eq_ok, ok.injEq] at h
  obtain ⟨_, -, _, -, _, -, _, -, _, -, _, -, _, -, _, -, _, -, rfl⟩ := h
  exact ⟨_, rfl⟩

theorem branch_changes (h : branch p r actor = .ok q) : Changes p r actor q := by
  unfold branch at h
  split at h
  case h_1 items _ => exact planWorkGraph_changes h
  case h_2 item _ => exact appendSourceReview_changes h
  case h_3 ref _ =>
    simp only [activateProject, bind_eq_ok, ensure_eq_ok, ok.injEq] at h
    obtain ⟨_, -, _, -, _, ⟨hlife, -⟩, rfl⟩ := h
    exact .activated hlife
  case h_4 => exact assignWork_changes h
  case h_5 => exact assignWork_changes h
  case h_6 id version agent generation digest ref _ =>
    simp only [reassignWork, bind_eq_ok, ok.injEq] at h
    obtain ⟨_, -, _, -, _, -, _, -, w, -, _, -, _, -, next, hnext, rfl⟩ := h
    exact .handedOver id next (handOver_eq_ok hnext)
  case h_7 id version delegate ref _ =>
    simp only [delegateWork, bind_eq_ok, ok.injEq] at h
    obtain ⟨_, -, _, -, w, -, _, -, _, -, _, -, next, hnext, rfl⟩ := h
    exact .handedOver id next (handOver_eq_ok hnext)
  case h_8 receipt hcommand =>
    obtain ⟨w, next, items, hget, hnext, hready, rfl⟩ := applyWorkTransition_eq_ok h
    exact .transitioned receipt w next items hcommand hget hnext hready
  case h_9 id version ref _ =>
    obtain ⟨w, corrections, hstate, rfl⟩ := requestWorkCorrection_eq_ok h
    exact .corrected id w corrections hstate
  case h_10 => exact restartSourceAfterQa_changes h
  case h_11 => exact createGovernedRework_changes h
  case h_12 id cause owner hcommand =>
    simp only [raiseBlocker, bind_eq_ok, ok.injEq] at h
    obtain ⟨_, -, _, -, _, -, _, -, _, -, rfl⟩ := h
    exact .raised id cause owner _ hcommand rfl rfl
  case h_13 id target ref hcommand =>
    obtain ⟨b, hfind, hstate, rfl⟩ := escalateBlocker_eq_ok h
    exact .escalated id target ref b hcommand hfind hstate
  case h_14 id ref hcommand =>
    obtain ⟨b, before, hfind, hstate, rfl⟩ := resolveBlocker_eq_ok h
    exact .resolved id ref b before hcommand hfind hstate
  case h_15 id provider amount hcommand => exact .reserved id provider amount q hcommand h
  case h_16 hcommand =>
    obtain ⟨c, hc⟩ := commitCost_eq_ok h
    exact .settled _ _ _ _ c q (by rw [hcommand]; rfl) hc
  case h_17 hcommand =>
    obtain ⟨c, hc⟩ := releaseCost_eq_ok h
    exact .settled _ _ _ _ c q (by rw [hcommand]; rfl) hc
  case h_18 input _ =>
    obtain ⟨admissions, rfl⟩ := admitCollaboration_eq_ok h
    exact .admitted admissions (.inl ⟨input, h⟩)
  case h_19 id g _ =>
    obtain ⟨admissions, rfl⟩ := progressCollaborationAdmission_eq_ok h
    exact .admitted admissions (.inr ⟨id, g, h⟩)
  case h_20 hcommand =>
    cases h
    exact .recorded hcommand

structure Passes (p : ProjectV1) (r : CompanyRequest) (actor : AgentId) (q : ProjectV1) :
    Prop where
  principal_valid : r.principal.validate = .ok ()
  now_ne_zero : r.now ≠ 0
  tenant : r.principal.tenantId = p.tenantId
  time : p.updatedAt ≤ r.now
  actor_eq : commandActor p r = .ok actor
  branch_eq : branch p r actor = .ok q

theorem applyCompanyCommand_eq_ok {next : ProjectV1} (h : applyCompanyCommand p r = .ok next) :
    ∃ actor q, Passes p r actor q ∧ next = stamped q r ∧
      validateProject next r.records = .ok () := by
  simp only [applyCompanyCommand, sealed, bind_eq_ok, ensure_eq_ok, orError_eq_ok,
    checkedAdd_eq_some, ok.injEq] at h
  obtain ⟨_, hprincipal, _, hnow, _, htenant, _, htime, _, -, actor, hactor, _, -, q, hq,
    version, ⟨rfl, -⟩, _, hvalid, rfl⟩ := h
  exact ⟨actor, q, ⟨hprincipal, hnow, htenant, htime, hactor, hq⟩, rfl, hvalid⟩

end Inversions

structure Checked (p : ProjectV1) : Prop where
  header : validateHeader p = .ok ()
  graph : validateWorkGraphIfPresent p.workItems p.updatedAt = .ok ()
  work : ∀ id w, p.workItems.get id = some w → validateWork p w = .ok ()
  blockerIds : (p.blockers.map (·.blockerId)).Nodup
  ledger : validateLedger p = .ok ()
  lifecycle : lifecycleValid p

theorem validateProject_eq_ok {p : ProjectV1} {records : Except WorkflowError Unit}
    (h : validateProject p records = .ok ()) : Checked p := by
  simp only [validateProject, validateLifecycle, bind_eq_ok, ensure_eq_ok, checkAll_eq_ok] at h
  obtain ⟨_, hheader, _, hgraph, _, -, _, -, _, hwork, _, hblockers, _, -, _, hledger, _, hlife,
    -⟩ := h
  exact ⟨hheader, hgraph, fun id w hw => hwork w (Table.mem_values_iff.2 ⟨id, hw⟩), hblockers,
    hledger, hlife⟩

section Runs

variable [CompanyIds]

theorem call_cases (s : ProjectStore) (r : CompanyRequest) :
    ((machine.call s r).1 = s ∧ (machine.call s r).2 ≠ .accepted) ∨
      (machine.call s r).2 = .accepted ∧
        ∃ actor q, Passes s.project r actor q ∧ (machine.call s r).1.project = stamped q r ∧
          Checked (stamped q r) := by
  simp only [machine]
  split
  · exact .inl ⟨rfl, by simp⟩
  · split
    case h_1 next hnext =>
      obtain ⟨actor, q, hpass, rfl, hvalid⟩ := applyCompanyCommand_eq_ok hnext
      exact .inr ⟨rfl, actor, q, hpass, rfl, validateProject_eq_ok hvalid⟩
    case h_2 e _ => exact .inl ⟨rfl, by simp⟩

theorem accepted_cases {s : ProjectStore} {r : CompanyRequest} (h : Accepted s r) :
    ∃ actor q, Passes s.project r actor q ∧ (machine.call s r).1.project = stamped q r ∧
      Checked (stamped q r) := by
  rcases call_cases s r with ⟨-, hrefused⟩ | ⟨-, hcases⟩
  · exact absurd h hrefused
  · exact hcases

structure Opened (p : ProjectV1) (ceiling : ℕ) : Prop where
  ceiling_eq : p.costCeilingMicros = ceiling
  lifecycle : p.lifecycleState = .planning
  blockers : p.blockers = []
  reservations : p.reservations = []
  admissions : p.collaborationAdmissions = []
  checked : Checked p

theorem acceptProposal_eq_ok {p : ProjectV1} {r : CompanyRequest}
    {governance : ProposalGovernanceV1} {ceiling : ℕ} {providers : Table String ℕ}
    (h : acceptProposal r governance ceiling providers = .ok p) : Opened p ceiling := by
  simp only [acceptProposal, bind_eq_ok, ok.injEq] at h
  obtain ⟨_, -, _, -, _, -, _, -, _, hvalid, rfl⟩ := h
  exact ⟨rfl, rfl, rfl, rfl, rfl, validateProject_eq_ok hvalid⟩

/-- What every accepted command keeps of the project, a run keeps. -/
theorem final_of_passes {I : ProjectV1 → Prop}
    (hstep : ∀ p r actor q, I p → Passes p r actor q → Checked (stamped q r) → I (stamped q r))
    {s : ProjectStore} (hs : I s.project) (calls : List CompanyRequest) :
    I (machine.final s calls).project := by
  refine machine.final_invariant' (I := fun s => I s.project) (fun s r hs => ?_) hs calls
  rcases call_cases s r with ⟨heq, -⟩ | ⟨-, actor, q, hpass, heq, hchecked⟩
  · rw [heq]
    exact hs
  · rw [heq]
    exact hstep s.project r actor q hs hpass hchecked

theorem checked_final {s : ProjectStore} (hs : Checked s.project) (calls : List CompanyRequest) :
    Checked (machine.final s calls).project :=
  final_of_passes (fun _ _ _ _ _ _ hchecked => hchecked) hs calls

end Runs

end Sentinel.Workflow.Company

import Mathlib.Algebra.Order.BigOperators.Group.List
import Sentinel.Lib.Sha2
import Sentinel.Workflow.ProjectSteps

/-! The cost ledger of a project. `ReserveCost`, `CommitCost` and `ReleaseCost` keep running
totals; `validate_project` adds the reservations up again. The two agree after every run, and the
recount refuses none of the three commands, except a reservation whose derived name is taken. -/

namespace Sentinel.Workflow.Company
open Lib List

/-! ### What the recount says -/

structure LedgerValid (p : ProjectV1) : Prop where
  each : ∀ c ∈ p.reservations, ReservationValid p c
  ids : (p.reservations.map (·.reservationId)).Nodup
  usage : (p.reservations.filterMap (·.usageEventOperationId)).Nodup
  reserved : p.effectiveTotal = p.reservedCostMicros ∧ p.reservedCostMicros < 2 ^ 64
  committed : (p.reservations.map (·.committedMicros.getD 0)).sum = p.committedCostMicros ∧
    p.committedCostMicros < 2 ^ 64
  providers : ∀ c ∈ p.reservations, ∃ ceiling,
    p.providerCostCeilingsMicros.get c.provider = some ceiling ∧
      providerTotal p c.provider ≤ ceiling
  works : ∀ c ∈ p.reservations, ∀ id, c.workItemId = some id → ∃ w,
    p.workItems.get id = some w ∧ workTotal p id ≤ w.spec.budgetMicros

theorem validateLedger_eq_ok {p : ProjectV1} : validateLedger p = .ok () ↔ LedgerValid p := by
  simp only [validateLedger, bind_eq_ok, ensure_eq_ok, checkAll_eq_ok, orError_eq_ok,
    checkedSum_eq_some, mem_filterMap]
  constructor
  · rintro ⟨_, heach, _, hids, _, husage, reserved, hreserved, committed, hcommitted, _,
      ⟨rfl, rfl⟩, _, hproviders, hworks⟩
    exact ⟨heach, hids, husage, hreserved, hcommitted, hproviders,
      fun c hc id hid => hworks id ⟨c, hc, hid⟩⟩
  · intro h
    refine ⟨(), h.each, (), h.ids, (), h.usage, _, h.reserved, _, h.committed, (), ⟨rfl, rfl⟩, (),
      h.providers, ?_⟩
    rintro id ⟨c, hc, hid⟩
    exact h.works c hc id hid

structure Balanced (p : ProjectV1) : Prop where
  reserved : p.reservedCostMicros = p.effectiveTotal
  reserved_le : p.reservedCostMicros ≤ p.costCeilingMicros
  committed : p.committedCostMicros = (p.reservations.map (·.committedMicros.getD 0)).sum
  committed_le : p.committedCostMicros ≤ p.reservedCostMicros
  provider_known : ∀ c ∈ p.reservations, (p.providerCostCeilingsMicros.get c.provider).isSome
  provider_le : ∀ provider ceiling, p.providerCostCeilingsMicros.get provider = some ceiling →
    providerTotal p provider ≤ ceiling
  work_known : ∀ c ∈ p.reservations, p.knowsWork c.workItemId
  work_le : ∀ id w, p.workItems.get id = some w → workTotal p id ≤ w.spec.budgetMicros

theorem committed_le_effective {c : CostReservationV1} (h : settledAsStated c) :
    c.committedMicros.getD 0 ≤ reservationEffectiveAmount c := by
  unfold settledAsStated at h
  unfold reservationEffectiveAmount
  split at h <;> simp_all

theorem Checked.balanced {p : ProjectV1} (h : Checked p) : Balanced p := by
  have hledger := validateLedger_eq_ok.1 h.ledger
  have hheader := h.header
  simp only [validateHeader, bind_eq_ok, ensure_eq_ok] at hheader
  obtain ⟨_, ⟨-, -, -, -, -, hceiling, -⟩, -⟩ := hheader
  have hcommitted : p.committedCostMicros ≤ p.reservedCostMicros := by
    rw [← hledger.committed.1, ← hledger.reserved.1]
    exact sum_le_sum fun c hc => committed_le_effective (hledger.each c hc).amounts
  refine
    { reserved := hledger.reserved.1.symm
      reserved_le := hceiling
      committed := hledger.committed.1.symm
      committed_le := hcommitted
      provider_known := ?_
      provider_le := ?_
      work_known := fun c hc => (hledger.each c hc).work
      work_le := ?_ }
  · intro c hc
    obtain ⟨ceiling, hget, -⟩ := hledger.providers c hc
    rw [hget]
    rfl
  · intro provider ceiling hget
    by_cases hc : ∃ c ∈ p.reservations, c.provider = provider
    · obtain ⟨c, hc, rfl⟩ := hc
      obtain ⟨ceiling', hget', hle⟩ := hledger.providers c hc
      obtain rfl : ceiling = ceiling' := Option.some_inj.1 (hget.symm.trans hget')
      exact hle
    · -- nothing is reserved with this provider
      have hnone : p.reservations.filter (·.provider = provider) = [] :=
        filter_eq_nil_iff.2 fun c hc' => by simpa using fun h => hc ⟨c, hc', h⟩
      simp [providerTotal, hnone]
  · intro id w hget
    by_cases hc : ∃ c ∈ p.reservations, c.workItemId = some id
    · obtain ⟨c, hc, hid⟩ := hc
      obtain ⟨w', hget', hle⟩ := hledger.works c hc id hid
      obtain rfl : w = w' := Option.some_inj.1 (hget.symm.trans hget')
      exact hle
    · have hnone : p.reservations.filter (·.workItemId = some id) = [] :=
        filter_eq_nil_iff.2 fun c hc' => by simpa using fun h => hc ⟨c, hc', h⟩
      simp [workTotal, hnone]

/-! ### The three commands -/

section Costs

variable {p q : ProjectV1} {r : CompanyRequest} {actor : AgentId}

structure Reserves (p : ProjectV1) (r : CompanyRequest) (id : Option WorkItemId)
    (provider : String) (amount : ℕ) : Prop where
  manager : isManager r.principal.role
  active : p.lifecycleState = .active
  provider_valid : validIdentifier provider
  work_known : p.knowsWork id
  fits : p.reservedCostMicros + amount < 2 ^ 64
  free : amount = 0 → isTokenFreeProvider provider
  provider_room : ∃ ceiling, p.providerCostCeilingsMicros.get provider = some ceiling ∧
    providerTotal p provider + amount ≤ ceiling
  work_room : ∀ i, id = some i → ∃ w, p.workItems.get i = some w ∧
    workTotal p i + amount ≤ w.spec.budgetMicros

def reservedProject [CompanyIds] (p : ProjectV1) (r : CompanyRequest) (id : Option WorkItemId)
    (provider : String) (amount : ℕ) : ProjectV1 :=
  { p with
    reservedCostMicros := p.reservedCostMicros + amount
    reservations := p.reservations ++ [newReservation r id provider amount] }

variable {c : CostReservationV1} {id ref provider : String} {amount : ℕ}

theorem checkReservation_eq_ok {id : Option WorkItemId}
    (h : checkReservation p id provider amount = .ok ()) :
    (amount = 0 → isTokenFreeProvider provider) ∧
      (∃ ceiling, p.providerCostCeilingsMicros.get provider = some ceiling ∧
        providerTotal p provider + amount ≤ ceiling) ∧
      ∀ i, id = some i → ∃ w, p.workItems.get i = some w ∧
        workTotal p i + amount ≤ w.spec.budgetMicros := by
  simp only [checkReservation, bind_eq_ok, ensure_eq_ok, orError_eq_ok, checkAll_eq_ok,
    checkedSum_eq_some, checkedAdd_eq_some, Option.mem_toList] at h
  obtain ⟨ceiling, hceiling, _, ⟨rfl, -⟩, _, ⟨rfl, -⟩, _, ⟨hfree, hle⟩, hwork⟩ := h
  refine ⟨hfree, ⟨ceiling, hceiling, hle⟩, fun i hi => ?_⟩
  obtain ⟨w, hw, _, ⟨rfl, -⟩, next, hnext, hbudget⟩ := hwork i hi
  rw [Option.mem_def, checkedAdd_eq_some] at hnext
  exact ⟨w, hw, hnext.1 ▸ hbudget⟩

theorem reserveCost_eq_ok [CompanyIds] {id : Option WorkItemId}
    (h : reserveCost p r id provider amount = .ok q) :
    Reserves p r id provider amount ∧ (q = reservedProject p r id provider amount ∨
      q = { reservedProject p r id provider amount with
        blockers := p.blockers ++ [newBlocker p r (newId r "budget-blocker") id
          "budget-exhausted" p.governance.owner .budgetExhausted]
        lifecycleState := .blocked }) := by
  simp only [reserveCost, requireManager, validateIdentifier, bind_eq_ok, ensure_eq_ok,
    orError_eq_ok, checkedAdd_eq_some] at h
  obtain ⟨_, hmanager, _, hactive, _, hprovider, _, hwork, _, ⟨rfl, hfits⟩, _, hcheck, _, -, _, -,
    hq⟩ := h
  obtain ⟨hfree, hproviderRoom, hworkRoom⟩ := checkReservation_eq_ok hcheck
  refine ⟨⟨hmanager, hactive, hprovider, hwork, hfits, hfree, hproviderRoom, hworkRoom⟩, ?_⟩
  split_ifs at hq
  · simp only [bind_eq_ok, Except.ok.injEq] at hq
    obtain ⟨_, -, rfl⟩ := hq
    exact .inr rfl
  · cases hq
    exact .inl rfl

def withoutBudgetBlockers (r : CompanyRequest) (actor : AgentId) (ref : String)
    (blockers : List BlockerV1) : List BlockerV1 :=
  blockers.map fun b =>
    if isOpenBudgetBlocker b then resolvedBlocker r actor b.state ref b else b

theorem resolveBudgetBlockersIfHeadroom_eq_ok
    (h : resolveBudgetBlockersIfHeadroom p r actor ref = .ok q) :
    (p.costCeilingMicros ≤ p.reservedCostMicros ∧ q = p) ∨
      (p.reservedCostMicros < p.costCeilingMicros ∧
        q = refreshProjectLifecycle (restoreProjectLifecycleAfterLastBlocker
          { p with blockers := withoutBudgetBlockers r actor ref p.blockers })) := by
  unfold resolveBudgetBlockersIfHeadroom at h
  split_ifs at h with hfull
  · cases h
    exact .inl ⟨hfull, rfl⟩
  · simp only [bind_eq_ok, Except.ok.injEq] at h
    obtain ⟨_, -, rfl⟩ := h
    exact .inr ⟨Nat.lt_of_not_le hfull, rfl⟩

/-! ### Commands that leave the books alone -/

structure SameBooks (p q : ProjectV1) : Prop where
  governance : q.governance = p.governance
  ceiling : q.costCeilingMicros = p.costCeilingMicros
  providers : q.providerCostCeilingsMicros = p.providerCostCeilingsMicros
  reserved : q.reservedCostMicros = p.reservedCostMicros
  committed : q.committedCostMicros = p.committedCostMicros
  reservations : q.reservations = p.reservations
  admissions : q.collaborationAdmissions = p.collaborationAdmissions

variable {f : CostReservationV1 → CostReservationV1} {reserved committed : ℕ}

theorem Settles.books (h : Settles p r actor id f reserved committed c q) :
    SameBooks (settledProject p id f reserved committed) q ∧ q.workItems = p.workItems := by
  obtain ⟨ref, hresolve⟩ := h.resolved
  rcases resolveBudgetBlockersIfHeadroom_eq_ok hresolve with ⟨-, rfl⟩ | ⟨-, rfl⟩
  all_goals exact ⟨⟨rfl, rfl, rfl, rfl, rfl, rfl, rfl⟩, rfl⟩

theorem Changes.books [CompanyIds] (h : Changes p r actor q) :
    SameBooks p q ∨
      (∃ id provider amount, r.command = .reserveCost id provider amount ∧
        reserveCost p r id provider amount = .ok q) ∨
      (∃ id f reserved committed c, Settles p r actor id f reserved committed c q) ∨
      ∃ admissions, q = { p with collaborationAdmissions := admissions } ∧
        ((∃ input, admitCollaboration p r input = .ok q) ∨
          ∃ id g, progressCollaborationAdmission p r actor id g = .ok q) := by
  cases h with
  | reserved id provider amount q hcommand h =>
    exact .inr (.inl ⟨id, provider, amount, hcommand, h⟩)
  | settled id f reserved committed c q hcommand h =>
    exact .inr (.inr (.inl ⟨id, f, reserved, committed, c, h⟩))
  | admitted admissions h => exact .inr (.inr (.inr ⟨admissions, rfl, h⟩))
  | _ => exact .inl ⟨rfl, rfl, rfl, rfl, rfl, rfl, rfl⟩

/-! ### The recount after each of the three commands -/

theorem ReservationValid.mono {next : ProjectV1} (h : ReservationValid p c)
    (hgovernance : next.governance = p.governance) (hwork : next.workItems = p.workItems)
    (htime : p.updatedAt ≤ next.updatedAt) : ReservationValid next c where
  identifiers := h.identifiers
  creator := by
    rw [hgovernance]
    exact h.creator
  work := by
    rw [ProjectV1.knowsWork, hwork]
    exact h.work
  usage := h.usage
  created := h.created
  updated := h.updated.trans htime
  positive := h.positive
  amounts := h.amounts

theorem ReservationValid.of_active (h : ReservationValid p c) (hactive : c.state = .active) :
    c.committedMicros = none ∧ c.usageEventOperationId = none ∧
      reservationEffectiveAmount c = c.reservedMicros := by
  have hamounts := h.amounts
  rw [settledAsStated, hactive] at hamounts
  refine ⟨by simpa using hamounts, ?_, by simp [reservationEffectiveAmount, hactive]⟩
  cases husage : c.usageEventOperationId with
  | none => rfl
  | some o => simpa [hactive] using (h.usage o husage).1

theorem usage_modifyFirst (h : LedgerValid p)
    (hfind : p.reservations.find? (·.reservationId = id) = some c)
    (hnone : c.usageEventOperationId = none) (hnew : ∀ o, (f c).usageEventOperationId = some o →
      ∀ d ∈ p.reservations, d.reservationId ≠ id → d.usageEventOperationId ≠ some o) :
    ((modifyFirst (·.reservationId = id) f p.reservations).filterMap
      (·.usageEventOperationId)).Nodup := by
  have hid : c.reservationId = id := by simpa using find?_some hfind
  obtain ⟨as, bs, hl, hmod⟩ := modifyFirst_split (f := f) hfind
  have hids := h.ids
  have husage := h.usage
  rw [hmod]
  rw [hl] at hids husage hnew
  simp only [filterMap_append, filterMap_cons, hnone] at husage ⊢
  cases ho : (f c).usageEventOperationId with
  | none => exact husage
  | some o =>
    rw [map_append, map_cons] at hids
    -- the other reservations have other names, so the check covered them
    have hother : ∀ d ∈ as ++ bs, d.usageEventOperationId ≠ some o := by
      intro d hd
      have hne : d.reservationId ≠ id := by
        rw [← hid]
        intro heq
        refine (nodup_middle.1 hids).notMem ?_
        rw [← heq, ← map_append]
        exact mem_map_of_mem hd
      refine hnew o ho d ?_ hne
      simp only [mem_append, mem_cons] at hd ⊢
      tauto
    refine nodup_middle.2 (nodup_cons.2 ⟨?_, husage⟩)
    rw [← filterMap_append, mem_filterMap]
    rintro ⟨d, hd, hdo⟩
    exact hother d hd hdo

theorem Settles.reservationValid (hs : Settles p r actor id f reserved committed c q)
    (hvalid : ReservationValid (stamped q r) c) : ReservationValid (stamped q r) (f c) := by
  obtain ⟨hnone, hunused, -⟩ := hvalid.of_active hs.active
  have husage := hs.usage hunused
  have hamounts := hs.amounts hnone
  rw [hs.kept] at husage hamounts ⊢
  exact
    { hvalid with
      usage := fun o ho => (husage o ho).1
      created := ⟨hvalid.created.1, hvalid.created.2.trans hvalid.updated⟩
      updated := le_refl r.now
      amounts := hamounts }

theorem LedgerValid.settles (h : LedgerValid p) (htime : p.updatedAt ≤ r.now)
    (hs : Settles p r actor id f reserved committed c q) : LedgerValid (stamped q r) := by
  obtain ⟨hbooks, hworkItems⟩ := hs.books
  have hmem := mem_of_find?_eq_some hs.found
  have hold := h.each c hmem
  obtain ⟨hnone, hunused, heffective⟩ := hold.of_active hs.active
  have hle := heffective ▸ hs.effective_le
  have hreservations : (stamped q r).reservations =
      modifyFirst (·.reservationId = id) f p.reservations := hbooks.reservations
  have hreserved : (stamped q r).reservedCostMicros = reserved := hbooks.reserved
  have hcommitted : (stamped q r).committedCostMicros = committed := hbooks.committed
  have hproviders : (stamped q r).providerCostCeilingsMicros = p.providerCostCeilingsMicros :=
    hbooks.providers
  have hwork : (stamped q r).workItems = p.workItems := hworkItems
  have hmono : ∀ d ∈ p.reservations, ReservationValid (stamped q r) d := fun d hd =>
    (h.each d hd).mono hbooks.governance hwork htime
  have hsame : (f c).reservationId = c.reservationId ∧ (f c).provider = c.provider ∧
      (f c).workItemId = c.workItemId := by
    rw [hs.kept]
    exact ⟨rfl, rfl, rfl⟩
  -- every reservation keeps its provider and its item, and no total grows
  have hkept : ∀ d ∈ (stamped q r).reservations,
      ∃ old ∈ p.reservations, d.provider = old.provider ∧ d.workItemId = old.workItemId := by
    intro d hd
    rw [hreservations] at hd
    rcases mem_modifyFirst hs.found hd with rfl | hd
    · exact ⟨c, hmem, hsame.2⟩
    · exact ⟨d, hd, rfl, rfl⟩
  have hproviderTotal : ∀ provider,
      providerTotal (stamped q r) provider ≤ providerTotal p provider := by
    intro provider
    rw [providerTotal, hreservations]
    exact sum_filter_modifyFirst_le hs.found (by simp only [hsame.2.1]) hle
  have hworkTotal : ∀ i, workTotal (stamped q r) i ≤ workTotal p i := by
    intro i
    rw [workTotal, hreservations]
    exact sum_filter_modifyFirst_le hs.found (by simp only [hsame.2.2]) hle
  refine
    { each := ?_
      ids := ?_
      usage := ?_
      reserved := ?_
      committed := ⟨?_, hcommitted ▸ hs.fits h.committed.2⟩
      providers := ?_
      works := ?_ }
  · intro d hd
    rw [hreservations] at hd
    rcases mem_modifyFirst hs.found hd with rfl | hd
    · exact hs.reservationValid (hmono c hmem)
    · exact hmono d hd
  · rw [hreservations, map_modifyFirst hs.found hsame.1]
    exact h.ids
  · rw [hreservations]
    exact usage_modifyFirst h hs.found hunused fun o ho => (hs.usage hunused o ho).2
  · have hsum := sum_map_modifyFirst (f := f) reservationEffectiveAmount hs.found
    have hbooked := hs.reserved_eq
    obtain ⟨htotal, hfits⟩ := h.reserved
    rw [ProjectV1.effectiveTotal] at htotal ⊢
    rw [hreservations]
    omega
  · have hsum := sum_map_modifyFirst (f := f) (·.committedMicros.getD 0) hs.found
    have hbooked := hs.committed_eq hnone
    have htotal := h.committed.1
    simp only [hnone, Option.getD_none] at hsum
    rw [hreservations]
    omega
  · intro d hd
    obtain ⟨old, hold, heq, -⟩ := hkept d hd
    obtain ⟨ceiling, hget, hle⟩ := h.providers old hold
    rw [heq, hproviders]
    exact ⟨ceiling, hget, (hproviderTotal _).trans hle⟩
  · intro d hd i hi
    obtain ⟨old, hold, -, heq⟩ := hkept d hd
    obtain ⟨w, hget, hle⟩ := h.works old hold i (heq ▸ hi)
    rw [hwork]
    exact ⟨w, hget, (hworkTotal _).trans hle⟩

theorem idDigits_isIdentifier [CompanyIds] (kind : String) (tenant : TenantId)
    (operation : Uuid128) :
    (textBytes (CompanyIds.idDigits kind tenant operation)).all fun b =>
      isAsciiAlphanumeric b || isSeparator b || b = 46 || b = 58 := by
  have hhex := (CompanyIds.idDigits_hex kind tenant operation).2
  rw [all_eq_true] at hhex ⊢
  intro b hb
  have hb := hhex b hb
  simp only [isAsciiAlphanumeric, isAsciiLower, Bool.or_eq_true, Bool.and_eq_true,
    decide_eq_true_eq] at hb ⊢
  rcases hb with hdigit | ⟨hlo, hhi⟩
  · exact .inl (.inl (.inl (.inl (.inr hdigit))))
  · exact .inl (.inl (.inl (.inl (.inl ⟨hlo, UInt8.le_trans hhi (by decide)⟩))))

theorem validIdentifier_stableDomainId [CompanyIds] {kind : String} (tenant : TenantId)
    (operation : Uuid128) (hkind : validIdentifier (kind ++ "-"))
    (hshort : (textBytes (kind ++ "-")).length ≤ 104) :
    validIdentifier (stableDomainId kind tenant operation) := by
  have hbytes : textBytes (stableDomainId kind tenant operation) = textBytes (kind ++ "-") ++
      textBytes (CompanyIds.idDigits kind tenant operation) := by
    simp [stableDomainId, textBytes]
  have hlength := (CompanyIds.idDigits_hex kind tenant operation).1
  simp only [validIdentifier, Bool.and_eq_true, decide_eq_true_eq, ne_eq, hbytes,
    all_append, length_append, append_eq_nil_iff, hlength] at hkind ⊢
  exact ⟨⟨fun hnil => hkind.1.1 hnil.1, Nat.add_le_add_right hshort 24⟩, hkind.2,
    idDigits_isIdentifier ..⟩

theorem principal?_of_authorized (hchecked : Checked p) {principal}
    (h : authorizeProjectActor p principal = .ok actor) :
    ∃ participant, p.governance.principal? principal.principalId = some participant ∧
      participant.role = principal.role := by
  simp only [authorizeProjectActor, bind_eq_ok, ensure_eq_ok, orError_eq_ok] at h
  obtain ⟨_, -, agent, -, participant, hfind, _, ⟨hrole, hname⟩, -⟩ := h
  have hheader := hchecked.header
  simp only [validateHeader, ProposalGovernanceV1.validate, bind_eq_ok, orCorrupt_eq_ok,
    ensure_eq_ok] at hheader
  obtain ⟨_, -, _, -, _, -, _, ⟨_, -, _, -, _, ⟨-, hnodup⟩, -⟩, -⟩ := hheader
  have hmem := mem_of_find?_eq_some hfind
  refine ⟨participant, ?_, hrole⟩
  cases hfound : p.governance.principal? principal.principalId with
  | none => simpa [hname] using find?_eq_none.1 hfound participant hmem
  | some other =>
    have hother : other.principalId = principal.principalId := by simpa using find?_some hfound
    rw [inj_on_of_nodup_map hnodup (mem_of_find?_eq_some hfound) hmem
      (hother.trans hname.symm)]

theorem validIdentifier_principalId
    (h : r.principal.validate = .ok ()) : validIdentifier r.principal.principalId := by
  simp only [AuthenticatedCompanyPrincipalV1.validate, validateIdentifier, bind_eq_ok,
    ensure_eq_ok] at h
  obtain ⟨_, -, _, -, _, hname, -⟩ := h
  exact hname

theorem sum_filter_append {chosen : CostReservationV1 → Bool} (l : List CostReservationV1) :
    (((l ++ [c]).filter chosen).map reservationEffectiveAmount).sum =
      ((l.filter chosen).map reservationEffectiveAmount).sum +
        if chosen c then reservationEffectiveAmount c else 0 := by
  rw [filter_append, map_append, sum_append]
  split_ifs with hc <;> simp [hc]

theorem Reserves.reservationValid [CompanyIds] {id : Option WorkItemId}
    (h : Reserves p r id provider amount) (hchecked : Checked p)
    (hprincipal : r.principal.validate = .ok ()) (hnow : r.now ≠ 0)
    (hactor : authorizeProjectActor p r.principal = .ok actor) :
    ReservationValid (stamped p r) (newReservation r id provider amount) := by
  obtain ⟨participant, hfind, hrole⟩ := principal?_of_authorized hchecked hactor
  exact
    { identifiers := ⟨validIdentifier_stableDomainId _ _ (by decide +kernel) (by decide +kernel),
        h.provider_valid, validIdentifier_principalId hprincipal⟩
      creator := by
        simp only [stamped, newReservation, hfind, Option.any_some, hrole]
        exact h.manager
      work := h.work_known
      usage := fun o ho => by cases ho
      created := ⟨hnow, le_refl r.now⟩
      updated := le_refl r.now
      positive := h.free
      amounts := rfl }

theorem ledgerValid_reserve [CompanyIds] {id : Option WorkItemId} (hchecked : Checked p)
    (hprincipal : r.principal.validate = .ok ()) (hnow : r.now ≠ 0) (htime : p.updatedAt ≤ r.now)
    (hactor : authorizeProjectActor p r.principal = .ok actor)
    (hq : reserveCost p r id provider amount = .ok q) :
    LedgerValid (stamped q r) ↔
      ∀ c ∈ p.reservations, c.reservationId ≠ newId r "reservation" := by
  obtain ⟨hreserves, hcases⟩ := reserveCost_eq_ok hq
  have h := validateLedger_eq_ok.1 hchecked.ledger
  -- the blocker that may be raised does not matter to the ledger
  have hframe : (stamped q r).reservations =
        p.reservations ++ [newReservation r id provider amount] ∧
      (stamped q r).reservedCostMicros = p.reservedCostMicros + amount ∧
      (stamped q r).committedCostMicros = p.committedCostMicros ∧
      (stamped q r).governance = p.governance ∧
      (stamped q r).providerCostCeilingsMicros = p.providerCostCeilingsMicros ∧
      (stamped q r).workItems = p.workItems ∧ (stamped q r).updatedAt = r.now := by
    rcases hcases with rfl | rfl <;> exact ⟨rfl, rfl, rfl, rfl, rfl, rfl, rfl⟩
  obtain ⟨hreservations, hreserved, hcommitted, hgovernance, hproviders, hwork, hupdated⟩ := hframe
  constructor
  · intro hvalid c hc heq
    have hids := hvalid.ids
    rw [hreservations, map_append] at hids
    refine disjoint_of_nodup_append hids (mem_map_of_mem hc) ?_
    rw [heq]
    exact mem_singleton_self _
  · intro hfresh
    have hprovider : ∀ name, providerTotal (stamped q r) name =
        providerTotal p name + if provider = name then amount else 0 := by
      intro name
      rw [providerTotal, hreservations, sum_filter_append]
      simp only [decide_eq_true_eq]
      rfl
    have hworkTotal : ∀ i, workTotal (stamped q r) i =
        workTotal p i + if id = some i then amount else 0 := by
      intro i
      rw [workTotal, hreservations, sum_filter_append]
      simp only [decide_eq_true_eq]
      rfl
    refine
      { each := ?_
        ids := ?_
        usage := ?_
        reserved := ⟨?_, hreserved ▸ hreserves.fits⟩
        committed := ⟨?_, hcommitted ▸ h.committed.2⟩
        providers := ?_
        works := ?_ }
    · intro c hc
      rw [hreservations, mem_append, mem_singleton] at hc
      rcases hc with hc | rfl
      · exact (h.each c hc).mono hgovernance hwork (hupdated ▸ htime)
      · exact (hreserves.reservationValid hchecked hprincipal hnow hactor).mono hgovernance hwork
          (le_of_eq hupdated.symm)
    · rw [hreservations, map_append]
      refine nodup_append.2 ⟨h.ids, nodup_singleton _, ?_⟩
      intro name hname other hother
      obtain ⟨c, hc, rfl⟩ := mem_map.1 hname
      rw [mem_singleton.1 hother]
      exact hfresh c hc
    · rw [hreservations, filterMap_append]
      simpa [newReservation] using h.usage
    · rw [ProjectV1.effectiveTotal, hreservations, hreserved, map_append, sum_append,
        ← h.reserved.1]
      rfl
    · rw [hreservations, hcommitted, map_append, sum_append, ← h.committed.1]
      rfl
    · intro c hc
      rw [hreservations, mem_append, mem_singleton] at hc
      rw [hproviders, hprovider]
      obtain ⟨ceiling, hceiling, hroom⟩ := hreserves.provider_room
      by_cases hname : provider = c.provider
      · subst hname
        exact ⟨ceiling, hceiling, by simpa using hroom⟩
      · rcases hc with hc | rfl
        · simpa [hname] using h.providers c hc
        · exact absurd rfl hname
    · intro c hc i hi
      rw [hreservations, mem_append, mem_singleton] at hc
      rw [hwork, hworkTotal]
      by_cases hitem : id = some i
      · obtain ⟨w, hw, hroom⟩ := hreserves.work_room i hitem
        exact ⟨w, hw, by simpa [hitem] using hroom⟩
      · rcases hc with hc | rfl
        · simpa [hitem] using h.works c hc i hi
        · exact absurd hi hitem

/-! ### Runs -/

theorem settled_stays [CompanyIds] (h : Changes p r actor q) (hc : c ∈ p.reservations)
    (hsettled : c.state ≠ .active) : c ∈ q.reservations := by
  rcases h.books with hbooks | ⟨id, provider, amount, -, hq⟩ | ⟨id, f, reserved, committed, d, hs⟩ |
      ⟨admissions, rfl, -⟩
  · exact hbooks.reservations ▸ hc
  · obtain ⟨-, rfl | rfl⟩ := reserveCost_eq_ok hq
    all_goals exact mem_append_left _ hc
  · obtain ⟨as, bs, hl, hmod⟩ := modifyFirst_split (f := f) hs.found
    have hne : c ≠ d := fun heq => hsettled (heq ▸ hs.active)
    rw [hl] at hc
    rw [hs.books.1.reservations, settledProject, hmod]
    simp only [mem_append, mem_cons] at hc ⊢
    tauto
  · exact hc

theorem settled_stays_final [CompanyIds] (hsettled : c.state ≠ .active) (s : ProjectStore)
    (hc : c ∈ s.project.reservations) (calls : List CompanyRequest) :
    c ∈ (machine.final s calls).project.reservations := by
  refine final_of_passes (I := fun p => c ∈ p.reservations) ?_ hc calls
  intro p r actor q hp hpass _
  have hq : c ∈ q.reservations := settled_stays (branch_changes hpass.branch_eq) hp hsettled
  exact hq

/-- **The cost ledger.** In every project that a run of commands reaches, the running totals are
the sums over the reservations and keep to all ceilings. A reservation that is committed or
released is never touched again. The recount refuses no commit and no release that passes its own
branch, and it accepts a reservation exactly when no reservation has the derived name. -/
theorem cost_ledger [CompanyIds] {s : ProjectStore} {opening : CompanyRequest}
    {governance : ProposalGovernanceV1} {ceiling : ℕ} {providers : Table String ℕ}
    (hopen : acceptProposal opening governance ceiling providers = .ok s.project)
    (calls : List CompanyRequest) :
    Balanced (machine.final s calls).project ∧
      (∀ before after, calls = before ++ after →
        ∀ c ∈ (machine.final s before).project.reservations, c.state ≠ .active →
          c ∈ (machine.final s calls).project.reservations) ∧
      (∀ r actor q, Passes (machine.final s calls).project r actor q →
        (∀ id actual usage, r.command = .commitCost id actual usage →
          validateLedger (stamped q r) = .ok ()) ∧
        (∀ id ref, r.command = .releaseCost id ref → validateLedger (stamped q r) = .ok ()) ∧
        ∀ id provider amount, r.command = .reserveCost id provider amount →
          (validateLedger (stamped q r) = .ok () ↔
            ∀ c ∈ (machine.final s calls).project.reservations,
              c.reservationId ≠ newId r "reservation")) := by
  have hchecked := checked_final (acceptProposal_eq_ok hopen).checked calls
  refine ⟨hchecked.balanced, ?_, ?_⟩
  · rintro before after rfl c hc hsettled
    rw [machine.final_append]
    exact settled_stays_final hsettled _ hc after
  · intro r actor q hpass
    have hledger := validateLedger_eq_ok.1 hchecked.ledger
    have hbranch := hpass.branch_eq
    refine ⟨?_, ?_, ?_⟩
    · intro id actual usage hcommand
      rw [branch, hcommand] at hbranch
      obtain ⟨c, hs⟩ := commitCost_eq_ok hbranch
      exact validateLedger_eq_ok.2 (hledger.settles hpass.time hs)
    · intro id ref hcommand
      rw [branch, hcommand] at hbranch
      obtain ⟨c, hs⟩ := releaseCost_eq_ok hbranch
      exact validateLedger_eq_ok.2 (hledger.settles hpass.time hs)
    · intro id provider amount hcommand
      have hactor := hpass.actor_eq
      rw [commandActor, hcommand] at hactor
      rw [branch, hcommand] at hbranch
      rw [validateLedger_eq_ok]
      exact ledgerValid_reserve hchecked hpass.principal_valid hpass.now_ne_zero hpass.time hactor
        hbranch

end Costs

/-! ### A small project -/

def uuidText (id : Uuid128) : String :=
  let digits := (hexText (beBytes 16 id.toNat)).toList
  String.ofList (List.intercalate ['-'] [digits.take 8, (digits.drop 8).take 4,
    (digits.drop 12).take 4, (digits.drop 16).take 4, digits.drop 20])

/-- The first twenty-four digits of `canonical_sha256` of a tuple. -/
def canonicalDigits (domain : String) (values : List String) : String :=
  hexText ((Sha2.sha256 (utf8Bytes domain ++ [0] ++
    utf8Bytes ("[" ++ ",".intercalate values ++ "]"))).toList.take 12)

/-- The digits of the names in the runs below, computed beforehand. -/
def knownDigits : List ((String × TenantId × Uuid128) × String) :=
  [(("project", "tenant-a", 1), "205c0df0e8b64ac0d407d383"),
    (("assignment", "tenant-a", 4), "458a30bad6afaeca58a1ce61"),
    (("blocker", "tenant-a", 3), "dca27c31b52ecf593100ae8b"),
    (("blocker", "tenant-a", 7), "164faf5b2085dd62f0559f12"),
    (("blocker", "tenant-a", 9), "5dfa1096c02553fdc30ea58e"),
    (("reservation", "tenant-a", 6), "2310ef43d00a9194e73c1d8f"),
    (("collaboration-admission", "tenant-a", 8), "1a7d009d650024309483df55")]

def sampleDigits (kind : String) (tenant : TenantId) (operation : Uuid128) : String :=
  match knownDigits.find? (·.1 = (kind, tenant, operation)) with
  | some known => known.2
  | none => canonicalDigits "sentinel.workflow.company-id.v1"
      [jsonText kind, jsonText tenant, jsonText (uuidText operation)]

def HexDigits (n : ℕ) (bytes : List UInt8) : Prop :=
  bytes.length = n ∧ bytes.all fun b => isAsciiDigit b || (97 ≤ b && b ≤ 102)

instance (n : ℕ) (bytes : List UInt8) : Decidable (HexDigits n bytes) :=
  inferInstanceAs (Decidable (_ ∧ _))

theorem hexDigits_hexDigit : ∀ n < 16, HexDigits 1 (String.utf8EncodeChar (hexDigit n)) := by
  decide +kernel

theorem hexDigits_hexText (bytes : List UInt8) :
    HexDigits (2 * bytes.length) (textBytes (hexText bytes)) := by
  have htext : textBytes (hexText bytes) = bytes.flatMap fun b =>
      String.utf8EncodeChar (hexDigit (b.toNat / 16)) ++
        String.utf8EncodeChar (hexDigit (b.toNat % 16)) := by
    simp [textBytes, hexText, List.utf8Encode, flatMap_assoc]
  rw [htext]
  clear htext
  induction bytes with
  | nil => exact ⟨rfl, rfl⟩
  | cons b bytes ih =>
    have hb := b.toNat_lt
    obtain ⟨hhigh, hhigh'⟩ := hexDigits_hexDigit (b.toNat / 16) (by omega)
    obtain ⟨hlow, hlow'⟩ := hexDigits_hexDigit (b.toNat % 16) (by omega)
    refine ⟨?_, ?_⟩
    · rw [flatMap_cons, length_append, length_append, hhigh, hlow, ih.1,
        length_cons]
      omega
    · rw [flatMap_cons, all_append, all_append, hhigh', hlow', ih.2]
      rfl

theorem hexDigits_canonicalDigits (domain : String) (values : List String) :
    HexDigits 24 (textBytes (canonicalDigits domain values)) := by
  unfold canonicalDigits
  generalize Sha2.sha256 _ = digest
  have hlength : (digest.toList.take 12).length = 12 := by simp
  have hdigits := hexDigits_hexText (digest.toList.take 12)
  rwa [hlength] at hdigits

@[reducible] def sampleIds : CompanyIds where
  idDigits := sampleDigits
  reworkDigits tenant project operation source generation :=
    canonicalDigits "sentinel.workflow.governed-rework-item.v1" [jsonText tenant, jsonText project,
      jsonText (uuidText operation), jsonText source, toString generation]
  idDigits_hex kind tenant operation := by
    unfold sampleDigits
    split
    · rename_i known hfind
      have hknown : ∀ e ∈ knownDigits, HexDigits 24 (textBytes e.2) := by decide +kernel
      exact hknown known (mem_of_find?_eq_some hfind)
    · exact hexDigits_canonicalDigits _ _

def sampleProfile : WorkProfileBindingV1 := ⟨"web-app-v1", 1, sampleDigest⟩

def sampleGovernance : ProposalGovernanceV1 where
  owner := 1
  participants := [⟨1, "pm-1", .projectManager, ["planning"], none, sampleProfile⟩,
    ⟨2, "tl-1", .technicalLead, ["architecture"], some 1, sampleProfile⟩,
    ⟨3, "dev-1", .developer, ["rust"], some 2, sampleProfile⟩,
    ⟨4, "qa-1", .qa, ["review"], some 2, sampleProfile⟩]
  projectProfile := sampleProfile

def sampleSpec : CompanyWorkItemSpecV1 where
  workItemId := "work-a"
  title := "Page"
  objective := "Build the page"
  requiredRole := .developer
  requiredSpecialties := ["rust"]
  dependencyIds := []
  owner := 3
  inputs := []
  outputs := [⟨"page", "text/html", "sha256", 1, sampleDigest⟩]
  qualityGate := ⟨"gate-a", 1, sampleDigest⟩
  budgetMicros := 60
  rework := none

def agentPrincipal (agent : AgentId) (name : String) (role : CompanyRoleV1) :
    AuthenticatedCompanyPrincipalV1 :=
  ⟨1, "tenant-a", name, .agent, role, none, some agent, 1, sampleDigest⟩

def manager : AuthenticatedCompanyPrincipalV1 := agentPrincipal 1 "pm-1" .projectManager
def lead : AuthenticatedCompanyPrincipalV1 := agentPrincipal 2 "tl-1" .technicalLead
def developer : AuthenticatedCompanyPrincipalV1 := agentPrincipal 3 "dev-1" .developer
def tester : AuthenticatedCompanyPrincipalV1 := agentPrincipal 4 "qa-1" .qa

def request (principal : AuthenticatedCompanyPrincipalV1) (operationId : Uuid128) (version : ℕ)
    (command : CompanyWorkflowCommandV1) : CompanyRequest :=
  ⟨principal, operationId, version, command, version + 1, .ok (), some [3], .ok ()⟩

def opening : CompanyRequest :=
  { request ⟨1, "tenant-a", "customer-1", .customer, .customer, some "customer-1", none, 1,
      sampleDigest⟩ 1 0 .record with team := none }

def sampleCeilings : Table String ℕ := Table.empty.insert "openai" 100

def sampleProject : ProjectV1 where
  tenantId := "tenant-a"
  projectId := "project-205c0df0e8b64ac0d407d383"
  governance := sampleGovernance
  costCeilingMicros := 100
  providerCostCeilingsMicros := sampleCeilings
  lifecycleState := .planning
  reservedCostMicros := 0
  committedCostMicros := 0
  workItems := Table.empty
  blockers := []
  reservations := []
  workCorrections := []
  archivedSourceReviews := []
  collaborationAdmissions := []
  version := 1
  createdAt := 1
  updatedAt := 1

def sampleStore : ProjectStore := ⟨sampleProject, []⟩

attribute [local instance] sampleIds

theorem sampleProject_opened :
    acceptProposal opening sampleGovernance 100 sampleCeilings = .ok sampleProject := by
  have hname : newId opening "project" = sampleProject.projectId := by decide +kernel
  simp only [acceptProposal, hname, bind_eq_ok, ensure_eq_ok]
  refine ⟨(), by decide +kernel, (), by decide, (), rfl, (), rfl, (), ?_, rfl⟩
  show validateProject sampleProject (.ok ()) = .ok ()
  decide +kernel

def planned : CompanyRequest := request manager 2 1 (.planWorkGraph [sampleSpec])

def started : CompanyRequest := request manager 3 2 (.activateProject "start")

def clashingCalls : List CompanyRequest :=
  [planned, started, request manager 6 3 (.reserveCost (some "work-a") "openai" 10)]

def clashingReservation : CompanyRequest :=
  request lead 6 4 (.reserveCost (some "work-a") "openai" 10)

theorem cost_ledger_clashing :
    Balanced (machine.final sampleStore clashingCalls).project ∧
      (machine.final sampleStore clashingCalls).project.reservedCostMicros = 10 :=
  ⟨(cost_ledger (s := sampleStore) sampleProject_opened clashingCalls).1, by decide +kernel⟩

/-- Both requests are in order, and an operation id is bound per principal; but both make the same
name, and the recount refuses the second one as a corrupt store. -/
theorem clashing_reservation_refused :
    acceptProposal opening sampleGovernance 100 sampleCeilings = .ok sampleStore.project ∧
      ∃ q, Passes (machine.final sampleStore clashingCalls).project clashingReservation 2 q ∧
        validateLedger (stamped q clashingReservation) = .error corrupt := by
  have hrun : (branch (machine.final sampleStore clashingCalls).project
      clashingReservation 2).map (fun q => validateLedger (stamped q clashingReservation)) =
        .ok (.error corrupt) := by decide +kernel
  obtain ⟨q, hbranch, hledger⟩ := map_eq_ok.1 hrun
  refine ⟨sampleProject_opened, q, ⟨?_, ?_, ?_, ?_, ?_, hbranch⟩, hledger⟩
  all_goals decide +kernel

end Sentinel.Workflow.Company

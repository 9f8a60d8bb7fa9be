import Sentinel.Workflow.ProjectValidation

/-! What `validate_work_graph` accepts: the graphs in which every reference is resolved and no item
waits for itself, with some conditions on the items themselves. -/

namespace Sentinel.Workflow.Company
open Lib

section Graph

variable (specs : List CompanyWorkItemSpecV1)

def DependsOn (a b : WorkItemId) : Prop := ∃ s ∈ specs, s.workItemId = a ∧ b ∈ s.dependencyIds

def BoundTo (s : CompanyWorkItemSpecV1) (i : WorkInputContractV1) (o : WorkOutputContractV1) :
    Prop :=
  ∃ p ∈ specs, p.workItemId = i.producerWorkItemId ∧ p.workItemId ∈ s.dependencyIds ∧
    o ∈ p.outputs ∧ o.name = i.producerOutputName

structure WellFormedGraph : Prop where
  unique : (specs.map (·.workItemId)).Nodup
  known : ∀ s ∈ specs, ∀ d ∈ s.dependencyIds, ∃ t ∈ specs, t.workItemId = d
  bound : ∀ s ∈ specs, ∀ i ∈ s.inputs, ∃ o, BoundTo specs s i o
  acyclic : ∀ id, ¬ Relation.TransGen (DependsOn specs) id id

structure ExecutableItems : Prop where
  size : specs ≠ [] ∧ specs.length ≤ maxCompanyItems
  valid : ∀ s ∈ specs, s.validate = .ok ()
  produces : ∀ s ∈ specs, s.outputs ≠ []
  used : ∀ s ∈ specs, ∀ d ∈ s.dependencyIds, ∃ i ∈ s.inputs, i.producerWorkItemId = d
  current : ∀ s ∈ specs, ∀ i ∈ s.inputs, ∀ o, BoundTo specs s i o →
    i.expectedContractGeneration = o.contractGeneration ∧
      i.expectedContractDigest = o.contractDigest

end Graph

variable {specs : List CompanyWorkItemSpecV1}

/-! ### The search for a cycle -/

theorem leads_dependenciesOf_iff (hnodup : (specs.map (·.workItemId)).Nodup) {a b : WorkItemId} :
    Leads (dependenciesOf specs) a b ↔ DependsOn specs a b := by
  unfold Leads dependenciesOf DependsOn
  constructor
  · intro h
    cases hfind : specs.find? (·.workItemId = a) with
    | none => simp [hfind] at h
    | some s =>
      obtain ⟨hs, hid⟩ := (find?_key_eq_some_iff hnodup).mp hfind
      exact ⟨s, hs, hid, by simpa [hfind] using h⟩
  · rintro ⟨s, hs, hid, hb⟩
    rw [(find?_key_eq_some_iff hnodup).mpr ⟨hs, hid⟩]
    exact hb

theorem isSome_visits_iff (hnodup : (specs.map (·.workItemId)).Nodup)
    (hknown : ∀ s ∈ specs, ∀ d ∈ s.dependencyIds, d ∈ specs.map (·.workItemId)) :
    (specs.foldlM (fun seen s => visit specs (specs.length + 1) s.workItemId [] seen) []).isSome ↔
      ∀ id, ¬ Relation.TransGen (DependsOn specs) id id := by
  have hclosed : ∀ a ∈ specs.map (·.workItemId), ∀ b ∈ dependenciesOf specs a,
      b ∈ specs.map (·.workItemId) := by
    intro a _ b hb
    obtain ⟨s, hs, _, hd⟩ := (leads_dependenciesOf_iff hnodup).mp hb
    exact hknown s hs b hd
  have hnone : ∀ a ∉ specs.map (·.workItemId), dependenciesOf specs a = [] := by
    intro a ha
    apply List.eq_nil_iff_forall_not_mem.mpr
    intro b hb
    obtain ⟨s, hs, rfl, _⟩ := (leads_dependenciesOf_iff hnodup).mp hb
    exact ha (List.mem_map_of_mem hs)
  have hleads : Leads (dependenciesOf specs) = DependsOn specs := by
    funext a b
    exact propext (leads_dependenciesOf_iff hnodup)
  have hsearch := isSome_search_iff hclosed hnone
  rw [hleads, List.foldlM_map, List.length_map] at hsearch
  exact hsearch

/-! ### The bindings -/

theorem validateGraphInput_eq_ok {i : WorkInputContractV1} :
    validateGraphInput specs i = .ok () ↔
      ∃ p, specs.find? (·.workItemId = i.producerWorkItemId) = some p ∧
        ∃ o, p.outputs.find? (·.name = i.producerOutputName) = some o ∧
          i.expectedContractGeneration = o.contractGeneration ∧
          i.expectedContractDigest = o.contractDigest := by
  simp only [validateGraphInput, bind_eq_ok, orError_eq_ok, ensure_eq_ok]

theorem validateGraphItem_eq_ok {s : CompanyWorkItemSpecV1} :
    validateGraphItem specs s = .ok () ↔
      (∀ d ∈ s.dependencyIds, d ∈ specs.map (·.workItemId)) ∧
      (s.outputs ≠ [] ∧ ∀ d ∈ s.dependencyIds, d ∈ s.inputs.map (·.producerWorkItemId)) ∧
      ∀ i ∈ s.inputs, validateGraphInput specs i = .ok () := by
  simp only [validateGraphItem, bind_eq_ok, ensure_eq_ok, checkAll_eq_ok, exists_const]

theorem CompanyWorkItemSpecV1.names_of_validate {s : CompanyWorkItemSpecV1}
    (h : s.validate = .ok ()) :
    (∀ i ∈ s.inputs, i.producerWorkItemId ∈ s.dependencyIds) ∧ (s.outputs.map (·.name)).Nodup := by
  simp only [validate, bind_eq_ok, ensure_eq_ok, checkAll_eq_ok, validateInput] at h
  obtain ⟨_, _, _, _, _, _, _, _, _, _, _, hinputs, _, _, _, _, _, houtputs, _⟩ := h
  refine ⟨?_, houtputs⟩
  intro i hi
  obtain ⟨_, _, _, _, _, _, _, _, _, hproducer⟩ := hinputs i hi
  exact hproducer

theorem validateGraphInput_iff_bound (hnodup : (specs.map (·.workItemId)).Nodup)
    (hvalid : ∀ s ∈ specs, s.validate = .ok ()) {s : CompanyWorkItemSpecV1} (hs : s ∈ specs)
    {i : WorkInputContractV1} (hi : i ∈ s.inputs) :
    validateGraphInput specs i = .ok () ↔
      (∃ o, BoundTo specs s i o) ∧ ∀ o, BoundTo specs s i o →
        i.expectedContractGeneration = o.contractGeneration ∧
          i.expectedContractDigest = o.contractDigest := by
  have houtput : ∀ p ∈ specs, ∀ o, p.outputs.find? (·.name = i.producerOutputName) = some o ↔
      o ∈ p.outputs ∧ o.name = i.producerOutputName :=
    fun p hp o => find?_key_eq_some_iff (CompanyWorkItemSpecV1.names_of_validate (hvalid p hp)).2
  have hproducer : ∀ p, specs.find? (·.workItemId = i.producerWorkItemId) = some p ↔
      p ∈ specs ∧ p.workItemId = i.producerWorkItemId := fun p => find?_key_eq_some_iff hnodup
  have hdependency : i.producerWorkItemId ∈ s.dependencyIds :=
    (CompanyWorkItemSpecV1.names_of_validate (hvalid s hs)).1 i hi
  rw [validateGraphInput_eq_ok]
  constructor
  · rintro ⟨p, hp, o, ho, hcurrent⟩
    obtain ⟨hpmem, hpid⟩ := (hproducer p).mp hp
    have hbound : BoundTo specs s i o :=
      ⟨p, hpmem, hpid, hpid ▸ hdependency, (houtput p hpmem o).mp ho⟩
    refine ⟨⟨o, hbound⟩, ?_⟩
    rintro o' ⟨p', hp', hid', _, ho'⟩
    -- Ids and output names are distinct, so that there is one such output only.
    have hpp : some p' = some p := ((hproducer p').mpr ⟨hp', hid'⟩).symm.trans hp
    obtain rfl : p' = p := Option.some.inj hpp
    have hoo : some o' = some o := ((houtput p' hp' o').mpr ho').symm.trans ho
    obtain rfl : o' = o := Option.some.inj hoo
    exact hcurrent
  · rintro ⟨⟨o, hbound⟩, hcurrent⟩
    obtain ⟨p, hp, hid, _, ho⟩ := id hbound
    exact ⟨p, (hproducer p).mpr ⟨hp, hid⟩, o, (houtput p hp o).mpr ho, hcurrent o hbound⟩

/-! ### What is accepted -/

/-- A work graph is accepted exactly when its shape is right, it has one to `maxCompanyItems`
items that are valid on their own and produce something, every dependency feeds an input, and
every input expects the contract that the bound output has. -/
theorem validateWorkGraph_accepts_iff (specs : List CompanyWorkItemSpecV1) :
    validateWorkGraph specs = .ok () ↔ WellFormedGraph specs ∧ ExecutableItems specs := by
  have hmem : ∀ d, d ∈ specs.map (·.workItemId) ↔ ∃ t ∈ specs, t.workItemId = d :=
    fun d => List.mem_map
  have hfeeds : ∀ (s : CompanyWorkItemSpecV1) (d : WorkItemId),
      d ∈ s.inputs.map (·.producerWorkItemId) ↔ ∃ i ∈ s.inputs, i.producerWorkItemId = d :=
    fun s d => List.mem_map
  simp only [validateWorkGraph, bind_eq_ok, ensure_eq_ok, checkAll_eq_ok, exists_const]
  constructor
  · rintro ⟨hsize, hvalid, hnodup, hitems, hvisits⟩
    have hitem := fun s hs => validateGraphItem_eq_ok.mp (hitems s hs)
    have hbound := fun s (hs : s ∈ specs) i (hi : i ∈ s.inputs) =>
      (validateGraphInput_iff_bound hnodup hvalid hs hi).mp ((hitem s hs).2.2 i hi)
    have hacyclic := (isSome_visits_iff hnodup fun s hs => (hitem s hs).1).mp hvisits
    exact
      ⟨{ unique := hnodup
         known := fun s hs d hd => (hmem d).mp ((hitem s hs).1 d hd)
         bound := fun s hs i hi => (hbound s hs i hi).1
         acyclic := hacyclic },
       { size := hsize
         valid := hvalid
         produces := fun s hs => (hitem s hs).2.1.1
         used := fun s hs d hd => (hfeeds s d).mp ((hitem s hs).2.1.2 d hd)
         current := fun s hs i hi => (hbound s hs i hi).2 }⟩
  · rintro ⟨hshape, hitems⟩
    have hknown : ∀ s ∈ specs, ∀ d ∈ s.dependencyIds, d ∈ specs.map (·.workItemId) :=
      fun s hs d hd => (hmem d).mpr (hshape.known s hs d hd)
    refine ⟨hitems.size, hitems.valid, hshape.unique, ?_, ?_⟩
    · intro s hs
      apply validateGraphItem_eq_ok.mpr
      refine ⟨hknown s hs, ⟨hitems.produces s hs, ?_⟩, ?_⟩
      · intro d hd
        exact (hfeeds s d).mpr (hitems.used s hs d hd)
      · intro i hi
        apply (validateGraphInput_iff_bound hshape.unique hitems.valid hs hi).mpr
        exact ⟨hshape.bound s hs i hi, hitems.current s hs i hi⟩
    · exact (isSome_visits_iff hshape.unique hknown).mpr hshape.acyclic

def outputlessItem : CompanyWorkItemSpecV1 where
  workItemId := "design"
  title := "Design"
  objective := "Agree on a design"
  requiredRole := .developer
  requiredSpecialties := ["architecture"]
  dependencyIds := []
  owner := 1
  inputs := []
  outputs := []
  qualityGate := ⟨"gate", 1, String.ofList (List.replicate 64 'a')⟩
  budgetMicros := 1
  rework := none

/-- A graph of the right shape is refused for an item without outputs. -/
theorem outputlessItem_refused :
    WellFormedGraph [outputlessItem] ∧ outputlessItem.validate = .ok () ∧
      validateWorkGraph [outputlessItem] =
        .error (invalidInput "work graph contains an unreachable data dependency") := by
  refine ⟨⟨by simp, by simp [outputlessItem], by simp [outputlessItem], ?_⟩, ?_, ?_⟩
  · intro id hcycle
    obtain ⟨b, ⟨s, hs, _, hb⟩, _⟩ := Relation.TransGen.head'_iff.mp hcycle
    obtain rfl := List.mem_singleton.mp hs
    simp [outputlessItem] at hb
  · decide +kernel
  · decide +kernel

end Sentinel.Workflow.Company

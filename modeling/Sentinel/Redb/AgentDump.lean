import Mathlib.Data.Sym.Sym2
import Sentinel.Lib.Keyed

/-! The dump of one agent's rows out of the shared state store (`sentinel-redb`, `lib.rs`). A
setter is one transaction; its inserts and removals are listed in order. A transaction may be
refused by the owner fence, and then writes nothing. -/

namespace Sentinel.Redb
open Lib List

abbrev AgentId := UInt16

abbrev Row := List UInt8

inductive AgentTable
  | agentState | personality | voiceStyle | behavioralNotes | narrativeSummary | nmdaScores
  | agentFacts
  deriving DecidableEq

structure StateStore where
  rows : Keyed (AgentTable × AgentId) Row
  relationships : Keyed UInt32 Row
  evolutionVersion : Keyed AgentId UInt64

def StateStore.empty : StateStore := ⟨Keyed.empty, Keyed.empty, Keyed.empty⟩

def relationshipKey (a b : AgentId) : UInt32 := (min a b).toUInt32 <<< 16 ||| (max a b).toUInt32

inductive Setter
  | setRow (table : AgentTable) (agent : AgentId) (data : Row)
  | setAgentStatesBatch (entries : List (AgentId × Row))
  | deleteAgentState (agent : AgentId)
  | setRelationship (a b : AgentId) (data : Row)
  | incrementEvolutionVersion (agent : AgentId)
  | setEvolutionBatch (agent : AgentId)
      (voiceStyle behavioralNotes narrativeSummary agentFacts : Option Row)

namespace Setter

def setAgentState : AgentId → Row → Setter := setRow .agentState

def setPersonality : AgentId → Row → Setter := setRow .personality

def setVoiceStyle : AgentId → Row → Setter := setRow .voiceStyle

def setBehavioralNotes : AgentId → Row → Setter := setRow .behavioralNotes

def setNarrativeSummary : AgentId → Row → Setter := setRow .narrativeSummary

def setAgentFacts : AgentId → Row → Setter := setRow .agentFacts

def setNmdaScores (agent : AgentId) (json : Row) : Setter := setRow .nmdaScores agent json

def rowWrites : Setter → List ((AgentTable × AgentId) × Option Row)
  | setRow table agent data => [((table, agent), some data)]
  | setAgentStatesBatch entries => entries.map fun e => ((.agentState, e.1), some e.2)
  | deleteAgentState agent => [((.agentState, agent), none)]
  | setRelationship .. => []
  | incrementEvolutionVersion _ => []
  | setEvolutionBatch agent voiceStyle behavioralNotes narrativeSummary agentFacts =>
    (voiceStyle.toList.map fun data => ((.voiceStyle, agent), some data)) ++
      (behavioralNotes.toList.map fun data => ((.behavioralNotes, agent), some data)) ++
      (narrativeSummary.toList.map fun data => ((.narrativeSummary, agent), some data)) ++
      agentFacts.toList.map fun data => ((.agentFacts, agent), some data)

def relationshipWrites : Setter → List ((AgentId × AgentId) × Row)
  | setRelationship a b data => [((a, b), data)]
  | _ => []

def versionBumps : Setter → List AgentId
  | incrementEvolutionVersion agent => [agent]
  | setEvolutionBatch agent .. => [agent]
  | _ => []

end Setter

def relationshipRow (w : (AgentId × AgentId) × Row) : UInt32 × Option Row :=
  (relationshipKey w.1.1 w.1.2, some w.2)

def bumpVersion (t : Keyed AgentId UInt64) (agent : AgentId) : Keyed AgentId UInt64 :=
  Function.update t agent (some ((t agent).getD 0 + 1))

namespace StateStore

def apply (s : StateStore) (setter : Setter) : StateStore where
  rows := s.rows.writeAll setter.rowWrites
  relationships := s.relationships.writeAll (setter.relationshipWrites.map relationshipRow)
  evolutionVersion := setter.versionBumps.foldl bumpVersion s.evolutionVersion

def transact (s : StateStore) (t : Bool × Setter) : StateStore := if t.1 then s.apply t.2 else s

end StateStore

open StateStore

structure NanoContainerRedbRows where
  agentId : AgentId
  agentState : Option Row
  personality : Option Row
  relationships : Option Row
  voiceStyle : Option Row
  behavioralNotes : Option Row
  narrativeSummary : Option Row
  nmdaScores : Option Row
  agentFacts : Option Row
  evolutionVersion : Option UInt64

def dumpAgentTables (s : StateStore) (agent : AgentId) : NanoContainerRedbRows where
  agentId := agent
  agentState := s.rows (.agentState, agent)
  personality := s.rows (.personality, agent)
  relationships := s.relationships agent.toUInt32
  voiceStyle := s.rows (.voiceStyle, agent)
  behavioralNotes := s.rows (.behavioralNotes, agent)
  narrativeSummary := s.rows (.narrativeSummary, agent)
  nmdaScores := s.rows (.nmdaScores, agent)
  agentFacts := s.rows (.agentFacts, agent)
  evolutionVersion := s.evolutionVersion agent

/-! ## What was written -/

def accepted (history : List (Bool × Setter)) : List Setter :=
  (history.filter Prod.fst).map Prod.snd

section History

variable (history : List (Bool × Setter)) (agent : AgentId)

def lastRow (table : AgentTable) : Option Row :=
  (Keyed.lastWrite ((accepted history).flatMap Setter.rowWrites) (table, agent)).getD none

def versions : ℕ := ((accepted history).flatMap Setter.versionBumps).count agent

def relationshipsSet : List ((AgentId × AgentId) × Row) :=
  (accepted history).flatMap Setter.relationshipWrites

def partners : List AgentId :=
  ((relationshipsSet history).filterMap fun w =>
    if w.1.1 = agent then some w.1.2 else if w.1.2 = agent then some w.1.1 else none).dedup

def lastRelationship (pair : Sym2 AgentId) : Option Row :=
  ((relationshipsSet history).reverse.find? fun w => s(w.1.1, w.1.2) = pair).map Prod.snd

structure RowsDumped (d : NanoContainerRedbRows) : Prop where
  agentId : d.agentId = agent
  agentState : d.agentState = lastRow history agent .agentState
  personality : d.personality = lastRow history agent .personality
  voiceStyle : d.voiceStyle = lastRow history agent .voiceStyle
  behavioralNotes : d.behavioralNotes = lastRow history agent .behavioralNotes
  narrativeSummary : d.narrativeSummary = lastRow history agent .narrativeSummary
  nmdaScores : d.nmdaScores = lastRow history agent .nmdaScores
  agentFacts : d.agentFacts = lastRow history agent .agentFacts
  evolutionVersion : d.evolutionVersion =
    if versions history agent = 0 then none else some (UInt64.ofNat (versions history agent))

def RelationshipsDumped (d : NanoContainerRedbRows) : Prop :=
  d.relationships.toList.Perm
    ((partners history agent).filterMap fun other => lastRelationship history s(agent, other))

variable {history agent}

theorem rows_foldl (s : StateStore) (setters : List Setter) :
    (setters.foldl apply s).rows =
      s.rows.writeAll (setters.flatMap Setter.rowWrites) := by
  induction setters generalizing s with
  | nil => rfl
  | cons c setters ih => rw [foldl_cons, ih, flatMap_cons, Keyed.writeAll_append]; rfl

theorem relationships_foldl (s : StateStore) (setters : List Setter) :
    (setters.foldl apply s).relationships =
      s.relationships.writeAll
        ((setters.flatMap Setter.relationshipWrites).map relationshipRow) := by
  induction setters generalizing s with
  | nil => rfl
  | cons c setters ih =>
    rw [foldl_cons, ih, flatMap_cons, map_append, Keyed.writeAll_append]
    rfl

theorem evolutionVersion_foldl (s : StateStore) (setters : List Setter) :
    (setters.foldl apply s).evolutionVersion =
      (setters.flatMap Setter.versionBumps).foldl bumpVersion s.evolutionVersion := by
  induction setters generalizing s with
  | nil => rfl
  | cons c setters ih => rw [foldl_cons, ih, flatMap_cons, foldl_append]; rfl

theorem foldl_transact (s : StateStore) (history : List (Bool × Setter)) :
    history.foldl transact s = (accepted history).foldl apply s := by
  induction history generalizing s with
  | nil => rfl
  | cons t history ih =>
    obtain ⟨granted, setter⟩ := t
    rw [foldl_cons, ih]
    cases granted <;> rfl

theorem relationshipKey_toNat (a b : AgentId) :
    (relationshipKey a b).toNat = (min a b).toNat * 2 ^ 16 + (max a b).toNat := by
  have hmin : (min a b).toNat < 2 ^ 16 := UInt16.toNat_lt _
  have hmax : (max a b).toNat < 2 ^ 16 := UInt16.toNat_lt _
  have hshift : (min a b).toNat <<< 16 % 2 ^ 32 = (min a b).toNat <<< 16 := by
    rw [Nat.shiftLeft_eq]
    omega
  rw [relationshipKey, UInt32.toNat_or, UInt32.toNat_shiftLeft]
  simp only [UInt16.toNat_toUInt32, UInt32.reduceToNat, Nat.reduceMod]
  rw [hshift, ← Nat.shiftLeft_add_eq_or_of_lt hmax, Nat.shiftLeft_eq]

theorem relationshipKey_eq_iff {a b c d : AgentId} :
    relationshipKey a b = relationshipKey c d ↔ s(a, b) = s(c, d) := by
  have hlt : ∀ x : AgentId, x.toNat < 2 ^ 16 := UInt16.toNat_lt
  rw [← UInt32.toNat_inj, relationshipKey_toNat, relationshipKey_toNat, Sym2.eq_iff,
    ← UInt16.toNat_inj, ← UInt16.toNat_inj, ← UInt16.toNat_inj, ← UInt16.toNat_inj]
  have hmin : ∀ x y : AgentId, (min x y).toNat = min x.toNat y.toNat := by
    intro x y
    show (if x ≤ y then x else y).toNat = if x.toNat ≤ y.toNat then x.toNat else y.toNat
    rw [apply_ite UInt16.toNat]
    rfl
  have hmax : ∀ x y : AgentId, (max x y).toNat = max x.toNat y.toNat := by
    intro x y
    show (if x ≤ y then y else x).toNat = if x.toNat ≤ y.toNat then y.toNat else x.toNat
    rw [apply_ite UInt16.toNat]
    rfl
  rw [hmin, hmin, hmax, hmax]
  have := hlt a
  have := hlt b
  have := hlt c
  have := hlt d
  omega

theorem relationshipKey_zero (agent : AgentId) : relationshipKey 0 agent = agent.toUInt32 := by
  have hle : (0 : AgentId) ≤ agent := UInt16.zero_le
  have hmin : min 0 agent = 0 := if_pos hle
  have hmax : max 0 agent = agent := if_pos hle
  rw [← UInt32.toNat_inj, relationshipKey_toNat, hmin, hmax, UInt16.toNat_toUInt32]
  simp

/-! ## What the dump has of it -/

theorem relationships_final (history : List (Bool × Setter)) (a b : AgentId) :
    (history.foldl transact .empty).relationships (relationshipKey a b) =
      lastRelationship history s(a, b) := by
  have hkeys : ∀ w : (AgentId × AgentId) × Row,
      (relationshipRow w).1 = relationshipKey a b ↔ s(w.1.1, w.1.2) = s(a, b) :=
    fun w => relationshipKey_eq_iff
  rw [foldl_transact, relationships_foldl, Keyed.writeAll_apply, lastRelationship, Keyed.lastWrite,
    ← map_reverse, find?_map]
  simp only [Function.comp_def, hkeys]
  show (Option.map Prod.snd (Option.map relationshipRow
    ((relationshipsSet history).reverse.find? _))).getD none = _
  cases (relationshipsSet history).reverse.find? fun w => s(w.1.1, w.1.2) = s(a, b) <;> rfl

theorem relationships_dumpAgentTables (history : List (Bool × Setter)) (agent : AgentId) :
    (dumpAgentTables (history.foldl transact .empty) agent).relationships =
      lastRelationship history s(0, agent) := by
  rw [← relationships_final, relationshipKey_zero]
  rfl

theorem mem_partners {other : AgentId} :
    other ∈ partners history agent ↔
      ∃ w ∈ relationshipsSet history, s(w.1.1, w.1.2) = s(agent, other) := by
  simp only [partners, mem_dedup, mem_filterMap]
  refine exists_congr fun w => and_congr_right fun _ => ?_
  rw [Sym2.eq_iff]
  split_ifs with hfirst hsecond <;> simp_all [eq_comm]

theorem lastRelationship_isSome {other : AgentId} :
    (lastRelationship history s(agent, other)).isSome ↔ other ∈ partners history agent := by
  rw [mem_partners, lastRelationship, Option.isSome_map, find?_isSome]
  simp

theorem version_foldl (t : Keyed AgentId UInt64) (bumps : List AgentId) :
    bumps.foldl bumpVersion t agent =
      if bumps.count agent = 0 then t agent
      else some ((t agent).getD 0 + UInt64.ofNat (bumps.count agent)) := by
  induction bumps using List.reverseRecOn with
  | nil => rfl
  | append_singleton bumps b ih =>
    rw [foldl_append, foldl_cons, foldl_nil, count_append, bumpVersion]
    by_cases hb : b = agent
    · rw [hb, Function.update_self, ih, count_singleton_self, if_neg (Nat.succ_ne_zero _)]
      by_cases hzero : bumps.count agent = 0
      · rw [if_pos hzero, hzero]
        rfl
      · rw [if_neg hzero, Option.getD_some, UInt64.ofNat_add, ← UInt64.add_assoc]
        rfl
    · have hcount : [b].count agent = 0 := by simpa [count_singleton] using hb
      rw [Function.update_of_ne (Ne.symm hb), ih, hcount, Nat.add_zero]

theorem rowsDumped (history : List (Bool × Setter)) (agent : AgentId) :
    RowsDumped history agent
      (dumpAgentTables (history.foldl transact .empty) agent) := by
  have hrow : ∀ table, (history.foldl transact .empty).rows (table, agent) =
      lastRow history agent table := by
    intro table
    rw [foldl_transact, rows_foldl, Keyed.writeAll_apply]
    rfl
  refine ⟨rfl, hrow _, hrow _, hrow _, hrow _, hrow _, hrow _, hrow _, ?_⟩
  show (history.foldl transact .empty).evolutionVersion agent = _
  rw [foldl_transact, evolutionVersion_foldl, version_foldl]
  simp only [versions, empty, Keyed.empty, Option.getD_none, UInt64.zero_add]
  rfl

/-- The dump of an agent has the last value of each of its rows and no relationship of another
pair; it has all of the agent's relationships exactly when they are all with agent 0, the one
agent whose pairs have the other agent's number as their key. -/
theorem agent_dump_law (history : List (Bool × Setter)) (agent : AgentId) :
    let dump := dumpAgentTables (history.foldl transact .empty) agent
    RowsDumped history agent dump ∧
      (∀ data ∈ dump.relationships, ∃ other, lastRelationship history s(agent, other) = some data) ∧
      (RelationshipsDumped history agent dump ↔ ∀ other ∈ partners history agent, other = 0) := by
  have hdump := relationships_dumpAgentTables history agent
  rw [Sym2.eq_swap] at hdump
  refine ⟨rowsDumped history agent, fun data hdata => ⟨0, hdump ▸ hdata⟩, ?_⟩
  have hnodup : (partners history agent).Nodup := nodup_dedup _
  rw [RelationshipsDumped, hdump]
  constructor
  · -- the dump has room for one value: a partner is the only one, and its value is in the dump
    intro hperm other hother
    have hlength : (partners history agent).length = 1 := by
      have hall : ((partners history agent).filterMap
          fun other => lastRelationship history s(agent, other)).length =
            (partners history agent).length := by
        rw [length_filterMap_eq_countP, countP_eq_length]
        exact fun x hx => lastRelationship_isSome.2 hx
      have hpos : 0 < (partners history agent).length := length_pos_of_mem hother
      have hle : (lastRelationship history s(agent, 0)).toList.length ≤ 1 := by
        cases lastRelationship history s(agent, 0) <;> simp
      rw [hperm.length_eq, hall] at hle
      omega
    obtain ⟨data, hdata⟩ := Option.isSome_iff_exists.1 (lastRelationship_isSome.2 hother)
    have hmem : data ∈ (lastRelationship history s(agent, 0)).toList :=
      hperm.mem_iff.2 (mem_filterMap.2 ⟨other, hother, hdata⟩)
    have hzero : (0 : AgentId) ∈ partners history agent :=
      lastRelationship_isSome.1 (Option.isSome_of_mem (Option.mem_toList.1 hmem))
    obtain ⟨x, hx⟩ := length_eq_one_iff.1 hlength
    rw [hx, mem_singleton] at hother hzero
    exact hother.trans hzero.symm
  · intro hall
    by_cases hzero : (0 : AgentId) ∈ partners history agent
    · have honly : partners history agent = [0] := by
        refine perm_singleton.1 ((perm_ext_iff_of_nodup hnodup
          (nodup_singleton 0)).2 fun x => ⟨fun hx => ?_, fun hx => ?_⟩)
        · exact mem_singleton.2 (hall x hx)
        · exact mem_singleton.1 hx ▸ hzero
      rw [honly, filterMap_cons, filterMap_nil]
      cases lastRelationship history s(agent, 0) <;> exact List.Perm.refl _
    · have hnone : partners history agent = [] :=
        eq_nil_iff_forall_not_mem.2 fun x hx => hzero (hall x hx ▸ hx)
      have hunset : lastRelationship history s(agent, 0) = none := by
        rw [← Option.not_isSome_iff_eq_none, lastRelationship_isSome]
        exact hzero
      rw [hnone, hunset]
      rfl

end History

theorem other_partner_not_dumped :
    ¬ RelationshipsDumped [(true, .setRelationship 1 2 [7])] 1
      (dumpAgentTables
        ([(true, .setRelationship 1 2 [7])].foldl transact .empty) 1) := by
  unfold RelationshipsDumped
  decide

end Sentinel.Redb

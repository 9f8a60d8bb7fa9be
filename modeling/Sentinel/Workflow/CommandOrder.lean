import Sentinel.Workflow.CostLedger

/-! The commands of a project form one line: each accepted one was decided on the version that the
one before it left, so that no two of them rest on the same version, and none is applied twice. -/

namespace Sentinel.Workflow.Company
open Lib List

variable {p q : ProjectV1} {r : CompanyRequest} {actor : AgentId}

theorem Changes.version_eq [CompanyIds] (h : Changes p r actor q) : q.version = p.version := by
  cases h with
  | reserved id provider amount q hcommand h =>
    obtain ⟨-, rfl | rfl⟩ := reserveCost_eq_ok h
    all_goals rfl
  | settled id f reserved committed c q hcommand h =>
    obtain ⟨ref, hresolve⟩ := h.resolved
    rcases resolveBudgetBlockersIfHeadroom_eq_ok hresolve with ⟨-, rfl⟩ | ⟨-, rfl⟩
    all_goals rfl
  | _ => rfl

def operation (r : CompanyRequest) : String × Uuid128 :=
  (authorityNamespace r.principal, r.operationId)

/-- What an accepted request does to the version, the clock and the operations. -/
structure Advances (s : ProjectStore) (r : CompanyRequest) (t : ProjectStore) : Prop where
  expected : r.expectedVersion = s.project.version
  version : t.project.version = s.project.version + 1
  time : s.project.updatedAt ≤ r.now
  updatedAt : t.project.updatedAt = r.now
  new : operation r ∉ s.operations
  operations : t.operations = operation r :: s.operations

theorem call_advances [CompanyIds] (s : ProjectStore) (r : CompanyRequest) :
    (machine.call s r).2 ≠ .accepted ∧ (machine.call s r).1 = s ∨
      (machine.call s r).2 = .accepted ∧ Advances s r (machine.call s r).1 := by
  simp only [machine]
  split
  case isTrue =>
    refine .inl ⟨fun h => ?_, rfl⟩
    cases h
  case isFalse hnew =>
    split
    case h_1 next hnext =>
      obtain ⟨actor, q, hpass, rfl, -⟩ := applyCompanyCommand_eq_ok hnext
      have hversion := (branch_changes hpass.branch_eq).version_eq
      refine .inr ⟨rfl, ?_, congrArg (· + 1) hversion, hpass.time, rfl, hnew, rfl⟩
      simp only [applyCompanyCommand, bind_eq_ok, ensure_eq_ok] at hnext
      obtain ⟨_, -, _, -, _, -, _, -, _, hexpected, -⟩ := hnext
      exact hexpected.symm
    case h_2 e _ =>
      refine .inl ⟨fun h => ?_, rfl⟩
      cases h

def acceptedRequests (trace : List (CompanyRequest × CompanyAnswer)) : List CompanyRequest :=
  (trace.filter (·.2 = .accepted)).map Prod.fst

theorem acceptedRequests_concat (trace : List (CompanyRequest × CompanyAnswer))
    (r : CompanyRequest) (answer : CompanyAnswer) :
    acceptedRequests (trace ++ [(r, answer)]) =
      if answer = .accepted then acceptedRequests trace ++ [r] else acceptedRequests trace := by
  unfold acceptedRequests
  split_ifs with h <;> simp [h]

/-- From `s` to `t` by the requests `done`: they name one version after the other and their times
do not go back, each operation is a new one, and `t` has the time of the last of them. -/
structure Serialized (s : ProjectStore) (done : List CompanyRequest) (t : ProjectStore) :
    Prop where
  expected : done.map (·.expectedVersion) = List.range' s.project.version done.length
  version : t.project.version = s.project.version + done.length
  times : (s.project.updatedAt :: done.map (·.now)).Pairwise (· ≤ ·)
  updatedAt : (s.project.updatedAt :: done.map (·.now)).getLast? = some t.project.updatedAt
  new : (done.map operation).Nodup ∧ ∀ r ∈ done, operation r ∉ s.operations
  operations : t.operations = (done.map operation).reverse ++ s.operations

theorem Serialized.advance {s t u : ProjectStore} {done : List CompanyRequest}
    (h : Serialized s done t) (hr : Advances t r u) : Serialized s (done ++ [r]) u := by
  have hnow : ∀ time ∈ s.project.updatedAt :: done.map (·.now), time ≤ r.now := by
    intro time hmem
    obtain ⟨earlier, hlast⟩ := getLast?_eq_some_iff.1 h.updatedAt
    have htimes := h.times
    rw [hlast] at htimes hmem
    rcases mem_append.1 hmem with hmem | hmem
    · exact ((pairwise_append.1 htimes).2.2 time hmem _ (mem_singleton_self _)).trans
        hr.time
    · exact mem_singleton.1 hmem ▸ hr.time
  have hnew := hr.new
  rw [h.operations, mem_append, mem_reverse, not_or] at hnew
  refine ⟨?_, ?_, ?_, ?_, ⟨?_, ?_⟩, ?_⟩
  · rw [map_append, h.expected, length_append, length_singleton,
      range'_1_concat, map_singleton, hr.expected, h.version]
  · rw [hr.version, h.version, length_append, length_singleton, Nat.add_assoc]
  · rw [map_append, ← cons_append, pairwise_append]
    refine ⟨h.times, pairwise_singleton _ _, fun time hmem last hlast => ?_⟩
    obtain rfl := mem_singleton.1 hlast
    exact hnow time hmem
  · rw [map_append, ← cons_append, map_singleton, getLast?_concat,
      hr.updatedAt]
  · rw [map_append]
    exact nodup_append'.2 ⟨h.new.1, nodup_singleton _,
      disjoint_singleton.2 hnew.1⟩
  · rw [forall_mem_append]
    exact ⟨h.new.2, forall_mem_singleton.2 hnew.2⟩
  · rw [hr.operations, h.operations, map_append, reverse_append]
    rfl

/-- **Commands are serialized.** In every run, whatever is asked for, refused or asked for again,
the accepted requests were each decided on the version the one before left, so that none overwrites
what it has not seen; no operation is accepted twice, nor one of before the run. -/
theorem commands_serialized [CompanyIds] (s : ProjectStore) (calls : List CompanyRequest) :
    Serialized s (acceptedRequests (machine.trace s calls)) (machine.final s calls) := by
  refine machine.final_trace (I := fun past t => Serialized s (acceptedRequests past) t) ?_ ?_ calls
  · intro past t r h
    rw [acceptedRequests_concat]
    rcases call_advances t r with ⟨hrefused, heq⟩ | ⟨haccepted, hadvances⟩
    · rw [if_neg hrefused, heq]
      exact h
    · rw [if_pos haccepted]
      exact h.advance hadvances
  · exact ⟨rfl, rfl, pairwise_singleton _ _, rfl,
      ⟨nodup_nil, fun _ hmem => absurd hmem not_mem_nil⟩, rfl⟩

end Sentinel.Workflow.Company

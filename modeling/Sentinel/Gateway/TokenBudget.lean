import Mathlib.Algebra.Order.BigOperators.Group.List
import Mathlib.Algebra.Order.Group.Int
import Mathlib.Algebra.Ring.Int.Defs
import Sentinel.Gateway.Pipeline

/-! The token budget of the gateway (`cortex-gateway`, `guardrails/budget.go`) over sequences of
requests. The handler records the tokens of a request in one place, after its main call; the
calls that judge or regenerate a reply, and a main call whose reply comes too late, are made and
paid beside it. -/

namespace Sentinel.Gateway.Pipeline
open List

section Tracker

/-- Times are in nanoseconds; a limit of 0 means none. -/
structure BudgetTracker where
  hourlyLimit : Int64
  dailyLimit : Int64
  hourlyUsed : Int64
  dailyUsed : Int64
  hourlyReset : ℤ
  dailyReset : ℤ

def hour : ℤ := 3600 * 10 ^ 9

/-- `Truncate(time.Hour).Add(time.Hour)`. -/
def hourEnd (now : ℤ) : ℤ := now / hour * hour + hour

namespace BudgetTracker

/-- `nextMidnight` is that of the local time zone. -/
def maybeReset (nextMidnight : ℤ → ℤ) (bt : BudgetTracker) (now : ℤ) : BudgetTracker :=
  let bt := if bt.hourlyReset ≤ now then
      { bt with hourlyUsed := 0, hourlyReset := hourEnd now } else bt
  if bt.dailyReset ≤ now then { bt with dailyUsed := 0, dailyReset := nextMidnight now } else bt

def allow (nextMidnight : ℤ → ℤ) (bt : BudgetTracker) (now : ℤ) (estimatedTokens : Int64) :
    BudgetTracker × Bool :=
  let bt := bt.maybeReset nextMidnight now
  (bt, ¬ (0 < bt.hourlyLimit ∧ bt.hourlyLimit < bt.hourlyUsed + estimatedTokens) ∧
    ¬ (0 < bt.dailyLimit ∧ bt.dailyLimit < bt.dailyUsed + estimatedTokens))

/-- Both the total and the counters wrap around. -/
def record (nextMidnight : ℤ → ℤ) (bt : BudgetTracker) (now : ℤ) (input output : Int64) :
    BudgetTracker :=
  let bt := bt.maybeReset nextMidnight now
  let total := input + output
  { bt with hourlyUsed := bt.hourlyUsed + total, dailyUsed := bt.dailyUsed + total }

def perform (nextMidnight : ℤ → ℤ) (bt : BudgetTracker) : ℤ × Effect → BudgetTracker
  | (now, .check _ maxTokens false) => (bt.allow nextMidnight now maxTokens).1
  | (now, .recordTokens input output) => bt.record nextMidnight now input output
  | (now, .budgetStatus) => bt.maybeReset nextMidnight now
  | _ => bt

end BudgetTracker

/-- A counter that starts again from zero when it is touched after the end of its window. -/
structure WindowCounter (T : Type) where
  used : T
  ends : ℤ

def WindowCounter.touch {T : Type} [Add T] (windowEnd : ℤ → ℤ) (c : WindowCounter T)
    (touched : ℤ × T) : WindowCounter T :=
  if c.ends ≤ touched.1 then ⟨touched.2, windowEnd touched.1⟩
  else ⟨c.used + touched.2, c.ends⟩

def touches (effects : List (ℤ × Effect)) : List (ℤ × Int64) :=
  effects.filterMap fun
    | (now, .check _ _ false) | (now, .budgetStatus) => some (now, 0)
    | (now, .recordTokens input output) => some (now, input + output)
    | _ => none

theorem perform_counters (nextMidnight : ℤ → ℤ) (bt : BudgetTracker)
    (effects : List (ℤ × Effect)) :
    let final := effects.foldl (BudgetTracker.perform nextMidnight) bt
    (⟨final.hourlyUsed, final.hourlyReset⟩ : WindowCounter Int64) =
        (touches effects).foldl (.touch hourEnd) ⟨bt.hourlyUsed, bt.hourlyReset⟩ ∧
      (⟨final.dailyUsed, final.dailyReset⟩ : WindowCounter Int64) =
        (touches effects).foldl (.touch nextMidnight) ⟨bt.dailyUsed, bt.dailyReset⟩ := by
  induction effects generalizing bt with
  | nil => exact ⟨rfl, rfl⟩
  | cons timed effects ih =>
    obtain ⟨now, e⟩ := timed
    have htail := ih (bt.perform nextMidnight (now, e))
    have hadd : ∀ tokens : Int64,
        (⟨(bt.maybeReset nextMidnight now).hourlyUsed + tokens,
            (bt.maybeReset nextMidnight now).hourlyReset⟩ : WindowCounter Int64) =
          .touch hourEnd ⟨bt.hourlyUsed, bt.hourlyReset⟩ (now, tokens) ∧
        (⟨(bt.maybeReset nextMidnight now).dailyUsed + tokens,
            (bt.maybeReset nextMidnight now).dailyReset⟩ : WindowCounter Int64) =
          .touch nextMidnight ⟨bt.dailyUsed, bt.dailyReset⟩ (now, tokens) := by
      intro tokens
      by_cases hhour : bt.hourlyReset ≤ now <;> by_cases hday : bt.dailyReset ≤ now <;>
        simp [BudgetTracker.maybeReset, WindowCounter.touch, hhour, hday]
    have hreset := hadd 0
    rw [Int64.add_zero, Int64.add_zero] at hreset
    obtain ⟨hhour, hday⟩ := hreset
    cases e with
    | recordTokens input output =>
      obtain ⟨hhour, hday⟩ := hadd (input + output)
      simp only [touches, filterMap_cons, foldl_cons, ← hhour, ← hday]
      exact htail
    | budgetStatus =>
      simp only [touches, filterMap_cons, foldl_cons, ← hhour, ← hday]
      exact htail
    | check agentId maxTokens rateLimited =>
      cases rateLimited with
      | true => exact htail
      | false =>
        simp only [touches, filterMap_cons, foldl_cons, ← hhour, ← hday]
        exact htail
    | _ => exact htail

theorem toInt_add_of_lt {a b : Int64} (ha : 0 ≤ a.toInt) (hb : 0 ≤ b.toInt)
    (hlt : a.toInt + b.toInt < 2 ^ 63) : (a + b).toInt = a.toInt + b.toInt := by
  rw [Int64.toInt_add]
  exact Int.bmod_eq_of_le (by omega) (by omega)

/-- A counter into which less than `2 ^ 63` tokens go does not wrap around. -/
theorem toInt_foldl_touch (windowEnd : ℤ → ℤ) {touched : List (ℤ × Int64)}
    (htouched : ∀ t ∈ touched, 0 ≤ t.2.toInt) {used : Int64} (hused : 0 ≤ used.toInt) (ends : ℤ)
    (hlt : used.toInt + (touched.map fun t => t.2.toInt).sum < 2 ^ 63) :
    let final : WindowCounter Int64 := touched.foldl (.touch windowEnd) ⟨used, ends⟩
    (⟨final.used.toInt, final.ends⟩ : WindowCounter ℤ) =
      (touched.map fun t => (t.1, t.2.toInt)).foldl (.touch windowEnd) ⟨used.toInt, ends⟩ := by
  induction touched generalizing used ends with
  | nil => rfl
  | cons t touched ih =>
    obtain ⟨ht, hrest⟩ := forall_mem_cons.1 htouched
    have hsum : 0 ≤ (touched.map fun t => t.2.toInt).sum :=
      sum_nonneg (forall_mem_map.2 hrest)
    simp only [map_cons, sum_cons] at hlt
    simp only [foldl_cons, map_cons, WindowCounter.touch]
    by_cases hends : ends ≤ t.1
    · rw [if_pos hends, if_pos hends]
      exact ih hrest ht _ (by omega)
    · have hadd := toInt_add_of_lt hused ht (by omega)
      rw [if_neg hends, if_neg hends, ← hadd]
      exact ih hrest (by omega) _ (by omega)

end Tracker

section Accounting

structure Visit where
  snap : Snapshot
  req : Request
  outcomes : Outcomes
  time : ℕ → ℤ
  plain : req.streaming = false

def Visit.effects (g : PipelineHandler) (v : Visit) : List (ℤ × Effect) :=
  (serveHTTP g v.snap v.req v.outcomes).mapIdx fun i e => (v.time i, e)

def spentTokens : Effect → ℤ
  | .send _ _ (.ok reply) => reply.inputTokens.toInt + reply.outputTokens.toInt
  | _ => 0

def NonNegative : Effect → Prop
  | .send _ _ (.ok reply) => 0 ≤ reply.inputTokens.toInt ∧ 0 ≤ reply.outputTokens.toInt
  | _ => True

instance : DecidablePred NonNegative := by
  intro e
  unfold NonNegative
  split <;> infer_instance

def IsMainCall : Effect → Prop
  | .send _ .main _ => True
  | _ => False

instance : DecidablePred IsMainCall
  | .send _ .main _ => isTrue trivial
  | .send _ .judge _ | .send _ .personality _ | .send _ .quality _ | .send _ .fourthWall _ =>
    isFalse id
  | .allow .. | .record .. | .check .. | .recordTokens .. | .budgetStatus | .stream ..
  | .markP1Active ..
  | .hasActiveP1 .. | .findP1 .. | .awaitP1 .. | .completeP1 .. => isFalse id

def Visit.Charged (g : PipelineHandler) (v : Visit) : Prop :=
  ∀ e ∈ serveHTTP g v.snap v.req v.outcomes, spentTokens e ≠ 0 → IsMainCall e ∧ v.outcomes.fresh

variable {g : PipelineHandler} {snap : Snapshot} {req : Request} {o : Outcomes} {provider : String}

def chargedTokens (fresh : Bool) (e : Effect) : ℤ :=
  if IsMainCall e ∧ fresh then spentTokens e else 0

def addedTokens : Effect → ℤ
  | .recordTokens input output => (input + output).toInt
  | _ => 0

theorem spentTokens_nonneg {e : Effect} (h : NonNegative e) : 0 ≤ spentTokens e := by
  unfold spentTokens
  split
  · exact Int.add_nonneg h.1 h.2
  · exact le_rfl

def Balanced (fresh : Bool) (effects : List Effect) : Prop :=
  (effects.map addedTokens).sum = (effects.map (chargedTokens fresh)).sum ∧
    ∀ e ∈ effects, 0 ≤ addedTokens e

theorem balanced_nil (fresh : Bool) : Balanced fresh [] := by simp [Balanced]

theorem Balanced.append {fresh : Bool} {a b : List Effect} (ha : Balanced fresh a)
    (hb : Balanced fresh b) : Balanced fresh (a ++ b) := by
  refine ⟨?_, forall_mem_append.2 ⟨ha.2, hb.2⟩⟩
  rw [map_append, map_append, sum_append, sum_append, ha.1, hb.1]

theorem balanced_of_forall {fresh : Bool} {effects : List Effect}
    (h : ∀ e ∈ effects, addedTokens e = 0 ∧ ¬ IsMainCall e) : Balanced fresh effects := by
  have hadded : effects.map addedTokens = effects.map fun _ => 0 :=
    map_congr_left fun e he => (h e he).1
  have hcharged : effects.map (chargedTokens fresh) = effects.map fun _ => 0 := by
    refine map_congr_left fun e he => ?_
    simp [chargedTokens, (h e he).2]
  exact ⟨by rw [hadded, hcharged], fun e he => (h e he).1.ge⟩

theorem balanced_of_sideCalls {fresh : Bool} {effects : List Effect}
    (h : ∀ e ∈ effects, IsSideCall provider e) : Balanced fresh effects := by
  refine balanced_of_forall fun e he => ?_
  obtain ⟨purpose, result, hpurpose, rfl⟩ := h e he
  cases purpose with
  | main => exact absurd rfl hpurpose
  | judge | personality | quality | fourthWall => exact ⟨rfl, id⟩

/-- The sum of the counts of every call is itself a 64-bit number. -/
def Fits (effects : List Effect) : Prop :=
  ∀ e ∈ effects, NonNegative e ∧ spentTokens e < 2 ^ 63

theorem Forwarded.balanced (hg : g.guardrails) {name : String} {effects : List Effect}
    (h : Forwarded g snap req o name provider effects) (hfits : Fits effects) :
    Balanced o.fresh effects := by
  cases h with
  | stopped => exact balanced_nil _
  | streamed => exact balanced_of_forall (by simp [addedTokens, IsMainCall])
  | failed failure => simp [Balanced, addedTokens, chargedTokens, spentTokens]
  | stale reply hstale => simp [Balanced, addedTokens, chargedTokens, hstale]
  | delivered reply hfresh =>
    have hcomplete : Balanced o.fresh (completion g snap req o provider reply) := by
      refine balanced_of_forall fun e he => ?_
      unfold completion at he
      split at he
      · cases he
      · split at he
        · rw [mem_singleton.1 he]
          exact ⟨rfl, id⟩
        · cases he
    obtain ⟨hcounts, hlt⟩ := hfits _ mem_cons_self
    have hadd : (reply.inputTokens + reply.outputTokens).toInt =
        reply.inputTokens.toInt + reply.outputTokens.toInt :=
      toInt_add_of_lt hcounts.1 hcounts.2 hlt
    have hmain : Balanced o.fresh [.send provider .main (.ok reply), .record name none,
        .recordTokens reply.inputTokens reply.outputTokens, .budgetStatus] := by
      have hnonneg := spentTokens_nonneg hcounts
      simpa [Balanced, addedTokens, chargedTokens, spentTokens, IsMainCall, hfresh, hadd,
        -Int64.toInt_add] using hnonneg
    rw [recordUsage, if_pos hg]
    exact hmain.append ((balanced_of_sideCalls (isSideCall_guardStage _)).append hcomplete)

theorem Path.balanced (hg : g.guardrails) {name : String} {effects : List Effect}
    (h : Path g snap req o name effects) (hfits : Fits effects) : Balanced o.fresh effects := by
  have hconsult : ∀ name, Balanced o.fresh (consultation g req name) := by
    intro name
    unfold consultation
    split
    · exact balanced_of_forall (by simp [addedTokens, IsMainCall])
    · exact balanced_nil _
  have hcheck : ∀ name, Balanced o.fresh (applyGuardrails g snap req o name).1 := by
    intro name
    unfold applyGuardrails
    split
    · exact balanced_nil _
    · exact balanced_of_forall (by simp [addedTokens, IsMainCall])
  have hsynthesis : ∀ provider, Balanced o.fresh (synthesisStage g snap req o provider).1 :=
    fun provider => balanced_of_sideCalls isSideCall_synthesisStage
  have hsequencing : Balanced o.fresh (sequencingStage g snap req o).1 := by
    refine balanced_of_forall fun e he => ?_
    have hkind := isSequencing_sequencingStage e he
    cases e with
    | markP1Active | hasActiveP1 | findP1 | awaitP1 => exact ⟨rfl, id⟩
    | _ => exact hkind.elim
  cases h with
  | broken => exact balanced_of_forall (by simp [addedTokens, IsMainCall])
  | rejected => exact (hconsult name).append (hcheck name)
  | answered provider =>
    exact ((hconsult name).append (hcheck name)).append (hsynthesis provider)
  | dropped provider =>
    exact (((hconsult name).append (hcheck name)).append (hsynthesis provider)).append hsequencing
  | forwarded provider =>
    refine ((((hconsult name).append (hcheck name)).append (hsynthesis provider)).append
      hsequencing).append ((forwarded_forward name provider).balanced hg fun e he => ?_)
    exact hfits e (mem_append_right _ he)

theorem sum_touches (effects : List (ℤ × Effect)) :
    ((touches effects).map fun t => t.2.toInt).sum =
      (effects.map fun e => addedTokens e.2).sum := by
  induction effects with
  | nil => rfl
  | cons timed effects ih =>
    obtain ⟨now, e⟩ := timed
    rw [map_cons, sum_cons, ← ih]
    cases e with
    | check agentId maxTokens rateLimited => cases rateLimited <;> simp [touches, addedTokens]
    | recordTokens input output => simp [touches, addedTokens]
    | _ => simp [touches, addedTokens]

theorem Visit.map_effects (g : PipelineHandler) (v : Visit) (f : Effect → ℤ) :
    (v.effects g).map (fun e => f e.2) = (serveHTTP g v.snap v.req v.outcomes).map f := by
  rw [Visit.effects, mapIdx_eq_zipIdx_map, map_map]
  conv_rhs => rw [← zipIdx_map_fst 0 (serveHTTP g v.snap v.req v.outcomes), map_map]
  rfl

theorem sum_effects (g : PipelineHandler) (visits : List Visit) (f : Effect → ℤ) :
    ((visits.flatMap (Visit.effects g)).map fun e => f e.2).sum =
      (visits.map fun v => ((v.effects g).map fun e => f e.2).sum).sum := by
  simp [List.flatMap, sum_flatten, Function.comp_def]

theorem sum_le_and_eq_iff {α : Type} {f g : α → ℤ} {rows : List α} (h : ∀ a ∈ rows, f a ≤ g a) :
    (rows.map f).sum ≤ (rows.map g).sum ∧
      ((rows.map f).sum = (rows.map g).sum ↔ ∀ a ∈ rows, f a = g a) := by
  induction rows with
  | nil => simp
  | cons a rows ih =>
    obtain ⟨ha, hrows⟩ := forall_mem_cons.1 h
    obtain ⟨hle, hiff⟩ := ih hrows
    simp only [map_cons, sum_cons, forall_mem_cons, ← hiff]
    constructor <;> omega

def Visit.added (g : PipelineHandler) (v : Visit) : ℤ :=
  ((v.effects g).map fun e => addedTokens e.2).sum

def Visit.spent (g : PipelineHandler) (v : Visit) : ℤ :=
  ((v.effects g).map fun e => spentTokens e.2).sum

theorem Visit.balanced (hg : g.guardrails) (v : Visit)
    (hfits : Fits (serveHTTP g v.snap v.req v.outcomes)) :
    Balanced v.outcomes.fresh (serveHTTP g v.snap v.req v.outcomes) := by
  rcases path_serveHTTP g v.snap v.req v.outcomes with hnil | ⟨name, -, hpath⟩
  · rw [hnil]
    exact balanced_nil _
  · exact hpath.balanced hg hfits

theorem Visit.added_le_spent (hg : g.guardrails) (v : Visit)
    (hfits : Fits (serveHTTP g v.snap v.req v.outcomes)) :
    v.added g ≤ v.spent g ∧ (v.added g = v.spent g ↔ v.Charged g) := by
  rw [Visit.added, v.map_effects, (v.balanced hg hfits).1, Visit.spent, v.map_effects]
  have hle : ∀ e ∈ serveHTTP g v.snap v.req v.outcomes,
      chargedTokens v.outcomes.fresh e ≤ spentTokens e := by
    intro e he
    unfold chargedTokens
    split
    · exact le_rfl
    · exact spentTokens_nonneg (hfits e he).1
  obtain ⟨hsum, hiff⟩ := sum_le_and_eq_iff hle
  refine ⟨hsum, hiff.trans (forall₂_congr fun e _ => ?_)⟩
  unfold chargedTokens
  by_cases hcharged : IsMainCall e ∧ v.outcomes.fresh = true
  · simp [hcharged]
  · rw [if_neg hcharged]
    exact ⟨fun hzero hne => absurd hzero.symm hne, fun himp => by_contra fun hne =>
      hcharged (himp fun hzero => hne hzero.symm)⟩

/-- The calls report no negative counts, and with what the counters hold at the start these sum up
to a 64-bit number. -/
structure Measured (g : PipelineHandler) (bt : BudgetTracker) (visits : List Visit) : Prop where
  counts : ∀ v ∈ visits, ∀ e ∈ serveHTTP g v.snap v.req v.outcomes, NonNegative e
  hourly : 0 ≤ bt.hourlyUsed.toInt ∧
    bt.hourlyUsed.toInt + (visits.map (Visit.spent g)).sum < 2 ^ 63
  daily : 0 ≤ bt.dailyUsed.toInt ∧ bt.dailyUsed.toInt + (visits.map (Visit.spent g)).sum < 2 ^ 63

theorem le_sum_of_mem {α : Type} {f : α → ℤ} {rows : List α} (h : ∀ a ∈ rows, 0 ≤ f a) {a : α}
    (ha : a ∈ rows) : f a ≤ (rows.map f).sum :=
  single_le_sum (by simpa using h) _ (mem_map_of_mem ha)

theorem Visit.spent_eq (g : PipelineHandler) (v : Visit) :
    v.spent g = ((serveHTTP g v.snap v.req v.outcomes).map spentTokens).sum := by
  rw [Visit.spent, v.map_effects]

variable {bt : BudgetTracker} {visits : List Visit}

theorem Measured.spent_nonneg (h : Measured g bt visits) {v : Visit} (hv : v ∈ visits) :
    0 ≤ v.spent g := by
  rw [v.spent_eq]
  refine sum_nonneg fun tokens htokens => ?_
  obtain ⟨e, he, rfl⟩ := mem_map.1 htokens
  exact spentTokens_nonneg (h.counts v hv e he)

theorem Measured.fits (h : Measured g bt visits) {v : Visit} (hv : v ∈ visits) :
    Fits (serveHTTP g v.snap v.req v.outcomes) := by
  intro e he
  have hcall : spentTokens e ≤ v.spent g := by
    rw [v.spent_eq]
    exact le_sum_of_mem (fun e he => spentTokens_nonneg (h.counts v hv e he)) he
  have hvisit : v.spent g ≤ (visits.map (Visit.spent g)).sum :=
    le_sum_of_mem (fun v hv => h.spent_nonneg hv) hv
  have htotal := h.hourly
  exact ⟨h.counts v hv e he, by omega⟩

theorem Measured.touches_nonneg (hg : g.guardrails) (h : Measured g bt visits) :
    ∀ t ∈ touches (visits.flatMap (Visit.effects g)), 0 ≤ t.2.toInt := by
  intro t ht
  obtain ⟨⟨now, e⟩, htimed, htouch⟩ := mem_filterMap.1 ht
  obtain ⟨v, hv, heffect⟩ := mem_flatMap.1 htimed
  have hmem : e ∈ serveHTTP g v.snap v.req v.outcomes := by
    obtain ⟨i, hi, heq⟩ := mem_mapIdx.1 heffect
    obtain ⟨-, rfl⟩ := Prod.mk.inj heq
    exact getElem_mem hi
  have hadded := (v.balanced hg (h.fits hv)).2 e hmem
  split at htouch
  · obtain rfl := Option.some.inj htouch
    exact le_rfl
  · obtain rfl := Option.some.inj htouch
    exact le_rfl
  · next heq =>
    obtain ⟨-, rfl⟩ := Prod.mk.inj heq
    obtain rfl := Option.some.inj htouch
    exact hadded
  · cases htouch

/-- The tokens added are at most those that all calls reported, and as many exactly when every
request is charged for all of its calls. -/
theorem Measured.touched_le_spent (hg : g.guardrails) (h : Measured g bt visits) :
    let touched := touches (visits.flatMap (Visit.effects g))
    (touched.map fun t => t.2.toInt).sum ≤ (visits.map (Visit.spent g)).sum ∧
      ((touched.map fun t => t.2.toInt).sum = (visits.map (Visit.spent g)).sum ↔
        ∀ v ∈ visits, v.Charged g) := by
  have hsum : ((touches (visits.flatMap (Visit.effects g))).map fun t => t.2.toInt).sum =
      (visits.map (Visit.added g)).sum :=
    (sum_touches _).trans (sum_effects g visits addedTokens)
  have hvisit := fun v (hv : v ∈ visits) => v.added_le_spent hg (h.fits hv)
  obtain ⟨hle, hiff⟩ := sum_le_and_eq_iff fun v hv => (hvisit v hv).1
  intro touched
  rw [hsum]
  exact ⟨hle, hiff.trans (forall₂_congr fun v hv => (hvisit v hv).2)⟩

/-- Over every sequence of requests the two counters are the sums of what was added in their
windows, modulo `2 ^ 64`. Within the 64 bits they are the sums themselves, and the tokens added
are those that all calls reported exactly when every request is charged for all of its calls. -/
theorem token_budget_law (g : PipelineHandler) (hg : g.guardrails = true) (nextMidnight : ℤ → ℤ)
    (bt : BudgetTracker) (visits : List Visit) :
    let effects := visits.flatMap (Visit.effects g)
    let final := effects.foldl (BudgetTracker.perform nextMidnight) bt
    ((⟨final.hourlyUsed, final.hourlyReset⟩ : WindowCounter Int64) =
        (touches effects).foldl (.touch hourEnd) ⟨bt.hourlyUsed, bt.hourlyReset⟩ ∧
      (⟨final.dailyUsed, final.dailyReset⟩ : WindowCounter Int64) =
        (touches effects).foldl (.touch nextMidnight) ⟨bt.dailyUsed, bt.dailyReset⟩) ∧
    (Measured g bt visits →
      let touched := (touches effects).map fun t => (t.1, t.2.toInt)
      (⟨final.hourlyUsed.toInt, final.hourlyReset⟩ : WindowCounter ℤ) =
          touched.foldl (.touch hourEnd) ⟨bt.hourlyUsed.toInt, bt.hourlyReset⟩ ∧
        (⟨final.dailyUsed.toInt, final.dailyReset⟩ : WindowCounter ℤ) =
          touched.foldl (.touch nextMidnight) ⟨bt.dailyUsed.toInt, bt.dailyReset⟩ ∧
        ((touched.map Prod.snd).sum = (effects.map fun e => spentTokens e.2).sum ↔
          ∀ v ∈ visits, v.Charged g)) := by
  intro effects final
  obtain ⟨hhour, hday⟩ := perform_counters nextMidnight bt effects
  refine ⟨⟨hhour, hday⟩, fun h => ?_⟩
  have hnonneg := h.touches_nonneg hg
  obtain ⟨hle, hiff⟩ := h.touched_le_spent hg
  have hspent : (effects.map fun e => spentTokens e.2).sum = (visits.map (Visit.spent g)).sum :=
    sum_effects g visits spentTokens
  refine ⟨?_, ?_, ?_⟩
  · rw [← toInt_foldl_touch hourEnd hnonneg h.hourly.1 _ (by have := h.hourly.2; omega), ← hhour]
  · rw [← toInt_foldl_touch nextMidnight hnonneg h.daily.1 _ (by have := h.daily.2; omega), ← hday]
  · rw [hspent, map_map]
    exact hiff

def sampleVisit (outcomes : Outcomes) : Visit :=
  ⟨sampleSnapshot, sampleRequest, outcomes, fun _ => 0, rfl⟩

/-- One request that is answered by its main call. -/
theorem answered_request_counted :
    let bt : BudgetTracker := ⟨0, 0, 0, 0, 1, 1⟩
    let visits := [sampleVisit sampleOutcomes]
    Measured sampleHandler bt visits ∧
      ((touches (visits.flatMap (Visit.effects sampleHandler))).map fun t => t.2.toInt).sum = 15 ∧
      ∀ v ∈ visits, v.Charged sampleHandler := by
  intro bt visits
  have hmeasured : Measured sampleHandler bt visits :=
    ⟨by decide +kernel, by decide +kernel, by decide +kernel⟩
  obtain ⟨-, hlaw⟩ := token_budget_law sampleHandler rfl hourEnd bt visits
  exact ⟨hmeasured, by decide +kernel, (hlaw hmeasured).2.2.1 (by decide +kernel)⟩

/-- A reply of 15 tokens is found too poor and made again for 30 more, of which none are
counted. -/
theorem regenerated_reply_not_counted :
    let visits := [sampleVisit { sampleOutcomes with lowQuality := true }]
    let effects := visits.flatMap (Visit.effects sampleHandler)
    ((touches effects).map fun t => t.2.toInt).sum = 15 ∧
      (effects.map fun e => spentTokens e.2).sum = 45 := by
  decide +kernel

end Accounting

end Sentinel.Gateway.Pipeline

import Mathlib.Algebra.Order.Field.Basic
import Mathlib.Tactic.Linarith
import Mathlib.Tactic.FieldSimp
import Sentinel.Lib.CountTable
import Sentinel.Lib.Delimited
import Sentinel.Lib.Keyed
import Sentinel.Lib.Machine
import Sentinel.Lib.Text

/-! Patterns learned from observed calls (`cortex-gateway`, `apicp/observer.go`). For an agent and a
fingerprint the observer counts the signatures of the responses; a pattern whose top signature is
frequent enough is served from then on, and probed now and then against a real response. -/

namespace Sentinel.Gateway.Apicp
open Lib List

abbrev GoString := List (Fin 256)

/-- The 64-bit FNV-1a hash. -/
def hashContent (content : GoString) : ℕ :=
  content.foldl (fun hash b => (hash ^^^ b.val) * 1099511628211 % 2 ^ 64) 14695981039346656037

-- a test vector of the hash
example : hashContent [97] = 0xaf63dc4c8601ec8c := by decide

def maxPatternsPerAgent : ℕ := 1000
def minSamplesForPromotion : ℕ := 50
def promotionThreshold : ℚ := 9 / 10
def degradationFactor : ℚ := 1 / 2
def maxPatternContentBytes : ℕ := 4096

/-- `strings.TrimSpace` leaves nothing. Bytes that are no UTF-8 are not space. -/
def isBlank (s : GoString) : Bool :=
  (String.fromUTF8? ⟨(s.map UInt8.ofFin).toArray⟩).any fun text => trim text = ""

structure Observed where
  agentId : GoString
  fingerprint : GoString
  content : GoString
  signature : GoString

/-- The statistics of a pattern. No function reads `observed`: it lists what was counted. -/
structure PatternStats where
  agentId : GoString
  fingerprint : GoString
  count : ℕ
  responseHashes : Table ℕ ℕ
  topHash : ℕ
  topContent : GoString
  confidence : ℚ
  lastSeen : ℤ
  promoted : Bool
  observed : List Observed

structure Snapshot where
  patterns : List PatternStats
  lastEvolutionVersions : Keyed GoString GoString

structure Observer where
  stats : Table GoString PatternStats
  lastEvolutionVersions : Keyed GoString GoString

structure LearnedPattern where
  agentId : GoString
  fingerprint : GoString
  confidence : ℚ
  samples : ℕ
  topHash : ℕ
  content : GoString

def hashInput (content signature : GoString) : GoString :=
  if isBlank signature then content else signature

def trimPatternContent (content : GoString) : GoString :=
  if content.length ≤ maxPatternContentBytes then content else content.take maxPatternContentBytes

def separator : Fin 256 := 0x1f

def patternKey (agentId fingerprint : GoString) : GoString := agentId ++ separator :: fingerprint

namespace PatternStats

variable (ps : PatternStats)

def hits (hash : ℕ) : ℕ := (ps.responseHashes.get hash).getD 0

def topCount : ℕ := ps.responseHashes.values.foldl (fun top c => if c > top then c else top) 0

def calcConfidence : ℚ := if ps.count = 0 then 0 else ps.topCount / ps.count

def updatePromotion : PatternStats :=
  { ps with
    promoted := ps.confidence ≥ promotionThreshold ∧ ps.count ≥ minSamplesForPromotion }

def updateTopContent (hash : ℕ) (content : GoString) : PatternStats :=
  let top := { ps with topHash := hash, topContent := trimPatternContent content }
  if ps.count = 1 then top
  else if ps.hits hash > ps.hits ps.topHash ∨ ps.topContent = [] then top
  else ps

def counted (hash : ℕ) (obs : Observed) (now : ℤ) : PatternStats :=
  { ps with
    count := ps.count + 1
    responseHashes := ps.responseHashes.insert hash (ps.hits hash + 1)
    lastSeen := now
    observed := ps.observed ++ [obs] }

def observe (hash : ℕ) (obs : Observed) (now : ℤ) : PatternStats :=
  let topped := (ps.counted hash obs now).updateTopContent hash obs.content
  { topped with confidence := topped.calcConfidence }.updatePromotion

def degrade : PatternStats :=
  { ps with confidence := ps.confidence * degradationFactor }.updatePromotion

def key : GoString := patternKey ps.agentId ps.fingerprint

end PatternStats

def newPattern (agentId fingerprint : GoString) : PatternStats where
  agentId := agentId
  fingerprint := fingerprint
  count := 0
  responseHashes := .empty
  topHash := 0
  topContent := []
  confidence := 0
  lastSeen := 0
  promoted := false
  observed := []

namespace Observer

variable (o : Observer)

/-- Patterns seen at the same time go in the order `rank`, which the source leaves open. -/
def enforcePatternLimit (agentId : GoString) (rank : GoString → ℕ) : Observer :=
  if agentId = [] then o
  else
    let candidates := o.stats.entries.filter fun e => e.2.agentId = agentId
    if candidates.length ≤ maxPatternsPerAgent then o
    else
      let sorted := candidates.mergeSort fun a b =>
        a.2.lastSeen < b.2.lastSeen ∨ a.2.lastSeen = b.2.lastSeen ∧ rank a.1 ≤ rank b.1
      let evicted := sorted.take (candidates.length - maxPatternsPerAgent)
      { o with stats := evicted.foldl (fun stats e => stats.erase e.1) o.stats }

def record (obs : Observed) (now : ℤ) (rank : GoString → ℕ) : Observer :=
  let key := patternKey obs.agentId obs.fingerprint
  let ps := (o.stats.get key).getD (newPattern obs.agentId obs.fingerprint)
  { o with stats := o.stats.insert key (ps.observe (hashContent obs.signature) obs now) }
    |>.enforcePatternLimit obs.agentId rank

def checkEvolutionDegradation (agentId evolutionVersion : GoString) : Observer :=
  let next :=
    { o with lastEvolutionVersions :=
        Function.update o.lastEvolutionVersions agentId (some evolutionVersion) }
  match o.lastEvolutionVersions agentId with
  | none => next
  | some prev =>
    if prev = evolutionVersion ∨ evolutionVersion = [] then next
    else
      { next with
        stats := o.stats.map fun ps => if ps.agentId = agentId then ps.degrade else ps }

def learnedPatternFor (agentId fingerprint : GoString) : Option LearnedPattern :=
  match o.stats.get (patternKey agentId fingerprint) with
  | none => none
  | some ps =>
    if ¬ ps.promoted ∨ isBlank ps.topContent then none
    else some ⟨ps.agentId, ps.fingerprint, ps.confidence, ps.count, ps.topHash, ps.topContent⟩

def applyProbeResult (agentId fingerprint : GoString) (expectedHash : ℕ)
    (responseContent : GoString) : Observer :=
  match o.stats.get (patternKey agentId fingerprint) with
  | none => o
  | some ps =>
    if expectedHash = 0 ∨ hashContent responseContent = expectedHash then o
    else { o with stats := o.stats.insert (patternKey agentId fingerprint) ps.degrade }

def snapshot : Snapshot := ⟨o.stats.values, o.lastEvolutionVersions⟩

def restore (snapshot : Snapshot) : Observer where
  stats := .ofRows PatternStats.key (snapshot.patterns.map PatternStats.updatePromotion)
  lastEvolutionVersions := snapshot.lastEvolutionVersions

end Observer

inductive Call
  | record (fingerprint agentId content signature : GoString) (now : ℤ) (rank : GoString → ℕ)
  | evolve (agentId evolutionVersion : GoString)
  | probe (agentId fingerprint : GoString) (expectedHash : ℕ) (responseContent : GoString)
  | snapshot
  | restore (n : ℕ)

structure System where
  observer : Observer
  saved : List Snapshot

def System.step (s : System) : Call → System
  | .record fingerprint agentId content signature now rank =>
    let obs := ⟨agentId, fingerprint, content, hashInput content signature⟩
    { s with observer := s.observer.record obs now rank }
  | .evolve agentId version =>
    { s with observer := s.observer.checkEvolutionDegradation agentId version }
  | .probe agentId fingerprint expectedHash content =>
    { s with observer := s.observer.applyProbeResult agentId fingerprint expectedHash content }
  | .snapshot => { s with saved := s.saved ++ [s.observer.snapshot] }
  | .restore n =>
    match s.saved[n]? with
    | none => s
    | some snapshot => { s with observer := .restore snapshot }

def learning : Machine System Call Unit where
  call s c := (s.step c, ())

def System.start : System := ⟨⟨.empty, .empty⟩, []⟩

def times (observed : List Observed) (signature : GoString) : ℕ :=
  observed.countP fun obs => obs.signature = signature

/-- The content is that of an observation of the agent and the fingerprint whose signature is a
most frequent one, with 90 percent of at least 50 observations. -/
structure Dominant (observed : List Observed) (agentId fingerprint content : GoString) : Prop where
  own : ∀ obs ∈ observed, obs.agentId = agentId ∧ obs.fingerprint = fingerprint
  samples : 50 ≤ observed.length
  exemplar : ∃ obs ∈ observed, content = trimPatternContent obs.content ∧
    (∀ other ∈ observed, times observed other.signature ≤ times observed obs.signature) ∧
      9 * observed.length ≤ 10 * times observed obs.signature

section Patterns

variable {observed : List Observed} {ps : PatternStats} {allowed : Observed → Prop}
  {key : GoString} {obs : Observed}

def tallyOf (observed : List Observed) (hash : ℕ) : ℕ :=
  observed.countP fun obs => hashContent obs.signature = hash

theorem tallyOf_hashContent {signatures : Set GoString} (hfnv : Set.InjOn hashContent signatures)
    (hall : ∀ obs ∈ observed, obs.signature ∈ signatures) {signature : GoString}
    (h : signature ∈ signatures) :
    tallyOf observed (hashContent signature) = times observed signature := by
  refine countP_congr fun obs hobs => ?_
  simp only [decide_eq_true_eq]
  exact hfnv.eq_iff (hall obs hobs) h

theorem tallyOf_concat (hash : ℕ) : tallyOf (observed ++ [obs]) hash =
    tallyOf observed hash + if hashContent obs.signature = hash then 1 else 0 := by
  simp [tallyOf, countP_append, countP_singleton]

theorem tallyOf_le_concat (hash : ℕ) :
    tallyOf observed hash ≤ tallyOf (observed ++ [obs]) hash := by
  rw [tallyOf_concat]
  exact Nat.le_add_right _ _

theorem tallyOf_concat_of_ne {hash : ℕ} (hne : hash ≠ hashContent obs.signature) :
    tallyOf (observed ++ [obs]) hash = tallyOf observed hash := by
  rw [tallyOf_concat, if_neg hne.symm, Nat.add_zero]

theorem topCount_le_iff {f : ℕ → ℕ} (h : ps.responseHashes.Tallies f) {n : ℕ} :
    ps.topCount ≤ n ↔ ∀ hash, f hash ≤ n := by
  have hfold : ∀ (values : List ℕ) (top : ℕ),
      values.foldl (fun top c => if c > top then c else top) top ≤ n ↔
        top ≤ n ∧ ∀ c ∈ values, c ≤ n := by
    intro values
    induction values with
    | nil => simp
    | cons c values ih =>
      intro top
      rw [foldl_cons, ih, forall_mem_cons]
      split_ifs with hc
      · exact ⟨fun ⟨hle, hrest⟩ => ⟨hc.le.trans hle, hle, hrest⟩, fun h => h.2⟩
      · exact ⟨fun ⟨hle, hrest⟩ => ⟨hle, (not_lt.1 hc).trans hle, hrest⟩, fun h => ⟨h.1, h.2.2⟩⟩
  rw [PatternStats.topCount, hfold]
  constructor
  · rintro ⟨-, hvalues⟩ hash
    rcases Nat.eq_zero_or_pos (f hash) with hzero | hpos
    · rw [hzero]
      exact Nat.zero_le n
    · refine hvalues (f hash) (Table.mem_values_iff.2 ⟨hash, ?_⟩)
      rw [h hash, Table.tally, if_neg hpos.ne']
  · intro hall
    refine ⟨Nat.zero_le n, fun c hc => ?_⟩
    obtain ⟨hash, hget⟩ := Table.mem_values_iff.1 hc
    have hcount : c = f hash := by simpa [hget] using h.getD hash
    exact hcount ▸ hall hash

theorem trimPatternContent_ne_nil {content : GoString} (h : content ≠ []) :
    trimPatternContent content ≠ [] := by
  unfold trimPatternContent
  split_ifs
  · exact h
  · simpa [maxPatternContentBytes] using h

structure Counts (allowed : Observed → Prop) (key : GoString) (ps : PatternStats) : Prop where
  key_eq : ps.key = key
  own : ∀ obs ∈ ps.observed, patternKey obs.agentId obs.fingerprint = key
  allowed : ∀ obs ∈ ps.observed, allowed obs
  count : ps.count = ps.observed.length
  tallies : ps.responseHashes.Tallies (tallyOf ps.observed)
  exemplar : ps.observed ≠ [] → ∃ obs ∈ ps.observed,
    ps.topHash = hashContent obs.signature ∧ ps.topContent = trimPatternContent obs.content
  top : (∀ obs ∈ ps.observed, obs.content ≠ []) →
    ∀ hash, tallyOf ps.observed hash ≤ tallyOf ps.observed ps.topHash

structure Sound (allowed : Observed → Prop) (key : GoString) (ps : PatternStats) : Prop
    extends Counts allowed key ps where
  positive : 0 < ps.confidence
  bounded : ps.confidence * ps.count ≤ ps.topCount
  promotion : ps.promoted = true ↔
    ps.confidence ≥ promotionThreshold ∧ ps.count ≥ minSamplesForPromotion

theorem counts_newPattern (agentId fingerprint : GoString) :
    Counts allowed (patternKey agentId fingerprint) (newPattern agentId fingerprint) where
  key_eq := rfl
  own _ h := absurd h not_mem_nil
  allowed _ h := absurd h not_mem_nil
  count := rfl
  tallies _ := rfl
  exemplar h := absurd rfl h
  top _ _ := Nat.le_refl _

theorem Counts.updateTopContent (h : Counts allowed key ps)
    (hkey : patternKey obs.agentId obs.fingerprint = key) (hallowed : allowed obs) (now : ℤ) :
    Counts allowed key ((ps.counted (hashContent obs.signature) obs now).updateTopContent
      (hashContent obs.signature) obs.content) := by
  have hown : ∀ other ∈ ps.observed ++ [obs],
      patternKey other.agentId other.fingerprint = key :=
    forall_mem_append.2 ⟨h.own, forall_mem_singleton.2 hkey⟩
  have hallowed : ∀ other ∈ ps.observed ++ [obs], allowed other :=
    forall_mem_append.2 ⟨h.allowed, forall_mem_singleton.2 hallowed⟩
  have hcount : ps.count + 1 = (ps.observed ++ [obs]).length := by simp [h.count]
  have htallies : (ps.counted (hashContent obs.signature) obs now).responseHashes.Tallies
      (tallyOf (ps.observed ++ [obs])) := by
    refine h.tallies.insert (Nat.succ_ne_zero _) ?_ fun hash hne => tallyOf_concat_of_ne hne
    rw [tallyOf_concat, if_pos rfl, PatternStats.hits, h.tallies.getD]
  have hhits (hash : ℕ) : (ps.counted (hashContent obs.signature) obs now).hits hash =
      tallyOf (ps.observed ++ [obs]) hash := htallies.getD hash
  have hnew : ∃ other ∈ ps.observed ++ [obs],
      hashContent obs.signature = hashContent other.signature ∧
      trimPatternContent obs.content = trimPatternContent other.content :=
    ⟨obs, mem_append_right _ (mem_singleton.2 rfl), rfl, rfl⟩
  -- the new signature is on top of the others, as soon as it is on top of the old top
  have hover (hle : tallyOf (ps.observed ++ [obs]) ps.topHash ≤
      tallyOf (ps.observed ++ [obs]) (hashContent obs.signature))
      (hall : ∀ other ∈ ps.observed ++ [obs], other.content ≠ []) (hash : ℕ) :
      tallyOf (ps.observed ++ [obs]) hash ≤
        tallyOf (ps.observed ++ [obs]) (hashContent obs.signature) := by
    rcases eq_or_ne hash (hashContent obs.signature) with rfl | hne
    · exact le_rfl
    calc tallyOf (ps.observed ++ [obs]) hash = tallyOf ps.observed hash := tallyOf_concat_of_ne hne
      _ ≤ tallyOf ps.observed ps.topHash := h.top (forall_mem_append.1 hall).1 hash
      _ ≤ tallyOf (ps.observed ++ [obs]) ps.topHash := tallyOf_le_concat _
      _ ≤ _ := hle
  have hlater (hfirst : ¬ (ps.counted (hashContent obs.signature) obs now).count = 1) :
      ∃ other ∈ ps.observed, ps.topHash = hashContent other.signature ∧
        ps.topContent = trimPatternContent other.content := by
    refine h.exemplar fun hnil => hfirst ?_
    show ps.count + 1 = 1
    rw [h.count, hnil]
    rfl
  unfold PatternStats.updateTopContent
  dsimp only
  split_ifs with hfirst hswitch
  · have hnil : ps.observed = [] :=
      eq_nil_of_length_eq_zero (h.count ▸ Nat.succ_inj.1 hfirst)
    refine ⟨h.key_eq, hown, hallowed, hcount, htallies, fun _ => hnew, hover ?_⟩
    rcases eq_or_ne ps.topHash (hashContent obs.signature) with heq | hne
    · rw [heq]
    · rw [tallyOf_concat_of_ne hne, hnil]
      exact Nat.zero_le _
  · refine ⟨h.key_eq, hown, hallowed, hcount, htallies, fun _ => hnew, fun hall => ?_⟩
    rcases hswitch with hmore | hempty
    · rw [hhits, hhits] at hmore
      exact hover hmore.le hall
    · obtain ⟨other, hother, -, htopContent⟩ := hlater hfirst
      have hcontent := hall other (mem_append_left _ hother)
      exact absurd (htopContent ▸ hempty) (trimPatternContent_ne_nil hcontent)
  · obtain ⟨other, hother, htopHash, htopContent⟩ := hlater hfirst
    refine ⟨h.key_eq, hown, hallowed, hcount, htallies, fun _ => ?_, fun hall hash => ?_⟩
    · exact ⟨other, mem_append_left _ hother, htopHash, htopContent⟩
    rcases eq_or_ne hash (hashContent obs.signature) with rfl | hne
    · have hless := not_lt.1 (not_or.1 hswitch).1
      rwa [hhits, hhits] at hless
    · calc tallyOf (ps.observed ++ [obs]) hash
        _ = tallyOf ps.observed hash := tallyOf_concat_of_ne hne
        _ ≤ tallyOf ps.observed ps.topHash := h.top (forall_mem_append.1 hall).1 hash
        _ ≤ tallyOf (ps.observed ++ [obs]) ps.topHash := tallyOf_le_concat _

theorem promoted_updatePromotion : ps.updatePromotion.promoted = true ↔
    ps.confidence ≥ promotionThreshold ∧ ps.count ≥ minSamplesForPromotion :=
  decide_eq_true_iff

theorem Counts.observe (h : Counts allowed key ps)
    (hkey : patternKey obs.agentId obs.fingerprint = key) (hallowed : allowed obs) (now : ℤ) :
    Sound allowed key (ps.observe (hashContent obs.signature) obs now) := by
  have htop := h.updateTopContent hkey hallowed now
  unfold PatternStats.observe
  dsimp only
  generalize htopped : (ps.counted (hashContent obs.signature) obs now).updateTopContent
    (hashContent obs.signature) obs.content = topped at htop
  have hobserved : topped.observed = ps.observed ++ [obs] := by
    rw [← htopped]
    unfold PatternStats.updateTopContent
    dsimp only
    split_ifs <;> rfl
  have hcount : 0 < topped.count := by
    rw [htop.count, hobserved]
    simp
  have hpositive : 0 < topped.topCount := by
    by_contra hzero
    have hall := (topCount_le_iff htop.tallies).1 (not_lt.1 hzero) (hashContent obs.signature)
    rw [hobserved, tallyOf_concat, if_pos rfl] at hall
    exact absurd hall (Nat.not_succ_le_zero _)
  have hconfidence : topped.calcConfidence = topped.topCount / topped.count := if_neg hcount.ne'
  have hcount' : (0 : ℚ) < topped.count := by exact_mod_cast hcount
  exact {
    htop with
    positive := by
      show 0 < topped.calcConfidence
      rw [hconfidence]
      exact div_pos (by exact_mod_cast hpositive) hcount'
    bounded := by
      show topped.calcConfidence * topped.count ≤ topped.topCount
      rw [hconfidence, div_mul_cancel₀ _ hcount'.ne']
    promotion := promoted_updatePromotion }

theorem Sound.degrade (h : Sound allowed key ps) : Sound allowed key ps.degrade := by
  have hbounded : ps.confidence * degradationFactor * ps.count ≤ ps.topCount := by
    have hless : ps.confidence * degradationFactor ≤ ps.confidence :=
      mul_le_of_le_one_right h.positive.le (by norm_num [degradationFactor])
    exact (mul_le_mul_of_nonneg_right hless (Nat.cast_nonneg _)).trans h.bounded
  exact {
    h.toCounts with
    positive := mul_pos h.positive (by norm_num [degradationFactor])
    bounded := hbounded
    promotion := promoted_updatePromotion }

theorem Sound.updatePromotion (h : Sound allowed key ps) : Sound allowed key ps.updatePromotion :=
  { h.toCounts with
    positive := h.positive
    bounded := h.bounded
    promotion := promoted_updatePromotion }

theorem patternKey_inj {agent fingerprint agent' fingerprint' : GoString}
    (h : patternKey agent fingerprint = patternKey agent' fingerprint')
    (hagent : separator ∉ agent) (hagent' : separator ∉ agent') :
    agent = agent' ∧ fingerprint = fingerprint' :=
  append_mark_inj hagent hagent' h

/-- The observations that the law needs: some content, and an agent that is not cut by the key. -/
def Observed.Plain (obs : Observed) : Prop := obs.content ≠ [] ∧ separator ∉ obs.agentId

theorem Sound.dominant {agentId fingerprint : GoString} {signatures : Set GoString}
    (hfnv : Set.InjOn hashContent signatures)
    (h : Sound (fun obs => obs.Plain ∧ obs.signature ∈ signatures)
      (patternKey agentId fingerprint) ps) (hagent : separator ∉ agentId)
    (hpromoted : ps.promoted = true) :
    Dominant ps.observed agentId fingerprint ps.topContent := by
  obtain ⟨hthreshold, hsamples⟩ := h.promotion.1 hpromoted
  rw [h.count] at hsamples
  have hold : ps.observed ≠ [] := by
    rintro hnil
    rw [hnil] at hsamples
    exact absurd hsamples (by decide)
  obtain ⟨obs, hobs, htopHash, htopContent⟩ := h.exemplar hold
  have htally : ∀ other ∈ ps.observed,
      tallyOf ps.observed (hashContent other.signature) = times ps.observed other.signature :=
    fun other hother => tallyOf_hashContent hfnv (fun o ho => (h.allowed o ho).2)
      (h.allowed other hother).2
  have hmost : ∀ hash, tallyOf ps.observed hash ≤ times ps.observed obs.signature := by
    rw [← htally obs hobs, ← htopHash]
    exact h.top fun other hother => (h.allowed other hother).1.1
  refine ⟨fun other hother => ?_, hsamples, obs, hobs, htopContent, fun other hother => ?_, ?_⟩
  · exact patternKey_inj (h.own other hother) (h.allowed other hother).1.2 hagent
  · rw [← htally other hother]
    exact hmost _
  · have htop : ps.topCount ≤ times ps.observed obs.signature :=
      (topCount_le_iff h.tallies).2 hmost
    have hlength : (ps.count : ℚ) = ps.observed.length := by rw [h.count]
    have hshare : promotionThreshold * ps.observed.length ≤ times ps.observed obs.signature := by
      calc promotionThreshold * (ps.observed.length : ℚ)
        _ ≤ ps.confidence * ps.count := by
          rw [hlength]
          exact mul_le_mul_of_nonneg_right hthreshold (Nat.cast_nonneg _)
        _ ≤ ps.topCount := h.bounded
        _ ≤ times ps.observed obs.signature := by exact_mod_cast htop
    have hscaled : (9 : ℚ) * ps.observed.length ≤ 10 * times ps.observed obs.signature := by
      unfold promotionThreshold at hshare
      linarith
    exact_mod_cast hscaled

end Patterns

section Runs

variable {allowed : Observed → Prop} {o : Observer} {s : System}

def AllSound (allowed : Observed → Prop) (o : Observer) : Prop :=
  ∀ key ps, o.stats.get key = some ps → Sound allowed key ps

structure Keeps (allowed : Observed → Prop) (s : System) : Prop where
  stats : AllSound allowed s.observer
  saved : ∀ snapshot ∈ s.saved, ∀ ps ∈ snapshot.patterns, Sound allowed ps.key ps

theorem get_of_get_enforcePatternLimit {agentId key : GoString} {rank : GoString → ℕ}
    {ps : PatternStats} (h : (o.enforcePatternLimit agentId rank).stats.get key = some ps) :
    o.stats.get key = some ps := by
  unfold Observer.enforcePatternLimit at h
  dsimp only at h
  split_ifs at h
  · exact h
  · exact h
  · generalize List.take _ _ = evicted at h
    rw [← foldl_map (f := Prod.fst) (g := Table.erase), Table.get_foldl_erase] at h
    split_ifs at h
    exact h

theorem AllSound.insert (h : AllSound allowed o) {key : GoString} {ps : PatternStats}
    (hps : Sound allowed key ps) : AllSound allowed { o with stats := o.stats.insert key ps } := by
  intro key' ps' hget
  rcases Table.get_of_insert hget with ⟨rfl, rfl⟩ | hget
  · exact hps
  · exact h key' ps' hget

theorem AllSound.record (h : AllSound allowed o) {obs : Observed} (hallowed : allowed obs)
    (now : ℤ) (rank : GoString → ℕ) : AllSound allowed (o.record obs now rank) := by
  intro key ps hget
  refine h.insert (Counts.observe ?_ rfl hallowed now) key ps (get_of_get_enforcePatternLimit hget)
  cases hold : o.stats.get (patternKey obs.agentId obs.fingerprint) with
  | none => exact counts_newPattern _ _
  | some ps => exact (h _ ps hold).toCounts

theorem AllSound.evolve (h : AllSound allowed o) (agentId version : GoString) :
    AllSound allowed (o.checkEvolutionDegradation agentId version) := by
  unfold Observer.checkEvolutionDegradation
  dsimp only
  split
  · exact h
  split_ifs
  · exact h
  intro key ps hget
  rw [Table.get_map] at hget
  obtain ⟨old, hold, rfl⟩ := Option.map_eq_some_iff.1 hget
  split_ifs
  · exact (h key old hold).degrade
  · exact h key old hold

theorem AllSound.probe (h : AllSound allowed o) (agentId fingerprint : GoString)
    (expectedHash : ℕ) (content : GoString) :
    AllSound allowed (o.applyProbeResult agentId fingerprint expectedHash content) := by
  unfold Observer.applyProbeResult
  split
  · exact h
  next ps hold =>
  split_ifs
  · exact h
  · exact h.insert (h _ ps hold).degrade

theorem allSound_restore {snapshot : Snapshot}
    (h : ∀ ps ∈ snapshot.patterns, Sound allowed ps.key ps) :
    AllSound allowed (.restore snapshot) := by
  intro key ps hget
  obtain ⟨hmem, hkey⟩ := Table.mem_of_get_ofRows hget
  obtain ⟨old, hold, rfl⟩ := mem_map.1 hmem
  exact hkey ▸ (h old hold).updatePromotion

def Call.signature? : Call → Option GoString
  | .record _ _ content signature _ _ => some (hashInput content signature)
  | _ => none

def Call.Records (allowed : Observed → Prop) : Call → Prop
  | .record fingerprint agentId content signature _ _ =>
    allowed ⟨agentId, fingerprint, content, hashInput content signature⟩
  | _ => True

theorem records_and {calls : List Call} {call : Call} (hcall : call ∈ calls)
    (h : call.Records allowed) :
    call.Records fun obs => allowed obs ∧
      obs.signature ∈ {signature | signature ∈ calls.filterMap Call.signature?} := by
  cases call with
  | record => exact ⟨h, mem_filterMap.2 ⟨_, hcall, rfl⟩⟩
  | _ => trivial

theorem Keeps.step (h : Keeps allowed s) {call : Call} (hcall : call.Records allowed) :
    Keeps allowed (s.step call) := by
  cases call with
  | record => exact ⟨h.stats.record hcall _ _, h.saved⟩
  | evolve => exact ⟨h.stats.evolve _ _, h.saved⟩
  | probe => exact ⟨h.stats.probe _ _ _ _, h.saved⟩
  | snapshot =>
    refine ⟨h.stats, forall_mem_append.2 ⟨h.saved, forall_mem_singleton.2 ?_⟩⟩
    intro ps hps
    obtain ⟨key, hget⟩ := Table.mem_values_iff.1 hps
    have hsound := h.stats key ps hget
    rwa [hsound.key_eq]
  | restore n =>
    unfold System.step
    dsimp only
    split
    · exact h
    next snapshot hsnapshot =>
      exact ⟨allSound_restore (h.saved snapshot (mem_of_getElem? hsnapshot)), h.saved⟩

theorem keeps_final {calls : List Call} (hcalls : ∀ call ∈ calls, call.Records allowed) :
    Keeps allowed (learning.final .start calls) := by
  refine learning.final_invariant (fun s call hs hcall => hs.step hcall) ?_
    (learning.meets_of_forall_mem hcalls _)
  exact ⟨fun _ _ hget => (by cases hget), fun _ h => absurd h not_mem_nil⟩

/-- The probe halves the confidence exactly where the signature of the response is not the
expected one. -/
def ProbeLaw (o : Observer) (agentId fingerprint expected content signature : GoString)
    (ps : PatternStats) : Prop :=
  ∃ after, (o.applyProbeResult agentId fingerprint (hashContent expected) content).stats.get
      (patternKey agentId fingerprint) = some after ∧
    if hashInput content signature = expected then
      after.confidence = ps.confidence ∧ after.promoted = ps.promoted
    else after.confidence = ps.confidence / 2

theorem probeLaw_iff {agentId fingerprint expected content signature : GoString} {ps : PatternStats}
    (hfnv : Set.InjOn hashContent {content, expected})
    (hget : o.stats.get (patternKey agentId fingerprint) = some ps) (hps : 0 < ps.confidence) :
    ProbeLaw o agentId fingerprint expected content signature ps ↔
      (hashInput content signature = expected ↔
        hashContent expected = 0 ∨ content = expected) := by
  have hhalf : ps.confidence / 2 ≠ ps.confidence := (half_lt_self hps).ne
  have hdegrade : ps.degrade.confidence = ps.confidence / 2 := by
    rw [PatternStats.degrade, PatternStats.updatePromotion, degradationFactor, mul_one_div]
  unfold ProbeLaw Observer.applyProbeResult
  rw [hget, ← hfnv.eq_iff (.inl rfl) (.inr rfl)]
  dsimp only
  by_cases hsame : hashContent expected = 0 ∨ hashContent content = hashContent expected
  · rw [if_pos hsame, hget]
    simp only [Option.some.injEq, exists_eq_left', hsame, iff_true]
    split_ifs with hsignature
    · simp [hsignature]
    · simpa [hsignature] using hhalf.symm
  · rw [if_neg hsame, Table.get_insert, if_pos rfl]
    simp only [Option.some.injEq, exists_eq_left', hsame, iff_false, hdegrade]
    split_ifs with hsignature
    · simp [hsignature, hhalf]
    · simp [hsignature]

/-- **Learned answers.** Where every observation has content and no agent id has the separator of
the keys in it, a served answer is a dominant one; and a probe keeps to its law exactly where
comparing the response decides as comparing the signature does. The hash is asked to have no
collision among the strings that are compared. -/
theorem learned_patterns_dominate (calls : List Call) :
    (Set.InjOn hashContent {signature | signature ∈ calls.filterMap Call.signature?} →
      (∀ call ∈ calls, call.Records Observed.Plain) → ∀ agentId fingerprint learned,
      separator ∉ agentId →
        (learning.final .start calls).observer.learnedPatternFor agentId fingerprint =
            some learned →
          ∃ ps, (learning.final .start calls).observer.stats.get
              (patternKey agentId fingerprint) = some ps ∧
            Dominant ps.observed agentId fingerprint learned.content) ∧
      ∀ agentId fingerprint ps, (learning.final .start calls).observer.stats.get
          (patternKey agentId fingerprint) = some ps → ∀ expected content signature,
        Set.InjOn hashContent {content, expected} →
        (ProbeLaw (learning.final .start calls).observer agentId fingerprint expected content
            signature ps ↔
          (hashInput content signature = expected ↔
            hashContent expected = 0 ∨ content = expected)) := by
  constructor
  · intro hfnv hcalls agentId fingerprint learned hagent hlearned
    have hkeeps := keeps_final fun call hcall => records_and hcall (hcalls call hcall)
    unfold Observer.learnedPatternFor at hlearned
    split at hlearned
    · cases hlearned
    next ps hget =>
    split_ifs at hlearned with hserved
    cases hlearned
    have hpromoted : ps.promoted = true := not_not.1 (not_or.1 hserved).1
    exact ⟨ps, hget, (hkeeps.stats _ ps hget).dominant hfnv hagent hpromoted⟩
  · intro agentId fingerprint ps hget expected content signature hfnv
    have hkeeps : Keeps (fun _ => True) (learning.final .start calls) :=
      keeps_final fun call _ => by cases call <;> trivial
    exact probeLaw_iff hfnv hget (hkeeps.stats _ ps hget).positive

end Runs

def sampleRecord (content signature : GoString) : Call :=
  .record [102] [97] content signature 0 fun _ => 0

def sampleRun (calls : List Call) : Observer := (learning.final .start calls).observer

def frequentCalls : List Call := sampleRecord [121] [] :: List.replicate 50 (sampleRecord [120] [])

/-- Of 51 answers one is another. -/
theorem frequent_answer_dominates :
    Set.InjOn hashContent {signature | signature ∈ frequentCalls.filterMap Call.signature?} ∧
      (∀ call ∈ frequentCalls, call.Records Observed.Plain) ∧
      ∃ learned ps, (sampleRun frequentCalls).learnedPatternFor [97] [102] = some learned ∧
        (sampleRun frequentCalls).stats.get (patternKey [97] [102]) = some ps ∧
          Dominant ps.observed [97] [102] learned.content := by
  have hfnv : ∀ a ∈ frequentCalls.filterMap Call.signature?,
      ∀ b ∈ frequentCalls.filterMap Call.signature?, hashContent a = hashContent b → a = b := by
    decide +kernel
  have hinj : Set.InjOn hashContent
      {signature | signature ∈ frequentCalls.filterMap Call.signature?} :=
    fun a ha b hb => hfnv a ha b hb
  have hplain : ∀ call ∈ frequentCalls, call.Records Observed.Plain := by
    intro call hcall
    rcases mem_cons.1 hcall with rfl | hcall
    · exact ⟨by decide, by decide⟩
    · rw [eq_of_mem_replicate hcall]
      exact ⟨by decide, by decide⟩
  have hlearned : ((sampleRun frequentCalls).learnedPatternFor [97] [102]).isSome := by
    decide +kernel
  obtain ⟨learned, hlearned⟩ := Option.isSome_iff_exists.1 hlearned
  obtain ⟨ps, hps, hdominant⟩ := (learned_patterns_dominate frequentCalls).1 hinj hplain [97] [102]
    learned (by decide) hlearned
  exact ⟨hinj, hplain, learned, ps, hlearned, hps, hdominant⟩

/-- After 49 empty responses the text of a single other one is served; and a probe that brings the
very response with its signature that was learned halves the confidence. -/
theorem rare_answer_served_and_probe_punished :
    let mixed := sampleRun (List.replicate 49 (sampleRecord [] []) ++ [sampleRecord [120] []])
    let calls := List.replicate 50 (sampleRecord [120] [115])
    let probe := Call.probe [97] [102] (hashContent [115]) [120]
    let learned := fun o : Observer => o.stats.get (patternKey [97] [102])
    (mixed.learnedPatternFor [97] [102]).map LearnedPattern.content = some [120] ∧
      (learned mixed).map (fun ps => (times ps.observed [], times ps.observed [120])) =
        some (49, 1) ∧
      hashInput [120] [115] = [115] ∧
      (learned (sampleRun calls)).map PatternStats.confidence = some 1 ∧
      (learned (sampleRun (calls ++ [probe]))).map PatternStats.confidence = some (1 / 2) := by
  decide +kernel

end Sentinel.Gateway.Apicp

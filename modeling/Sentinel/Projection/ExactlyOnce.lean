import Sentinel.EventStore.EventTable
import Sentinel.Lib.Machine
import Sentinel.Lib.Result

/-! The projection worker (`sentinel-projection`, modules `worker` and `retry`). The additive
tables and the watermark of a projection are committed together in the read database; the offset
it resumes from is mirrored into the event store afterwards. A rebuild empties the read database
statement by statement, outside of any transaction. What a handler adds to a table is a
parameter: the law is about which events reach it, and how often. -/

namespace Sentinel.Projection
open Lib EventStore Function List

inductive ProjectionName
  | ordinary | hierarchy
  deriving DecidableEq

inductive AdditiveTable
  | kpi1m | costByAgent | costByTier | costByHierarchyTier | costHierarchyMeta | costTimeseries
  deriving DecidableEq

def AdditiveTable.all : List AdditiveTable :=
  [.kpi1m, .costByAgent, .costByTier, .costByHierarchyTier, .costHierarchyMeta, .costTimeseries]

def AdditiveTable.owner : AdditiveTable → ProjectionName
  | .costByHierarchyTier | .costHierarchyMeta => .hierarchy
  | _ => .ordinary

def tablesOf (p : ProjectionName) : List AdditiveTable := AdditiveTable.all.filter (·.owner = p)

structure Handlers (Content : Type) where
  initial : AdditiveTable → Content
  handle : AdditiveTable → Content → EventRow → Except Unit Content

structure ReadModel (Content : Type) where
  tables : AdditiveTable → Content
  watermark : ProjectionName → ℕ

structure Databases (Content : Type) where
  events : EventTable
  read : ReadModel Content
  offset : ProjectionName → Option ℕ
  request : Bool

/-- Where the worker is between two durable writes; none of it survives a crash. -/
inductive Phase
  | idle
  | mirroring (p : ProjectionName) (last : ℕ)
  | clearing (rest : List AdditiveTable)
  | resetting (rest : List ProjectionName)
  | replaying (offset : ℕ)
  | mirroringRebuilt (last : ℕ)
  | catchingUp
  | mirroringCaughtUp (last : ℕ)
  | finishing
  deriving DecidableEq

structure Worker (Content : Type) where
  db : Databases Content
  phase : Phase
  byRequest : Bool

section Worker

variable {Content : Type} (h : Handlers Content)

def getEventsSinceWithId (events : EventTable) (offset limit : ℕ) : List EventRow :=
  (events.rows.filter fun r => offset < r.id).take limit

def handleEvent (p : ProjectionName) (tables : AdditiveTable → Content) (r : EventRow) :
    Except Unit (AdditiveTable → Content) :=
  (tablesOf p).foldlM (fun tables name => do
    let content ← h.handle name (tables name) r
    .ok (update tables name content)) tables

/-- `process_batch`: the events after the watermark, and the watermark, in one transaction. A
failed handler rolls it back. -/
def processBatch (p : ProjectionName) (batch : List EventRow) (read : ReadModel Content) :
    Except Unit (ReadModel Content) := do
  let fresh := batch.filter fun r => read.watermark p < r.id
  let tables ← fresh.foldlM (handleEvent h p) read.tables
  match batch.getLast? with
  | none => .ok { read with tables }
  | some last => .ok {
      tables
      watermark := update read.watermark p (max (read.watermark p) last.id) }

def updateOffset (current : Option ℕ) (attempted : ℕ) : Except Unit (Option ℕ) := do
  ensure (∀ c ∈ current, c ≤ attempted) ()
  .ok (some attempted)

namespace Worker

def commitBatch (w : Worker Content) (p : ProjectionName) (offset limit : ℕ) (next : ℕ → Phase)
    (done : Phase) : Worker Content :=
  let batch := getEventsSinceWithId w.db.events offset limit
  match batch.getLast?, processBatch h p batch w.db.read with
  | none, _ => { w with phase := done }
  | some _, .error _ => { w with phase := .idle }
  | some last, .ok read => { w with db := { w.db with read }, phase := next last.id }

def mirror (w : Worker Content) (p : ProjectionName) (last : ℕ) (next : Phase) :
    Worker Content :=
  match updateOffset (w.db.offset p) last with
  | .error _ => { w with phase := .idle }
  | .ok offset =>
    { w with db := { w.db with offset := update w.db.offset p offset }, phase := next }

def processPendingBatch (w : Worker Content) (p : ProjectionName) (limit : ℕ) :
    Worker Content :=
  w.commitBatch h p ((w.db.offset p).getD 0) limit (.mirroring p) .idle

def work (w : Worker Content) (limit : ℕ) : Worker Content :=
  match w.phase with
  | .idle => w
  | .mirroring p last => w.mirror p last .idle
  | .clearing (name :: rest) =>
    { w with
      db.read.tables := update w.db.read.tables name (h.initial name)
      phase := .clearing rest }
  -- `DELETE FROM projection_watermarks` takes the rows of both projections
  | .clearing [] =>
    { w with db.read.watermark := fun _ => 0, phase := .resetting [.ordinary, .hierarchy] }
  | .resetting (p :: rest) =>
    { w with db.offset := update w.db.offset p none, phase := .resetting rest }
  | .resetting [] => { w with phase := .replaying 0 }
  | .replaying offset =>
    w.commitBatch h .ordinary offset limit .replaying (.mirroringRebuilt offset)
  | .mirroringRebuilt last =>
    if 0 < last then w.mirror .ordinary last .catchingUp else { w with phase := .catchingUp }
  | .catchingUp =>
    w.commitBatch h .hierarchy ((w.db.offset .hierarchy).getD 0) limit .mirroringCaughtUp
      .finishing
  | .mirroringCaughtUp last => w.mirror .hierarchy last .catchingUp
  | .finishing => { w with db.request := w.db.request && !w.byRequest, phase := .idle }

end Worker

/-- What can happen next. `fail` is a crash, a refused lock or any other error: the write under
way leaves nothing, and the worker is idle again, after a restart or as a deferred mirror. -/
inductive WorkerStep
  | append (event : DomainEvent)
  | request
  | beginRebuild (byRequest : Bool)
  | batch (p : ProjectionName) (limit : ℕ)
  | work (limit : ℕ)
  | fail

def workerMachine : Machine (Worker Content) WorkerStep Unit where
  call w step := (match step with
    | .append event => { w with db.events := w.db.events.insertOrIgnore event }
    | .request => { w with db.request := true }
    | .beginRebuild byRequest =>
      if w.phase = .idle ∧ (byRequest → w.db.request) then
        { w with phase := .clearing AdditiveTable.all, byRequest }
      else w
    | .batch p limit => if w.phase = .idle then w.processPendingBatch h p limit else w
    | .work limit => w.work h limit
    | .fail => { w with phase := .idle }, ())

def Worker.initial : Worker Content where
  db := {
    events := .empty
    read := { tables := h.initial, watermark := fun _ => 0 }
    offset := fun _ => none
    request := false }
  phase := .idle
  byRequest := false

/-! ## The law -/

def projected (events : EventTable) (name : AdditiveTable) (upTo : ℕ) : Except Unit Content :=
  (events.rows.filter fun r => r.id ≤ upTo).foldlM (h.handle name) (h.initial name)

/-- Every additive table holds each event up to its watermark once, and no mirrored offset is
ahead of the watermark. -/
structure ExactlyOnce (db : Databases Content) : Prop where
  tables : ∀ name,
    projected h db.events name (db.read.watermark name.owner) = .ok (db.read.tables name)
  offset : ∀ p, (db.offset p).getD 0 ≤ db.read.watermark p

/-- A statement of `clear_all` finds its table empty already, and the one that deletes the
watermarks finds no offset mirrored. -/
def Harmless (w : Worker Content) : WorkerStep → Prop
  | .work _ => match w.phase with
    | .clearing (name :: _) => w.db.read.tables name = h.initial name
    | .clearing [] => ∀ p, (w.db.offset p).getD 0 = 0
    | _ => True
  | _ => True

variable {h} {w : Worker Content} {p : ProjectionName} {events : EventTable}
  {read read' : ReadModel Content} {offset limit : ℕ} {last : EventRow} {next : ℕ → Phase}
  {done : Phase}

/-! ### One batch -/

theorem mem_tablesOf {name : AdditiveTable} : name ∈ tablesOf p ↔ name.owner = p := by
  cases p <;> cases name <;> decide

theorem nodup_tablesOf : (tablesOf p).Nodup := by
  cases p <;> decide

theorem foldlM_update {names : List AdditiveTable} (hnames : names.Nodup) {r : EventRow}
    {tables tables' : AdditiveTable → Content}
    (hfold : names.foldlM (fun tables name => do
      let content ← h.handle name (tables name) r
      .ok (update tables name content)) tables = .ok tables') (name : AdditiveTable) :
    (name ∈ names → h.handle name (tables name) r = .ok (tables' name)) ∧
      (name ∉ names → tables' name = tables name) := by
  induction names generalizing tables with
  | nil =>
    obtain rfl : tables = tables' := Except.ok.inj hfold
    exact ⟨fun hname => absurd hname not_mem_nil, fun _ => rfl⟩
  | cons first rest ih =>
    obtain ⟨hfirst, hrest⟩ := nodup_cons.1 hnames
    simp only [foldlM_cons, bind_eq_ok, Except.ok.injEq] at hfold
    obtain ⟨middle, ⟨content, hcontent, rfl⟩, hfold⟩ := hfold
    obtain ⟨hin, hout⟩ := ih hrest hfold
    by_cases hname : name = first
    · subst hname
      refine ⟨fun _ => ?_, fun hnot => absurd mem_cons_self hnot⟩
      rw [hout hfirst, update_self]
      exact hcontent
    · rw [update_of_ne hname] at hin hout
      refine ⟨fun hmem => hin (mem_of_ne_of_mem hname hmem), fun hnot => hout fun hmem => ?_⟩
      exact hnot (mem_cons_of_mem first hmem)

theorem foldlM_handleEvent {rows : List EventRow} {tables tables' : AdditiveTable → Content}
    (hfold : rows.foldlM (handleEvent h p) tables = .ok tables') (name : AdditiveTable) :
    (name.owner = p → rows.foldlM (h.handle name) (tables name) = .ok (tables' name)) ∧
      (name.owner ≠ p → tables' name = tables name) := by
  induction rows generalizing tables with
  | nil =>
    obtain rfl : tables = tables' := Except.ok.inj hfold
    exact ⟨fun _ => rfl, fun _ => rfl⟩
  | cons r rows ih =>
    rw [foldlM_cons] at hfold
    obtain ⟨middle, hevent, hrest⟩ := bind_eq_ok.1 hfold
    obtain ⟨hin, hout⟩ := foldlM_update nodup_tablesOf hevent name
    obtain ⟨hown, hother⟩ := ih hrest
    constructor
    · intro howner
      rw [foldlM_cons, hin (mem_tablesOf.2 howner)]
      exact hown howner
    · intro howner
      rw [hother howner, hout fun hmem => howner (mem_tablesOf.1 hmem)]

theorem take_eq_filter {rows : List EventRow} (hrows : rows.Pairwise fun a b => a.id < b.id)
    {n : ℕ} (hlast : (rows.take n).getLast? = some last) :
    rows.take n = rows.filter fun r => r.id ≤ last.id := by
  have hsplit : rows.take n ++ rows.drop n = rows := take_append_drop n rows
  have hpair := hsplit ▸ hrows
  obtain ⟨htake, -, hlater⟩ := pairwise_append.1 hpair
  obtain ⟨front, hfront⟩ := getLast?_eq_some_iff.1 hlast
  have hfirst : (rows.take n).filter (fun r => r.id ≤ last.id) = rows.take n := by
    rw [filter_eq_self]
    intro r hr
    rw [hfront] at hr htake
    rcases mem_append.1 hr with hr | hr
    · exact decide_eq_true (Nat.le_of_lt
        ((pairwise_append.1 htake).2.2 r hr last (mem_singleton.2 rfl)))
    · rw [mem_singleton.1 hr]
      exact decide_eq_true (Nat.le_refl _)
  have hsecond : (rows.drop n).filter (fun r => r.id ≤ last.id) = [] := by
    rw [filter_eq_nil_iff]
    intro r hr
    have hlt := hlater last (mem_of_getLast? hlast) r hr
    simpa using hlt
  conv_rhs => rw [← hsplit, filter_append, hfirst, hsecond, append_nil]

theorem filter_le_max {mark : ℕ} (hoffset : offset ≤ mark)
    (hlast : (getEventsSinceWithId events offset limit).getLast? = some last) :
    (events.rows.filter fun r => r.id ≤ max mark last.id) =
      (events.rows.filter fun r => r.id ≤ mark) ++
        (getEventsSinceWithId events offset limit).filter fun r => mark < r.id := by
  have hbatch := take_eq_filter (events.increasing.filter _) hlast
  have hold : (events.rows.filter fun r => r.id ≤ max mark last.id ∧ r.id ≤ mark) =
      events.rows.filter fun r => r.id ≤ mark := by
    apply filter_congr
    intro r _
    rw [decide_eq_decide]
    omega
  rw [filter_eq_append events.increasing _ mark, hold, getEventsSinceWithId, hbatch,
    filter_filter, filter_filter]
  congr 1
  apply filter_congr
  intro r _
  simp only [← Bool.decide_and, decide_eq_decide]
  omega

theorem processBatch_eq_ok {batch : List EventRow} (hlast : batch.getLast? = some last)
    (hbatch : processBatch h p batch read = .ok read') :
    (batch.filter fun r => read.watermark p < r.id).foldlM (handleEvent h p) read.tables =
        .ok read'.tables ∧
      read'.watermark = update read.watermark p (max (read.watermark p) last.id) := by
  simp only [processBatch, hlast, bind_eq_ok, Except.ok.injEq] at hbatch
  obtain ⟨tables, hfold, rfl⟩ := hbatch
  exact ⟨hfold, rfl⟩

theorem projected_processBatch (hoffset : offset ≤ read.watermark p)
    (hlast : (getEventsSinceWithId events offset limit).getLast? = some last)
    (hbatch : processBatch h p (getEventsSinceWithId events offset limit) read = .ok read')
    (htables : ∀ name,
      projected h events name (read.watermark name.owner) = .ok (read.tables name))
    (name : AdditiveTable) :
    projected h events name (read'.watermark name.owner) = .ok (read'.tables name) := by
  obtain ⟨hfold, hmark⟩ := processBatch_eq_ok hlast hbatch
  obtain ⟨hown, hother⟩ := foldlM_handleEvent hfold name
  rw [hmark]
  by_cases howner : name.owner = p
  · have hbefore := htables name
    rw [howner, update_self, projected, filter_le_max hoffset hlast, foldlM_append]
    rw [howner, projected] at hbefore
    rw [hbefore]
    exact hown howner
  · rw [update_of_ne howner, hother howner]
    exact htables name

/-! ### One step -/

def Phase.carried : Phase → ProjectionName → ℕ
  | .mirroring p last, q => if q = p then last else 0
  | .replaying offset, .ordinary => offset
  | .mirroringRebuilt last, .ordinary => last
  | .mirroringCaughtUp last, .hierarchy => last
  | _, _ => 0

def Phase.uncleared : Phase → List AdditiveTable
  | .clearing rest => rest
  | _ => AdditiveTable.all

structure Invariant (h : Handlers Content) (db : Databases Content) (phase : Phase) : Prop where
  watermark_le : ∀ p, db.read.watermark p ≤ db.events.sequence
  carried_le : ∀ p, phase.carried p ≤ db.read.watermark p
  cleared : ∀ name ∉ phase.uncleared, db.read.tables name = h.initial name

structure Sound (h : Handlers Content) (w : Worker Content) : Prop where
  invariant : Invariant h w.db w.phase
  exactlyOnce : ExactlyOnce h w.db

theorem mem_all (name : AdditiveTable) : name ∈ AdditiveTable.all := by
  cases name <;> decide

theorem Sound.goTo (hw : Sound h w) {phase : Phase}
    (hcarried : ∀ p, phase.carried p ≤ w.db.read.watermark p)
    (huncleared : phase.uncleared = AdditiveTable.all) (byRequest : Bool) :
    Sound h { w with phase, byRequest } := by
  refine ⟨⟨hw.invariant.watermark_le, hcarried, fun name hname => ?_⟩, hw.exactlyOnce⟩
  rw [huncleared] at hname
  exact absurd (mem_all name) hname

theorem Sound.idle (hw : Sound h w) : Sound h { w with phase := .idle } :=
  hw.goTo (fun _ => Nat.zero_le _) rfl _

theorem Sound.commitBatch (hw : Sound h w) (hoffset : offset ≤ w.db.read.watermark p)
    (hnext : ∀ n q, (next n).carried q ≤ if q = p then n else 0)
    (huncleared : ∀ n, (next n).uncleared = AdditiveTable.all)
    (hdone : Sound h { w with phase := done }) :
    Sound h (w.commitBatch h p offset limit next done) := by
  simp only [Worker.commitBatch]
  split
  · exact hdone
  · exact hw.idle
  · next last read hlast hbatch =>
    obtain ⟨-, hmark⟩ := processBatch_eq_ok hlast hbatch
    have hmem : last ∈ w.db.events.rows :=
      (mem_filter.1 (mem_of_mem_take (mem_of_getLast? hlast))).1
    have hcommitted : ∀ q, w.db.read.watermark q ≤ read.watermark q ∧
        (if q = p then last.id else 0) ≤ read.watermark q ∧
        read.watermark q ≤ w.db.events.sequence := by
      intro q
      have hold := hw.invariant.watermark_le q
      have hnew := (w.db.events.bounded last hmem).2
      rw [hmark, update_apply]
      split_ifs with hq
      · subst hq
        omega
      · omega
    refine ⟨⟨fun q => (hcommitted q).2.2, fun q => ?_, fun name hname => ?_⟩, ?_, fun q => ?_⟩
    · exact Nat.le_trans (hnext last.id q) (hcommitted q).2.1
    · rw [huncleared] at hname
      exact absurd (mem_all name) hname
    · exact projected_processBatch hoffset hlast hbatch hw.exactlyOnce.tables
    · exact Nat.le_trans (hw.exactlyOnce.offset q) (hcommitted q).1

theorem Sound.mirror (hw : Sound h w) {n : ℕ} (hn : n ≤ w.db.read.watermark p) {phase : Phase}
    (hcarried : ∀ q, phase.carried q = 0) (huncleared : phase.uncleared = AdditiveTable.all) :
    Sound h (w.mirror p n phase) := by
  unfold Worker.mirror
  split
  · exact hw.idle
  · next mirrored hupdate =>
    simp only [updateOffset, bind_eq_ok, exists_unit, Except.ok.injEq] at hupdate
    obtain ⟨-, rfl⟩ := hupdate
    have hthere := hw.goTo (fun q => (hcarried q).trans_le (Nat.zero_le _)) huncleared w.byRequest
    obtain ⟨hmark, hzero, hcleared⟩ := hthere.invariant
    refine ⟨⟨hmark, hzero, hcleared⟩, hw.exactlyOnce.tables, fun q => ?_⟩
    change (update w.db.offset p (some n) q).getD 0 ≤ w.db.read.watermark q
    rw [update_apply]
    split_ifs with hq
    · subst hq
      exact hn
    · exact hw.exactlyOnce.offset q

theorem Sound.append (hw : Sound h w) (event : DomainEvent) :
    Sound h { w with db.events := w.db.events.insertOrIgnore event } := by
  unfold EventTable.insertOrIgnore
  split_ifs
  · exact hw
  · -- the new row is after every watermark
    have hrows : ∀ p, (w.db.events.push event).rows.filter
        (fun r => r.id ≤ w.db.read.watermark p) =
        w.db.events.rows.filter fun r => r.id ≤ w.db.read.watermark p := by
      intro p
      have hle := hw.invariant.watermark_le p
      have hnew : ¬ w.db.events.sequence + 1 ≤ w.db.read.watermark p := by omega
      simp [EventTable.push, filter_append, hnew]
    refine ⟨⟨fun p => Nat.le_succ_of_le (hw.invariant.watermark_le p),
      hw.invariant.carried_le, hw.invariant.cleared⟩, fun name => ?_, hw.exactlyOnce.offset⟩
    rw [projected, hrows]
    exact hw.exactlyOnce.tables name

theorem Sound.work (hw : Sound h w) (hguard : Harmless h w (.work limit)) :
    Sound h (w.work h limit) := by
  obtain ⟨⟨hmark, hcarried, hcleared⟩, htables, hoffset⟩ := id hw
  unfold Harmless at hguard
  unfold Worker.work
  cases hphase : w.phase with
  | idle => exact hw
  | mirroring p last =>
    have hlast : last ≤ w.db.read.watermark p := by simpa [hphase, Phase.carried] using hcarried p
    exact hw.mirror hlast (fun _ => rfl) rfl
  | clearing rest =>
    rw [hphase] at hcleared hguard
    cases rest with
    | cons name rest =>
      -- the table was empty, so nothing changes
      have hsame : update w.db.read.tables name (h.initial name) =
          w.db.read.tables := by
        rw [← hguard, update_eq_self]
      dsimp only
      rw [hsame]
      refine ⟨⟨hmark, fun _ => Nat.zero_le _, fun other hother => ?_⟩, htables, hoffset⟩
      by_cases hname : other = name
      · rw [hname]
        exact hguard
      · exact hcleared other fun hmem => hother (mem_of_ne_of_mem hname hmem)
    | nil =>
      refine ⟨⟨fun _ => Nat.zero_le _, fun _ => Nat.zero_le _, fun name hname => ?_⟩,
        fun name => ?_, fun p => Nat.le_of_eq (hguard p)⟩
      · exact absurd (mem_all name) hname
      · have hnone : (w.db.events.rows.filter fun r => r.id ≤ 0) = [] := by
          rw [filter_eq_nil_iff]
          intro r hr
          have hpos := (w.db.events.bounded r hr).1
          simp only [decide_eq_true_eq]
          omega
        change (w.db.events.rows.filter fun r => r.id ≤ 0).foldlM (h.handle name)
          (h.initial name) = .ok (w.db.read.tables name)
        rw [hnone, hcleared name not_mem_nil]
        rfl
  | resetting rest =>
    cases rest with
    | cons p rest =>
      refine ⟨⟨hmark, fun _ => Nat.zero_le _, fun name hname => absurd (mem_all name) hname⟩,
        htables, fun q => ?_⟩
      change (update w.db.offset p none q).getD 0 ≤ w.db.read.watermark q
      rw [update_apply]
      split_ifs
      · exact Nat.zero_le _
      · exact hoffset q
    | nil =>
      refine hw.goTo (fun p => ?_) rfl w.byRequest
      cases p <;> exact Nat.zero_le _
  | replaying offset =>
    rw [hphase] at hcarried
    refine hw.commitBatch (hcarried .ordinary) (fun n q => ?_) (fun _ => rfl)
      (hw.goTo (fun p => ?_) rfl w.byRequest)
    · cases q <;> exact Nat.le_refl _
    · cases p
      · exact hcarried .ordinary
      · exact Nat.zero_le _
  | mirroringRebuilt last =>
    rw [hphase] at hcarried
    dsimp only
    split_ifs
    · exact hw.mirror (hcarried .ordinary) (fun _ => rfl) rfl
    · exact hw.goTo (fun _ => Nat.zero_le _) rfl w.byRequest
  | catchingUp =>
    refine hw.commitBatch (hoffset .hierarchy) (fun n q => ?_) (fun _ => rfl)
      (hw.goTo (fun _ => Nat.zero_le _) rfl w.byRequest)
    cases q <;> exact Nat.le_refl _
  | mirroringCaughtUp last =>
    rw [hphase] at hcarried
    exact hw.mirror (hcarried .hierarchy) (fun _ => rfl) rfl
  | finishing =>
    exact ⟨⟨hmark, fun _ => Nat.zero_le _, fun name hname => absurd (mem_all name) hname⟩,
      htables, hoffset⟩

theorem Sound.step (hw : Sound h w) {step : WorkerStep} (hguard : Harmless h w step) :
    Sound h ((workerMachine h).call w step).1 := by
  cases step with
  | append event => exact hw.append event
  | request =>
    obtain ⟨⟨hmark, hcarried, hcleared⟩, htables, hoffset⟩ := hw
    exact ⟨⟨hmark, hcarried, hcleared⟩, htables, hoffset⟩
  | beginRebuild byRequest =>
    change Sound h (if _ then _ else w)
    split_ifs
    · exact hw.goTo (fun _ => Nat.zero_le _) rfl byRequest
    · exact hw
  | batch p limit =>
    change Sound h (if _ then _ else w)
    split_ifs
    · exact hw.commitBatch (hw.exactlyOnce.offset p) (fun _ _ => Nat.le_refl _) (fun _ => rfl)
        hw.idle
    · exact hw
  | work limit => exact hw.work hguard
  | fail => exact hw.idle

theorem Sound.not_exactlyOnce (hw : Sound h w) {step : WorkerStep}
    (hguard : ¬ Harmless h w step) : ¬ ExactlyOnce h ((workerMachine h).call w step).1.db := by
  cases step with
  | work limit =>
    intro hlaw
    apply hguard
    change ExactlyOnce h (w.work h limit).db at hlaw
    unfold Worker.work at hlaw
    unfold Harmless
    cases hphase : w.phase with
    | clearing rest =>
      rw [hphase] at hlaw
      cases rest with
      | cons name rest =>
        have hafter := hlaw.tables name
        have hbefore := hw.exactlyOnce.tables name
        change projected h w.db.events name (w.db.read.watermark name.owner) =
          .ok (update w.db.read.tables name (h.initial name) name) at hafter
        rw [update_self] at hafter
        exact Except.ok.inj (hbefore.symm.trans hafter)
      | nil => exact fun p => Nat.le_zero.1 (hlaw.offset p)
    | _ => trivial
  | _ => exact absurd trivial hguard

theorem sound_initial : Sound h (Worker.initial h) := by
  refine ⟨⟨fun _ => Nat.le_refl _, fun _ => Nat.zero_le _, fun _ _ => rfl⟩, fun _ => rfl,
    fun _ => Nat.le_refl _⟩

/-- In every run of the worker, through crashes, refused writes and rebuilds, all states satisfy
the law exactly when every statement of `clear_all` finds nothing to delete; and a batch whose
handlers fail changes nothing, as does any other failure. -/
theorem exactly_once_law (h : Handlers Content) (steps : List WorkerStep) :
    ((∀ before, before <+: steps →
        ExactlyOnce h ((workerMachine h).final (Worker.initial h) before).db) ↔
      (workerMachine h).Meets (Harmless h) (Worker.initial h) steps) ∧
    (∀ (w : Worker Content) (p : ProjectionName) (offset limit : ℕ) (next : ℕ → Phase)
        (done : Phase) (e : Unit),
      processBatch h p (getEventsSinceWithId w.db.events offset limit) w.db.read = .error e →
        (w.commitBatch h p offset limit next done).db = w.db) ∧
    ∀ w : Worker Content, ((workerMachine h).call w .fail).1.db = w.db := by
  refine ⟨?_, fun w p offset limit next done e hfails => ?_, fun _ => rfl⟩
  · exact (workerMachine h).forall_reached_iff_meets (I := Sound h)
      (P := fun w => ExactlyOnce h w.db) (fun _ hw => hw.exactlyOnce)
      (fun _ _ hw hguard => hw.step hguard) (fun _ _ hw hguard => hw.not_exactlyOnce hguard)
      sound_initial steps
  · simp only [Worker.commitBatch, hfails]
    split <;> first | rfl | contradiction

end Worker

def countEvents : Handlers ℕ where
  initial _ := 0
  handle _ count _ := .ok (count + 1)

def sampleEvent (n : ℕ) : DomainEvent where
  eventId := toString n
  eventType := "tick_completed"
  aggregateId := "world"
  payload := ""
  correlationId := ""
  causationId := none
  operationId := toString n
  tick := 0
  timestampMs := 0
  schemaVersion := 1
  compensationType := "none"

def countedOne : List WorkerStep := [.append (sampleEvent 1), .batch .ordinary 10, .work 10]

def requestedRun : List WorkerStep :=
  countedOne ++ [.request, .beginRebuild true, .work 10, .fail]

def commandRun : List WorkerStep :=
  countedOne ++ .beginRebuild false :: List.replicate 7 (.work 10) ++
    [.fail, .append (sampleEvent 2), .batch .ordinary 10]

def databasesAfter (steps : List WorkerStep) : Databases ℕ :=
  ((workerMachine countEvents).final (Worker.initial countEvents) steps).db

/-- A crash after the first `DELETE` that finds something, in a requested rebuild, leaves a
watermark of 1 and nothing counted. A crash after the watermarks are deleted, in a rebuild from
the command line, leaves the offset ahead, and the first event is never counted again. -/
theorem crash_in_clear_all :
    ((databasesAfter requestedRun).read.watermark .ordinary = 1 ∧
      (databasesAfter requestedRun).read.tables .kpi1m = 0 ∧
      projected countEvents (databasesAfter requestedRun).events .kpi1m 1 = .ok 1) ∧
    (databasesAfter commandRun).read.watermark .ordinary = 2 ∧
      (databasesAfter commandRun).read.tables .kpi1m = 1 ∧
      projected countEvents (databasesAfter commandRun).events .kpi1m 2 = .ok 2 :=
  ⟨⟨rfl, rfl, rfl⟩, rfl, rfl, rfl⟩

end Sentinel.Projection

import Mathlib.Tactic.Ring
import Sentinel.EventStore.SnapshotCodec
import Sentinel.Lib.Machine

/-! Tiered retention of world snapshots (`sentinel-daemon`, module `snapshot`). A maintenance run
reads the list of snapshots once and walks it three times; each visit promotes a snapshot to the
next tier, deletes it or leaves it. The machine makes one visit a call, so that what holds in every
state holds in the middle of a run. Clocks are integers of milliseconds since the epoch. -/

namespace Sentinel.EventStore.SnapshotRetention
open Lib List
open SnapshotCodec (SnapshotTier)

/-! ### Calendar periods -/

def msPerDay : ℤ := 86400000
def immutableSnapshotMs : ℤ := 7 * 86400 * 1000

def firstDay : ℤ := -96465292
def lastDay : ℤ := 95026236

/-- `utc_dt`: the days since the epoch; a time without a calendar date falls back to the epoch. -/
def utcDay (createdAtMs : ℤ) : ℤ :=
  let day := createdAtMs / msPerDay
  if firstDay ≤ day ∧ day ≤ lastDay then day else 0

/-- Days from the first of January of the year 1 to the epoch, counting from one. -/
def epochDayFromCe : ℤ := 719163

def calendarDayKey (createdAtMs : ℤ) : ℤ := utcDay createdAtMs + epochDayFromCe

/-- The epoch was a Thursday. -/
def daysFromMonday (day : ℤ) : ℤ := (day + 3) % 7

def calendarWeekKey (createdAtMs : ℤ) : ℤ :=
  let day := utcDay createdAtMs
  day - daysFromMonday day + epochDayFromCe

/-- Year and month of a day in the Gregorian calendar, computed in years that begin in March. -/
def yearMonth (day : ℤ) : ℤ × ℤ :=
  let shifted := day + 719468
  let era := shifted / 146097
  let dayOfEra := shifted % 146097
  let yearOfEra := (dayOfEra - dayOfEra / 1460 + dayOfEra / 36524 - dayOfEra / 146096) / 365
  let dayOfYear := dayOfEra - (365 * yearOfEra + yearOfEra / 4 - yearOfEra / 100)
  let month := ((5 * dayOfYear + 2) / 153 + 2) % 12 + 1
  (yearOfEra + era * 400 + (if month ≤ 2 then 1 else 0), month)

def calendarMonthKey (createdAtMs : ℤ) : ℤ × ℤ := yearMonth (utcDay createdAtMs)

example : calendarMonthKey 0 = (1970, 1) ∧ calendarMonthKey 951782400000 = (2000, 2) ∧
    calendarMonthKey (-1) = (1969, 12) := by decide

theorem month_bounds (day : ℤ) : 1 ≤ (yearMonth day).2 ∧ (yearMonth day).2 ≤ 12 := by
  simp only [yearMonth]
  omega

/-! ### Snapshots and passes -/

structure SnapshotMeta where
  id : String
  tier : SnapshotTier
  tick : ℕ
  createdAtMs : ℤ
deriving DecidableEq

structure RetentionConfig where
  dailyKeepHours : ℕ
  weeklyKeepDays : ℕ
  monthlyKeepWeeks : ℕ

inductive Pass where
  | daily
  | weekly
  | monthly
deriving DecidableEq

namespace Pass

def rank : Pass → ℕ
  | daily => 0
  | weekly => 1
  | monthly => 2

def source : Pass → SnapshotTier
  | daily => .hourly
  | weekly => .daily
  | monthly => .weekly

def target : Pass → SnapshotTier
  | daily => .daily
  | weekly => .weekly
  | monthly => .monthly

def cutoffMs (config : RetentionConfig) (nowMs : ℤ) : Pass → ℤ
  | daily => nowMs - config.dailyKeepHours * 3600 * 1000
  | weekly => nowMs - config.weeklyKeepDays * 86400 * 1000
  | monthly => nowMs - config.monthlyKeepWeeks * 7 * 86400 * 1000

def samePeriod (a b : ℤ) : Pass → Bool
  | daily => calendarDayKey a = calendarDayKey b
  | weekly => calendarWeekKey a = calendarWeekKey b
  | monthly => calendarMonthKey a = calendarMonthKey b

def period (p : Pass) (createdAtMs : ℤ) : ℕ × ℤ :=
  match p with
  | daily => (0, calendarDayKey createdAtMs)
  | weekly => (1, calendarWeekKey createdAtMs)
  | monthly =>
    let key := calendarMonthKey createdAtMs
    (2, key.1 * 100 + key.2)

theorem period_fst (p : Pass) (createdAtMs : ℤ) : (p.period createdAtMs).1 = p.rank := by
  cases p <;> rfl

variable {q : Pass}

theorem rank_injective {p : Pass} (h : p.rank = q.rank) : p = q := by
  cases p <;> cases q <;> first | rfl | cases h

theorem target_injective {p : Pass} (h : p.target = q.target) : p = q := by
  cases p <;> cases q <;> first | rfl | cases h

theorem source_injective {p : Pass} (h : p.source = q.source) : p = q := by
  cases p <;> cases q <;> first | rfl | cases h

theorem target_ne_source {p : Pass} (h : p.rank ≤ q.rank) : q.target ≠ p.source := by
  cases p <;> cases q <;> first | exact SnapshotTier.noConfusion | exact absurd h (by decide)

theorem period_eq_iff (p : Pass) (a b : ℤ) : p.period a = p.period b ↔ p.samePeriod a b := by
  cases p with
  | daily | weekly => simp [period, samePeriod]
  | monthly =>
    have ha := month_bounds (utcDay a)
    have hb := month_bounds (utcDay b)
    simp only [period, samePeriod, calendarMonthKey, true_and, decide_eq_true_eq,
      Prod.ext_iff]
    omega

end Pass

structure MaintenanceReport where
  promoted : ℕ
  deleted : ℕ
  keptProtected : ℕ
  deleteBlockedYoung : ℕ

structure Run where
  config : RetentionConfig
  nowMs : ℤ
  listing : List SnapshotMeta
  promotedPeriods : List (ℕ × ℤ)
  report : MaintenanceReport
  todo : List (Pass × SnapshotMeta)

structure State where
  rows : List SnapshotMeta
  run : Option Run

inductive DeleteOutcome where
  | removed
  | refused
  | blocked
  | failed

def promoteWorldSnapshot (rows : List SnapshotMeta) (id : String) (tier : SnapshotTier) :
    List SnapshotMeta :=
  rows.map fun row => if row.id = id then { row with tier } else row

def deleteWorldSnapshot (rows : List SnapshotMeta) (id : String) : List SnapshotMeta :=
  rows.filter fun row => row.id ≠ id

def hasSnapshotFor (p : Pass) (listing : List SnapshotMeta) (createdAtMs : ℤ) : Bool :=
  listing.any fun s => s.tier = p.target && p.samePeriod s.createdAtMs createdAtMs

def isPastImmutabilityWindow (nowMs createdAtMs : ℤ) : Bool :=
  immutableSnapshotMs ≤ nowMs - createdAtMs

def deleteRedundant (rows : List SnapshotMeta) (r : Run) (snap : SnapshotMeta)
    (outcome : DeleteOutcome) : State :=
  if isPastImmutabilityWindow r.nowMs snap.createdAtMs then
    match outcome with
    | .removed =>
      ⟨deleteWorldSnapshot rows snap.id, some { r with report.deleted := r.report.deleted + 1 }⟩
    | .refused => ⟨rows, some r⟩
    | .blocked =>
      ⟨rows, some { r with report.deleteBlockedYoung := r.report.deleteBlockedYoung + 1 }⟩
    -- the error ends the run where it stands
    | .failed => ⟨rows, none⟩
  else ⟨rows, some { r with report.keptProtected := r.report.keptProtected + 1 }⟩

def visit (rows : List SnapshotMeta) (r : Run) (p : Pass) (snap : SnapshotMeta) (promotes : Bool)
    (deletes : DeleteOutcome) : State :=
  if snap.tier = p.source ∧ snap.createdAtMs < p.cutoffMs r.config r.nowMs then
    if ¬ hasSnapshotFor p r.listing snap.createdAtMs ∧
        p.period snap.createdAtMs ∉ r.promotedPeriods then
      if promotes then
        ⟨promoteWorldSnapshot rows snap.id p.target,
          some { r with
            report.promoted := r.report.promoted + 1
            promotedPeriods := p.period snap.createdAtMs :: r.promotedPeriods }⟩
      else ⟨rows, some r⟩
    else deleteRedundant rows r snap deletes
  else ⟨rows, some r⟩

inductive Call where
  /-- `create_and_store` at a clock value. -/
  | create (id : String) (tick : ℕ) (nowMs : ℤ)
  /-- The start of `maintain`, with the list it was given. -/
  | begin (config : RetentionConfig) (nowMs : ℤ) (listing : List SnapshotMeta)
  /-- The next visit of the run; the promotion and the deletion end as the store answers. -/
  | visitNext (promotes : Bool) (deletes : DeleteOutcome)
  /-- The daemon starts again, whatever it was doing. -/
  | restart

def State.empty : State := ⟨[], none⟩

/-- Creating a snapshot and maintaining them both take the manager, so neither happens inside a
run. -/
def State.call (s : State) : Call → State
  | .create id tick nowMs =>
    if s.run.isSome ∨ id ∈ s.rows.map (·.id) then s
    else { s with rows := s.rows ++ [⟨id, .hourly, tick, nowMs⟩] }
  | .begin config nowMs listing =>
    if s.run.isSome then s
    else
      { s with
        run := some ⟨config, nowMs, listing, [], ⟨0, 0, 0, 0⟩,
          [Pass.daily, .weekly, .monthly].flatMap fun p => listing.map fun snap => (p, snap)⟩ }
  | .visitNext promotes deletes =>
    match s.run with
    | none => s
    | some r =>
      match r.todo with
      | [] => { s with run := none }
      | (p, snap) :: rest => visit s.rows { r with todo := rest } p snap promotes deletes
  | .restart => { s with run := none }

def machine : Machine State Call Unit where
  call s c := (s.call c, ())

def Lists (s : State) : Call → Prop
  | .begin _ _ listing => listing.Perm s.rows ∧ listing.Pairwise fun a b => b.tick ≤ a.tick
  | _ => True

/-! ### The invariant -/

def OneKeeper (rows : List SnapshotMeta) : Prop :=
  ∀ (p : Pass), ∀ a ∈ rows, ∀ b ∈ rows, a.tier = p.target → b.tier = p.target →
    p.samePeriod a.createdAtMs b.createdAtMs → a = b

/-- What a run that goes stale still knows. As long as a pass has visits to make, the keepers it
saw in the list stand in the table, the periods it remembers have keepers, and it knows every
keeper there is. -/
structure InRun (rows : List SnapshotMeta) (r : Run) : Prop where
  order : r.todo.Pairwise fun a b => a.1.rank ≤ b.1.rank
  once : r.todo.Nodup
  listed : ∀ e ∈ r.todo, e.2 ∈ r.listing
  distinct : ∀ a ∈ r.listing, ∀ b ∈ r.listing, a.id = b.id → a = b
  pending : ∀ e ∈ r.todo, e.2.tier = e.1.source → e.2 ∈ rows
  keepers : ∀ e ∈ r.todo, ∀ s ∈ r.listing, s.tier = e.1.target → s ∈ rows
  remembered : ∀ e ∈ r.todo, ∀ key ∈ r.promotedPeriods, key.1 = e.1.rank →
    ∃ row ∈ rows, row.tier = e.1.target ∧ e.1.period row.createdAtMs = key
  known : ∀ e ∈ r.todo, ∀ row ∈ rows, row.tier = e.1.target →
    row ∈ r.listing ∨ e.1.period row.createdAtMs ∈ r.promotedPeriods

structure Inv (s : State) : Prop where
  ids : ∀ a ∈ s.rows, ∀ b ∈ s.rows, a.id = b.id → a = b
  nodup : s.rows.Nodup
  one : OneKeeper s.rows
  run : ∀ r, s.run = some r → InRun s.rows r

variable {rows : List SnapshotMeta} {r : Run} {p : Pass} {snap : SnapshotMeta}
  {rest : List (Pass × SnapshotMeta)}

theorem Inv.of_run (hids : ∀ a ∈ rows, ∀ b ∈ rows, a.id = b.id → a = b) (hnodup : rows.Nodup)
    (hone : OneKeeper rows) (hrun : InRun rows r) : Inv ⟨rows, some r⟩ :=
  ⟨hids, hnodup, hone, fun _ hr => Option.some.inj hr ▸ hrun⟩

theorem InRun.tail (h : InRun rows { r with todo := (p, snap) :: rest }) :
    InRun rows { r with todo := rest } where
  order := (pairwise_cons.1 h.order).2
  once := (nodup_cons.1 h.once).2
  listed e he := h.listed e (mem_cons_of_mem _ he)
  distinct := h.distinct
  pending e he := h.pending e (mem_cons_of_mem _ he)
  keepers e he := h.keepers e (mem_cons_of_mem _ he)
  remembered e he := h.remembered e (mem_cons_of_mem _ he)
  known e he := h.known e (mem_cons_of_mem _ he)

section
variable (h : InRun rows { r with todo := (p, snap) :: rest }) (hsource : snap.tier = p.source)
include h hsource

theorem InRun.id_ne_of_target {e : Pass × SnapshotMeta} (he : e ∈ rest) {s : SnapshotMeta}
    (htier : s.tier = e.1.target) (hsame : s.id = snap.id → s = snap) : s.id ≠ snap.id := by
  intro hid
  have hrank : p.rank ≤ e.1.rank := (pairwise_cons.1 h.order).1 e he
  have hsnap : snap.tier = e.1.target := hsame hid ▸ htier
  exact Pass.target_ne_source hrank (hsnap.symm.trans hsource)

theorem InRun.id_ne_of_pending {e : Pass × SnapshotMeta} (he : e ∈ rest)
    (htier : e.2.tier = e.1.source) : e.2.id ≠ snap.id := by
  intro hid
  have hsame : e.2 = snap := h.distinct _ (h.listed e (mem_cons_of_mem _ he)) _
    (h.listed _ mem_cons_self) hid
  have hpass : e.1 = p := Pass.source_injective (by rw [← htier, hsame, hsource])
  have heq : e = (p, snap) := Prod.ext hpass hsame
  exact (nodup_cons.1 h.once).1 (heq ▸ he)

theorem InRun.tail_of_kept (hids : ∀ a ∈ rows, ∀ b ∈ rows, a.id = b.id → a = b)
    {rows' : List SnapshotMeta} {periods : List (ℕ × ℤ)}
    (hkept : ∀ row ∈ rows, row.id ≠ snap.id → row ∈ rows')
    (hperiods : ∀ e ∈ rest, ∀ key ∈ periods, key.1 = e.1.rank → key ∈ r.promotedPeriods ∨
      ∃ row ∈ rows', row.tier = e.1.target ∧ e.1.period row.createdAtMs = key)
    (hknown : ∀ e ∈ rest, ∀ row ∈ rows', row.tier = e.1.target →
      row ∈ rows ∨ e.1.period row.createdAtMs ∈ periods)
    (hgrow : r.promotedPeriods ⊆ periods) {report : MaintenanceReport} :
    InRun rows' { r with todo := rest, promotedPeriods := periods, report := report } where
  order := (pairwise_cons.1 h.order).2
  once := (nodup_cons.1 h.once).2
  listed e he := h.listed e (mem_cons_of_mem _ he)
  distinct := h.distinct
  pending e he htier := hkept _ (h.pending e (mem_cons_of_mem _ he) htier)
    (h.id_ne_of_pending hsource he htier)
  keepers e he s hs htier := by
    have hrow : s ∈ rows := h.keepers e (mem_cons_of_mem _ he) s hs htier
    exact hkept s hrow (h.id_ne_of_target hsource he htier
      (h.distinct s hs snap (h.listed _ mem_cons_self)))
  remembered e he key hkey hrank := by
    rcases hperiods e he key hkey hrank with hold | hnew
    · obtain ⟨row, hrow, htier, hperiod⟩ :=
        h.remembered e (mem_cons_of_mem _ he) key hold hrank
      refine ⟨row, hkept row hrow ?_, htier, hperiod⟩
      exact h.id_ne_of_target hsource he htier
        (hids row hrow snap (h.pending _ mem_cons_self hsource))
    · exact hnew
  known e he row hrow htier := by
    rcases hknown e he row hrow htier with hold | hnew
    · exact (h.known e (mem_cons_of_mem _ he) row hold htier).imp_right fun hk => hgrow hk
    · exact .inr hnew

end

/-! ### Promotions and deletions -/

variable {s : State} {id : String}

theorem mem_promote {tier : SnapshotTier} {row : SnapshotMeta} :
    row ∈ promoteWorldSnapshot rows id tier ↔
      (row ∈ rows ∧ row.id ≠ id) ∨ ∃ old ∈ rows, old.id = id ∧ row = { old with tier } := by
  simp only [promoteWorldSnapshot, mem_map]
  constructor
  · rintro ⟨old, hold, rfl⟩
    split_ifs with hid
    · exact .inr ⟨old, hold, hid, rfl⟩
    · exact .inl ⟨hold, hid⟩
  · rintro (⟨hrow, hid⟩ | ⟨old, hold, hid, rfl⟩)
    · exact ⟨row, hrow, if_neg hid⟩
    · exact ⟨old, hold, if_pos hid⟩

theorem mem_delete {row : SnapshotMeta} :
    row ∈ deleteWorldSnapshot rows id ↔ row ∈ rows ∧ row.id ≠ id := by
  simp [deleteWorldSnapshot]

theorem ids_promote (hids : ∀ a ∈ rows, ∀ b ∈ rows, a.id = b.id → a = b) {tier : SnapshotTier} :
    ∀ a ∈ promoteWorldSnapshot rows id tier, ∀ b ∈ promoteWorldSnapshot rows id tier,
      a.id = b.id → a = b := by
  intro a ha b hb hab
  rcases mem_promote.1 ha with ⟨ha, hne⟩ | ⟨old, hold, hid, rfl⟩
  · rcases mem_promote.1 hb with ⟨hb, -⟩ | ⟨old, -, hid, rfl⟩
    · exact hids a ha b hb hab
    · exact absurd (hab.trans hid) hne
  · rcases mem_promote.1 hb with ⟨-, hne⟩ | ⟨old', hold', hid', rfl⟩
    · exact absurd (hab.symm.trans hid) hne
    · rw [hids old hold old' hold' (hid.trans hid'.symm)]

theorem nodup_promote (hids : ∀ a ∈ rows, ∀ b ∈ rows, a.id = b.id → a = b) (hnodup : rows.Nodup)
    {tier : SnapshotTier} : (promoteWorldSnapshot rows id tier).Nodup := by
  refine hnodup.map_on fun a ha b hb hab => hids a ha b hb ?_
  have hid : ∀ row : SnapshotMeta,
      (if row.id = id then { row with tier } else row).id = row.id := by
    intro row
    split_ifs <;> rfl
  rw [← hid a, ← hid b, hab]

theorem oneKeeper_promote (hids : ∀ a ∈ rows, ∀ b ∈ rows, a.id = b.id → a = b)
    (hone : OneKeeper rows) (hsnap : snap ∈ rows)
    (hfree : ∀ row ∈ rows, row.tier = p.target →
      ¬ p.samePeriod row.createdAtMs snap.createdAtMs) :
    OneKeeper (promoteWorldSnapshot rows snap.id p.target) := by
  intro q a ha b hb hatier hbtier hperiod
  have hsym : q.samePeriod b.createdAtMs a.createdAtMs :=
    (q.period_eq_iff _ _).1 ((q.period_eq_iff _ _).2 hperiod).symm
  rcases mem_promote.1 ha with ⟨ha', -⟩ | ⟨old, hold, hid, rfl⟩
  · rcases mem_promote.1 hb with ⟨hb', -⟩ | ⟨old, hold, hid, rfl⟩
    · exact hone q a ha' b hb' hatier hbtier hperiod
    · obtain rfl : p = q := Pass.target_injective hbtier
      obtain rfl := hids old hold snap hsnap hid
      exact absurd hperiod (hfree a ha' hatier)
  · obtain rfl : p = q := Pass.target_injective hatier
    obtain rfl := hids old hold snap hsnap hid
    rcases mem_promote.1 hb with ⟨hb', -⟩ | ⟨old', hold', hid', rfl⟩
    · exact absurd hsym (hfree b hb' hbtier)
    · rw [hids old' hold' old hold hid']

theorem InRun.exists_keeper (h : InRun rows { r with todo := (p, snap) :: rest })
    (htaken : ¬ (¬ hasSnapshotFor p r.listing snap.createdAtMs ∧
      p.period snap.createdAtMs ∉ r.promotedPeriods)) :
    ∃ keeper ∈ rows, keeper.tier = p.target ∧
      p.samePeriod keeper.createdAtMs snap.createdAtMs := by
  by_cases hlisted : hasSnapshotFor p r.listing snap.createdAtMs
  · obtain ⟨s, hs, hkeeper⟩ := any_eq_true.1 hlisted
    rw [Bool.and_eq_true, decide_eq_true_eq] at hkeeper
    exact ⟨s, h.keepers _ mem_cons_self s hs hkeeper.1, hkeeper.1, hkeeper.2⟩
  · have hremembered : p.period snap.createdAtMs ∈ r.promotedPeriods := by
      by_contra hnot
      exact htaken ⟨hlisted, hnot⟩
    obtain ⟨row, hrow, htier, hperiod⟩ :=
      h.remembered _ mem_cons_self _ hremembered (p.period_fst _)
    exact ⟨row, hrow, htier, (p.period_eq_iff _ _).1 hperiod⟩

theorem InRun.no_keeper (h : InRun rows { r with todo := (p, snap) :: rest })
    (hfree : ¬ hasSnapshotFor p r.listing snap.createdAtMs ∧
      p.period snap.createdAtMs ∉ r.promotedPeriods) :
    ∀ row ∈ rows, row.tier = p.target → ¬ p.samePeriod row.createdAtMs snap.createdAtMs := by
  intro row hrow htier hperiod
  rcases h.known _ mem_cons_self row hrow htier with hlisted | hremembered
  · refine hfree.1 (any_eq_true.2 ⟨row, hlisted, ?_⟩)
    rw [Bool.and_eq_true, decide_eq_true_eq]
    exact ⟨htier, hperiod⟩
  · exact hfree.2 ((p.period_eq_iff _ _).2 hperiod ▸ hremembered)

/-! ### One call -/

theorem Inv.promote (hs : Inv s) (h : InRun s.rows { r with todo := (p, snap) :: rest })
    (hsource : snap.tier = p.source) (hfree : ¬ hasSnapshotFor p r.listing snap.createdAtMs ∧
      p.period snap.createdAtMs ∉ r.promotedPeriods) (report : MaintenanceReport) :
    Inv ⟨promoteWorldSnapshot s.rows snap.id p.target,
      some { r with
        todo := rest, report := report
        promotedPeriods := p.period snap.createdAtMs :: r.promotedPeriods }⟩ := by
  have hsnap : snap ∈ s.rows := h.pending _ mem_cons_self hsource
  have hnew : { snap with tier := p.target } ∈ promoteWorldSnapshot s.rows snap.id p.target :=
    mem_promote.2 (.inr ⟨snap, hsnap, rfl, rfl⟩)
  apply Inv.of_run (ids_promote hs.ids) (nodup_promote hs.ids hs.nodup)
    (oneKeeper_promote hs.ids hs.one hsnap (h.no_keeper hfree))
  refine h.tail_of_kept hsource hs.ids (fun row hrow hid => mem_promote.2 (.inl ⟨hrow, hid⟩))
    ?_ ?_ (subset_cons_self _ _)
  · intro e he key hkey hrank
    rcases mem_cons.1 hkey with rfl | hold
    · have hpass : e.1 = p := Pass.rank_injective (hrank.symm.trans (p.period_fst _))
      exact .inr ⟨_, hnew, by rw [hpass], by rw [hpass]⟩
    · exact .inl hold
  · intro e he row hrow htier
    rcases mem_promote.1 hrow with ⟨hold, -⟩ | ⟨old, hold, hid, rfl⟩
    · exact .inl hold
    · have hpass : p = e.1 := Pass.target_injective htier
      rw [hs.ids old hold snap hsnap hid, ← hpass]
      exact .inr mem_cons_self

theorem Inv.delete (hs : Inv s) (h : InRun s.rows { r with todo := (p, snap) :: rest })
    (hsource : snap.tier = p.source) (report : MaintenanceReport) :
    Inv ⟨deleteWorldSnapshot s.rows snap.id, some { r with todo := rest, report := report }⟩ := by
  have hsub : ∀ row ∈ deleteWorldSnapshot s.rows snap.id, row ∈ s.rows :=
    fun row hrow => (mem_delete.1 hrow).1
  apply Inv.of_run (fun a ha b hb => hs.ids a (hsub a ha) b (hsub b hb)) (hs.nodup.filter _)
    (fun q a ha b hb => hs.one q a (hsub a ha) b (hsub b hb))
  exact h.tail_of_kept hsource hs.ids (fun row hrow hid => mem_delete.2 ⟨hrow, hid⟩)
    (fun e he key hkey _ => .inl hkey) (fun e he row hrow _ => .inl (hsub row hrow))
    (List.Subset.refl _)

theorem Inv.without_run (hs : Inv s) : Inv { s with run := none } :=
  ⟨hs.ids, hs.nodup, hs.one, fun _ hr => nomatch hr⟩

theorem Inv.move (hs : Inv s) (h : InRun s.rows { r with todo := (p, snap) :: rest })
    (report : MaintenanceReport) : Inv ⟨s.rows, some { r with todo := rest, report := report }⟩ :=
  Inv.of_run hs.ids hs.nodup hs.one { h.tail with }

theorem Inv.visit (hs : Inv s) (h : InRun s.rows { r with todo := (p, snap) :: rest })
    (promotes : Bool) (deletes : DeleteOutcome) :
    Inv (SnapshotRetention.visit s.rows { r with todo := rest } p snap promotes deletes) := by
  unfold SnapshotRetention.visit
  split_ifs with hdue hfree hpromotes
  · exact hs.promote h hdue.1 hfree _
  · exact hs.move h _
  · unfold deleteRedundant
    split_ifs
    · cases deletes with
      | removed => exact hs.delete h hdue.1 _
      | refused => exact hs.move h _
      | blocked => exact hs.move h _
      | failed => exact hs.without_run
    · exact hs.move h _
  · exact hs.move h _

theorem Inv.create (hs : Inv s) (hrun : s.run = none) (hid : id ∉ s.rows.map (·.id)) (tick : ℕ)
    (nowMs : ℤ) : Inv { s with rows := s.rows ++ [⟨id, .hourly, tick, nowMs⟩] } := by
  have hfresh : ∀ row ∈ s.rows, row.id ≠ id :=
    fun row hrow heq => hid (mem_map.2 ⟨row, hrow, heq⟩)
  refine ⟨?_, ?_, ?_, fun r hr => ?_⟩
  · intro a ha b hb hab
    rcases mem_append.1 ha with ha | ha <;> rcases mem_append.1 hb with hb | hb
    · exact hs.ids a ha b hb hab
    · rw [mem_singleton.1 hb] at hab
      exact absurd hab (hfresh a ha)
    · rw [mem_singleton.1 ha] at hab
      exact absurd hab.symm (hfresh b hb)
    · rw [mem_singleton.1 ha, mem_singleton.1 hb]
  · refine nodup_append.2 ⟨hs.nodup, nodup_singleton _, ?_⟩
    rintro a ha b hb rfl
    rw [mem_singleton.1 hb] at ha
    exact hfresh _ ha rfl
  · -- a new snapshot is hourly, so it is nobody's keeper
    intro q a ha b hb hatier hbtier hperiod
    have hold : ∀ row ∈ s.rows ++ [⟨id, .hourly, tick, nowMs⟩], row.tier = q.target →
        row ∈ s.rows := by
      intro row hrow htier
      rcases mem_append.1 hrow with hrow | hrow
      · exact hrow
      · rw [mem_singleton.1 hrow] at htier
        cases q <;> cases htier
    exact hs.one q a (hold a ha hatier) b (hold b hb hbtier) hatier hbtier hperiod
  · exact absurd (hrun.symm.trans hr) (Option.some_ne_none r).symm

theorem Inv.begin (hs : Inv s) {config : RetentionConfig} {nowMs : ℤ}
    {listing : List SnapshotMeta} (hlisting : listing.Perm s.rows) :
    Inv { s with
      run := some ⟨config, nowMs, listing, [], ⟨0, 0, 0, 0⟩,
        [Pass.daily, .weekly, .monthly].flatMap fun p => listing.map fun snap => (p, snap)⟩ } := by
  have hmem : ∀ row, row ∈ listing ↔ row ∈ s.rows := fun row => hlisting.mem_iff
  have hnodup : listing.Nodup := hlisting.nodup_iff.2 hs.nodup
  have htodo : ∀ e : Pass × SnapshotMeta, e ∈ ([Pass.daily, .weekly, .monthly].flatMap fun p =>
      listing.map fun snap => (p, snap)) → e.2 ∈ listing := by
    intro e he
    obtain ⟨p, -, he⟩ := mem_flatMap.1 he
    obtain ⟨snap, hsnap, rfl⟩ := mem_map.1 he
    exact hsnap
  apply Inv.of_run hs.ids hs.nodup hs.one
  refine ⟨?_, ?_, htodo, ?_, ?_, ?_, ?_, ?_⟩
  · simp only [flatMap_cons, flatMap_nil, append_nil, pairwise_append,
      pairwise_map, mem_append, mem_map]
    refine ⟨?_, ⟨?_, ?_, ?_⟩, ?_⟩
    · exact pairwise_of_forall fun _ _ => le_rfl
    · exact pairwise_of_forall fun _ _ => le_rfl
    · exact pairwise_of_forall fun _ _ => le_rfl
    · rintro _ ⟨a, -, rfl⟩ _ ⟨b, -, rfl⟩
      simp [Pass.rank]
    · rintro _ ⟨a, -, rfl⟩ _ (⟨b, -, rfl⟩ | ⟨b, -, rfl⟩) <;> simp [Pass.rank]
  · refine nodup_flatMap.2 ⟨fun p _ => hnodup.map fun a b hab => (Prod.mk.inj hab).2, ?_⟩
    refine List.Pairwise.imp ?_ (show [Pass.daily, .weekly, .monthly].Nodup by decide)
    intro p q hpq e hp hq
    obtain ⟨a, -, rfl⟩ := mem_map.1 hp
    obtain ⟨b, -, hb⟩ := mem_map.1 hq
    exact hpq (Prod.mk.inj hb).1.symm
  · intro a ha b hb
    exact hs.ids a ((hmem a).1 ha) b ((hmem b).1 hb)
  · exact fun e he _ => (hmem _).1 (htodo e he)
  · exact fun e _ s hs _ => (hmem s).1 hs
  · exact fun e _ key hkey => absurd hkey not_mem_nil
  · exact fun e _ row hrow _ => .inl ((hmem row).2 hrow)

theorem Inv.call (hs : Inv s) {c : Call} (hc : Lists s c) : Inv (s.call c) := by
  cases c with
  | create id tick nowMs =>
    simp only [State.call]
    split_ifs with hrefused
    · exact hs
    · obtain ⟨hrun, hid⟩ := not_or.1 hrefused
      exact hs.create (by simpa using hrun) hid tick nowMs
  | begin config nowMs listing =>
    simp only [State.call]
    split_ifs
    · exact hs
    · exact hs.begin hc.1
  | visitNext promotes deletes =>
    simp only [State.call]
    split
    · exact hs
    · next r hr =>
      split
      · exact hs.without_run
      · next p snap rest htodo =>
        have hrun := hs.run r hr
        have heq : r = { r with todo := (p, snap) :: rest } := by rw [← htodo]
        rw [heq] at hrun
        exact hs.visit hrun promotes deletes
  | restart => exact hs.without_run

theorem visit_deletes (hs : Inv s) (h : InRun s.rows { r with todo := (p, snap) :: rest })
    (promotes : Bool) (deletes : DeleteOutcome) {gone : SnapshotMeta} (hgone : gone ∈ s.rows)
    (hafter : ∀ row ∈ (visit s.rows { r with todo := rest } p snap promotes deletes).rows,
      row.id ≠ gone.id) :
    immutableSnapshotMs ≤ r.nowMs - gone.createdAtMs ∧ gone.tier = p.source ∧
      ∃ keeper ∈ s.rows,
        keeper ∈ (visit s.rows { r with todo := rest } p snap promotes deletes).rows ∧
        keeper.tier = p.target ∧ p.samePeriod keeper.createdAtMs gone.createdAtMs := by
  unfold visit at hafter ⊢
  split_ifs at hafter ⊢ with hdue hfree hpromotes
  · -- a promotion keeps every id
    by_cases hid : gone.id = snap.id
    · exact absurd rfl
        (hafter { gone with tier := p.target } (mem_promote.2 (.inr ⟨gone, hgone, hid, rfl⟩)))
    · exact absurd rfl (hafter _ (mem_promote.2 (.inl ⟨hgone, hid⟩)))
  · exact absurd rfl (hafter _ hgone)
  · unfold deleteRedundant at hafter ⊢
    split_ifs at hafter ⊢ with hold
    · cases deletes with
      | removed =>
        have hid : gone.id = snap.id := by
          by_contra hne
          exact hafter _ (mem_delete.2 ⟨hgone, hne⟩) rfl
        have hsnap : snap ∈ s.rows := h.pending _ mem_cons_self hdue.1
        obtain rfl := hs.ids gone hgone snap hsnap hid
        obtain ⟨keeper, hkeeper, htier, hperiod⟩ := h.exists_keeper hfree
        refine ⟨of_decide_eq_true hold, hdue.1, keeper, hkeeper,
          mem_delete.2 ⟨hkeeper, fun heq => ?_⟩, htier, hperiod⟩
        have hsame := hs.ids keeper hkeeper gone hgone heq
        rw [hsame] at htier
        exact Pass.target_ne_source (le_refl p.rank) (htier.symm.trans hdue.1)
      | refused => exact absurd rfl (hafter _ hgone)
      | blocked => exact absurd rfl (hafter _ hgone)
      | failed => exact absurd rfl (hafter _ hgone)
    · exact absurd rfl (hafter _ hgone)
  · exact absurd rfl (hafter _ hgone)

/-- **Tiered retention.** In every state that creations, maintenance runs at any clock and with any
settings, failing promotions and deletions and restarts reach from an empty table, also in the
middle of a run, there is at most one daily keeper in a day, one weekly in a week and one monthly
in a month. What the next call deletes has left the immutability window, and a keeper of the next
tier for its period stands in the table before and after. -/
theorem tiered_retention {calls : List Call} (h : machine.Meets Lists State.empty calls) :
    let s := machine.final State.empty calls
    (∀ p : Pass, ∀ a ∈ s.rows, ∀ b ∈ s.rows, a.tier = p.target → b.tier = p.target →
      p.samePeriod a.createdAtMs b.createdAtMs → a = b) ∧
    ∀ c, Lists s c → ∀ gone ∈ s.rows, (∀ row ∈ (s.call c).rows, row.id ≠ gone.id) →
      ∃ r, s.run = some r ∧ immutableSnapshotMs ≤ r.nowMs - gone.createdAtMs ∧
        ∃ p : Pass, gone.tier = p.source ∧ ∃ keeper ∈ s.rows, keeper ∈ (s.call c).rows ∧
          keeper.tier = p.target ∧ p.samePeriod keeper.createdAtMs gone.createdAtMs := by
  intro s
  have hempty : Inv State.empty :=
    ⟨fun a ha => absurd ha not_mem_nil, nodup_nil, fun p a ha => absurd ha not_mem_nil,
      fun _ hr => nomatch hr⟩
  have hs : Inv s := machine.final_invariant (fun s c hs hc => hs.call hc) hempty h
  refine ⟨hs.one, ?_⟩
  intro c hc gone hgone hafter
  cases c with
  | create id tick nowMs =>
    simp only [State.call] at hafter
    split_ifs at hafter
    · exact absurd rfl (hafter gone hgone)
    · exact absurd rfl (hafter gone (mem_append_left _ hgone))
  | begin config nowMs listing =>
    simp only [State.call] at hafter
    split_ifs at hafter
    · exact absurd rfl (hafter gone hgone)
    · exact absurd rfl (hafter gone hgone)
  | visitNext promotes deletes =>
    cases hrun : s.run with
    | none =>
      simp only [State.call, hrun] at hafter
      exact absurd rfl (hafter gone hgone)
    | some r =>
      cases htodo : r.todo with
      | nil =>
        simp only [State.call, hrun, htodo] at hafter
        exact absurd rfl (hafter gone hgone)
      | cons e rest =>
        obtain ⟨p, snap⟩ := e
        have hin := hs.run r hrun
        have heq : r = { r with todo := (p, snap) :: rest } := by rw [← htodo]
        rw [heq] at hin
        simp only [State.call, hrun, htodo] at hafter ⊢
        obtain ⟨hage, htier, hkeeper⟩ := visit_deletes hs hin promotes deletes hgone hafter
        exact ⟨r, rfl, hage, p, htier, hkeeper⟩
  | restart => exact absurd rfl (hafter gone hgone)

/-! ### A run -/

def sampleCalls : List Call :=
  [.create "snap-1" 1 0, .create "snap-2" 2 60000,
    .begin ⟨24, 7, 4⟩ (30 * msPerDay) [⟨"snap-2", .hourly, 2, 60000⟩, ⟨"snap-1", .hourly, 1, 0⟩],
    .visitNext true .removed]

/-- The earlier snapshot is deleted next, and the later one is the daily keeper of its day. -/
theorem sampleCalls_retained :
    let s := machine.final State.empty sampleCalls
    (s.call (.visitNext true .removed)).rows = [⟨"snap-2", .daily, 2, 60000⟩] ∧
      ∃ r, s.run = some r ∧ immutableSnapshotMs ≤ r.nowMs - 0 ∧
        ∃ p : Pass, SnapshotTier.hourly = p.source ∧ ∃ keeper ∈ s.rows,
          keeper ∈ (s.call (.visitNext true .removed)).rows ∧ keeper.tier = p.target ∧
          p.samePeriod keeper.createdAtMs 0 := by
  intro s
  have hmeets : machine.Meets Lists State.empty sampleCalls :=
    ⟨trivial, trivial, ⟨by decide, by decide⟩, trivial, trivial⟩
  have hrows : (s.call (.visitNext true .removed)).rows = [⟨"snap-2", .daily, 2, 60000⟩] := by
    decide
  refine ⟨hrows, (tiered_retention hmeets).2 (.visitNext true .removed) trivial
    ⟨"snap-1", .hourly, 1, 0⟩ (by decide) ?_⟩
  intro row hrow
  rw [show row = _ from mem_singleton.1 (hrows ▸ hrow)]
  decide

end Sentinel.EventStore.SnapshotRetention

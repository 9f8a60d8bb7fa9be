import Sentinel.Lib.Table
import Sentinel.Lib.Text

/-! The learned API patterns in the state store (`sentinel-redb`): a snapshot is written as rows
of one table under text keys and read back from them. The JSON texts of the values are a
parameter; nothing is assumed of them but that the values of the snapshot are read as they were
written. -/

namespace Sentinel.Redb
open Lib List

structure ApiCpPatternSnapshot where
  agentId : String
  fingerprint : String
  count : ℕ
  responseHashes : Table ℕ ℕ
  topHash : ℕ
  topContent : String
  confidence : Float
  lastSeen : String
  promoted : Bool

structure ApiCpSnapshot where
  patterns : List ApiCpPatternSnapshot
  synthCount : ℤ
  lastEvolutionVersions : Table String String

structure Codec (α Bytes : Type) where
  encode : α → Bytes
  decode : Bytes → Option α

class Serde (Bytes : Type) where
  synthCount : Codec ℤ Bytes
  version : Codec String Bytes
  pattern : Codec ApiCpPatternSnapshot Bytes
  snapshot : Bytes → Option ApiCpSnapshot

def legacySnapshotKey : String := "snapshot"
def metaSynthCountKey : String := "meta:synth_count"
def metaEvolutionPrefix : String := "meta:evolution:"
def patternPrefix : String := "pattern:"

def startsWith (start key : String) : Bool := start.toList.isPrefixOf key.toList

/-- `trim_start_matches` takes the text away as often as it is there. -/
def dropRepeated (start key : List Char) : List Char :=
  if start ≠ [] ∧ start.isPrefixOf key then dropRepeated start (key.drop start.length) else key
termination_by key.length
decreasing_by
  rename_i h
  have hstart := length_pos_of_ne_nil h.1
  have hkey := (List.isPrefixOf_iff_prefix.1 h.2).length_le
  rw [length_drop]
  omega

def trimStartMatches (start key : String) : String :=
  String.ofList (dropRepeated start.toList key.toList)

def PatternLe (a b : ApiCpPatternSnapshot) : Prop :=
  if a.agentId = b.agentId then a.fingerprint ≤ b.fingerprint else a.agentId ≤ b.agentId

instance : DecidableRel PatternLe := fun a b =>
  inferInstanceAs (Decidable (if a.agentId = b.agentId then _ else _))

theorem append_ne {p q : String} {n : ℕ} {x y : Char} (hp : p.toList[n]? = some x)
    (hq : q.toList[n]? = some y) (hne : x ≠ y) (a : String) : p ++ a ≠ q := by
  have h := append_ne_append hp hq hne a ""
  rwa [String.append_empty] at h

theorem append_injective (start : String) : Function.Injective (start ++ ·) := by
  intro a b h
  have hlist := congrArg String.toList h
  simp only [String.toList_append] at hlist
  exact String.toList_inj.1 (append_cancel_left hlist)

theorem startsWith_append (start key : String) : startsWith start (start ++ key) :=
  isPrefixOf_append start key

theorem not_startsWith {p q : String} {n : ℕ} {x y : Char} (hp : p.toList[n]? = some x)
    (hq : q.toList[n]? = some y) (hne : x ≠ y) (a : String) : ¬ startsWith p (q ++ a) := by
  intro h
  obtain ⟨rest, hrest⟩ := isPrefixOf_iff_prefix.1 h
  refine append_ne_append hp hq hne (String.ofList rest) a (String.toList_inj.1 ?_)
  rw [String.toList_append, String.toList_ofList, hrest]

theorem not_startsWith_trim {start : String} (hstart : start.toList ≠ []) (key : String) :
    ¬ startsWith start (trimStartMatches start key) := by
  unfold startsWith trimStartMatches
  rw [String.toList_ofList]
  fun_induction dropRepeated start.toList key.toList with
  | case1 key h ih => exact ih
  | case2 key h => exact fun hpre => h ⟨hstart, hpre⟩

theorem trim_append {start key : String} (hstart : start.toList ≠ [])
    (hkey : ¬ startsWith start key) : trimStartMatches start (start ++ key) = key := by
  unfold trimStartMatches
  rw [dropRepeated, if_pos ⟨hstart, isPrefixOf_append start key⟩, String.toList_append,
    drop_left, dropRepeated, if_neg fun h => hkey h.2, String.ofList_toList]

theorem evolution_ne_legacy (a : String) : metaEvolutionPrefix ++ a ≠ legacySnapshotKey :=
  append_ne (n := 0) (x := 'm') (y := 's') rfl rfl (by decide) a

theorem evolution_ne_synthCount (a : String) : metaEvolutionPrefix ++ a ≠ metaSynthCountKey :=
  append_ne (n := 5) (x := 'e') (y := 's') rfl rfl (by decide) a

theorem pattern_ne_legacy (a : String) : patternPrefix ++ a ≠ legacySnapshotKey :=
  append_ne (n := 0) (x := 'p') (y := 's') rfl rfl (by decide) a

theorem pattern_ne_synthCount (a : String) : patternPrefix ++ a ≠ metaSynthCountKey :=
  append_ne (n := 0) (x := 'p') (y := 'm') rfl rfl (by decide) a

theorem not_startsWith_pattern (a : String) :
    ¬ startsWith metaEvolutionPrefix (patternPrefix ++ a) :=
  not_startsWith (n := 0) (x := 'm') (y := 'p') rfl rfl (by decide) a

/-! ## Writing a snapshot -/

def pairText (pair : String × String) : String :=
  String.ofList ('[' :: (jsonString pair.1.toList ++ ',' :: (jsonString pair.2.toList ++ [']'])))

theorem pairText_injective : Function.Injective pairText := by
  rintro ⟨a, b⟩ ⟨a', b'⟩ h
  obtain ⟨ha, hrest⟩ := jsonString_append_inj (List.cons.inj (String.ofList_injective h)).2
  obtain ⟨hb, -⟩ := jsonString_append_inj (List.cons.inj hrest).2
  exact Prod.ext (String.toList_inj.1 ha) (String.toList_inj.1 hb)

def apiPatternKey (agentId fingerprint : String) : String :=
  patternPrefix ++ pairText (agentId, fingerprint)

inductive ApiRow
  | synthCount (count : ℤ)
  | evolution (agentId version : String)
  | pattern (pattern : ApiCpPatternSnapshot)

def ApiRow.key : ApiRow → String
  | synthCount _ => metaSynthCountKey
  | evolution agentId _ => metaEvolutionPrefix ++ agentId
  | pattern p => apiPatternKey p.agentId p.fingerprint

def ApiCpSnapshot.rows (snapshot : ApiCpSnapshot) : List ApiRow :=
  (if snapshot.synthCount ≠ 0 then [.synthCount snapshot.synthCount] else []) ++
    snapshot.lastEvolutionVersions.entries.map (fun e => .evolution e.1 e.2) ++
    (snapshot.patterns.insertionSort PatternLe).map .pattern

section Store

variable {Bytes : Type} [Serde Bytes]

def ApiRow.value : ApiRow → Bytes
  | synthCount count => Serde.synthCount.encode count
  | evolution _ version => Serde.version.encode version
  | pattern p => Serde.pattern.encode p

def replaceApiPatternsState (table : Table String Bytes) (snapshot : ApiCpSnapshot) :
    Table String Bytes :=
  let cleared := (table.entries.map Prod.fst).foldl .erase table
  snapshot.rows.foldl (fun t row => t.insert row.key row.value) cleared

/-! ## Reading it back -/

structure Loading (Bytes : Type) where
  snapshot : ApiCpSnapshot
  sawStructuredEntries : Bool
  legacySnapshot : Option Bytes

def ApiCpSnapshot.default : ApiCpSnapshot := ⟨[], 0, .empty⟩

def Loading.start : Loading Bytes := ⟨.default, false, none⟩

def context {α : Type} (text : String) (value : Option α) : Except String α :=
  value.elim (.error text) .ok

def Loading.add (s : Loading Bytes) : ApiRow → Loading Bytes
  | .synthCount count =>
    { s with snapshot := { s.snapshot with synthCount := count }, sawStructuredEntries := true }
  | .evolution agentId version =>
    { s with
      snapshot := { s.snapshot with
        lastEvolutionVersions := s.snapshot.lastEvolutionVersions.insert agentId version }
      sawStructuredEntries := true }
  | .pattern pattern =>
    { s with
      snapshot := { s.snapshot with patterns := s.snapshot.patterns ++ [pattern] }
      sawStructuredEntries := true }

def loadEntry (s : Loading Bytes) (entry : String × Bytes) : Except String (Loading Bytes) :=
  let (key, value) := entry
  if key = legacySnapshotKey then .ok { s with legacySnapshot := some value }
  else if key = metaSynthCountKey then do
    let count ← context "API-CP synth_count deserialisieren" (Serde.synthCount.decode value)
    .ok (s.add (.synthCount count))
  else if startsWith metaEvolutionPrefix key then do
    let agentId := trimStartMatches metaEvolutionPrefix key
    let version ← context "API-CP evolution version ist nicht UTF-8" (Serde.version.decode value)
    .ok (s.add (.evolution agentId version))
  else if startsWith patternPrefix key then do
    let pattern ← context "API-CP Pattern deserialisieren" (Serde.pattern.decode value)
    .ok (s.add (.pattern pattern))
  else .ok s

def Loading.result (s : Loading Bytes) : Except String ApiCpSnapshot :=
  if s.sawStructuredEntries then
    .ok { s.snapshot with patterns := s.snapshot.patterns.insertionSort PatternLe }
  else match s.legacySnapshot with
    | some data =>
      context "Legacy API-CP Snapshot deserialisieren" (Serde.snapshot data)
    | none => .ok .default

def loadApiPatternsState (table : Table String Bytes) : Except String ApiCpSnapshot := do
  let loaded ← table.entries.foldlM loadEntry .start
  loaded.result

/-! ## The rows of a table -/

/-- What reading makes of a row: the prefix is taken from its key as often as it is there. -/
def ApiRow.read : ApiRow → ApiRow
  | evolution agentId version =>
    .evolution (trimStartMatches metaEvolutionPrefix (metaEvolutionPrefix ++ agentId)) version
  | row => row

variable (Bytes) in
/-- The value of the row is read as it was written. -/
def ApiRow.RoundTrips : ApiRow → Prop
  | synthCount count =>
    Serde.synthCount.decode (Serde.synthCount.encode count : Bytes) = some count
  | evolution _ version =>
    Serde.version.decode (Serde.version.encode version : Bytes) = some version
  | pattern p => Serde.pattern.decode (Serde.pattern.encode p : Bytes) = some p

theorem loadEntry_row (s : Loading Bytes) {row : ApiRow} (h : row.RoundTrips Bytes) :
    loadEntry s (row.key, row.value) = .ok (s.add row.read) := by
  unfold ApiRow.RoundTrips at h
  cases row with
  | synthCount count =>
    have hlegacy : metaSynthCountKey ≠ legacySnapshotKey := by decide
    simp only [loadEntry, ApiRow.key, ApiRow.value, if_neg hlegacy, if_pos, h]
    rfl
  | evolution agentId version =>
    simp only [loadEntry, ApiRow.key, ApiRow.value, if_neg (evolution_ne_legacy agentId),
      if_neg (evolution_ne_synthCount agentId), startsWith_append, if_true, h]
    rfl
  | pattern p =>
    simp only [loadEntry, ApiRow.key, ApiRow.value, apiPatternKey, if_neg (pattern_ne_legacy _),
      if_neg (pattern_ne_synthCount _), if_neg (not_startsWith_pattern _), startsWith_append,
      if_true, h]
    rfl

theorem load_rows {rows : List ApiRow} (h : ∀ row ∈ rows, row.RoundTrips Bytes)
    (s : Loading Bytes) :
    (rows.map fun row => (row.key, row.value)).foldlM loadEntry s =
      .ok ((rows.map ApiRow.read).foldl .add s) := by
  induction rows generalizing s with
  | nil => rfl
  | cons row rows ih =>
    obtain ⟨hrow, hrest⟩ := forall_mem_cons.1 h
    rw [map_cons, foldlM_cons, loadEntry_row s hrow]
    exact ih hrest _

def ApiRow.synthCount? : ApiRow → Option ℤ
  | synthCount count => some count
  | _ => none

def ApiRow.evolution? : ApiRow → Option (String × String)
  | evolution agentId version => some (agentId, version)
  | _ => none

def ApiRow.pattern? : ApiRow → Option ApiCpPatternSnapshot
  | pattern p => some p
  | _ => none

omit [Serde Bytes] in
theorem foldl_add (rows : List ApiRow) (s : Loading Bytes) :
    rows.foldl .add s =
      { snapshot :=
          { patterns := s.snapshot.patterns ++ rows.filterMap ApiRow.pattern?
            synthCount := (rows.filterMap ApiRow.synthCount?).foldl (fun _ count => count)
              s.snapshot.synthCount
            lastEvolutionVersions := (rows.filterMap ApiRow.evolution?).foldl
              (fun t e => t.insert e.1 e.2) s.snapshot.lastEvolutionVersions }
        sawStructuredEntries := s.sawStructuredEntries || !rows.isEmpty
        legacySnapshot := s.legacySnapshot } := by
  induction rows generalizing s with
  | nil => simp
  | cons row rows ih =>
    rw [foldl_cons, ih]
    cases row <;>
      simp [Loading.add, ApiRow.pattern?, ApiRow.synthCount?, ApiRow.evolution?,
        filterMap_cons]

theorem result_foldl_add (rows : List ApiRow) :
    (rows.foldl .add (.start : Loading Bytes)).result =
      .ok { patterns := (rows.filterMap ApiRow.pattern?).insertionSort PatternLe
            synthCount := (rows.filterMap ApiRow.synthCount?).foldl (fun _ count => count) 0
            lastEvolutionVersions := .ofEntries (rows.filterMap ApiRow.evolution?) } := by
  rw [foldl_add]
  cases rows with
  | nil => rfl
  | cons row rows => rfl

/-! ## What the table holds -/

theorem replace_eq (table : Table String Bytes) (snapshot : ApiCpSnapshot) :
    replaceApiPatternsState table snapshot =
      .ofEntries (snapshot.rows.map fun row => (row.key, row.value)) := by
  rw [replaceApiPatternsState, Table.foldl_erase_keys, Table.ofEntries, foldl_map]

omit [Serde Bytes] in
theorem nodup_keys_rows {snapshot : ApiCpSnapshot}
    (h : (snapshot.patterns.map fun p => (p.agentId, p.fingerprint)).Nodup) :
    (snapshot.rows.map ApiRow.key).Nodup := by
  have hsorted := ((perm_insertionSort PatternLe snapshot.patterns).map
    fun p => (p.agentId, p.fingerprint)).nodup_iff.2 h
  have hpatterns := hsorted.map ((append_injective patternPrefix).comp pairText_injective)
  have hversions :=
    snapshot.lastEvolutionVersions.nodup_keys.map (append_injective metaEvolutionPrefix)
  have hmeta : ∀ row ∈ (if snapshot.synthCount ≠ 0 then [.synthCount snapshot.synthCount] else []),
      ApiRow.key row = metaSynthCountKey := by
    intro row hrow
    split_ifs at hrow
    · rw [mem_singleton.1 hrow]
      rfl
    · cases hrow
  rw [map_map] at hpatterns hversions
  simp only [ApiCpSnapshot.rows, map_append, map_map, nodup_append,
    mem_append, mem_map]
  refine ⟨⟨?_, hversions, ?_⟩, hpatterns, ?_⟩
  · split_ifs
    · exact nodup_singleton _
    · exact .nil
  · rintro _ ⟨row, hrow, rfl⟩ _ ⟨e, -, rfl⟩
    rw [hmeta row hrow]
    exact (evolution_ne_synthCount e.1).symm
  · rintro key (⟨row, hrow, rfl⟩ | ⟨e, -, rfl⟩) _ ⟨p, -, rfl⟩
    · rw [hmeta row hrow]
      exact (pattern_ne_synthCount _).symm
    · intro (heq : metaEvolutionPrefix ++ e.1 = patternPrefix ++ pairText _)
      refine not_startsWith_pattern (pairText (p.agentId, p.fingerprint)) ?_
      rw [← heq]
      exact startsWith_append metaEvolutionPrefix e.1

theorem exists_rows {snapshot : ApiCpSnapshot}
    (h : (snapshot.patterns.map fun p => (p.agentId, p.fingerprint)).Nodup)
    (hjson : ∀ row ∈ snapshot.rows, row.RoundTrips Bytes) (table : Table String Bytes) :
    ∃ rows : List ApiRow, rows.Perm snapshot.rows ∧
      loadApiPatternsState (replaceApiPatternsState table snapshot) =
        ((rows.map ApiRow.read).foldl .add (.start : Loading Bytes)).result := by
  have hkeys :
      ((snapshot.rows.map fun row => (row.key, (row.value : Bytes))).map Prod.fst).Nodup := by
    rw [map_map]
    exact nodup_keys_rows h
  have hall : List.Forall₂ (fun (e : String × Bytes) (row : ApiRow) => e = (row.key, row.value))
      (snapshot.rows.map fun row => (row.key, row.value)) snapshot.rows := by
    rw [forall₂_map_left_iff]
    exact forall₂_same.2 fun _ _ => rfl
  obtain ⟨rows, hentries, hperm⟩ := perm_comp_forall₂ (Table.perm_ofEntries hkeys) hall
  rw [← forall₂_map_right_iff, forall₂_eq_eq_eq] at hentries
  refine ⟨rows, hperm, ?_⟩
  rw [loadApiPatternsState, replace_eq, hentries,
    load_rows fun row hrow => hjson row (hperm.mem_iff.1 hrow)]
  rfl

/-! ## Reading what was written -/

omit [Serde Bytes] in
theorem filterMap_rows (snapshot : ApiCpSnapshot) :
    snapshot.rows.filterMap ApiRow.pattern? = snapshot.patterns.insertionSort PatternLe ∧
      snapshot.rows.filterMap ApiRow.synthCount? =
        (if snapshot.synthCount ≠ 0 then [snapshot.synthCount] else []) ∧
      snapshot.rows.filterMap ApiRow.evolution? = snapshot.lastEvolutionVersions.entries := by
  unfold ApiCpSnapshot.rows
  simp only [filterMap_append, filterMap_map]
  by_cases hzero : snapshot.synthCount = 0
  · simp [hzero, Function.comp_def, ApiRow.pattern?, ApiRow.synthCount?, ApiRow.evolution?]
  · simp [hzero, Function.comp_def, ApiRow.pattern?, ApiRow.synthCount?, ApiRow.evolution?]

omit [Serde Bytes] in
theorem filterMap_read (rows : List ApiRow) :
    (rows.map ApiRow.read).filterMap ApiRow.pattern? = rows.filterMap ApiRow.pattern? ∧
      (rows.map ApiRow.read).filterMap ApiRow.synthCount? = rows.filterMap ApiRow.synthCount? ∧
      (rows.map ApiRow.read).filterMap ApiRow.evolution? =
        (rows.filterMap ApiRow.evolution?).map fun e =>
          (trimStartMatches metaEvolutionPrefix (metaEvolutionPrefix ++ e.1), e.2) := by
  rw [filterMap_map, filterMap_map, filterMap_map, map_filterMap]
  refine ⟨?_, ?_, ?_⟩ <;> congr 1 <;> funext row <;> cases row <;> rfl

omit [Serde Bytes] in
theorem versions_eq_iff {versions : Table String String} {stored : List (String × String)}
    (h : stored.Perm versions.entries) :
    .ofEntries (stored.map fun e =>
        (trimStartMatches metaEvolutionPrefix (metaEvolutionPrefix ++ e.1), e.2)) = versions ↔
      ∀ agentId version, versions.get agentId = some version →
        ¬ startsWith metaEvolutionPrefix agentId := by
  have hne : metaEvolutionPrefix.toList ≠ [] := by decide
  constructor
  · intro heq agentId version hget
    rw [← heq] at hget
    obtain ⟨e, -, he⟩ := mem_map.1 (Table.mem_of_get_ofEntries hget)
    cases he
    exact not_startsWith_trim hne _
  · intro hplain
    have hsame : (stored.map fun e =>
        (trimStartMatches metaEvolutionPrefix (metaEvolutionPrefix ++ e.1), e.2)) = stored := by
      refine Eq.trans (map_congr_left fun e he => ?_) (map_id stored)
      have hget : versions.get e.1 = some e.2 := Table.get_eq_some_iff.2 (h.mem_iff.1 he)
      rw [trim_append hne (hplain e.1 e.2 hget)]
      rfl
    rw [hsame]
    apply Table.eq_of_perm
    have hkeys := ((h.map Prod.fst).nodup_iff).2 versions.nodup_keys
    exact (Table.perm_ofEntries hkeys).trans h

/-- **A stored snapshot is read back**, whatever the table held before, up to the order of its
patterns. -/
theorem api_patterns_survive (table : Table String Bytes) (snapshot : ApiCpSnapshot)
    (h : (snapshot.patterns.map fun p => (p.agentId, p.fingerprint)).Nodup)
    (hjson : ∀ row ∈ snapshot.rows, row.RoundTrips Bytes) :
    ∃ loaded, loadApiPatternsState (replaceApiPatternsState table snapshot) = .ok loaded ∧
      loaded.patterns.Perm snapshot.patterns ∧ loaded.synthCount = snapshot.synthCount ∧
      (loaded.lastEvolutionVersions = snapshot.lastEvolutionVersions ↔
        ∀ agentId version, snapshot.lastEvolutionVersions.get agentId = some version →
          ¬ startsWith metaEvolutionPrefix agentId) := by
  obtain ⟨rows, hperm, hload⟩ := exists_rows h hjson table
  obtain ⟨hpatterns, hcount, hversions⟩ := filterMap_rows snapshot
  obtain ⟨hpatterns', hcount', hversions'⟩ := filterMap_read rows
  rw [result_foldl_add, hpatterns', hcount', hversions'] at hload
  refine ⟨_, hload, ?_, ?_, ?_⟩
  · refine (perm_insertionSort ..).trans ((hperm.filterMap _).trans ?_)
    rw [hpatterns]
    exact perm_insertionSort ..
  · have hstored := hperm.filterMap ApiRow.synthCount?
    rw [hcount] at hstored
    split_ifs at hstored with hzero
    · rw [perm_singleton.1 hstored]
      rfl
    · rw [perm_nil.1 hstored]
      exact (not_not.1 hzero).symm
  · apply versions_eq_iff
    rw [← hversions]
    exact hperm.filterMap _

end Store

section Sample

def Codec.ofKnown {α : Type} (encode : α → String) (values : List α) : Codec α String where
  encode
  decode text := values.find? fun a => encode a = text

/-- For patterns without response hashes and with confidence 0. -/
def patternText (p : ApiCpPatternSnapshot) : String :=
  "\x7b\"agent_id\":" ++ jsonText p.agentId ++ ",\"fingerprint\":" ++ jsonText p.fingerprint ++
    ",\"count\":" ++ toString p.count ++ ",\"response_hashes\":\x7b\x7d,\"top_hash\":" ++
    toString p.topHash ++ ",\"top_content\":" ++ jsonText p.topContent ++
    ",\"confidence\":0.0,\"last_seen\":" ++ jsonText p.lastSeen ++ ",\"promoted\":" ++
    toString p.promoted ++ "\x7d"

def samplePatterns : List ApiCpPatternSnapshot :=
  [⟨"b", "f", 1, .empty, 0, "", 0, "", false⟩, ⟨"a", "g", 1, .empty, 0, "", 0, "", false⟩]

def legacyText : String :=
  "\x7b\"patterns\":[],\"synth_count\":7,\"last_evolution_versions\":\x7b\x7d\x7d"

instance sampleSerde : Serde String where
  synthCount := .ofKnown toString [3]
  version := ⟨id, some⟩
  pattern := .ofKnown patternText samplePatterns
  snapshot text := if text = legacyText then some ⟨[], 7, .empty⟩ else none

def sampleSnapshot : ApiCpSnapshot :=
  ⟨samplePatterns, 3, .ofEntries [("pattern:a", "v1")]⟩

/-- Over a legacy blob, with an agent id that starts with the prefix of another kind of key. -/
theorem plain_agents_survive :
    (sampleSnapshot.patterns.map fun p => (p.agentId, p.fingerprint)).Nodup ∧
      ∃ loaded, loadApiPatternsState (replaceApiPatternsState
          (.ofEntries [("snapshot", legacyText)]) sampleSnapshot) = .ok loaded ∧
        loaded.patterns.Perm sampleSnapshot.patterns ∧
        loaded.synthCount = 3 ∧ loaded.lastEvolutionVersions.get "pattern:a" = some "v1" := by
  have hdistinct : (sampleSnapshot.patterns.map fun p => (p.agentId, p.fingerprint)).Nodup := by
    decide +kernel
  have hjson : ∀ row ∈ sampleSnapshot.rows, row.RoundTrips String := by
    rw [show sampleSnapshot.rows = [.synthCount 3, .evolution "pattern:a" "v1",
      .pattern ⟨"a", "g", 1, .empty, 0, "", 0, "", false⟩,
      .pattern ⟨"b", "f", 1, .empty, 0, "", 0, "", false⟩] from rfl]
    simp only [forall_mem_cons, not_mem_nil, false_implies, implies_true, and_true]
    exact ⟨rfl, rfl, rfl, rfl⟩
  obtain ⟨loaded, hload, hpatterns, hcount, hversions⟩ :=
    api_patterns_survive (.ofEntries [("snapshot", legacyText)]) sampleSnapshot hdistinct hjson
  have hsame := hversions.2 fun agentId version hget => by
    obtain rfl : agentId = "pattern:a" := by
      simpa using congrArg Prod.fst (mem_singleton.1 (Table.mem_of_get_ofEntries hget))
    decide +kernel
  refine ⟨hdistinct, loaded, hload, hpatterns, hcount, ?_⟩
  rw [hsame]
  decide +kernel

/-- The version of one agent is read back as that of another. -/
theorem prefixed_agent_overwrites :
    let snapshot : ApiCpSnapshot :=
      ⟨[], 0, .ofEntries [("a", "v1"), ("meta:evolution:a", "v2")]⟩
    (loadApiPatternsState (replaceApiPatternsState (.empty : Table String String) snapshot)).map
      (fun loaded => loaded.lastEvolutionVersions.entries) = .ok [("a", "v2")] := by
  decide +kernel

end Sample

end Sentinel.Redb

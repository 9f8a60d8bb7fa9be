import Mathlib.Data.List.MinMax
import Mathlib.Data.Prod.Lex
import Mathlib.Data.String.Basic
import Sentinel.Lib.Machine
import Sentinel.Lib.Table

/-! The read cache of the workflow store (`sentinel-workflow`, `store/read_cache.rs`). A validated
view is kept together with a copy of all tables it was computed from, and is served again only
where the tables now have every value of that copy. -/

namespace Sentinel.Workflow.ReadCache
open Lib List Table

abbrev Bytes := List (Fin 256)

inductive ValueRef
  | null
  | integer (value : ℤ)
  | real (bits : UInt64)
  | text (bytes : Bytes)
  | blob (bytes : Bytes)
  deriving DecidableEq

inductive InputValue
  | null
  | integer (value : ℤ)
  | realBits (bits : UInt64)
  | text (bytes : Bytes)
  | blob (bytes : Bytes)
  | chunkedText (chunks : List Bytes)
  | chunkedBlob (chunks : List Bytes)

def inputChunkBytes : ℕ := 4096
def maxInputRows : ℕ := 16384
def maxResultBytes : ℕ := 16 * 1024 * 1024
def maxResults : ℕ := 32
def maxKeyBytes : ℕ := 4096

def chunkCount (length : ℕ) : ℕ := (length + (inputChunkBytes - 1)) / inputChunkBytes

def chunk (value : Bytes) (i : ℕ) : Bytes := (value.drop (i * inputChunkBytes)).take inputChunkBytes

def chunks (value : Bytes) : List Bytes := (List.range (chunkCount value.length)).map (chunk value)

def chunkedBytesMatch (expected : List Bytes) (value : Bytes) : Bool :=
  match expected.getLast? with
  | none => false
  | some last =>
    let length := (expected.length - 1) * inputChunkBytes + last.length
    length < 2 ^ 64 ∧ expected.length > 1 ∧ last ≠ [] ∧ last.length ≤ inputChunkBytes ∧
      value.length = length ∧ (expected.zip (chunks value)).all fun pair => pair.1 = pair.2

def InputValue.matches : InputValue → ValueRef → Bool
  | .null, .null => true
  | .integer left, .integer right => left = right
  | .realBits left, .real right => left = right
  | .text left, .text right => left = right
  | .blob left, .blob right => left = right
  | .chunkedText left, .text right => chunkedBytesMatch left right
  | .chunkedBlob left, .blob right => chunkedBytesMatch left right
  | _, _ => false

def isUtf8 (bytes : Bytes) : Bool :=
  (String.fromUTF8? ⟨(bytes.map UInt8.ofFin).toArray⟩).isSome

def captureValue : ValueRef → Option InputValue
  | .null => some .null
  | .integer value => some (.integer value)
  | .real bits => some (.realBits bits)
  | .text value =>
    if ¬ isUtf8 value then none
    else if value.length > inputChunkBytes then some (.chunkedText (chunks value))
    else some (.text value)
  | .blob value =>
    if value.length > inputChunkBytes then some (.chunkedBlob (chunks value))
    else some (.blob value)

abbrev Row := List ValueRef

structure TableInfo where
  name : String
  kind : String
  withoutRowid : ℤ
  columns : List (String × ℤ)

class Sqlite where
  tableList : List Row → List TableInfo

inductive Query
  | schema
  | table (name : String)
  deriving DecidableEq

def cellsMatch : List InputValue → Row → Bool
  | [], _ => true
  | _ :: _, [] => false
  | expected :: rest, value :: values => expected.matches value && cellsMatch rest values

def rowsMatch : List (List InputValue) → List Row → Bool
  | [], [] => true
  | expected :: rest, row :: rows => cellsMatch expected row && rowsMatch rest rows
  | _, _ => false

theorem eq_of_chunk_eq {value other : Bytes} (hlength : value.length = other.length)
    (h : ∀ i < chunkCount value.length, chunk value i = chunk other i) : value = other := by
  refine ext_getElem? fun j => ?_
  rcases Nat.lt_or_ge j value.length with hj | hj
  · have hi : j / inputChunkBytes < chunkCount value.length := by
      simp only [chunkCount, inputChunkBytes]
      omega
    have hr : j % inputChunkBytes < inputChunkBytes := Nat.mod_lt _ (by decide)
    have hchunk := congrArg (fun part : Bytes => part[j % inputChunkBytes]?) (h _ hi)
    simpa only [chunk, getElem?_take_of_lt hr, getElem?_drop, Nat.div_add_mod']
      using hchunk
  · rw [getElem?_eq_none hj, getElem?_eq_none (hlength ▸ hj)]

theorem eq_of_chunkedBytesMatch {value other : Bytes} (hlong : inputChunkBytes < value.length)
    (h : chunkedBytesMatch (chunks value) other = true) : other = value := by
  have hcount : 0 < chunkCount value.length := by
    simp only [chunkCount, inputChunkBytes] at hlong ⊢
    omega
  have hlast : (chunks value).getLast? = some (chunk value (chunkCount value.length - 1)) := by
    rw [chunks, getLast?_map, getLast?_range, if_neg hcount.ne', Option.map_some]
  have hwhole : (chunkCount value.length - 1) * inputChunkBytes +
      (chunk value (chunkCount value.length - 1)).length = value.length := by
    simp only [chunk, length_take, length_drop, chunkCount, inputChunkBytes] at hlong ⊢
    omega
  unfold chunkedBytesMatch at h
  rw [hlast] at h
  simp only [decide_eq_true_eq, chunks, length_map, length_range, hwhole] at h
  obtain ⟨-, -, -, -, hlength, hall⟩ := h
  rw [hlength, zip_map', all_eq_true] at hall
  refine (eq_of_chunk_eq hlength.symm fun i hi => ?_).symm
  exact of_decide_eq_true (hall _ (mem_map.2 ⟨i, mem_range.2 hi, rfl⟩))

theorem eq_of_matches {value other : ValueRef} {captured : InputValue}
    (hcaptured : captureValue value = some captured) (h : captured.matches other = true) :
    other = value := by
  cases value with
  | null | integer | real =>
    cases hcaptured
    cases other with
    | null | integer | real => simp_all [InputValue.matches]
    | _ => cases h
  | text bytes =>
    simp only [captureValue] at hcaptured
    split at hcaptured
    · cases hcaptured
    split at hcaptured
    · next hlong =>
      cases hcaptured
      cases other with
      | text bytes' => rw [eq_of_chunkedBytesMatch hlong h]
      | _ => cases h
    · cases hcaptured
      cases other with
      | text bytes' => rw [of_decide_eq_true h]
      | _ => cases h
  | blob bytes =>
    simp only [captureValue] at hcaptured
    split at hcaptured
    · next hlong =>
      cases hcaptured
      cases other with
      | blob bytes' => rw [eq_of_chunkedBytesMatch hlong h]
      | _ => cases h
    · cases hcaptured
      cases other with
      | blob bytes' => rw [of_decide_eq_true h]
      | _ => cases h

theorem mapM_cons_eq_some {α β : Type} {f : α → Option β} {a : α} {as : List α} {bs : List β}
    (h : (a :: as).mapM f = some bs) :
    ∃ b rest, f a = some b ∧ as.mapM f = some rest ∧ bs = b :: rest := by
  rw [mapM_cons] at h
  obtain ⟨b, hb, h⟩ := Option.bind_eq_some_iff.1 h
  obtain ⟨rest, hrest, h⟩ := Option.bind_eq_some_iff.1 h
  exact ⟨b, rest, hb, hrest, (Option.some.inj h).symm⟩

theorem mem_of_mapM_eq_some {α β : Type} {f : α → Option β} {as : List α} {bs : List β}
    (h : as.mapM f = some bs) {a : α} (ha : a ∈ as) : ∃ b ∈ bs, f a = some b := by
  induction as generalizing bs with
  | nil => cases ha
  | cons a' as ih =>
    obtain ⟨b, rest, hb, hrest, rfl⟩ := mapM_cons_eq_some h
    rcases mem_cons.1 ha with rfl | ha
    · exact ⟨b, mem_cons_self, hb⟩
    · obtain ⟨b', hb', hf⟩ := ih hrest ha
      exact ⟨b', mem_cons_of_mem _ hb', hf⟩

theorem eq_of_cellsMatch {row other : Row} {cells : List InputValue}
    (hcells : row.mapM captureValue = some cells) (hlength : row.length = other.length)
    (h : cellsMatch cells other = true) : other = row := by
  induction row generalizing other cells with
  | nil => exact length_eq_zero_iff.1 hlength.symm
  | cons value row ih =>
    cases other with
    | nil => cases hlength
    | cons value' other =>
      obtain ⟨cell, rest, hcell, hrest, rfl⟩ := mapM_cons_eq_some hcells
      obtain ⟨hvalue, hvalues⟩ := Bool.and_eq_true_iff.1 h
      rw [eq_of_matches hcell hvalue, ih hrest (Nat.succ_inj.1 hlength) hvalues]

theorem eq_of_rowsMatch {rows others : List Row} {captured : List (List InputValue)}
    (width : ℕ) (hcaptured : (rows.mapM fun row => row.mapM captureValue) = some captured)
    (hrows : ∀ row ∈ rows, row.length = width) (hothers : ∀ row ∈ others, row.length = width)
    (h : rowsMatch captured others = true) : others = rows := by
  induction rows generalizing others captured with
  | nil =>
    cases hcaptured
    cases others with
    | nil => rfl
    | cons => cases h
  | cons row rows ih =>
    obtain ⟨cells, rest, hcells, hrest, rfl⟩ := mapM_cons_eq_some hcaptured
    cases others with
    | nil => cases h
    | cons other others =>
      obtain ⟨hrow, hrows'⟩ := forall_mem_cons.1 hrows
      obtain ⟨hother, hothers'⟩ := forall_mem_cons.1 hothers
      obtain ⟨hcell, hmatch⟩ := Bool.and_eq_true_iff.1 h
      rw [eq_of_cellsMatch hcells (hrow.trans hother.symm) hcell,
        ih hrest hrows' hothers' hmatch]

section Store

variable [Sqlite]

def findTable (schema : List Row) (name : String) : Option TableInfo :=
  (Sqlite.tableList schema).find? fun info => info.name = name

def columnCount (schema : List Row) : Query → Option ℕ
  | .schema => some 5
  | .table name => (findTable schema name).map fun info => info.columns.length + 1

@[ext] structure Content where
  rows : Query → List Row
  width : ∀ query, ∀ row ∈ rows query, columnCount (rows .schema) query = some row.length

def Content.schema (content : Content) : List Row := content.rows .schema

def Content.answer (content : Content) (query : Query) : Option (ℕ × List Row) :=
  (columnCount content.schema query).map fun columns => (columns, content.rows query)

inductive WorkflowError
  | corruptStore
  | sqlite (message : String)
  | rejected (reason : String)
  deriving DecidableEq

/-- What a read finds: the snapshot it is pinned to, how the queries end that start a read
(`starts`) and follow its validator (`recounts`), and `PRAGMA integrity_check`. The validators only
read, so that `total_changes` is the same in both. -/
structure Connection where
  content : Content
  temporary : ℕ
  attached : ℕ
  starts : Except WorkflowError Unit
  recounts : Except WorkflowError Unit
  integrity : Except WorkflowError Bool

structure InputTable where
  query : Query
  columns : ℕ
  rows : List (List InputValue)

abbrev Inputs := List InputTable

def tables : List String :=
  ["company_schema_meta", "company_entities", "company_operations", "company_events",
    "company_project_projections", "workflow_schema_meta", "workflow_work_items",
    "workflow_operations", "workflow_adaptive_heads", "workflow_execution_outbox",
    "workflow_completion_outbox", "workflow_gate_outbox", "workflow_audit_events",
    "sqlite_sequence"]

def TableInfo.plain (info : TableInfo) : Bool :=
  info.name ∈ tables ∧ info.kind = "table" ∧ info.withoutRowid = 0 ∧
    info.columns.all fun column => column.2 = 0 ∧ column.1.toLower ∉ ["rowid", "oid", "_rowid_"]

def captureTable (content : Content) (query : Query) : Option InputTable := do
  let (columns, rows) ← content.answer query
  let values ← rows.mapM fun row => row.mapM captureValue
  return ⟨query, columns, values⟩

def queries (schema : List Row) : List Query :=
  .schema :: (Sqlite.tableList schema).map fun info => .table info.name

/-- The copy of all tables, if there may be one; whether the memory for it suffices is left to
the caller. -/
def Connection.capture (c : Connection) : Option Inputs :=
  if c.temporary ≠ 0 ∨ c.attached ≠ 0 then none
  else if ¬ (Sqlite.tableList c.content.schema).all TableInfo.plain then none
  else if (Sqlite.tableList c.content.schema).length > tables.length then none
  else ((queries c.content.schema).mapM (captureTable c.content)).filter fun inputs =>
    (inputs.map fun table => table.rows.length).sum ≤ maxInputRows

def InputTable.matches (table : InputTable) (content : Content) : Bool :=
  match content.answer table.query with
  | none => false
  | some (columns, rows) => columns = table.columns && rowsMatch table.rows rows

def Inputs.matches (inputs : Inputs) (c : Connection) : Bool :=
  if c.temporary ≠ 0 ∨ c.attached ≠ 0 then false
  else inputs.all fun table => table.matches c.content

section Copies

theorem rows_eq_of_matches {content other : Content} {query : Query} {table : InputTable}
    (hcaptured : captureTable content query = some table) (h : table.matches other = true) :
    other.rows query = content.rows query := by
  obtain ⟨_, hanswer, hcaptured⟩ := Option.bind_eq_some_iff.1 hcaptured
  obtain ⟨columns, hcolumns, rfl⟩ := Option.map_eq_some_iff.1 hanswer
  obtain ⟨captured, hrows, htable⟩ := Option.bind_eq_some_iff.1 hcaptured
  obtain rfl : ⟨query, columns, captured⟩ = table := Option.some.inj htable
  obtain ⟨hother, hmatch⟩ : columnCount other.schema query = some columns ∧
      rowsMatch captured (other.rows query) = true := by
    unfold InputTable.matches Content.answer at h
    cases hcount : columnCount other.schema query with
    | none =>
      rw [hcount] at h
      cases h
    | some count =>
      rw [hcount] at h
      obtain ⟨heq, hmatch⟩ := Bool.and_eq_true_iff.1 h
      exact ⟨congrArg some (of_decide_eq_true heq), hmatch⟩
  refine eq_of_rowsMatch columns hrows (fun row hrow => ?_) (fun row hrow => ?_) hmatch
  · exact Option.some.inj ((content.width query row hrow).symm.trans hcolumns)
  · exact Option.some.inj ((other.width query row hrow).symm.trans hother)

theorem content_eq_of_matches {c c' : Connection} {inputs : Inputs}
    (hcaptured : c.capture = some inputs) (h : inputs.matches c' = true) :
    c'.content = c.content := by
  unfold Connection.capture at hcaptured
  split at hcaptured
  · cases hcaptured
  split at hcaptured
  · cases hcaptured
  split at hcaptured
  · cases hcaptured
  have htables := (Option.filter_eq_some_iff.1 hcaptured).1
  unfold Inputs.matches at h
  split at h
  · cases h
  have hquery : ∀ query ∈ queries c.content.schema,
      c'.content.rows query = c.content.rows query := by
    intro query hquery
    obtain ⟨table, htable, hcaptured⟩ := mem_of_mapM_eq_some htables hquery
    exact rows_eq_of_matches hcaptured (all_eq_true.1 h table htable)
  have hschema : c'.content.rows .schema = c.content.rows .schema :=
    hquery .schema mem_cons_self
  refine Content.ext (funext fun query => ?_)
  by_cases hknown : query ∈ queries c.content.schema
  · exact hquery query hknown
  -- a query that is not of the copy is of no table, before and after
  have hnone : columnCount c.content.schema query = none := by
    cases query with
    | schema => exact absurd mem_cons_self hknown
    | table name =>
      refine Option.map_eq_none_iff.2 (find?_eq_none.2 fun info hinfo hname => hknown ?_)
      refine mem_cons_of_mem _ (mem_map.2 ⟨info, hinfo, ?_⟩)
      rw [of_decide_eq_true hname]
  have hempty (content : Content) (heq : content.schema = c.content.schema) :
      content.rows query = [] := by
    refine eq_nil_iff_forall_not_mem.2 fun row hrow => ?_
    have hwidth : columnCount content.schema query = some row.length := content.width query row hrow
    rw [heq, hnone] at hwidth
    cases hwidth
  rw [hempty c'.content hschema, hempty c.content rfl]

end Copies

/-- The types of the views are numbered; `V` gives the type of a number. -/
abbrev Key := String ×ₗ ℕ ×ₗ Bytes

/-- A `Box<dyn Any>` with its type. -/
structure ResultProof (V : ℕ → Type) where
  value : Σ t, V t
  accountedBytes : ℕ
  lastUsed : ℕ

structure Cache (V : ℕ → Type) where
  inputs : Option Inputs
  results : Table Key (ResultProof V)
  resultBytes : ℕ
  useCounter : ℕ

def maxCounter : ℕ := 2 ^ 64 - 1

def proofBytes : ℕ := 32

variable {V : ℕ → Type}

/-- One call of the cache. Whether the three scans of the tables run to their end, and the copy
fits into memory, is given with the call. -/
structure Read (V : ℕ → Type) where
  eligible : Bool
  domain : String
  typeId : ℕ
  queryKey : Bytes
  retain : V typeId → Bool
  jsonSize : V typeId → Option ℕ
  inlineBytes : ℕ
  compares : Bool
  captures : Bool
  recompares : Bool

def Read.bypasses (r : Read V) : Prop := ¬ r.eligible ∨ r.queryKey.length > maxKeyBytes

instance (r : Read V) : Decidable r.bypasses := inferInstanceAs (Decidable (_ ∨ _))

def Read.key (r : Read V) : Key := toLex (r.domain, toLex (r.typeId, r.queryKey))

def checkedAdd (a b : ℕ) : Option ℕ := if a + b ≤ maxCounter then some (a + b) else none

def Read.size (r : Read V) (value : V r.typeId) : Option ℕ := do
  let bytes ← r.jsonSize value
  let bytes ← checkedAdd bytes r.inlineBytes
  let bytes ← checkedAdd bytes proofBytes
  checkedAdd bytes r.queryKey.length

def ResultProof.downcast (proof : ResultProof V) (t : ℕ) : Option (V t) :=
  if h : proof.value.1 = t then some (h ▸ proof.value.2) else none

namespace Cache

variable (s : Cache V)

def clear : Cache V := ⟨none, .empty, 0, 0⟩

def nextUse : Cache V × ℕ :=
  let s := if s.useCounter = maxCounter then
      { s with results := s.results.map fun proof => { proof with lastUsed := 0 }, useCounter := 0 }
    else s
  ({ s with useCounter := s.useCounter + 1 }, s.useCounter + 1)

def remove (key : Key) (proof : ResultProof V) : Cache V :=
  { s with
    results := s.results.erase key
    resultBytes := s.resultBytes - proof.accountedBytes }

def evictLoop (bytes : ℕ) : ℕ → Cache V → Cache V
  | 0, s => s
  | rounds + 1, s =>
    if s.results.entries.length ≥ maxResults ∨
        min (s.resultBytes + bytes) maxCounter > maxResultBytes then
      match s.results.entries.argmin fun e => e.2.lastUsed with
      | none => s
      | some (key, proof) => evictLoop bytes rounds (s.remove key proof)
    else s

def evictFor (bytes : ℕ) : Cache V := evictLoop bytes s.results.entries.length s

def touch (key : Key) (proof : ResultProof V) : Cache V :=
  let (s, used) := s.nextUse
  { s with results := s.results.insert key { proof with lastUsed := used } }

def keep (r : Read V) (candidate : Option Inputs) (value : V r.typeId) : Cache V :=
  match (r.size value).filter fun bytes => bytes ≤ maxResultBytes with
  | none => s
  | some bytes =>
    if (s.results.get r.key).isSome then s
    else
      let (s, lastUsed) := (s.evictFor bytes).nextUse
      { s with
        results := s.results.insert r.key ⟨⟨r.typeId, value⟩, bytes, lastUsed⟩
        resultBytes := s.resultBytes + bytes
        inputs := candidate.or s.inputs }

def hit (r : Read V) : Option (ResultProof V × V r.typeId) := do
  let proof ← s.results.get r.key
  let value ← proof.downcast r.typeId
  return (proof, value)

end Cache

def afterIntegrity (c : Connection) {α : Type} (sound : Cache V × Except WorkflowError α) :
    Cache V × Except WorkflowError α :=
  match c.integrity with
  | .error e => (.clear, .error e)
  | .ok false => (.clear, .error .corruptStore)
  | .ok true => sound

section Reading

variable (validator : String → (t : ℕ) → Bytes → Content → Except WorkflowError (V t))

def readMiss (s : Cache V) (c : Connection) (r : Read V) (same : Bool) :
    Cache V × Except WorkflowError (V r.typeId) :=
  let candidate := if same ∨ ¬ r.captures then none else c.capture
  match validator r.domain r.typeId r.queryKey c.content with
  | .error e => if same then afterIntegrity c (.clear, .error e) else (.clear, .error e)
  | .ok value =>
    match c.recounts with
    | .error e => (s, .error e)
    | .ok () =>
      match candidate.or s.inputs with
      | none => (.clear, .ok value)
      | some inputs =>
        if r.recompares ∧ inputs.matches c then
          afterIntegrity c (if r.retain value then s.keep r candidate value else .clear, .ok value)
        else (.clear, .ok value)

def readInner (s : Cache V) (c : Connection) (r : Read V) :
    Cache V × Except WorkflowError (V r.typeId) :=
  if r.bypasses then (.clear, validator r.domain r.typeId r.queryKey c.content)
  else
    match c.starts with
    | .error e => (s, .error e)
    | .ok () =>
      if s.inputs.any fun inputs => r.compares && inputs.matches c then
        match s.hit r with
        | some (proof, value) => afterIntegrity c (s.touch r.key proof, .ok value)
        | none => readMiss validator s c r true
      else readMiss validator .clear c r false

def readKeyedIfSized (s : Cache V) (c : Connection) (r : Read V) :
    Cache V × Except WorkflowError (V r.typeId) :=
  match readInner validator s c r with
  | (_, .error e) => (.clear, .error e)
  | (s, .ok value) => (s, .ok value)

def readCache : Machine (Cache V) (Connection × Read V) (Σ t, Except WorkflowError (V t)) where
  call s call :=
    let (s, result) := readKeyedIfSized validator s call.1 call.2
    (s, ⟨call.2.typeId, result⟩)

end Reading

section Tables

omit [Sqlite]

variable {κ β : Type*} [LinearOrder κ]

theorem total_map {γ : Type*} (f : γ → ℕ) (g : β → γ) (t : Table κ β) :
    (t.map g).total f = t.total fun v => f (g v) := by
  simp [Table.total, Table.values, Table.map, Function.comp_def]

theorem length_entries (t : Table κ β) : t.entries.length = t.total fun _ => 1 := by
  simp [Table.total, Table.values, Function.comp_def]

end Tables

section Invariants

variable {validator : String → (t : ℕ) → Bytes → Content → Except WorkflowError (V t)}
  {s : Cache V} {c : Connection} {r : Read V}

def Valid (validator : String → (t : ℕ) → Bytes → Content → Except WorkflowError (V t))
    (content : Content) (key : Key) (proof : ResultProof V) : Prop :=
  ∃ domain t queryKey value, key = toLex (domain, toLex (t, queryKey)) ∧
    proof.value = ⟨t, value⟩ ∧ validator domain t queryKey content = .ok value

structure Accounted (s : Cache V) : Prop where
  bytes : s.resultBytes = s.results.total ResultProof.accountedBytes
  limit : s.resultBytes ≤ maxResultBytes
  entries : s.results.entries.length ≤ maxResults

structure Sound (validator : String → (t : ℕ) → Bytes → Content → Except WorkflowError (V t))
    (s : Cache V) : Prop extends Accounted s where
  origin : ∃ c : Connection, (∀ inputs, s.inputs = some inputs → c.capture = some inputs) ∧
    ∀ key proof, s.results.get key = some proof → Valid validator c.content key proof

def emptyConnection : Connection where
  content := ⟨fun _ => [], fun _ _ hrow => absurd hrow not_mem_nil⟩
  temporary := 0
  attached := 0
  starts := .ok ()
  recounts := .ok ()
  integrity := .ok true

theorem sound_clear : Sound validator (.clear : Cache V) where
  bytes := rfl
  limit := Nat.zero_le _
  entries := Nat.zero_le _
  origin := ⟨emptyConnection, fun _ h => (by cases h), fun _ _ h => by cases h⟩

variable {proof : ResultProof V}

omit [Sqlite] in
theorem length_remove {key : Key} (hget : s.results.get key = some proof) :
    (s.remove key proof).results.entries.length + 1 = s.results.entries.length := by
  rw [length_entries, length_entries]
  exact total_erase hget

omit [Sqlite] in
theorem Accounted.remove (h : Accounted s) {key : Key} (hget : s.results.get key = some proof) :
    Accounted (s.remove key proof) where
  bytes := by
    have htotal := total_erase (f := ResultProof.accountedBytes) hget
    rw [← h.bytes] at htotal
    exact Nat.sub_eq_of_eq_add htotal.symm
  limit := (Nat.sub_le _ _).trans h.limit
  entries := Nat.le_of_succ_le ((Nat.le_of_eq (length_remove hget)).trans h.entries)

omit [Sqlite] in
theorem Accounted.resultBytes_eq_zero (h : Accounted s) (hempty : s.results.entries = []) :
    s.resultBytes = 0 := by
  rw [h.bytes, Table.total, Table.values, hempty]
  rfl

omit [Sqlite] in
theorem accounted_evictLoop {bytes rounds : ℕ} (h : Accounted s)
    (hbytes : bytes ≤ maxResultBytes) (hrounds : s.results.entries.length ≤ rounds) :
    Accounted (s.evictLoop bytes rounds) ∧
      (s.evictLoop bytes rounds).results.entries.length < maxResults ∧
        (s.evictLoop bytes rounds).resultBytes + bytes ≤ maxResultBytes := by
  have hnone {s : Cache V} (h : Accounted s) (hempty : s.results.entries = []) : Accounted s ∧
      s.results.entries.length < maxResults ∧ s.resultBytes + bytes ≤ maxResultBytes := by
    refine ⟨h, ?_, ?_⟩
    · rw [hempty]
      exact Nat.zero_lt_succ _
    · rwa [h.resultBytes_eq_zero hempty, Nat.zero_add]
  induction rounds generalizing s with
  | zero => exact hnone h (length_eq_zero_iff.1 (Nat.le_zero.1 hrounds))
  | succ rounds ih =>
    unfold Cache.evictLoop
    split
    · split
      · next hargmin => exact hnone h (argmin_eq_none.1 hargmin)
      · next key proof hargmin =>
        have hget : s.results.get key = some proof :=
          get_eq_some_iff.2 (argmin_mem hargmin)
        refine ih (h.remove hget) (Nat.le_of_succ_le_succ ?_)
        exact (Nat.le_of_eq (length_remove hget)).trans hrounds
    · next hfits =>
      obtain ⟨hcount, hroom⟩ := not_or.1 hfits
      refine ⟨h, not_le.1 hcount, ?_⟩
      simp only [maxCounter, maxResultBytes] at hroom ⊢
      omega

omit [Sqlite] in
theorem evictLoop_frame (bytes rounds : ℕ) (s : Cache V) :
    (s.evictLoop bytes rounds).inputs = s.inputs ∧ ∀ key proof,
      (s.evictLoop bytes rounds).results.get key = some proof →
        s.results.get key = some proof := by
  induction rounds generalizing s with
  | zero => exact ⟨rfl, fun _ _ h => h⟩
  | succ rounds ih =>
    unfold Cache.evictLoop
    split
    · split
      · exact ⟨rfl, fun _ _ h => h⟩
      · next key proof _ =>
        obtain ⟨hinputs, hget⟩ := ih (s.remove key proof)
        exact ⟨hinputs, fun key' proof' h => get_of_erase (hget key' proof' h)⟩
    · exact ⟨rfl, fun _ _ h => h⟩

structure SameResults (s s' : Cache V) : Prop where
  inputs : s'.inputs = s.inputs
  resultBytes : s'.resultBytes = s.resultBytes
  total : ∀ f : ResultProof V → ℕ, (∀ proof n, f { proof with lastUsed := n } = f proof) →
    s'.results.total f = s.results.total f
  get : ∀ key, ∃ n, s'.results.get key =
    (s.results.get key).map fun proof => { proof with lastUsed := n }

omit [Sqlite] in
theorem SameResults.accounted {s' : Cache V} (hsame : SameResults s s') (h : Accounted s) :
    Accounted s' where
  bytes := by
    rw [hsame.resultBytes, hsame.total _ fun _ _ => rfl]
    exact h.bytes
  limit := hsame.resultBytes ▸ h.limit
  entries := by
    rw [length_entries, hsame.total _ fun _ _ => rfl, ← length_entries]
    exact h.entries

theorem SameResults.origin {s' : Cache V} {content : Content} (hsame : SameResults s s')
    (h : ∀ key proof, s.results.get key = some proof → Valid validator content key proof)
    (key : Key) (proof : ResultProof V) (hget : s'.results.get key = some proof) :
    Valid validator content key proof := by
  obtain ⟨n, hn⟩ := hsame.get key
  rw [hn] at hget
  obtain ⟨old, hold, rfl⟩ := Option.map_eq_some_iff.1 hget
  exact h key old hold

omit [Sqlite] in
theorem sameResults_nextUse (s : Cache V) : SameResults s s.nextUse.1 := by
  unfold Cache.nextUse
  dsimp only
  split
  · refine ⟨rfl, rfl, fun f hf => ?_, fun key => ⟨0, get_map _ _ _⟩⟩
    simp only [total_map, hf]
  · refine ⟨rfl, rfl, fun _ _ => rfl, fun key => ?_⟩
    cases hget : s.results.get key with
    | none => exact ⟨0, rfl⟩
    | some proof => exact ⟨proof.lastUsed, rfl⟩

omit [Sqlite] in
theorem sameResults_touch {key : Key} (hget : s.results.get key = some proof) :
    SameResults s (s.touch key proof) := by
  have hsame := sameResults_nextUse s
  unfold Cache.touch
  generalize s.nextUse = result at hsame ⊢
  obtain ⟨s', used⟩ := result
  refine ⟨hsame.inputs, hsame.resultBytes, fun f hf => ?_, fun key' => ?_⟩
  · obtain ⟨n, hn⟩ := hsame.get key
    have htotal := total_insert_add f s'.results key { proof with lastUsed := used }
    rw [hn, hget, Option.map_some, Option.elim_some, hf proof n, hf proof used,
      hsame.total f hf] at htotal
    exact Nat.add_right_cancel htotal
  · by_cases hkey : key' = key
    · refine ⟨used, ?_⟩
      rw [get_insert, if_pos hkey, hkey, hget]
      rfl
    · obtain ⟨n, hn⟩ := hsame.get key'
      refine ⟨n, ?_⟩
      rw [get_insert, if_neg hkey]
      exact hn

theorem Sound.touch (h : Sound validator s) {key : Key} (hget : s.results.get key = some proof) :
    Sound validator (s.touch key proof) := by
  have hsame := sameResults_touch hget
  obtain ⟨c, hcopy, hvalid⟩ := h.origin
  exact ⟨hsame.accounted h.toAccounted, c, hsame.inputs ▸ hcopy, hsame.origin hvalid⟩

structure Current (validator : String → (t : ℕ) → Bytes → Content → Except WorkflowError (V t))
    (c : Connection) (s : Cache V) (candidate : Option Inputs) : Prop where
  sound : Sound validator s
  copy : ∀ inputs, candidate.or s.inputs = some inputs →
    ∃ taken : Connection, taken.content = c.content ∧ taken.capture = some inputs
  valid : ∀ key proof, s.results.get key = some proof → Valid validator c.content key proof

omit [Sqlite] in
theorem Accounted.insert (h : Accounted s) {key : Key} (hnew : s.results.get key = none)
    (hcount : s.results.entries.length < maxResults)
    (hroom : s.resultBytes + proof.accountedBytes ≤ maxResultBytes) (inputs : Option Inputs) :
    Accounted { s with
      results := s.results.insert key proof
      resultBytes := s.resultBytes + proof.accountedBytes
      inputs := inputs } where
  bytes := by
    rw [total_insert proof hnew, ← h.bytes]
  limit := hroom
  entries := by
    rw [length_entries, total_insert proof hnew, ← length_entries]
    exact hcount

theorem Current.keep {candidate : Option Inputs} (h : Current validator c s candidate)
    {value : V r.typeId} {inputs : Inputs} (hinputs : candidate.or s.inputs = some inputs)
    (hvalue : validator r.domain r.typeId r.queryKey c.content = .ok value) :
    Sound validator (s.keep r candidate value) := by
  unfold Cache.keep
  split
  · exact h.sound
  next bytes hbytes =>
  replace hbytes : bytes ≤ maxResultBytes :=
    of_decide_eq_true (Option.filter_eq_some_iff.1 hbytes).2
  split
  · exact h.sound
  next hnew =>
  replace hnew : s.results.get r.key = none := Option.not_isSome_iff_eq_none.1 hnew
  obtain ⟨haccounted, hcount, hroom⟩ :=
    accounted_evictLoop h.sound.toAccounted hbytes (Nat.le_refl s.results.entries.length)
  obtain ⟨hframe, hold⟩ := evictLoop_frame bytes s.results.entries.length s
  have hsame := sameResults_nextUse (s.evictFor bytes)
  have hvalid := hsame.origin fun key proof hget => h.valid key proof (hold key proof hget)
  have hfresh : (s.evictFor bytes).nextUse.1.results.get r.key = none := by
    obtain ⟨n, hn⟩ := hsame.get r.key
    cases hget : (s.evictFor bytes).results.get r.key with
    | none => rw [hn, hget, Option.map_none]
    | some proof => cases hnew.symm.trans (hold r.key proof hget)
  have hlength : (s.evictFor bytes).nextUse.1.results.entries.length < maxResults := by
    rw [length_entries, hsame.total _ fun _ _ => rfl, ← length_entries]
    exact hcount
  have hfits : (s.evictFor bytes).nextUse.1.resultBytes + bytes ≤ maxResultBytes := by
    rw [hsame.resultBytes]
    exact hroom
  have hcopy : candidate.or (s.evictFor bytes).nextUse.1.inputs = some inputs := by
    rw [hsame.inputs]
    exact hframe ▸ hinputs
  replace haccounted := hsame.accounted haccounted
  generalize (s.evictFor bytes).nextUse = result at hvalid hfresh hlength hfits hcopy haccounted ⊢
  obtain ⟨s', lastUsed⟩ := result
  obtain ⟨taken, htaken, hcapture⟩ := h.copy inputs hinputs
  refine ⟨haccounted.insert hfresh hlength hfits _, taken, fun inputs' hinputs' => ?_, ?_⟩
  · rw [hcapture, ← hcopy]
    exact hinputs'
  · intro key proof hget
    rw [htaken]
    by_cases hkey : key = r.key
    · rw [get_insert, if_pos hkey] at hget
      cases hget
      exact ⟨r.domain, r.typeId, r.queryKey, value, hkey, rfl, hvalue⟩
    · rw [get_insert, if_neg hkey] at hget
      exact hvalid key proof hget

/-- What may go wrong with a read, apart from its validator. -/
inductive Fault (c : Connection) : WorkflowError → Prop
  | starts {e} (h : c.starts = .error e) : Fault c e
  | recounts {e} (h : c.recounts = .error e) : Fault c e
  | unchecked {e} (h : c.integrity = .error e) : Fault c e
  | damaged (h : c.integrity = .ok false) : Fault c .corruptStore

def Faithful (validator : String → (t : ℕ) → Bytes → Content → Except WorkflowError (V t))
    (c : Connection) (r : Read V) (answer : Except WorkflowError (V r.typeId)) : Prop :=
  answer = validator r.domain r.typeId r.queryKey c.content ∨
    ¬ r.bypasses ∧ ∃ e, Fault c e ∧ answer = .error e

theorem faithful_afterIntegrity (hcached : ¬ r.bypasses)
    {result : Cache V × Except WorkflowError (V r.typeId)} (hsound : Sound validator result.1)
    (h : result.2 = validator r.domain r.typeId r.queryKey c.content) :
    Sound validator (afterIntegrity c result).1 ∧
      Faithful validator c r (afterIntegrity c result).2 := by
  unfold afterIntegrity
  split
  · next e he => exact ⟨sound_clear, .inr ⟨hcached, e, .unchecked he, rfl⟩⟩
  · next he => exact ⟨sound_clear, .inr ⟨hcached, _, .damaged he, rfl⟩⟩
  · exact ⟨hsound, .inl h⟩

theorem Current.readMiss (hcached : ¬ r.bypasses) {same : Bool} (hs : Sound validator s)
    (h : Current validator c s (if same ∨ ¬ r.captures then none else c.capture)) :
    Sound validator (readMiss validator s c r same).1 ∧
      Faithful validator c r (readMiss validator s c r same).2 := by
  unfold ReadCache.readMiss
  dsimp only
  generalize (if same ∨ ¬ r.captures then none else c.capture) = candidate at h ⊢
  cases hvalue : validator r.domain r.typeId r.queryKey c.content with
  | error e =>
    dsimp only
    split
    · exact faithful_afterIntegrity hcached sound_clear hvalue.symm
    · exact ⟨sound_clear, .inl hvalue.symm⟩
  | ok value =>
    dsimp only
    split
    · next e he => exact ⟨hs, .inr ⟨hcached, e, .recounts he, rfl⟩⟩
    cases hinputs : candidate.or s.inputs with
    | none => exact ⟨sound_clear, .inl hvalue.symm⟩
    | some inputs =>
      dsimp only
      split
      · refine faithful_afterIntegrity hcached ?_ hvalue.symm
        dsimp only
        split
        · exact h.keep hinputs hvalue
        · exact sound_clear
      · exact ⟨sound_clear, .inl hvalue.symm⟩

theorem Valid.validator_eq {content : Content} {value : V r.typeId}
    (h : Valid validator content r.key proof) (hvalue : proof.downcast r.typeId = some value) :
    validator r.domain r.typeId r.queryKey content = .ok value := by
  obtain ⟨domain, t, queryKey, stored, hkey, hstored, hvalidator⟩ := h
  obtain ⟨rfl, hview⟩ := Prod.mk.inj (toLex.injective hkey)
  obtain ⟨rfl, rfl⟩ := Prod.mk.inj (toLex.injective hview)
  obtain ⟨_, bytes, used⟩ := proof
  obtain rfl := hstored
  rw [ResultProof.downcast, dif_pos rfl] at hvalue
  cases hvalue
  exact hvalidator

theorem Sound.readInner (h : Sound validator s) (c : Connection) (r : Read V) :
    Sound validator (readInner validator s c r).1 ∧
      Faithful validator c r (readInner validator s c r).2 := by
  unfold ReadCache.readInner
  split
  · exact ⟨sound_clear, .inl rfl⟩
  next hcached =>
  split
  · next e he => exact ⟨h, .inr ⟨hcached, e, .starts he, rfl⟩⟩
  split
  · next hsame =>
    cases hinputs : s.inputs with
    | none =>
      rw [hinputs] at hsame
      cases hsame
    | some inputs =>
      rw [hinputs] at hsame
      have hmatch : inputs.matches c = true := (Bool.and_eq_true_iff.1 hsame).2
      obtain ⟨taken, hcopy, hvalid⟩ := h.origin
      have hcontent : c.content = taken.content :=
        content_eq_of_matches (hcopy inputs hinputs) hmatch
      rw [← hcontent] at hvalid
      cases hhit : s.hit r with
      | none =>
        refine Current.readMiss hcached h ⟨h, fun inputs' hinputs' => ?_, hvalid⟩
        exact ⟨taken, hcontent.symm, hcopy inputs' hinputs'⟩
      | some found =>
        obtain ⟨proof, hget, hhit⟩ := Option.bind_eq_some_iff.1 hhit
        obtain ⟨value, hvalue, hfound⟩ := Option.bind_eq_some_iff.1 hhit
        obtain rfl : (proof, value) = found := Option.some.inj hfound
        have hanswer := (hvalid _ proof hget).validator_eq hvalue
        exact faithful_afterIntegrity hcached (h.touch hget) hanswer.symm
  · refine Current.readMiss hcached sound_clear
      ⟨sound_clear, fun inputs hinputs => ⟨c, rfl, ?_⟩, fun _ _ hget => by cases hget⟩
    replace hinputs : (if false = true ∨ ¬ r.captures then none else c.capture).or none =
      some inputs := hinputs
    rw [Option.or_none] at hinputs
    split at hinputs
    · cases hinputs
    · exact hinputs

theorem Sound.readKeyedIfSized (h : Sound validator s) (c : Connection) (r : Read V) :
    Sound validator (readKeyedIfSized validator s c r).1 ∧
      Faithful validator c r (readKeyedIfSized validator s c r).2 := by
  have hinner := h.readInner c r
  unfold ReadCache.readKeyedIfSized
  generalize ReadCache.readInner validator s c r = result at hinner ⊢
  obtain ⟨s', answer⟩ := result
  cases answer with
  | error e => exact ⟨sound_clear, hinner.2⟩
  | ok value => exact hinner

def Answered (validator : String → (t : ℕ) → Bytes → Content → Except WorkflowError (V t))
    (past : List ((Connection × Read V) × Σ t, Except WorkflowError (V t))) : Prop :=
  ∀ entry ∈ past, ∃ answer, entry.2 = ⟨entry.1.2.typeId, answer⟩ ∧
    Faithful validator entry.1.1 entry.1.2 answer

/-- **The cache is invisible** up to faults of the database: a read answers as its validator does on
the content it finds, or reports that one of its own queries or the integrity check failed. -/
theorem read_cache_invisible
    (validator : String → (t : ℕ) → Bytes → Content → Except WorkflowError (V t))
    (calls : List (Connection × Read V)) :
    Answered validator ((readCache validator).trace .clear calls) ∧
      Accounted ((readCache validator).final .clear calls) := by
  have hstep : ∀ past s call, Answered validator past ∧ Sound validator s →
      Answered validator (past ++ [(call, ((readCache validator).call s call).2)]) ∧
        Sound validator ((readCache validator).call s call).1 := by
    rintro past s call ⟨hpast, hs⟩
    obtain ⟨hsound, hfaithful⟩ := hs.readKeyedIfSized call.1 call.2
    refine ⟨forall_mem_append.2 ⟨hpast, forall_mem_singleton.2 ?_⟩, hsound⟩
    exact ⟨_, rfl, hfaithful⟩
  have hnil : Answered validator [] := fun _ h => absurd h not_mem_nil
  obtain ⟨hanswered, hsound⟩ :=
    (readCache validator).final_trace hstep ⟨hnil, sound_clear⟩ calls
  exact ⟨hanswered, hsound.toAccounted⟩

end Invariants

end Store

section Sample

def utf8 (value : String) : Bytes := value.toUTF8.data.toList.map UInt8.toFin

def text (value : String) : ValueRef := .text (utf8 value)

def projections : String := "company_project_projections"

/-- The table of the projections and the index that comes with its primary key. -/
def sampleSchema : List Row :=
  [[text "index", text "sqlite_autoindex_company_project_projections_1", text projections,
      .integer 3, .null],
    [text "table", text projections, text projections, .integer 2,
      text ("CREATE TABLE company_project_projections (\n    tenant_id TEXT NOT NULL,\n" ++
        "    project_id TEXT NOT NULL,\n    source_sequence INTEGER NOT NULL,\n" ++
        "    payload BLOB NOT NULL,\n    payload_digest TEXT NOT NULL,\n" ++
        "    PRIMARY KEY (tenant_id, project_id)\n)")]]

local instance sampleTables : Sqlite where
  tableList schema :=
    if schema = sampleSchema then
      [⟨projections, "table", 0, [("tenant_id", 0), ("project_id", 0), ("source_sequence", 0),
        ("payload", 0), ("payload_digest", 0)]⟩]
    else []

def sampleRows : Query → List Row
  | .schema => sampleSchema
  | .table name =>
    if name = projections then
      [[.integer 1, text "tenant-a", text "project-a", .integer 7, .blob (utf8 "\x7b\x7d"),
        text "44136fa3"]]
    else []

theorem columnCount_sampleRows (query : Query) :
    ∀ row ∈ sampleRows query, columnCount (sampleRows .schema) query = some row.length := by
  cases query with
  | schema => decide +kernel
  | table name =>
    by_cases hname : name = projections
    · subst hname
      decide +kernel
    · simp [sampleRows, hname]

def soundStore : Connection where
  content := ⟨sampleRows, columnCount_sampleRows⟩
  temporary := 0
  attached := 0
  starts := .ok ()
  recounts := .ok ()
  integrity := .ok true

def damagedStore : Connection := { soundStore with integrity := .ok false }

/-- The sequence the projection of a project was made at. -/
def sourceSequence (content : Content) : Except WorkflowError ℤ :=
  match content.rows (.table projections) with
  | [[_, _, _, .integer sequence, _, _]] => .ok sequence
  | _ => .error .corruptStore

def sampleRead : Read fun _ => ℤ where
  eligible := true
  domain := "view"
  typeId := 0
  queryKey := []
  retain _ := true
  jsonSize _ := some 4
  inlineBytes := 0
  compares := true
  captures := true
  recompares := true

/-- Where only an index is damaged the validator finds nothing wrong, and the read reports it. -/
theorem damaged_index_reported :
    (readCache fun _ _ _ => sourceSequence).answers .clear
        [(soundStore, sampleRead), (damagedStore, sampleRead)] =
        [⟨0, .ok 7⟩, ⟨0, .error .corruptStore⟩] ∧
      sourceSequence damagedStore.content = .ok 7 := by
  decide +kernel

end Sample

end Sentinel.Workflow.ReadCache

import Mathlib.Data.List.Basic
import Mathlib.Logic.Relation

/-! Reading command lines of bounded size (`agent-runtime`): one record is read over as many
buffers as the reader takes to deliver it, and a line beyond the limit is skipped without being
kept. What the reader reports is a function of the stream alone. -/

namespace Sentinel.AgentRuntime
open List

/-- A source of bytes. It still delivers `rest`, and then the stream ends or the next read fails
with `fault`. -/
class BufRead (R : Type*) (ε : outParam Type*) where
  fillBuf : R → Except ε (List UInt8 × R)
  consume : R → ℕ → R
  rest : R → List UInt8
  fault : R → Option ε
  of_error {r : R} {e : ε} : fillBuf r = .error e → rest r = [] ∧ fault r = some e
  of_empty {r r' : R} : fillBuf r = .ok ([], r') →
    rest r = [] ∧ fault r = none ∧ rest r' = [] ∧ fault r' = none
  shown {r r' : R} {buffer : List UInt8} : fillBuf r = .ok (buffer, r') → buffer <+: rest r
  of_consume {r r' : R} {buffer : List UInt8} {n : ℕ} :
    fillBuf r = .ok (buffer, r') → n ≤ buffer.length →
      rest (consume r' n) = (rest r).drop n ∧ fault (consume r' n) = fault r

open BufRead

inductive BoundedJsonlRecord
  | record (bytes : List UInt8)
  | malformed
  | oversized
  | eof
  deriving DecidableEq

structure Scan where
  record : List UInt8
  oversized : Bool

def lineFeed : UInt8 := 10

namespace Scan

def start : Scan := ⟨[], false⟩

def extend (limit : ℕ) (scan : Scan) (part : List UInt8) : Scan :=
  if scan.oversized then scan
  -- two lengths of vectors in memory do not saturate when they are added
  else if limit < scan.record.length + part.length then ⟨[], true⟩
  else ⟨scan.record ++ part, false⟩

def atLineFeed (scan : Scan) : BoundedJsonlRecord :=
  if scan.oversized then .oversized else .record scan.record

def atEnd (scan : Scan) : BoundedJsonlRecord :=
  if scan.oversized then .oversized else if scan.record = [] then .eof else .malformed

end Scan

inductive Turn (R ε : Type*)
  | done (result : Except ε BoundedJsonlRecord) (r : R)
  | again (r : R) (scan : Scan)

section Reader

variable {R : Type*} {ε : Type*} [BufRead R ε]

def turn (limit : ℕ) (r : R) (scan : Scan) : Turn R ε :=
  match fillBuf r with
  | .error e => .done (.error e) r
  | .ok ([], r') => .done (.ok scan.atEnd) r'
  | .ok (buffer, r') =>
    match buffer.idxOf? lineFeed with
    | some newline =>
      .done (.ok (scan.extend limit (buffer.take newline)).atLineFeed) (consume r' (newline + 1))
    | none => .again (consume r' buffer.length) (scan.extend limit buffer)

/-- What the body does, by what the reader still delivers. -/
inductive Turned (limit : ℕ) (r : R) (scan : Scan) : Turn R ε → Prop
  | failed {e : ε} (hrest : rest r = []) (hfault : fault r = some e) :
    Turned limit r scan (.done (.error e) r)
  | ended {r' : R} (hrest : rest r = []) (hfault : fault r = none) (hrest' : rest r' = [])
    (hfault' : fault r' = none) : Turned limit r scan (.done (.ok scan.atEnd) r')
  | line {r' : R} (part : List UInt8) (hpart : lineFeed ∉ part)
    (hrest : rest r = part ++ lineFeed :: rest r') (hfault : fault r' = fault r) :
    Turned limit r scan (.done (.ok (scan.extend limit part).atLineFeed) r')
  | part {r' : R} (part : List UInt8) (hne : part ≠ []) (hpart : lineFeed ∉ part)
    (hrest : rest r = part ++ rest r') (hfault : fault r' = fault r) :
    Turned limit r scan (.again r' (scan.extend limit part))

theorem idxOf?_lineFeed {buffer : List UInt8} {i : ℕ} (h : buffer.idxOf? lineFeed = some i) :
    lineFeed ∉ buffer.take i ∧ buffer = buffer.take i ++ lineFeed :: buffer.drop (i + 1) := by
  obtain ⟨hi, hat, hbefore⟩ := idxOf?_eq_some_iff.1 h
  constructor
  · intro hmem
    obtain ⟨j, hj, heq⟩ := mem_take_iff_getElem.1 hmem
    exact hbefore j (Nat.lt_of_lt_of_le hj (Nat.min_le_left ..)) heq
  · rw [← hat, ← drop_eq_getElem_cons hi, take_append_drop]

theorem turn_cases (limit : ℕ) (r : R) (scan : Scan) : Turned limit r scan (turn limit r scan) := by
  unfold turn
  split
  next e h =>
    obtain ⟨hrest, hfault⟩ := of_error h
    exact .failed hrest hfault
  next r' h =>
    obtain ⟨hrest, hfault, hrest', hfault'⟩ := of_empty h
    exact .ended hrest hfault hrest' hfault'
  next buffer r' hne h =>
    obtain ⟨later, hlater⟩ := shown h
    split
    next newline hat =>
      obtain ⟨hpart, hbuffer⟩ := idxOf?_lineFeed hat
      have hlength : newline + 1 ≤ buffer.length := (idxOf?_eq_some_iff.1 hat).1
      obtain ⟨hrest, hfault⟩ := of_consume h hlength
      refine .line _ hpart ?_ hfault
      rw [hrest, ← hlater, drop_append_of_le_length hlength, ← cons_append,
        ← append_assoc, ← hbuffer]
    next hat =>
      obtain ⟨hrest, hfault⟩ := of_consume h (Nat.le_refl _)
      refine .part buffer ?_ (idxOf?_eq_none_iff.1 hat) ?_ hfault
      · rintro rfl
        exact hne rfl
      · rw [hrest, ← hlater, drop_left]

variable {limit : ℕ} {stream part : List UInt8} {r : R}

theorem rest_lt_of_again {r' : R} {scan scan' : Scan} (h : turn limit r scan = .again r' scan') :
    (rest r').length < (rest r).length := by
  have hturn := turn_cases limit r scan
  rw [h] at hturn
  cases hturn with
  | part part hne hpart hrest hfault =>
    rw [hrest, length_append]
    exact Nat.lt_add_of_pos_left (length_pos_of_ne_nil hne)

def readLoop (limit : ℕ) (r : R) (scan : Scan) : Except ε BoundedJsonlRecord × R :=
  match _h : turn limit r scan with
  | .done result r' => (result, r')
  | .again r' scan' => readLoop limit r' scan'
termination_by (rest r).length
decreasing_by exact rest_lt_of_again _h

/-- The limit is `MAX_WORKBENCH_FRAME_BYTES`. -/
def readBoundedJsonlRecord (limit : ℕ) (r : R) : Except ε BoundedJsonlRecord × R :=
  readLoop limit r .start

def Scans (limit : ℕ) (r : R) (r' : R) (scan : Scan) : Prop :=
  Relation.ReflTransGen (fun a b : R × Scan => turn limit a.1 a.2 = .again b.1 b.2) (r, .start)
    (r', scan)

/-! ## The line so far -/

def Scan.of (limit : ℕ) (line : List UInt8) : Scan :=
  if line.length ≤ limit then ⟨line, false⟩ else ⟨[], true⟩

theorem Scan.extend_of (limit : ℕ) (line part : List UInt8) :
    (Scan.of limit line).extend limit part = .of limit (line ++ part) := by
  simp only [Scan.of, Scan.extend, length_append]
  by_cases hline : line.length ≤ limit
  · by_cases hpart : line.length + part.length ≤ limit
    · simp [hline, hpart]
    · simp [hline, hpart, Nat.not_le.1 hpart]
  · have hlong : ¬ line.length + part.length ≤ limit := by omega
    simp [hline, hlong]

theorem Scan.of_nil (limit : ℕ) : Scan.of limit [] = .start := if_pos (Nat.zero_le limit)

theorem Scan.length_record_of (limit : ℕ) (line : List UInt8) :
    (Scan.of limit line).record.length ≤ limit := by
  unfold Scan.of
  split_ifs with h
  · exact h
  · exact Nat.zero_le _

theorem Scans.exists_line {r' : R} {scan : Scan} (h : Scans limit r r' scan) :
    ∃ line, scan = .of limit line := by
  suffices hstate : ∀ state : R × Scan,
      Relation.ReflTransGen (fun a b => turn limit a.1 a.2 = .again b.1 b.2) (r, .start) state →
        ∃ line, state.2 = .of limit line from hstate _ h
  intro state hreach
  induction hreach with
  | refl => exact ⟨[], (Scan.of_nil limit).symm⟩
  | @tail a b _ hstep ih =>
    obtain ⟨line, hline⟩ := ih
    have hturn := turn_cases limit a.1 a.2
    rw [hstep] at hturn
    generalize hscan : b.2 = scan' at hturn ⊢
    cases hturn with
    | part part _ _ _ _ => exact ⟨line ++ part, by rw [hline, Scan.extend_of]⟩

/-! ## The lines of the stream -/

def lineReport (limit : ℕ) (line : List UInt8) : BoundedJsonlRecord :=
  if line.length ≤ limit then .record line else .oversized

def tailReport (limit : ℕ) (tail : List UInt8) : List BoundedJsonlRecord :=
  if tail = [] then [] else if tail.length ≤ limit then [.malformed] else [.oversized]

/-- A report for each line that ends in a line feed, and one for a last line that does not. -/
def streamReports (limit : ℕ) (fault : Option ε) (stream : List UInt8) :
    List BoundedJsonlRecord :=
  let lines := stream.splitOn lineFeed
  lines.dropLast.map (lineReport limit) ++
    if fault.isSome then [] else tailReport limit (lines.getLastD [])

def firstLine (stream : List UInt8) : List UInt8 := stream.takeWhile (· ≠ lineFeed)

def afterLine (stream : List UInt8) : List UInt8 := (stream.dropWhile (· ≠ lineFeed)).tail

theorem firstLine_append (hpart : lineFeed ∉ part) (stream : List UInt8) :
    firstLine (part ++ stream) = part ++ firstLine stream := by
  apply takeWhile_append_of_pos
  intro b hb
  exact decide_eq_true fun h => hpart (h ▸ hb)

theorem afterLine_append (hpart : lineFeed ∉ part) (stream : List UInt8) :
    afterLine (part ++ stream) = afterLine stream := by
  unfold afterLine
  rw [dropWhile_append_of_pos]
  intro b hb
  exact decide_eq_true fun h => hpart (h ▸ hb)

theorem length_afterLine_lt (h : stream ≠ []) : (afterLine stream).length < stream.length := by
  have hdrop := (dropWhile_sublist (p := (· ≠ lineFeed)) (l := stream)).length_le
  have hpos := length_pos_of_ne_nil h
  simp only [afterLine, length_tail]
  omega

def firstReport (limit : ℕ) (fault : Option ε) (line stream : List UInt8) :
    Except ε BoundedJsonlRecord :=
  if lineFeed ∈ stream then .ok (lineReport limit (line ++ firstLine stream))
  else match fault with
    | some e => .error e
    | none => .ok (Scan.of limit (line ++ stream)).atEnd

theorem firstReport_append (hpart : lineFeed ∉ part) (limit : ℕ) (fault : Option ε)
    (line stream : List UInt8) :
    firstReport limit fault line (part ++ stream) =
      firstReport limit fault (line ++ part) stream := by
  simp only [firstReport, firstLine_append hpart, mem_append, hpart, false_or,
    append_assoc]

theorem Scan.atLineFeed_of (limit : ℕ) (line : List UInt8) :
    (Scan.of limit line).atLineFeed = lineReport limit line := by
  unfold Scan.of lineReport
  split_ifs <;> rfl

theorem readLoop_eq (limit : ℕ) (r : R) (line : List UInt8) :
    (readLoop limit r (.of limit line)).1 = firstReport limit (fault r) line (rest r) ∧
      rest (readLoop limit r (.of limit line)).2 = afterLine (rest r) ∧
      fault (readLoop limit r (.of limit line)).2 = fault r := by
  generalize hscan : Scan.of limit line = scan
  fun_induction readLoop limit r scan generalizing line with
  | case1 r scan result r' h =>
    have hturn := turn_cases limit r scan
    rw [h] at hturn
    subst hscan
    cases hturn with
    | failed hrest hfault => simp [hrest, hfault, firstReport, afterLine]
    | ended hrest hfault hrest' hfault' =>
      simp [hrest, hfault, hrest', hfault', firstReport, afterLine]
    | line part hpart hrest hfault =>
      have hfirst : firstLine (rest r) = part := by
        rw [hrest, firstLine_append hpart]
        simp [firstLine]
      have hafter : afterLine (rest r) = rest r' := by
        rw [hrest, afterLine_append hpart]
        simp [afterLine]
      refine ⟨?_, hafter.symm, hfault⟩
      have hmem : lineFeed ∈ rest r := hrest ▸ by simp
      unfold firstReport
      rw [if_pos hmem, hfirst, Scan.extend_of, Scan.atLineFeed_of]
  | case2 r scan r' scan' h ih =>
    have hturn := turn_cases limit r scan
    rw [h] at hturn
    subst hscan
    cases hturn with
    | part part _ hpart hrest hfault =>
      obtain ⟨hreport, hafter, hfault'⟩ := ih (line ++ part) (Scan.extend_of ..).symm
      refine ⟨?_, ?_, hfault'.trans hfault⟩
      · rw [hreport, hrest, hfault, firstReport_append hpart]
      · rw [hafter, hrest, afterLine_append hpart]

theorem readBoundedJsonlRecord_eq (limit : ℕ) (r : R) :
    (readBoundedJsonlRecord limit r).1 = firstReport limit (fault r) [] (rest r) ∧
      rest (readBoundedJsonlRecord limit r).2 = afterLine (rest r) ∧
      fault (readBoundedJsonlRecord limit r).2 = fault r := by
  have h := readLoop_eq limit r []
  rwa [Scan.of_nil] at h

theorem rest_ne_nil_of_ok {report : BoundedJsonlRecord}
    (h : (readBoundedJsonlRecord limit r).1 = .ok report) (hne : report ≠ .eof) : rest r ≠ [] := by
  intro hnil
  rw [(readBoundedJsonlRecord_eq limit r).1, hnil] at h
  apply hne
  cases hfault : fault r with
  | none =>
    have heof : (Scan.of limit []).atEnd = report := by simpa [firstReport, hfault] using h
    rw [← heof, Scan.of_nil]
    rfl
  | some e => simp [firstReport, hfault] at h

def records (limit : ℕ) (r : R) : List BoundedJsonlRecord × Option ε :=
  match _h : readBoundedJsonlRecord limit r with
  | (.error e, _) => ([], some e)
  | (.ok report, r') =>
    if _hreport : report = .eof then ([], none)
    else (report :: (records limit r').1, (records limit r').2)
termination_by (rest r).length
decreasing_by
  all_goals
    have hnext := readBoundedJsonlRecord_eq limit r
    rw [_h] at hnext
    rw [hnext.2.1]
    exact length_afterLine_lt (rest_ne_nil_of_ok (congrArg Prod.fst _h) _hreport)

theorem streamReports_of_mem (h : lineFeed ∈ stream) (limit : ℕ) (fault : Option ε) :
    streamReports limit fault stream =
      lineReport limit (firstLine stream) :: streamReports limit fault (afterLine stream) := by
  obtain ⟨line, later, rfl, hline⟩ := eq_append_cons_of_mem h
  have hsplit : (line ++ lineFeed :: later).splitOn lineFeed = line :: later.splitOn lineFeed := by
    apply splitOnP_append_cons_of_forall_mem
    · intro b hb
      exact beq_false_of_ne fun heq => hline (heq ▸ hb)
    · exact beq_self_eq_true _
  have hfirst : firstLine (line ++ lineFeed :: later) = line := by
    rw [firstLine_append hline]
    simp [firstLine]
  have hafter : afterLine (line ++ lineFeed :: later) = later := by
    rw [afterLine_append hline]
    simp [afterLine]
  obtain ⟨next, lines, hlines⟩ := exists_cons_of_ne_nil (splitOn_ne_nil lineFeed later)
  simp only [streamReports, hsplit, hfirst, hafter, hlines]
  rfl

theorem streamReports_of_notMem (h : lineFeed ∉ stream) (limit : ℕ) (fault : Option ε) :
    streamReports limit fault stream = if fault.isSome then [] else tailReport limit stream := by
  have hsplit : stream.splitOn lineFeed = [stream] := by
    apply splitOnP_eq_singleton
    intro b hb
    exact beq_false_of_ne fun heq => h (heq ▸ hb)
  simp only [streamReports, hsplit]
  rfl

theorem tailReport_eq (limit : ℕ) (tail : List UInt8) :
    tailReport limit tail =
      if (Scan.of limit tail).atEnd = .eof then [] else [(Scan.of limit tail).atEnd] := by
  unfold tailReport Scan.of Scan.atEnd
  by_cases hnil : tail = []
  · simp [hnil]
  · by_cases hlong : tail.length ≤ limit
    · simp [hnil, hlong]
    · simp [hnil, hlong]

theorem firstReport_eq_ok {fault : Option ε} {report : BoundedJsonlRecord}
    (h : firstReport limit fault [] stream = .ok report) :
    lineFeed ∈ stream ∧ report = lineReport limit (firstLine stream) ∨
      lineFeed ∉ stream ∧ fault = none ∧ report = (Scan.of limit stream).atEnd := by
  unfold firstReport at h
  split_ifs at h with hmem
  · cases h
    exact .inl ⟨hmem, rfl⟩
  · cases fault with
    | none =>
      cases h
      exact .inr ⟨hmem, rfl, rfl⟩
    | some e => cases h

theorem firstReport_eq_error {fault : Option ε} {e : ε}
    (h : firstReport limit fault [] stream = .error e) : lineFeed ∉ stream ∧ fault = some e := by
  unfold firstReport at h
  split_ifs at h with hmem
  cases fault with
  | none => cases h
  | some e =>
    cases h
    exact ⟨hmem, rfl⟩

theorem lineReport_ne_eof (limit : ℕ) (line : List UInt8) : lineReport limit line ≠ .eof := by
  unfold lineReport
  split_ifs <;> exact nofun

theorem records_eq (limit : ℕ) (r : R) :
    records limit r = (streamReports limit (fault r) (rest r), fault r) := by
  fun_induction records limit r with
  | case1 r e r' h =>
    have hread := (readBoundedJsonlRecord_eq limit r).1
    rw [h] at hread
    obtain ⟨hmem, hfault⟩ := firstReport_eq_error hread.symm
    rw [streamReports_of_notMem hmem, hfault]
    rfl
  | case2 r r' h =>
    have hread := (readBoundedJsonlRecord_eq limit r).1
    rw [h] at hread
    rcases firstReport_eq_ok hread.symm with ⟨-, heof⟩ | ⟨hmem, hfault, heof⟩
    · exact absurd heof.symm (lineReport_ne_eof _ _)
    · rw [streamReports_of_notMem hmem, hfault, tailReport_eq, if_pos heof.symm]
      rfl
  | case3 r report r' h hreport ih =>
    obtain ⟨hread, hrest, hfault'⟩ := readBoundedJsonlRecord_eq limit r
    rw [h] at hread hrest hfault'
    rw [ih, hrest, hfault']
    rcases firstReport_eq_ok hread.symm with ⟨hmem, rfl⟩ | ⟨hmem, hfault, rfl⟩
    · rw [streamReports_of_mem hmem]
    · -- an unfinished line was the last one: nothing comes after it
      have hnil : afterLine (rest r) = [] := by
        have hend := afterLine_append hmem []
        rwa [append_nil] at hend
      rw [streamReports_of_notMem hmem, hnil, streamReports_of_notMem not_mem_nil, hfault,
        tailReport_eq limit (rest r), if_neg hreport]
      rfl

/-- **The reports are those of the lines of the stream**, however it comes in buffers, and the
loop never keeps more than the limit. -/
theorem records_are_lines (limit : ℕ) (r : R) :
    records limit r = (streamReports limit (fault r) (rest r), fault r) ∧
      ∀ r' scan, Scans limit r r' scan →
        ∀ part, (scan.extend limit part).record.length ≤ limit ∧ scan.record.length ≤ limit := by
  refine ⟨records_eq limit r, fun r' scan hscan part => ?_⟩
  obtain ⟨line, rfl⟩ := hscan.exists_line
  rw [Scan.extend_of]
  exact ⟨Scan.length_record_of .., Scan.length_record_of ..⟩

end Reader

section Buffers

structure Buffered (ε : Type*) where
  buffers : List { buffer : List UInt8 // buffer ≠ [] }
  fault : Option ε

variable {ε : Type*}

def Buffered.fillBuf (b : Buffered ε) : Except ε (List UInt8 × Buffered ε) :=
  match b.buffers, b.fault with
  | buffer :: _, _ => .ok (buffer.1, b)
  | [], some e => .error e
  | [], none => .ok ([], b)

def Buffered.consume (b : Buffered ε) (n : ℕ) : Buffered ε :=
  match b.buffers with
  | [] => b
  | buffer :: later =>
    if h : buffer.1.drop n = [] then { b with buffers := later }
    else { b with buffers := ⟨buffer.1.drop n, h⟩ :: later }

def Buffered.rest (b : Buffered ε) : List UInt8 := (b.buffers.map Subtype.val).flatten

theorem Buffered.rest_consume {b : Buffered ε} {buffer : { buffer : List UInt8 // buffer ≠ [] }}
    {later : List { buffer : List UInt8 // buffer ≠ [] }} (h : b.buffers = buffer :: later)
    {n : ℕ} (hn : n ≤ buffer.1.length) :
    (b.consume n).rest = b.rest.drop n ∧ (b.consume n).fault = b.fault := by
  have hrest : b.rest.drop n = buffer.1.drop n ++ (later.map Subtype.val).flatten := by
    rw [rest, h, map_cons, flatten_cons, drop_append_of_le_length hn]
  rw [hrest]
  unfold consume
  rw [h]
  dsimp only
  split_ifs with hdrop
  · rw [hdrop]
    exact ⟨rfl, rfl⟩
  · exact ⟨rfl, rfl⟩

instance : BufRead (Buffered ε) ε where
  fillBuf := Buffered.fillBuf
  consume := Buffered.consume
  rest := Buffered.rest
  fault := Buffered.fault
  of_error {b e} h := by
    obtain ⟨_ | ⟨buffer, later⟩, _ | e'⟩ := b <;> cases h
    exact ⟨rfl, rfl⟩
  of_empty {b b'} h := by
    obtain ⟨_ | ⟨⟨buffer, hne⟩, later⟩, _ | e'⟩ := b <;> cases h
    · exact ⟨rfl, rfl, rfl, rfl⟩
    · exact absurd rfl hne
    · exact absurd rfl hne
  shown {b b' buffer} h := by
    obtain ⟨_ | ⟨⟨buffer, hne⟩, later⟩, _ | e'⟩ := b <;> cases h
    · exact prefix_rfl
    · exact prefix_append ..
    · exact prefix_append ..
  of_consume {b b' buffer n} h hn := by
    obtain ⟨_ | ⟨⟨buffer, hne⟩, later⟩, _ | e'⟩ := b <;> cases h
    · obtain rfl := Nat.le_zero.1 hn
      exact ⟨rfl, rfl⟩
    · exact Buffered.rest_consume rfl hn
    · exact Buffered.rest_consume rfl hn

end Buffers

end Sentinel.AgentRuntime

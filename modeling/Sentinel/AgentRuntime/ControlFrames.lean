import Sentinel.AgentRuntime.JsonlReader

/-! Control frames on their way to an agent: the host writes each one with its line feed to a pipe
that takes bytes as it likes (`sentinel-sandbox`, module `enforcer`), and the thread that reads
commands turns every line into one event (`agent-runtime`). -/

namespace Sentinel.AgentRuntime
open BufRead List

/-! ## The runtime -/

inductive ReaderEvent (Command : Type*)
  | command (command : Command)
  | malformed
  | oversized
  | eof

def isAsciiWhitespace (b : UInt8) : Bool := b ∈ ([9, 10, 12, 13, 32] : List UInt8)

section Runtime
variable {Command : Type*} (fromSlice : List UInt8 → Option Command)

def frameEvent (bytes : List UInt8) : ReaderEvent Command :=
  if bytes.all isAsciiWhitespace then .malformed
  else (fromSlice bytes).elim .malformed .command

def readerEvent : BoundedJsonlRecord → Option (ReaderEvent Command)
  | .record bytes => some (frameEvent fromSlice bytes)
  | .malformed => some .malformed
  | .oversized => some .oversized
  | .eof => none

/-- The events that are received. After `taken` of them the receiver is gone, and the next send
fails. -/
def readCommandsFrom {R ε : Type*} [BufRead R ε] (limit : ℕ) (r : R) :
    ℕ → List (ReaderEvent Command)
  | 0 => []
  | taken + 1 =>
    match readBoundedJsonlRecord limit r with
    | (.error _, _) => [.eof]
    | (.ok report, r') =>
      match readerEvent fromSlice report with
      | some event => event :: readCommandsFrom limit r' taken
      | none => [.eof]

theorem readCommandsFrom_eq {R ε : Type*} [BufRead R ε] (limit : ℕ) (r : R) (taken : ℕ) :
    readCommandsFrom fromSlice limit r taken =
      ((records limit r).1.filterMap (readerEvent fromSlice) ++ [ReaderEvent.eof]).take taken := by
  induction taken generalizing r with
  | zero => rfl
  | succ taken ih =>
    rw [readCommandsFrom]
    fun_cases records limit r with
    | case1 e r' h => simp [h]
    | case2 r' h => simp [h, readerEvent]
    | case3 report r' h hreport =>
      rw [h]
      cases report with
      | eof => exact absurd rfl hreport
      | _ => simp [readerEvent, ih]

end Runtime

/-! ## The host -/

/-- What one `write` to the pipe does. `expired` says whether the deadline has passed when the
pipe is full. -/
inductive PipeWrite
  | wrote (n : ℕ)
  | wouldBlock (expired : Bool)
  | failed (error : String)

/-- What reaches the pipe, and what the pipe does after it. A pipe that takes nothing more lets the
deadline pass. -/
def writeNonblockingUntil : List PipeWrite → List UInt8 →
    List UInt8 × Except String (List PipeWrite)
  | pipe, [] => ([], .ok pipe)
  | [], _ => ([], .error "sandbox protocol pipe remained backpressured")
  | .wrote 0 :: _, _ => ([], .error "sandbox protocol pipe accepted no data")
  | .wrote (n + 1) :: pipe, bytes =>
    let (sent, result) := writeNonblockingUntil pipe (bytes.drop (n + 1))
    (bytes.take (n + 1) ++ sent, result)
  | .wouldBlock expired :: pipe, bytes =>
    if expired then ([], .error "sandbox protocol pipe remained backpressured")
    else writeNonblockingUntil pipe bytes
  | .failed error :: _, _ => ([], .error error)

def writeProtocolLine (limit : ℕ) (pipe : List PipeWrite) (line : List UInt8) :
    List UInt8 × Except String (List PipeWrite) :=
  if limit < line.length then ([], .error "sandbox protocol input exceeded its configured bound")
  else if line.any fun b => b = lineFeed ∨ b = 13 then
    ([], .error "sandbox protocol input must contain exactly one JSONL record")
  else
    match writeNonblockingUntil pipe line with
    | (sent, .error e) => (sent, .error ("write sandbox protocol frame: " ++ e))
    | (sent, .ok later) =>
      let (ending, result) := writeNonblockingUntil later [lineFeed]
      (sent ++ ending, result.mapError ("write sandbox protocol frame: " ++ ·))

/-- All that reaches the pipe, and how many lines were written to their end. A failed write is the
last one: the supervisor then closes the pipe. -/
def writeLines (limit : ℕ) : List PipeWrite → List (List UInt8) → List UInt8 × ℕ
  | _, [] => ([], 0)
  | pipe, line :: lines =>
    match writeProtocolLine limit pipe line with
    | (sent, .error _) => (sent, 0)
    | (sent, .ok later) => ((sent ++ (writeLines limit later lines).1),
        (writeLines limit later lines).2 + 1)

theorem writeNonblockingUntil_cases (pipe : List PipeWrite) (bytes : List UInt8) :
    (∃ later, writeNonblockingUntil pipe bytes = (bytes, .ok later)) ∨
      ∃ sent e, writeNonblockingUntil pipe bytes = (sent, .error e) ∧ sent <+: bytes ∧
        sent ≠ bytes := by
  fun_induction writeNonblockingUntil pipe bytes with
  | case1 pipe => exact .inl ⟨pipe, rfl⟩
  | case4 n pipe bytes hne sent result hrest ih =>
    have hbytes := take_append_drop (n + 1) bytes
    rw [hrest] at ih
    rcases ih with ⟨later, h⟩ | ⟨sent', e, h, hsent, hpart⟩ <;> cases h
    · exact .inl ⟨later, by rw [hbytes]⟩
    · refine .inr ⟨_, e, rfl, ?_, fun h => hpart ?_⟩
      · have happend := (prefix_append_right_inj (bytes.take (n + 1))).2 hsent
        rwa [hbytes] at happend
      · exact append_cancel_left (h.trans hbytes.symm)
  | case6 pipe bytes hne expired hexpired ih => exact ih
  | _ => exact .inr ⟨[], _, rfl, ⟨_, rfl⟩, fun h => by simp_all⟩

theorem writeProtocolLine_cases (limit : ℕ) (pipe : List PipeWrite) (line : List UInt8) :
    (∃ later, writeProtocolLine limit pipe line = (line ++ [lineFeed], .ok later) ∧
        line.length ≤ limit ∧ lineFeed ∉ line) ∨
      ∃ sent e, writeProtocolLine limit pipe line = (sent, .error e) ∧ sent.length ≤ limit ∧
        lineFeed ∉ sent := by
  unfold writeProtocolLine
  split_ifs with hlong hfeed
  · exact .inr ⟨[], _, rfl, Nat.zero_le _, not_mem_nil⟩
  · exact .inr ⟨[], _, rfl, Nat.zero_le _, not_mem_nil⟩
  · have hlength : line.length ≤ limit := Nat.not_lt.1 hlong
    have hfeed : lineFeed ∉ line :=
      fun hmem => hfeed (any_eq_true.2 ⟨lineFeed, hmem, by simp⟩)
    rcases writeNonblockingUntil_cases pipe line with ⟨later, h⟩ | ⟨sent, e, h, hsent, -⟩
    · rcases writeNonblockingUntil_cases later [lineFeed] with
        ⟨after, hend⟩ | ⟨ending, e, hend, hending, hpart⟩
      · simp only [h, hend]
        exact .inl ⟨after, rfl, hlength, hfeed⟩
      · obtain rfl : ending = [] := by
          rcases prefix_cons_iff.1 hending with hnil | ⟨tail, rfl, htail⟩
          · exact hnil
          · exact absurd (congrArg _ (prefix_nil.1 htail)) hpart
        simp only [h, hend, append_nil]
        exact .inr ⟨line, _, rfl, hlength, hfeed⟩
    · simp only [h]
      refine .inr ⟨sent, _, rfl, Nat.le_trans hsent.length_le hlength, fun hmem => hfeed ?_⟩
      exact hsent.subset hmem

/-! ## From the host to the runtime -/

section Frames
variable {Command R ε : Type*} [BufRead R ε]

theorem streamReports_writeLines (limit : ℕ) (pipe : List PipeWrite) (lines : List (List UInt8)) :
    ∃ torn ∈ [[], [BoundedJsonlRecord.malformed]],
      streamReports limit (none : Option ε) (writeLines limit pipe lines).1 =
        (lines.take (writeLines limit pipe lines).2).map .record ++ torn := by
  induction lines generalizing pipe with
  | nil => exact ⟨[], by simp, rfl⟩
  | cons line lines ih =>
    rcases writeProtocolLine_cases limit pipe line with
      ⟨later, h, hlength, hfeed⟩ | ⟨sent, e, h, hlength, hfeed⟩
    · obtain ⟨torn, htorn, ih⟩ := ih later
      refine ⟨torn, htorn, ?_⟩
      simp only [writeLines, h, append_assoc, take_succ_cons, map_cons,
        cons_append, ← ih]
      rw [streamReports_of_mem (by simp), firstLine_append hfeed, afterLine_append hfeed]
      simp [firstLine, afterLine, lineReport, hlength]
    · refine ⟨tailReport limit sent, ?_, ?_⟩
      · unfold tailReport
        split_ifs <;> simp
      · simp only [writeLines, h, take_zero, map_nil, nil_append]
        rw [streamReports_of_notMem hfeed]
        rfl

/-- **Frames arrive whole or not at all.** The pipe may take the bytes in any pieces and fail at
any point, and the reader may get them in any others: each frame that was written to its end is
one event, in order, and of a frame that was not, no command is read. -/
theorem written_frames_arrive (fromSlice : List UInt8 → Option Command) (limit : ℕ)
    (pipe : List PipeWrite) (lines : List (List UInt8)) (r : R)
    (hrest : rest r = (writeLines limit pipe lines).1) (hfault : fault r = none) :
    ∃ torn ∈ [[], [ReaderEvent.malformed]], ∀ taken,
      readCommandsFrom fromSlice limit r taken =
        ((lines.take (writeLines limit pipe lines).2).map (frameEvent fromSlice) ++ torn ++
          [ReaderEvent.eof]).take taken := by
  obtain ⟨torn, htorn, hreports⟩ := streamReports_writeLines (ε := ε) limit pipe lines
  refine ⟨torn.filterMap (readerEvent fromSlice), ?_, fun taken => ?_⟩
  · rcases mem_pair.1 htorn with rfl | rfl <;> simp [readerEvent]
  · have hframes (frames : List (List UInt8)) :
        (frames.map .record).filterMap (readerEvent fromSlice) =
          frames.map (frameEvent fromSlice) := by
      simp [filterMap_map, Function.comp_def, readerEvent]
    rw [readCommandsFrom_eq, records_eq, hrest, hfault, hreports, filterMap_append, hframes]

end Frames

/-- The pipe takes the first frame and its line feed, and fails before that of the second. -/
def failingPipe : List PipeWrite :=
  [.wrote 1, .wouldBlock false, .wrote 1, .wrote 1, .failed "EPIPE"]

def afterFailure : Buffered Unit := ⟨[⟨[49], by decide⟩, ⟨[10, 50], by decide⟩], none⟩

theorem torn_frame_is_no_command :
    writeLines 4 failingPipe [[49], [50], [51]] = ([49, 10, 50], 1) ∧
      ∃ torn ∈ [[], [ReaderEvent.malformed]], ∀ taken,
        readCommandsFrom some 4 afterFailure taken =
          ([[49]].map (frameEvent some) ++ torn ++ [ReaderEvent.eof]).take taken :=
  ⟨rfl, written_frames_arrive some 4 failingPipe [[49], [50], [51]] afterFailure rfl rfl⟩

end Sentinel.AgentRuntime

import Sentinel.Gateway.Pipeline

/-! Speakers and listeners of a room (`cortex-gateway`, `sequencing/queue.go`, and steps 7.6 and 8d
of `ServeHTTP`). A request that is spoken to is marked active in its room before its main call and
completed near the end of the handler; one that only listens waits for the oldest active speaker.
Requests run concurrently: a run is a list of request ids, and each occurrence lets that request
do its next effect. -/

namespace Sentinel.Gateway.Pipeline
open Lib Intercept Function List

section Script

variable {g : PipelineHandler} {snap : Snapshot} {req : Request} {o : Outcomes}

def Unseen : Effect → Prop
  | .markP1Active .. | .hasActiveP1 .. | .findP1 .. | .awaitP1 .. | .completeP1 .. => False
  | _ => True

variable {e : Effect} {provider name : String}

theorem unseen_of_isSideCall (he : IsSideCall provider e) : Unseen e := by
  obtain ⟨purpose, result, -, rfl⟩ := he
  trivial

theorem unseen_applyGuardrails : ∀ e ∈ (applyGuardrails g snap req o name).1, Unseen e := by
  unfold applyGuardrails
  split
  · exact fun e he => absurd he not_mem_nil
  · exact forall_mem_singleton.2 trivial

theorem unseen_consultation : ∀ e ∈ consultation g req name, Unseen e := by
  unfold consultation
  split
  · exact forall_mem_singleton.2 trivial
  · exact fun e he => absurd he not_mem_nil

theorem mem_forward (he : e ∈ forward g snap req o name provider) :
    Unseen e ∨ ∃ reply, .send provider .main (.ok reply) ∈ forward g snap req o name provider ∧
      e ∈ completion g snap req o provider reply := by
  have hforward : Forwarded g snap req o name provider (forward g snap req o name provider) :=
    forwarded_forward name provider
  generalize forward g snap req o name provider = effects at he hforward ⊢
  have htwo {first second : Effect} (he : e ∈ [first, second]) (hfirst : Unseen first)
      (hsecond : Unseen second) : Unseen e :=
    forall_mem_cons.2 ⟨hfirst, forall_mem_singleton.2 hsecond⟩ e he
  cases hforward with
  | stopped => cases he
  | streamed | failed | stale => exact .inl (htwo he trivial trivial)
  | delivered reply =>
    rcases mem_cons.1 he with rfl | he
    · exact .inl trivial
    rcases mem_cons.1 he with rfl | he
    · exact .inl trivial
    rcases mem_append.1 he with he | he
    · refine .inl ?_
      rcases mem_append.1 he with he | he
      · unfold recordUsage at he
        split at he
        · exact htwo he trivial trivial
        · cases he
      · exact unseen_of_isSideCall (isSideCall_guardStage _ e he)
    · exact .inr ⟨reply, mem_cons_self, he⟩

theorem mem_completion {reply : Reply} (he : e ∈ completion g snap req o provider reply) :
    ∃ content, released g snap req o provider reply = some content ∧
      e = .completeP1 (req.metadata "room_id") req.id content := by
  unfold completion at he
  split at he
  · cases he
  next content hcontent =>
  split at he
  · exact ⟨content, hcontent, mem_singleton.1 he⟩
  · cases he

variable (g snap req o) in
theorem serveHTTP_cases : (∀ e ∈ serveHTTP g snap req o, Unseen e) ∨
    ∃ quiet rest, serveHTTP g snap req o = quiet ++ ((sequencingStage g snap req o).1 ++ rest) ∧
      (∀ e ∈ quiet, Unseen e) ∧
        ((sequencingStage g snap req o).2.action = .drop ∧ rest = [] ∨
          ∃ name provider, rest = forward g snap req o name provider) := by
  rcases path_serveHTTP g snap req o with hnil | ⟨name, -, hpath⟩
  · rw [hnil]
    exact .inl fun e he => absurd he not_mem_nil
  have hstart : ∀ e ∈ consultation g req name ++ (applyGuardrails g snap req o name).1, Unseen e :=
    forall_mem_append.2 ⟨unseen_consultation, unseen_applyGuardrails⟩
  have hquiet (provider : String) : ∀ e ∈ consultation g req name ++
      (applyGuardrails g snap req o name).1 ++ (synthesisStage g snap req o provider).1, Unseen e :=
    forall_mem_append.2
      ⟨hstart, fun e he => unseen_of_isSideCall (isSideCall_synthesisStage e he)⟩
  generalize serveHTTP g snap req o = effects at hpath ⊢
  cases hpath with
  | broken => exact .inl (forall_mem_singleton.2 trivial)
  | rejected => exact .inl hstart
  | answered provider => exact .inl (hquiet provider)
  | dropped provider hdrop =>
    refine .inr ⟨_, [], ?_, hquiet provider, .inl ⟨hdrop, rfl⟩⟩
    rw [append_nil]
  | forwarded provider =>
    refine .inr ⟨_, _, ?_, hquiet provider, .inr ⟨name, provider, rfl⟩⟩
    rw [append_assoc _ (sequencingStage g snap req o).1]

theorem mem_serveHTTP (he : e ∈ serveHTTP g snap req o) :
    Unseen e ∨ e ∈ (sequencingStage g snap req o).1 ∨
      ∃ provider reply, .send provider .main (.ok reply) ∈ serveHTTP g snap req o ∧
        e ∈ completion g snap req o provider reply := by
  rcases serveHTTP_cases g snap req o with hunseen | ⟨quiet, rest, heq, hquiet, hrest⟩
  · exact .inl (hunseen e he)
  rw [heq] at he ⊢
  rcases mem_append.1 he with he | he
  · exact .inl (hquiet e he)
  rcases mem_append.1 he with he | he
  · exact .inr (.inl he)
  rcases hrest with ⟨-, rfl⟩ | ⟨name, provider, rfl⟩
  · cases he
  rcases mem_forward he with hunseen | ⟨reply, hmain, he⟩
  · exact .inl hunseen
  · exact .inr (.inr ⟨provider, reply,
      mem_append_right _ (mem_append_right _ hmain), he⟩)

theorem findP1_serveHTTP {room : String} {found : Bool}
    (h : .findP1 room found ∈ serveHTTP g snap req o) :
    room = trim (req.metadata "room_id") := by
  rcases mem_serveHTTP h with hunseen | h | ⟨provider, reply, -, h⟩
  · exact hunseen.elim
  · rcases sequencingStage_cases g snap req o with hlistening | ⟨-, -, heq⟩
    · exact hlistening _ h
    · rw [heq] at h
      cases mem_singleton.1 h
  · obtain ⟨_, -, heq⟩ := mem_completion h
    cases heq

theorem completeP1_serveHTTP {room id content : String}
    (h : .completeP1 room id content ∈ serveHTTP g snap req o) :
    id = req.id ∧ ∃ provider reply, .send provider .main (.ok reply) ∈ serveHTTP g snap req o ∧
      released g snap req o provider reply = some content := by
  rcases mem_serveHTTP h with hunseen | h | ⟨provider, reply, hmain, h⟩
  · exact hunseen.elim
  · exact (isSequencing_sequencingStage _ h).elim
  · obtain ⟨_, hreleased, heq⟩ := mem_completion h
    cases heq
    exact ⟨rfl, provider, reply, hmain, hreleased⟩

def IsMark : Effect → Prop
  | .markP1Active .. => True
  | _ => False

theorem IsMark.seen (hmark : IsMark e) : ¬ Unseen e := by
  cases e with
  | markP1Active => exact not_false
  | _ => exact hmark.elim

theorem not_isMark_forward (he : e ∈ forward g snap req o name provider) : ¬ IsMark e := by
  intro hmark
  rcases mem_forward he with hunseen | ⟨reply, -, he⟩
  · exact hmark.seen hunseen
  · obtain ⟨_, -, rfl⟩ := mem_completion he
    exact hmark

theorem markP1Active_serveHTTP {rest : List Effect} (h : e :: rest <:+ serveHTTP g snap req o)
    (hmark : IsMark e) :
    IsSpeaker g snap req ∧
      e = .markP1Active (trim (req.metadata "room_id")) req.id (agentName req) ∧
        ∃ name provider, rest = forward g snap req o name provider := by
  rcases serveHTTP_cases g snap req o with hunseen | ⟨quiet, tail, heq, hquiet, htail⟩
  · exact absurd (hunseen e (h.subset mem_cons_self)) hmark.seen
  have hnoquiet : e ∉ quiet := fun he => hmark.seen (hquiet e he)
  have hnotail : e ∉ tail := by
    rcases htail with ⟨-, rfl⟩ | ⟨name, provider, rfl⟩
    · exact not_mem_nil
    · exact fun he => not_isMark_forward he hmark
  obtain ⟨before, hbefore⟩ := h
  rw [heq] at hbefore
  rcases sequencingStage_cases g snap req o with
    hlistening | ⟨hspeaker, hforward, hsequencing⟩
  · have he : e ∈ quiet ++ ((sequencingStage g snap req o).1 ++ tail) :=
      hbefore ▸ mem_append_right before mem_cons_self
    rcases mem_append.1 he with he | he
    · exact absurd he hnoquiet
    rcases mem_append.1 he with he | he
    · have hlistens : IsListening (trim (req.metadata "room_id")) e := hlistening e he
      cases e with
      | markP1Active => exact hlistens.elim
      | _ => exact hmark.elim
    · exact absurd he hnotail
  rw [hsequencing, singleton_append] at hbefore
  obtain ⟨-, he, rfl⟩ := (append_cons_inj_of_notMem hnoquiet hnotail).1 hbefore.symm
  refine ⟨hspeaker, he.symm, ?_⟩
  rcases htail with ⟨hdrop, -⟩ | hforwarded
  · rw [hforward] at hdrop
    cases hdrop
  · exact hforwarded

structure Orderly (g : PipelineHandler) (snap : Snapshot) (req : Request) (o : Outcomes) :
    Prop where
  room : trim (req.metadata "room_id") = req.metadata "room_id"
  addressed : req.metadata "is_directly_addressed" = "true"
  policy : o.policyResolved = true
  whole : req.streaming = false
  inTime : ¬ (req.modelWork ∧ o.expired)
  fresh : o.fresh = true
  reply : ∃ reply, o.main = .ok reply ∧
    ∀ provider, (released g snap req o provider reply).isSome

theorem Orderly.completeP1 (h : Orderly g snap req o) (hspeaker : IsSpeaker g snap req)
    (name provider : String) :
    ∃ content, .completeP1 (trim (req.metadata "room_id")) req.id content ∈
      forward g snap req o name provider := by
  obtain ⟨reply, hmain, hreleased⟩ := h.reply
  obtain ⟨content, hcontent⟩ := Option.isSome_iff_exists.1 (hreleased provider)
  obtain ⟨-, hsequencer, henabled, hroom, hheard, -⟩ := hspeaker
  have hcompletes : completes g snap req = true := by
    rw [h.room] at hroom
    simp [completes, sequencingStep, hsequencer, henabled, hroom, hheard, h.addressed]
  have hlast : .completeP1 (trim (req.metadata "room_id")) req.id content ∈
      completion g snap req o provider reply := by
    simp [completion, hcontent, hcompletes, h.room]
  refine ⟨content, ?_⟩
  rw [forward, if_neg (not_not.2 h.policy), if_neg (by simp [h.whole]), if_neg h.inTime, hmain]
  refine mem_cons_of_mem _ (mem_cons_of_mem _ ?_)
  rw [deliver, if_neg (not_not.2 h.fresh)]
  exact mem_append_right _ hlast

end Script

structure Job where
  snap : Snapshot
  req : Request
  outcomes : Outcomes

def Job.request (job : Job) (id : String) : Request := { job.req with id := id }

def Job.effects (g : PipelineHandler) (job : Job) (id : String) : List Effect :=
  serveHTTP g job.snap (job.request id) job.outcomes

def Job.Releases (g : PipelineHandler) (job : Job) (id content : String) : Prop :=
  ∃ provider reply, .send provider .main (.ok reply) ∈ job.effects g id ∧
    released g job.snap (job.request id) job.outcomes provider reply = some content

def Job.room (job : Job) : String := trim (job.req.metadata "room_id")

def Job.Settles (g : PipelineHandler) (job : Job) (id : String) : Prop :=
  (∃ e ∈ job.effects g id, IsMark e) → Orderly g job.snap (job.request id) job.outcomes

section Job

variable {g : PipelineHandler} {job : Job} {id : String}

theorem Job.findP1_effects {room : String} {found : Bool}
    (h : .findP1 room found ∈ job.effects g id) : room = job.room := by
  unfold Job.effects at h
  have hroom := findP1_serveHTTP h
  exact hroom

theorem Job.completeP1_effects {room requestId content : String}
    (h : .completeP1 room requestId content ∈ job.effects g id) :
    requestId = id ∧ job.Releases g id content := by
  unfold Job.effects at h
  exact completeP1_serveHTTP h

theorem Job.markP1Active_effects {room requestId name : String} {rest : List Effect}
    (h : .markP1Active room requestId name :: rest <:+ job.effects g id) :
    requestId = id ∧ (∀ e ∈ rest, ¬ IsMark e) ∧
      (job.Settles g id → ∃ content, .completeP1 room id content ∈ rest) := by
  have hmarked : ∃ e ∈ job.effects g id, IsMark e := ⟨_, h.subset mem_cons_self, trivial⟩
  unfold Job.effects at h
  obtain ⟨hspeaker, hmark, breaker, provider, rfl⟩ := markP1Active_serveHTTP h trivial
  obtain ⟨rfl, rfl, -⟩ := Effect.markP1Active.inj hmark
  refine ⟨rfl, fun e he => not_isMark_forward he, fun hsettles => ?_⟩
  exact (hsettles hmarked).completeP1 hspeaker breaker provider

end Job

structure Speaker where
  requestId : String
  agentName : String
  content : Option String

/-- The speakers are numbered as they are marked; a room has the numbers of its active ones,
oldest first. -/
structure System where
  speakers : ℕ → Speaker
  count : ℕ
  rooms : String → List ℕ
  waiting : String → Option ℕ
  todo : String → List Effect

inductive Event
  | waits (id room : String) (active : List ℕ)
  | heard (id : String) (speaker : ℕ) (content : String)
  | completed (id : String) (speaker : ℕ) (content : String)

namespace System

variable (s : System)

def markP1Active (room requestId agentName : String) : System :=
  { s with
    speakers := update s.speakers s.count ⟨requestId, agentName, none⟩
    count := s.count + 1
    rooms := update s.rooms room (s.rooms room ++ [s.count]) }

def release (room : String) (n : ℕ) (content : String) : System :=
  { s with
    speakers := update s.speakers n { s.speakers n with content := some content }
    rooms := update s.rooms room ((s.rooms room).erase n) }

def completeP1 (room requestId content : String) : System × List Event :=
  match (s.rooms room).find? fun n => (s.speakers n).requestId = requestId with
  | none => (s, [])
  | some n => (s.release room n content, [.completed requestId n content])

def perform (id : String) : Effect → Option (System × List Event)
  | .markP1Active room requestId agentName => some (s.markP1Active room requestId agentName, [])
  | .hasActiveP1 room answer =>
    if answer = decide (s.rooms room ≠ []) then some (s, []) else none
  | .findP1 room found =>
    match found, s.rooms room with
    | false, [] => some (s, [])
    | true, n :: active =>
      some ({ s with waiting := update s.waiting id (some n) },
        [.waits id room (n :: active)])
    | _, _ => none
  | .awaitP1 none => some (s, [])
  | .awaitP1 (some content) =>
    match s.waiting id with
    | none => none
    | some n =>
      if (s.speakers n).content = some content then some (s, [.heard id n content]) else none
  | .completeP1 room requestId content => some (s.completeP1 room requestId content)
  | _ => some (s, [])

def step (id : String) : System × List Event :=
  match s.todo id with
  | [] => (s, [])
  | e :: rest =>
    match s.perform id e with
    | none => (s, [])
    | some (next, events) => ({ next with todo := update s.todo id rest }, events)

variable {s} {requestId : String}

theorem rooms_markP1Active {room agentName : String} :
    (s.markP1Active room requestId agentName).rooms =
      update s.rooms room (s.rooms room ++ [s.count]) := rfl

theorem speakers_markP1Active {room agentName : String} :
    (s.markP1Active room requestId agentName).speakers =
      update s.speakers s.count ⟨requestId, agentName, none⟩ := rfl

theorem mem_markP1Active {room agentName room' : String} {n : ℕ}
    (hn : n ∈ (s.markP1Active room requestId agentName).rooms room') :
    n ∈ s.rooms room' ∨ room' = room ∧ n = s.count := by
  rw [rooms_markP1Active] at hn
  rcases eq_or_ne room' room with rfl | hne
  · rw [update_self] at hn
    rcases mem_append.1 hn with hn | hn
    · exact .inl hn
    · exact .inr ⟨rfl, mem_singleton.1 hn⟩
  · rw [update_of_ne hne] at hn
    exact .inl hn

variable {room content : String} {n : ℕ}

theorem rooms_release : (s.release room n content).rooms =
    update s.rooms room ((s.rooms room).erase n) := rfl

theorem speakers_release : (s.release room n content).speakers =
    update s.speakers n { s.speakers n with content := some content } := rfl

theorem requestId_release (m : ℕ) :
    ((s.release room n content).speakers m).requestId = (s.speakers m).requestId := by
  rw [speakers_release]
  rcases eq_or_ne m n with rfl | hne
  · rw [update_self]
  · rw [update_of_ne hne]

variable (s) in
theorem sublist_release (room' : String) :
    ((s.release room n content).rooms room').Sublist (s.rooms room') := by
  rw [rooms_release]
  rcases eq_or_ne room' room with rfl | hne
  · rw [update_self]
    exact erase_sublist
  · rw [update_of_ne hne]

end System

open Pipeline.System

def sequencing : Machine System String (List Event) where
  call := step

def sequencingStart (g : PipelineHandler) (jobs : String → Job) : System where
  speakers _ := ⟨"", "", none⟩
  count := 0
  rooms _ := []
  waiting _ := none
  todo id := (jobs id).effects g id

section Runs

variable {g : PipelineHandler} {jobs : String → Job} {s next : System} {id : String}
  {events log : List Event}

inductive Performed (s : System) (id : String) : Effect → System → List Event → Prop
  | quiet {e : Effect} (hmark : ¬ IsMark e)
      (hcomplete : ∀ room content, e = .completeP1 room id content →
        ∀ n ∈ s.rooms room, (s.speakers n).requestId ≠ id) : Performed s id e s []
  | mark (room requestId agentName : String) : Performed s id
      (.markP1Active room requestId agentName) (s.markP1Active room requestId agentName) []
  | wait (room : String) (n : ℕ) (active : List ℕ) (hactive : s.rooms room = n :: active) :
      Performed s id (.findP1 room true)
        { s with waiting := update s.waiting id (some n) }
        [.waits id room (n :: active)]
  | hear (n : ℕ) (content : String) (hwaiting : s.waiting id = some n)
      (hcontent : (s.speakers n).content = some content) :
      Performed s id (.awaitP1 (some content)) s [.heard id n content]
  | complete (room requestId content : String) (n : ℕ) (hn : n ∈ s.rooms room)
      (hid : (s.speakers n).requestId = requestId) :
      Performed s id (.completeP1 room requestId content) (s.release room n content)
        [.completed requestId n content]

theorem step_cases (s : System) (id : String) : s.step id = (s, []) ∨
    ∃ e rest next events, s.todo id = e :: rest ∧ s.perform id e = some (next, events) ∧
      s.step id = ({ next with todo := update s.todo id rest }, events) := by
  unfold step
  split
  · exact .inl rfl
  next e rest htodo =>
  split
  · exact .inl rfl
  next next events hperform => exact .inr ⟨e, rest, next, events, htodo, hperform, rfl⟩

theorem performed_completeP1 {room requestId content : String} (hid : requestId = id) :
    Performed s id (.completeP1 room requestId content) (s.completeP1 room requestId content).1
      (s.completeP1 room requestId content).2 := by
  unfold completeP1
  cases hfind : (s.rooms room).find? fun n => (s.speakers n).requestId = requestId with
  | none =>
    refine .quiet not_false fun room' content' heq n hn hsame => ?_
    cases heq
    have hnot : ¬ decide ((s.speakers n).requestId = id) = true :=
      find?_eq_none.1 hfind n hn
    exact hnot (decide_eq_true hsame)
  | some n =>
    have hfound := find?_some hfind
    exact .complete room requestId content n (mem_of_find?_eq_some hfind)
      (of_decide_eq_true hfound)

theorem performed_perform {e : Effect} (h : s.perform id e = some (next, events))
    (hid : ∀ room requestId content, e = .completeP1 room requestId content → requestId = id) :
    Performed s id e next events := by
  have hquiet (hmark : ¬ IsMark e) (hcomplete : ∀ room content, e ≠ .completeP1 room id content)
      (h : some (s, []) = some (next, events)) : Performed s id e next events := by
    cases h
    exact .quiet hmark fun room content heq => absurd heq (hcomplete room content)
  cases e with
  | markP1Active room requestId agentName =>
    cases h
    exact .mark room requestId agentName
  | hasActiveP1 room answer =>
    simp only [perform] at h
    split at h
    · exact hquiet not_false (fun _ _ heq => by cases heq) h
    · cases h
  | findP1 room found =>
    simp only [perform] at h
    split at h
    · exact hquiet not_false (fun _ _ heq => by cases heq) h
    · next n active hactive =>
      cases h
      exact .wait room n active hactive
    · cases h
  | awaitP1 content =>
    cases content with
    | none => exact hquiet not_false (fun _ _ heq => by cases heq) h
    | some content =>
      simp only [perform] at h
      split at h
      · cases h
      next n hwaiting =>
      split at h
      · next hcontent =>
        cases h
        exact .hear n content hwaiting hcontent
      · cases h
  | completeP1 room requestId content =>
    have hnext : s.completeP1 room requestId content = (next, events) := Option.some.inj h
    have hperformed : Performed s id (.completeP1 room requestId content)
        (s.completeP1 room requestId content).1 (s.completeP1 room requestId content).2 :=
      performed_completeP1 (hid room requestId content rfl)
    rwa [hnext] at hperformed
  | _ => exact hquiet not_false (fun _ _ heq => by cases heq) h

def Heeds (g : PipelineHandler) (jobs : String → Job) (before : List Event) : Event → Prop
  | .waits .. => True
  | .heard id n content =>
    (∃ active, .waits id (jobs id).room (n :: active) ∈ before) ∧
      ∃ speaker, .completed speaker n content ∈ before
  | .completed id _ content =>
    (∀ n content, .completed id n content ∉ before) ∧ (jobs id).Releases g id content

def Heeded (g : PipelineHandler) (jobs : String → Job) (log : List Event) : Prop :=
  ∀ before e, before ++ [e] <+: log → Heeds g jobs before e

theorem heeded_concat {e : Event} (hlog : Heeded g jobs log) (he : Heeds g jobs log e) :
    Heeded g jobs (log ++ [e]) := by
  intro before e' hbefore
  rcases prefix_concat_iff.1 hbefore with heq | hbefore
  · obtain ⟨rfl, hlast⟩ := append_inj' heq rfl
    cases hlast
    exact he
  · exact hlog before e' hbefore

structure Sound (g : PipelineHandler) (jobs : String → Job) (log : List Event) (s : System) :
    Prop where
  todo : ∀ id, s.todo id <:+ (jobs id).effects g id
  known : ∀ room, ∀ n ∈ s.rooms room, n < s.count
  marked : ∀ n < s.count, ∀ e ∈ s.todo (s.speakers n).requestId, ¬ IsMark e
  single : ∀ m < s.count, ∀ n < s.count,
    (s.speakers m).requestId = (s.speakers n).requestId → m = n
  nodup : ∀ room, (s.rooms room).Nodup
  apart : ∀ room room' n, n ∈ s.rooms room → n ∈ s.rooms room' → room = room'
  ended : ∀ id n content, .completed id n content ∈ log →
    n < s.count ∧ (s.speakers n).requestId = id ∧ ∀ room, n ∉ s.rooms room
  content : ∀ n content, (s.speakers n).content = some content →
    .completed (s.speakers n).requestId n content ∈ log
  waits : ∀ id n, s.waiting id = some n →
    ∃ active, .waits id (jobs id).room (n :: active) ∈ log
  law : Heeded g jobs log

namespace Sound

theorem advance (h : Sound g jobs log s) {e : Effect} {rest : List Effect}
    (htodo : s.todo id = e :: rest) :
    Sound g jobs log { s with todo := update s.todo id rest } := by
  have hsuffix (id' : String) : update s.todo id rest id' <:+ s.todo id' := by
    rcases eq_or_ne id' id with rfl | hne
    · rw [update_self, htodo]
      exact suffix_cons e rest
    · rewrite [update_of_ne hne]
      exact suffix_rfl
  exact { h with
    todo := fun id' => (hsuffix id').trans (h.todo id')
    marked := fun n hn e he => h.marked n hn e ((hsuffix _).subset he) }

variable {n : ℕ} {content : String}

theorem not_mem_release (h : Sound g jobs log s) {room : String} (hn : n ∈ s.rooms room)
    (room' : String) : n ∉ (s.release room n content).rooms room' := by
  rw [rooms_release]
  rcases eq_or_ne room' room with rfl | hne
  · rw [update_self]
    exact (h.nodup room').not_mem_erase
  · rw [update_of_ne hne]
    exact fun hn' => hne (h.apart room' room n hn' hn)

theorem mark (h : Sound g jobs log s) {room agentName : String}
    (hfresh : ∀ n < s.count, (s.speakers n).requestId ≠ id)
    (hrest : ∀ e ∈ s.todo id, ¬ IsMark e) :
    Sound g jobs log (s.markP1Active room id agentName) := by
  have hold {n : ℕ} (hn : n < s.count) :
      (s.markP1Active room id agentName).speakers n = s.speakers n :=
    update_of_ne (Nat.ne_of_lt hn) _ _
  have hnew : (s.markP1Active room id agentName).speakers s.count = ⟨id, agentName, none⟩ :=
    update_self ..
  have hcases {n : ℕ} (hn : n < s.count + 1) : n < s.count ∨ n = s.count :=
    Nat.lt_or_eq_of_le (Nat.le_of_lt_succ hn)
  have habsent (room' : String) : s.count ∉ s.rooms room' :=
    fun hn => Nat.lt_irrefl _ (h.known room' _ hn)
  exact {
    todo := h.todo
    known := by
      intro room' n hn
      rcases mem_markP1Active hn with hn | ⟨-, rfl⟩
      · exact Nat.lt_succ_of_lt (h.known room' n hn)
      · exact Nat.lt_succ_self _
    marked := by
      intro n hn
      rcases hcases hn with hn | rfl
      · rw [hold hn]
        exact h.marked n hn
      · rw [hnew]
        exact hrest
    single := by
      intro m hm n hn heq
      rcases hcases hm with hm | rfl <;> rcases hcases hn with hn | rfl
      · rw [hold hm, hold hn] at heq
        exact h.single m hm n hn heq
      · rw [hold hm, hnew] at heq
        exact absurd heq (hfresh m hm)
      · rw [hold hn, hnew] at heq
        exact absurd heq.symm (hfresh n hn)
      · rfl
    nodup := by
      intro room'
      rcases eq_or_ne room' room with rfl | hne
      · rw [rooms_markP1Active, update_self, ← concat_eq_append]
        exact (h.nodup room').concat (habsent room')
      · rw [rooms_markP1Active, update_of_ne hne]
        exact h.nodup room'
    apart := by
      intro room₁ room₂ n hn₁ hn₂
      rcases mem_markP1Active hn₁ with hold₁ | ⟨hroom₁, hnew₁⟩ <;>
        rcases mem_markP1Active hn₂ with hold₂ | ⟨hroom₂, hnew₂⟩
      · exact h.apart room₁ room₂ n hold₁ hold₂
      · exact absurd (hnew₂ ▸ hold₁) (habsent room₁)
      · exact absurd (hnew₁ ▸ hold₂) (habsent room₂)
      · exact hroom₁.trans hroom₂.symm
    ended := by
      intro id' n content hlog
      obtain ⟨hn, hid, hgone⟩ := h.ended id' n content hlog
      refine ⟨Nat.lt_succ_of_lt hn, (hold hn).symm ▸ hid, fun room' hroom => ?_⟩
      rcases mem_markP1Active hroom with hroom | ⟨-, rfl⟩
      · exact hgone room' hroom
      · exact Nat.lt_irrefl _ hn
    content := by
      intro n content hcontent
      rcases eq_or_ne n s.count with rfl | hne
      · rw [hnew] at hcontent
        cases hcontent
      · have hsame : (s.markP1Active room id agentName).speakers n = s.speakers n :=
          update_of_ne hne _ _
        rw [hsame] at hcontent ⊢
        exact h.content n content hcontent
    waits := h.waits
    law := h.law }

theorem tell (h : Sound g jobs log s) {e : Event} (he : Heeds g jobs log e)
    (hkind : ∀ id n content, e ≠ .completed id n content) : Sound g jobs (log ++ [e]) s :=
  { h with
    ended := by
      intro id n content hlog
      rcases mem_append.1 hlog with hlog | hlog
      · exact h.ended id n content hlog
      · exact absurd (mem_singleton.1 hlog).symm (hkind id n content)
    content := fun n content hcontent => mem_append_left _ (h.content n content hcontent)
    waits := by
      intro id n hwaiting
      obtain ⟨active, hactive⟩ := h.waits id n hwaiting
      exact ⟨active, mem_append_left _ hactive⟩
    law := heeded_concat h.law he }

theorem wait (h : Sound g jobs log s) {active : List ℕ} :
    Sound g jobs (log ++ [.waits id (jobs id).room (n :: active)])
      { s with waiting := update s.waiting id (some n) } := by
  have htold := h.tell (e := .waits id (jobs id).room (n :: active)) trivial
    (fun _ _ _ heq => by cases heq)
  refine { htold with waits := fun id' m hwaiting => ?_ }
  replace hwaiting : update s.waiting id (some n) id' = some m := hwaiting
  rcases eq_or_ne id' id with rfl | hne
  · rw [update_self] at hwaiting
    cases hwaiting
    exact ⟨active, mem_append_right _ (mem_singleton.2 rfl)⟩
  · rw [update_of_ne hne] at hwaiting
    exact htold.waits id' m hwaiting

theorem hear (h : Sound g jobs log s) (hwaiting : s.waiting id = some n)
    (hcontent : (s.speakers n).content = some content) :
    Sound g jobs (log ++ [.heard id n content]) s :=
  h.tell ⟨h.waits id n hwaiting, _, h.content n content hcontent⟩ fun _ _ _ heq => by cases heq

theorem complete (h : Sound g jobs log s) {room : String} (hn : n ∈ s.rooms room)
    (hid : (s.speakers n).requestId = id) (hreleases : (jobs id).Releases g id content) :
    Sound g jobs (log ++ [.completed id n content]) (s.release room n content) := by
  have hcount : n < s.count := h.known room n hn
  have hsub (room' : String) {m : ℕ} (hm : m ∈ (s.release room n content).rooms room') :
      m ∈ s.rooms room' := (s.sublist_release room').subset hm
  exact {
    todo := h.todo
    known := fun room' m hm => h.known room' m (hsub room' hm)
    marked := by
      intro m hm
      rw [requestId_release]
      exact h.marked m hm
    single := by
      intro m hm m' hm' heq
      rw [requestId_release, requestId_release] at heq
      exact h.single m hm m' hm' heq
    nodup := fun room' => (h.nodup room').sublist (s.sublist_release room')
    apart := fun room₁ room₂ m hm₁ hm₂ => h.apart room₁ room₂ m (hsub room₁ hm₁) (hsub room₂ hm₂)
    ended := by
      intro id' m content' hlog
      rw [requestId_release]
      rcases mem_append.1 hlog with hlog | hlog
      · obtain ⟨hm, hid', hgone⟩ := h.ended id' m content' hlog
        exact ⟨hm, hid', fun room' hroom => hgone room' (hsub room' hroom)⟩
      · cases mem_singleton.1 hlog
        exact ⟨hcount, hid, h.not_mem_release hn⟩
    content := by
      intro m content' hcontent
      rw [requestId_release]
      rcases eq_or_ne m n with rfl | hne
      · rw [speakers_release, update_self] at hcontent
        cases hcontent
        rw [hid]
        exact mem_append_right _ (mem_singleton.2 rfl)
      · rw [speakers_release, update_of_ne hne] at hcontent
        exact mem_append_left _ (h.content m content' hcontent)
    waits := by
      intro id' m hwaiting
      obtain ⟨active, hactive⟩ := h.waits id' m hwaiting
      exact ⟨active, mem_append_left _ hactive⟩
    law := by
      refine heeded_concat h.law ⟨fun m content' hlog => ?_, hreleases⟩
      obtain ⟨hm, hsame, hgone⟩ := h.ended id m content' hlog
      obtain rfl : m = n := h.single m hm n hcount (hsame.trans hid.symm)
      exact hgone room hn }

theorem step (h : Sound g jobs log s) (id : String) :
    Sound g jobs (log ++ (s.step id).2) (s.step id).1 := by
  rcases step_cases s id with hstep | ⟨e, rest, next, events, htodo, hperform, hstep⟩
  · rw [hstep, append_nil]
    exact h
  rw [hstep]
  have hsuffix : e :: rest <:+ (jobs id).effects g id := htodo ▸ h.todo id
  have hmem : e ∈ (jobs id).effects g id := hsuffix.subset mem_cons_self
  have hadvanced := h.advance htodo
  cases performed_perform hperform
    (fun room requestId content heq => (Job.completeP1_effects (heq ▸ hmem)).1) with
  | quiet =>
    rw [append_nil]
    exact hadvanced
  | mark room requestId agentName =>
    obtain ⟨rfl, hrest, -⟩ := Job.markP1Active_effects hsuffix
    rw [append_nil]
    refine hadvanced.mark (fun n hn hsame => ?_) fun e he => ?_
    · replace hsame : (s.speakers n).requestId = requestId := hsame
      have hhead := h.marked n hn (.markP1Active room requestId agentName)
      rw [hsame, htodo] at hhead
      exact hhead mem_cons_self trivial
    · replace he : e ∈ update s.todo requestId rest requestId := he
      rw [update_self] at he
      exact hrest e he
  | wait room n active =>
    obtain rfl : room = (jobs id).room := Job.findP1_effects hmem
    exact hadvanced.wait
  | hear n content hwaiting hcontent => exact hadvanced.hear hwaiting hcontent
  | complete room requestId content n hn hid =>
    obtain ⟨rfl, hreleases⟩ := Job.completeP1_effects hmem
    exact hadvanced.complete hn hid hreleases

theorem start : Sound g jobs [] (sequencingStart g jobs) where
  todo _ := suffix_rfl
  known _ _ hn := absurd hn not_mem_nil
  marked n hn := absurd hn (Nat.not_lt_zero n)
  single m hm := absurd hm (Nat.not_lt_zero m)
  nodup _ := nodup_nil
  apart _ _ _ hn := absurd hn not_mem_nil
  ended _ _ _ hlog := absurd hlog not_mem_nil
  content _ _ hcontent := by cases hcontent
  waits _ _ hwaiting := by cases hwaiting
  law before e hbefore := by
    have hnil : before ++ [e] = [] := prefix_nil.1 hbefore
    simp at hnil

end Sound

def Kept (s : System) : Prop :=
  ∀ room, ∀ n ∈ s.rooms room, ∃ content,
    .completeP1 room (s.speakers n).requestId content ∈ s.todo (s.speakers n).requestId

theorem kept_step (h : Sound g jobs log s) (hkept : Kept s) (hsettles : (jobs id).Settles g id) :
    Kept (s.step id).1 := by
  rcases step_cases s id with hstep | ⟨e, rest, next, events, htodo, hperform, hstep⟩
  · rw [hstep]
    exact hkept
  rw [hstep]
  have hsuffix : e :: rest <:+ (jobs id).effects g id := htodo ▸ h.todo id
  have hmem : e ∈ (jobs id).effects g id := hsuffix.subset mem_cons_self
  -- a speaker whose completion is not the step that was done keeps it
  have hlater {room : String} {n : ℕ} (hn : n ∈ s.rooms room)
      (hother : (s.speakers n).requestId = id → ∀ content, e ≠ .completeP1 room id content) :
      ∃ content, .completeP1 room (s.speakers n).requestId content ∈
        update s.todo id rest (s.speakers n).requestId := by
    obtain ⟨content, hcontent⟩ := hkept room n hn
    refine ⟨content, ?_⟩
    by_cases hid : (s.speakers n).requestId = id
    · rw [hid, htodo] at hcontent
      rw [hid, update_self]
      exact (mem_cons.1 hcontent).resolve_left (hother hid content).symm
    · rwa [update_of_ne hid]
  cases performed_perform hperform
    (fun room requestId content heq => (Job.completeP1_effects (heq ▸ hmem)).1) with
  | quiet hmark hcomplete =>
    intro room n hn
    exact hlater hn fun hid content heq => hcomplete room content heq n hn hid
  | mark room requestId agentName =>
    obtain ⟨rfl, -, hcompletes⟩ := Job.markP1Active_effects hsuffix
    intro room' n hn
    replace hn : n ∈ (s.markP1Active room requestId agentName).rooms room' := hn
    show ∃ content, Effect.completeP1 room'
      ((s.markP1Active room requestId agentName).speakers n).requestId content ∈
        update s.todo requestId rest
          ((s.markP1Active room requestId agentName).speakers n).requestId
    rw [speakers_markP1Active]
    rcases mem_markP1Active hn with hn | ⟨rfl, rfl⟩
    · rw [update_of_ne (Nat.ne_of_lt (h.known room' n hn))]
      exact hlater hn fun _ content heq => by cases heq
    · rw [update_self, update_self]
      exact hcompletes hsettles
  | wait => exact fun room n hn => hlater hn fun _ content heq => by cases heq
  | hear => exact fun room n hn => hlater hn fun _ content heq => by cases heq
  | complete room requestId content n hn hid =>
    obtain ⟨rfl, -⟩ := Job.completeP1_effects hmem
    intro room' m hm
    replace hm : m ∈ (s.release room n content).rooms room' := hm
    rw [requestId_release]
    have hroom : m ∈ s.rooms room' := (s.sublist_release room').subset hm
    refine hlater hroom fun hsame => ?_
    obtain rfl : m = n :=
      h.single m (h.known _ m hroom) n (h.known _ n hn) (hsame.trans hid.symm)
    exact absurd hm (h.not_mem_release hn room')

theorem speakers_still_handled (g : PipelineHandler) (jobs : String → Job) (run : List String) :
    Heeded g jobs (sequencing.log (sequencingStart g jobs) run) ∧
      ((∀ id ∈ run, (jobs id).Settles g id) →
        ∀ room, ∀ n ∈ (sequencing.final (sequencingStart g jobs) run).rooms room,
          (sequencing.final (sequencingStart g jobs) run).todo
            ((sequencing.final (sequencingStart g jobs) run).speakers n).requestId ≠ []) := by
  constructor
  · exact (sequencing.final_log (fun log s id h => h.step id) Sound.start run).law
  intro hsettles room n hn
  have hstep : ∀ s id, (∃ log, Sound g jobs log s) ∧ Kept s → (jobs id).Settles g id →
      (∃ log, Sound g jobs log (sequencing.call s id).1) ∧ Kept (sequencing.call s id).1 := by
    rintro s id ⟨⟨log, hsound⟩, hkept⟩ hid
    exact ⟨⟨_, hsound.step id⟩, kept_step hsound hkept hid⟩
  have hinvariant := sequencing.final_invariant hstep
    ⟨⟨[], Sound.start⟩, fun _ _ hn => absurd hn not_mem_nil⟩
    (sequencing.meets_of_forall_mem hsettles (sequencingStart g jobs))
  obtain ⟨content, hcontent⟩ := hinvariant.2 room n hn
  exact ne_nil_of_mem hcontent

end Runs

def speakerJob (result : SendResult) : Job where
  snap := sampleSnapshot
  req := { sampleRequest with
    metadata := fun key =>
      if key = "room_id" then "hall" else if key = "heard" then "hello"
      else if key = "is_directly_addressed" then "true" else "" }
  outcomes := { sampleOutcomes with main := result }

theorem answered_speaker_completed :
    let jobs : String → Job := fun _ => speakerJob (.ok ⟨"yes", 10, 5⟩)
    let final := sequencing.final (sequencingStart sampleHandler jobs) ["r", "r"]
    (∀ id ∈ ["r", "r"], (jobs id).Settles sampleHandler id) ∧ final.rooms "hall" = [0] ∧
      final.todo (final.speakers 0).requestId ≠ [] := by
  intro jobs final
  have hsettles : ∀ id ∈ ["r", "r"], (jobs id).Settles sampleHandler id := by
    intro id hid _
    obtain rfl : id = "r" := by simpa using hid
    refine ⟨by decide +kernel, by decide +kernel, rfl, rfl, ?_, rfl, _, rfl, fun provider => ?_⟩
    · exact fun h => absurd h.1 (by decide)
    · simp [released, applyOutboundInterception, Job.request, jobs, speakerJob, sampleRequest,
        sampleHandler]
  have hroom : final.rooms "hall" = [0] := by decide +kernel
  refine ⟨hsettles, hroom, ?_⟩
  exact (speakers_still_handled sampleHandler jobs ["r", "r"]).2 hsettles "hall" 0
    (hroom ▸ mem_singleton.2 rfl)

/-- The provider fails: the handler returns, and the speaker stays active. -/
theorem failed_speaker_stays_active :
    let jobs : String → Job := fun _ => speakerJob (.error ⟨false, true, false, none⟩)
    let final := sequencing.final (sequencingStart sampleHandler jobs) (List.replicate 4 "r")
    final.rooms "hall" = [0] ∧ final.todo (final.speakers 0).requestId = [] := by
  decide +kernel

end Sentinel.Gateway.Pipeline

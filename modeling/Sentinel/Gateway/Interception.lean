import Mathlib.Data.String.Basic
import Sentinel.Lib.EventLog
import Sentinel.Lib.Table

/-! Manual interception of inbound requests (`cortex-gateway`, `intercept/manager.go`). Every
critical section and every channel operation is one step, so that any schedule of waiting and
resolving goroutines is a run. Calls of `AwaitRequestDecision` are numbered; the number of a call
is also the identity of the entry, and of the channel of capacity one, that it makes. -/

namespace Sentinel.Gateway.Intercept

open Lib Function

inductive RequestAction
  | forward
  | modify
  | drop
  deriving DecidableEq

structure RequestDecision where
  action : RequestAction
  reason : String
  contextSuffix : String
  deriving DecidableEq

def RequestDecision.forward (reason : String) : RequestDecision := ⟨.forward, reason, ""⟩

def RequestDecision.modify (reason contextSuffix : String) : RequestDecision :=
  ⟨.modify, reason, contextSuffix⟩

def RequestDecision.drop (reason : String) : RequestDecision := ⟨.drop, reason, ""⟩

structure PendingRequest where
  id : String
  roomId : String
  agentName : String
  reason : String
  createdAt : ℕ

structure PendingEntry where
  call : ℕ
  request : PendingRequest

/-- Where a call of `AwaitRequestDecision` is. It has left its `select` when it is `decided`;
the deferred removal of its entry comes after that. -/
inductive Stage
  | idle
  | waiting (request : PendingRequest)
  | decided (request : PendingRequest) (decision : RequestDecision) (ok : Bool)
  | returned (request : PendingRequest) (decision : RequestDecision) (ok : Bool)

def Stage.request? : Stage → Option PendingRequest
  | .idle => none
  | .waiting request | .decided request _ _ | .returned request _ _ => some request

structure Resolving where
  id : String
  decision : RequestDecision
  entry : PendingEntry

structure Manager where
  pending : Table String PendingEntry
  stage : ℕ → Stage
  channel : ℕ → Option RequestDecision
  resolving : ℕ → Option Resolving

def Manager.newManager : Manager := ⟨.empty, fun _ => .idle, fun _ => none, fun _ => none⟩

inductive Step
  | register (call : ℕ) (request : PendingRequest)
  | receive (call : ℕ)
  | expire (call : ℕ)
  | remove (call : ℕ)
  | lookup (resolver : ℕ) (id : String) (decision : RequestDecision)
  | send (resolver : ℕ)

inductive Event
  | resolved (call : ℕ) (id : String) (decision : RequestDecision)
  | refused (id : String)
  | returned (call : ℕ) (id : String) (decision : RequestDecision) (ok : Bool)
  deriving DecidableEq

namespace Manager

variable (m : Manager)

def setPending (pending : Table String PendingEntry) : Manager := { m with pending }

def setStage (call : ℕ) (stage : Stage) : Manager :=
  { m with stage := update m.stage call stage }

def setChannel (call : ℕ) (held : Option RequestDecision) : Manager :=
  { m with channel := update m.channel call held }

def setResolving (resolver : ℕ) (r : Option Resolving) : Manager :=
  { m with resolving := update m.resolving resolver r }

/-- The first critical section of `AwaitRequestDecision`; the entry of an earlier call with the
same request id is replaced. -/
def register (call : ℕ) (request : PendingRequest) : Manager × List Event :=
  match m.stage call with
  | .idle =>
    ((m.setStage call (.waiting request)).setPending
      (m.pending.insert request.id ⟨call, request⟩), [])
  | _ => (m, [])

def receive (call : ℕ) : Manager × List Event :=
  match m.stage call, m.channel call with
  | .waiting request, some decision =>
    ((m.setStage call (.decided request decision true)).setChannel call none, [])
  | _, _ => (m, [])

/-- The other branch of the `select`: it may be taken with a decision in the channel too. -/
def expire (call : ℕ) : Manager × List Event :=
  match m.stage call with
  | .waiting request =>
    (m.setStage call (.decided request (.forward "manual intercept timeout") false), [])
  | _ => (m, [])

/-- The deferred critical section: whatever entry stands under the request's id is deleted. -/
def remove (call : ℕ) : Manager × List Event :=
  match m.stage call with
  | .decided request decision ok =>
    ((m.setStage call (.returned request decision ok)).setPending (m.pending.erase request.id),
      [.returned call request.id decision ok])
  | _ => (m, [])

def lookup (resolver : ℕ) (id : String) (decision : RequestDecision) : Manager × List Event :=
  match m.resolving resolver, m.pending.get id with
  | none, some entry => (m.setResolving resolver (some ⟨id, decision, entry⟩), [])
  | none, none => (m, [.refused id])
  | some _, _ => (m, [])

def send (resolver : ℕ) : Manager × List Event :=
  match m.resolving resolver with
  | none => (m, [])
  | some r =>
    match m.channel r.entry.call with
    | none =>
      ((m.setResolving resolver none).setChannel r.entry.call (some r.decision),
        [.resolved r.entry.call r.id r.decision])
    | some _ => (m.setResolving resolver none, [.refused r.id])

end Manager

open Manager

def interception : Machine Manager Step (List Event) where
  call m
    | .register call request => m.register call request
    | .receive call => m.receive call
    | .expire call => m.expire call
    | .remove call => m.remove call
    | .lookup resolver id decision => m.lookup resolver id decision
    | .send resolver => m.send resolver

/-- What `Pending` may answer: the requests of all entries, none after a younger one. The order
of requests of one age is that of the map iteration and of an unstable sort. -/
def IsPending (m : Manager) (items : List PendingRequest) : Prop :=
  items.Perm (m.pending.values.map PendingEntry.request) ∧
    items.Pairwise fun a b => ¬ b.createdAt < a.createdAt

section Law

def resolutions (log : List Event) (call : ℕ) : List (String × RequestDecision) :=
  log.filterMap fun
    | .resolved c id decision => if c = call then some (id, decision) else none
    | _ => none

def results (log : List Event) (call : ℕ) : List (String × RequestDecision × Bool) :=
  log.filterMap fun
    | .returned c id decision ok => if c = call then some (id, decision, ok) else none
    | _ => none

structure DecisionsHold (log : List Event) (m : Manager) : Prop where
  effective : ∀ call id decision, (id, decision) ∈ resolutions log call →
    resolutions log call = [(id, decision)] ∧
      (results log call = [(id, decision, true)] ∨
        results log call = [] ∧
          interception.log m [.receive call, .remove call] = [.returned call id decision true])
  listed : ∀ call request, m.stage call = .waiting request →
    ∀ items, IsPending m items → request ∈ items
  resolvable : ∀ call request, m.stage call = .waiting request → resolutions log call = [] →
    ∀ resolver decision, m.resolving resolver = none →
      interception.log m [.lookup resolver request.id decision, .send resolver] =
        [.resolved call request.id decision]

def IsWaiting (m : Manager) (call : ℕ) : Prop := ∃ request, m.stage call = .waiting request

/-- No entry of a waiting call is replaced or deleted by another call, no context ends while a
decision is in the channel, and no decision is sent to a call that has left its `select`. -/
def InTurn (m : Manager) : Step → Prop
  | .register _ request => ∀ entry, m.pending.get request.id = some entry → ¬ IsWaiting m entry.call
  | .remove call => ∀ request, (m.stage call).request? = some request →
      ∀ entry, m.pending.get request.id = some entry → ¬ IsWaiting m entry.call
  | .expire call => m.channel call = none
  | .send resolver => ∀ r, m.resolving resolver = some r → m.channel r.entry.call = none →
      IsWaiting m r.entry.call
  | .receive _ | .lookup .. => True

end Law

section Invariant

def Tracked (channel : Option RequestDecision) (resolved : List (String × RequestDecision))
    (returned : List (String × RequestDecision × Bool)) : Stage → Prop
  | .idle => channel = none ∧ resolved = [] ∧ returned = []
  | .waiting request => resolved = channel.toList.map (request.id, ·) ∧ returned = []
  | .decided request decision ok =>
    channel = none ∧ resolved = (if ok then [(request.id, decision)] else []) ∧ returned = []
  | .returned request decision ok =>
    channel = none ∧ resolved = (if ok then [(request.id, decision)] else []) ∧
      returned = [(request.id, decision, ok)]

structure Sound (log : List Event) (m : Manager) : Prop where
  tracked : ∀ call,
    Tracked (m.channel call) (resolutions log call) (results log call) (m.stage call)
  opened : ∀ call request, m.stage call = .waiting request →
    m.pending.get request.id = some ⟨call, request⟩
  entries : ∀ id entry, m.pending.get id = some entry →
    entry.request.id = id ∧ (m.stage entry.call).request? = some entry.request
  found : ∀ resolver r, m.resolving resolver = some r →
    r.entry.request.id = r.id ∧ (m.stage r.entry.call).request? = some r.entry.request

variable {log : List Event} {m : Manager}

theorem setStage_of_ne (m : Manager) {call c : ℕ} (h : c ≠ call) (next : Stage) :
    (m.setStage call next).stage c = m.stage c := update_of_ne h ..

theorem setChannel_of_ne (m : Manager) {call c : ℕ} (h : c ≠ call)
    (held : Option RequestDecision) : (m.setChannel call held).channel c = m.channel c :=
  update_of_ne h ..

theorem of_setResolving_none {m : Manager} {resolver other : ℕ} {r : Resolving}
    (h : (m.setResolving resolver none).resolving other = some r) : m.resolving other = some r := by
  by_cases hother : other = resolver
  · simp [setResolving, hother] at h
  · simpa [setResolving, hother] using h

theorem resolutions_append (log events : List Event) (call : ℕ) :
    resolutions (log ++ events) call = resolutions log call ++ resolutions events call :=
  List.filterMap_append

theorem results_append (log events : List Event) (call : ℕ) :
    results (log ++ events) call = results log call ++ results events call :=
  List.filterMap_append

theorem Sound.step (h : Sound log m) {next : Manager} {events : List Event} (call : ℕ)
    (hself : Tracked (next.channel call) (resolutions log call ++ resolutions events call)
      (results log call ++ results events call) (next.stage call))
    (hother : ∀ c, c ≠ call → next.channel c = m.channel c ∧ next.stage c = m.stage c ∧
      resolutions events c = [] ∧ results events c = [])
    (hkeep : ∀ r, (m.stage call).request? = some r → (next.stage call).request? = some r)
    (hopened : ∀ c r, next.stage c = .waiting r → next.pending.get r.id = some ⟨c, r⟩)
    (hentries : ∀ id entry, next.pending.get id = some entry → m.pending.get id = some entry ∨
      entry.request.id = id ∧ (next.stage entry.call).request? = some entry.request)
    (hfound : ∀ resolver r, next.resolving resolver = some r → m.resolving resolver = some r) :
    Sound (log ++ events) next := by
  have hrequest : ∀ c r, (m.stage c).request? = some r → (next.stage c).request? = some r := by
    intro c r hr
    by_cases hc : c = call
    · subst hc
      exact hkeep r hr
    · rw [(hother c hc).2.1, hr]
  refine ⟨fun c => ?_, hopened, fun id entry hentry => ?_, fun resolver r hr => ?_⟩
  · rw [resolutions_append, results_append]
    by_cases hc : c = call
    · rw [hc]
      exact hself
    · obtain ⟨hchannel, hstage, hresolved, hresults⟩ := hother c hc
      rw [hchannel, hstage, hresolved, hresults, List.append_nil, List.append_nil]
      exact h.tracked c
  · rcases hentries id entry hentry with hold | hnew
    · obtain ⟨hkey, hstage⟩ := h.entries id entry hold
      exact ⟨hkey, hrequest _ _ hstage⟩
    · exact hnew
  · obtain ⟨hkey, hstage⟩ := h.found resolver r (hfound resolver r hr)
    exact ⟨hkey, hrequest _ _ hstage⟩

theorem Sound.register (h : Sound log m) {call : ℕ} {request : PendingRequest}
    (hturn : InTurn m (.register call request)) :
    Sound (log ++ (m.register call request).2) (m.register call request).1 := by
  unfold Manager.register
  split
  case h_2 => simpa using h
  case h_1 hidle =>
    have hself := h.tracked call
    rw [hidle] at hself
    obtain ⟨hchannel, hresolved, hresults⟩ := hself
    have hstage : (m.setStage call (.waiting request)).stage call = .waiting request :=
      update_self ..
    refine h.step call ?_ (fun c hc => ⟨rfl, setStage_of_ne m hc _, rfl, rfl⟩) ?_ ?_ ?_
      (fun _ _ hr => hr)
    · rw [setPending, hstage, hresolved, hresults]
      exact ⟨by simp [setStage, hchannel, resolutions], rfl⟩
    · intro r hr
      rw [hidle] at hr
      cases hr
    · intro c r hc
      have hinsert := m.pending.get_insert request.id r.id ⟨call, request⟩
      by_cases hcall : c = call
      · subst hcall
        obtain rfl : request = r := Stage.waiting.inj (hstage.symm.trans hc)
        exact hinsert.trans (if_pos rfl)
      · have hwait : m.stage c = .waiting r := (setStage_of_ne m hcall _).symm.trans hc
        have hopen : m.pending.get r.id = some ⟨c, r⟩ := h.opened c r hwait
        refine hinsert.trans ((if_neg fun hid => ?_).trans hopen)
        exact hturn ⟨c, r⟩ (hid ▸ hopen) ⟨r, hwait⟩
    · intro id entry hentry
      rcases Table.get_of_insert hentry with ⟨hid, rfl⟩ | hentry
      · exact .inr ⟨hid.symm, congrArg Stage.request? hstage⟩
      · exact .inl hentry

theorem Sound.leave (h : Sound log m) {call : ℕ} {request : PendingRequest}
    (decision : RequestDecision) (ok : Bool) (hwait : m.stage call = .waiting request)
    (hresolved : resolutions log call = if ok then [(request.id, decision)] else []) :
    Sound log ((m.setStage call (.decided request decision ok)).setChannel call none) := by
  have hself := h.tracked call
  rw [hwait] at hself
  have hstage : ((m.setStage call (.decided request decision ok)).setChannel call none).stage call =
      .decided request decision ok := update_self ..
  rw [← List.append_nil log]
  refine h.step call ?_ (fun c hc => ⟨setChannel_of_ne _ hc _, setStage_of_ne m hc _, rfl, rfl⟩)
    ?_ ?_ (fun _ _ hentry => .inl hentry) (fun _ _ hr => hr)
  · rw [hstage]
    refine ⟨update_self .., ?_, ?_⟩
    · simpa [resolutions] using hresolved
    · simpa [results] using hself.2
  · intro r hr
    rw [hstage]
    rw [hwait] at hr
    exact hr
  · intro c r hc
    by_cases hcall : c = call
    · rw [hcall, hstage] at hc
      cases hc
    · exact h.opened c r ((setStage_of_ne m hcall _).symm.trans hc)

theorem Sound.receive (h : Sound log m) (call : ℕ) :
    Sound (log ++ (m.receive call).2) (m.receive call).1 := by
  unfold Manager.receive
  split
  case h_2 => simpa using h
  case h_1 request decision hwait hheld =>
    have hself := h.tracked call
    rw [hwait, hheld] at hself
    rw [List.append_nil]
    exact h.leave decision true hwait hself.1

theorem Sound.expire (h : Sound log m) {call : ℕ} (hturn : InTurn m (.expire call)) :
    Sound (log ++ (m.expire call).2) (m.expire call).1 := by
  unfold Manager.expire
  split
  case h_2 => simpa using h
  case h_1 request hwait =>
    have hempty : m.channel call = none := hturn
    have hself := h.tracked call
    rw [hwait, hempty] at hself
    have hleave := h.leave (.forward "manual intercept timeout") false hwait hself.1
    have hchannel : update m.channel call none = m.channel := by
      rw [← hempty, update_eq_self]
    rw [List.append_nil]
    simpa only [setChannel, setStage, hchannel] using hleave

theorem Sound.remove (h : Sound log m) {call : ℕ} (hturn : InTurn m (.remove call)) :
    Sound (log ++ (m.remove call).2) (m.remove call).1 := by
  unfold Manager.remove
  split
  case h_2 => simpa using h
  case h_1 request decision ok hdecided =>
    have hself := h.tracked call
    rw [hdecided] at hself
    obtain ⟨hchannel, hresolved, hresults⟩ := hself
    have hrequest : (m.stage call).request? = some request := congrArg Stage.request? hdecided
    have hstage : (m.setStage call (.returned request decision ok)).stage call =
        .returned request decision ok := update_self ..
    refine h.step call ?_ (fun c hc => ⟨rfl, setStage_of_ne m hc _, rfl, ?_⟩) ?_ ?_ ?_
      (fun _ _ hr => hr)
    · rw [setPending, hstage, hresults]
      exact ⟨hchannel, by simpa [resolutions] using hresolved, by simp [results]⟩
    · simp [results, Ne.symm hc]
    · intro r hr
      rw [setPending, hstage]
      exact hrequest.symm.trans hr
    · intro c r hc
      have hne : c ≠ call := by
        rintro rfl
        cases hstage.symm.trans hc
      have hwait : m.stage c = .waiting r := (setStage_of_ne m hne _).symm.trans hc
      have hopen : m.pending.get r.id = some ⟨c, r⟩ := h.opened c r hwait
      refine (m.pending.get_erase request.id r.id).trans ((if_neg fun hid => ?_).trans hopen)
      exact hturn request hrequest ⟨c, r⟩ (hid ▸ hopen) ⟨r, hwait⟩
    · exact fun id entry hentry => .inl (Table.get_of_erase hentry)

theorem Sound.lookup (h : Sound log m) (resolver : ℕ) (id : String) (decision : RequestDecision) :
    Sound (log ++ (m.lookup resolver id decision).2) (m.lookup resolver id decision).1 := by
  unfold Manager.lookup
  split
  case h_1 entry hfree hentry =>
    rw [List.append_nil]
    refine { h with found := fun other r hr => ?_ }
    by_cases hother : other = resolver
    · subst hother
      obtain rfl : (⟨id, decision, entry⟩ : Resolving) = r := by
        simpa [setResolving] using hr
      exact h.entries id entry hentry
    · exact h.found other r (by simpa [setResolving, hother] using hr)
  case h_2 =>
    refine { h with tracked := fun c => ?_ }
    simpa [resolutions, results] using h.tracked c
  case h_3 => simpa using h

theorem Sound.send (h : Sound log m) {resolver : ℕ} (hturn : InTurn m (.send resolver)) :
    Sound (log ++ (m.send resolver).2) (m.send resolver).1 := by
  unfold Manager.send
  split
  case h_1 => simpa using h
  case h_2 r hr =>
    split
    · next hempty =>
      obtain ⟨request, hwait⟩ := hturn r hr hempty
      obtain ⟨hkey, hstage⟩ := h.found resolver r hr
      have hself := h.tracked r.entry.call
      rw [hwait, hempty] at hself
      obtain rfl : request = r.entry.request := by simpa [hwait, Stage.request?] using hstage
      refine h.step r.entry.call ?_ (fun c hc => ⟨setChannel_of_ne _ hc _, rfl, ?_, rfl⟩)
        (fun _ hrequest => hrequest) h.opened (fun _ _ hentry => .inl hentry)
        (fun _ _ hfound => of_setResolving_none hfound)
      · have hheld : (((m.setResolving resolver none).setChannel r.entry.call
            (some r.decision)).channel r.entry.call) = some r.decision := update_self ..
        rw [hheld, hself.1, hself.2]
        have hstays : ((m.setResolving resolver none).setChannel r.entry.call
            (some r.decision)).stage r.entry.call = .waiting r.entry.request := hwait
        rw [hstays]
        exact ⟨by simp [resolutions, hkey], rfl⟩
      · simp [resolutions, Ne.symm hc]
    · refine { h with tracked := fun c => ?_, found := fun other q hq => ?_ }
      · simpa [resolutions, results, setResolving] using h.tracked c
      · exact h.found other q (of_setResolving_none hq)

theorem Sound.call (h : Sound log m) {step : Step} (hturn : InTurn m step) :
    Sound (log ++ (interception.call m step).2) (interception.call m step).1 := by
  cases step with
  | register call request => exact h.register hturn
  | receive call => exact h.receive call
  | expire call => exact h.expire hturn
  | remove call => exact h.remove hturn
  | lookup resolver id decision => exact h.lookup resolver id decision
  | send resolver => exact h.send hturn

theorem sound_newManager : Sound [] .newManager :=
  ⟨fun _ => ⟨rfl, rfl, rfl⟩, fun _ _ h => (nomatch h), fun _ _ h => (nomatch h),
    fun _ _ h => (nomatch h)⟩

theorem sound_run {steps : List Step} (h : interception.Meets InTurn .newManager steps) :
    Sound (interception.log .newManager steps) (interception.final .newManager steps) := by
  refine interception.final_history (I := fun past m => Sound (interception.log .newManager past) m)
    (fun past m step hm hsound hturn => ?_) sound_newManager h
  rw [Machine.log_concat, ← hm]
  exact hsound.call hturn

end Invariant

section Decisions

variable {log : List Event} {m : Manager}

theorem log_receive_remove {call : ℕ} {request : PendingRequest} {decision : RequestDecision}
    (hwait : m.stage call = .waiting request) (hheld : m.channel call = some decision) :
    interception.log m [.receive call, .remove call] =
      [.returned call request.id decision true] := by
  have hreceive : m.receive call =
      ((m.setStage call (.decided request decision true)).setChannel call none, []) := by
    simp only [Manager.receive, hwait, hheld]
  simp [Machine.log, interception, hreceive, Manager.remove, setChannel, setStage]

theorem log_remove {call : ℕ} {request : PendingRequest} {decision : RequestDecision} {ok : Bool}
    (hdecided : m.stage call = .decided request decision ok) :
    interception.log m [.receive call, .remove call] = [.returned call request.id decision ok] := by
  have hreceive : m.receive call = (m, []) := by simp only [Manager.receive, hdecided]
  simp [Machine.log, interception, hreceive, Manager.remove, hdecided]

theorem of_mem_resolved {resolved : List (String × RequestDecision)} {request : PendingRequest}
    {id : String} {result decision : RequestDecision} {ok : Bool}
    (hresolved : resolved = if ok then [(request.id, result)] else [])
    (hmem : (id, decision) ∈ resolved) :
    ok = true ∧ id = request.id ∧ decision = result ∧ resolved = [(id, decision)] := by
  subst hresolved
  cases ok with
  | false => cases hmem
  | true =>
    obtain ⟨rfl, rfl⟩ : id = request.id ∧ decision = result := by simpa using hmem
    exact ⟨rfl, rfl, rfl, rfl⟩

theorem Sound.decisionsHold (h : Sound log m) : DecisionsHold log m := by
  refine ⟨fun call id decision hmem => ?_, fun call request hwait items hitems => ?_,
    fun call request hwait hnone resolver decision hfree => ?_⟩
  · have hself := h.tracked call
    cases hstage : m.stage call with
    | idle =>
      rw [hstage] at hself
      rw [hself.2.1] at hmem
      cases hmem
    | waiting request =>
      rw [hstage] at hself
      obtain ⟨hresolved, hresults⟩ := hself
      rw [hresolved] at hmem ⊢
      cases hheld : m.channel call with
      | none => simp [hheld] at hmem
      | some held =>
        obtain ⟨rfl, rfl⟩ : id = request.id ∧ decision = held := by simpa [hheld] using hmem
        exact ⟨rfl, .inr ⟨hresults, log_receive_remove hstage hheld⟩⟩
    | decided request result ok =>
      rw [hstage] at hself
      obtain ⟨-, hresolved, hresults⟩ := hself
      obtain ⟨rfl, rfl, rfl, hone⟩ := of_mem_resolved hresolved hmem
      exact ⟨hone, .inr ⟨hresults, log_remove hstage⟩⟩
    | returned request result ok =>
      rw [hstage] at hself
      obtain ⟨-, hresolved, hresults⟩ := hself
      obtain ⟨rfl, rfl, rfl, hone⟩ := of_mem_resolved hresolved hmem
      exact ⟨hone, .inl hresults⟩
  · apply hitems.1.mem_iff.2
    have hentry : m.pending.get request.id = some ⟨call, request⟩ := h.opened call request hwait
    exact List.mem_map.2 ⟨_, Table.mem_values_iff.2 ⟨_, hentry⟩, rfl⟩
  · have hself := h.tracked call
    rw [hwait] at hself
    have hempty : m.channel call = none := by
      have hheld : (m.channel call).toList.map (request.id, ·) = [] := hself.1.symm.trans hnone
      simpa using hheld
    have hentry : m.pending.get request.id = some ⟨call, request⟩ := h.opened call request hwait
    simp [Machine.log, interception, Manager.lookup, hfree, hentry, Manager.send,
      setResolving, hempty]

/-- In every run whose steps all come in turn, every confirmed decision takes effect, and every
waiting call can be seen and resolved, in every state on the way. -/
theorem confirmed_decisions_hold (steps : List Step)
    (h : interception.Meets InTurn .newManager steps) :
    ∀ before, before <+: steps →
      DecisionsHold (interception.log .newManager before)
        (interception.final .newManager before) := by
  rintro before ⟨rest, rfl⟩
  exact (sound_run ((interception.meets_append _ _ _ _).1 h).1).decisionsHold

/-- A request that is held, dropped by the operator and let return. -/
theorem dropped_request_holds :
    let request : PendingRequest := ⟨"r", "room", "agent", "manual", 0⟩
    let steps : List Step := [.register 0 request, .lookup 0 "r" (.drop "no"), .send 0,
      .receive 0, .remove 0]
    interception.Meets InTurn .newManager steps ∧
      results (interception.log .newManager steps) 0 = [("r", .drop "no", true)] ∧
      ∀ before, before <+: steps → DecisionsHold (interception.log .newManager before)
        (interception.final .newManager before) := by
  intro request steps
  have hturn : interception.Meets InTurn .newManager steps := by
    refine ⟨fun entry hentry => (nomatch hentry), trivial, fun r hr _ => ?_, trivial,
      fun _ _ entry _ hwait => ?_, trivial⟩
    · obtain rfl : (⟨"r", .drop "no", 0, request⟩ : Resolving) = r := Option.some.inj hr
      exact ⟨request, rfl⟩
    · obtain ⟨_, hwait⟩ := hwait
      cases hcall : entry.call with
      | zero =>
        rw [hcall] at hwait
        cases hwait
      | succ c =>
        rw [hcall] at hwait
        cases hwait
  exact ⟨hturn, rfl, confirmed_decisions_hold steps hturn⟩

/-- The context of a held request ends after the operator's drop was confirmed: the request is
forwarded. Of two calls with one request id, the first can no longer be resolved. -/
theorem confirmed_drop_forwarded :
    let request : PendingRequest := ⟨"r", "room", "agent", "manual", 0⟩
    let late : List Step := [.register 0 request, .lookup 0 "r" (.drop "no"), .send 0,
      .expire 0, .remove 0]
    let twice : List Step := [.register 0 request, .register 1 request]
    ¬ DecisionsHold (interception.log .newManager late) (interception.final .newManager late) ∧
      ¬ DecisionsHold (interception.log .newManager twice)
        (interception.final .newManager twice) := by
  intro request late twice
  constructor
  · intro h
    have hresolved : ("r", .drop "no") ∈ resolutions (interception.log .newManager late) 0 := by
      decide
    have hresults : results (interception.log .newManager late) 0 =
        [("r", .forward "manual intercept timeout", false)] := by decide
    have := (h.effective 0 "r" (.drop "no") hresolved).2
    rw [hresults] at this
    revert this
    decide
  · intro h
    have hfirst := h.resolvable 0 request rfl rfl 0 (.drop "no") rfl
    revert hfirst
    decide

end Decisions

end Sentinel.Gateway.Intercept

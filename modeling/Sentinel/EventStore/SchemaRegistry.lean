import Mathlib.Data.Finset.Card
import Mathlib.Data.Prod.Lex
import Mathlib.Data.String.Basic
import Mathlib.Order.Bounds.Basic
import Sentinel.Lib.Result
import Sentinel.Lib.Sha2
import Sentinel.Lib.Table
import Sentinel.Lib.Uuid

/-! The registry of event schemas (`sentinel-common`, `event_contract.rs`): definitions of an event
type at several versions, each with a validator and perhaps an upcaster to a later version. A
payload is taken along the upcasters until it meets a definition without one. -/

namespace Sentinel.EventStore
open Lib

abbrev Payload := List UInt8

inductive EventContractError where
  | unsupportedProposalVersion (version : ℕ)
  | unsupportedCausalContextVersion (version : ℕ)
  | invalidField (field reason : String)
  | invalidAuthorityHierarchy (place : String)
  | payloadDigestMismatch
  | causalContextTooLarge
  | unknownSchema (eventType : String) (schemaVersion : ℕ)
  | unsupportedKnownSchemaVersion (eventType : String) (schemaVersion : ℕ)
  | invalidSchemaPayload (eventType : String) (schemaVersion : ℕ) (reason : String)
  | invalidUpcastChain (eventType : String) (schemaVersion : ℕ)
  | unauthorizedProducer (producer eventType : String) (schemaVersion : ℕ)
  | durabilityMismatch
  | codecMismatch
  | requestedEventIdNotAuthorized
  | duplicateIdentifier (place : String)
  | canonicalEncoding (reason : String)

def EventContractError.toText : EventContractError → String
  | unsupportedProposalVersion v => "unsupported event proposal version " ++ toString v
  | unsupportedCausalContextVersion v => "unsupported causal-context version " ++ toString v
  | invalidField field reason => "invalid " ++ field ++ ": " ++ reason
  | invalidAuthorityHierarchy place => "invalid authority hierarchy at " ++ place
  | payloadDigestMismatch => "payload digest does not match payload bytes"
  | causalContextTooLarge => "causal context exceeds its canonical size bound"
  | unknownSchema t v => "unknown event schema " ++ t ++ "@" ++ toString v
  | unsupportedKnownSchemaVersion t v =>
    "unsupported known event schema version " ++ t ++ "@" ++ toString v
  | invalidSchemaPayload t v reason =>
    "event payload is invalid for schema " ++ t ++ "@" ++ toString v ++ ": " ++ reason
  | invalidUpcastChain t v => "invalid event schema upcast chain for " ++ t ++ "@" ++ toString v
  | unauthorizedProducer p t v =>
    "producer " ++ p ++ " is not authorized for " ++ t ++ "@" ++ toString v
  | durabilityMismatch => "event durability does not match the schema registry"
  | codecMismatch => "payload codec does not match the schema registry"
  | requestedEventIdNotAuthorized =>
    "requested event identity is not authorized for this producer"
  | duplicateIdentifier place => "duplicate identifier in " ++ place
  | canonicalEncoding reason => "canonical serialization failed: " ++ reason

def maxWireIdBytes : ℕ := 192

def maxEventTypeBytes : ℕ := 128

def maxProducerIdBytes : ℕ := 128

def isWireIdByte (b : UInt8) : Bool :=
  let n := b.toNat
  (48 ≤ n && n ≤ 57) || (65 ≤ n && n ≤ 90) || (97 ≤ n && n ≤ 122) || n = 45 || n = 95 ||
    n = 46 || n = 58 || n = 47

def validateWireId (field value : String) (maxBytes : ℕ) : Except EventContractError Unit := do
  let bytes := utf8Bytes value
  ensure (bytes ≠ [] ∧ bytes.length ≤ maxBytes)
    (.invalidField field "is empty or exceeds its size bound")
  ensure (bytes.all isWireIdByte = true)
    (.invalidField field "contains a non-canonical character")

structure EventSchemaUpcast where
  targetVersion : ℕ
  upcasterId : String
  upcast : Payload → Except EventContractError Payload

structure EventSchemaDefinition where
  eventType : String
  schemaVersion : ℕ
  allowedProducers : List String
  deterministicEventIdProducers : List String
  validatorId : String
  validatePayload : Payload → Except EventContractError Unit
  upcast : Option EventSchemaUpcast

abbrev EventSchemaRegistry := Table (String ×ₗ ℕ) EventSchemaDefinition

structure UpcastedEventPayload where
  eventType : String
  sourceVersion : ℕ
  targetVersion : ℕ
  payload : Payload
  payloadDigest : String
  appliedUpcasters : List String

def validateUpcast (d : EventSchemaDefinition) : Except EventContractError Unit :=
  match d.upcast with
  | none => .ok ()
  | some upcast => do
    validateWireId "event_schema.upcaster_id" upcast.upcasterId maxWireIdBytes
    ensure (d.schemaVersion < upcast.targetVersion)
      (.invalidUpcastChain d.eventType d.schemaVersion)

namespace EventSchemaRegistry

def register (registry : EventSchemaRegistry) (d : EventSchemaDefinition) :
    Except EventContractError EventSchemaRegistry := do
  validateWireId "event_schema.event_type" d.eventType maxEventTypeBytes
  ensure (d.schemaVersion ≠ 0 ∧ d.allowedProducers ≠ [])
    (.invalidField "event_schema" "requires a version and at least one producer")
  validateWireId "event_schema.validator_id" d.validatorId maxWireIdBytes
  validateUpcast d
  checkAll (fun producer => validateWireId "event_schema.producer" producer maxProducerIdBytes)
    (d.allowedProducers ++ d.deterministicEventIdProducers)
  ensure (d.deterministicEventIdProducers ⊆ d.allowedProducers)
    (.invalidField "deterministic_event_id_producers" "must be a subset of allowed producers")
  ensure ((registry.get (toLex (d.eventType, d.schemaVersion))).isNone = true)
    (.duplicateIdentifier "event_schema")
  .ok (registry.insert (toLex (d.eventType, d.schemaVersion)) d)

def targetRegistered (registry : EventSchemaRegistry) (d : EventSchemaDefinition) :
    Except EventContractError Unit :=
  match d.upcast with
  | none => .ok ()
  | some upcast =>
    ensure ((registry.get (toLex (d.eventType, upcast.targetVersion))).isSome = true)
      (.invalidUpcastChain d.eventType d.schemaVersion)

def new (definitions : List EventSchemaDefinition) :
    Except EventContractError EventSchemaRegistry := do
  let registry ← definitions.foldlM register Table.empty
  checkAll (targetRegistered registry) registry.values
  .ok registry

def upcastLoop [Sha256] (registry : EventSchemaRegistry) (eventType : String) (source : ℕ) :
    ℕ → ℕ → Payload → List String →
      List (ℕ × Payload) × Except EventContractError UpcastedEventPayload
  | 0, _, _, _ => ([], .error (.invalidUpcastChain eventType source))
  | left + 1, version, current, applied =>
    match registry.get (toLex (eventType, version)) with
    | none => ([], .error (.unsupportedKnownSchemaVersion eventType version))
    | some d =>
      match d.validatePayload current with
      | .error e => ([], .error (.invalidSchemaPayload eventType version e.toText))
      | .ok _ =>
        match d.upcast with
        | none => ([(version, current)], .ok ⟨eventType, source, version, current,
            hexText (Sha256.digest current).toList, applied⟩)
        | some upcast =>
          match upcast.upcast current with
          | .error e =>
            ([(version, current)], .error (.invalidSchemaPayload eventType version e.toText))
          | .ok next =>
            let rest := upcastLoop registry eventType source left upcast.targetVersion next
              (applied ++ [upcast.upcasterId])
            ((version, current) :: rest.1, rest.2)

def upcastTrace [Sha256] (registry : EventSchemaRegistry) (eventType : String) (source : ℕ)
    (payload : Payload) : List (ℕ × Payload) × Except EventContractError UpcastedEventPayload :=
  if registry.entries.any fun e => (ofLex e.1).1 = eventType then
    upcastLoop registry eventType source (registry.entries.length + 1) source payload []
  else ([], .error (.unknownSchema eventType source))

def upcastToLatest [Sha256] (registry : EventSchemaRegistry) (eventType : String) (source : ℕ)
    (payload : Payload) : Except EventContractError UpcastedEventPayload :=
  (upcastTrace registry eventType source payload).2

/-! ### The graph of upcasts -/

section Graph

variable (registry : EventSchemaRegistry) (eventType : String)

def Registered (version : ℕ) : Prop := (registry.get (toLex (eventType, version))).isSome = true

def Latest (version : ℕ) : Prop := IsGreatest { v | Registered registry eventType v } version

def Valid (s : ℕ × Payload) : Prop :=
  ∃ d, registry.get (toLex (eventType, s.1)) = some d ∧ d.validatePayload s.2 = .ok ()

def Final (version : ℕ) : Prop :=
  ∃ d, registry.get (toLex (eventType, version)) = some d ∧ d.upcast = none

def Upcasts (s t : ℕ × Payload) : Prop :=
  ∃ d upcast, registry.get (toLex (eventType, s.1)) = some d ∧ d.validatePayload s.2 = .ok () ∧
    d.upcast = some upcast ∧ upcast.upcast s.2 = .ok t.2 ∧ t.1 = upcast.targetVersion

def LeadsTo : ℕ × Payload → ℕ × Payload → Prop :=
  Relation.ReflTransGen (Upcasts registry eventType)

structure WellFormed : Prop where
  key : ∀ k d, registry.get k = some d → k = toLex (d.eventType, d.schemaVersion)
  increasing : ∀ k d upcast, registry.get k = some d → d.upcast = some upcast →
    d.schemaVersion < upcast.targetVersion
  closed : ∀ k d upcast, registry.get k = some d → d.upcast = some upcast →
    Registered registry d.eventType upcast.targetVersion

end Graph

variable {registry : EventSchemaRegistry} {eventType : String}
  {definitions : List EventSchemaDefinition} {version : ℕ} {d : EventSchemaDefinition}
  {s : ℕ × Payload}

theorem validateUpcast_increasing {upcast : EventSchemaUpcast} (h : validateUpcast d = .ok ())
    (hupcast : d.upcast = some upcast) : d.schemaVersion < upcast.targetVersion := by
  unfold validateUpcast at h
  simp only [hupcast, bind_eq_ok, ensure_eq_ok, exists_unit] at h
  exact h.2

theorem register_eq_ok {next : EventSchemaRegistry} (h : register registry d = .ok next) :
    validateUpcast d = .ok () ∧
      next = registry.insert (toLex (d.eventType, d.schemaVersion)) d := by
  simp only [register, bind_eq_ok, exists_unit, Except.ok.injEq] at h
  obtain ⟨-, -, -, hupcast, -, -, -, rfl⟩ := h
  exact ⟨hupcast, rfl⟩

theorem wellFormed_new (h : new definitions = .ok registry) : WellFormed registry := by
  simp only [new, bind_eq_ok, exists_unit, Except.ok.injEq, checkAll_eq_ok] at h
  obtain ⟨built, hbuilt, htargets, rfl⟩ := h
  have hrows : ∀ k d, built.get k = some d →
      k = toLex (d.eventType, d.schemaVersion) ∧ validateUpcast d = .ok () := by
    refine foldlM_invariant (I := fun t => ∀ k d, t.get k = some d →
      k = toLex (d.eventType, d.schemaVersion) ∧ validateUpcast d = .ok ()) ?_ (by simp) hbuilt
    intro d _ t u ht hu k e hget
    obtain ⟨hupcast, rfl⟩ := register_eq_ok hu
    rcases Table.get_of_insert hget with ⟨hk, rfl⟩ | hget
    · exact ⟨hk, hupcast⟩
    · exact ht k e hget
  refine ⟨fun k d hget => (hrows k d hget).1, fun k d upcast hget hupcast => ?_,
    fun k d upcast hget hupcast => ?_⟩
  · exact validateUpcast_increasing (hrows k d hget).2 hupcast
  · have htarget := htargets d (Table.mem_values_iff.2 ⟨k, hget⟩)
    simpa [targetRegistered, hupcast, Registered] using htarget

theorem WellFormed.upcasts (hreg : WellFormed registry) {t : ℕ × Payload}
    (h : Upcasts registry eventType s t) :
    Valid registry eventType s ∧ s.1 < t.1 ∧ Registered registry eventType t.1 := by
  obtain ⟨d, upcast, hget, hvalid, hupcast, -, htarget⟩ := h
  have hkey := hreg.key _ d hget
  obtain ⟨htype, hversion⟩ := Prod.mk.inj (toLex.injective hkey)
  refine ⟨⟨d, hget, hvalid⟩, ?_, ?_⟩
  · rw [htarget, hversion]
    exact hreg.increasing _ d upcast hget hupcast
  · rw [htarget, htype]
    exact hreg.closed _ d upcast hget hupcast

/-! ### The versions still ahead -/

instance (version : ℕ) : Decidable (Registered registry eventType version) :=
  inferInstanceAs (Decidable (_ = true))

def versionsFrom (registry : EventSchemaRegistry) (eventType : String) (version : ℕ) : Finset ℕ :=
  (registry.entries.map fun e => (ofLex e.1).2).toFinset.filter fun v =>
    Registered registry eventType v ∧ version ≤ v

theorem mem_versionsFrom {v : ℕ} :
    v ∈ versionsFrom registry eventType version ↔
      Registered registry eventType v ∧ version ≤ v := by
  refine ⟨fun h => (Finset.mem_filter.1 h).2, fun h => Finset.mem_filter.2 ⟨?_, h⟩⟩
  obtain ⟨d, hget⟩ := Option.isSome_iff_exists.1 h.1
  exact List.mem_toFinset.2 (List.mem_map.2 ⟨_, Table.get_eq_some_iff.1 hget, rfl⟩)

theorem card_versionsFrom_le (version : ℕ) :
    (versionsFrom registry eventType version).card ≤ registry.entries.length := by
  calc (versionsFrom registry eventType version).card
      ≤ (registry.entries.map fun e => (ofLex e.1).2).toFinset.card := Finset.card_filter_le _ _
    _ ≤ (registry.entries.map fun e => (ofLex e.1).2).length := List.toFinset_card_le _
    _ = registry.entries.length := List.length_map _

theorem card_versionsFrom_lt {target : ℕ} (hregistered : Registered registry eventType version)
    (hlt : version < target) :
    (versionsFrom registry eventType target).card <
      (versionsFrom registry eventType version).card := by
  apply Finset.card_lt_card
  refine Finset.ssubset_iff_subset_ne.2 ⟨fun v hv => ?_, fun heq => ?_⟩
  · have hv := mem_versionsFrom.1 hv
    exact mem_versionsFrom.2 ⟨hv.1, hlt.le.trans hv.2⟩
  · have hself : version ∈ versionsFrom registry eventType target :=
      heq ▸ mem_versionsFrom.2 ⟨hregistered, le_rfl⟩
    exact absurd (mem_versionsFrom.1 hself).2 (not_le.2 hlt)

/-! ### The loop follows the graph -/

def EndsAt (registry : EventSchemaRegistry) (eventType : String) (s : ℕ × Payload) (version : ℕ) :
    Prop :=
  ∃ payload, LeadsTo registry eventType s (version, payload) ∧
    Valid registry eventType (version, payload) ∧ Final registry eventType version

theorem endsAt_iff :
    EndsAt registry eventType s version ↔
      (s.1 = version ∧ Valid registry eventType s ∧ Final registry eventType s.1) ∨
        ∃ t, Upcasts registry eventType s t ∧ EndsAt registry eventType t version := by
  constructor
  · rintro ⟨payload, hleads, hvalid, hfinal⟩
    rcases hleads.cases_head with rfl | ⟨t, hstep, hrest⟩
    · exact .inl ⟨rfl, hvalid, hfinal⟩
    · exact .inr ⟨t, hstep, payload, hrest, hvalid, hfinal⟩
  · rintro (⟨rfl, hvalid, hfinal⟩ | ⟨t, hstep, payload, hrest, hvalid, hfinal⟩)
    · exact ⟨s.2, .refl, hvalid, hfinal⟩
    · exact ⟨payload, .head hstep hrest, hvalid, hfinal⟩

theorem upcasts_iff {current : Payload} {t : ℕ × Payload}
    (hget : registry.get (toLex (eventType, version)) = some d) :
    Upcasts registry eventType (version, current) t ↔ d.validatePayload current = .ok () ∧
      ∃ upcast, d.upcast = some upcast ∧ upcast.upcast current = .ok t.2 ∧
        t.1 = upcast.targetVersion := by
  simp [Upcasts, hget]

structure Follows (registry : EventSchemaRegistry) (eventType : String) (source : ℕ)
    (s : ℕ × Payload) (out : List (ℕ × Payload) × Except EventContractError UpcastedEventPayload) :
    Prop where
  climbs : out.1.Pairwise fun a b => a.1 < b.1
  valid : ∀ a ∈ out.1, s.1 ≤ a.1 ∧ Valid registry eventType a
  last : ∀ r, out.2 = .ok r → out.1.getLast? = some (r.targetVersion, r.payload)
  ends : ∀ version, (∃ r, out.2 = .ok r ∧ r.targetVersion = version) ↔
    EndsAt registry eventType s version
  uncut : out.2 ≠ .error (.invalidUpcastChain eventType source)

theorem Follows.of_error {source : ℕ} {trace : List (ℕ × Payload)} {e : EventContractError}
    (htrace : trace = [] ∨ trace = [s] ∧ Valid registry eventType s)
    (hends : ∀ version, ¬ EndsAt registry eventType s version)
    (he : e ≠ .invalidUpcastChain eventType source) :
    Follows registry eventType source s (trace, .error e) where
  climbs := by rcases htrace with rfl | ⟨rfl, -⟩ <;> simp
  valid a ha := by
    rcases htrace with rfl | ⟨rfl, hvalid⟩
    · cases ha
    · rw [List.mem_singleton.1 ha]
      exact ⟨le_rfl, hvalid⟩
  last r hr := by cases hr
  ends version := ⟨fun ⟨r, hr, _⟩ => (nomatch hr), fun h => absurd h (hends version)⟩
  uncut := by simpa using he

theorem upcastLoop_follows [Sha256] (hreg : WellFormed registry) (source left version : ℕ)
    (current : Payload) (applied : List String)
    (hleft : (versionsFrom registry eventType version).card < left) :
    Follows registry eventType source (version, current)
      (upcastLoop registry eventType source left version current applied) := by
  induction left generalizing version current applied with
  | zero => exact absurd hleft (Nat.not_lt_zero _)
  | succ left ih =>
    unfold upcastLoop
    split
    case h_1 hget =>
      refine .of_error (.inl rfl) (fun w hends => ?_) (by simp)
      rcases endsAt_iff.1 hends with ⟨-, ⟨d, hd, -⟩, -⟩ | ⟨t, ⟨d, -, hd, -⟩, -⟩ <;>
        simp [hget] at hd
    case h_2 d hget =>
    split
    case h_1 e hinvalid =>
      refine .of_error (.inl rfl) (fun w hends => ?_) (by simp)
      rcases endsAt_iff.1 hends with ⟨-, hvalid, -⟩ | ⟨t, hstep, -⟩
      · simp [Valid, hget, hinvalid] at hvalid
      · simp [upcasts_iff hget, hinvalid] at hstep
    case h_2 hok =>
    have hvalid : Valid registry eventType (version, current) := ⟨d, hget, hok⟩
    have hregistered : Registered registry eventType version := by simp [Registered, hget]
    split
    case h_1 hnone =>
      refine ⟨by simp, by simpa using hvalid, fun r hr => ?_, fun w => ?_, by simp⟩
      · cases hr
        rfl
      · have hfinal : Final registry eventType version := ⟨d, hget, hnone⟩
        rw [endsAt_iff]
        simp [upcasts_iff hget, hnone, hvalid, hfinal]
    case h_2 upcast hsome =>
    have hnotFinal : ¬ Final registry eventType version := by simp [Final, hget, hsome]
    split
    case h_1 e hfailed =>
      refine .of_error (.inr ⟨rfl, hvalid⟩) (fun w hends => ?_) (by simp)
      rcases endsAt_iff.1 hends with ⟨-, -, hfinal⟩ | ⟨t, hstep, -⟩
      · exact hnotFinal hfinal
      · simp [upcasts_iff hget, hsome, hfailed] at hstep
    case h_2 next hnext =>
      have hstep : ∀ t, Upcasts registry eventType (version, current) t ↔
          t = (upcast.targetVersion, next) := by
        rintro ⟨w, p⟩
        rw [upcasts_iff hget]
        simp only [hok, hsome, hnext, Option.some.injEq, exists_eq_left', Except.ok.injEq, true_and,
          Prod.mk.injEq]
        exact ⟨fun h => ⟨h.2, h.1.symm⟩, fun h => ⟨h.2.symm, h.1⟩⟩
      have hlt : version < upcast.targetVersion := (hreg.upcasts ((hstep _).2 rfl)).2.1
      have hrest := ih upcast.targetVersion next (applied ++ [upcast.upcasterId])
        (Nat.lt_of_lt_of_le (card_versionsFrom_lt hregistered hlt) (Nat.le_of_lt_succ hleft))
      refine ⟨?_, ?_, fun r hr => ?_, fun w => ?_, hrest.uncut⟩
      · exact List.pairwise_cons.2
          ⟨fun a ha => Nat.lt_of_lt_of_le hlt (hrest.valid a ha).1, hrest.climbs⟩
      · refine List.forall_mem_cons.2 ⟨⟨le_rfl, hvalid⟩, fun a ha => ?_⟩
        exact ⟨hlt.le.trans (hrest.valid a ha).1, (hrest.valid a ha).2⟩
      · rw [List.getLast?_cons, hrest.last r hr]
        rfl
      · rw [endsAt_iff, hrest.ends w]
        simp [hstep, hnotFinal]

theorem follows_upcastTrace [Sha256] (hnew : new definitions = .ok registry) {source : ℕ}
    {payload : Payload} (hvalid : Valid registry eventType (source, payload)) :
    Follows registry eventType source (source, payload)
      (upcastTrace registry eventType source payload) := by
  have hknown : (registry.entries.any fun e => (ofLex e.1).1 = eventType) = true := by
    obtain ⟨d, hget, -⟩ := hvalid
    exact List.any_eq_true.2 ⟨_, Table.get_eq_some_iff.1 hget, by simp⟩
  have hout : upcastTrace registry eventType source payload = upcastLoop registry eventType source
      (registry.entries.length + 1) source payload [] := if_pos hknown
  rw [hout]
  exact upcastLoop_follows (wellFormed_new hnew) _ _ _ _ _
    (Nat.lt_succ_of_le (card_versionsFrom_le source))

theorem upcastToLatest_latest_iff [Sha256] (hnew : new definitions = .ok registry) {source : ℕ}
    {payload : Payload} (hvalid : Valid registry eventType (source, payload)) :
    (∀ r, upcastToLatest registry eventType source payload = .ok r →
        Latest registry eventType r.targetVersion) ↔
      ∀ s, LeadsTo registry eventType (source, payload) s → Valid registry eventType s →
        Final registry eventType s.1 → Latest registry eventType s.1 := by
  have hfollows := follows_upcastTrace hnew hvalid
  refine ⟨fun h s hleads hs hfinal => ?_, fun h r hr => ?_⟩
  · obtain ⟨r, hr, hversion⟩ := (hfollows.ends s.1).2 ⟨s.2, hleads, hs, hfinal⟩
    exact hversion ▸ h r hr
  · obtain ⟨p, hleads, hs, hfinal⟩ := (hfollows.ends r.targetVersion).1 ⟨r, hr, rfl⟩
    exact h _ hleads hs hfinal

/-- A registry takes every valid payload to the latest version, if at all, exactly when every
version below it at which some payload is valid has an upcaster. -/
theorem upcasts_complete_iff [Sha256] (hnew : new definitions = .ok registry) :
    (∀ source payload, Valid registry eventType (source, payload) →
      ∀ r, upcastToLatest registry eventType source payload = .ok r →
        Latest registry eventType r.targetVersion) ↔
      ∀ version, ¬ Latest registry eventType version →
        (∃ payload, Valid registry eventType (version, payload)) →
          ¬ Final registry eventType version := by
  constructor
  · rintro h version hlatest ⟨payload, hvalid⟩ hfinal
    exact hlatest ((upcastToLatest_latest_iff hnew hvalid).1 (h version payload hvalid) _ .refl
      hvalid hfinal)
  · intro h source payload hvalid
    refine (upcastToLatest_latest_iff hnew hvalid).2 fun s _ hs hfinal => ?_
    by_contra hlatest
    exact h s.1 hlatest ⟨s.2, hs⟩ hfinal

/-- **Upcasting.** From a registered version and a payload valid there the loop comes to an end of
its own; it climbs through valid payloads, and it never returns a version that is not the latest
exactly when every version without an upcaster that the payload is taken to is the latest. -/
theorem upcast_reaches_latest_iff [Sha256] {definitions : List EventSchemaDefinition}
    (hnew : new definitions = .ok registry) {source : ℕ} {payload : Payload}
    (hvalid : Valid registry eventType (source, payload)) :
    let out := upcastTrace registry eventType source payload
    (out.1.Pairwise (fun a b => a.1 < b.1) ∧ (∀ a ∈ out.1, Valid registry eventType a) ∧
      (∀ r, out.2 = .ok r → out.1.getLast? = some (r.targetVersion, r.payload)) ∧
      out.2 ≠ .error (.invalidUpcastChain eventType source)) ∧
    ((∀ r, upcastToLatest registry eventType source payload = .ok r →
        Latest registry eventType r.targetVersion) ↔
      ∀ s, LeadsTo registry eventType (source, payload) s → Valid registry eventType s →
        Final registry eventType s.1 → Latest registry eventType s.1) := by
  intro out
  have hfollows := follows_upcastTrace hnew hvalid
  exact ⟨⟨hfollows.climbs, fun a ha => (hfollows.valid a ha).2, hfollows.last, hfollows.uncut⟩,
    upcastToLatest_latest_iff hnew hvalid⟩

section Samples

def kpiUpcast : EventSchemaUpcast := ⟨2, "kpi-1-to-2", fun payload => .ok payload⟩

def kpiSchema (version : ℕ) (upcast : Option EventSchemaUpcast) : EventSchemaDefinition :=
  ⟨"kpi", version, ["daemon"], [], "kpi-validator", fun _ => .ok (), upcast⟩

theorem exists_of_accepted (definitions : List EventSchemaDefinition)
    (check : EventSchemaRegistry → Bool) (h : (new definitions).toOption.any check = true) :
    ∃ registry, new definitions = .ok registry ∧ check registry = true := by
  cases hnew : new definitions with
  | error e => simp [hnew, Except.toOption] at h
  | ok registry => exact ⟨registry, rfl, by simpa [hnew, Except.toOption] using h⟩

theorem kpi_upcast_ends :
    ∃ registry, new [kpiSchema 1 (some kpiUpcast), kpiSchema 2 none] = .ok registry ∧
      Valid registry "kpi" (1, []) ∧
      (@upcastTrace Sha2.instSha256 registry "kpi" 1 []).2 ≠
        .error (.invalidUpcastChain "kpi" 1) := by
  obtain ⟨registry, hnew, hcheck⟩ := exists_of_accepted
    [kpiSchema 1 (some kpiUpcast), kpiSchema 2 none]
    (fun registry => (registry.get (toLex ("kpi", 1))).any fun d => (d.validatePayload []).isOk)
    (by decide +kernel)
  have hvalid : Valid registry "kpi" (1, []) := by
    obtain ⟨d, hget, hok⟩ := (Option.any_eq_true _ _).1 hcheck
    cases hvalidate : d.validatePayload [] with
    | error e => simp [hvalidate, Except.isOk, Except.toBool] at hok
    | ok u => exact ⟨d, hget, hvalidate⟩
  let _ := Sha2.instSha256
  exact ⟨registry, hnew, hvalid, (upcast_reaches_latest_iff hnew hvalid).1.2.2.2⟩

/-- Version one has no upcaster although version two is registered: a payload of version one is
returned as the latest. -/
theorem missing_upcaster_stops_early :
    ∃ registry, new [kpiSchema 1 none, kpiSchema 2 none] = .ok registry ∧
      Registered registry "kpi" 2 ∧
      ∃ r, @upcastToLatest Sha2.instSha256 registry "kpi" 1 [] = .ok r ∧
        r.targetVersion = 1 := by
  obtain ⟨registry, hnew, hcheck⟩ := exists_of_accepted [kpiSchema 1 none, kpiSchema 2 none]
    (fun registry => (registry.get (toLex ("kpi", 2))).isSome &&
      (@upcastToLatest Sha2.instSha256 registry "kpi" 1 []).toOption.any fun r =>
        r.targetVersion = 1)
    (by decide +kernel)
  obtain ⟨hregistered, hresult⟩ := Bool.and_eq_true_iff.1 hcheck
  refine ⟨registry, hnew, hregistered, ?_⟩
  cases hr : @upcastToLatest Sha2.instSha256 registry "kpi" 1 [] with
  | error e => simp [hr, Except.toOption] at hresult
  | ok r => exact ⟨r, rfl, by simpa [hr, Except.toOption] using hresult⟩

end Samples

end EventSchemaRegistry
end Sentinel.EventStore

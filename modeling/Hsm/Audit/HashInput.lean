import Hsm.Audit.Event
import Hsm.Lib.JsonLaws
import Hsm.Lib.TimeLaws

/-! What the bytes an event is hashed from say about the event. -/

namespace Hsm

/-- The texts of other packages can be read back. -/
structure AuditPrimitives.Readable (prim : AuditPrimitives) : Prop where
  time : ∀ {time other : DateTime} {rest rest' : Bytes}, time.Valid → other.Valid →
    asBytes (prim.toRfc3339 time) ++ rest = asBytes (prim.toRfc3339 other) ++ rest' →
    time = other ∧ rest = rest'
  json : ∀ {value other : JsonValue} {rest rest' : Bytes}, value.Valid → other.Valid →
    value.Delimited → other.Delimited →
    asBytes (prim.toJson value) ++ rest = asBytes (prim.toJson other) ++ rest' →
    value = other ∧ rest = rest'
  jsonUnique : ∀ {value other : JsonValue}, value.Valid → other.Valid →
    prim.toJson value = prim.toJson other → value = other
  jsonNonempty : ∀ {value : JsonValue}, value.Valid → prim.toJson value ≠ ""

theorem AuditPrimitives.standard_readable : AuditPrimitives.standard.Readable where
  time valid also same := DateTime.asBytes_toRfc3339_read valid also same
  json valid also delimited delimited' same :=
    JsonValue.print_read valid also delimited delimited' same
  jsonUnique valid also same := JsonValue.print_inj valid also same
  jsonNonempty valid := JsonValue.print_ne_empty valid

theorem EventType.name_injective : Function.Injective EventType.name := by
  intro first second same
  cases first <;> cases second <;> first | rfl | exact absurd same (by decide)

theorem OperationResult.toValue_injective : Function.Injective OperationResult.toValue := by
  intro first second same
  cases first <;> cases second <;> simp_all [OperationResult.toValue]

theorem OperationResult.toValue_valid (result : OperationResult) :
    result.toValue.Valid ∧ result.toValue.Delimited := by
  cases result <;>
    simp [OperationResult.toValue, JsonValue.Valid, JsonValue.EntriesValid, JsonValue.Delimited]

namespace AuditEvent

structure WellTyped (event : AuditEvent) : Prop where
  timestamp : event.timestamp.Valid
  sequence : event.sequence < 2 ^ 64
  metadata : ∀ metadata ∈ event.metadata, metadata.Valid

/-- Two events agree on all but their own hash. -/
structure Agrees (first second : AuditEvent) : Prop where
  timestamp : first.timestamp = second.timestamp
  sequence : first.sequence = second.sequence
  eventType : first.eventType = second.eventType
  operation : first.operation = second.operation
  «namespace» : first.namespace = second.namespace
  clientId : first.clientId = second.clientId
  keyId : first.keyId = second.keyId
  result : first.result = second.result
  prevHash : first.prevHash = second.prevHash
  metadata : first.metadata = second.metadata

def joined (prim : AuditPrimitives) (event : AuditEvent) : Bytes :=
  asBytes event.operation ++
  asBytes event.namespace ++
  asBytes event.clientId ++
  (event.keyId.map asBytes).getD [] ++
  asBytes (prim.toJson event.result.toValue) ++
  asBytes event.prevHash ++
  (event.metadata.map fun metadata => asBytes (prim.toJson metadata)).getD []

/-- Where the fields of free text end. -/
structure Boundaries where
  operation : Nat
  «namespace» : Nat
  clientId : Nat
  keyId : Option Nat
  prevHash : Nat
  deriving DecidableEq, Repr

def boundaries (event : AuditEvent) : Boundaries where
  operation := (asBytes event.operation).length
  «namespace» := (asBytes event.namespace).length
  clientId := (asBytes event.clientId).length
  keyId := event.keyId.map fun keyId => (asBytes keyId).length
  prevHash := (asBytes event.prevHash).length

/-- Two events differ only in where the text is cut. -/
def Shifted (prim : AuditPrimitives) (first second : AuditEvent) : Prop :=
  (first.timestamp = second.timestamp ∧ first.sequence = second.sequence ∧
      first.eventType = second.eventType ∧ first.joined prim = second.joined prim) ∧
    first.boundaries ≠ second.boundaries

theorem hashInput_joined (prim : AuditPrimitives) (event : AuditEvent) :
    event.hashInput prim = asBytes (prim.toRfc3339 event.timestamp) ++
      (leBytes 8 event.sequence ++
        (asBytes (prim.toJson event.eventType.toValue) ++ event.joined prim)) := by
  simp only [hashInput, joined, List.append_assoc]

section

variable {prim : AuditPrimitives} (readable : prim.Readable) {first second : AuditEvent}

include readable

theorem hashInput_read (typed : first.WellTyped) (typed' : second.WellTyped)
    (same : first.hashInput prim = second.hashInput prim) :
    first.timestamp = second.timestamp ∧ first.sequence = second.sequence ∧
      first.eventType = second.eventType ∧ first.joined prim = second.joined prim := by
  rw [hashInput_joined, hashInput_joined] at same
  obtain ⟨times, same⟩ := readable.time typed.timestamp typed'.timestamp same
  -- The sequence number always takes eight bytes.
  obtain ⟨numbers, same⟩ := List.append_inj same (by simp)
  have bound : first.sequence < 256 ^ 8 := typed.sequence
  have bound' : second.sequence < 256 ^ 8 := typed'.sequence
  have values := congrArg leValue numbers
  rw [leValue_leBytes, leValue_leBytes, Nat.mod_eq_of_lt bound, Nat.mod_eq_of_lt bound'] at values
  obtain ⟨types, same⟩ := readable.json (by trivial) (by trivial) (by trivial) (by trivial) same
  exact ⟨times, values, EventType.name_injective (JsonValue.string.inj types), same⟩

theorem metadata_read (typed : first.WellTyped) (typed' : second.WellTyped)
    (same : (first.metadata.map fun metadata => asBytes (prim.toJson metadata)).getD [] =
      (second.metadata.map fun metadata => asBytes (prim.toJson metadata)).getD []) :
    first.metadata = second.metadata := by
  have nonempty {value : JsonValue} (valid : value.Valid) : asBytes (prim.toJson value) ≠ [] := by
    intro empty
    exact readable.jsonNonempty valid (asBytes_injective empty)
  cases present : first.metadata with
  | none =>
    cases present' : second.metadata with
    | none => rfl
    | some other =>
      rw [present, present'] at same
      exact absurd same.symm (nonempty (typed'.metadata other present'))
  | some value =>
    cases present' : second.metadata with
    | none =>
      rw [present, present'] at same
      exact absurd same (nonempty (typed.metadata value present))
    | some other =>
      rw [present, present'] at same
      have texts := asBytes_injective same
      rw [readable.jsonUnique (typed.metadata value present) (typed'.metadata other present') texts]

theorem joined_read (typed : first.WellTyped) (typed' : second.WellTyped)
    (cut : first.boundaries = second.boundaries)
    (same : first.joined prim = second.joined prim) :
    first.operation = second.operation ∧ first.namespace = second.namespace ∧
      first.clientId = second.clientId ∧ first.keyId = second.keyId ∧
      first.result = second.result ∧ first.prevHash = second.prevHash ∧
      first.metadata = second.metadata := by
  simp only [boundaries, Boundaries.mk.injEq] at cut
  obtain ⟨operations, namespaces, clients, keys, hashes⟩ := cut
  simp only [joined, List.append_assoc] at same
  -- Each field is taken off the front: texts by their length, the result by its own end.
  obtain ⟨operation, same⟩ := List.append_inj same operations
  obtain ⟨«namespace», same⟩ := List.append_inj same namespaces
  obtain ⟨client, same⟩ := List.append_inj same clients
  have keyLengths : ((first.keyId.map asBytes).getD []).length =
      ((second.keyId.map asBytes).getD []).length := by
    cases present : first.keyId <;> cases present' : second.keyId <;>
      simp_all
  obtain ⟨keyBytes, same⟩ := List.append_inj same keyLengths
  have keyId : first.keyId = second.keyId := by
    cases present : first.keyId <;> cases present' : second.keyId <;>
      simp_all [asBytes_injective.eq_iff]
  obtain ⟨valid, delimited⟩ := first.result.toValue_valid
  obtain ⟨valid', delimited'⟩ := second.result.toValue_valid
  obtain ⟨results, same⟩ := readable.json valid valid' delimited delimited' same
  obtain ⟨hash, metadata⟩ := List.append_inj same hashes
  exact ⟨asBytes_injective operation, asBytes_injective «namespace», asBytes_injective client,
    keyId, OperationResult.toValue_injective results, asBytes_injective hash,
    metadata_read readable typed typed' metadata⟩

/-- The hashed bytes determine an event exactly if no boundary of its fields has moved. -/
theorem hashInput_unambiguous_iff (typed : first.WellTyped) (typed' : second.WellTyped) :
    (first.hashInput prim = second.hashInput prim → first.Agrees second) ↔
      ¬ Shifted prim first second := by
  constructor
  · rintro unambiguous ⟨⟨times, numbers, types, texts⟩, moved⟩
    -- Shifted events are hashed from the same bytes.
    have agrees := unambiguous (by
      rw [hashInput_joined, hashInput_joined, times, numbers, types, texts])
    apply moved
    simp [boundaries, agrees.operation, agrees.namespace, agrees.clientId, agrees.keyId,
      agrees.prevHash]
  · intro unshifted same
    obtain ⟨times, numbers, types, texts⟩ := hashInput_read readable typed typed' same
    have cut : first.boundaries = second.boundaries := by
      by_contra moved
      exact unshifted ⟨⟨times, numbers, types, texts⟩, moved⟩
    obtain ⟨operation, «namespace», client, key, result, hash, metadata⟩ :=
      joined_read readable typed typed' cut texts
    exact ⟨times, numbers, types, operation, «namespace», client, key, result, hash, metadata⟩

end

namespace Sample

def exported : AuditEvent where
  timestamp := ⟨1700000000, 0⟩
  sequence := 1
  eventType := .keyExport
  operation := "export_key"
  «namespace» := "production"
  clientId := "alice"
  keyId := some "k1"
  result := .success
  prevHash := genesisHash
  currentHash := ""
  metadata := none

def renamed : AuditEvent := { exported with clientId := "alicek1", keyId := none }

theorem renamed_shifted : Shifted .standard exported renamed := by
  have moved : asBytes "alicek1" = asBytes "alice" ++ asBytes "k1" := by decide +kernel
  refine ⟨⟨rfl, rfl, rfl, ?_⟩, by decide +kernel⟩
  simp [joined, exported, renamed, moved]

theorem exported_typed : exported.WellTyped where
  timestamp := .inl (by decide)
  sequence := by decide
  metadata _ present := nomatch present

end Sample

theorem renamed_client_keeps_hash :
    Sample.exported.hashInput .standard = Sample.renamed.hashInput .standard ∧
      ¬ Sample.exported.Agrees Sample.renamed ∧
      ∃ hash, verifyHash .standard { Sample.exported with currentHash := hash } ∧
        verifyHash .standard { Sample.renamed with currentHash := hash } := by
  have same : Sample.exported.hashInput .standard = Sample.renamed.hashInput .standard := by
    obtain ⟨⟨-, -, -, texts⟩, -⟩ := Sample.renamed_shifted
    rw [hashInput_joined, hashInput_joined, texts]
    rfl
  have hashes : Sample.exported.computeHash .standard = Sample.renamed.computeHash .standard := by
    rw [computeHash, same, computeHash]
  refine ⟨same, fun agrees => absurd agrees.keyId (by decide), Sample.exported.computeHash .standard,
    ?_, ?_⟩
  · simp [verifyHash]
  · simp [verifyHash, hashes]

theorem hashInput_unambiguous_iff_sequence :
    AuditPrimitives.standard.Readable ∧ Sample.exported.WellTyped ∧
      ¬ Shifted .standard Sample.exported { Sample.exported with sequence := 2 } ∧
      (Sample.exported.hashInput .standard =
          ({ Sample.exported with sequence := 2 } : AuditEvent).hashInput .standard →
        Sample.exported.Agrees { Sample.exported with sequence := 2 }) := by
  have unshifted : ¬ Shifted .standard Sample.exported { Sample.exported with sequence := 2 } :=
    fun shifted => absurd shifted.1.2.1 (by decide)
  have typed : ({ Sample.exported with sequence := 2 } : AuditEvent).WellTyped :=
    ⟨Sample.exported_typed.timestamp, by decide, Sample.exported_typed.metadata⟩
  exact ⟨AuditPrimitives.standard_readable, Sample.exported_typed, unshifted,
    (hashInput_unambiguous_iff AuditPrimitives.standard_readable Sample.exported_typed typed).mpr
      unshifted⟩

end AuditEvent

end Hsm

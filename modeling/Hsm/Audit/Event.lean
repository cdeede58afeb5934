import Hsm.Lib.Json
import Hsm.Lib.Sha256
import Hsm.Lib.Text
import Hsm.Lib.Time

/-! Audit events: their fields, the bytes they are hashed from, and their builder. -/

namespace Hsm

inductive EventType where
  | keyGeneration
  | keyImport
  | keyExport
  | keyDeletion
  | keyRotation
  | sign
  | verify
  | encrypt
  | decrypt
  | authentication
  | authorization
  | accessDenied
  | systemStartup
  | systemShutdown
  | configChange
  | auditLogRotation
  | auditVerification
  deriving DecidableEq, Repr

def EventType.name : EventType → String
  | .keyGeneration => "key_generation"
  | .keyImport => "key_import"
  | .keyExport => "key_export"
  | .keyDeletion => "key_deletion"
  | .keyRotation => "key_rotation"
  | .sign => "sign"
  | .verify => "verify"
  | .encrypt => "encrypt"
  | .decrypt => "decrypt"
  | .authentication => "authentication"
  | .authorization => "authorization"
  | .accessDenied => "access_denied"
  | .systemStartup => "system_startup"
  | .systemShutdown => "system_shutdown"
  | .configChange => "config_change"
  | .auditLogRotation => "audit_log_rotation"
  | .auditVerification => "audit_verification"

inductive OperationResult where
  | success
  | failure (reason : String)
  deriving DecidableEq, Repr

structure AuditEvent where
  timestamp : DateTime
  sequence : Nat
  eventType : EventType
  operation : String
  «namespace» : String
  clientId : String
  keyId : Option String
  result : OperationResult
  prevHash : String
  currentHash : String
  metadata : Option JsonValue

/-- Functions of other packages the audit log uses. -/
structure AuditPrimitives where
  sha256 : Bytes → Bytes
  sha256_length : ∀ message, (sha256 message).length = 32
  hmacSha256 : Bytes → Bytes → Bytes
  toRfc3339 : DateTime → String
  toIso8601 : DateTime → String
  toJson : JsonValue → String
  /-- The text of the number that is read from the text of another. -/
  readNumber : String → String

/-- Numbers of arbitrary precision are read as they are written. -/
def AuditPrimitives.standard : AuditPrimitives where
  sha256 := Hsm.sha256
  sha256_length := Hsm.sha256_length
  hmacSha256 := Hsm.hmacSha256
  toRfc3339 := DateTime.toRfc3339
  toIso8601 := DateTime.toIso8601
  toJson := JsonValue.print
  readNumber := id

def EventType.toValue (eventType : EventType) : JsonValue := .string eventType.name

def OperationResult.toValue : OperationResult → JsonValue
  | .success => .string "success"
  | .failure reason => .object [("failure", .object [("reason", .string reason)])]

def genesisHash : String := String.ofList (List.replicate 64 '0')

namespace AuditEvent

def toValue (prim : AuditPrimitives) (event : AuditEvent) : JsonValue :=
  .object [
    ("timestamp", .string (prim.toIso8601 event.timestamp)),
    ("sequence", .number (toString event.sequence)),
    ("event_type", event.eventType.toValue),
    ("operation", .string event.operation),
    ("namespace", .string event.namespace),
    ("client_id", .string event.clientId),
    ("key_id", (event.keyId.map .string).getD .null),
    ("result", event.result.toValue),
    ("prev_hash", .string event.prevHash),
    ("current_hash", .string event.currentHash),
    ("metadata", event.metadata.getD .null)]

variable (prim : AuditPrimitives)

/-- The event that is read from the text of another: null metadata are none. -/
def reread (event : AuditEvent) : Except String AuditEvent :=
  match event.metadata with
  | none | some .null => .ok { event with metadata := none }
  | some metadata => do
    -- The event itself is the outermost of 128 nested values.
    return { event with metadata := some (← metadata.reread prim.readNumber 127) }

theorem reread_ok {event read : AuditEvent} (isRead : event.reread prim = .ok read) :
    read.sequence = event.sequence ∧ read.currentHash = event.currentHash := by
  unfold reread at isRead
  split at isRead
  · cases isRead
    exact ⟨rfl, rfl⟩
  · cases isRead
    exact ⟨rfl, rfl⟩
  · rename_i metadata _ _
    cases inner : metadata.reread prim.readNumber 127 with
    | error failure =>
      rw [inner] at isRead
      cases isRead
    | ok value =>
      rw [inner] at isRead
      cases isRead
      exact ⟨rfl, rfl⟩

theorem reread_none {event : AuditEvent} (none : event.metadata = none) :
    event.reread prim = .ok event := by
  rw [reread, none]
  simp only [← none]

def hashInput (event : AuditEvent) : Bytes :=
  asBytes (prim.toRfc3339 event.timestamp) ++
  leBytes 8 event.sequence ++
  asBytes (prim.toJson event.eventType.toValue) ++
  asBytes event.operation ++
  asBytes event.namespace ++
  asBytes event.clientId ++
  -- An absent key identifier adds nothing, like an empty one.
  (event.keyId.map asBytes).getD [] ++
  asBytes (prim.toJson event.result.toValue) ++
  asBytes event.prevHash ++
  (event.metadata.map fun metadata => asBytes (prim.toJson metadata)).getD []

def computeHash (event : AuditEvent) : String :=
  hexEncode (prim.sha256 (event.hashInput prim))

def verifyHash (event : AuditEvent) : Bool :=
  event.currentHash = event.computeHash prim

@[simp] theorem computeHash_currentHash (event : AuditEvent) (hash : String) :
    computeHash prim { event with currentHash := hash } = event.computeHash prim := rfl

end AuditEvent

structure AuditEventBuilder where
  timestamp : Option DateTime := none
  sequence : Option Nat := none
  eventType : Option EventType := none
  operation : Option String := none
  «namespace» : Option String := none
  clientId : Option String := none
  keyId : Option String := none
  result : Option OperationResult := none
  prevHash : Option String := none
  metadata : Option JsonValue := none

namespace AuditEventBuilder

def require {α : Type} (field : Option α) (missing : String) : Except String α :=
  match field with
  | some value => .ok value
  | none => .error missing

def build (prim : AuditPrimitives) (now : DateTime) (builder : AuditEventBuilder) :
    Except String AuditEvent := do
  let sequence ← require builder.sequence "sequence is required"
  let eventType ← require builder.eventType "event_type is required"
  let operation ← require builder.operation "operation is required"
  let «namespace» ← require builder.namespace "namespace is required"
  let clientId ← require builder.clientId "client_id is required"
  let result ← require builder.result "result is required"
  let event : AuditEvent := {
    timestamp := builder.timestamp.getD now
    sequence, eventType, operation, «namespace», clientId
    keyId := builder.keyId
    result
    prevHash := builder.prevHash.getD genesisHash
    currentHash := ""
    metadata := builder.metadata }
  return { event with currentHash := event.computeHash prim }

@[simp] theorem require_ok {α : Type} {field : Option α} {missing : String} {value : α} :
    require field missing = .ok value ↔ field = some value := by
  cases field <;> simp [require]

theorem build_ok {prim : AuditPrimitives} {now : DateTime} {builder : AuditEventBuilder}
    {event : AuditEvent} (built : builder.build prim now = .ok event) :
    builder.sequence = some event.sequence ∧
      event.prevHash = builder.prevHash.getD genesisHash ∧
      event.currentHash = event.computeHash prim := by
  -- All required fields are there, or the build would have stopped at the first missing one.
  simp only [build, bind, Except.bind] at built
  split at built
  · cases built
  · rename_i sequence numbered
    repeat' (split at built; · cases built)
    cases built
    exact ⟨require_ok.mp numbered, rfl, rfl⟩

end AuditEventBuilder

end Hsm

import Hsm.Lib.Bytes
import Hsm.Lib.Clock
import Hsm.Lib.Dict
import Hsm.Lib.Json

/-! Secrets, their values, and the JSON form in which values are stored. -/

namespace Hsm.Secrets

abbrev SecretId := String

abbrev SecretPath := String

inductive RotationInterval where
  | seconds (count : UInt64)
  | days (count : UInt32)
  | cron (expression : String)
  | manual

structure RotationConfig where
  interval : RotationInterval
  engine : String
  config : JsonValue
  lastRotatedAt : Option Instant
  nextRotationAt : Option Instant

structure SecretMetadata where
  labels : Dict String String := ∅
  description : Option String := none
  rotation : Option RotationConfig := none
  expiresAt : Option Instant := none
  owner : Option String := none

structure Secret where
  id : SecretId
  path : SecretPath
  currentVersion : UInt32
  metadata : SecretMetadata
  createdAt : Instant
  updatedAt : Instant

inductive SecretError where
  | invalidPath (message : String)
  | notFound (path : SecretPath)
  | versionNotFound (version : UInt32)
  | alreadyExists (path : SecretPath)
  | encryption (message : String)
  | decryption (message : String)
  deriving DecidableEq, Repr

inductive SecretValue where
  | string (text : String)
  | binary (bytes : Bytes)
  | json (value : JsonValue)

structure SecretData where
  data : Dict String SecretValue

namespace SecretValue

def byteToJson (byte : UInt8) : JsonValue := .number (toString byte.toNat)

def byteOfJson : JsonValue → Option UInt8
  | .number literal =>
    let value := literal.toList.foldl (fun value digit => 10 * value + (digit.toNat - 48)) 0
    if value < 256 ∧ literal = toString value then some value.toUInt8 else none
  | _ => none

def toJson : SecretValue → JsonValue
  | .string text => .string text
  | .binary bytes => .array (bytes.map byteToJson)
  | .json value => value

def ofJson : JsonValue → SecretValue
  | .string text => .string text
  | .array items =>
    match items.mapM byteOfJson with
    | some bytes => .binary bytes
    | none => .json (.array items)
  | value => .json value

def Recoverable : SecretValue → Prop
  | .json (.string _) => False
  | .json (.array items) => items.mapM byteOfJson = none
  | _ => True

theorem byteOfJson_byteToJson (byte : UInt8) : byteOfJson (byteToJson byte) = some byte := by
  have all : ∀ n < 256, byteOfJson (.number (toString n)) = some n.toUInt8 := by
    decide +kernel
  rw [byteToJson, all byte.toNat byte.toNat_lt, Nat.toUInt8_eq, UInt8.ofNat_toNat]

theorem mapM_byteOfJson (bytes : Bytes) : (bytes.map byteToJson).mapM byteOfJson = some bytes := by
  rw [List.mapM_map]
  have each : (byteOfJson ∘ byteToJson : UInt8 → Option UInt8) = pure := by
    funext byte
    exact byteOfJson_byteToJson byte
  rw [each, List.mapM_pure]
  simp

theorem ofJson_toJson_iff (value : SecretValue) : ofJson value.toJson = value ↔ value.Recoverable := by
  cases value with
  | string text => exact iff_of_true rfl trivial
  | binary bytes =>
    rw [toJson, ofJson, mapM_byteOfJson]
    exact iff_of_true rfl trivial
  | json value =>
    cases value with
    | string text => exact iff_of_false (fun same => nomatch same) fun recoverable => recoverable
    | array items =>
      rw [toJson, ofJson, Recoverable]
      cases read : items.mapM byteOfJson with
      | some bytes => exact iff_of_false (fun same => nomatch same) fun none => nomatch none
      | none => exact iff_of_true rfl rfl
    | null => exact iff_of_true rfl trivial
    | bool value => exact iff_of_true rfl trivial
    | number literal => exact iff_of_true rfl trivial
    | object entries => exact iff_of_true rfl trivial

end SecretValue

namespace SecretData

def toJson (data : SecretData) : JsonValue :=
  .object [("data", .object (data.data.toList.map fun entry => (entry.1, entry.2.toJson)))]

def fieldsOfJson : JsonValue → Except String SecretData
  | .object entries =>
    .ok ⟨Std.ExtTreeMap.ofList (entries.map fun entry => (entry.1, SecretValue.ofJson entry.2)) compare⟩
  | _ => .error "invalid type, expected a map"

def ofJson : JsonValue → Except String SecretData
  | .object entries =>
    match entries.filter fun entry => entry.1 = "data" with
    | [] => .error "missing field `data`"
    | [(_, value)] => fieldsOfJson value
    | _ => .error "duplicate field `data`"
  | .array [] => .error "invalid length 0, expected struct SecretData with 1 element"
  | .array [value] => fieldsOfJson value
  | .array _ => .error "trailing characters"
  | _ => .error "invalid type, expected struct SecretData"

def Recoverable (data : SecretData) : Prop :=
  ∀ (key : String) value, data.data[key]? = some value → value.Recoverable

theorem ofJson_toJson (data : SecretData) :
    ofJson data.toJson = .ok ⟨data.data.map fun _ value => SecretValue.ofJson value.toJson⟩ := by
  have collected := Dict.ofList_map_toList (fun value => SecretValue.ofJson value.toJson) data.data
  have read : ofJson data.toJson = .ok ⟨Std.ExtTreeMap.ofList ((data.data.toList.map fun entry =>
      (entry.1, entry.2.toJson)).map fun entry => (entry.1, SecretValue.ofJson entry.2)) compare⟩ := rfl
  rw [read, List.map_map]
  exact congrArg (fun dict => Except.ok (SecretData.mk dict)) collected

theorem ofJson_toJson_iff (data : SecretData) :
    ofJson data.toJson = .ok data ↔ data.Recoverable := by
  rw [ofJson_toJson, Except.ok.injEq]
  constructor
  · intro same key value found
    have sameDict := congrArg SecretData.data same
    exact (value.ofJson_toJson_iff).mp (Dict.map_eq_self.mp sameDict key value found)
  · intro recoverable
    have sameDict := Dict.map_eq_self.mpr fun key value found =>
      (SecretValue.ofJson_toJson_iff value).mpr (recoverable key value found)
    exact congrArg SecretData.mk sameDict

end SecretData

end Hsm.Secrets

import Hsm.Blockchain.DerivationPath
import Hsm.Lib.Dict
import Hsm.Lib.Json
import Hsm.Lib.Keccak
import Mathlib.Data.List.Sort

/-! Typed data and their hashes, signatures of them, and the key recovered from one. -/

namespace Hsm.Blockchain

structure Eip712Domain where
  name : Option String
  version : Option String
  chainId : Option UInt64
  verifyingContract : Option String
  salt : Option Bytes
  deriving DecidableEq

structure TypeField where
  name : String
  fieldType : String
  deriving DecidableEq

/-- Typed data: the domain, and what else of it the hash of its message is computed from. -/
structure Eip712TypedData where
  domain : Eip712Domain
  primaryType : String
  types : Dict String (List TypeField)
  message : JsonValue

/-- The signature of a digest, which it carries along. -/
structure Eip712Signature where
  hash : Bytes
  signature : Bytes
  recoveryId : UInt8

/-- Recovery returns a key for which the signature verifies. -/
structure Ecdsa where
  verifyPrehash : Bytes → Bytes → Bytes → Bool
  recoverFromPrehash : Bytes → Bytes → UInt8 → Except String Bytes
  recovered : ∀ {digest signature id key}, recoverFromPrehash digest signature id = .ok key →
    verifyPrehash key digest signature = true

namespace Eip712Domain

variable (domain : Eip712Domain)

def typeHash : Bytes :=
  let parts := [domain.name.map fun _ => "string name",
    domain.version.map fun _ => "string version",
    domain.chainId.map fun _ => "uint256 chainId",
    domain.verifyingContract.map fun _ => "address verifyingContract",
    domain.salt.map fun _ => "bytes32 salt"].filterMap id
  keccak256 (asBytes ("EIP712Domain(" ++ ",".intercalate parts ++ ")"))

/-- An address of another length is encoded as zero. -/
def padAddress (address : Bytes) : Bytes :=
  if address.length = 20 then List.replicate 12 0 ++ address else List.replicate 32 0

def contractBytes (contract : String) : Bytes :=
  match hexDecode ((stripPrefix "0x" contract).getD contract) with
  | .ok address => padAddress address
  | .error _ => padAddress []

def hash : Bytes :=
  let text := fun value => keccak256 (asBytes value)
  keccak256 (domain.typeHash ++ (domain.name.map text).getD [] ++
    (domain.version.map text).getD [] ++
    (domain.chainId.map fun id => List.replicate 24 0 ++ toBeBytes id).getD [] ++
    (domain.verifyingContract.map contractBytes).getD [] ++ domain.salt.getD [])

end Eip712Domain

def invalid {α : Type} (message : String) : Except BlockchainError α :=
  .error (.invalidTypedData message)

def dropArrays : List Char → List Char
  | ']' :: '[' :: rest => dropArrays rest
  | chars => chars

/-- The type of the innermost items. -/
def TypeField.baseType (field : TypeField) : String :=
  .ofList (dropArrays field.fieldType.toList.reverse).reverse

namespace Eip712TypedData

variable (typedData : Eip712TypedData)

/-- Each nested call has found one more type, so their number bounds the nesting. -/
def findDependencies : Nat → String → List String → List String
  | 0, _, deps => deps
  | nesting + 1, typeName, deps =>
    match typedData.types[typeName]? with
    | none => deps
    | some fields => fields.foldl (fun deps field =>
        if typedData.types.contains field.baseType && !deps.contains field.baseType then
          findDependencies nesting field.baseType (deps ++ [field.baseType])
        else deps) deps

def fieldsText (typeName : String) (fields : List TypeField) : String :=
  typeName ++ "(" ++ ",".intercalate (fields.map fun f => f.fieldType ++ " " ++ f.name) ++ ")"

def encodeType (typeName : String) : Except BlockchainError String :=
  match typedData.types[typeName]? with
  | none => invalid ("Unknown type: " ++ typeName)
  | some fields =>
    let found := typedData.findDependencies (typedData.types.size + 1) typeName []
    let deps := (found.insertionSort (· ≤ ·)).filter (· ≠ typeName)
    .ok (String.join (fieldsText typeName fields ::
      deps.map fun dep => (typedData.types[dep]?.map (fieldsText dep)).getD ""))

def typeHash (typeName : String) : Except BlockchainError Bytes := do
  return keccak256 (asBytes (← typedData.encodeType typeName))

end Eip712TypedData

/-- Digits of any case in radixes up to 36; underscores are passed over. -/
def digitValue (c : Char) : Option Nat :=
  if c.isDigit then some (c.toNat - '0'.toNat)
  else if c.isLower then some (c.toNat - 'a'.toNat + 10)
  else if c.isUpper then some (c.toNat - 'A'.toNat + 10)
  else none

def fromStrRadix (radix : Nat) (chars : List Char) : Option Nat :=
  (chars.filter (· ≠ '_')).foldlM (fun value c => do
    let digit ← digitValue c
    if digit < radix ∧ value * radix + digit < 2 ^ 256 then some (value * radix + digit)
    else none) 0

namespace TypedDataHasher

/-- The sign and the magnitude of a number or a text. -/
def parseInt (typeStr : String) : JsonValue → Except BlockchainError (Bool × Nat)
  | .number literal =>
    let inexact := invalid ("Integer value is not an exact integer (pass values above u64::MAX " ++
      "as a decimal or 0x-hex string): " ++ literal)
    match literal.toList with
    | '-' :: digits =>
      match parseU64 (.ofList digits) with
      | some value => if value.toNat ≤ 2 ^ 63 then .ok (value ≠ 0, value.toNat) else inexact
      | none => inexact
    | _ =>
      match parseU64 literal with
      | some value => .ok (false, value.toNat)
      | none => inexact
  | .string text =>
    let s := trim text.toList
    let (negative, body) := match s with
      | '-' :: rest => (true, rest.dropWhile isWhitespace)
      | _ => (false, s)
    let (kind, magnitude) := match body with
      | '0' :: 'x' :: hex | '0' :: 'X' :: hex => ("hexadecimal", fromStrRadix 16 hex)
      | _ => ("decimal", fromStrRadix 10 body)
    match magnitude with
    | some magnitude => .ok (negative, magnitude)
    | none => invalid ("Invalid " ++ kind ++ " integer: " ++ .ofList s)
  | _ => invalid ("Expected integer for type " ++ typeStr)

def encodeInt (value : JsonValue) (typeStr : String) : Except BlockchainError Bytes := do
  let isSigned := (stripPrefix "int" typeStr).isSome
  let width := typeStr.toList.drop (if isSigned then 3 else 4)
  let bits := ((parseU32 (.ofList width)).map UInt32.toNat).getD 256
  if bits = 0 ∨ bits > 256 ∨ bits % 8 ≠ 0 then
    invalid ("Invalid integer type width: " ++ typeStr)
  else
    let (negative, magnitude) ← parseInt typeStr value
    if negative ∧ !isSigned then
      invalid ("Negative value supplied for unsigned type " ++ typeStr)
    else
      let limit := if negative then 2 ^ (bits - 1)
        else if isSigned then 2 ^ (bits - 1) - 1
        else 2 ^ bits - 1
      if magnitude > limit then invalid ("Value out of range for " ++ typeStr)
      else .ok (beBytes 32 (if negative then (2 ^ 256 - magnitude) % 2 ^ 256 else magnitude))

/-- Encode a value as one of a given type. -/
abbrev Encoder := String → Except BlockchainError Bytes

def asStr : JsonValue → Option String
  | .string text => some text
  | _ => none

def hexBytes (value : JsonValue) (default kind : String) : Except BlockchainError Bytes :=
  let text := (asStr value).getD default
  match hexDecode ((stripPrefix "0x" text).getD text) with
  | .ok bytes => .ok bytes
  | .error _ => invalid ("Invalid " ++ kind)

def encodeFixedBytes (value : JsonValue) (typeStr : String) : Except BlockchainError Bytes :=
  match parseU64 (.ofList (typeStr.toList.drop 5)) with
  | none => invalid ("Invalid type: " ++ typeStr)
  | some size => do
    let bytes ← hexBytes value "0x" "bytes"
    let len := min (min bytes.length size.toNat) 32
    return bytes.take len ++ List.replicate (32 - len) 0

/-- Encode a value whose items and whose fields, if any, have encoders of their own. -/
def encodeWith (typedData : Eip712TypedData) (value : JsonValue) (items : Option (List Encoder))
    (hashStruct : Encoder) : Encoder := fun fieldType => do
  match fieldType.toList.reverse with
  | ']' :: '[' :: base =>
    match items with
    | none => invalid "Expected array"
    | some items =>
      let encoded ← items.mapM fun encode => encode (.ofList base.reverse)
      return keccak256 encoded.flatten
  | _ =>
    match fieldType with
    | "string" => return keccak256 (asBytes ((asStr value).getD ""))
    | "bytes" => return keccak256 (← hexBytes value "0x" "bytes")
    | "address" =>
      return Eip712Domain.padAddress
        (← hexBytes value "0x0000000000000000000000000000000000000000" "address")
    | "bool" =>
      let bit : UInt8 := match value with
        | .bool true => 1
        | _ => 0
      return List.replicate 31 0 ++ [bit]
    | _ =>
      if (stripPrefix "uint" fieldType).isSome || (stripPrefix "int" fieldType).isSome then
        encodeInt value fieldType
      else if (stripPrefix "bytes" fieldType).isSome then encodeFixedBytes value fieldType
      else if typedData.types.contains fieldType then hashStruct fieldType
      else invalid ("Unknown type: " ++ fieldType)

/-- The fields of an object, in the order of the type. -/
def encodeData (typedData : Eip712TypedData) (encodeField : Option (TypeField →
    Except BlockchainError Bytes)) (typeName : String) : Except BlockchainError Bytes := do
  match typedData.types[typeName]? with
  | none => invalid ("Unknown type: " ++ typeName)
  | some fields =>
    match encodeField with
    | none => invalid "Data must be an object"
    | some encodeField => return (← fields.mapM encodeField).flatten

def hashStruct (typedData : Eip712TypedData) (encodeField : Option (TypeField →
    Except BlockchainError Bytes)) : Encoder := fun typeName => do
  let typeHash ← typedData.typeHash typeName
  let encoded ← encodeData typedData encodeField typeName
  return keccak256 (typeHash ++ encoded)

def encodeNull (typedData : Eip712TypedData) : Encoder :=
  encodeWith typedData .null none (hashStruct typedData none)

/-- A field that an object lacks is encoded as null. -/
def encodeField (typedData : Eip712TypedData) (members : List (String × Encoder))
    (field : TypeField) : Except BlockchainError Bytes :=
  (members.lookup field.name).getD (encodeNull typedData) field.fieldType

mutual

def encodeValue (typedData : Eip712TypedData) : JsonValue → Encoder
  | .array items => encodeWith typedData (.array items) (some (encodeItems typedData items))
      (hashStruct typedData none)
  | .object entries => encodeWith typedData (.object entries) none
      (hashStruct typedData (some (encodeField typedData (encodeMembers typedData entries))))
  | value => encodeWith typedData value none (hashStruct typedData none)

def encodeItems (typedData : Eip712TypedData) : List JsonValue → List Encoder
  | [] => []
  | item :: rest => encodeValue typedData item :: encodeItems typedData rest

def encodeMembers (typedData : Eip712TypedData) :
    List (String × JsonValue) → List (String × Encoder)
  | [] => []
  | (key, value) :: rest => (key, encodeValue typedData value) :: encodeMembers typedData rest

end

def hash (typedData : Eip712TypedData) : Except BlockchainError Bytes := do
  let encodeField := match typedData.message with
    | .object entries => some (encodeField typedData (encodeMembers typedData entries))
    | _ => none
  let structHash ← hashStruct typedData encodeField typedData.primaryType
  return keccak256 ([0x19, 0x01] ++ typedData.domain.hash ++ structHash)

variable (ecdsa : Ecdsa)

def verify (typedData : Eip712TypedData) (signature publicKey : Bytes) :
    Except BlockchainError Bool := do
  let hash ← hash typedData
  return ecdsa.verifyPrehash publicKey hash signature

/-- Recover the key from the digest the signature carries, whatever the typed data are. -/
def recoverPublicKey (_typedData : Eip712TypedData) (sig : Eip712Signature) :
    Except BlockchainError Bytes :=
  (ecdsa.recoverFromPrehash sig.hash sig.signature sig.recoveryId).mapError .cryptoError

variable {ecdsa}

theorem recoverPublicKey_verifies {typedData : Eip712TypedData} {sig : Eip712Signature}
    {publicKey : Bytes} (isRecovered : recoverPublicKey ecdsa typedData sig = .ok publicKey) :
    ecdsa.verifyPrehash publicKey sig.hash sig.signature = true := by
  rw [recoverPublicKey] at isRecovered
  cases recovery : ecdsa.recoverFromPrehash sig.hash sig.signature sig.recoveryId with
  | error failure =>
    rw [recovery] at isRecovered
    cases isRecovered
  | ok key =>
    rw [recovery] at isRecovered
    cases isRecovered
    exact ecdsa.recovered recovery

/-- The recovered key verifies the signature for the typed data that hash to its digest. -/
theorem recovery_agrees_iff {typedData : Eip712TypedData} {sig : Eip712Signature}
    {publicKey : Bytes} (isRecovered : recoverPublicKey ecdsa typedData sig = .ok publicKey)
    (binding : ∀ digest, hash typedData = .ok digest →
      ecdsa.verifyPrehash publicKey sig.hash sig.signature = true →
      ecdsa.verifyPrehash publicKey digest sig.signature = true → digest = sig.hash) :
    verify ecdsa typedData sig.signature publicKey = .ok true ↔
      hash typedData = .ok sig.hash := by
  have valid := recoverPublicKey_verifies isRecovered
  rw [verify]
  cases hashed : hash typedData with
  | error failure => simp [bind, Except.bind]
  | ok digest =>
    simp only [bind, Except.bind, pure, Except.pure, Except.ok.injEq]
    constructor
    · exact binding digest hashed valid
    · rintro rfl
      exact valid

end TypedDataHasher

namespace Known

/-- A transfer on one of several chains. -/
def onChain (chainId : UInt64) : Eip712TypedData where
  domain := ⟨"Vault", none, chainId, none, none⟩
  primaryType := "Transfer"
  types := (∅ : Dict String (List TypeField)).insert "Transfer" [⟨"amount", "uint256"⟩]
  message := .object [("amount", .number "5")]

def digest : Bytes :=
  beBytes 32 0x755452b9523bd17e960ba45e1bdb028ea44dbe1d5c73f53bf2511136f8af2c3c

/-- The public key of the secret of 32 bytes one. -/
def publicKey : Bytes :=
  beBytes 33 0x031b84c5567b126440995d3ed5aaba0565d71e1834604819ff9c17f5e9d5dd078f

/-- The signature of the digest on the first chain, with its recovery id. -/
def signature : Eip712Signature where
  hash := digest
  signature :=
    beBytes 32 0x639db873f68f4759d7a71d407b39db1c50a41e89514d29b54ca1cd8362197201 ++
    beBytes 32 0x0c1fdb00af9fc542a3f2e1f8d77f6e15a63c82618e1f582f96dd33b9747d0112
  recoveryId := 1

/-- A curve that knows of one signature. -/
def ecdsa : Ecdsa where
  verifyPrehash key hash signed :=
    key = publicKey ∧ hash = digest ∧ signed = signature.signature
  recoverFromPrehash hash signed id :=
    if hash = digest ∧ signed = signature.signature ∧ id = 1 then .ok publicKey
    else .error "signature error"
  recovered := by
    intro hash signed id key isRecovered
    split at isRecovered
    · rename_i known
      cases isRecovered
      simp [known]
    · cases isRecovered

theorem onChain_hash : TypedDataHasher.hash (onChain 1) = .ok digest := by decide +kernel

def otherDigest : Bytes :=
  beBytes 32 0x42b96749d02820ac0c131c6e69939058505827220729c2288c14a39ca0fe681b

theorem onChain_hash_other : TypedDataHasher.hash (onChain 5) = .ok otherDigest := by
  decide +kernel

end Known

open TypedDataHasher

theorem recovery_ignores_typed_data :
    recoverPublicKey Known.ecdsa (Known.onChain 5) Known.signature = .ok Known.publicKey ∧
      verify Known.ecdsa (Known.onChain 5) Known.signature.signature Known.publicKey =
        .ok false := by
  refine ⟨by decide, ?_⟩
  rw [verify, Known.onChain_hash_other]
  decide

theorem recovery_agrees_on_signed_data :
    verify Known.ecdsa (Known.onChain 1) Known.signature.signature Known.publicKey =
      .ok true := by
  have isRecovered : recoverPublicKey Known.ecdsa (Known.onChain 1) Known.signature =
      .ok Known.publicKey := by decide
  refine (recovery_agrees_iff isRecovered fun other hashed _ verifies => ?_).mpr Known.onChain_hash
  exact (of_decide_eq_true verifies).2.1

end Hsm.Blockchain

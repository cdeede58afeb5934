import Hsm.Lib.Bytes
import Hsm.Lib.Clock

/-! Keys with their lifecycle state and usage policy. -/

namespace Hsm.KeyManager

abbrev KeyId := Nat

inductive KeyType where
  | rsa2048
  | rsa3072
  | rsa4096
  | ecdsaP256
  | ecdsaP384
  | ecdsaP521
  | secp256k1
  | bls12381
  | ed25519
  | ed448
  | aes128
  | aes256
  | hdMaster
  | hdDerived
  deriving DecidableEq

inductive KeyState where
  | pending
  | active
  | deactivated
  | compromised
  | destroyed
  deriving DecidableEq

structure KeyUsagePolicy where
  canSign : Bool := true
  canEncrypt : Bool := true
  canDerive : Bool := false
  canExport : Bool := false
  maxOperations : Option UInt64 := none
  expiresAt : Option Instant := none
  deriving DecidableEq

structure Key where
  id : KeyId
  keyType : KeyType
  privateMaterial : Option Bytes
  publicMaterial : Option Bytes
  state : KeyState
  «namespace» : String
  createdAt : Instant
  policy : KeyUsagePolicy
  version : UInt32
  previousVersion : Option KeyId
  operationCount : UInt64
  deriving DecidableEq

/-- Why a call on keys fails. -/
inductive Error where
  | keyNotFound (keyId : KeyId)
  | keyAlreadyExists (keyId : KeyId)
  | namespaceViolation (expected actual : String)
  | keyNotUsable (keyId : KeyId)
  | maxOperationsReached (keyId : KeyId)
  | keyGenerationFailed (reason : String)
  | unsupportedKeyType (keyType : KeyType)
  | storageError (reason : String)
  deriving DecidableEq

namespace Key

def isExpired (key : Key) (now : Instant) : Bool :=
  match key.policy.expiresAt with
  | some expiresAt => now > expiresAt
  | none => false

def canUse (key : Key) (now : Instant) : Bool := key.state = .active ∧ ¬ key.isExpired now

def incrementOperations (key : Key) : Key := { key with operationCount := key.operationCount + 1 }

def hasReachedMaxOperations (key : Key) : Bool :=
  match key.policy.maxOperations with
  | some max => key.operationCount ≥ max
  | none => false

end Key

end Hsm.KeyManager

import Hsm.KeyManager.Manager
import Hsm.Lib.Aead

/-! The handlers of cryptographic requests: validation, the key, the operation and its count. -/

namespace Hsm.Grpc

open KeyManager (Key KeyId KeyType KeyUsagePolicy CompositeKey Vault)

inductive Code where
  | invalidArgument
  | failedPrecondition
  | notFound
  | permissionDenied
  | resourceExhausted
  | unavailable
  | internal
  deriving DecidableEq

structure Status where
  code : Code
  message : String
  deriving DecidableEq

/-- The libraries that handlers use. -/
structure Engine where
  parseKeyId : Bytes → Except String KeyId
  isAlphanumeric : Char → Bool
  sign : KeyType → Bytes → Bytes → Option Bytes
  verify : KeyType → Bytes → Bytes → Bytes → Bool
  encrypt : ByteVec 32 → ByteVec 12 → Bytes → Bytes → Option Bytes
  decrypt : ByteVec 32 → ByteVec 12 → Bytes → Bytes → Option Bytes

/-- The time, a nonce, and the circuit breaker. -/
structure Ambient where
  now : Instant
  nonce : ByteVec 12
  refused : Option Status := none

def maxMessageSize : Nat := 10 * 1024 * 1024

def invalid (message : String) : Except Status Unit := .error ⟨.invalidArgument, message⟩

def validateKeyId (keyId : Bytes) : Except Status Unit :=
  if keyId.isEmpty then invalid "key_id is required"
  else if keyId.length > 256 then
    invalid ("key_id too large: " ++ toString keyId.length ++ " > 256")
  else .ok ()

variable (engine : Engine)

def validateNamespace (space : String) : Except Status Unit :=
  if space.isEmpty then invalid "namespace is required"
  else if space.utf8ByteSize > 256 then
    invalid ("namespace too large: " ++ toString space.utf8ByteSize ++ " > 256")
  else if ¬ space.toList.all fun c => engine.isAlphanumeric c || c == '-' || c == '_' then
    invalid "namespace must be alphanumeric with hyphens/underscores only"
  else .ok ()

def validateDataSize (data : Bytes) (operation : String) : Except Status Unit :=
  if data.isEmpty then invalid (operation ++ " data is required")
  else if data.length > maxMessageSize then
    invalid (operation ++ " data too large: " ++ toString data.length ++ " > 10485760")
  else .ok ()

def validateAlgorithm (algorithm : String) : Except Status Unit :=
  if algorithm.isEmpty then invalid "algorithm is required"
  else if algorithm.utf8ByteSize > 64 then
    invalid ("algorithm name too large: " ++ toString algorithm.utf8ByteSize ++ " > 64")
  else .ok ()

def validateSignatureSize (signature : Bytes) : Except Status Unit :=
  if signature.isEmpty then invalid "signature is required"
  else if signature.length > maxMessageSize then
    invalid ("signature too large: " ++ toString signature.length ++ " > 10485760")
  else .ok ()

inductive Request where
  | sign (keyId : Bytes) (space : String) (data : Bytes) (algorithm : String)
  | verify (keyId : Bytes) (space : String) (data signature : Bytes)
  | encrypt (keyId : Bytes) (space : String) (plaintext associatedData : Bytes)
  | decrypt (keyId : Bytes) (space : String) (ciphertext nonce associatedData : Bytes)
  deriving DecidableEq

inductive Response where
  | signature (signature : Bytes) (algorithm : String)
  | validity (valid : Bool)
  | ciphertext (ciphertext nonce : Bytes)
  | plaintext (plaintext : Bytes)
  deriving DecidableEq

def keyManagerStatus : KeyManager.Error → Status
  | .keyNotFound _ => ⟨.notFound, "Key not found"⟩
  | .unsupportedKeyType _ => ⟨.invalidArgument, "Invalid key type"⟩
  | .maxOperationsReached _ => ⟨.permissionDenied, "Operation not permitted"⟩
  | _ => ⟨.internal, "Key management operation failed"⟩

def cryptoStatus : Status := ⟨.internal, "Cryptographic operation failed"⟩

def signWithKey (keyType : KeyType) (privateKey data : Bytes) :
    Option (Bytes × String) :=
  match keyType with
  | .ed25519 => (engine.sign keyType privateKey data).map (·, "ED25519")
  | .ecdsaP256 => (engine.sign keyType privateKey data).map (·, "ECDSA_P256")
  | .ecdsaP384 => (engine.sign keyType privateKey data).map (·, "ECDSA_P384")
  | .rsa2048 | .rsa3072 | .rsa4096 => (engine.sign keyType privateKey data).map (·, "RSA_PKCS1_V15")
  | _ => none

def verifyWithKey (keyType : KeyType) (publicKey data signature : Bytes) : Bool :=
  match keyType with
  | .ed25519 | .ecdsaP256 | .ecdsaP384 | .rsa2048 | .rsa3072 | .rsa4096 =>
    engine.verify keyType publicKey data signature
  | _ => false

def deriveAesKey (keyType : KeyType) (keyMaterial : Bytes) : Bytes :=
  match keyType with
  | .aes256 | .aes128 => keyMaterial
  | _ =>
    if keyMaterial.length ≥ 32 then keyMaterial.take 32
    else keyMaterial ++ List.replicate (32 - keyMaterial.length) 0

def encryptAes256 (nonce : ByteVec 12) (key plaintext aad : Bytes) :
    Option Bytes :=
  if sized : key.length = 32 then
    if plaintext.length > 64 * 1024 * 1024 then none
    else (engine.encrypt ⟨key, sized⟩ nonce aad plaintext).map (nonce.val ++ ·)
  else none

def decryptAes256 (key ciphertextWithNonce aad : Bytes) : Option Bytes :=
  if sized : key.length = 32 then
    if enough : 12 + 16 ≤ ciphertextWithNonce.length then
      engine.decrypt ⟨key, sized⟩ ⟨ciphertextWithNonce.take 12, by rw [List.length_take]; omega⟩ aad
        (ciphertextWithNonce.drop 12)
    else none
  else none

namespace Request

def keyId : Request → Bytes
  | .sign keyId _ _ _ | .verify keyId _ _ _ | .encrypt keyId _ _ _ | .decrypt keyId _ _ _ _ => keyId

def space : Request → String
  | .sign _ space _ _ | .verify _ space _ _ | .encrypt _ space _ _ | .decrypt _ space _ _ _ => space

def validateInputs : Request → Except Status Unit
  | .sign _ _ data algorithm => do
    validateDataSize data "sign"
    if algorithm.isEmpty then .ok () else validateAlgorithm algorithm
  | .verify _ _ data signature => do
    validateDataSize data "verify"
    validateSignatureSize signature
  | .encrypt _ _ plaintext _ => validateDataSize plaintext "plaintext"
  | .decrypt _ _ ciphertext nonce _ => do
    validateDataSize ciphertext "ciphertext"
    if nonce.isEmpty then invalid "nonce is required for decryption" else .ok ()

variable (engine : Engine)

def validate (request : Request) : Except Status KeyId := do
  validateKeyId request.keyId
  validateNamespace engine request.space
  request.validateInputs
  (engine.parseKeyId request.keyId).mapError fun reason => ⟨.invalidArgument, reason⟩

def counted : Request → Bool
  | .sign _ _ _ _ | .encrypt _ _ _ _ | .decrypt _ _ _ _ _ => true
  | .verify _ _ _ _ => false

def operate (ambient : Ambient) (key : Key) : Request → Except Status Response
  | .sign _ _ data _ =>
    match key.privateMaterial with
    | none => .error ⟨.failedPrecondition, "Key has no private material for signing"⟩
    | some privateKey =>
      match signWithKey engine key.keyType privateKey data with
      | none => .error cryptoStatus
      | some (signature, algorithm) => .ok (.signature signature algorithm)
  | .verify _ _ data signature =>
    match key.publicMaterial with
    | none => .error ⟨.failedPrecondition, "Key has no public material for verification"⟩
    | some publicKey => .ok (.validity (verifyWithKey engine key.keyType publicKey data signature))
  | .encrypt _ _ plaintext associatedData =>
    match key.privateMaterial with
    | none => .error ⟨.failedPrecondition, "Key has no material for encryption"⟩
    | some material =>
      match encryptAes256 engine ambient.nonce (deriveAesKey key.keyType material) plaintext
        associatedData with
      | none => .error cryptoStatus
      | some combined => .ok (.ciphertext (combined.drop 12) (combined.take 12))
  | .decrypt _ _ ciphertext nonce associatedData =>
    match key.privateMaterial with
    | none => .error ⟨.failedPrecondition, "Key has no material for decryption"⟩
    | some material =>
      match decryptAes256 engine (deriveAesKey key.keyType material) (nonce ++ ciphertext)
        associatedData with
      | none => .error cryptoStatus
      | some plaintext => .ok (.plaintext plaintext)

def charge (keyId : KeyId) (request : Request) (response : Response) :
    Script Vault (Except Status Response) := do
  let _ ← Vault.incrementOperations request.space keyId
  return .ok response

def withKey (ambient : Ambient) (keyId : KeyId) (request : Request) :
    Except KeyManager.Error Key → Script Vault (Except Status Response)
  | .error failure => return .error (keyManagerStatus failure)
  | .ok key =>
    match request.operate engine ambient key with
    | .error status => return .error status
    | .ok response => if request.counted then charge keyId request response else return .ok response

def handle (ambient : Ambient) (request : Request) :
    Script Vault (Except Status Response) :=
  match request.validate engine with
  | .error status => return .error status
  | .ok keyId =>
    match ambient.refused with
    | some status => return .error status
    | none => do
      let answer ← Vault.getKey ambient.now request.space keyId
      request.withKey engine ambient keyId answer

def target (request : Request) : Option CompositeKey :=
  match engine.parseKeyId request.keyId with
  | .ok keyId => some (request.space, keyId)
  | .error _ => none

def permitted (policy : KeyUsagePolicy) : Request → Bool
  | .sign _ _ _ _ => policy.canSign
  | .encrypt _ _ _ _ | .decrypt _ _ _ _ _ => policy.canEncrypt
  | .verify _ _ _ _ => true

end Request

end Hsm.Grpc

import Hsm.Lib.Aead
import Hsm.Lib.Threads
import Hsm.Secrets.Secret

/-! The stores of secrets, in memory and encrypted: the same calls, with data kept in another form. -/

namespace Hsm.Secrets

instance : Ord (SecretId × UInt32) := lexOrd

structure SecretStore (ν : Type) where
  secrets : Dict SecretPath Secret
  data : Dict (SecretId × UInt32) ν

/-- The time, a new identifier and random bytes. -/
structure Draws where
  now : Instant
  id : SecretId
  nonce : ByteVec 12

/-- The form in which a store keeps data. -/
structure Encoding (ν : Type) where
  encode : ByteVec 12 → SecretData → Except SecretError ν
  decode : ν → Except SecretError SecretData

namespace SecretStore

variable {ν : Type}

def empty : SecretStore ν := ⟨∅, ∅⟩

def removeVersions (secret : Secret) (data : Dict (SecretId × UInt32) ν) :
    Dict (SecretId × UInt32) ν :=
  (List.range secret.currentVersion.toNat).foldl
    (fun data past => data.erase (secret.id, (past + 1).toUInt32)) data

def readVersion (encoding : Encoding ν) (store : SecretStore ν) (secret : Secret) (version : UInt32) :
    Except SecretError (Secret × SecretData) :=
  match store.data[(secret.id, version)]? with
  | none => .error (.versionNotFound version)
  | some encoded => do
    let data ← encoding.decode encoded
    return (secret, data)

variable (encoding : Encoding ν)

variable (draws : Draws)

def create (path : SecretPath) (data : SecretData) (metadata : SecretMetadata) :
    Script (SecretStore ν) (Except SecretError Secret) :=
  .atomically fun store =>
    if store.secrets.contains path then (.error (.alreadyExists path), store)
    else
      match encoding.encode draws.nonce data with
      | .error failure => (.error failure, store)
      | .ok encoded =>
        let secret : Secret := ⟨draws.id, path, 1, metadata, draws.now, draws.now⟩
        (.ok secret, ⟨store.secrets.insert path secret, store.data.insert (secret.id, 1) encoded⟩)

variable (path : SecretPath)

def get :
    Script (SecretStore ν) (Except SecretError (Secret × SecretData)) :=
  .atomically fun store =>
    match store.secrets[path]? with
    | none => (.error (.notFound path), store)
    | some secret => (store.readVersion encoding secret secret.currentVersion, store)

def getVersion (version : UInt32) :
    Script (SecretStore ν) (Except SecretError (Secret × SecretData)) :=
  .atomically fun store =>
    match store.secrets[path]? with
    | none => (.error (.notFound path), store)
    | some secret =>
      if version > secret.currentVersion ∨ version = 0 then (.error (.versionNotFound version), store)
      else (store.readVersion encoding secret version, store)

def bumpVersion (path : SecretPath) (data : SecretData) :
    Script (SecretStore ν) (Except SecretError (Secret × ν)) :=
  .atomically fun store =>
    match store.secrets[path]? with
    | none => (.error (.notFound path), store)
    | some secret =>
      match encoding.encode draws.nonce data with
      | .error failure => (.error failure, store)
      | .ok encoded =>
        let bumped :=
          { secret with currentVersion := secret.currentVersion + 1, updatedAt := draws.now }
        (.ok (bumped, encoded), { store with secrets := store.secrets.insert path bumped })

def insertVersion (secret : Secret) (encoded : ν) : Script (SecretStore ν) Unit :=
  .atomically fun store =>
    ((), { store with data := store.data.insert (secret.id, secret.currentVersion) encoded })

def update (path : SecretPath) (data : SecretData) :
    Script (SecretStore ν) (Except SecretError Secret) := do
  match ← bumpVersion encoding draws path data with
  | .error failure => return .error failure
  | .ok (secret, encoded) =>
    insertVersion secret encoded
    return .ok secret

def removeSecret : Script (SecretStore ν) (Except SecretError Secret) :=
  .atomically fun store =>
    match store.secrets[path]? with
    | none => (.error (.notFound path), store)
    | some secret => (.ok secret, { store with secrets := store.secrets.erase path })

def dropVersions (secret : Secret) : Script (SecretStore ν) Unit :=
  .atomically fun store => ((), { store with data := removeVersions secret store.data })

def delete : Script (SecretStore ν) (Except SecretError Unit) := do
  match ← removeSecret path with
  | .error failure => return .error failure
  | .ok secret =>
    dropVersions secret
    return .ok ()

def destroyVersion (version : UInt32) :
    Script (SecretStore ν) (Except SecretError Unit) :=
  .atomically fun store =>
    match store.secrets[path]? with
    | none => (.error (.notFound path), store)
    | some secret =>
      if version > secret.currentVersion ∨ version = 0 then (.error (.versionNotFound version), store)
      else if version = secret.currentVersion then
        (.error (.invalidPath "Cannot destroy the current version"), store)
      else
        match store.data[(secret.id, version)]? with
        | none => (.error (.versionNotFound version), store)
        | some _ => (.ok (), { store with data := store.data.erase (secret.id, version) })

def list (lead : SecretPath) : Script (SecretStore ν) (List SecretPath) :=
  .atomically fun store =>
    (store.secrets.keys.filter fun path => lead.toList.isPrefixOf path.toList, store)

def getMetadata : Script (SecretStore ν) (Except SecretError SecretMetadata) :=
  .atomically fun store =>
    match store.secrets[path]? with
    | none => (.error (.notFound path), store)
    | some secret => (.ok secret.metadata, store)

def updateMetadata (path : SecretPath) (metadata : SecretMetadata) :
    Script (SecretStore ν) (Except SecretError Unit) :=
  .atomically fun store =>
    match store.secrets[path]? with
    | none => (.error (.notFound path), store)
    | some secret =>
      let changed := { secret with metadata := metadata, updatedAt := draws.now }
      (.ok (), { store with secrets := store.secrets.insert path changed })

def «exists» : Script (SecretStore ν) Bool :=
  .atomically fun store => (store.secrets.contains path, store)

def versionCount : Script (SecretStore ν) (Except SecretError UInt32) :=
  .atomically fun store =>
    match store.secrets[path]? with
    | none => (.error (.notFound path), store)
    | some secret => (.ok secret.currentVersion, store)

end SecretStore

inductive SecretCall where
  | create (draws : Draws) (path : SecretPath) (data : SecretData) (metadata : SecretMetadata)
  | get (path : SecretPath)
  | getVersion (path : SecretPath) (version : UInt32)
  | update (draws : Draws) (path : SecretPath) (data : SecretData)
  | delete (path : SecretPath)
  | destroyVersion (path : SecretPath) (version : UInt32)
  | list (lead : SecretPath)
  | getMetadata (path : SecretPath)
  | updateMetadata (draws : Draws) (path : SecretPath) (metadata : SecretMetadata)
  | exists (path : SecretPath)
  | versionCount (path : SecretPath)

inductive SecretReply where
  | written (result : Except SecretError Secret)
  | read (result : Except SecretError (Secret × SecretData))
  | changed (result : Except SecretError Unit)
  | listed (paths : List SecretPath)
  | metadata (result : Except SecretError SecretMetadata)
  | found (answer : Bool)
  | counted (result : Except SecretError UInt32)

def SecretCall.program {ν : Type} (encoding : Encoding ν) :
    SecretCall → Script (SecretStore ν) SecretReply
  | .create draws path data metadata => do
    return .written (← SecretStore.create encoding draws path data metadata)
  | .get path => do return .read (← SecretStore.get encoding path)
  | .getVersion path version => do return .read (← SecretStore.getVersion encoding path version)
  | .update draws path data => do return .written (← SecretStore.update encoding draws path data)
  | .delete path => do return .changed (← SecretStore.delete path)
  | .destroyVersion path version => do return .changed (← SecretStore.destroyVersion path version)
  | .list lead => do return .listed (← SecretStore.list lead)
  | .getMetadata path => do return .metadata (← SecretStore.getMetadata path)
  | .updateMetadata draws path metadata => do
    return .changed (← SecretStore.updateMetadata draws path metadata)
  | .exists path => do return .found (← SecretStore.exists path)
  | .versionCount path => do return .counted (← SecretStore.versionCount path)

def SecretStore.serve {ν : Type} (encoding : Encoding ν) (store : SecretStore ν) (call : SecretCall) :
    SecretStore ν × List SecretReply :=
  let (reply, after) := (call.program encoding).runAlone store
  (after, [reply])

def InMemorySecretStore.encoding : Encoding SecretData where
  encode _ data := .ok data
  decode data := .ok data

/-- JSON text, as the library prints and parses it. -/
structure SerdeJson where
  toVec : JsonValue → Bytes
  fromSlice : Bytes → Except String JsonValue

def SerdeJson.Parses (serde : SerdeJson) (value : JsonValue) : Prop :=
  serde.fromSlice (serde.toVec value) = .ok value

namespace AesGcmEngine

def maxPlaintextSize : Nat := 64 * 1024 * 1024

def encryptAes256 (aead : Aead) (key : ByteVec 32) (nonce : ByteVec 12) (plaintext : Bytes) :
    Except String Bytes :=
  if plaintext.length > maxPlaintextSize then
    .error ("Plaintext too large: " ++ toString plaintext.length ++ " bytes")
  else
    match aead.encrypt key nonce plaintext with
    | some ciphertext => .ok (nonce.val ++ ciphertext)
    | none => .error "Encryption failed: aead::Error"

def decryptAes256 (aead : Aead) (key : ByteVec 32) (ciphertextWithNonce : Bytes) :
    Except String Bytes :=
  if enough : 12 + 16 ≤ ciphertextWithNonce.length then
    let nonce : ByteVec 12 := ⟨ciphertextWithNonce.take 12, by rw [List.length_take]; omega⟩
    match aead.decrypt key nonce (ciphertextWithNonce.drop 12) with
    | some plaintext => .ok plaintext
    | none => .error "Decryption failed: aead::Error"
  else
    .error ("Ciphertext too small: expected at least 28, got " ++
      toString ciphertextWithNonce.length)

theorem decrypt_encrypt {aead : Aead} (lawful : aead.Lawful) {key : ByteVec 32} {nonce : ByteVec 12}
    {plaintext encrypted : Bytes} (given : encryptAes256 aead key nonce plaintext = .ok encrypted) :
    decryptAes256 aead key encrypted = .ok plaintext := by
  unfold encryptAes256 at given
  split at given
  · cases given
  · split at given
    · rename_i ciphertext sealed
      cases given
      have tagged := lawful.tagged sealed
      have size := nonce.property
      have enough : 12 + 16 ≤ (nonce.val ++ ciphertext).length := by
        rw [List.length_append]
        omega
      have front : (nonce.val ++ ciphertext).take 12 = nonce.val := List.take_left' size
      have back : (nonce.val ++ ciphertext).drop 12 = ciphertext := List.drop_left' size
      unfold decryptAes256
      rw [dif_pos enough]
      simp only [front, back]
      show (match aead.decrypt key nonce ciphertext with
        | some plaintext => Except.ok plaintext
        | none => .error "Decryption failed: aead::Error") = _
      rw [lawful.decrypts sealed]
    · cases given

end AesGcmEngine

namespace EncryptedSecretStore

variable (aead : Aead) (serde : SerdeJson) (encryptionKey : ByteVec 32)

def encryptData (nonce : ByteVec 12) (data : SecretData) : Except SecretError Bytes :=
  match AesGcmEngine.encryptAes256 aead encryptionKey nonce (serde.toVec data.toJson) with
  | .ok encrypted => .ok encrypted
  | .error cause => .error (.encryption ("Encryption failed: " ++ cause))

def decryptData (encrypted : Bytes) : Except SecretError SecretData :=
  match AesGcmEngine.decryptAes256 aead encryptionKey encrypted with
  | .error cause => .error (.decryption ("Decryption failed: " ++ cause))
  | .ok decrypted =>
    match serde.fromSlice decrypted >>= SecretData.ofJson with
    | .error cause => .error (.decryption ("Deserialization failed: " ++ cause))
    | .ok data => .ok data

/-- Data is encrypted before storing. -/
def encoding : Encoding Bytes where
  encode := encryptData aead serde encryptionKey
  decode := decryptData aead serde encryptionKey

end EncryptedSecretStore

end Hsm.Secrets

import Hsm.Backup.Incremental
import Hsm.Lib.Aead

/-! Backups encrypted under a password, and what of an imported backup the encryption vouches for. -/

namespace Hsm.Backup

/-- Argon2 with the default parameters. -/
structure Argon2 where
  hashPasswordInto : Bytes → Bytes → Except String (ByteVec 32)
  hashPassword : Bytes → String → Except String String
  parseHash : String → Except String Unit
  verifyPassword : Bytes → String → Bool

def deriveAesKey (argon2 : Argon2) (password salt : Bytes) : Except BackupError (ByteVec 32) :=
  (argon2.hashPasswordInto password salt).mapError .keyDerivation

structure EncryptedBackup where
  version : UInt32
  verifierHash : String
  kdfSalt : Bytes
  nonce : Bytes
  encryptedData : Bytes
  timestamp : Int
  «namespace» : Option String
  metadata : Dict String String

structure ExportDraws where
  kdfSalt : ByteVec 16
  verifierSalt : String
  nonce : ByteVec 12
  now : Int

def exportMetadata : Dict String String :=
  ((∅ : Dict String String).insert "key_count" "1").insert "algorithm" "AES-256-GCM"

def exportKeys (argon2 : Argon2) (aead : Aead) (draws : ExportDraws) (keys password : Bytes)
    (space : Option String) : Except BackupError EncryptedBackup := do
  if keys.isEmpty then
    throw .emptyData
  if password.length < 16 then
    throw .weakPassword
  let encryptionKey ← deriveAesKey argon2 password draws.kdfSalt.val
  let verifierHash ← (argon2.hashPassword password draws.verifierSalt).mapError .keyDerivation
  match aead.encrypt encryptionKey draws.nonce keys with
  | none => throw (.encryption "aead::Error")
  | some encryptedData =>
    if draws.now < 0 then
      throw (.invalidFormat "second time provided was later than self")
    return {
      version := 1
      verifierHash
      kdfSalt := draws.kdfSalt.val
      nonce := draws.nonce.val
      encryptedData
      timestamp := draws.now
      «namespace» := space
      metadata := exportMetadata }

structure ImportedKeys where
  data : Bytes
  «namespace» : Option String
  timestamp : Int
  keyCount : Nat
  deriving DecidableEq

def keyCount (metadata : Dict String String) : Nat :=
  ((metadata["key_count"]?.bind parseU64).map UInt64.toNat).getD 1

def importKeys (argon2 : Argon2) (aead : Aead) (backup : EncryptedBackup) (password : Bytes) :
    Except BackupError ImportedKeys := do
  if backup.version ≠ 1 then
    throw (.unsupportedVersion backup.version)
  (argon2.parseHash backup.verifierHash).mapError .invalidFormat
  if argon2.verifyPassword password backup.verifierHash = false then
    throw .invalidPassword
  let encryptionKey ← deriveAesKey argon2 password backup.kdfSalt
  if sized : backup.nonce.length = 12 then
    match aead.decrypt encryptionKey ⟨backup.nonce, sized⟩ backup.encryptedData with
    | none => throw (.decryption "aead::Error")
    | some data => return ⟨data, backup.namespace, backup.timestamp, keyCount backup.metadata⟩
  else throw (.invalidFormat "Invalid nonce size")

structure Export (argon2 : Argon2) (aead : Aead) where
  draws : ExportDraws
  keys : Bytes
  password : Bytes
  space : Option String
  backup : EncryptedBackup
  exported : exportKeys argon2 aead draws keys password space = .ok backup

variable {argon2 : Argon2} {aead : Aead}

def Export.contents (export_ : Export argon2 aead) : ImportedKeys where
  data := export_.keys
  «namespace» := export_.space
  timestamp := export_.draws.now
  keyCount := keyCount exportMetadata

def SamePayload (backup exported : EncryptedBackup) : Prop :=
  exported.kdfSalt = backup.kdfSalt ∧ exported.nonce = backup.nonce ∧
    exported.encryptedData = backup.encryptedData

/-- What decrypts under the password was encrypted by an export under it. -/
def Unforged (exports : List (Export argon2 aead)) (password : Bytes) (backup : EncryptedBackup) :
    Prop :=
  ∀ key nonce plaintext, argon2.hashPasswordInto password backup.kdfSalt = .ok key →
    backup.nonce = nonce.val → aead.decrypt key nonce backup.encryptedData = some plaintext →
      ∃ export_ ∈ exports, argon2.hashPasswordInto export_.password export_.backup.kdfSalt = .ok key ∧
        export_.backup.nonce = backup.nonce ∧ export_.backup.encryptedData = backup.encryptedData

/-- No other password or salt gives the backup's key. -/
def CollisionFree (exports : List (Export argon2 aead)) (password : Bytes)
    (backup : EncryptedBackup) : Prop :=
  ∀ export_ ∈ exports, ∀ key, argon2.hashPasswordInto password backup.kdfSalt = .ok key →
    argon2.hashPasswordInto export_.password export_.backup.kdfSalt = .ok key →
      export_.password = password ∧ export_.backup.kdfSalt = backup.kdfSalt

def FieldsKept (exports : List (Export argon2 aead)) (password : Bytes)
    (backup : EncryptedBackup) : Prop :=
  (∀ text ∈ backup.metadata["key_count"]?, ∀ count ∈ parseU64 text, count = 1) ∧
    ∃ export_ ∈ exports, export_.password = password ∧ export_.space = backup.namespace ∧
      export_.draws.now = backup.timestamp ∧
      ∃ payload ∈ exports, payload.password = password ∧ SamePayload backup payload.backup ∧
        payload.keys = export_.keys

theorem Export.inversion (export_ : Export argon2 aead) :
    ∃ key encryptedData, argon2.hashPasswordInto export_.password export_.draws.kdfSalt.val = .ok key ∧
      aead.encrypt key export_.draws.nonce export_.keys = some encryptedData ∧
      export_.backup.kdfSalt = export_.draws.kdfSalt.val ∧
      export_.backup.nonce = export_.draws.nonce.val ∧
      export_.backup.encryptedData = encryptedData := by
  obtain ⟨draws, keys, password, space, backup, exported⟩ := export_
  unfold exportKeys deriveAesKey at exported
  cases derived : argon2.hashPasswordInto password draws.kdfSalt.val with
  | error reason =>
    rw [derived] at exported
    split_ifs at exported <;> cases exported
  | ok key =>
    rw [derived] at exported
    cases hashed : argon2.hashPassword password draws.verifierSalt with
    | error reason =>
      rw [hashed] at exported
      split_ifs at exported <;> cases exported
    | ok hash =>
      rw [hashed] at exported
      cases encrypted : aead.encrypt key draws.nonce keys with
      | none =>
        simp only [Except.mapError, bind, Except.bind, encrypted] at exported
        split_ifs at exported
      | some encryptedData =>
        simp only [Except.mapError, bind, Except.bind, encrypted] at exported
        split_ifs at exported
        cases exported
        exact ⟨key, encryptedData, rfl, encrypted, rfl, rfl, rfl⟩

theorem importKeys_inversion {backup : EncryptedBackup} {password : Bytes} {imported : ImportedKeys}
    (imports : importKeys argon2 aead backup password = .ok imported) :
    ∃ key nonce data, argon2.hashPasswordInto password backup.kdfSalt = .ok key ∧
      backup.nonce = nonce.val ∧ aead.decrypt key nonce backup.encryptedData = some data ∧
      imported = ⟨data, backup.namespace, backup.timestamp, keyCount backup.metadata⟩ := by
  unfold importKeys deriveAesKey at imports
  cases parsed : argon2.parseHash backup.verifierHash with
  | error reason =>
    rw [parsed] at imports
    split_ifs at imports <;> cases imports
  | ok parsedHash =>
    rw [parsed] at imports
    cases derived : argon2.hashPasswordInto password backup.kdfSalt with
    | error reason =>
      rw [derived] at imports
      split_ifs at imports <;> cases imports
    | ok key =>
      rw [derived] at imports
      simp only [Except.mapError, bind, Except.bind] at imports
      split_ifs at imports with version valid sized
      cases decrypted : aead.decrypt key ⟨backup.nonce, sized⟩ backup.encryptedData with
      | none =>
        rw [decrypted] at imports
        cases imports
      | some data =>
        rw [decrypted] at imports
        cases imports
        exact ⟨key, ⟨backup.nonce, sized⟩, data, rfl, rfl, decrypted, rfl⟩

theorem imported_data (lawful : aead.Lawful) {exports : List (Export argon2 aead)}
    {password : Bytes} {backup : EncryptedBackup} {imported : ImportedKeys}
    (unforged : Unforged exports password backup)
    (collisionFree : CollisionFree exports password backup)
    (imports : importKeys argon2 aead backup password = .ok imported) :
    (∃ export_ ∈ exports, export_.password = password ∧ SamePayload backup export_.backup) ∧
      ∀ export_ ∈ exports, SamePayload backup export_.backup → export_.password = password →
        imported.data = export_.keys := by
  obtain ⟨key, nonce, data, derived, sameNonce, decrypted, rfl⟩ := importKeys_inversion imports
  obtain ⟨export_, member, derived', nonceKept, dataKept⟩ :=
    unforged key nonce data derived sameNonce decrypted
  obtain ⟨samePassword, sameSalt⟩ := collisionFree export_ member key derived derived'
  refine ⟨⟨export_, member, samePassword, sameSalt, nonceKept, dataKept⟩, ?_⟩
  rintro other - ⟨salt, nonceOther, dataOther⟩ rfl
  obtain ⟨key', encrypted, derives, encrypts, saltIs, nonceIs, dataIs⟩ := other.inversion
  -- The export has the key, the nonce and the ciphertext of the import.
  rw [← saltIs, salt, derived] at derives
  cases derives
  obtain rfl : nonce = other.draws.nonce :=
    Subtype.ext (by rw [← sameNonce, ← nonceOther, nonceIs])
  rw [← dataIs, dataOther] at encrypts
  exact Option.some.inj (decrypted.symm.trans (lawful.decrypts encrypts))

theorem keyCount_eq_one (metadata : Dict String String) :
    keyCount metadata = 1 ↔ ∀ text ∈ metadata["key_count"]?, ∀ count ∈ parseU64 text, count = 1 := by
  rw [keyCount]
  cases metadata["key_count"]? with
  | none => simp
  | some text =>
    rw [Option.bind_some]
    cases read : parseU64 text with
    | none => simp [read]
    | some count =>
      simp only [Option.map_some, Option.getD_some, Option.mem_some_iff, forall_eq', read]
      exact ⟨fun one => UInt64.toNat_inj.mp one, fun one => by rw [one]; rfl⟩

theorem keyCount_exportMetadata : keyCount exportMetadata = 1 := by decide +kernel

namespace Known

def password : Bytes := [99, 111, 114, 114, 101, 99, 116, 32, 104, 111, 114, 115, 101, 32, 98, 97,
  116, 116, 101, 114, 121]

def aesKey : ByteVec 32 :=
  ⟨[170, 236, 174, 177, 247, 158, 184, 1, 155, 166, 44, 52, 246, 47, 163, 225, 82, 137, 248, 143,
    249, 135, 121, 174, 129, 222, 7, 130, 25, 146, 255, 31], rfl⟩

def draws : ExportDraws where
  kdfSalt := ⟨[0, 1, 2, 3, 4, 5, 6, 7, 8, 9, 10, 11, 12, 13, 14, 15], rfl⟩
  verifierSalt := "EBESExQVFhcYGRobHB0eHw"
  nonce := ⟨[0, 1, 2, 3, 4, 5, 6, 7, 8, 9, 10, 11], rfl⟩
  now := 1700000000

def verifier : String := "$argon2id$v=19$m=19456,t=2,p=1$EBESExQVFhcYGRobHB0eHw$" ++
  "+3lVp/WuruPKwyeD7mfxg14Rb1+5jC2MSD9q/xEK2dc"

def argon2id : Argon2 where
  hashPasswordInto given salt :=
    if given = password ∧ salt = draws.kdfSalt.val then .ok aesKey else .error "unknown"
  hashPassword given salt :=
    if given = password ∧ salt = draws.verifierSalt then .ok verifier else .error "unknown"
  parseHash text := if text = verifier then .ok () else .error "unknown"
  verifyPassword given text := given = password ∧ text = verifier

def aesGcm : Aead := Aead.ofKnown [⟨aesKey, draws.nonce, [42, 43],
  [61, 65, 107, 85, 136, 64, 199, 188, 9, 194, 28, 216, 246, 212, 151, 214, 169, 74]⟩]

def backup : EncryptedBackup where
  version := 1
  verifierHash := verifier
  kdfSalt := draws.kdfSalt.val
  nonce := draws.nonce.val
  encryptedData :=
    [61, 65, 107, 85, 136, 64, 199, 188, 9, 194, 28, 216, 246, 212, 151, 214, 169, 74]
  timestamp := 1700000000
  «namespace» := some "staging"
  metadata := exportMetadata

def exported : Export argon2id aesGcm where
  draws := draws
  keys := [42, 43]
  password := password
  space := some "staging"
  backup := backup
  exported := by rfl

theorem aesGcm_lawful : aesGcm.Lawful :=
  Aead.ofKnown_lawful (by decide +kernel) (by decide +kernel)

theorem derives_aesKey {given salt : Bytes} {key : ByteVec 32}
    (derived : argon2id.hashPasswordInto given salt = .ok key) :
    given = password ∧ salt = draws.kdfSalt.val := by
  simp only [argon2id] at derived
  split_ifs at derived with known
  exact known

theorem unforged_of_payload {other : EncryptedBackup}
    (same : SamePayload other backup) : Unforged [exported] password other :=
  fun key nonce plaintext derived _ _ =>
    ⟨exported, List.mem_singleton_self _, by rw [← derived, ← same.1]; rfl, same.2.1, same.2.2⟩

theorem collisionFree (other : EncryptedBackup) : CollisionFree [exported] password other := by
  intro export_ member key derived _
  obtain rfl := List.mem_singleton.mp member
  exact ⟨rfl, (derives_aesKey derived).2.symm⟩

/-- A backup with other fields outside. -/
def changed : EncryptedBackup :=
  { backup with «namespace» := some "production", timestamp := 1,
                metadata := (∅ : Dict String String).insert "key_count" "7" }

end Known

theorem changed_backup_imported :
    (Unforged [Known.exported] Known.password Known.changed ∧
      CollisionFree [Known.exported] Known.password Known.changed) ∧
    importKeys Known.argon2id Known.aesGcm Known.changed Known.password =
      .ok ⟨[42, 43], some "production", 1, 7⟩ ∧
    ∀ export_ ∈ [Known.exported], export_.contents ≠ ⟨[42, 43], some "production", 1, 7⟩ := by
  refine ⟨⟨Known.unforged_of_payload ⟨rfl, rfl, rfl⟩, Known.collisionFree _⟩, by decide +kernel, ?_⟩
  intro export_ member
  obtain rfl := List.mem_singleton.mp member
  decide +kernel

/-- A backup is as exported exactly if namespace, timestamp and key count are still the same. -/
theorem imported_backup_iff (lawful : aead.Lawful) {exports : List (Export argon2 aead)}
    {password : Bytes} {backup : EncryptedBackup} {imported : ImportedKeys}
    (unforged : Unforged exports password backup)
    (collisionFree : CollisionFree exports password backup)
    (imports : importKeys argon2 aead backup password = .ok imported) :
    ((∃ export_ ∈ exports, export_.password = password ∧ imported = export_.contents) ↔
      FieldsKept exports password backup) ∧
    ∃ export_ ∈ exports, export_.password = password ∧ imported.data = export_.keys := by
  obtain ⟨⟨source, member, samePassword, samePayload⟩, dataOf⟩ :=
    imported_data lawful unforged collisionFree imports
  have sourceData := dataOf source member samePayload samePassword
  refine ⟨?_, source, member, samePassword, sourceData⟩
  obtain ⟨key, nonce, data, -, -, -, rfl⟩ := importKeys_inversion imports
  constructor
  · rintro ⟨export_, within, withPassword, same⟩
    simp only [Export.contents, ImportedKeys.mk.injEq, keyCount_exportMetadata] at same
    obtain ⟨sameData, sameSpace, sameTime, oneKey⟩ := same
    refine ⟨(keyCount_eq_one _).mp oneKey, export_, within, withPassword, sameSpace.symm,
      sameTime.symm, source, member, samePassword, samePayload, ?_⟩
    rw [← sourceData, ← sameData]
  · rintro ⟨oneKey, export_, within, withPassword, sameSpace, sameTime, payload, within',
      withPassword', itsPayload, sameKeys⟩
    refine ⟨export_, within, withPassword, ?_⟩
    have payloadData := dataOf payload within' itsPayload withPassword'
    rw [Export.contents, keyCount_exportMetadata, sameSpace, sameTime,
      (keyCount_eq_one _).mpr oneKey, ← sameKeys, ← payloadData]

theorem imported_backup_iff_unchanged :
    importKeys Known.argon2id Known.aesGcm Known.backup Known.password =
      .ok ⟨[42, 43], some "staging", 1700000000, 1⟩ ∧
    ∃ export_ ∈ [Known.exported], export_.password = Known.password ∧
      ⟨[42, 43], some "staging", 1700000000, 1⟩ = export_.contents := by
  have imports : importKeys Known.argon2id Known.aesGcm Known.backup Known.password =
      .ok ⟨[42, 43], some "staging", 1700000000, 1⟩ := by decide +kernel
  refine ⟨imports, (imported_backup_iff Known.aesGcm_lawful
    (Known.unforged_of_payload ⟨rfl, rfl, rfl⟩) (Known.collisionFree _) imports).1.mpr ?_⟩
  refine ⟨(keyCount_eq_one _).mp keyCount_exportMetadata, Known.exported, by simp, rfl, rfl, rfl,
    Known.exported, by simp, rfl, ⟨rfl, rfl, rfl⟩, rfl⟩

end Hsm.Backup

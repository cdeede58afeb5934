import Hsm.KeyManager.Store

/-! The key manager: keys in memory, written through to an optional storage backend. -/

namespace Hsm.KeyManager

abbrev Keys := Dict CompositeKey Key

namespace Keys

variable (keys : Keys)

def set (at_ : CompositeKey) (key : Key) : Keys := Std.ExtTreeMap.insert keys at_ key

theorem find_set (at_ other : CompositeKey) (key : Key) :
    (keys.set at_ key)[other]? = if at_ = other then some key else keys[other]? :=
  Dict.find_insert keys at_ other key

@[simp] theorem find_set_self (at_ : CompositeKey) (key : Key) :
    (keys.set at_ key)[at_]? = some key := by
  rw [find_set, if_pos rfl]

theorem find_set_of_ne {at_ other : CompositeKey} (apart : at_ ≠ other) (key : Key) :
    (keys.set at_ key)[other]? = keys[other]? := by
  rw [find_set, if_neg apart]

theorem set_set (at_ : CompositeKey) (first second : Key) :
    (keys.set at_ first).set at_ second = keys.set at_ second := by
  apply Std.ExtTreeMap.ext_getElem?
  intro other
  rw [find_set, find_set, find_set]
  split_ifs <;> rfl

theorem set_comm {at_ other : CompositeKey} (apart : at_ ≠ other) (first second : Key) :
    (keys.set at_ first).set other second = (keys.set other second).set at_ first := by
  apply Std.ExtTreeMap.ext_getElem?
  intro looked
  simp only [find_set]
  split_ifs with isOther isFirst
  · exact absurd (isFirst.trans isOther.symm) apart
  · rfl
  · rfl
  · rfl

def get (space : String) (keyId : KeyId) : Except Error Key :=
  match keys[((space, keyId) : CompositeKey)]? with
  | none => .error (.keyNotFound keyId)
  | some key =>
    if key.namespace ≠ space then .error (.namespaceViolation space key.namespace) else .ok key

def insert (space : String) (key : Key) : Except Error Unit × Keys :=
  match keys[((space, key.id) : CompositeKey)]? with
  | some _ => (.error (.keyAlreadyExists key.id), keys)
  | none => (.ok (), keys.set (space, key.id) key)

def update (space : String) (keyId : KeyId) (updater : Key → Key) :
    Except Error Unit × Keys :=
  match keys.get space keyId with
  | .error failure => (.error failure, keys)
  | .ok key => (.ok (), keys.set (space, keyId) (updater key))

def delete (space : String) (keyId : KeyId) : Except Error Key × Keys :=
  match keys[((space, keyId) : CompositeKey)]? with
  | none => (.error (.keyNotFound keyId), keys)
  | some _ => (keys.get space keyId, keys.erase (space, keyId))

end Keys

theorem get_eq_ok {keys : Keys} {space : String} {keyId : KeyId} {key : Key} :
    keys.get space keyId = .ok key ↔
      keys[((space, keyId) : CompositeKey)]? = some key ∧ key.namespace = space := by
  rw [Keys.get]
  cases keys[((space, keyId) : CompositeKey)]? with
  | none => simp
  | some other =>
    by_cases same : other.namespace = space
    · simp only [same, ne_eq, not_true_eq_false, if_false, Except.ok.injEq, Option.some.injEq]
      exact ⟨fun isKey => ⟨isKey, isKey ▸ same⟩, fun both => both.1⟩
    · simp only [ne_eq, same, not_false_eq_true, if_true, reduceCtorEq, Option.some.injEq,
        false_iff, not_and]
      rintro rfl
      exact same

section

open Script

namespace KeyStore

variable (store : KeyStore) (thread handle : Nat) (space : String)

/-- One call at a time, the store inserts as the plain map does. -/
theorem runAlone_insert (key : Key) :
    let done := (insert thread handle space key).runAlone store
    (done.1, done.2.keys) = Keys.insert store.keys space key := by
  simp only [insert, runAlone_bind, insertEntry, await, runAlone, Keys.insert]
  cases store.keys[((space, key.id) : CompositeKey)]? <;> rfl

variable (keyId : KeyId)

theorem runAlone_update (updater : Key → Key) :
    let done := (update thread handle space keyId updater).runAlone store
    (done.1, done.2.keys) = Keys.update store.keys space keyId updater := by
  simp only [update, runAlone_bind, updateEntry, await, runAlone, Keys.update, Keys.get]
  cases store.keys[((space, keyId) : CompositeKey)]? with
  | none => rfl
  | some key =>
    by_cases same : key.namespace = space
    · simp only [same, ne_eq, not_true_eq_false, if_false]
      rfl
    · simp only [ne_eq, same, not_false_eq_true, if_true]
      rfl

theorem runAlone_delete :
    let done := (delete thread handle space keyId).runAlone store
    (done.1, done.2.keys) = Keys.delete store.keys space keyId := by
  simp only [delete, runAlone_bind, removeEntry, await, runAlone, Keys.delete, Keys.get]
  cases store.keys[((space, keyId) : CompositeKey)]? with
  | none => rfl
  | some key =>
    by_cases same : key.namespace = space
    · simp only [same, ne_eq, not_true_eq_false, if_false]
      rfl
    · simp only [ne_eq, same, not_false_eq_true, if_true]
      rfl

/-- A handle whose cached key is the stored one gets what the plain map holds. -/
theorem runAlone_get (held : ∀ key ∈ ((store.hotCache handle).get (space, keyId)).1,
      store.keys[((space, keyId) : CompositeKey)]? = some key) :
    let done := (get thread handle space keyId).runAlone store
    (done.1, done.2.keys) = (Keys.get store.keys space keyId, store.keys) := by
  simp only [get, runAlone_bind, lookup, runAlone_atomically, Keys.get]
  cases cached : ((store.hotCache handle).get (space, keyId)).1 with
  | some key =>
    rw [held key cached]
    by_cases same : key.namespace = space
    · simp only [same, ne_eq, not_true_eq_false, if_false]
      rfl
    · simp only [ne_eq, same, not_false_eq_true, if_true]
      rfl
  | none =>
    simp only [getCold, runAlone_bind, readEntry, await, runAlone]
    have kept : (store.modifyCache handle fun cache => (cache.get (space, keyId)).2).keys =
      store.keys := rfl
    rw [kept]
    cases store.keys[((space, keyId) : CompositeKey)]? with
    | none => rfl
    | some key =>
      by_cases same : key.namespace = space
      · simp only [same, ne_eq, not_true_eq_false, if_false]
        rfl
      · simp only [ne_eq, same, not_false_eq_true, if_true]
        rfl

end KeyStore

end

/-- What a storage backend holds. -/
structure Backend where
  namespaces : Dict String Unit := ∅
  records : Dict CompositeKey Bytes := ∅

structure KeyCodec where
  toAllocvec : Key → Except String Bytes
  fromBytes : Bytes → Except String Key

structure Vault where
  keys : Keys := ∅
  storage : Option Backend := none

abbrev Faults := Nat → Option String

structure KeySpec where
  keyType : KeyType
  «namespace» : String
  policy : KeyUsagePolicy

structure KeyDraws where
  id : KeyId
  now : Instant
  material : Except String (Bytes × Bytes)

def KeyType.generated : KeyType → Bool
  | .ed25519 | .ecdsaP256 | .ecdsaP384 | .secp256k1 | .bls12381 | .rsa2048 | .rsa3072 | .rsa4096 =>
    true
  | _ => false

namespace Vault

def persistTo (codec : KeyCodec) (faults : Faults) (first : Nat) (space : String) (key : Key)
    (backend : Backend) : Except Error Unit × Backend :=
  match codec.toAllocvec key with
  | .error reason => (.error (.storageError ("failed to serialize key: " ++ reason)), backend)
  | .ok bytes =>
    -- List the namespaces, create a missing one, and store the key.
    match faults first with
    | some reason => (.error (.storageError reason), backend)
    | none =>
      let missing := !backend.namespaces.contains space
      match if missing then faults (first + 1) else none with
      | some reason => (.error (.storageError reason), backend)
      | none =>
        let prepared := { backend with namespaces := backend.namespaces.insert space () }
        match faults (first + 2) with
        | some reason => (.error (.storageError reason), prepared)
        | none =>
          (.ok (), { prepared with records := prepared.records.insert (space, key.id) bytes })

variable (codec : KeyCodec) (faults : Faults)

def persistKey (first : Nat) (space : String) (key : Key) : Script Vault (Except Error Unit) :=
  .atomically fun vault =>
    match vault.storage with
    | none => (.ok (), vault)
    | some backend =>
      let (result, after) := persistTo codec faults first space key backend
      (result, { vault with storage := some after })

variable (space : String)

def storeGet (keyId : KeyId) : Script Vault (Except Error Key) :=
  .atomically fun vault => (vault.keys.get space keyId, vault)

def storeUpdate (keyId : KeyId) (updater : Key → Key) :
    Script Vault (Except Error Unit) :=
  .atomically fun vault =>
    let (result, keys) := vault.keys.update space keyId updater
    (result, { vault with keys := keys })

def storeInsert (key : Key) : Script Vault (Except Error Unit) :=
  .atomically fun vault =>
    let (result, keys) := vault.keys.insert space key
    (result, { vault with keys := keys })

def storeDelete (keyId : KeyId) : Script Vault (Except Error Key) :=
  .atomically fun vault =>
    let (result, keys) := vault.keys.delete space keyId
    (result, { vault with keys := keys })

/-- Without a storage backend, the key is not looked up. -/
def persistExisting (first : Nat) (space : String) (keyId : KeyId) :
    Script Vault (Except Error Unit) := do
  match ← Script.atomically fun vault => (vault.storage.isSome, vault) with
  | false => return .ok ()
  | true =>
    match ← storeGet space keyId with
    | .error failure => return .error failure
    | .ok key => persistKey codec faults first space key

def removeFrom (keyId : KeyId) (backend : Backend) : Backend :=
  match faults 0 with
  | some _ => backend
  | none => { backend with records := backend.records.erase (space, keyId) }

def removePersisted (keyId : KeyId) : Script Vault Unit :=
  .atomically fun vault =>
    ((), { vault with storage := vault.storage.map (removeFrom faults space keyId) })

def newKey (spec : KeySpec) (draws : KeyDraws) (material : Bytes × Bytes) : Key where
  id := draws.id
  keyType := spec.keyType
  privateMaterial := some material.1
  publicMaterial := some material.2
  state := .active
  «namespace» := spec.namespace
  createdAt := draws.now
  policy := spec.policy
  version := 1
  previousVersion := none
  operationCount := 0

def generateKey (spec : KeySpec) (draws : KeyDraws) : Script Vault (Except Error KeyId) :=
  if spec.keyType.generated = false then return .error (.unsupportedKeyType spec.keyType)
  else
    match draws.material with
    | .error reason => return .error (.keyGenerationFailed reason)
    | .ok material => do
      let key := newKey spec draws material
      match ← persistKey codec faults 0 spec.namespace key with
      | .error failure => return .error failure
      | .ok _ =>
        match ← storeInsert spec.namespace key with
        | .error failure => return .error failure
        | .ok _ => return .ok draws.id

def updateState (first : Nat) (space : String) (keyId : KeyId) (state : KeyState) :
    Script Vault (Except Error Unit) := do
  match ← storeUpdate space keyId (fun key => { key with state }) with
  | .error failure => return .error failure
  | .ok _ => persistExisting codec faults first space keyId

def rotateKey (keyId : KeyId) (draws : KeyDraws) :
    Script Vault (Except Error KeyId) := do
  match ← storeGet space keyId with
  | .error failure => return .error failure
  | .ok oldKey =>
    match ← generateKey codec faults ⟨oldKey.keyType, space, oldKey.policy⟩ draws with
    | .error failure => return .error failure
    | .ok newId =>
      let link (key : Key) : Key :=
        { key with previousVersion := some keyId, version := oldKey.version + 1 }
      match ← storeUpdate space newId link with
      | .error failure => return .error failure
      | .ok _ =>
        match ← persistExisting codec faults 3 space newId with
        | .error failure => return .error failure
        | .ok _ =>
          match ← updateState codec faults 6 space keyId .deactivated with
          | .error failure => return .error failure
          | .ok _ => return .ok newId

def deleteKey (keyId : KeyId) : Script Vault (Except Error Unit) := do
  match ← storeDelete space keyId with
  | .error failure => return .error failure
  | .ok _ =>
    removePersisted faults space keyId
    return .ok ()

def getKey (now : Instant) (space : String) (keyId : KeyId) : Script Vault (Except Error Key) := do
  match ← storeGet space keyId with
  | .error failure => return .error failure
  | .ok key =>
    if key.canUse now = false then return .error (.keyNotUsable keyId)
    else if key.hasReachedMaxOperations then return .error (.maxOperationsReached keyId)
    else return .ok key

def incrementOperations (space : String) (keyId : KeyId) : Script Vault (Except Error Unit) :=
  storeUpdate space keyId Key.incrementOperations

end Vault

inductive ManagerCall where
  | generate (spec : KeySpec) (draws : KeyDraws) (faults : Faults)
  | rotate (space : String) (keyId : KeyId) (draws : KeyDraws) (faults : Faults)
  | updateState (space : String) (keyId : KeyId) (state : KeyState) (faults : Faults)
  | delete (space : String) (keyId : KeyId) (faults : Faults)
  | get (space : String) (keyId : KeyId) (now : Instant)

inductive ManagerReply where
  | created (result : Except Error KeyId)
  | done (result : Except Error Unit)
  | found (result : Except Error Key)
  deriving DecidableEq

def ManagerCall.program (codec : KeyCodec) : ManagerCall → Script Vault ManagerReply
  | .generate spec draws faults => do return .created (← Vault.generateKey codec faults spec draws)
  | .rotate space keyId draws faults => do
    return .created (← Vault.rotateKey codec faults space keyId draws)
  | .updateState space keyId state faults => do
    return .done (← Vault.updateState codec faults 0 space keyId state)
  | .delete space keyId faults => do return .done (← Vault.deleteKey faults space keyId)
  | .get space keyId now => do return .found (← Vault.getKey now space keyId)

end Hsm.KeyManager

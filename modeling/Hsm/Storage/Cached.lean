import Hsm.Lib.Bytes
import Hsm.Lib.Lru
import Hsm.Lib.Threads

/-! The key cache in front of a storage backend, used by any number of threads. -/

namespace Hsm

namespace Storage

abbrev KeyId := String

/-- The failures of a backend, which the cache hands on as they are. -/
inductive StorageError where
  | keyNotFound (keyId : String)
  | operationFailed (message : String)
  deriving DecidableEq, Repr

structure StorageBackend (β : Type) where
  loadKey : KeyId → String → EStateM StorageError β Bytes
  storeKey : KeyId → Bytes → String → EStateM StorageError β Unit
  deleteKey : KeyId → String → EStateM StorageError β Unit

def written (held : String → KeyId → Option Bytes) (ns : String) (keyId : KeyId)
    (value : Option Bytes) : String → KeyId → Option Bytes :=
  fun otherNs otherId => if otherNs = ns ∧ otherId = keyId then value else held otherNs otherId

/-- The backend behaves as a map, also when calls fail. -/
structure StorageBackend.IsMap {β : Type} (backend : StorageBackend β)
    (held : β → String → KeyId → Option Bytes) : Prop where
  loads : ∀ {keyId ns state data after}, backend.loadKey keyId ns state = .ok data after →
    held state ns keyId = some data ∧ held after = held state
  loadFails : ∀ {keyId ns state failure after},
    backend.loadKey keyId ns state = .error failure after → held after = held state
  stores : ∀ {keyId data ns state after}, backend.storeKey keyId data ns state = .ok () after →
    held after = written (held state) ns keyId (some data)
  storeFails : ∀ {keyId data ns state failure after},
    backend.storeKey keyId data ns state = .error failure after → held after = held state
  deletes : ∀ {keyId ns state after}, backend.deleteKey keyId ns state = .ok () after →
    held after = written (held state) ns keyId none
  deleteFails : ∀ {keyId ns state failure after},
    backend.deleteKey keyId ns state = .error failure after → held after = held state

structure CachedStorage (β : Type) where
  backend : β
  locked : Option Nat
  keyCache : LruCache String Bytes

namespace CachedStorage

variable {β : Type}

def new (backend : β) (cacheCapacity : Nat) : CachedStorage β where
  backend := backend
  locked := none
  keyCache :=
    if positive : 0 < cacheCapacity then .new cacheCapacity positive
    else .new 10000 (by decide)

def makeCacheKey (ns : String) (keyId : KeyId) : String := ns ++ ":" ++ keyId

def lookup (cacheKey : String) : Script (CachedStorage β) (Option Bytes) :=
  .atomically fun storage =>
    let (found, keyCache) := storage.keyCache.get cacheKey
    (found, { storage with keyCache := keyCache })

def callBackend {α : Type} (thread : Nat) (call : EStateM StorageError β α) :
    Script (CachedStorage β) (Except StorageError α) :=
  .await (fun storage => storage.locked.isNone) fun storage =>
    match call storage.backend with
    | .ok value backend => (.ok value, { storage with backend := backend, locked := some thread })
    | .error failure backend => (.error failure, { storage with backend := backend })

def publish (change : LruCache String Bytes → LruCache String Bytes) :
    Script (CachedStorage β) Unit :=
  .atomically fun storage => ((), { storage with keyCache := change storage.keyCache, locked := none })

variable (backend : StorageBackend β) (thread : Nat)

def loadMissed (keyId : KeyId) (ns : String) :
    Script (CachedStorage β) (Except StorageError Bytes) := do
  match ← callBackend thread (backend.loadKey keyId ns) with
  | .error failure => return .error failure
  | .ok data =>
    publish (·.put (makeCacheKey ns keyId) data)
    return .ok data

def loadKeyCached (keyId : KeyId) (ns : String) :
    Script (CachedStorage β) (Except StorageError Bytes) := do
  match ← lookup (makeCacheKey ns keyId) with
  | some data => return .ok data
  | none => loadMissed backend thread keyId ns

def storeKeyCached (keyId : KeyId) (data : Bytes) (ns : String) :
    Script (CachedStorage β) (Except StorageError Unit) := do
  match ← callBackend thread (backend.storeKey keyId data ns) with
  | .error failure => return .error failure
  | .ok _ =>
    publish (·.put (makeCacheKey ns keyId) data)
    return .ok ()

def deleteKeyCached (keyId : KeyId) (ns : String) :
    Script (CachedStorage β) (Except StorageError Unit) := do
  match ← callBackend thread (backend.deleteKey keyId ns) with
  | .error failure => return .error failure
  | .ok _ =>
    publish (·.pop (makeCacheKey ns keyId))
    return .ok ()

def clearCache : Script (CachedStorage β) Unit :=
  .atomically fun storage => ((), { storage with keyCache := storage.keyCache.clear })

end CachedStorage

inductive CacheCall where
  | load (keyId : KeyId) (ns : String)
  | store (keyId : KeyId) (data : Bytes) (ns : String)
  | delete (keyId : KeyId) (ns : String)
  | clear
  deriving DecidableEq, Repr

inductive CacheReply where
  | loaded (result : Except StorageError Bytes)
  | changed (result : Except StorageError Unit)

def CacheCall.program {β : Type} (backend : StorageBackend β) (thread : Nat) :
    CacheCall → Script (CachedStorage β) CacheReply
  | .load keyId ns => do return .loaded (← CachedStorage.loadKeyCached backend thread keyId ns)
  | .store keyId data ns => do
    return .changed (← CachedStorage.storeKeyCached backend thread keyId data ns)
  | .delete keyId ns => do return .changed (← CachedStorage.deleteKeyCached backend thread keyId ns)
  | .clear => do
    CachedStorage.clearCache
    return .changed (.ok ())

end Storage

end Hsm

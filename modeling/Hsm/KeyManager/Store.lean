import Hsm.KeyManager.Key
import Hsm.Lib.Dict
import Hsm.Lib.Lru
import Hsm.Lib.Threads

/-! The key store: a map of keys shared by all handles, and a cache of hot keys for each handle. -/

namespace Hsm.KeyManager

abbrev CompositeKey := String × KeyId

instance : Ord CompositeKey := lexOrd

abbrev HotCache := LruCache CompositeKey Key

/-- What a call does between map and cache. -/
inductive Doing where
  | reading
  | updating
  | inserting
  | deleting
  deriving DecidableEq

/-- A call that is between the map and the cache. -/
structure Visit where
  thread : Nat
  handle : Nat
  key : CompositeKey
  doing : Doing
  deriving DecidableEq

/-- The shared map, whose entries calls lock, and the cache of each handle. -/
structure KeyStore where
  keys : Dict CompositeKey Key
  hotCache : Nat → HotCache
  visits : List Visit

namespace KeyStore

def new : KeyStore := ⟨∅, fun _ => .new 256 (by decide), []⟩

variable (store : KeyStore)

def modifyCache (handle : Nat) (change : HotCache → HotCache) : KeyStore :=
  { store with hotCache := fun other =>
      if other = handle then change (store.hotCache handle) else store.hotCache other }

def readable (key : CompositeKey) : Bool :=
  store.visits.all fun visit => visit.key ≠ key ∨ visit.doing ≠ .updating

/-- No other call has the entry locked. -/
def writable (key : CompositeKey) : Bool :=
  store.visits.all fun visit =>
    visit.key ≠ key ∨ visit.doing ≠ .updating ∧ visit.doing ≠ .reading

/-- Go on from the map to the cache. -/
def enter (visit : Visit) : KeyStore :=
  { store with visits := visit :: store.visits }

def publish (visit : Visit) (change : HotCache → HotCache) : Script KeyStore Unit :=
  .atomically fun store => ((), { store.modifyCache visit.handle change with
    visits := store.visits.filter fun other => other ≠ visit })

def lookup (handle : Nat) (key : CompositeKey) : Script KeyStore (Option Key) :=
  .atomically fun store =>
    ((store.hotCache handle).get key |>.1, store.modifyCache handle fun cache => (cache.get key).2)

variable (thread handle : Nat) (space : String)

def insertEntry (key : Key) : Script KeyStore (Except Error Unit) :=
  .await (fun store => store.writable (space, key.id)) fun store =>
    match store.keys[((space, key.id) : CompositeKey)]? with
    | some _ => (.error (.keyAlreadyExists key.id), store)
    | none => (.ok (), { store with keys := store.keys.insert (space, key.id) key }.enter
        ⟨thread, handle, (space, key.id), .inserting⟩)

def insert (key : Key) : Script KeyStore (Except Error Unit) := do
  match ← insertEntry thread handle space key with
  | .error failure => return .error failure
  | .ok _ =>
    publish ⟨thread, handle, (space, key.id), .inserting⟩ (·.put (space, key.id) key)
    return .ok ()

variable (keyId : KeyId)

def readEntry : Script KeyStore (Except Error Key) :=
  .await (fun store => store.readable (space, keyId)) fun store =>
    match store.keys[((space, keyId) : CompositeKey)]? with
    | none => (.error (.keyNotFound keyId), store)
    | some key =>
      if key.namespace ≠ space then (.error (.namespaceViolation space key.namespace), store)
      else (.ok key, store.enter ⟨thread, handle, (space, keyId), .reading⟩)

def getCold : Script KeyStore (Except Error Key) := do
  match ← readEntry thread handle space keyId with
  | .error failure => return .error failure
  | .ok key =>
    publish ⟨thread, handle, (space, keyId), .reading⟩ (·.put (space, keyId) key)
    return .ok key

def get : Script KeyStore (Except Error Key) := do
  match ← lookup handle (space, keyId) with
  | some key =>
    if key.namespace ≠ space then return .error (.namespaceViolation space key.namespace)
    else return .ok key
  | none => getCold thread handle space keyId

def updateEntry (updater : Key → Key) : Script KeyStore (Except Error Key) :=
  .await (fun store => store.writable (space, keyId)) fun store =>
    match store.keys[((space, keyId) : CompositeKey)]? with
    | none => (.error (.keyNotFound keyId), store)
    | some key =>
      if key.namespace ≠ space then (.error (.namespaceViolation space key.namespace), store)
      else
        let updated := { store with keys := store.keys.insert (space, keyId) (updater key) }
        (.ok (updater key), updated.enter ⟨thread, handle, (space, keyId), .updating⟩)

def update (updater : Key → Key) : Script KeyStore (Except Error Unit) := do
  match ← updateEntry thread handle space keyId updater with
  | .error failure => return .error failure
  | .ok key =>
    publish ⟨thread, handle, (space, keyId), .updating⟩ (·.put (space, keyId) key)
    return .ok ()

def removeEntry : Script KeyStore (Except Error Key) :=
  .await (fun store => store.writable (space, keyId)) fun store =>
    match store.keys[((space, keyId) : CompositeKey)]? with
    | none => (.error (.keyNotFound keyId), store)
    | some key =>
      let removed := { store with keys := store.keys.erase (space, keyId) }
      if key.namespace ≠ space then (.error (.namespaceViolation space key.namespace), removed)
      else (.ok key, removed.enter ⟨thread, handle, (space, keyId), .deleting⟩)

def delete : Script KeyStore (Except Error Key) := do
  match ← removeEntry thread handle space keyId with
  | .error failure => return .error failure
  | .ok key =>
    publish ⟨thread, handle, (space, keyId), .deleting⟩ (·.pop (space, keyId))
    return .ok key

end KeyStore

inductive StoreCall where
  | insert (handle : Nat) (space : String) (key : Key)
  | get (handle : Nat) (space : String) (keyId : KeyId)
  | update (handle : Nat) (space : String) (keyId : KeyId) (updater : Key → Key)
  | delete (handle : Nat) (space : String) (keyId : KeyId)

/-- What a call returns: nothing, or a key. -/
inductive StoreReply where
  | done (result : Except Error Unit)
  | found (result : Except Error Key)
  deriving DecidableEq

def StoreCall.program (thread : Nat) : StoreCall → Script KeyStore StoreReply
  | .insert handle space key => do return .done (← KeyStore.insert thread handle space key)
  | .get handle space keyId => do return .found (← KeyStore.get thread handle space keyId)
  | .update handle space keyId updater => do
    return .done (← KeyStore.update thread handle space keyId updater)
  | .delete handle space keyId => do return .found (← KeyStore.delete thread handle space keyId)

end Hsm.KeyManager

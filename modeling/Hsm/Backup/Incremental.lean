import Hsm.Lib.Bytes
import Hsm.Lib.Dict

/-! Full and incremental backups of a set of keys, and the chains they are restored from. -/

namespace Hsm.Backup

/-- All keys, or those changed. -/
inductive BackupType where
  | full
  | incremental
  deriving DecidableEq

abbrev KeyId := String

structure KeyEntry where
  id : KeyId
  data : Bytes
  modifiedAt : Int
  deriving DecidableEq

inductive BackupError where
  | emptyData
  | weakPassword
  | keyDerivation (reason : String)
  | encryption (reason : String)
  | decryption (reason : String)
  | invalidPassword
  | invalidFormat (reason : String)
  | unsupportedVersion (version : UInt32)
  | noFullBackup
  deriving DecidableEq

structure IncrementalBackupMetadata where
  backupType : BackupType
  id : String
  parentId : Option String
  timestamp : Int
  keyIds : List KeyId
  keyCount : Nat
  deriving DecidableEq

structure IncrementalBackup where
  metadata : IncrementalBackupMetadata
  keys : List KeyEntry
  deriving DecidableEq

namespace IncrementalBackup

def newFull (now : Int) (id : String) : IncrementalBackup where
  metadata := ⟨.full, id, none, now, [], 0⟩
  keys := []

def newIncremental (now : Int) (id parentId : String) : IncrementalBackup where
  metadata := ⟨.incremental, id, some parentId, now, [], 0⟩
  keys := []

def addKey (backup : IncrementalBackup) (key : KeyEntry) : IncrementalBackup where
  metadata := { backup.metadata with
    keyIds := backup.metadata.keyIds ++ [key.id]
    keyCount := (backup.keys ++ [key]).length }
  keys := backup.keys ++ [key]

def backupType (backup : IncrementalBackup) : BackupType := backup.metadata.backupType

def parentId (backup : IncrementalBackup) : Option String := backup.metadata.parentId

theorem keys_foldl_addKey (keys : List KeyEntry) (backup : IncrementalBackup) :
    (keys.foldl addKey backup).keys = backup.keys ++ keys := by
  induction keys generalizing backup with
  | nil => simp
  | cons key rest ih =>
    rw [List.foldl_cons, ih]
    simp [addKey]

theorem metadata_foldl_addKey (keys : List KeyEntry) (backup : IncrementalBackup) :
    (keys.foldl addKey backup).metadata.backupType = backup.metadata.backupType ∧
      (keys.foldl addKey backup).metadata.timestamp = backup.metadata.timestamp := by
  induction keys generalizing backup with
  | nil => exact ⟨rfl, rfl⟩
  | cons key rest ih => exact ih (backup.addKey key)

end IncrementalBackup

structure IncrementalBackupManager where
  lastBackupTimestamp : Option Int := none
  changedKeys : Dict KeyId Unit := ∅

namespace IncrementalBackupManager

def markChanged (manager : IncrementalBackupManager) (keyId : KeyId) : IncrementalBackupManager :=
  { manager with changedKeys := manager.changedKeys.insert keyId () }

def filterKeysByTimestamp (allKeys : List KeyEntry) (sinceTimestamp : Int) : List KeyEntry :=
  allKeys.filter fun key => key.modifiedAt > sinceTimestamp

def afterBackup (backup : IncrementalBackup) : IncrementalBackupManager where
  lastBackupTimestamp := some backup.metadata.timestamp
  changedKeys := ∅

def createFullBackup (now : Int) (backupId : String) (keys : List KeyEntry) :
    IncrementalBackupManager × IncrementalBackup :=
  let backup := keys.foldl IncrementalBackup.addKey (.newFull now backupId)
  (afterBackup backup, backup)

def createIncrementalBackup (now : Int) (backupId parentId : String) (keys : List KeyEntry) :
    IncrementalBackupManager × IncrementalBackup :=
  let backup := keys.foldl IncrementalBackup.addKey (.newIncremental now backupId parentId)
  (afterBackup backup, backup)

def apply (restored : Dict KeyId KeyEntry) (keys : List KeyEntry) : Dict KeyId KeyEntry :=
  keys.foldl (fun restored key => restored.insert key.id key) restored

def restoreFromChain : List IncrementalBackup → Except BackupError (Dict KeyId KeyEntry)
  | [] => .error .emptyData
  | first :: later =>
    -- Verify the first backup is a full backup.
    if first.backupType ≠ .full then .error .noFullBackup
    else .ok (later.foldl (fun restored backup => apply restored backup.keys) (apply ∅ first.keys))

def validateLinks : IncrementalBackup → List IncrementalBackup → Except BackupError Unit
  | _, [] => .ok ()
  | previous, backup :: rest =>
    if backup.backupType ≠ .incremental then
      .error (.invalidFormat "Non-incremental backup in chain")
    else if backup.parentId ≠ some previous.metadata.id then
      .error (.invalidFormat "Broken backup chain")
    else validateLinks backup rest

def validateChain : List IncrementalBackup → Except BackupError Unit
  | [] => .error .emptyData
  | first :: later =>
    if first.backupType ≠ .full then .error .noFullBackup else validateLinks first later

theorem find_apply_of_not_mem {keys : List KeyEntry} {id : KeyId}
    (absent : ∀ key ∈ keys, key.id ≠ id) (restored : Dict KeyId KeyEntry) :
    (apply restored keys)[id]? = restored[id]? := by
  induction keys generalizing restored with
  | nil => rfl
  | cons key rest ih =>
    rw [apply, List.foldl_cons, ← apply, ih fun other member => absent other (by simp [member]),
      Dict.find_insert_of_ne _ (absent key (by simp))]

theorem find_apply_of_mem {keys : List KeyEntry} {entry : KeyEntry} (member : entry ∈ keys)
    (unique : ∀ key ∈ keys, key.id = entry.id → key = entry) (restored : Dict KeyId KeyEntry) :
    (apply restored keys)[entry.id]? = some entry := by
  induction keys generalizing restored with
  | nil => cases member
  | cons key rest ih =>
    rw [apply, List.foldl_cons, ← apply]
    by_cases again : entry ∈ rest
    · exact ih again (fun other within => unique other (by simp [within])) _
    · -- No later key of the backup has this name, or it would be the entry itself.
      obtain rfl : entry = key := (List.mem_cons.mp member).resolve_right again
      rw [find_apply_of_not_mem, Dict.find_insert_self]
      intro other within same
      exact again (unique other (by simp [within]) same ▸ within)

theorem restoreFromChain_append {chain : List IncrementalBackup} {restored : Dict KeyId KeyEntry}
    (restores : restoreFromChain chain = .ok restored) (backup : IncrementalBackup) :
    restoreFromChain (chain ++ [backup]) = .ok (apply restored backup.keys) := by
  cases chain with
  | nil => cases restores
  | cons first later =>
    rw [restoreFromChain] at restores
    split_ifs at restores with notFull
    cases restores
    rw [List.cons_append, restoreFromChain, if_neg notFull, List.foldl_append]
    rfl

end IncrementalBackupManager

end Hsm.Backup

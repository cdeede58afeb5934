import Hsm.Validator.SlashingDb
import Mathlib.Data.List.Sort

/-! The Babylon EOTS database: at most one signature per key and block height. -/

namespace Hsm

inductive LogLevel where
  | error
  | info
  | debug
  deriving DecidableEq, Repr

/-- What a call finds outside the database. -/
structure EotsEnv extends Env where
  logs : LogLevel → Bool := fun _ => false

/-- How a call ends: it returns, or it panics. -/
inductive Outcome (α : Type) where
  | returned (result : α)
  | panicked
  deriving DecidableEq, Repr

/-- Log a line with eight bytes of the key; a shorter key panics. -/
def EotsEnv.logged {α : Type} (env : EotsEnv) (level : LogLevel) (publicKey : Bytes) (result : α) :
    Outcome α :=
  if env.logs level ∧ publicKey.length < 8 then .panicked else .returned result

structure EotsKeyData where
  publicKey : Bytes
  chainId : String
  createdAt : DateTime
  lastActivity : DateTime
  signatureCount : UInt64
  deriving DecidableEq

/-- Key data, and a timestamp per signed height. -/
structure EotsTrees where
  keys : Tree (Stored EotsKeyData)
  heights : Tree Bytes

def EotsTrees.empty : EotsTrees := ⟨.empty, .empty⟩

def EotsTrees.putKey (trees : EotsTrees) (publicKey : Bytes) (data : EotsKeyData) : EotsTrees :=
  { trees with keys := trees.keys.insert publicKey (.readable data) }

def EotsTrees.putHeight (trees : EotsTrees) (key timestamp : Bytes) : EotsTrees :=
  { trees with heights := trees.heights.insert key timestamp }

structure EotsSlashingDb where
  store : Durable EotsTrees

abbrev heightKey (publicKey : Bytes) (height : BlockHeight) : Bytes := recordKey publicKey height

def DateTime.timestampBytes (time : DateTime) : Bytes := leBytes 8 (time.seconds % 2 ^ 64).toNat

namespace EotsSlashingDb

def opened (trees : EotsTrees) : EotsSlashingDb := ⟨.opened trees⟩

def new : EotsSlashingDb := opened .empty

variable (db : EotsSlashingDb)

def reopen : EotsSlashingDb := ⟨db.store.crash⟩

/-- The trees as readers see them. -/
def trees : EotsTrees := db.store.live

def write (db : EotsSlashingDb) (change : EotsTrees → EotsTrees) : EotsSlashingDb :=
  ⟨db.store.write change⟩

def registerKey (env : EotsEnv) (publicKey : Bytes) (chainId : String) :
    EotsSlashingDb × Outcome (Except ValidatorError Unit) :=
  match env.io.getValidator with
  | some e => (db, .returned (.error (.database e)))
  | none =>
    if db.trees.keys.containsKey publicKey then
      (db, .returned (.error (.validatorAlreadyExists (hexEncode publicKey))))
    else
      match env.io.insertValidator with
      | some e => (db, .returned (.error (.database e)))
      | none =>
        let data : EotsKeyData := {
          publicKey, chainId
          createdAt := env.now
          lastActivity := env.now
          signatureCount := 0 }
        (db.write (·.putKey publicKey data), env.logged .info publicKey (.ok ()))

/-- Update key metadata; failures are ignored. -/
def touchKey (env : EotsEnv) (publicKey : Bytes) : EotsSlashingDb :=
  match env.io.getValidator, db.trees.keys.get publicKey with
  | none, some (.readable data) =>
    match env.io.insertValidator with
    | some _ => db
    | none =>
      db.write (·.putKey publicKey
        { data with lastActivity := env.now, signatureCount := data.signatureCount + 1 })
  | _, _ => db

def checkAndRecordHeight (env : EotsEnv) (publicKey : Bytes) (height : BlockHeight) :
    EotsSlashingDb × Outcome (Except SlashingError Unit) :=
  match env.io.getRecord with
  | some e =>
    -- A read error is not taken for an unsigned height.
    (db, env.logged .error publicKey
      (.error (.databaseError ("Failed to read EOTS height record: " ++ e))))
  | none =>
    if db.trees.heights.containsKey (heightKey publicKey height) then
      (db, env.logged .error publicKey (.error (.eotsDoubleSign height)))
    else
      match env.io.insertRecord with
      | some e =>
        (db, .returned (.error (.databaseError ("Failed to record EOTS height: " ++ e))))
      | none =>
        let recorded := db.write (·.putHeight (heightKey publicKey height) env.now.timestampBytes)
        match env.io.flush with
        | some e =>
          -- The record stays in memory, so a retry before the next restart is refused.
          (recorded, env.logged .error publicKey
            (.error (.databaseError ("Failed to flush EOTS height record: " ++ e))))
        | none =>
          (touchKey ⟨recorded.store.flush⟩ env publicKey, env.logged .debug publicKey (.ok ()))

def isHeightSigned (env : EotsEnv) (publicKey : Bytes) (height : BlockHeight) :
    Except ValidatorError Bool :=
  match env.io.getRecord with
  | some e => .error (.database e)
  | none => .ok (db.trees.heights.containsKey (heightKey publicKey height))

def heightOfKey (lead key : Bytes) : Option BlockHeight :=
  let heightBytes := key.drop lead.length
  if heightBytes.length = 8 then some (fromBeBytes heightBytes) else none

def readHeights (env : EotsEnv) (lead : Bytes) :
    Nat → List (Bytes × Bytes) → Except ValidatorError (List BlockHeight)
  | _, [] => .ok []
  | index, (key, _) :: rest =>
    match env.io.scanFault index with
    | some e => .error (.database e)
    | none => (readHeights env lead (index + 1) rest).map ((heightOfKey lead key).toList ++ ·)

def getSignedHeights (env : EotsEnv) (publicKey : Bytes) :
    Except ValidatorError (List BlockHeight) :=
  let lead := recordKeyPrefix publicKey
  (readHeights env lead 0 (db.trees.heights.scanPrefix lead)).map (·.insertionSort (· ≤ ·))

def flush (db : EotsSlashingDb) (env : EotsEnv) : EotsSlashingDb × Except ValidatorError Unit :=
  match env.io.flush with
  | some e => (db, .error (.database e))
  | none => (⟨db.store.flush⟩, .ok ())

end EotsSlashingDb

end Hsm

import Hsm.Lib.Durable
import Hsm.Validator.Types

/-! The slashing protection database: trees of validators, attestations and blocks over a sled store. -/

namespace Hsm

abbrev SledError := String

/-- Which store operations of a call fail. -/
structure SledFaults where
  getValidator : Option SledError := none
  getRecord : Option SledError := none
  scanItem : Option (Nat × SledError) := none
  insertRecord : Option SledError := none
  insertValidator : Option SledError := none
  flush : Option SledError := none
  deriving DecidableEq

def SledFaults.scanFault (io : SledFaults) (index : Nat) : Option SledError :=
  match io.scanItem with
  | some (failing, e) => if failing = index then some e else none
  | none => none

/-- The clock, and the store's failures. -/
structure Env where
  now : DateTime
  io : SledFaults := {}

def Env.Healthy (env : Env) : Prop := env.io = {}

instance (env : Env) : Decidable env.Healthy := inferInstanceAs (Decidable (_ = _))

inductive Stored (α : Type) where
  | readable (value : α)
  | unreadable (text : String)
  deriving DecidableEq

def Stored.decode {α : Type} : Stored α → Except String α
  | .readable value => .ok value
  | .unreadable text => .error text

structure ValidatorData where
  publicKey : Bytes
  size : publicKey.length = 48
  status : ValidatorStatus
  minSourceEpoch : Option Epoch
  minTargetEpoch : Option Epoch
  minSlot : Option Slot
  createdAt : DateTime
  updatedAt : DateTime
  deriving DecidableEq

structure AttestationData where
  sourceEpoch : Epoch
  targetEpoch : Epoch
  signingRoot : SigningRoot
  signedAt : DateTime
  deriving DecidableEq

structure BlockData where
  slot : Slot
  signingRoot : SigningRoot
  signedAt : DateTime
  deriving DecidableEq

/-- Every readable entry is under its own public key. -/
structure ValidatorTable where
  tree : Tree (Stored ValidatorData)
  keyed : ∀ key data, tree.get key = some (.readable data) → data.publicKey = key

namespace ValidatorTable

def empty : ValidatorTable := ⟨.empty, by simp⟩

def put (table : ValidatorTable) (data : ValidatorData) : ValidatorTable where
  tree := table.tree.insert data.publicKey (.readable data)
  keyed := by
    intro key stored found
    rw [Tree.get_insert] at found
    split at found
    · rename_i same
      cases found
      exact same
    · exact table.keyed key stored found

end ValidatorTable

structure Trees where
  validators : ValidatorTable
  attestations : Tree (Stored AttestationData)
  blocks : Tree (Stored BlockData)

def Trees.empty : Trees := ⟨.empty, .empty, .empty⟩

def Trees.putValidator (trees : Trees) (data : ValidatorData) : Trees :=
  { trees with validators := trees.validators.put data }

def Trees.putAttestation (trees : Trees) (key : Bytes) (data : AttestationData) : Trees :=
  { trees with attestations := trees.attestations.insert key (.readable data) }

def Trees.putBlock (trees : Trees) (key : Bytes) (data : BlockData) : Trees :=
  { trees with blocks := trees.blocks.insert key (.readable data) }

structure SlashingProtectionDb where
  store : Durable Trees
  stats : SlashingStats

def recordKeyPrefix (publicKey : Bytes) : Bytes := ownerPrefix publicKey 0x3a

def recordKey (publicKey : Bytes) (number : UInt64) : Bytes :=
  recordKeyPrefix publicKey ++ toBeBytes number

abbrev attestationKeyPrefix (publicKey : Bytes) : Bytes := recordKeyPrefix publicKey

abbrev attestationKey (publicKey : Bytes) (targetEpoch : Epoch) : Bytes :=
  recordKey publicKey targetEpoch

abbrev blockKeyPrefix (publicKey : Bytes) : Bytes := recordKeyPrefix publicKey

abbrev blockKey (publicKey : Bytes) (slot : Slot) : Bytes := recordKey publicKey slot

def Trees.getValidatorData (trees : Trees) (env : Env) (publicKey : Bytes) :
    Except ValidatorError ValidatorData :=
  match env.io.getValidator with
  | some e => .error (.database e)
  | none =>
    match trees.validators.tree.get publicKey with
    | none => .error (.validatorNotFound (hexEncode publicKey))
    | some encoded =>
      match encoded.decode with
      | .error text => .error (.serialization text)
      | .ok data => .ok data

structure Refusal where
  error : SlashingError
  counted : SlashingStats → SlashingStats := id

/-- An identical repeat, or a new record. -/
inductive Verdict where
  | repeated
  | fresh (validatorData : ValidatorData)

def SlashingStats.prevented (stats : SlashingStats) : SlashingStats :=
  { stats with slashablePrevented := stats.slashablePrevented + 1 }

def requireMinimum (minimum : Option UInt64) (tooLow : UInt64 → Bool)
    (refused : UInt64 → SlashingError) : Except Refusal Unit :=
  match minimum with
  | some bound => if tooLow bound then .error ⟨refused bound, .prevented⟩ else .ok ()
  | none => .ok ()

def scanAttestations (env : Env) (sourceEpoch targetEpoch : Epoch) :
    Nat → List (Bytes × Stored AttestationData) → Except Refusal Unit
  | _, [] => .ok ()
  | index, (_, value) :: rest =>
    match env.io.scanFault index with
    | some _ => .error { error := .surroundingVote sourceEpoch targetEpoch 0 0 }
    | none =>
      match value.decode with
      | .error _ => .error { error := .surroundingVote sourceEpoch targetEpoch 0 0 }
      | .ok existing =>
        -- Surrounding vote: new.source < existing.source AND new.target > existing.target
        if sourceEpoch < existing.sourceEpoch ∧ targetEpoch > existing.targetEpoch then
          .error ⟨.surroundingVote sourceEpoch targetEpoch existing.sourceEpoch existing.targetEpoch,
            fun stats => { stats.prevented with
              surroundingVotesPrevented := stats.surroundingVotesPrevented + 1 }⟩
        -- Surrounded vote: new.source > existing.source AND new.target < existing.target
        else if sourceEpoch > existing.sourceEpoch ∧ targetEpoch < existing.targetEpoch then
          .error ⟨.surroundedVote sourceEpoch targetEpoch existing.sourceEpoch existing.targetEpoch,
            fun stats => { stats.prevented with
              surroundedVotesPrevented := stats.surroundedVotesPrevented + 1 }⟩
        else scanAttestations env sourceEpoch targetEpoch (index + 1) rest

def Trees.checkAttestation (trees : Trees) (env : Env) (publicKey : Bytes)
    (sourceEpoch targetEpoch : Epoch) (signingRoot : SigningRoot) : Except Refusal Verdict :=
  match trees.getValidatorData env publicKey with
  | .error _ => .error { error := .sourceEpochTooLow sourceEpoch 0 }
  | .ok validatorData =>
    -- The record at this exact target epoch is read before the minimum checks.
    match env.io.getRecord with
    | some e =>
      .error ⟨.databaseError ("Failed to read attestation record: " ++ e), .prevented⟩
    | none =>
      match trees.attestations.get (attestationKey publicKey targetEpoch) with
      | some existing =>
        match existing.decode with
        | .error _ => .error { error := .doubleVote targetEpoch "unknown" signingRoot.toHex }
        | .ok existingData =>
          if existingData.signingRoot ≠ signingRoot then
            .error ⟨.doubleVote targetEpoch (hexEncode existingData.signingRoot.bytes)
                signingRoot.toHex,
              fun stats => { stats.prevented with
                doubleVotesPrevented := stats.doubleVotesPrevented + 1 }⟩
          else .ok .repeated
      | none => do
        -- Only the target boundary refuses equality: the source legitimately repeats.
        requireMinimum validatorData.minSourceEpoch (fun bound => sourceEpoch < bound)
          (.sourceEpochTooLow sourceEpoch)
        requireMinimum validatorData.minTargetEpoch (fun bound => targetEpoch ≤ bound)
          (.targetEpochTooLow targetEpoch)
        scanAttestations env sourceEpoch targetEpoch 0
          (trees.attestations.scanPrefix (attestationKeyPrefix publicKey))
        .ok (.fresh validatorData)

def Trees.checkBlock (trees : Trees) (env : Env) (publicKey : Bytes) (slot : Slot)
    (signingRoot : SigningRoot) : Except Refusal Verdict :=
  match trees.getValidatorData env publicKey with
  | .error _ => .error { error := .slotTooLow slot 0 }
  | .ok validatorData =>
    match env.io.getRecord with
    | some e => .error ⟨.databaseError ("Failed to read block record: " ++ e), .prevented⟩
    | none =>
      match trees.blocks.get (blockKey publicKey slot) with
      | some existing =>
        match existing.decode with
        | .error _ => .error { error := .doubleBlockProposal slot "unknown" signingRoot.toHex }
        | .ok existingData =>
          if existingData.signingRoot ≠ signingRoot then
            .error ⟨.doubleBlockProposal slot (hexEncode existingData.signingRoot.bytes)
                signingRoot.toHex,
              fun stats => { stats.prevented with
                doubleBlocksPrevented := stats.doubleBlocksPrevented + 1 }⟩
          else .ok .repeated
      | none => do
        requireMinimum validatorData.minSlot (fun bound => slot ≤ bound) (.slotTooLow slot)
        .ok (.fresh validatorData)

namespace SlashingProtectionDb

def opened (trees : Trees) : SlashingProtectionDb := ⟨.opened trees, {}⟩

def new : SlashingProtectionDb := opened .empty

variable (db : SlashingProtectionDb)

def reopen : SlashingProtectionDb := ⟨db.store.crash, {}⟩

/-- The trees as readers see them. -/
def trees : Trees := db.store.live

def write (db : SlashingProtectionDb) (change : Trees → Trees) : SlashingProtectionDb :=
  { db with store := db.store.write change }

def updateValidatorData (env : Env) (data : ValidatorData) :
    SlashingProtectionDb × Except ValidatorError Unit :=
  match env.io.insertValidator with
  | some e => (db, .error (.database e))
  | none => (db.write (·.putValidator data), .ok ())

def registerValidator (env : Env) (publicKey : Bytes) :
    SlashingProtectionDb × Except ValidatorError Unit :=
  if size : publicKey.length = 48 then
    match env.io.getValidator with
    | some e => (db, .error (.database e))
    | none =>
      if db.trees.validators.tree.containsKey publicKey then
        (db, .error (.validatorAlreadyExists (hexEncode publicKey)))
      else
        db.updateValidatorData env {
          publicKey, size
          status := .active
          minSourceEpoch := none
          minTargetEpoch := none
          minSlot := none
          createdAt := env.now
          updatedAt := env.now }
  else
    (db, .error (.invalidPublicKey ("Expected 48 bytes, got " ++ toString publicKey.length)))

def isRegistered (env : Env) (publicKey : Bytes) :
    Except ValidatorError Bool :=
  match env.io.getValidator with
  | some e => .error (.database e)
  | none => .ok (db.trees.validators.tree.containsKey publicKey)

def getValidatorSummary (env : Env) (publicKey : Bytes) :
    Except ValidatorError ValidatorSummary := do
  let data ← db.trees.getValidatorData env publicKey
  let attestations := db.trees.attestations.scanPrefix (attestationKeyPrefix publicKey)
  let blocks := db.trees.blocks.scanPrefix (blockKeyPrefix publicKey)
  return {
    publicKey := ⟨data.publicKey⟩
    status := data.status
    minSourceEpoch := data.minSourceEpoch
    minTargetEpoch := data.minTargetEpoch
    minSlot := data.minSlot
    attestationCount := UInt64.ofNat attestations.length
    blockCount := UInt64.ofNat blocks.length
    lastActivity := some data.updatedAt }

def persistRecord (env : Env) (validatorData : ValidatorData) (insert : Trees → Trees)
    (insertError : SlashingError) (record : String) (signed : SlashingStats → SlashingStats) :
    SlashingProtectionDb × Except SlashingError Unit :=
  match env.io.insertRecord with
  | some _ => (db, .error insertError)
  | none =>
    match (db.write insert).updateValidatorData env { validatorData with updatedAt := env.now } with
    | (db, .error e) =>
      (db, .error (.databaseError ("Failed to persist validator data: " ++ e.display)))
    | (db, .ok ()) =>
      match env.io.flush with
      | some e => (db, .error (.databaseError ("Failed to flush " ++ record ++ " record: " ++ e)))
      | none => (⟨db.store.flush, signed db.stats⟩, .ok ())

def checkAndRecordAttestation (env : Env) (publicKey : Bytes) (sourceEpoch targetEpoch : Epoch)
    (signingRoot : SigningRoot) :
    SlashingProtectionDb × Except SlashingError Unit :=
  match db.trees.checkAttestation env publicKey sourceEpoch targetEpoch signingRoot with
  | .error refusal => ({ db with stats := refusal.counted db.stats }, .error refusal.error)
  | .ok .repeated => (db, .ok ())
  | .ok (.fresh validatorData) =>
    db.persistRecord env validatorData
      (·.putAttestation (attestationKey publicKey targetEpoch)
        ⟨sourceEpoch, targetEpoch, signingRoot, env.now⟩)
      (.doubleVote targetEpoch "database error" signingRoot.toHex) "attestation"
      fun stats => { stats with attestationsSigned := stats.attestationsSigned + 1 }

def checkAndRecordBlock (env : Env) (publicKey : Bytes) (slot : Slot) (signingRoot : SigningRoot) :
    SlashingProtectionDb × Except SlashingError Unit :=
  match db.trees.checkBlock env publicKey slot signingRoot with
  | .error refusal => ({ db with stats := refusal.counted db.stats }, .error refusal.error)
  | .ok .repeated => (db, .ok ())
  | .ok (.fresh validatorData) =>
    db.persistRecord env validatorData
      (·.putBlock (blockKey publicKey slot) ⟨slot, signingRoot, env.now⟩)
      (.doubleBlockProposal slot "database error" signingRoot.toHex) "block"
      fun stats => { stats with blocksSigned := stats.blocksSigned + 1 }

def readRecords {α β : Type} (env : Env) (toRecord : α → β) :
    Nat → List (Bytes × Stored α) → Except ValidatorError (List β)
  | _, [] => .ok []
  | index, (_, value) :: rest =>
    match env.io.scanFault index with
    | some e => .error (.database e)
    | none =>
      match value.decode with
      | .error text => .error (.serialization text)
      | .ok data => (readRecords env toRecord (index + 1) rest).map (toRecord data :: ·)

def getAttestationRecords (env : Env) (publicKey : Bytes) :
    Except ValidatorError (List AttestationRecord) :=
  readRecords env
    (fun data : AttestationData => ⟨data.sourceEpoch, data.targetEpoch, data.signingRoot, data.signedAt⟩)
    0 (db.trees.attestations.scanPrefix (attestationKeyPrefix publicKey))

def getBlockRecords (env : Env) (publicKey : Bytes) :
    Except ValidatorError (List BlockRecord) :=
  readRecords env (fun data : BlockData => ⟨data.slot, data.signingRoot, data.signedAt⟩)
    0 (db.trees.blocks.scanPrefix (blockKeyPrefix publicKey))

def updateMinimum (env : Env) (publicKey : Bytes) (change : ValidatorData → ValidatorData) :
    SlashingProtectionDb × Except ValidatorError Unit :=
  match db.trees.getValidatorData env publicKey with
  | .error e => (db, .error e)
  | .ok data => db.updateValidatorData env { change data with updatedAt := env.now }

def setMinSourceEpoch (env : Env) (publicKey : Bytes) (epoch : Epoch) :
    SlashingProtectionDb × Except ValidatorError Unit :=
  db.updateMinimum env publicKey fun data => { data with minSourceEpoch := some epoch }

def setMinTargetEpoch (env : Env) (publicKey : Bytes) (epoch : Epoch) :
    SlashingProtectionDb × Except ValidatorError Unit :=
  db.updateMinimum env publicKey fun data => { data with minTargetEpoch := some epoch }

def setMinSlot (env : Env) (publicKey : Bytes) (slot : Slot) :
    SlashingProtectionDb × Except ValidatorError Unit :=
  db.updateMinimum env publicKey fun data => { data with minSlot := some slot }

def readKeys {α : Type} (env : Env) :
    Nat → List (Bytes × α) → Except ValidatorError (List BlsPublicKey)
  | _, [] => .ok []
  | index, (key, _) :: rest =>
    match env.io.scanFault index with
    | some e => .error (.database e)
    | none => (readKeys env (index + 1) rest).map (⟨key⟩ :: ·)

def listValidators (env : Env) :
    Except ValidatorError (List BlsPublicKey) :=
  readKeys env 0 db.trees.validators.tree.iter

def flush (db : SlashingProtectionDb) (env : Env) :
    SlashingProtectionDb × Except ValidatorError Unit :=
  match env.io.flush with
  | some e => (db, .error (.database e))
  | none => ({ db with store := db.store.flush }, .ok ())

end SlashingProtectionDb

end Hsm

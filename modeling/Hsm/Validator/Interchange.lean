import Hsm.Validator.SlashingDb

/-! The EIP-3076 interchange format: export from and import into the slashing protection database. -/

namespace Hsm

def interchangeFormatVersion : String := "5"

structure InterchangeMetadata where
  interchangeFormatVersion : String
  genesisValidatorsRoot : String
  deriving DecidableEq, Repr

structure SignedBlock where
  slot : String
  signingRoot : Option String
  deriving DecidableEq, Repr

structure SignedAttestation where
  sourceEpoch : String
  targetEpoch : String
  signingRoot : Option String
  deriving DecidableEq, Repr

structure InterchangeData where
  pubkey : String
  signedBlocks : List SignedBlock
  signedAttestations : List SignedAttestation
  deriving DecidableEq, Repr

structure Eip3076Interchange where
  metadata : InterchangeMetadata
  data : List InterchangeData
  deriving DecidableEq, Repr

structure ImportResult where
  validatorsImported : UInt64 := 0
  attestationsImported : UInt64 := 0
  attestationsSkipped : UInt64 := 0
  blocksImported : UInt64 := 0
  blocksSkipped : UInt64 := 0
  deriving DecidableEq, Repr

def stripHexMarker (hex : String) : String := (stripPrefix "0x" hex).getD hex

def parseHexPubkey (hex : String) : Except ValidatorError Bytes :=
  match hexDecode (stripHexMarker hex) with
  | .error e => .error (.invalidInterchange ("Invalid public key hex: " ++ e.display))
  | .ok bytes => .ok bytes

def parseSigningRoot (hex : String) : Except ValidatorError SigningRoot :=
  match hexDecode (stripHexMarker hex) with
  | .error e => .error (.invalidInterchange ("Invalid signing root hex: " ++ e.display))
  | .ok bytes =>
    match SigningRoot.fromSlice bytes with
    | some root => .ok root
    | none => .error (.invalidInterchange
        ("Signing root must be 32 bytes, got " ++ toString bytes.length))

def entryRoot : Option String → Except ValidatorError SigningRoot
  | some root => parseSigningRoot root
  | none => .ok (.filled 0)

def parseField (what text : String) : Except ValidatorError UInt64 :=
  match parseU64 text with
  | some value => .ok value
  | none => .error (.invalidInterchange ("Invalid " ++ what ++ ": " ++ text))

/-- A vote, requested or listed in a file. -/
structure Vote where
  source : Epoch
  target : Epoch
  root : SigningRoot
  deriving DecidableEq, Repr

/-- A block proposal, requested or listed in a file. -/
structure Proposal where
  slot : Slot
  root : SigningRoot
  deriving DecidableEq, Repr

def AttestationData.vote (data : AttestationData) : Vote :=
  ⟨data.sourceEpoch, data.targetEpoch, data.signingRoot⟩

def SignedAttestation.parse (attestation : SignedAttestation) : Except ValidatorError Vote := do
  let source ← parseField "source epoch" attestation.sourceEpoch
  let target ← parseField "target epoch" attestation.targetEpoch
  let root ← entryRoot attestation.signingRoot
  return ⟨source, target, root⟩

def SignedBlock.parse (block : SignedBlock) : Except ValidatorError Proposal := do
  let slot ← parseField "slot" block.slot
  let root ← entryRoot block.signingRoot
  return ⟨slot, root⟩

def raise (maximum : Option UInt64) (value : UInt64) : Option UInt64 :=
  some (match maximum with
    | some m => max m value
    | none => value)

/-- An attestation request, and whether it was granted. -/
structure VoteCall where
  publicKey : Bytes
  vote : Vote
  granted : Bool
  deriving DecidableEq

/-- An import under way, with the conditions and a record of its calls. -/
structure ImportState where
  db : SlashingProtectionDb
  result : ImportResult := {}
  calls : Nat := 0
  votes : List VoteCall := []

def importAttestation (envs : Nat → Env) (publicKey : Bytes)
    (maxima : Option Epoch × Option Epoch) (state : ImportState) (attestation : SignedAttestation) :
    ImportState × Except ValidatorError (Option Epoch × Option Epoch) :=
  match attestation.parse with
  | .error e => (state, .error e)
  | .ok vote =>
    let outcome := state.db.checkAndRecordAttestation (envs state.calls) publicKey
      vote.source vote.target vote.root
    let granted := outcome.2.isOk
    let result := if granted then
        { state.result with attestationsImported := state.result.attestationsImported + 1 }
      else
        { state.result with attestationsSkipped := state.result.attestationsSkipped + 1 }
    let votes := state.votes ++ [⟨publicKey, vote, granted⟩]
    ({ db := outcome.1, result, calls := state.calls + 1, votes },
      .ok (raise maxima.1 vote.source, raise maxima.2 vote.target))

def importAttestations (envs : Nat → Env) (publicKey : Bytes) :
    Option Epoch × Option Epoch → ImportState → List SignedAttestation →
      ImportState × Except ValidatorError (Option Epoch × Option Epoch)
  | maxima, state, [] => (state, .ok maxima)
  | maxima, state, attestation :: rest =>
    match importAttestation envs publicKey maxima state attestation with
    | (state, .error e) => (state, .error e)
    | (state, .ok maxima) => importAttestations envs publicKey maxima state rest

def importBlock (envs : Nat → Env) (publicKey : Bytes) (maxSlot : Option Slot)
    (state : ImportState) (block : SignedBlock) :
    ImportState × Except ValidatorError (Option Slot) :=
  match block.parse with
  | .error e => (state, .error e)
  | .ok proposal =>
    let outcome := state.db.checkAndRecordBlock (envs state.calls) publicKey
      proposal.slot proposal.root
    let result := if outcome.2.isOk then
        { state.result with blocksImported := state.result.blocksImported + 1 }
      else
        { state.result with blocksSkipped := state.result.blocksSkipped + 1 }
    ({ state with db := outcome.1, result, calls := state.calls + 1 },
      .ok (raise maxSlot proposal.slot))

def importBlocks (envs : Nat → Env) (publicKey : Bytes) :
    Option Slot → ImportState → List SignedBlock → ImportState × Except ValidatorError (Option Slot)
  | maxSlot, state, [] => (state, .ok maxSlot)
  | maxSlot, state, block :: rest =>
    match importBlock envs publicKey maxSlot state block with
    | (state, .error e) => (state, .error e)
    | (state, .ok maxSlot) => importBlocks envs publicKey maxSlot state rest

def importRegistration (envs : Nat → Env) (publicKey : Bytes) (state : ImportState) :
    ImportState × Except ValidatorError Unit :=
  match state.db.isRegistered (envs state.calls) publicKey with
  | .error e => ({ state with calls := state.calls + 1 }, .error e)
  | .ok true => ({ state with calls := state.calls + 1 }, .ok ())
  | .ok false =>
    match state.db.registerValidator (envs (state.calls + 1)) publicKey with
    | (db, .error e) => ({ state with db := db, calls := state.calls + 2 }, .error e)
    | (db, .ok ()) =>
      let result := { state.result with
        validatorsImported := state.result.validatorsImported + 1 }
      ({ state with db := db, result := result, calls := state.calls + 2 }, .ok ())

def importMinimum (envs : Nat → Env)
    (set : SlashingProtectionDb → Env → UInt64 → SlashingProtectionDb × Except ValidatorError Unit)
    (maximum : Option UInt64) (state : ImportState) : ImportState × Except ValidatorError Unit :=
  match maximum with
  | none => (state, .ok ())
  | some minimum =>
    let outcome := set state.db (envs state.calls) minimum
    ({ state with db := outcome.1, calls := state.calls + 1 }, outcome.2)

def ImportState.andThen {α β : Type} (stage : ImportState × Except ValidatorError α)
    (next : ImportState → α → ImportState × Except ValidatorError β) :
    ImportState × Except ValidatorError β :=
  match stage with
  | (state, .error e) => (state, .error e)
  | (state, .ok value) => next state value

def importValidator (envs : Nat → Env) (state : ImportState) (validatorData : InterchangeData) :
    ImportState × Except ValidatorError Unit :=
  match parseHexPubkey validatorData.pubkey with
  | .error e => (state, .error e)
  | .ok publicKey =>
    ImportState.andThen (importRegistration envs publicKey state) fun state _ =>
    ImportState.andThen (importAttestations envs publicKey (none, none) state
      validatorData.signedAttestations) fun state maxima =>
    -- Set minimum epochs (ensures we don't sign anything before imported data)
    ImportState.andThen (importMinimum envs (·.setMinSourceEpoch · publicKey) maxima.1 state)
      fun state _ =>
    ImportState.andThen (importMinimum envs (·.setMinTargetEpoch · publicKey) maxima.2 state)
      fun state _ =>
    ImportState.andThen (importBlocks envs publicKey none state validatorData.signedBlocks)
      fun state maxSlot =>
    importMinimum envs (·.setMinSlot · publicKey) maxSlot state

def importValidators (envs : Nat → Env) :
    ImportState → List InterchangeData → ImportState × Except ValidatorError Unit
  | state, [] => (state, .ok ())
  | state, validatorData :: rest =>
    ImportState.andThen (importValidator envs state validatorData) fun state _ =>
    importValidators envs state rest

namespace Eip3076Interchange

def new (genesisValidatorsRoot : String) : Eip3076Interchange :=
  ⟨⟨Hsm.interchangeFormatVersion, genesisValidatorsRoot⟩, []⟩

def exportValidator (db : SlashingProtectionDb) (env : Env) (publicKey : BlsPublicKey) :
    Except ValidatorError InterchangeData := do
  let attestations ← db.getAttestationRecords env publicKey.bytes
  let blocks ← db.getBlockRecords env publicKey.bytes
  return {
    pubkey := publicKey.toHex
    signedBlocks := blocks.map fun b => ⟨u64ToString b.slot, some b.signingRoot.toHex⟩
    signedAttestations := attestations.map fun a =>
      ⟨u64ToString a.sourceEpoch, u64ToString a.targetEpoch, some a.signingRoot.toHex⟩ }

def «export» (db : SlashingProtectionDb) (env : Env) (genesisValidatorsRoot : String)
    (publicKeys : Option (List BlsPublicKey)) : Except ValidatorError Eip3076Interchange := do
  let validators ← match publicKeys with
    | some keys => .ok keys
    | none => db.listValidators env
  let data ← validators.mapM (exportValidator db env)
  return { new genesisValidatorsRoot with data }

def importRun (file : Eip3076Interchange) (envs : Nat → Env) (db : SlashingProtectionDb) :
    ImportState × Except ValidatorError Unit :=
  importValidators envs { db } file.data

def «import» (file : Eip3076Interchange) (envs : Nat → Env) (db : SlashingProtectionDb) :
    SlashingProtectionDb × Except ValidatorError ImportResult :=
  let run := file.importRun envs db
  (run.1.db, run.2.map fun _ => run.1.result)

end Eip3076Interchange

end Hsm

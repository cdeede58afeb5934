import Hsm.Lib.Sha256
import Hsm.Validator.SlashingDb
import Mathlib.Data.Vector.Defs

/-! The duties of an Ethereum validator: what each one signs, and which the database checks. -/

namespace Hsm.Ethereum

inductive DomainType where
  | beaconProposer | beaconAttester | randao | deposit | voluntaryExit | selectionProof
  | aggregateAndProof | syncCommittee | syncCommitteeSelectionProof | contributionAndProof
  | blsToExecutionChange | applicationBuilder
  deriving DecidableEq, Repr

def DomainType.toBytes (domainType : DomainType) : Bytes := leBytes 4 domainType.ctorIdx

abbrev Root := List.Vector UInt8 32

structure ForkInfo where
  forkVersion : List.Vector UInt8 4
  genesisValidatorsRoot : Root
  deriving DecidableEq

def ForkInfo.computeDomain (fork : ForkInfo) (domainType : DomainType) : Bytes :=
  let forkData :=
    fork.forkVersion.toList ++ List.replicate 28 0 ++ fork.genesisValidatorsRoot.toList
  domainType.toBytes ++ (sha256 forkData).take 28

structure Checkpoint where
  epoch : Epoch
  root : Root
  deriving DecidableEq

structure AttestationData where
  slot : Slot
  index : UInt64
  beaconBlockRoot : Root
  source : Checkpoint
  target : Checkpoint
  deriving DecidableEq

def AttestationData.fields (data : AttestationData) : List Bytes :=
  [toLeBytes data.slot, toLeBytes data.index, data.beaconBlockRoot.toList,
    toLeBytes data.source.epoch, data.source.root.toList,
    toLeBytes data.target.epoch, data.target.root.toList]

structure BeaconBlockHeader where
  slot : Slot
  proposerIndex : UInt64
  parentRoot : Root
  stateRoot : Root
  bodyRoot : Root
  deriving DecidableEq

def BeaconBlockHeader.fields (header : BeaconBlockHeader) : List Bytes :=
  [toLeBytes header.slot, toLeBytes header.proposerIndex, header.parentRoot.toList,
    header.stateRoot.toList, header.bodyRoot.toList]

/-- What a validator can be asked to sign. -/
inductive SigningRequest where
  | attestation (data : AttestationData)
  | block (header : BeaconBlockHeader)
  | randao (epoch : Epoch)
  | voluntaryExit (epoch : Epoch) (validatorIndex : UInt64)
  | syncCommittee (slot : Slot) (beaconBlockRoot : Root)
  | selectionProof (slot : Slot)
  | syncCommitteeSelectionProof (slot : Slot) (subcommitteeIndex : UInt64)
  deriving DecidableEq

namespace SigningRequest

def domainType : SigningRequest → DomainType
  | .attestation _ => .beaconAttester
  | .block _ => .beaconProposer
  | .randao _ => .randao
  | .voluntaryExit .. => .voluntaryExit
  | .syncCommittee .. => .syncCommittee
  | .selectionProof _ => .selectionProof
  | .syncCommitteeSelectionProof .. => .syncCommitteeSelectionProof

def dataRoot : SigningRequest → Bytes
  | .attestation data => sha256 data.fields.flatten
  | .block header => sha256 header.fields.flatten
  | .randao epoch => sha256 (toLeBytes epoch)
  | .voluntaryExit epoch validatorIndex => sha256 (toLeBytes epoch ++ toLeBytes validatorIndex)
  -- The block root is signed as it is, and the slot not at all.
  | .syncCommittee _ beaconBlockRoot => beaconBlockRoot.toList
  | .selectionProof slot => sha256 (toLeBytes slot)
  | .syncCommitteeSelectionProof slot index => sha256 (toLeBytes slot ++ toLeBytes index)

end SigningRequest

structure EthereumValidator (κ : Type) where
  publicKey : BlsPublicKey
  secretKey : κ
  forkInfo : ForkInfo
  deriving DecidableEq

def eth2Dst : Bytes := "BLS_SIG_BLS12381G2_XMD:SHA-256_SSWU_RO_POP_".toUTF8.toList

namespace EthereumValidator

-- BLS signing, of a message under a secret key and a domain separation tag.
variable {κ : Type} (sign : κ → Bytes → Bytes → Bytes) (validator : EthereumValidator κ)

/-- The data root and the domain, before they are hashed. -/
def signingInput (request : SigningRequest) : Bytes :=
  request.dataRoot ++ validator.forkInfo.computeDomain request.domainType

def signingRoot (request : SigningRequest) : SigningRoot :=
  ⟨sha256 (validator.signingInput request), sha256_length _⟩

def signRoot (request : SigningRequest) : Bytes :=
  sign validator.secretKey (validator.signingRoot request).bytes eth2Dst

/-- The attestation is checked and recorded before it is signed. -/
def signAttestation (db : SlashingProtectionDb) (env : Env) (attestation : AttestationData) :
    SlashingProtectionDb × Except SlashingError Bytes :=
  let signingRoot := validator.signingRoot (.attestation attestation)
  let checked := db.checkAndRecordAttestation env validator.publicKey.bytes
    attestation.source.epoch attestation.target.epoch signingRoot
  checked.map id (·.map fun _ => validator.signRoot sign (.attestation attestation))

def signBlock (db : SlashingProtectionDb) (env : Env) (block : BeaconBlockHeader) :
    SlashingProtectionDb × Except SlashingError Bytes :=
  let checked := db.checkAndRecordBlock env validator.publicKey.bytes block.slot
    (validator.signingRoot (.block block))
  checked.map id (·.map fun _ => validator.signRoot sign (.block block))

def signRandao (epoch : Epoch) : Bytes := validator.signRoot sign (.randao epoch)

def signVoluntaryExit (epoch : Epoch) (validatorIndex : UInt64) : Bytes :=
  validator.signRoot sign (.voluntaryExit epoch validatorIndex)

def signSyncCommittee (slot : Slot) (beaconBlockRoot : Root) : Bytes :=
  validator.signRoot sign (.syncCommittee slot beaconBlockRoot)

def signSelectionProof (slot : Slot) : Bytes := validator.signRoot sign (.selectionProof slot)

def signSyncCommitteeSelectionProof (slot : Slot) (subcommitteeIndex : UInt64) : Bytes :=
  validator.signRoot sign (.syncCommitteeSelectionProof slot subcommitteeIndex)

def perform (db : SlashingProtectionDb) (env : Env) :
    SigningRequest → SlashingProtectionDb × Except SlashingError Bytes
  | .attestation data => validator.signAttestation sign db env data
  | .block header => validator.signBlock sign db env header
  | .randao epoch => (db, .ok (validator.signRandao sign epoch))
  | .voluntaryExit epoch index => (db, .ok (validator.signVoluntaryExit sign epoch index))
  | .syncCommittee slot root => (db, .ok (validator.signSyncCommittee sign slot root))
  | .selectionProof slot => (db, .ok (validator.signSelectionProof sign slot))
  | .syncCommitteeSelectionProof slot index =>
    (db, .ok (validator.signSyncCommitteeSelectionProof sign slot index))

end EthereumValidator

end Hsm.Ethereum

import Hsm.Lib.Text
import Hsm.Lib.Time

/-! Core types of the validator: signing roots, public keys, records, and errors. -/

namespace Hsm

abbrev Epoch := UInt64

abbrev Slot := UInt64

abbrev BlockHeight := UInt64

structure SigningRoot where
  bytes : Bytes
  size : bytes.length = 32
  deriving DecidableEq, Repr

namespace SigningRoot

def filled (byte : UInt8) : SigningRoot := ⟨List.replicate 32 byte, by simp⟩

def fromSlice (slice : Bytes) : Option SigningRoot :=
  if size : slice.length = 32 then some ⟨slice, size⟩ else none

def toHex (root : SigningRoot) : String := "0x" ++ hexEncode root.bytes

@[simp] theorem fromSlice_bytes (root : SigningRoot) : fromSlice root.bytes = some root := by
  simp [fromSlice, root.size]

end SigningRoot

structure BlsPublicKey where
  bytes : Bytes
  deriving DecidableEq, Repr

def BlsPublicKey.toHex (key : BlsPublicKey) : String := "0x" ++ hexEncode key.bytes

inductive ValidatorStatus where
  | active
  | disabled
  | slashed
  | exiting
  | exited
  deriving DecidableEq, Repr

structure AttestationRecord where
  sourceEpoch : Epoch
  targetEpoch : Epoch
  signingRoot : SigningRoot
  signedAt : DateTime
  deriving DecidableEq, Repr

structure BlockRecord where
  slot : Slot
  signingRoot : SigningRoot
  signedAt : DateTime
  deriving DecidableEq, Repr

structure ValidatorSummary where
  publicKey : BlsPublicKey
  status : ValidatorStatus
  minSourceEpoch : Option Epoch
  minTargetEpoch : Option Epoch
  minSlot : Option Slot
  attestationCount : UInt64
  blockCount : UInt64
  lastActivity : Option DateTime
  deriving DecidableEq, Repr

structure SlashingStats where
  attestationsSigned : UInt64 := 0
  blocksSigned : UInt64 := 0
  slashablePrevented : UInt64 := 0
  doubleVotesPrevented : UInt64 := 0
  surroundingVotesPrevented : UInt64 := 0
  surroundedVotesPrevented : UInt64 := 0
  doubleBlocksPrevented : UInt64 := 0
  deriving DecidableEq, Repr

inductive SlashingError where
  | doubleVote (targetEpoch : Epoch) (existingRoot attemptedRoot : String)
  | surroundingVote (newSource newTarget existingSource existingTarget : Epoch)
  | surroundedVote (newSource newTarget existingSource existingTarget : Epoch)
  | doubleBlockProposal (slot : Slot) (existingRoot attemptedRoot : String)
  | eotsDoubleSign (height : BlockHeight)
  | sourceEpochTooLow (sourceEpoch minSourceEpoch : Epoch)
  | targetEpochTooLow (targetEpoch minTargetEpoch : Epoch)
  | slotTooLow (slot minSlot : Slot)
  | databaseError (text : String)
  deriving DecidableEq, Repr

inductive ValidatorError where
  | validatorNotFound (publicKey : String)
  | validatorAlreadyExists (publicKey : String)
  | invalidPublicKey (reason : String)
  | database (text : String)
  | serialization (text : String)
  | invalidInterchange (reason : String)
  deriving DecidableEq, Repr

def ValidatorError.display : ValidatorError → String
  | .validatorNotFound publicKey => "Validator not found: " ++ publicKey
  | .validatorAlreadyExists publicKey => "Validator already registered: " ++ publicKey
  | .invalidPublicKey reason => "Invalid public key: " ++ reason
  | .database text => "Database error: " ++ text
  | .serialization text => "Serialization error: " ++ text
  | .invalidInterchange reason => "Invalid EIP-3076 interchange format: " ++ reason

def Surrounds (source target otherSource otherTarget : Epoch) : Prop :=
  source < otherSource ∧ otherTarget < target

instance (source target otherSource otherTarget : Epoch) :
    Decidable (Surrounds source target otherSource otherTarget) :=
  inferInstanceAs (Decidable (_ ∧ _))

end Hsm

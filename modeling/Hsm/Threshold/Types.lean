import Hsm.Lib.Bytes

/-! Participants, configurations and errors of threshold cryptography. -/

namespace Hsm.Threshold

inductive ThresholdScheme where
  | frostEd25519
  | thresholdEcdsaP256
  | thresholdEcdsaSecp256k1
  | thresholdBls12381
  deriving DecidableEq, Repr

namespace ThresholdScheme

def isFipsApproved : ThresholdScheme → Bool
  | .frostEd25519 => true
  | .thresholdEcdsaP256 => true
  | _ => false

def display : ThresholdScheme → String
  | .frostEd25519 => "FROST-Ed25519"
  | .thresholdEcdsaP256 => "Threshold-ECDSA-P256"
  | .thresholdEcdsaSecp256k1 => "Threshold-ECDSA-secp256k1"
  | .thresholdBls12381 => "Threshold-BLS12-381"

def identityPoint : ThresholdScheme → Bytes
  | .frostEd25519 => 1 :: List.replicate 31 0
  | .thresholdEcdsaP256 => [0]
  | .thresholdEcdsaSecp256k1 => [0]
  | .thresholdBls12381 => 0xc0 :: List.replicate 47 0

end ThresholdScheme

structure ParticipantId where
  value : UInt16
  deriving DecidableEq, Repr

def ParticipantId.display (id : ParticipantId) : String :=
  "Participant(" ++ toString id.value.toNat ++ ")"

inductive ThresholdError where
  | invalidThreshold (reason : String)
  | invalidParticipant (reason : String)
  | dkgFailed (round : Nat) (reason : String)
  | serializationError (reason : String)
  | keyRefreshFailed (reason : String)
  | keyRefreshInvalidCommitment (id : ParticipantId)
  | keyRefreshMissingCommitments
  | keyRefreshInvalidShare (id : ParticipantId)
  | resharingFailed (reason : String)
  | resharingInsufficientShares (required provided : Nat)
  | resharingInvalidShare (id : ParticipantId)
  | insufficientParticipants (required provided : Nat)
  | fipsNotApproved (reason : String)
  | invalidCommitment (id : ParticipantId)
  | invalidSignatureShare (id : ParticipantId)
  | invalidKeyShare
  | invalidPublicKey
  | invalidSignature
  | dkgInvalidState
  | dkgMissingCommitments (id : ParticipantId)
  | dkgInvalidShare (id : ParticipantId)
  | cryptoError (reason : String)
  | aggregationFailed (reason : String)
  | signingFailed (reason : String)
  | sessionError (reason : String)
  deriving DecidableEq, Repr

/-- With an error, or by a panic. -/
inductive Failure where
  | error (error : ThresholdError)
  | panic
  deriving DecidableEq, Repr

abbrev Outcome := Except Failure

def Outcome.fail {α : Type} (error : ThresholdError) : Outcome α := .error (.error error)

def Outcome.require (holds : Bool) (error : ThresholdError) : Outcome Unit :=
  if holds then .ok () else .fail error

/-- Handle items until one fails: what was done stays. -/
def acceptAll {σ α : Type} (accept : σ → α → Outcome σ) : σ → List α → σ × Outcome Unit
  | state, [] => (state, .ok ())
  | state, item :: rest =>
    match accept state item with
    | .ok next => acceptAll accept next rest
    | .error failure => (state, .error failure)

structure ThresholdConfig where
  threshold : UInt16
  totalParticipants : UInt16
  deriving DecidableEq, Repr

def ThresholdConfig.new (threshold totalParticipants : UInt16) : Outcome ThresholdConfig :=
  if threshold = 0 then .fail (.invalidThreshold "threshold must be > 0")
  else if threshold > totalParticipants then
    .fail (.invalidThreshold "threshold cannot exceed total participants")
  else if totalParticipants < 2 then
    .fail (.invalidThreshold "total participants must be >= 2")
  else .ok ⟨threshold, totalParticipants⟩

structure KeyShare where
  participantId : ParticipantId
  config : ThresholdConfig
  secretShare : Bytes
  publicKeyShare : Bytes
  deriving DecidableEq, Repr

end Hsm.Threshold

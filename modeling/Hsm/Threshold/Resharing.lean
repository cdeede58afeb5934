import Hsm.Threshold.Refresh

/-! Resharing: a secret is passed on to new participants, or to another threshold. -/

namespace Hsm.Threshold

structure ResharingPackage where
  oldParticipant : ParticipantId
  newParticipant : ParticipantId
  share : Bytes
  commitments : List Bytes
  scheme : ThresholdScheme
  deriving DecidableEq, Repr

structure GroupPublicKey where
  bytes : Bytes
  config : ThresholdConfig
  deriving DecidableEq, Repr

structure ResharingConfig where
  scheme : ThresholdScheme
  oldConfig : ThresholdConfig
  newConfig : ThresholdConfig
  oldParticipants : List ParticipantId
  newParticipants : List ParticipantId
  fipsMode : Bool := false
  deriving DecidableEq, Repr

def ResharingConfig.new (scheme : ThresholdScheme) (oldConfig : ThresholdConfig)
    (newThreshold : UInt16) (oldParticipants newParticipants : List ParticipantId) :
    Outcome ResharingConfig := do
  .require (!(oldParticipants.length < oldConfig.threshold.toNat))
    (.resharingInsufficientShares oldConfig.threshold.toNat oldParticipants.length)
  let newConfig ← ThresholdConfig.new newThreshold (.ofNat newParticipants.length)
  return { scheme, oldConfig, newConfig, oldParticipants, newParticipants }

def ResharingConfig.validate (config : ResharingConfig) : Outcome Unit :=
  .require (!(config.fipsMode && !config.scheme.isFipsApproved)) (.fipsNotApproved
    ("Scheme " ++ config.scheme.display ++ " is not FIPS approved for resharing"))

abbrev OtherSchemes := ThresholdScheme → ParticipantId → Bytes → List Bytes → Outcome Bool

section

variable {F P : Type} [Field F] [AddCommGroup P] [Module F P] (suite : Suite F P)

def ResharingPackage.verify [DecidableEq P] (others : OtherSchemes) (package : ResharingPackage) :
    Outcome Bool :=
  if package.scheme = suite.scheme then
    suite.verifyShare package.newParticipant package.share package.commitments
  else others package.scheme package.newParticipant package.share package.commitments

end

structure Resharing where
  config : ResharingConfig
  deriving DecidableEq, Repr

namespace Resharing

variable {F P : Type} [Field F] [AddCommGroup P] [Module F P] (suite : Suite F P)

def new (config : ResharingConfig) : Outcome Resharing := do
  config.validate
  return ⟨config⟩

def constantTerm (resharing : Resharing) (constant : Bytes) : Outcome Bytes :=
  match resharing.config.scheme with
  | .thresholdEcdsaP256 | .thresholdEcdsaSecp256k1 => do
    let scalar ← suite.scalarFromBytes constant
    return suite.scalarToBytes scalar
  | .frostEd25519 | .thresholdBls12381 => .ok constant

def generatePolynomialWithConstant (resharing : Resharing) (draws : CoefficientDraws)
    (constant : Bytes) (degree : UInt16) : Outcome (List Bytes) := do
  let first ← resharing.constantTerm suite constant
  return first :: (List.range degree.toNat).map fun k => (draws k).toList

def generateNewShares (resharing : Resharing) (draws : CoefficientDraws) (oldShare : KeyShare) :
    Outcome (List ResharingPackage) := do
  .require (oldShare.participantId ∈ resharing.config.oldParticipants)
    (.invalidParticipant "Share does not belong to an old participant")
  let degree := resharing.config.newConfig.threshold - 1
  let coefficients ←
    resharing.generatePolynomialWithConstant suite draws oldShare.secretShare degree
  let commitments ← suite.generateCommitments coefficients
  resharing.config.newParticipants.mapM fun newParticipant => do
    let share ← suite.evaluatePolynomial coefficients newParticipant
    return ⟨oldShare.participantId, newParticipant, share, commitments, resharing.config.scheme⟩

def lagrangeInterpolate [DecidableEq F] (shares : List (ParticipantId × Bytes)) :
    Outcome Bytes := do
  let scalars ← shares.mapM fun share => do
    let scalar ← suite.scalarFromBytes share.2
    return (share.1, scalar)
  return suite.scalarToBytes (reconstructSecret scalars)

def computePublicShare [DecidableEq F] (secret : Bytes) : Outcome Bytes := do
  let scalar ← suite.scalarFromBytes secret
  match suite.zeroKey with
  | some failure =>
    if scalar = 0 then .error failure
    else return suite.pointToBytes (suite.scalarToPoint scalar)
  | none => return suite.pointToBytes (suite.scalarToPoint scalar)

def collectShares [DecidableEq P] (others : OtherSchemes) (resharing : Resharing)
    (id : ParticipantId) :
    List ParticipantId → List ResharingPackage → Outcome (List (ParticipantId × Bytes))
  | _, [] => .ok []
  | seen, package :: rest => do
    .require (package.newParticipant = id)
      (.invalidParticipant "Package not intended for this participant")
    .require (package.oldParticipant ∈ resharing.config.oldParticipants)
      (.resharingInvalidShare package.oldParticipant)
    .require (package.oldParticipant ∉ seen) (.resharingInvalidShare package.oldParticipant)
    let valid ← package.verify suite others
    .require valid (.resharingInvalidShare package.oldParticipant)
    let shares ← collectShares others resharing id (package.oldParticipant :: seen) rest
    return (package.oldParticipant, package.share) :: shares

/-- Combine the first packages; the group's public key is not looked at. -/
def receiveShares [DecidableEq F] [DecidableEq P] (others : OtherSchemes) (resharing : Resharing)
    (id : ParticipantId) (packages : List ResharingPackage) (_groupPublicKey : GroupPublicKey) :
    Outcome KeyShare := do
  let threshold := resharing.config.oldConfig.threshold.toNat
  .require (!(packages.length < threshold))
    (.resharingInsufficientShares threshold packages.length)
  let shares ← resharing.collectShares suite others id [] packages
  .require (!(shares.length < threshold)) (.resharingInsufficientShares threshold shares.length)
  let newSecretShare ← lagrangeInterpolate suite (shares.take threshold)
  let newPublicShare ← computePublicShare suite newSecretShare
  return ⟨id, resharing.config.newConfig, newSecretShare, newPublicShare⟩

end Resharing

end Hsm.Threshold

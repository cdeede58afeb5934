import Hsm.Threshold.Refresh

/-! Distributed key generation for threshold ECDSA, as one participant runs it. -/

namespace Hsm.Threshold

inductive EcdsaCurve where
  | p256
  | secp256k1
  deriving DecidableEq, Repr

structure DkgConfig where
  scheme : ThresholdScheme
  thresholdConfig : ThresholdConfig
  participants : List ParticipantId
  fipsMode : Bool := false
  deriving DecidableEq, Repr

namespace DkgConfig

def new (scheme : ThresholdScheme) (threshold : UInt16) (participants : List ParticipantId) :
    Outcome DkgConfig := do
  let thresholdConfig ← ThresholdConfig.new threshold (.ofNat participants.length)
  return { scheme, thresholdConfig, participants }

def requireDistinct : List ParticipantId → List ParticipantId → Outcome Unit
  | _, [] => .ok ()
  | seen, id :: rest => do
    .require (id ∉ seen) (.invalidParticipant ("Duplicate participant in DKG: " ++ id.display))
    requireDistinct (id :: seen) rest

def validate (config : DkgConfig) : Outcome Unit := do
  .require (!(config.fipsMode && !config.scheme.isFipsApproved)) (.fipsNotApproved
    ("Scheme " ++ config.scheme.display ++ " is not FIPS approved for DKG"))
  .require (config.participants.length = config.thresholdConfig.totalParticipants.toNat)
    (.invalidThreshold ("Participant count (" ++ toString config.participants.length ++
      ") doesn't match total_participants (" ++
      toString config.thresholdConfig.totalParticipants.toNat ++ ")"))
  requireDistinct [] config.participants
  .require (config.participants.all fun id => id.value ≠ 0)
    (.invalidParticipant "Participant ID 0 is not allowed")

end DkgConfig

inductive EcdsaDkgState where
  | notStarted
  | round1Complete
  | round2Complete
  deriving DecidableEq, Repr

structure EcdsaDkgRound1Package where
  sender : ParticipantId
  commitments : List Bytes
  deriving DecidableEq, Repr

structure EcdsaDkgRound2Package where
  sender : ParticipantId
  receiver : ParticipantId
  share : Bytes
  deriving DecidableEq, Repr

structure EcdsaKeyShare where
  participantId : ParticipantId
  config : ThresholdConfig
  secretShare : Bytes
  publicShare : Bytes
  groupPublicKey : Bytes
  curve : EcdsaCurve
  deriving DecidableEq, Repr

structure EcdsaGroupPublicKey where
  bytes : Bytes
  config : ThresholdConfig
  curve : EcdsaCurve
  deriving DecidableEq, Repr

structure EcdsaDkg where
  config : DkgConfig
  participantId : ParticipantId
  curve : EcdsaCurve
  state : EcdsaDkgState
  polynomialCoefficients : List Bytes
  ownCommitments : List Bytes
  receivedCommitments : Dict UInt16 (List Bytes)
  receivedShares : Dict UInt16 Bytes
  ownShare : Bytes

namespace EcdsaDkg

variable {F P : Type} [Field F] [AddCommGroup P] [Module F P] (suite : Suite F P)

def new (config : DkgConfig) (participantId : ParticipantId) (curve : EcdsaCurve) :
    Outcome EcdsaDkg := do
  config.validate
  .require (participantId ∈ config.participants) (.invalidParticipant
    ("Participant " ++ participantId.display ++ " not in DKG participant list"))
  return ⟨config, participantId, curve, .notStarted, [], [], ∅, ∅, []⟩

def generatePolynomial (draws : CoefficientDraws) (degree : UInt16) : List Bytes :=
  (List.range (degree.toNat + 1)).map fun k => (draws k).toList

variable (dkg : EcdsaDkg)

def round1GenerateCommitments (draws : CoefficientDraws) :
    Outcome (EcdsaDkg × EcdsaDkgRound1Package) := do
  .require (dkg.state = .notStarted) .dkgInvalidState
  let coefficients := generatePolynomial draws (dkg.config.thresholdConfig.threshold - 1)
  let commitments ← suite.generateCommitments coefficients
  let ownShare ← suite.evaluatePolynomial coefficients dkg.participantId
  return ({ dkg with
    polynomialCoefficients := coefficients
    ownCommitments := commitments
    ownShare := ownShare
    receivedCommitments := dkg.receivedCommitments.insert dkg.participantId.value commitments },
    ⟨dkg.participantId, commitments⟩)

def validatePoint (sender : ParticipantId) (commitment : Bytes) : Outcome Unit :=
  match suite.pointFromBytes dkg.participantId commitment with
  | .ok _ => .ok ()
  | .error _ => .fail (.invalidCommitment sender)

def acceptCommitments (package : EcdsaDkgRound1Package) : Outcome EcdsaDkg := do
  .require (package.sender ∈ dkg.config.participants) (.invalidParticipant
    ("Unknown participant " ++ package.sender.display ++ " in Round 1"))
  if package.sender = dkg.participantId then return dkg else do
    .require (package.sender.value ∉ dkg.receivedCommitments) (.invalidParticipant
      ("Duplicate Round 1 package from " ++ package.sender.display))
    let expected := dkg.config.thresholdConfig.threshold.toNat
    .require (package.commitments.length = expected) (.dkgFailed 1
      ("Wrong number of commitments from " ++ package.sender.display ++ ": expected " ++
        toString expected ++ ", got " ++ toString package.commitments.length))
    package.commitments.forM (dkg.validatePoint suite package.sender)
    return { dkg with
      receivedCommitments :=
        dkg.receivedCommitments.insert package.sender.value package.commitments }

def acceptShare [DecidableEq P] (dkg : EcdsaDkg) (package : EcdsaDkgRound2Package) :
    Outcome EcdsaDkg := do
  .require (package.receiver = dkg.participantId) (.dkgFailed 2
    ("Received share addressed to " ++ package.receiver.display ++ " but we are " ++
      dkg.participantId.display))
  .require (package.sender ∈ dkg.config.participants) (.invalidParticipant
    ("Unknown sender " ++ package.sender.display ++ " in Round 2"))
  if package.sender = dkg.participantId then return dkg else do
    .require (package.sender.value ∉ dkg.receivedShares)
      (.dkgFailed 2 ("Duplicate share from " ++ package.sender.display))
    match dkg.receivedCommitments[package.sender.value]? with
    | none => .fail (.dkgMissingCommitments package.sender)
    | some commitments => do
      let valid ← suite.verifyShare dkg.participantId package.share commitments
      .require valid (.dkgInvalidShare package.sender)
      return { dkg with
        receivedShares := dkg.receivedShares.insert package.sender.value package.share }

def round1ReceiveCommitments (packages : List EcdsaDkgRound1Package) :
    EcdsaDkg × Outcome Unit :=
  if dkg.ownCommitments = [] then (dkg, .fail .dkgInvalidState)
  else
    match acceptAll (acceptCommitments suite) dkg packages with
    | (next, .error failure) => (next, .error failure)
    | (next, .ok ()) =>
      if next.receivedCommitments.size = next.config.participants.length then
        ({ next with state := .round1Complete }, .ok ())
      else (next, .ok ())

def round2GenerateShares : Outcome (EcdsaDkg × List EcdsaDkgRound2Package) := do
  .require (dkg.state = .round1Complete) .dkgInvalidState
  let others := dkg.config.participants.filter (· ≠ dkg.participantId)
  let packages ← others.mapM fun receiver => do
    let share ← suite.evaluatePolynomial dkg.polynomialCoefficients receiver
    return EcdsaDkgRound2Package.mk dkg.participantId receiver share
  return ({ dkg with
    receivedShares := dkg.receivedShares.insert dkg.participantId.value dkg.ownShare }, packages)

def round2ReceiveShares [DecidableEq P] (dkg : EcdsaDkg) (packages : List EcdsaDkgRound2Package) :
    EcdsaDkg × Outcome Unit :=
  if dkg.state ≠ .round1Complete then (dkg, .fail .dkgInvalidState)
  else
    match acceptAll (acceptShare suite) dkg packages with
    | (next, .error failure) => (next, .error failure)
    | (next, .ok ()) =>
      if next.receivedShares.size = next.config.participants.length then
        ({ next with state := .round2Complete }, .ok ())
      else (next, .ok ())

def addConstant (key : Bytes) : List Bytes → Outcome Bytes
  | [] => .fail (.dkgFailed 3 "Empty commitments found during finalization")
  | constant :: _ => suite.addPoints dkg.participantId key constant

def scalarToPoint (bytes : Bytes) : Outcome Bytes := do
  let scalar ← suite.scalarFromBytes bytes
  return suite.pointToBytes (suite.scalarToPoint scalar)

def finalize : Outcome (EcdsaKeyShare × EcdsaGroupPublicKey) := do
  .require (dkg.state = .round2Complete) .dkgInvalidState
  let finalShare ← dkg.receivedShares.items.foldlM suite.addScalars Suite.zeroScalar
  let groupPublicBytes ←
    dkg.receivedCommitments.items.foldlM (dkg.addConstant suite) (suite.pointToBytes 0)
  let publicShare ← scalarToPoint suite finalShare
  let config ← ThresholdConfig.new dkg.config.thresholdConfig.threshold
    dkg.config.thresholdConfig.totalParticipants
  return (⟨dkg.participantId, config, finalShare, publicShare, groupPublicBytes, dkg.curve⟩,
    ⟨groupPublicBytes, config, dkg.curve⟩)

end EcdsaDkg

/-- Calls of a participant before it finalizes. -/
inductive DkgCall where
  | round1Generate (draws : CoefficientDraws)
  | round1Receive (packages : List EcdsaDkgRound1Package)
  | round2Generate
  | round2Receive (packages : List EcdsaDkgRound2Package)

inductive DkgReply where
  | round1 (package : EcdsaDkgRound1Package)
  | round2 (packages : List EcdsaDkgRound2Package)
  | received
  | failed (failure : Failure)
  deriving DecidableEq

abbrev DkgEvent := DkgCall × DkgReply

def DkgReply.ofReceived : Outcome Unit → DkgReply
  | .ok () => .received
  | .error failure => .failed failure

section

variable {F P : Type} [Field F] [AddCommGroup P] [Module F P] [DecidableEq P] (suite : Suite F P)

def EcdsaDkg.answer (dkg : EcdsaDkg) : DkgCall → EcdsaDkg × DkgReply
  | .round1Generate draws =>
    match dkg.round1GenerateCommitments suite draws with
    | .ok (next, package) => (next, .round1 package)
    | .error failure => (dkg, .failed failure)
  | .round1Receive packages =>
    let result := dkg.round1ReceiveCommitments suite packages
    (result.1, .ofReceived result.2)
  | .round2Generate =>
    match dkg.round2GenerateShares suite with
    | .ok (next, packages) => (next, .round2 packages)
    | .error failure => (dkg, .failed failure)
  | .round2Receive packages =>
    let result := dkg.round2ReceiveShares suite packages
    (result.1, .ofReceived result.2)

def EcdsaDkg.serve (dkg : EcdsaDkg) (call : DkgCall) : EcdsaDkg × List DkgEvent :=
  ((dkg.answer suite call).1, [(call, (dkg.answer suite call).2)])

end

end Hsm.Threshold

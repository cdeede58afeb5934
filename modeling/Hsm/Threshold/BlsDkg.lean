import Hsm.Threshold.EcdsaDkg
import Hsm.Threshold.Resharing

/-! Distributed key generation for threshold BLS, as one participant runs it. -/

namespace Hsm.Threshold

inductive BlsDkgState where
  | notStarted
  | round1Complete
  | round2Complete
  | complete
  deriving DecidableEq, Repr

structure BlsDkgRound1Package where
  sender : ParticipantId
  commitments : List Bytes
  deriving DecidableEq, Repr

structure BlsDkgRound2Package where
  sender : ParticipantId
  receiver : ParticipantId
  share : Bytes
  deriving DecidableEq, Repr

structure BlsKeyShare where
  participantId : ParticipantId
  config : ThresholdConfig
  secretShare : Bytes
  publicShare : Bytes
  groupPublicKey : Bytes
  deriving DecidableEq, Repr

structure BlsDkg where
  config : DkgConfig
  participantId : ParticipantId
  state : BlsDkgState
  secretPolynomial : Option (List Bytes)
  commitments : Option (List Bytes)
  receivedShares : Dict UInt16 Bytes
  receivedCommitments : Dict UInt16 (List Bytes)

namespace BlsDkg

variable {F P : Type} [Field F] [AddCommGroup P] [Module F P] (suite : Suite F P)

def new (config : DkgConfig) (participantId : ParticipantId) : Outcome BlsDkg := do
  config.validate
  .require (participantId ∈ config.participants) (.invalidParticipant
    ("Participant " ++ participantId.display ++ " is not in the DKG participant list"))
  return ⟨config, participantId, .notStarted, none, none, ∅, ∅⟩

variable (dkg : BlsDkg)

def round1 (draws : CoefficientDraws) : Outcome (BlsDkg × BlsDkgRound1Package) := do
  .require (dkg.state = .notStarted) .dkgInvalidState
  let polynomial := (List.range dkg.config.thresholdConfig.threshold.toNat).map fun k =>
    (draws k).toList
  let commitments ← suite.generateCommitments polynomial
  return ({ dkg with
    secretPolynomial := some polynomial
    commitments := some commitments
    state := .round1Complete }, ⟨dkg.participantId, commitments⟩)

def storeCommitments (package : BlsDkgRound1Package) : Outcome BlsDkg := do
  .require (package.commitments.length = dkg.config.thresholdConfig.threshold.toNat)
    (.invalidCommitment package.sender)
  .require (package.commitments.all fun commitment => commitment.length = 48)
    (.invalidCommitment package.sender)
  return { dkg with
    receivedCommitments := dkg.receivedCommitments.insert package.sender.value package.commitments }

def evaluatePolynomial (coefficients : List Bytes) (id : ParticipantId) : Outcome Bytes := do
  .require (coefficients ≠ []) (.cryptoError "Empty polynomial coefficients")
  suite.evaluatePolynomial coefficients id

def generateShares : Outcome (Bytes × List BlsDkgRound2Package) :=
  match dkg.secretPolynomial with
  | none => .fail .dkgInvalidState
  | some polynomial => do
    let own ← evaluatePolynomial suite polynomial dkg.participantId
    let packages ← (dkg.config.participants.filter (· ≠ dkg.participantId)).mapM fun receiver => do
      let share ← evaluatePolynomial suite polynomial receiver
      return BlsDkgRound2Package.mk dkg.participantId receiver share
    return (own, packages)

def round2 (packages : List BlsDkgRound1Package) :
    BlsDkg × Outcome (List BlsDkgRound2Package) :=
  if dkg.state ≠ .round1Complete then (dkg, .fail .dkgInvalidState)
  else if packages.length ≠ dkg.config.participants.length then
    (dkg, .fail (.dkgFailed 2 ("Expected " ++ toString dkg.config.participants.length ++
      " round1 packages, got " ++ toString packages.length)))
  else
    match acceptAll storeCommitments dkg packages with
    | (next, .error failure) => (next, .error failure)
    | (next, .ok ()) =>
      match next.generateShares suite with
      | .error failure => (next, .error failure)
      | .ok (own, shares) =>
        ({ next with
          receivedShares := next.receivedShares.insert next.participantId.value own
          state := .round2Complete }, .ok shares)

def verifyShare [DecidableEq P] (dkg : BlsDkg) (share : Bytes) (sender : ParticipantId)
    (commitments : List Bytes) : Outcome Bool := do
  let scalar ← suite.scalarFromBytes share
  let expected ← suite.accumulate sender (dkg.participantId.scalar F) 0 1 commitments
  return suite.scalarToPoint scalar = expected

def acceptShare [DecidableEq P] (dkg : BlsDkg) (package : BlsDkgRound2Package) : Outcome BlsDkg :=
  if package.receiver ≠ dkg.participantId then .ok dkg
  else do
    .require (package.share.length = 32) (.dkgInvalidShare package.sender)
    match dkg.receivedCommitments[package.sender.value]? with
    | none => .fail (.dkgMissingCommitments package.sender)
    | some commitments => do
      let valid ← dkg.verifyShare suite package.share package.sender commitments
      .require valid (.dkgInvalidShare package.sender)
      return { dkg with
        receivedShares := dkg.receivedShares.insert package.sender.value package.share }

def requireShares : Outcome Unit :=
  if dkg.receivedShares.size = dkg.config.participants.length then .ok ()
  else
    match dkg.config.participants.find? fun id => id.value ∉ dkg.receivedShares with
    | some id => .fail (.dkgMissingCommitments id)
    | none => .ok ()

def combineShares : Bytes :=
  suite.scalarToBytes (dkg.receivedShares.items.map suite.reduceBytes).sum

def addConstant (sum : P) : List Bytes → Outcome P
  | [] => .error .panic
  | constant :: _ =>
    match suite.pointFromBytes dkg.participantId constant with
    | .ok point => .ok (sum + point)
    | .error _ => .fail (.cryptoError "Invalid commitment during group key computation")

def computeGroupPublicKey : Outcome Bytes := do
  let sum ← dkg.receivedCommitments.items.foldlM (dkg.addConstant suite) 0
  return suite.pointToBytes sum

def conclude : Outcome (BlsKeyShare × GroupPublicKey) := do
  dkg.requireShares
  let combinedShare := dkg.combineShares suite
  let groupKey ← dkg.computeGroupPublicKey suite
  let scalar ← suite.scalarFromBytes combinedShare
  let publicShare := suite.pointToBytes (suite.scalarToPoint scalar)
  return (⟨dkg.participantId, dkg.config.thresholdConfig, combinedShare, publicShare, groupKey⟩,
    ⟨groupKey, dkg.config.thresholdConfig⟩)

def finalize [DecidableEq P] (dkg : BlsDkg) (packages : List BlsDkgRound2Package) :
    BlsDkg × Outcome (BlsKeyShare × GroupPublicKey) :=
  if dkg.state ≠ .round2Complete then (dkg, .fail .dkgInvalidState)
  else
    match acceptAll (acceptShare suite) dkg packages with
    | (next, .error failure) => (next, .error failure)
    | (next, .ok ()) =>
      match next.conclude suite with
      | .error failure => (next, .error failure)
      | .ok result => ({ next with state := .complete }, .ok result)

end BlsDkg

inductive BlsDkgCall where
  | round1 (draws : CoefficientDraws)
  | round2 (packages : List BlsDkgRound1Package)
  | finalize (packages : List BlsDkgRound2Package)

inductive BlsDkgReply where
  | round1 (package : BlsDkgRound1Package)
  | round2 (packages : List BlsDkgRound2Package)
  | finalized (share : BlsKeyShare) (key : GroupPublicKey)
  | failed (failure : Failure)
  deriving DecidableEq

abbrev BlsDkgEvent := BlsDkgCall × BlsDkgReply

section

variable {F P : Type} [Field F] [AddCommGroup P] [Module F P] [DecidableEq P] (suite : Suite F P)

def BlsDkg.answer (dkg : BlsDkg) : BlsDkgCall → BlsDkg × BlsDkgReply
  | .round1 draws =>
    match dkg.round1 suite draws with
    | .ok (next, package) => (next, .round1 package)
    | .error failure => (dkg, .failed failure)
  | .round2 packages =>
    match dkg.round2 suite packages with
    | (next, .ok shares) => (next, .round2 shares)
    | (next, .error failure) => (next, .failed failure)
  | .finalize packages =>
    match dkg.finalize suite packages with
    | (next, .ok (share, key)) => (next, .finalized share key)
    | (next, .error failure) => (next, .failed failure)

def BlsDkg.serve (dkg : BlsDkg) (call : BlsDkgCall) : BlsDkg × List BlsDkgEvent :=
  ((dkg.answer suite call).1, [(call, (dkg.answer suite call).2)])

end

end Hsm.Threshold

import Hsm.Lib.DictSum
import Hsm.Lib.Run
import Hsm.Threshold.Suite

/-! The key refresh protocol, as one participant runs it. -/

namespace Hsm.Threshold

inductive RefreshState where
  | notStarted
  | round1Complete
  | round2Complete
  | complete
  deriving DecidableEq, Repr

/-- Commitments to a polynomial without constant term. -/
structure RefreshRound1Package where
  sender : ParticipantId
  commitments : List Bytes
  scheme : ThresholdScheme
  deriving DecidableEq, Repr

def RefreshRound1Package.verifyZeroConstant (package : RefreshRound1Package) : Outcome Bool :=
  match package.commitments with
  | [] => .fail (.keyRefreshFailed "No commitments provided")
  | first :: _ => .ok (first = package.scheme.identityPoint)

structure RefreshRound2Package where
  sender : ParticipantId
  receiver : ParticipantId
  refreshShare : Bytes
  scheme : ThresholdScheme
  deriving DecidableEq, Repr

structure KeyRefreshConfig where
  scheme : ThresholdScheme
  currentConfig : ThresholdConfig
  participants : List ParticipantId
  fipsMode : Bool := false
  deriving DecidableEq, Repr

def KeyRefreshConfig.validate (config : KeyRefreshConfig) : Outcome Unit :=
  .require (!(config.fipsMode && !config.scheme.isFipsApproved)) (.fipsNotApproved
    ("Scheme " ++ config.scheme.display ++ " is not FIPS approved for key refresh"))

structure KeyRefreshProtocol where
  config : KeyRefreshConfig
  state : RefreshState
  round1Packages : Dict UInt16 RefreshRound1Package
  round2Packages : Dict UInt16 RefreshRound2Package
  participantId : ParticipantId
  myCoefficients : List Bytes

abbrev CoefficientDraws := Nat → Vector UInt8 32

namespace KeyRefreshProtocol

variable {F P : Type} [Field F] [AddCommGroup P] [Module F P] [DecidableEq P] (suite : Suite F P)

def new (config : KeyRefreshConfig) (participantId : ParticipantId) :
    Outcome KeyRefreshProtocol := do
  config.validate
  .require (participantId ∈ config.participants)
    (.invalidParticipant "Participant not in refresh group")
  return ⟨config, .notStarted, ∅, ∅, participantId, []⟩

def generateZeroConstantPolynomial (draws : CoefficientDraws) (degree : UInt16) : List Bytes :=
  Suite.zeroScalar :: (List.range degree.toNat).map fun k => (draws k).toList

variable (protocol : KeyRefreshProtocol)

def round1 (draws : CoefficientDraws) :
    Outcome (KeyRefreshProtocol × RefreshRound1Package) := do
  .require (protocol.state = .notStarted)
    (.keyRefreshFailed "Round 1 already completed or protocol failed")
  let degree := protocol.config.currentConfig.threshold - 1
  let coefficients := generateZeroConstantPolynomial draws degree
  let commitments ← suite.generateCommitments coefficients
  return ({ protocol with myCoefficients := coefficients, state := .round1Complete },
    ⟨protocol.participantId, commitments, protocol.config.scheme⟩)

def processRound1Package (package : RefreshRound1Package) :
    Outcome KeyRefreshProtocol := do
  let zero ← package.verifyZeroConstant
  .require zero (.keyRefreshInvalidCommitment package.sender)
  return { protocol with
    round1Packages := protocol.round1Packages.insert package.sender.value package }

def round2 :
    Outcome (KeyRefreshProtocol × List RefreshRound2Package) := do
  .require (protocol.state = .round1Complete) (.keyRefreshFailed "Must complete Round 1 first")
  .require (!(protocol.round1Packages.size < protocol.config.participants.length - 1))
    .keyRefreshMissingCommitments
  let packages ← protocol.config.participants.mapM fun receiver => do
    let refreshShare ← suite.evaluatePolynomial protocol.myCoefficients receiver
    return RefreshRound2Package.mk protocol.participantId receiver refreshShare
      protocol.config.scheme
  return ({ protocol with state := .round2Complete }, packages)

def verifyRefreshShare (package : RefreshRound2Package) :
    Outcome Unit :=
  match protocol.round1Packages[package.sender.value]? with
  | some round1 => do
    let valid ← suite.verifyShare protocol.participantId package.refreshShare round1.commitments
    .require valid (.keyRefreshInvalidShare package.sender)
  | none => .ok ()

def processRound2Package (package : RefreshRound2Package) :
    Outcome KeyRefreshProtocol := do
  .require (package.receiver = protocol.participantId)
    (.invalidParticipant "Package not intended for this participant")
  protocol.verifyRefreshShare suite package
  return { protocol with
    round2Packages := protocol.round2Packages.insert package.sender.value package }

def addRefreshShares : Bytes → List RefreshRound2Package → Outcome Bytes
  | secret, [] => .ok secret
  | secret, package :: rest => do
    let secret ← suite.addScalars secret package.refreshShare
    addRefreshShares secret rest

def finalize (oldShare : KeyShare) :
    Outcome (KeyRefreshProtocol × KeyShare) := do
  .require (protocol.state = .round2Complete) (.keyRefreshFailed "Must complete Round 2 first")
  .require (!(protocol.round2Packages.size + 1 < protocol.config.participants.length))
    (.keyRefreshFailed "Missing refresh shares from some participants")
  let myRefreshShare ← suite.evaluatePolynomial protocol.myCoefficients protocol.participantId
  let secret ← suite.addScalars oldShare.secretShare myRefreshShare
  let newSecret ← addRefreshShares suite secret protocol.round2Packages.items
  return ({ protocol with state := .complete },
    ⟨protocol.participantId, oldShare.config, newSecret, oldShare.publicKeyShare⟩)

end KeyRefreshProtocol

inductive RefreshCall where
  | round1 (draws : CoefficientDraws)
  | processRound1 (package : RefreshRound1Package)
  | round2
  | processRound2 (package : RefreshRound2Package)
  | finalize (oldShare : KeyShare)

inductive RefreshReply where
  | round1 (package : RefreshRound1Package)
  | processed
  | round2 (packages : List RefreshRound2Package)
  | finalized (newShare : KeyShare)
  | failed (failure : Failure)
  deriving DecidableEq

abbrev RefreshEvent := RefreshCall × RefreshReply

/-- A failure leaves the protocol as it was. -/
def settleRefresh {α : Type} (protocol : KeyRefreshProtocol) (outcome : Outcome α)
    (next : α → KeyRefreshProtocol × RefreshReply) : KeyRefreshProtocol × RefreshReply :=
  match outcome with
  | .ok result => next result
  | .error failure => (protocol, .failed failure)

section

variable {F P : Type} [Field F] [AddCommGroup P] [Module F P] [DecidableEq P] (suite : Suite F P)

def KeyRefreshProtocol.answer (protocol : KeyRefreshProtocol) :
    RefreshCall → KeyRefreshProtocol × RefreshReply
  | .round1 draws => settleRefresh protocol (protocol.round1 suite draws) fun result =>
    (result.1, .round1 result.2)
  | .processRound1 package => settleRefresh protocol (protocol.processRound1Package package)
    fun next => (next, .processed)
  | .round2 => settleRefresh protocol (protocol.round2 suite) fun result =>
    (result.1, .round2 result.2)
  | .processRound2 package => settleRefresh protocol (protocol.processRound2Package suite package)
    fun next => (next, .processed)
  | .finalize oldShare => settleRefresh protocol (protocol.finalize suite oldShare) fun result =>
    (result.1, .finalized result.2)

def KeyRefreshProtocol.serve (protocol : KeyRefreshProtocol) (call : RefreshCall) :
    KeyRefreshProtocol × List RefreshEvent :=
  ((protocol.answer suite call).1, [(call, (protocol.answer suite call).2)])

end

end Hsm.Threshold

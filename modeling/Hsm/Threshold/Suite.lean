import Hsm.Lib.Sharing
import Hsm.Threshold.Types

/-! What the libraries of the schemes provide, and verifiable secret sharing on top of it. -/

namespace Hsm.Threshold

/-- A group of prime order with its scalars; schemes differ in what they refuse. -/
structure Suite (F P : Type) [Field F] [AddCommGroup P] [Module F P] where
  scheme : ThresholdScheme
  generator : P
  reduceBytes : Bytes → F
  scalarToBytes : F → Bytes
  pointFromBytes : ParticipantId → Bytes → Outcome P
  pointToBytes : P → Bytes
  badScalar : Bytes → Failure
  emptyPolynomial : ThresholdError
  emptyCommitments : Option ThresholdError
  zeroKey : Option Failure
  generates : ∀ point : P, ∃ scalar : F, scalar • generator = point
  free : ∀ scalar : F, scalar • generator = 0 → scalar = 0
  cast_injective : ∀ first second : UInt16,
    (first.toNat : F) = (second.toNat : F) → first = second
  reduce_toBytes : ∀ scalar, reduceBytes (scalarToBytes scalar) = scalar
  length_scalarToBytes : ∀ scalar, (scalarToBytes scalar).length = 32
  reduce_zero : reduceBytes (List.replicate 32 0) = 0
  fromBytes_toBytes : ∀ id point, pointFromBytes id (pointToBytes point) = .ok point
  fromBytes_agree : ∀ first second bytes point, pointFromBytes first bytes = .ok point →
    pointFromBytes second bytes = .ok point
  toBytes_identity : pointToBytes 0 = scheme.identityPoint

def ParticipantId.scalar (F : Type) [Field F] (id : ParticipantId) : F := (id.value.toNat : F)

namespace Suite

variable {F P : Type} [Field F] [AddCommGroup P] [Module F P] (suite : Suite F P)

def scalarFromBytes (bytes : Bytes) : Outcome F :=
  if bytes.length = 32 then .ok (suite.reduceBytes bytes) else .error (suite.badScalar bytes)

def scalarToPoint (scalar : F) : P := scalar • suite.generator

def generateCommitments (coefficients : List Bytes) : Outcome (List Bytes) :=
  coefficients.mapM fun coefficient => do
    let scalar ← suite.scalarFromBytes coefficient
    return suite.pointToBytes (suite.scalarToPoint scalar)

def accumulate (id : ParticipantId) (x : F) : P → F → List Bytes → Outcome P
  | expected, _, [] => .ok expected
  | expected, power, commitment :: rest => do
    let point ← suite.pointFromBytes id commitment
    accumulate id x (expected + power • point) (power * x) rest

/-- Some schemes refuse no commitments. -/
def requireCommitments (commitments : List Bytes) : Outcome Unit :=
  match suite.emptyCommitments with
  | some error => .require (commitments ≠ []) error
  | none => .ok ()

def verifyShare [DecidableEq P] (id : ParticipantId) (share : Bytes) (commitments : List Bytes) :
    Outcome Bool := do
  suite.requireCommitments commitments
  let scalar ← suite.scalarFromBytes share
  let expected ← suite.accumulate id (id.scalar F) 0 1 commitments
  return suite.scalarToPoint scalar = expected

def evaluatePolynomial (coefficients : List Bytes) (id : ParticipantId) : Outcome Bytes := do
  .require (coefficients ≠ []) suite.emptyPolynomial
  let result ← coefficients.reverse.foldlM (fun (result : F) coefficient => do
    let scalar ← suite.scalarFromBytes coefficient
    return result * id.scalar F + scalar) 0
  return suite.scalarToBytes result

def addScalars (first second : Bytes) : Outcome Bytes := do
  let first ← suite.scalarFromBytes first
  let second ← suite.scalarFromBytes second
  return suite.scalarToBytes (first + second)

def addPoints (id : ParticipantId) (first second : Bytes) : Outcome Bytes := do
  let first ← suite.pointFromBytes id first
  let second ← suite.pointFromBytes id second
  return suite.pointToBytes (first + second)

def zeroScalar : Bytes := List.replicate 32 0

end Suite

def lagrangeCoefficient (F : Type) [Field F] [DecidableEq F] (id : ParticipantId)
    (participants : List ParticipantId) : F :=
  participants.foldl (fun result other =>
    if other ≠ id then
      let denominator := other.scalar F - id.scalar F
      result * (other.scalar F * if denominator = 0 then 1 else denominator⁻¹)
    else result) 1

def reconstructSecret {F : Type} [Field F] [DecidableEq F] (shares : List (ParticipantId × F)) :
    F :=
  shares.foldl (fun result share =>
    result + share.2 * lagrangeCoefficient F share.1 (shares.map Prod.fst)) 0

end Hsm.Threshold

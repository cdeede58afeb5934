import Hsm.Lib.Json
import Mathlib.Data.Rat.Defs
import Mathlib.Algebra.Order.Ring.Unbundled.Rat
import Mathlib.Algebra.GroupWithZero.Basic

/-! Events of a bridge, pairs of them across chains, and what the detector reports about a pair. -/

namespace Hsm.Bridge

/-- Digits and the number of them behind the decimal point, an i64. -/
structure BigDecimal where
  digits : Int
  scale : Int
  deriving DecidableEq, Repr

namespace BigDecimal

/-- A negative scale stands for zeros in front of the decimal point. -/
def value (decimal : BigDecimal) : ℚ :=
  decimal.digits * (10 : ℚ) ^ (-decimal.scale).toNat / (10 : ℚ) ^ decimal.scale.toNat

def same (left right : BigDecimal) : Bool := decide (left.value = right.value)

end BigDecimal

/-- How addresses are folded to lower case and amounts are printed. -/
structure Rendering where
  lowercase : String → String
  display : BigDecimal → String

/-- Whole amounts, printed without a decimal point. -/
def Rendering.plain : Rendering := ⟨String.toLower, fun decimal => toString decimal.digits⟩

/-- What a call finds: the monotonic clock in nanoseconds, the wall clock in seconds, and a drawn
identifier. -/
structure Moment where
  now : Nat
  timestamp : Int
  uuid : String
  /-- The time that has passed when the clock is read for one entry of a table. -/
  elapsed : String → Nat → Nat := fun _ _ => 0

def Moment.read (moment : Moment) (key : String) (index : Nat) : Nat :=
  moment.now + moment.elapsed key index

inductive EventType where
  | deposit
  | withdrawal
  | relayerSubmit
  | claim
  | pause
  | unpause
  deriving DecidableEq, Repr

structure BridgeEvent where
  id : String
  chainId : String
  blockNumber : UInt64
  txHash : String
  eventType : EventType
  token : String
  amount : BigDecimal
  fromAddress : String
  toAddress : String
  nonce : Option UInt64
  messageHash : Option String
  timestamp : Int
  logIndex : UInt32
  extraData : JsonValue

inductive CorrelationStatus where
  | pending
  | matched
  | timedOut
  | amountMismatch
  | failed
  deriving DecidableEq, Repr

/-- A deposit with the event it was matched to. -/
structure CorrelatedEvent where
  id : String
  sourceEvent : BridgeEvent
  destinationEvent : Option BridgeEvent
  status : CorrelationStatus
  createdAt : Int
  completedAt : Option Int
  latencySecs : Option Nat

namespace CorrelatedEvent

def amount (event : CorrelatedEvent) : BigDecimal := event.sourceEvent.amount

def token (event : CorrelatedEvent) : String := event.sourceEvent.token

end CorrelatedEvent

inductive AnomalyType where
  | largeWithdrawal
  | volumeExceeded
  | imbalance
  | velocityAnomaly
  | blacklistedAddress
  | amountMismatch
  | unknownToken
  | rapidWithdrawals
  | timeAnomaly
  deriving DecidableEq, Repr

inductive Severity where
  | low
  | medium
  | high
  | critical
  deriving DecidableEq, Repr

def Severity.rank : Severity → Nat
  | .low => 0
  | .medium => 1
  | .high => 2
  | .critical => 3

/-- What the detector reports about a transfer. -/
structure DetectionResult where
  isAnomaly : Bool
  anomalyType : Option AnomalyType
  severity : Severity
  description : String
  recommendedAction : Option String
  deriving DecidableEq, Repr

namespace DetectionResult

def normal : DetectionResult := ⟨false, none, .low, "No anomaly detected", none⟩

def anomaly (anomalyType : AnomalyType) (severity : Severity) (description action : String) :
    DetectionResult := ⟨true, some anomalyType, severity, description, some action⟩

end DetectionResult

end Hsm.Bridge

import Hsm.Lib.Clock
import Hsm.Lib.Dict

/-! Assets, spending limits, and the tracker of what was spent. -/

namespace Hsm.Auth

inductive AssetType where
  | native (symbol : String)
  | erc20 (chainId : UInt64) (contract : String)
  | erc721 (chainId : UInt64) (contract : String)
  | any
  deriving DecidableEq, Repr

namespace AssetType

def matchesAsset : AssetType → AssetType → Bool
  | .any, _ => true
  | _, .any => true
  | .native a, .native b => a = b
  | .erc20 c1 a1, .erc20 c2 a2 => c1 = c2 ∧ a1 = a2
  | .erc721 c1 a1, .erc721 c2 a2 => c1 = c2 ∧ a1 = a2
  | _, _ => false

def leadingBytes : Nat → List Char → Option (List Char)
  | 0, _ => some []
  | _, [] => some []
  | count, c :: rest =>
    if c.utf8Size ≤ count then (leadingBytes (count - c.utf8Size) rest).map (c :: ·) else none

def display : AssetType → Option String
  | .native symbol => some symbol
  | .erc20 chainId contract => (leadingBytes 8 contract.toList).map fun lead =>
    "ERC20:" ++ toString chainId.toNat ++ ":" ++ String.ofList lead
  | .erc721 chainId contract => (leadingBytes 8 contract.toList).map fun lead =>
    "ERC721:" ++ toString chainId.toNat ++ ":" ++ String.ofList lead
  | .any => some "*"

end AssetType

inductive TimeWindow where
  | perTransaction
  | hour
  | day
  | week
  | month
  deriving DecidableEq, Repr

namespace TimeWindow

def duration : TimeWindow → Option Span
  | .perTransaction => none
  | .hour => some (seconds 3600)
  | .day => some (seconds 86400)
  | .week => some (seconds 604800)
  | .month => some (seconds 2592000)

def windowStart (window : TimeWindow) (now : Instant) : Instant :=
  match window.duration with
  | none => now
  | some duration => now - duration

def display : TimeWindow → String
  | .perTransaction => "per-tx"
  | .hour => "hourly"
  | .day => "daily"
  | .week => "weekly"
  | .month => "monthly"

end TimeWindow

def decimalValue (text : String) : Option Nat :=
  let digits := match text.toList with
    | '+' :: rest => rest
    | chars => chars
  if digits ≠ [] ∧ digits.all Char.isDigit then
    some (digits.foldl (fun value digit => 10 * value + (digit.toNat - '0'.toNat)) 0)
  else none

def parseU128 (text : String) : Option Nat :=
  (decimalValue text).filter (· < 2 ^ 128)

def saturatingAdd (first second : Nat) : Nat := min (first + second) (2 ^ 128 - 1)

structure SpendingLimit where
  assetType : AssetType
  window : TimeWindow
  maxValue : String
  maxTransactions : Option UInt32
  hardLimit : Bool
  deriving DecidableEq, Repr

def SpendingLimit.maxValueU128 (limit : SpendingLimit) : Option Nat := parseU128 limit.maxValue

def SpendingLimit.exceeds (limit : SpendingLimit) (value : String) : Bool :=
  match limit.maxValueU128, parseU128 value with
  | some max, some value => value > max
  | _, _ => false

structure VelocityLimit where
  window : TimeWindow
  maxCount : UInt32
  maxTotalValue : Option String
  assetType : Option AssetType
  cooldownSeconds : Option UInt32
  deriving DecidableEq, Repr

def VelocityLimit.exceedsCount (limit : VelocityLimit) (count : UInt32) : Bool :=
  count ≥ limit.maxCount

def VelocityLimit.exceedsValue (limit : VelocityLimit) (total : String) : Bool :=
  match limit.maxTotalValue with
  | some max =>
    match parseU128 max, parseU128 total with
    | some max, some total => total > max
    | _, _ => false
  | none => false

structure SpendingPolicy where
  limits : List SpendingLimit
  velocityLimits : List VelocityLimit
  bypassAddresses : List String
  deriving DecidableEq, Repr

def SpendingPolicy.isBypassAddress (toLowercase : String → String) (policy : SpendingPolicy)
    (address : String) : Bool :=
  policy.bypassAddresses.contains (toLowercase address)

def SpendingPolicy.limitsForAsset (policy : SpendingPolicy) (asset : AssetType) :
    List SpendingLimit :=
  policy.limits.filter fun limit => limit.assetType.matchesAsset asset

structure TransactionRecord where
  txId : String
  timestamp : Instant
  assetType : AssetType
  value : String
  recipient : String
  keyId : String
  ns : String
  user : String
  deriving DecidableEq, Repr

abbrev TrackerKey := String × String

instance : Ord TrackerKey := lexOrd

namespace TrackerKey

variable (asset : AssetType)

def forScope (scope : String) : Option TrackerKey :=
  asset.display.map fun asset => (asset, scope)

def forKey (keyId : String) : Option TrackerKey :=
  forScope asset ("key:" ++ keyId)

def forNamespace (ns : String) : Option TrackerKey :=
  forScope asset ("ns:" ++ ns)

def forUser (user : String) : Option TrackerKey :=
  forScope asset ("user:" ++ user)

def global (asset : AssetType) : Option TrackerKey := forScope asset "global"

end TrackerKey

structure SpendingAggregate where
  totalValue : Nat := 0
  txCount : UInt32 := 0
  lastTx : Option Instant := none
  deriving DecidableEq, Repr

def SpendingAggregate.add (aggregate : SpendingAggregate) (value : Nat) (timestamp : Instant) :
    SpendingAggregate :=
  ⟨saturatingAdd aggregate.totalValue value, aggregate.txCount + 1, some timestamp⟩

structure SpendingTracker where
  transactions : Dict TrackerKey (List TransactionRecord)
  maxHistory : Nat

namespace SpendingTracker

def withMaxHistory (max : Nat) : SpendingTracker := ⟨∅, max⟩

variable (tracker : SpendingTracker)

def records (key : TrackerKey) : List TransactionRecord :=
  tracker.transactions[key]?.getD []

def recordForKey (key : TrackerKey) (record : TransactionRecord) :
    SpendingTracker :=
  { tracker with
    transactions := (tracker.transactions.insert key (tracker.records key ++ [record])).map
      fun _ records => records.drop (records.length - tracker.maxHistory) }

def record (tracker : SpendingTracker) (record : TransactionRecord) : Option SpendingTracker := do
  let tracker := tracker.recordForKey (← TrackerKey.forKey record.assetType record.keyId) record
  let tracker := tracker.recordForKey (← TrackerKey.forNamespace record.assetType record.ns) record
  let tracker := tracker.recordForKey (← TrackerKey.forUser record.assetType record.user) record
  return tracker.recordForKey (← TrackerKey.global record.assetType) record

def getAggregate (key : TrackerKey) (window : TimeWindow) (now : Instant) : SpendingAggregate :=
  (tracker.records key).foldl (fun aggregate record =>
    if record.timestamp ≥ window.windowStart now then
      match parseU128 record.value with
      | some value => aggregate.add value record.timestamp
      | none => aggregate
    else aggregate) {}

def timeSinceLastTx (key : TrackerKey) (window : TimeWindow) (now : Instant) : Option Span :=
  (tracker.getAggregate key window now).lastTx.map fun last => now - last

end SpendingTracker

end Hsm.Auth

import Hsm.Auth.Spending
import Mathlib.Data.List.ReduceOption

/-! The policy evaluator: address restrictions, spending limits and velocity limits. -/

namespace Hsm.Auth

inductive AddressRestrictionMode where
  | allowlist
  | blocklist
  deriving DecidableEq, Repr

structure AddressEntry where
  address : String
  enabled : Bool
  expiresAt : Option Instant
  deriving DecidableEq, Repr

def AddressEntry.isValid (entry : AddressEntry) (now : Instant) : Bool :=
  entry.enabled && entry.expiresAt.all fun expires => now ≤ expires

structure AddressPolicy where
  mode : AddressRestrictionMode
  addresses : List AddressEntry
  patterns : List String
  deriving DecidableEq, Repr

namespace AddressPolicy

def matchesPattern (address pattern : String) : Bool :=
  if pattern.toList.getLast? = some '*' then
    pattern.toList.dropLast.isPrefixOf address.toList
  else if pattern.toList.head? = some '*' then
    pattern.toList.tail.isSuffixOf address.toList
  else address = pattern

def containsAddress (toLowercase : String → String) (policy : AddressPolicy) (now : Instant)
    (address : String) : Bool :=
  let normalized := toLowercase address
  (policy.addresses.any fun entry => entry.isValid now && entry.address = normalized) ||
    policy.patterns.any fun pattern => matchesPattern normalized pattern

def isAllowed (toLowercase : String → String) (policy : AddressPolicy) (now : Instant)
    (address : String) : Bool :=
  match policy.mode with
  | .allowlist => policy.containsAddress toLowercase now address
  | .blocklist => !policy.containsAddress toLowercase now address

end AddressPolicy

inductive PolicyDecision where
  | allow
  | requireApproval
  | deny
  deriving DecidableEq, Repr

inductive ViolationType where
  | spendingLimitExceeded
  | velocityLimitExceeded
  | addressNotAllowed
  | addressBlocklisted
  | cooldownActive
  deriving DecidableEq, Repr

structure PolicyViolation where
  violationType : ViolationType
  message : String
  currentValue : Option String
  limitValue : Option String
  deriving DecidableEq, Repr

namespace PolicyViolation

def spendingLimit (current limit : String) (window : TimeWindow) : PolicyViolation :=
  ⟨.spendingLimitExceeded,
    window.display ++ " spending limit exceeded: " ++ current ++ " / " ++ limit ++ " max",
    some current, some limit⟩

def velocityLimit (count max : UInt32) (window : TimeWindow) : PolicyViolation :=
  ⟨.velocityLimitExceeded,
    window.display ++ " transaction limit exceeded: " ++ toString count.toNat ++ " / " ++
      toString max.toNat ++ " max",
    some (toString count.toNat), some (toString max.toNat)⟩

def addressNotAllowed (address : String) : PolicyViolation :=
  ⟨.addressNotAllowed, "Address " ++ address ++ " not in allowlist", some address, none⟩

def addressBlocklisted (address : String) : PolicyViolation :=
  ⟨.addressBlocklisted, "Address " ++ address ++ " is blocklisted", some address, none⟩

def cooldownActive (remainingSeconds : Nat) : PolicyViolation :=
  ⟨.cooldownActive, "Cooldown active: " ++ toString remainingSeconds ++ " seconds remaining",
    some (toString remainingSeconds), none⟩

end PolicyViolation

structure TransactionContext where
  assetType : AssetType
  value : String
  recipient : String
  keyId : String
  ns : String
  user : String
  deriving DecidableEq, Repr

structure EvaluationResult where
  decision : PolicyDecision
  violations : List PolicyViolation
  requiredApprovals : Option UInt32
  deriving DecidableEq, Repr

structure PolicyEvaluator where
  toLowercase : String → String
  spendingPolicy : Option SpendingPolicy
  addressPolicy : Option AddressPolicy

namespace PolicyEvaluator

section

variable (tracker : SpendingTracker) (now : Instant) (ctx : TransactionContext)

/-- Check a limit; some assets have no key, and panic. -/
def checkSpendingLimit (limit : SpendingLimit) : Option (Option PolicyViolation) :=
  if limit.window = .perTransaction then
    if limit.exceeds ctx.value then
      some (some (.spendingLimit ctx.value limit.maxValue .perTransaction))
    else some none
  else do
    let key ← TrackerKey.forKey ctx.assetType ctx.keyId
    let aggregate := tracker.getAggregate key limit.window now
    let newValue := (parseU128 ctx.value).getD 0
    let total := saturatingAdd aggregate.totalValue newValue
    match limit.maxValueU128.filter (total > ·) with
    | some _ => return some (.spendingLimit (toString total) limit.maxValue limit.window)
    | none =>
      match limit.maxTransactions.filter (aggregate.txCount ≥ ·) with
      | some maxTx => return some (.velocityLimit aggregate.txCount maxTx limit.window)
      | none => return none

def checkVelocityLimit (limit : VelocityLimit) : Option (Option PolicyViolation) := do
  let key ← TrackerKey.forKey ctx.assetType ctx.keyId
  let aggregate := tracker.getAggregate key limit.window now
  if limit.exceedsCount aggregate.txCount then
    return some (.velocityLimit aggregate.txCount limit.maxCount limit.window)
  else
    let cooldown := do
      let cooldown ← limit.cooldownSeconds
      let sinceLast ← tracker.timeSinceLastTx key limit.window now
      let left := seconds cooldown.toNat - sinceLast
      if sinceLast < seconds cooldown.toNat then some (left.tdiv (10 ^ 9)).toNat else none
    match cooldown with
    | some remaining => return some (.cooldownActive remaining)
    | none =>
      match limit.maxTotalValue with
      | none => return none
      | some maxTotal =>
        let newValue := (parseU128 ctx.value).getD 0
        let total := saturatingAdd aggregate.totalValue newValue
        if limit.exceedsValue (toString total) then
          return some (.spendingLimit (toString total) maxTotal limit.window)
        else return none

def spendingViolations (policy : SpendingPolicy) : Option (List (Bool × PolicyViolation)) := do
  let found ← (policy.limitsForAsset ctx.assetType).mapM fun limit =>
    (checkSpendingLimit tracker now ctx limit).map (·.map fun violation => (limit.hardLimit, violation))
  return found.reduceOption

def velocityViolations (policy : SpendingPolicy) : Option (List PolicyViolation) := do
  let limits := policy.velocityLimits.filter fun velocity =>
    velocity.assetType.all fun asset => asset.matchesAsset ctx.assetType
  let found ← limits.mapM (checkVelocityLimit tracker now ctx)
  return found.reduceOption

/-- Violations, unless the recipient bypasses limits. -/
def limitViolations (toLowercase : String → String) (policy : Option SpendingPolicy) :
    Option (List (Bool × PolicyViolation) × List PolicyViolation) :=
  match policy with
  | none => some ([], [])
  | some policy =>
    if policy.isBypassAddress toLowercase ctx.recipient then some ([], [])
    else do
      let found ← spendingViolations tracker now ctx policy
      let velocity ← velocityViolations tracker now ctx policy
      return (found, velocity)

def addressViolation (toLowercase : String → String) (policy : Option AddressPolicy) :
    Option PolicyViolation :=
  match policy with
  | none => none
  | some policy =>
    if policy.isAllowed toLowercase now ctx.recipient then none
    else
      match policy.mode with
      | .allowlist => some (.addressNotAllowed ctx.recipient)
      | .blocklist => some (.addressBlocklisted ctx.recipient)

end

def evaluate (evaluator : PolicyEvaluator) (tracker : SpendingTracker) (now : Instant)
    (ctx : TransactionContext) : Option EvaluationResult :=
  match addressViolation now ctx evaluator.toLowercase evaluator.addressPolicy with
  | some violation => some ⟨.deny, [violation], none⟩
  | none => do
    let (found, velocity) ←
      limitViolations tracker now ctx evaluator.toLowercase evaluator.spendingPolicy
    let violations := (found.filter (·.1)).map (·.2) ++ velocity
    let softViolations := (found.filter fun entry => !entry.1).map (·.2)
    if !violations.isEmpty then return ⟨.deny, violations, none⟩
    else if !softViolations.isEmpty then return ⟨.requireApproval, softViolations, some 1⟩
    else return ⟨.allow, [], none⟩

end PolicyEvaluator

end Hsm.Auth

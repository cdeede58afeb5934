import Hsm.Bridge.Event

/-! The policy of the bridge, and where it treats a suspicious transfer more mildly than others. -/

namespace Hsm.Bridge

inductive PolicyAction where
  | allow
  | requireApproval (requiredApprovers : UInt32) (reason : String)
  | timeLock (delaySecs : UInt64) (reason : String)
  | block (reason : String)
  | pauseBridge (reason : String)
  | alertOnly (severity : Severity) (message : String)
  deriving DecidableEq, Repr

namespace PolicyAction

def isAllowed : PolicyAction → Bool
  | .allow | .alertOnly .. => true
  | _ => false

def isBlocked : PolicyAction → Bool
  | .block _ | .pauseBridge _ => true
  | _ => false

def strictness (action : PolicyAction) : Nat :=
  if action.isAllowed then 0 else if action.isBlocked then 2 else 1

end PolicyAction

structure PolicyConfig where
  autoPauseOnAnomaly : Bool
  approvalThreshold : Option BigDecimal
  requiredApprovers : UInt32
  timeLockSecs : UInt64
  whitelist : List String
  blacklist : List String

structure PolicyEnforcer where
  config : PolicyConfig
  paused : Bool
  pauseReason : Option String
  whitelist : List String
  blacklist : List String

namespace PolicyEnforcer

variable (render : Rendering)

/-- Addresses are kept in lower case. -/
def new (config : PolicyConfig) : PolicyEnforcer :=
  ⟨config, false, none, config.whitelist.map render.lowercase,
    config.blacklist.map render.lowercase⟩

variable (enforcer : PolicyEnforcer)

def isWhitelisted (address : String) : Bool :=
  enforcer.whitelist.contains (render.lowercase address)

def isBlacklisted (address : String) : Bool :=
  enforcer.blacklist.contains (render.lowercase address)

def overThreshold (event : CorrelatedEvent) : Bool :=
  enforcer.config.approvalThreshold.any fun threshold =>
    decide (threshold.value < event.amount.value)

def approvalReason (event : CorrelatedEvent) (detection : DetectionResult) : String :=
  detection.description ++ " (correlation " ++ event.id ++ ")"

def handleAnomaly (event : CorrelatedEvent) (detection : DetectionResult) : Option PolicyAction :=
  -- the type is unwrapped before the severity is looked at
  detection.anomalyType.map fun anomalyType =>
    match detection.severity with
    | .critical =>
      if enforcer.config.autoPauseOnAnomaly then .pauseBridge detection.description
      else .block detection.description
    | .high =>
      match anomalyType with
      | .largeWithdrawal =>
        if 0 < enforcer.config.timeLockSecs then
          .timeLock enforcer.config.timeLockSecs
            ("Large withdrawal of " ++ render.display event.amount ++
              " held for review (correlation " ++ event.id ++ ")")
        else .requireApproval enforcer.config.requiredApprovers (approvalReason event detection)
      | .blacklistedAddress => .block "Blacklisted address"
      | _ => .requireApproval enforcer.config.requiredApprovers (approvalReason event detection)
    | .medium => .alertOnly .medium detection.description
    | .low => .allow

/-- Approval by amount, then the time lock. -/
def handleNormal (event : CorrelatedEvent) : PolicyAction :=
  match enforcer.config.approvalThreshold with
  | some threshold =>
    if threshold.value < event.amount.value then
      .requireApproval enforcer.config.requiredApprovers
        ("Transaction amount " ++ render.display event.amount ++ " exceeds threshold " ++
          render.display threshold)
    else timeLocked
  | none => timeLocked
where
  timeLocked : PolicyAction :=
    if 0 < enforcer.config.timeLockSecs then
      .timeLock enforcer.config.timeLockSecs "Standard time lock for large transactions"
    else .allow

def evaluate (event : CorrelatedEvent) (detection : DetectionResult) :
    Option PolicyAction :=
  if enforcer.paused then some (.block (enforcer.pauseReason.getD "Bridge is paused"))
  else if isBlacklisted render enforcer event.sourceEvent.fromAddress ||
      isBlacklisted render enforcer event.sourceEvent.toAddress then
    some (.block "Address is blacklisted")
  else if isWhitelisted render enforcer event.sourceEvent.fromAddress then some .allow
  else if detection.isAnomaly then handleAnomaly render enforcer event detection
  else some (handleNormal render enforcer event)

/-- Early returns, which do not look at the report. -/
def Settled (event : CorrelatedEvent) : Prop :=
  enforcer.paused = true ∨ isBlacklisted render enforcer event.sourceEvent.fromAddress = true ∨
    isBlacklisted render enforcer event.sourceEvent.toAddress = true ∨
    isWhitelisted render enforcer event.sourceEvent.fromAddress = true

/-- A transfer without an anomaly is held. -/
def Held (event : CorrelatedEvent) : Prop :=
  overThreshold enforcer event = true ∨ 0 < enforcer.config.timeLockSecs

variable {render}

theorem evaluate_settled {enforcer : PolicyEnforcer} {event : CorrelatedEvent}
    (settled : Settled render enforcer event) (first second : DetectionResult) :
    ∃ action, evaluate render enforcer event first = some action ∧
      evaluate render enforcer event second = some action := by
  -- each early return stands before the report is read
  unfold evaluate
  by_cases paused : enforcer.paused = true
  · simp [paused]
  by_cases blacklisted : (isBlacklisted render enforcer event.sourceEvent.fromAddress ||
      isBlacklisted render enforcer event.sourceEvent.toAddress) = true
  · simp [paused, blacklisted]
  have whitelisted : isWhitelisted render enforcer event.sourceEvent.fromAddress = true := by
    rcases settled with h | h | h | h
    · exact absurd h paused
    · simp [h] at blacklisted
    · simp [h] at blacklisted
    · exact h
  simp [paused, blacklisted, whitelisted]

theorem evaluate_unsettled {enforcer : PolicyEnforcer} {event : CorrelatedEvent}
    (unsettled : ¬ Settled render enforcer event) (detection : DetectionResult) :
    evaluate render enforcer event detection =
      if detection.isAnomaly then handleAnomaly render enforcer event detection
      else some (handleNormal render enforcer event) := by
  unfold Settled at unsettled
  push Not at unsettled
  obtain ⟨paused, fromAddress, toAddress, whitelisted⟩ := unsettled
  simp [evaluate, paused, fromAddress, toAddress, whitelisted]

/-- Without an anomaly a transfer is held as `Held` says. -/
theorem strictness_handleNormal (event : CorrelatedEvent) :
    (handleNormal render enforcer event).strictness =
      if overThreshold enforcer event || decide (0 < enforcer.config.timeLockSecs) then 1
      else 0 := by
  unfold handleNormal handleNormal.timeLocked overThreshold
  cases enforcer.config.approvalThreshold with
  | none => by_cases locked : 0 < enforcer.config.timeLockSecs <;> simp [locked] <;> rfl
  | some threshold =>
    by_cases above : threshold.value < event.amount.value <;>
      by_cases locked : 0 < enforcer.config.timeLockSecs <;> simp [above, locked] <;> rfl

/-- Only severe anomalies hold a transfer. -/
theorem strictness_handleAnomaly (event : CorrelatedEvent) (detection : DetectionResult)
    (action : PolicyAction) (handled : handleAnomaly render enforcer event detection = some action)
    :
    (detection.severity.rank ≤ 1 → action.strictness = 0) ∧
      (2 ≤ detection.severity.rank → 1 ≤ action.strictness) := by
  unfold handleAnomaly at handled
  obtain ⟨anomalyType, -, rfl⟩ := Option.map_eq_some_iff.mp handled
  cases detection.severity with
  | low => exact ⟨fun _ => rfl, fun high => absurd high (by decide)⟩
  | medium => exact ⟨fun _ => rfl, fun high => absurd high (by decide)⟩
  | high =>
    refine ⟨fun mild => absurd mild (by decide), fun _ => ?_⟩
    cases anomalyType with
    | largeWithdrawal =>
      by_cases locked : 0 < enforcer.config.timeLockSecs <;>
        simp only [locked, if_true, if_false] <;> exact Nat.le_refl 1
    | blacklistedAddress => exact Nat.le_succ 1
    | _ => exact Nat.le_refl 1
  | critical =>
    refine ⟨fun mild => absurd mild (by decide), fun _ => ?_⟩
    by_cases pauses : enforcer.config.autoPauseOnAnomaly = true <;>
      simp only [pauses, if_true, if_false, Bool.false_eq_true] <;> exact Nat.le_succ 1

/-- A report makes the action milder only if its severity is low or medium. -/
theorem anomaly_stricter_iff (render : Rendering) (enforcer : PolicyEnforcer)
    (event : CorrelatedEvent) (anomalyType : AnomalyType) (detection : DetectionResult)
    (anomalous : detection.isAnomaly = true) (typed : detection.anomalyType = some anomalyType) :
    ∃ suspicious usual, evaluate render enforcer event detection = some suspicious ∧
      evaluate render enforcer event .normal = some usual ∧
      (usual.strictness ≤ suspicious.strictness ↔
        Settled render enforcer event ∨ 2 ≤ detection.severity.rank ∨
          ¬ Held enforcer event) := by
  by_cases settled : Settled render enforcer event
  · obtain ⟨action, first, second⟩ := evaluate_settled settled detection .normal
    exact ⟨action, action, first, second, by simp [settled]⟩
  -- past the early returns the two reports lead to the two decision procedures
  obtain ⟨action, handled⟩ : ∃ action,
      handleAnomaly render enforcer event detection = some action :=
    Option.isSome_iff_exists.mp (by simp [handleAnomaly, typed])
  obtain ⟨mild, severe⟩ := strictness_handleAnomaly enforcer event detection action handled
  refine ⟨action, handleNormal render enforcer event, ?_, ?_, ?_⟩
  · rw [evaluate_unsettled settled, if_pos anomalous, handled]
  · rw [evaluate_unsettled settled]
    rfl
  have usual := @strictness_handleNormal render enforcer event
  unfold Held
  by_cases high : 2 ≤ detection.severity.rank
  · have atLeast := severe high
    have atMost : (handleNormal render enforcer event).strictness ≤ 1 := by
      rw [usual]
      split <;> decide
    simp only [high, true_or, or_true, iff_true]
    omega
  · have none := mild (by omega)
    rw [usual, none]
    by_cases above : overThreshold enforcer event = true <;>
      by_cases locked : 0 < enforcer.config.timeLockSecs <;> simp [settled, high, above, locked]

def lockedTransfer : CorrelatedEvent :=
  ⟨"c", ⟨"e", "ethereum", 12345, "0xdep", .deposit, "USDC", ⟨100, 0⟩, "0xsender", "0xrecipient",
    none, none, 0, 0, .null⟩, none, .pending, 0, none, none⟩

def locking : PolicyEnforcer := new .plain ⟨true, none, 2, 3600, [], []⟩

def reported (severity : Severity) : DetectionResult :=
  .anomaly .rapidWithdrawals severity "Rapid withdrawals detected" "Investigate pattern"

theorem medium_anomaly_unlocks :
    evaluate .plain locking lockedTransfer (reported .medium) =
        some (.alertOnly .medium "Rapid withdrawals detected") ∧
      evaluate .plain locking lockedTransfer .normal =
        some (.timeLock 3600 "Standard time lock for large transactions") ∧
      (PolicyAction.alertOnly .medium "Rapid withdrawals detected").strictness <
        (PolicyAction.timeLock 3600 "Standard time lock for large transactions").strictness :=
  ⟨rfl, rfl, by decide⟩

theorem anomaly_stricter_high :
    ∃ suspicious usual, evaluate .plain locking lockedTransfer (reported .high) = some suspicious ∧
      evaluate .plain locking lockedTransfer .normal = some usual ∧
      usual.strictness ≤ suspicious.strictness := by
  obtain ⟨suspicious, usual, first, second, stricter⟩ :=
    anomaly_stricter_iff .plain locking lockedTransfer .rapidWithdrawals (reported .high) rfl rfl
  exact ⟨suspicious, usual, first, second, stricter.mpr (Or.inr (Or.inl (by decide)))⟩

end PolicyEnforcer

end Hsm.Bridge

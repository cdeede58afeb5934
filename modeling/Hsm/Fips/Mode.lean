import Hsm.Lib.Run
import Hsm.Lib.Bytes
import Hsm.Fips.Algorithms

/-! The FIPS mode controller, and what it refuses after it has entered its error state. -/

namespace Hsm.Fips

inductive FipsError where
  | algorithmNotApproved (text : String)
  | algorithmUnderEvaluation (text : String)
  | verificationOnlyAlgorithm (name : String)
  | selfTestFailed (names : String)
  | rngHealthFailed (text : String)
  | notInitialized
  | invalidParameter (text : String)
  | thresholdInvalidConfig (text : String)
  deriving DecidableEq, Repr

inductive FipsStatus where
  | uninitialized | initializing | operational | selfTestFailed | error | degraded
  deriving DecidableEq, Repr

inductive ThresholdScheme where
  | frostEd25519 | thresholdEcdsaP256 | thresholdEcdsaP384 | thresholdEcdsaSecp256k1
  | thresholdBls12381
  deriving DecidableEq, Repr

/-- The curve of a scheme is not approved, or is none of NIST. -/
def ThresholdScheme.Unapproved (table : ApprovedAlgorithms) : ThresholdScheme → Prop
  | .frostEd25519 => .frostEd25519 ∉ table.approved
  | .thresholdEcdsaP256 => .thresholdEcdsaP256 ∉ table.approved
  | .thresholdEcdsaP384 => .thresholdEcdsaP384 ∉ table.approved
  | .thresholdEcdsaSecp256k1 | .thresholdBls12381 => True

structure ThresholdConfig where
  threshold : UInt16
  totalParticipants : UInt16
  deriving DecidableEq, Repr

structure SelfTestResult where
  passed : Bool
  failedTests : List String
  deriving DecidableEq, Repr

structure FipsMode where
  enabled : Bool
  status : FipsStatus
  errorMessage : Option String
  approved : ApprovedAlgorithms
  drbg : Bool

namespace FipsMode

def initializeMode (tests : Except FipsError SelfTestResult) (drbg : Except String Unit) :
    Except FipsError FipsMode := do
  let result ← tests
  if !result.passed then .error (.selfTestFailed (", ".intercalate result.failedTests))
  else
    let _ ← drbg.mapError .rngHealthFailed
    return ⟨true, .operational, none, .new, true⟩

variable (mode : FipsMode)

def canUse (algorithm : Algorithm) (forVerification : Bool) : Bool :=
  -- All algorithms are allowed when FIPS mode is disabled.
  if !mode.enabled then true else mode.approved.canUse algorithm forVerification

def requireApproved (algorithm : Algorithm) : Except FipsError Unit :=
  if !mode.enabled then .ok ()
  else if !mode.approved.isApproved algorithm then
    .error (.algorithmNotApproved
      ((mode.approved.rejectionReason algorithm).getD algorithm.name))
  else .ok ()

def requireForOperation (algorithm : Algorithm) (forVerification : Bool) :
    Except FipsError Unit :=
  if !mode.enabled then .ok ()
  else if !mode.approved.canUse algorithm forVerification then
    if mode.approved.isVerificationOnly algorithm && !forVerification then
      .error (.verificationOnlyAlgorithm algorithm.name)
    else .error (.algorithmNotApproved algorithm.name)
  else .ok ()

def requireApprovedThreshold (scheme : ThresholdScheme) : Except FipsError Unit :=
  if !mode.enabled then .ok ()
  else match scheme with
    | .frostEd25519 => mode.requireApproved .frostEd25519
    | .thresholdEcdsaP256 => mode.requireApproved .thresholdEcdsaP256
    | .thresholdEcdsaP384 => mode.requireApproved .thresholdEcdsaP384
    | .thresholdEcdsaSecp256k1 => .error (.algorithmNotApproved
      "ThresholdEcdsaSecp256k1 uses non-NIST curve secp256k1 which is not FIPS approved")
    | .thresholdBls12381 => .error (.algorithmUnderEvaluation
      "ThresholdBls12381 is under NIST evaluation and not yet FIPS approved")

def validateThresholdConfig (config : ThresholdConfig) : Except FipsError Unit :=
  if !mode.enabled then .ok ()
  else if config.threshold < 2 then
    .error (.invalidParameter "FIPS requires minimum threshold of 2 for threshold cryptography")
  else if config.threshold > config.totalParticipants then
    .error (.thresholdInvalidConfig ("Threshold (" ++ toString config.threshold ++
      ") cannot exceed total participants (" ++ toString config.totalParticipants ++ ")"))
  else .ok ()

def checkThresholdOperation (scheme : ThresholdScheme) (config : ThresholdConfig) :
    Except FipsError Unit := do
  mode.requireApprovedThreshold scheme
  mode.validateThresholdConfig config

def generateRandom (generated : Except String Bytes) : Except FipsError Bytes :=
  if mode.drbg then generated.mapError .rngHealthFailed else .error .notInitialized

def enterErrorState (message : String) : FipsMode :=
  { mode with enabled := false, status := .error, errorMessage := some message }

def runConditionalTest (tests : Except FipsError SelfTestResult) :
    FipsMode × Except FipsError Unit :=
  match tests with
  | .error error => (mode, .error error)
  | .ok result =>
    if !result.passed then
      (mode.enterErrorState "Conditional self-test failed",
        .error (.selfTestFailed "Conditional test failed"))
    else (mode, .ok ())

end FipsMode

/-- Calls, with what the DRBG and the self-tests give. -/
inductive FipsCall where
  | canUse (algorithm : Algorithm) (forVerification : Bool)
  | requireApproved (algorithm : Algorithm)
  | requireForOperation (algorithm : Algorithm) (forVerification : Bool)
  | requireApprovedThreshold (scheme : ThresholdScheme)
  | checkThresholdOperation (scheme : ThresholdScheme) (config : ThresholdConfig)
  | generateRandom (generated : Except String Bytes)
  | enterErrorState (message : String)
  | runConditionalTest (tests : Except FipsError SelfTestResult)

namespace FipsCall

def EntersError : FipsCall → Prop
  | .enterErrorState _ => True
  | .runConditionalTest (.ok result) => result.passed = false
  | _ => False

def Checks : FipsCall → Prop
  | .generateRandom _ | .enterErrorState _ | .runConditionalTest _ => False
  | _ => True

def serve (mode : FipsMode) : FipsCall → FipsMode × List Bool
  | .canUse algorithm forVerification => (mode, [mode.canUse algorithm forVerification])
  | .requireApproved algorithm => (mode, [(mode.requireApproved algorithm).isOk])
  | .requireForOperation algorithm forVerification =>
    (mode, [(mode.requireForOperation algorithm forVerification).isOk])
  | .requireApprovedThreshold scheme => (mode, [(mode.requireApprovedThreshold scheme).isOk])
  | .checkThresholdOperation scheme config =>
    (mode, [(mode.checkThresholdOperation scheme config).isOk])
  | .generateRandom generated => (mode, [(mode.generateRandom generated).isOk])
  | .enterErrorState message => (mode.enterErrorState message, [true])
  | .runConditionalTest tests =>
    ((mode.runConditionalTest tests).1, [(mode.runConditionalTest tests).2.isOk])

/-- The table, the scheme, the configuration or the generator's outcome forbids a call. -/
def Forbidden (table : ApprovedAlgorithms) : FipsCall → Prop
  | .canUse algorithm forVerification | .requireForOperation algorithm forVerification =>
    algorithm ∉ table.approved ∧ (forVerification = true → algorithm ∉ table.verificationOnly)
  | .requireApproved algorithm => algorithm ∉ table.approved
  | .requireApprovedThreshold scheme => scheme.Unapproved table
  | .checkThresholdOperation scheme config =>
    scheme.Unapproved table ∨ config.threshold < 2 ∨ config.totalParticipants < config.threshold
  | .generateRandom generated => ∃ failure, generated = .error failure
  | .enterErrorState _ => False
  | .runConditionalTest tests => ∀ result, tests = .ok result → result.passed = false

end FipsCall

namespace FipsMode

open FipsCall (EntersError Checks Forbidden serve)

/-- Only entering the error state changes what calls look at. -/
theorem run_served (mode : FipsMode) (calls : List FipsCall) :
    let after := (trace serve mode calls).1
    after.approved = mode.approved ∧ after.drbg = mode.drbg ∧
      (after.enabled = true ↔ mode.enabled = true ∧ ∀ call ∈ calls, ¬ call.EntersError) := by
  induction calls generalizing mode with
  | nil => simp
  | cons call calls ih =>
    -- One call keeps everything, or it enters the error state.
    have step : (serve mode call).1.approved = mode.approved ∧
        (serve mode call).1.drbg = mode.drbg ∧
        ((serve mode call).1.enabled = true ↔ mode.enabled = true ∧ ¬ call.EntersError) := by
      cases call with
      | enterErrorState message => simp [serve, enterErrorState, EntersError]
      | runConditionalTest tests =>
        rcases tests with error | ⟨passed, names⟩
        · simp [serve, runConditionalTest, EntersError]
        · cases passed <;> simp [serve, runConditionalTest, enterErrorState, EntersError]
      | _ => simp [serve, EntersError]
    obtain ⟨approved, drbg, enabled⟩ := ih (serve mode call).1
    refine ⟨approved.trans step.1, drbg.trans step.2.1, enabled.trans ?_⟩
    rw [step.2.2, List.forall_mem_cons, and_assoc]

@[simp] theorem isOk_ok {α ε : Type} (value : α) : (Except.ok value : Except ε α).isOk = true := rfl

@[simp] theorem isOk_error {α ε : Type} (error : ε) :
    (Except.error error : Except ε α).isOk = false := rfl

variable {mode : FipsMode}

theorem requireApproved_refused (enabled : mode.enabled = true) (algorithm : Algorithm) :
    (mode.requireApproved algorithm).isOk = false ↔ algorithm ∉ mode.approved.approved := by
  by_cases approved : algorithm ∈ mode.approved.approved <;>
    simp [requireApproved, ApprovedAlgorithms.isApproved, enabled, approved]

theorem requireApprovedThreshold_refused (enabled : mode.enabled = true)
    (scheme : ThresholdScheme) :
    (mode.requireApprovedThreshold scheme).isOk = false ↔ scheme.Unapproved mode.approved := by
  cases scheme <;>
    simp [requireApprovedThreshold, ThresholdScheme.Unapproved, enabled, requireApproved_refused]

theorem requireForOperation_refused (enabled : mode.enabled = true) (algorithm : Algorithm)
    (forVerification : Bool) :
    (mode.requireForOperation algorithm forVerification).isOk = false ↔
      mode.approved.canUse algorithm forVerification = false := by
  simp only [requireForOperation, enabled, Bool.not_true, Bool.false_eq_true, if_false]
  cases mode.approved.canUse algorithm forVerification with
  | true => simp
  | false => simp only [Bool.not_false, if_true]; split <;> simp

theorem canUse_eq_false {table : ApprovedAlgorithms} {algorithm : Algorithm}
    {forVerification : Bool} : table.canUse algorithm forVerification = false ↔
      algorithm ∉ table.approved ∧
        (forVerification = true → algorithm ∉ table.verificationOnly) := by
  simp [ApprovedAlgorithms.canUse]

theorem checkThresholdOperation_refused (enabled : mode.enabled = true)
    (scheme : ThresholdScheme) (config : ThresholdConfig) :
    (mode.checkThresholdOperation scheme config).isOk = false ↔
      scheme.Unapproved mode.approved ∨ config.threshold < 2 ∨
        config.totalParticipants < config.threshold := by
  rw [← requireApprovedThreshold_refused enabled]
  simp only [checkThresholdOperation, validateThresholdConfig, bind, Except.bind, enabled]
  cases mode.requireApprovedThreshold scheme with
  | error failure => simp
  | ok =>
    by_cases small : config.threshold < 2
    · simp [small]
    · by_cases large : config.totalParticipants < config.threshold <;> simp [small, large]

/-- An enabled mode refuses what the table, the scheme or the outcome forbids. -/
theorem serve_refuses_enabled (enabled : mode.enabled = true) (drbg : mode.drbg = true)
    (call : FipsCall) : (serve mode call).2 = [false] ↔ call.Forbidden mode.approved := by
  cases call with
  | canUse algorithm forVerification =>
    simp [serve, canUse, enabled, Forbidden, canUse_eq_false]
  | requireApproved algorithm => simp [serve, Forbidden, requireApproved_refused enabled]
  | requireForOperation algorithm forVerification =>
    simp [serve, Forbidden, requireForOperation_refused enabled, canUse_eq_false]
  | requireApprovedThreshold scheme =>
    simp [serve, Forbidden, requireApprovedThreshold_refused enabled]
  | checkThresholdOperation scheme config =>
    simp [serve, Forbidden, checkThresholdOperation_refused enabled]
  | generateRandom generated =>
    cases generated <;> simp [serve, Forbidden, generateRandom, drbg, Except.mapError]
  | enterErrorState message => simp [serve, Forbidden]
  | runConditionalTest tests =>
    rcases tests with error | ⟨_ | _, names⟩ <;> simp [serve, Forbidden, runConditionalTest]

/-- A disabled mode lets all checks through. -/
theorem serve_refuses_disabled (disabled : mode.enabled = false) (drbg : mode.drbg = true)
    (call : FipsCall) :
    (serve mode call).2 = [false] ↔ ¬ call.Checks ∧ call.Forbidden mode.approved := by
  cases call with
  | generateRandom generated =>
    cases generated <;> simp [serve, Forbidden, Checks, generateRandom, drbg, Except.mapError]
  | enterErrorState message => simp [serve, Forbidden]
  | runConditionalTest tests =>
    rcases tests with error | ⟨_ | _, names⟩ <;> simp [serve, Forbidden, Checks, runConditionalTest]
  | _ => simp [serve, Checks, disabled, canUse, requireApproved, requireForOperation,
      requireApprovedThreshold, checkThresholdOperation, validateThresholdConfig, bind, Except.bind]

def operational : FipsMode := ⟨true, .operational, none, .new, true⟩

end FipsMode

end Hsm.Fips

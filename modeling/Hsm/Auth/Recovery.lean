import Hsm.Auth.Error
import Hsm.Lib.Dict
import Hsm.Lib.Sha256
import Hsm.Lib.Text

/-! Account recovery: requests of four kinds that are verified, approved and completed. -/

namespace Hsm.Auth

inductive RecoveryMethod where
  | email (email : String)
  | sms (phone phoneHint : String)
  | backupCodes (remainingCount : Nat)
  | socialRecovery (threshold totalGuardians : Nat)
  | timeLocked (delayHours : Nat)
  deriving DecidableEq, Repr

inductive RecoveryStatus where
  | pending
  | verifying
  | timeLocked
  | awaitingGuardians
  | approved
  | completed
  | expired
  | denied
  deriving DecidableEq, Repr

structure GuardianApproval where
  guardianId : String
  guardianName : String
  approved : Bool
  approvedAt : Option Int
  approvedFromIp : Option String
  deriving DecidableEq, Repr

structure RecoveryRequest where
  id : String
  userId : String
  method : RecoveryMethod
  status : RecoveryStatus
  createdAt : Instant
  createdTimestamp : Int
  expiresIn : Span
  verificationHash : Option String
  guardianApprovals : List GuardianApproval
  timeLockEndsAt : Option Int
  requestIp : Option String
  userAgent : Option String
  attempts : Nat
  maxAttempts : Nat
  deriving DecidableEq, Repr

namespace RecoveryRequest

variable (request : RecoveryRequest)

def isExpired (now : Clocks) : Bool :=
  now.since request.createdAt > request.expiresIn

def timeLockPassed (now : Clocks) : Bool :=
  match request.timeLockEndsAt with
  | some endsAt => now.system ≥ endsAt
  | none => true

def hasGuardianQuorum (threshold : Nat) : Bool :=
  request.guardianApprovals.countP (·.approved) ≥ threshold

end RecoveryRequest

/-- Recovery configuration; the ratio of guardians is rounded up. -/
structure RecoveryConfig where
  requestTtl : Span := seconds (24 * 3600)
  codeTtl : Span := seconds 600
  maxAttempts : Nat := 5
  timeLockHours : Nat := 24
  /-- With 64 digits or more, the source divides by zero and panics. -/
  codeLength : Fin 64 := 6
  minGuardians : Nat := 3
  guardianThreshold : Nat → Nat := fun guardians => (guardians + 1) / 2

structure Guardian where
  id : String
  name : String
  email : String
  addedAt : Int
  deriving DecidableEq, Repr

structure UserRecoveryConfig where
  userId : String
  email : Option String
  phone : Option String
  backupCodeHashes : List String
  guardians : List Guardian
  timeLockedEnabled : Bool
  timeLockHours : Nat
  updatedAt : Int
  deriving DecidableEq, Repr

def codeHash (code : String) : String := hexEncode (sha256 (asBytes code))

def RecoveryCode.generate (toUppercase : String → String) (length : Nat) (drawn : Bytes) : String :=
  toUppercase (String.ofList ((hexEncode drawn).toList.take length))

def VerificationCode.generate (length : Nat) (drawn : UInt64) : String :=
  let digits := toString (drawn.toNat % (10 ^ length % 2 ^ 64))
  String.ofList (List.replicate (length - digits.length) '0') ++ digits

def ctEqHexHash (a b : String) : Bool :=
  match hexDecode a, hexDecode b with
  | .ok a, .ok b => a.length = b.length ∧ a = b
  | _, _ => false

structure RecoveryManager where
  toLowercase : String → String
  toUppercase : String → String
  config : RecoveryConfig
  requests : Dict String RecoveryRequest
  userConfigs : Dict String UserRecoveryConfig
  lastRequest : Dict String Instant
  rateLimitInterval : Span

namespace RecoveryManager

def new (toLowercase toUppercase : String → String) (config : RecoveryConfig) :
    RecoveryManager where
  toLowercase
  toUppercase
  config
  requests := ∅
  userConfigs := ∅
  lastRequest := ∅
  rateLimitInterval := seconds 60

def generateRequestId (drawn : Bytes) : String := "rec_" ++ hexEncode drawn

variable (manager : RecoveryManager)

def configureUser (now : Clocks) (drawn : List Bytes) (userId : String)
    (email phone : Option String) (guardians : List Guardian) (timeLocked : Bool) :
    RecoveryManager × List String :=
  let backupCodes := drawn.map (RecoveryCode.generate manager.toUppercase 12)
  let config : UserRecoveryConfig := {
    userId
    email := email.map manager.toLowercase
    phone
    backupCodeHashes := backupCodes.map fun code => codeHash (manager.toUppercase code)
    guardians
    timeLockedEnabled := timeLocked
    timeLockHours := manager.config.timeLockHours
    updatedAt := now.system }
  ({ manager with userConfigs := manager.userConfigs.insert userId config }, backupCodes)

def checkRateLimit (now : Clocks) (userId : String) :
    Except AuthError Unit :=
  match manager.lastRequest[userId]? with
  | some last =>
    if now.since last < manager.rateLimitInterval then
      .error (.rateLimitExceeded ("Please wait " ++
        toString ((manager.rateLimitInterval - now.since last) / seconds 1) ++
        " seconds before requesting recovery again"))
    else .ok ()
  | none => .ok ()

def initiate (now : Clocks) (userId : String)
    (prepare : UserRecoveryConfig → Except AuthError RecoveryRequest) :
    RecoveryManager × Except AuthError RecoveryRequest :=
  match manager.checkRateLimit now userId with
  | .error error => (manager, .error error)
  | .ok () =>
    match manager.userConfigs[userId]? with
    | none => (manager, .error (.invalidSession "User not configured for recovery"))
    | some userConfig =>
      match prepare userConfig with
      | .error error => (manager, .error error)
      | .ok request =>
        ({ manager with
            requests := manager.requests.insert request.id request
            lastRequest := manager.lastRequest.insert userId now.steady }, .ok request)

/-- Who asks for recovery, and from where. -/
structure Asker where
  userId : String
  requestIp : Option String
  userAgent : Option String
  deriving DecidableEq, Repr

variable (config : RecoveryConfig)

def codeRequest (now : Clocks) (drawnCode : UInt64) (drawnId : Bytes) (asker : Asker)
    (method : RecoveryMethod) : RecoveryRequest where
  id := generateRequestId drawnId
  userId := asker.userId
  method
  status := .pending
  createdAt := now.steady
  createdTimestamp := now.system
  expiresIn := config.codeTtl
  verificationHash := some (codeHash (VerificationCode.generate config.codeLength drawnCode))
  guardianApprovals := []
  timeLockEndsAt := none
  requestIp := asker.requestIp
  userAgent := asker.userAgent
  attempts := 0
  maxAttempts := config.maxAttempts

def timeLockRequest (now : Clocks) (drawnId : Bytes) (asker : Asker) (hours : Nat) :
    RecoveryRequest where
  id := generateRequestId drawnId
  userId := asker.userId
  method := .timeLocked hours
  status := .timeLocked
  createdAt := now.steady
  createdTimestamp := now.system
  expiresIn := seconds (hours * 3600 + 3600)
  verificationHash := none
  guardianApprovals := []
  timeLockEndsAt := some (now.system + hours * 3600)
  requestIp := asker.requestIp
  userAgent := asker.userAgent
  attempts := 0
  maxAttempts := config.maxAttempts

def socialRequest (now : Clocks) (drawnId : Bytes) (asker : Asker) (guardians : List Guardian) :
    RecoveryRequest where
  id := generateRequestId drawnId
  userId := asker.userId
  method := .socialRecovery (config.guardianThreshold guardians.length) guardians.length
  status := .awaitingGuardians
  createdAt := now.steady
  createdTimestamp := now.system
  expiresIn := config.requestTtl
  verificationHash := none
  guardianApprovals := guardians.map fun guardian =>
    ⟨guardian.id, guardian.name, false, none, none⟩
  timeLockEndsAt := none
  requestIp := asker.requestIp
  userAgent := asker.userAgent
  attempts := 0
  maxAttempts := config.maxAttempts

def initiateEmailRecovery (now : Clocks) (drawnCode : UInt64) (drawnId : Bytes) (asker : Asker) :
    RecoveryManager × Except AuthError (String × String) :=
  let (next, result) := manager.initiate now asker.userId fun userConfig =>
    match userConfig.email with
    | none => .error (.invalidSession "Email recovery not configured")
    | some email => .ok (codeRequest manager.config now drawnCode drawnId asker (.email email))
  (next, result.map fun request =>
    (request.id, VerificationCode.generate manager.config.codeLength drawnCode))

def phoneHint (phone : String) : String :=
  String.ofList (phone.toList.reverse.take 4).reverse

def initiateSmsRecovery (now : Clocks) (drawnCode : UInt64) (drawnId : Bytes) (asker : Asker) :
    RecoveryManager × Except AuthError (String × String) :=
  let (next, result) := manager.initiate now asker.userId fun userConfig =>
    match userConfig.phone with
    | none => .error (.invalidSession "SMS recovery not configured")
    | some phone =>
      .ok (codeRequest manager.config now drawnCode drawnId asker (.sms phone (phoneHint phone)))
  (next, result.map fun request =>
    (request.id, VerificationCode.generate manager.config.codeLength drawnCode))

def initiateTimeLockedRecovery (now : Clocks) (drawnId : Bytes) (asker : Asker) :
    RecoveryManager × Except AuthError String :=
  let (next, result) := manager.initiate now asker.userId fun userConfig =>
    if !userConfig.timeLockedEnabled then
      .error (.invalidSession "Time-locked recovery not enabled")
    else .ok (timeLockRequest manager.config now drawnId asker userConfig.timeLockHours)
  (next, result.map (·.id))

def initiateSocialRecovery (now : Clocks) (drawnId : Bytes) (asker : Asker) :
    RecoveryManager × Except AuthError (String × List GuardianApproval) :=
  let (next, result) := manager.initiate now asker.userId fun userConfig =>
    if userConfig.guardians.length < manager.config.minGuardians then
      .error (.invalidSession "Not enough guardians configured")
    else .ok (socialRequest manager.config now drawnId asker userConfig.guardians)
  (next, result.map fun request => (request.id, request.guardianApprovals))

def withRequest {α : Type} (manager : RecoveryManager) (requestId : String)
    (act : RecoveryRequest → RecoveryRequest × Except AuthError α) :
    RecoveryManager × Except AuthError α :=
  match manager.requests[requestId]? with
  | none => (manager, .error (.invalidSession "Recovery request not found"))
  | some request =>
    ({ manager with requests := manager.requests.insert requestId (act request).1 },
      (act request).2)

end RecoveryManager

namespace RecoveryRequest

def verifyCode (now : Clocks) (code : String) (request : RecoveryRequest) :
    RecoveryRequest × Except AuthError Unit :=
  if request.isExpired now then
    ({ request with status := .expired }, .error .sessionExpired)
  else if request.attempts ≥ request.maxAttempts then
    ({ request with status := .denied }, .error (.rateLimitExceeded "Too many attempts"))
  else
    let request := { request with attempts := request.attempts + 1 }
    match request.verificationHash with
    | none => (request, .error (.internal "No verification hash"))
    | some expectedHash =>
      if !ctEqHexHash (codeHash code) expectedHash then
        (request, .error (.unauthorized "Invalid verification code"))
      else ({ request with status := .approved }, .ok ())

def modifyFirst (approvals : List GuardianApproval) (guardianId : String)
    (change : GuardianApproval → GuardianApproval) : List GuardianApproval :=
  match approvals with
  | [] => []
  | guardian :: rest =>
    if guardian.guardianId = guardianId then change guardian :: rest
    else guardian :: modifyFirst rest guardianId change

def recordGuardianApproval (now : Clocks) (guardianId : String) (approvedFromIp : Option String)
    (request : RecoveryRequest) : RecoveryRequest × Except AuthError Bool :=
  if request.isExpired now then
    ({ request with status := .expired }, .error .sessionExpired)
  else
    match request.guardianApprovals.find? (·.guardianId = guardianId) with
    | none => (request, .error (.invalidSession "Guardian not found"))
    | some guardian =>
      if guardian.approved then
        (request, .error (.invalidSession "Guardian already approved"))
      else
        let request := { request with
          guardianApprovals := modifyFirst request.guardianApprovals guardianId fun guardian =>
            { guardian with approved := true, approvedAt := some now.system, approvedFromIp } }
        match request.method with
        | .socialRecovery threshold _ =>
          if request.hasGuardianQuorum threshold then
            ({ request with status := .approved }, .ok true)
          else (request, .ok false)
        | _ => (request, .ok false)

def checkTimeLock (now : Clocks) (request : RecoveryRequest) :
    RecoveryRequest × Except AuthError Bool :=
  if request.isExpired now then
    ({ request with status := .expired }, .error .sessionExpired)
  else if request.timeLockPassed now then ({ request with status := .approved }, .ok true)
  else (request, .ok false)

def complete (request : RecoveryRequest) : RecoveryRequest × Except AuthError Unit :=
  if request.status ≠ .approved then
    (request, .error (.invalidSession "Recovery not approved"))
  else ({ request with status := .completed }, .ok ())

def cancel (request : RecoveryRequest) : RecoveryRequest × Except AuthError Unit :=
  ({ request with status := .denied }, .ok ())

end RecoveryRequest

namespace RecoveryManager

def verifyCode (manager : RecoveryManager) (now : Clocks) (requestId code : String) :
    RecoveryManager × Except AuthError Unit :=
  manager.withRequest requestId (RecoveryRequest.verifyCode now code)

def recordGuardianApproval (manager : RecoveryManager) (now : Clocks)
    (requestId guardianId : String) (approvedFromIp : Option String) :
    RecoveryManager × Except AuthError Bool :=
  manager.withRequest requestId (RecoveryRequest.recordGuardianApproval now guardianId approvedFromIp)

def checkTimeLock (manager : RecoveryManager) (now : Clocks) (requestId : String) :
    RecoveryManager × Except AuthError Bool :=
  manager.withRequest requestId (RecoveryRequest.checkTimeLock now)

variable (manager : RecoveryManager)

def completeRecovery (requestId : String) :
    RecoveryManager × Except AuthError Unit :=
  manager.withRequest requestId RecoveryRequest.complete

def cancelRequest (requestId : String) :
    RecoveryManager × Except AuthError Unit :=
  manager.withRequest requestId RecoveryRequest.cancel

def verifyBackupCode (userId code : String) :
    RecoveryManager × Except AuthError Unit :=
  match manager.userConfigs[userId]? with
  | none => (manager, .error (.invalidSession "User not configured"))
  | some userConfig =>
    let hash := codeHash (String.ofList ((manager.toUppercase code).toList.filter (· ≠ '-')))
    let matchedPos := userConfig.backupCodeHashes.zipIdx.foldl (fun found (stored, pos) =>
      if ctEqHexHash stored hash then some pos else found) none
    match matchedPos with
    | some pos =>
      let userConfig :=
        { userConfig with backupCodeHashes := userConfig.backupCodeHashes.eraseIdx pos }
      ({ manager with userConfigs := manager.userConfigs.insert userId userConfig }, .ok ())
    | none => (manager, .error (.unauthorized "Invalid backup code"))

def cleanupExpired (now : Clocks) : RecoveryManager × Nat :=
  let kept := manager.requests.filter fun _ request =>
    !request.isExpired now && request.status ≠ .completed
  ({ manager with requests := kept }, manager.requests.size - kept.size)

def regenerateBackupCodes (now : Clocks) (drawn : List Bytes) (userId : String) :
    RecoveryManager × Except AuthError (List String) :=
  match manager.userConfigs[userId]? with
  | none => (manager, .error (.invalidSession "User not configured"))
  | some userConfig =>
    let newCodes := drawn.map (RecoveryCode.generate manager.toUppercase 12)
    let userConfig := { userConfig with
      backupCodeHashes := newCodes.map fun code => codeHash (manager.toUppercase code)
      updatedAt := now.system }
    ({ manager with userConfigs := manager.userConfigs.insert userId userConfig }, .ok newCodes)

end RecoveryManager

/-- Calls of the recovery manager, with clock readings and draws. -/
inductive RecoveryCall where
  | configureUser (now : Clocks) (drawn : List Bytes) (userId : String)
      (email phone : Option String) (guardians : List Guardian) (timeLocked : Bool)
  | initiateEmail (now : Clocks) (drawnCode : UInt64) (drawnId : Bytes)
      (asker : RecoveryManager.Asker)
  | initiateSms (now : Clocks) (drawnCode : UInt64) (drawnId : Bytes)
      (asker : RecoveryManager.Asker)
  | initiateTimeLocked (now : Clocks) (drawnId : Bytes) (asker : RecoveryManager.Asker)
  | initiateSocial (now : Clocks) (drawnId : Bytes) (asker : RecoveryManager.Asker)
  | verifyCode (now : Clocks) (requestId code : String)
  | verifyBackupCode (userId code : String)
  | recordGuardianApproval (now : Clocks) (requestId guardianId : String)
      (approvedFromIp : Option String)
  | checkTimeLock (now : Clocks) (requestId : String)
  | complete (requestId : String)
  | cancel (requestId : String)
  | cleanupExpired (now : Clocks)
  | regenerateBackupCodes (now : Clocks) (drawn : List Bytes) (userId : String)
  deriving DecidableEq

inductive RecoveryReply where
  | codes (result : Except AuthError (List String))
  | sent (result : Except AuthError (String × String))
  | locked (result : Except AuthError String)
  | asked (result : Except AuthError (String × List GuardianApproval))
  | done (result : Except AuthError Unit)
  | decided (result : Except AuthError Bool)
  | removed (count : Nat)
  deriving DecidableEq

def RecoveryManager.serve (manager : RecoveryManager) (call : RecoveryCall) :
    RecoveryManager × List (RecoveryCall × RecoveryReply) :=
  let (next, reply) := match call with
    | .configureUser now drawn userId email phone guardians timeLocked =>
      (manager.configureUser now drawn userId email phone guardians timeLocked).map id
        (RecoveryReply.codes ∘ .ok)
    | .initiateEmail now drawnCode drawnId asker =>
      (manager.initiateEmailRecovery now drawnCode drawnId asker).map id .sent
    | .initiateSms now drawnCode drawnId asker =>
      (manager.initiateSmsRecovery now drawnCode drawnId asker).map id .sent
    | .initiateTimeLocked now drawnId asker =>
      (manager.initiateTimeLockedRecovery now drawnId asker).map id .locked
    | .initiateSocial now drawnId asker =>
      (manager.initiateSocialRecovery now drawnId asker).map id .asked
    | .verifyCode now requestId code => (manager.verifyCode now requestId code).map id .done
    | .verifyBackupCode userId code => (manager.verifyBackupCode userId code).map id .done
    | .recordGuardianApproval now requestId guardianId approvedFromIp =>
      (manager.recordGuardianApproval now requestId guardianId approvedFromIp).map id .decided
    | .checkTimeLock now requestId => (manager.checkTimeLock now requestId).map id .decided
    | .complete requestId => (manager.completeRecovery requestId).map id .done
    | .cancel requestId => (manager.cancelRequest requestId).map id .done
    | .cleanupExpired now => (manager.cleanupExpired now).map id .removed
    | .regenerateBackupCodes now drawn userId =>
      (manager.regenerateBackupCodes now drawn userId).map id .codes
  (next, [(call, reply)])

end Hsm.Auth

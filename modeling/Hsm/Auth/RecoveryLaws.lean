import Hsm.Auth.Recovery
import Hsm.Lib.Run

/-! What a call of the recovery manager can do to a request. -/

namespace Hsm.Auth

open RecoveryManager

abbrev RecoveryEvent := RecoveryCall × RecoveryReply

/-- A call returned the identifier of a new request. -/
def RecoveryEvent.Opens (requestId : String) : RecoveryEvent → Prop
  | (.initiateEmail .., .sent (.ok (id, _))) => id = requestId
  | (.initiateSms .., .sent (.ok (id, _))) => id = requestId
  | (.initiateTimeLocked .., .locked (.ok id)) => id = requestId
  | (.initiateSocial .., .asked (.ok (id, _))) => id = requestId
  | _ => False

/-- A call that opens a request, and the request it opens. -/
inductive Opening (config : RecoveryConfig) : RecoveryEvent → RecoveryRequest → Prop where
  | email (now : Clocks) (drawnCode : UInt64) (drawnId : Bytes) (asker : Asker) (email : String) :
    Opening config
      (.initiateEmail now drawnCode drawnId asker,
        .sent (.ok (generateRequestId drawnId,
          VerificationCode.generate config.codeLength drawnCode)))
      (codeRequest config now drawnCode drawnId asker (.email email))
  | sms (now : Clocks) (drawnCode : UInt64) (drawnId : Bytes) (asker : Asker) (phone : String) :
    Opening config
      (.initiateSms now drawnCode drawnId asker,
        .sent (.ok (generateRequestId drawnId,
          VerificationCode.generate config.codeLength drawnCode)))
      (codeRequest config now drawnCode drawnId asker (.sms phone (phoneHint phone)))
  | timeLocked (now : Clocks) (drawnId : Bytes) (asker : Asker) :
    Opening config
      (.initiateTimeLocked now drawnId asker, .locked (.ok (generateRequestId drawnId)))
      (timeLockRequest config now drawnId asker config.timeLockHours)
  | social (now : Clocks) (drawnId : Bytes) (asker : Asker) (guardians : List Guardian) :
    Opening config
      (.initiateSocial now drawnId asker, .asked (.ok (generateRequestId drawnId,
        (socialRequest config now drawnId asker guardians).guardianApprovals)))
      (socialRequest config now drawnId asker guardians)

theorem Opening.opens {config : RecoveryConfig} {event : RecoveryEvent} {request : RecoveryRequest}
    (opening : Opening config event request) : event.Opens request.id := by
  cases opening <;> exact rfl

theorem RecoveryEvent.Opens.unique {event : RecoveryEvent} {first second : String}
    (opens : event.Opens first) (again : event.Opens second) : first = second := by
  unfold RecoveryEvent.Opens at opens again
  split at opens <;> first | exact opens.symm.trans again | exact opens.elim

/-- A call works on a request that is found. -/
inductive Visit (requestId : String) (request : RecoveryRequest) :
    RecoveryEvent → RecoveryRequest → Prop where
  | verified (now : Clocks) (code : String) :
    Visit requestId request (.verifyCode now requestId code, .done (request.verifyCode now code).2)
      (request.verifyCode now code).1
  | recorded (now : Clocks) (guardianId : String) (ip : Option String) :
    Visit requestId request (.recordGuardianApproval now requestId guardianId ip,
        .decided (request.recordGuardianApproval now guardianId ip).2)
      (request.recordGuardianApproval now guardianId ip).1
  | checked (now : Clocks) :
    Visit requestId request (.checkTimeLock now requestId, .decided (request.checkTimeLock now).2)
      (request.checkTimeLock now).1
  | completed : Visit requestId request (.complete requestId, .done request.complete.2)
      request.complete.1
  | cancelled : Visit requestId request (.cancel requestId, .done request.cancel.2)
      request.cancel.1

/-- What one call may do to one request: nothing, open it, work on it or remove it. -/
inductive Change (config : RecoveryConfig) (requestId : String) (event : RecoveryEvent) :
    Option RecoveryRequest → Option RecoveryRequest → Prop where
  | kept {old : Option RecoveryRequest} (opensNot : ¬ event.Opens requestId) :
    Change config requestId event old old
  | opened {old : Option RecoveryRequest} {request : RecoveryRequest}
      (opening : Opening config event request) (named : request.id = requestId) :
    Change config requestId event old (some request)
  | visited {request next : RecoveryRequest} (visit : Visit requestId request event next) :
    Change config requestId event (some request) (some next)
  | removed {request : RecoveryRequest} (opensNot : ¬ event.Opens requestId) :
    Change config requestId event (some request) none

/-- All users wait for the configured time. -/
def RecoveryManager.Uniform (manager : RecoveryManager) : Prop :=
  ∀ (userId : String) (userConfig : UserRecoveryConfig),
    manager.userConfigs[userId]? = some userConfig →
      userConfig.timeLockHours = manager.config.timeLockHours

section

variable {manager : RecoveryManager}

/-- An initiation stores the request it prepared, or fails and changes nothing. -/
theorem initiate_cases (manager : RecoveryManager) (now : Clocks) (userId : String)
    (prepare : UserRecoveryConfig → Except AuthError RecoveryRequest) :
    (∃ error, manager.initiate now userId prepare = (manager, .error error)) ∨
    ∃ userConfig request, manager.userConfigs[userId]? = some userConfig ∧
      prepare userConfig = .ok request ∧
      manager.initiate now userId prepare =
        ({ manager with
            requests := manager.requests.insert request.id request
            lastRequest := manager.lastRequest.insert userId now.steady }, .ok request) := by
  unfold initiate
  split
  · exact .inl ⟨_, rfl⟩
  · split
    · exact .inl ⟨_, rfl⟩
    · rename_i userConfig found
      split
      · exact .inl ⟨_, rfl⟩
      · rename_i request prepared
        exact .inr ⟨userConfig, request, found, prepared, rfl⟩

/-- A call on one request leaves the others as they are. -/
theorem requests_withRequest {α : Type} (manager : RecoveryManager) (requestId other : String)
    (act : RecoveryRequest → RecoveryRequest × Except AuthError α) :
    (manager.withRequest requestId act).1.requests[other]? =
      if requestId = other then manager.requests[other]?.map fun request => (act request).1
      else manager.requests[other]? := by
  unfold withRequest
  split
  · rename_i missing
    split
    · rename_i same
      cases same
      rw [missing, Option.map_none]
    · rfl
  · rename_i request found
    rw [Dict.find_insert]
    split
    · rename_i same
      cases same
      rw [found, Option.map_some]
    · rfl

theorem reply_withRequest {α : Type} {requestId : String} {request : RecoveryRequest}
    (found : manager.requests[requestId]? = some request)
    (act : RecoveryRequest → RecoveryRequest × Except AuthError α) :
    (manager.withRequest requestId act).2 = (act request).2 := by
  rw [withRequest, found]

/-- A call on one request is a visit to it, and no change of another. -/
theorem change_withRequest {α : Type} (config : RecoveryConfig) (requestId other : String)
    (act : RecoveryRequest → RecoveryRequest × Except AuthError α)
    (event : Except AuthError α → RecoveryEvent) (opensNot : ∀ result, ¬ (event result).Opens other)
    (visits : ∀ request, Visit requestId request (event (act request).2) (act request).1) :
    Change config other (event (manager.withRequest requestId act).2) manager.requests[other]?
      (manager.withRequest requestId act).1.requests[other]? := by
  rw [requests_withRequest]
  by_cases same : requestId = other
  · subst other
    rw [if_pos rfl]
    cases found : manager.requests[requestId]? with
    | none => exact .kept (opensNot _)
    | some request =>
      rw [reply_withRequest found]
      exact .visited (visits request)
  · rw [if_neg same]
    exact .kept (opensNot _)

/-- An initiation opens the request it returns, and changes no other. -/
theorem change_initiate {α : Type} (other : String) (now : Clocks) (userId : String)
    (prepare : UserRecoveryConfig → Except AuthError RecoveryRequest) (view : RecoveryRequest → α)
    (event : Except AuthError α → RecoveryEvent)
    (opensNot : ∀ error, ¬ (event (.error error)).Opens other)
    (opens : ∀ userConfig request, manager.userConfigs[userId]? = some userConfig →
      prepare userConfig = .ok request → Opening manager.config (event (.ok (view request))) request) :
    Change manager.config other (event ((manager.initiate now userId prepare).2.map view))
      manager.requests[other]? (manager.initiate now userId prepare).1.requests[other]? := by
  rcases initiate_cases manager now userId prepare with
    ⟨error, failed⟩ | ⟨userConfig, request, found, prepared, initiated⟩
  · rw [failed]
    exact .kept (opensNot error)
  · rw [initiated]
    have opening := opens userConfig request found prepared
    simp only [Except.map, Dict.find_insert]
    split
    · rename_i named
      exact .opened opening named
    · rename_i apart
      exact .kept fun again => apart (opening.opens.unique again)

/-- Only an approved request can be completed. -/
theorem complete_eq_ok {request : RecoveryRequest} (completed : request.complete.2 = .ok ()) :
    request.status = .approved ∧ request.complete.1 = { request with status := .completed } := by
  unfold RecoveryRequest.complete at completed ⊢
  by_cases approved : request.status = .approved
  · rw [if_neg (not_not.mpr approved)]
    exact ⟨approved, rfl⟩
  · rw [if_pos approved] at completed
    cases completed

theorem completeRecovery_eq_ok {requestId : String}
    (completed : (manager.completeRecovery requestId).2 = .ok ()) :
    ∃ request, manager.requests[requestId]? = some request ∧ request.status = .approved := by
  rw [completeRecovery, withRequest] at completed
  split at completed
  · cases completed
  · rename_i request found
    exact ⟨request, found, (complete_eq_ok completed).1⟩

/-- Every call is one of the changes, for every request. -/
theorem serve_change (uniform : manager.Uniform) (other : String) (call : RecoveryCall) :
    ∃ reply, (manager.serve call).2 = [(call, reply)] ∧
      Change manager.config other (call, reply) manager.requests[other]?
        (manager.serve call).1.requests[other]? := by
  refine ⟨_, rfl, ?_⟩
  cases call with
  | configureUser now drawn userId email phone guardians timeLocked => exact .kept id
  | initiateEmail now drawnCode drawnId asker =>
    refine change_initiate other now asker.userId _ _ (fun result => (_, .sent result))
      (fun _ => id) fun userConfig request found prepared => ?_
    split at prepared
    · cases prepared
    · cases prepared
      exact .email now drawnCode drawnId asker _
  | initiateSms now drawnCode drawnId asker =>
    refine change_initiate other now asker.userId _ _ (fun result => (_, .sent result))
      (fun _ => id) fun userConfig request found prepared => ?_
    split at prepared
    · cases prepared
    · cases prepared
      exact .sms now drawnCode drawnId asker _
  | initiateTimeLocked now drawnId asker =>
    refine change_initiate other now asker.userId _ _ (fun result => (_, .locked result))
      (fun _ => id) fun userConfig request found prepared => ?_
    split at prepared
    · cases prepared
    · cases prepared
      rw [uniform asker.userId userConfig found]
      exact .timeLocked now drawnId asker
  | initiateSocial now drawnId asker =>
    refine change_initiate other now asker.userId _ _ (fun result => (_, .asked result))
      (fun _ => id) fun userConfig request found prepared => ?_
    split at prepared
    · cases prepared
    · cases prepared
      exact .social now drawnId asker userConfig.guardians
  | verifyCode now requestId code =>
    exact change_withRequest _ requestId other _ (fun result => (_, .done result)) (fun _ => id)
      fun request => .verified now code
  | verifyBackupCode userId code =>
    have same : (manager.verifyBackupCode userId code).1.requests = manager.requests := by
      simp only [verifyBackupCode]
      split
      · rfl
      · split <;> rfl
    change Change _ _ _ _ (manager.verifyBackupCode userId code).1.requests[other]?
    rw [same]
    exact .kept id
  | recordGuardianApproval now requestId guardianId approvedFromIp =>
    exact change_withRequest _ requestId other _ (fun result => (_, .decided result)) (fun _ => id)
      fun request => .recorded now guardianId approvedFromIp
  | checkTimeLock now requestId =>
    exact change_withRequest _ requestId other _ (fun result => (_, .decided result)) (fun _ => id)
      fun request => .checked now
  | complete requestId =>
    exact change_withRequest _ requestId other _ (fun result => (_, .done result)) (fun _ => id)
      fun request => .completed
  | cancel requestId =>
    exact change_withRequest _ requestId other _ (fun result => (_, .done result)) (fun _ => id)
      fun request => .cancelled
  | cleanupExpired now =>
    change Change _ _ (.cleanupExpired now, .removed (manager.cleanupExpired now).2) _
      (manager.cleanupExpired now).1.requests[other]?
    generalize (manager.cleanupExpired now).2 = count
    rw [cleanupExpired, Dict.find_filter]
    cases found : manager.requests[other]? with
    | none => exact .kept id
    | some request =>
      rw [Option.filter_some]
      split
      · exact .kept id
      · exact .removed id
  | regenerateBackupCodes now drawn userId =>
    have same : (manager.regenerateBackupCodes now drawn userId).1.requests =
        manager.requests := by
      simp only [regenerateBackupCodes]
      split <;> rfl
    change Change _ _ _ _ (manager.regenerateBackupCodes now drawn userId).1.requests[other]?
    rw [same]
    exact .kept id

theorem config_withRequest {α : Type} (manager : RecoveryManager) (requestId : String)
    (act : RecoveryRequest → RecoveryRequest × Except AuthError α) :
    (manager.withRequest requestId act).1.config = manager.config ∧
      (manager.withRequest requestId act).1.userConfigs = manager.userConfigs := by
  unfold withRequest
  split <;> exact ⟨rfl, rfl⟩

theorem config_initiate (manager : RecoveryManager) (now : Clocks) (userId : String)
    (prepare : UserRecoveryConfig → Except AuthError RecoveryRequest) :
    (manager.initiate now userId prepare).1.config = manager.config ∧
      (manager.initiate now userId prepare).1.userConfigs = manager.userConfigs := by
  rcases initiate_cases manager now userId prepare with
    ⟨error, failed⟩ | ⟨userConfig, request, found, prepared, initiated⟩
  · rw [failed]
    exact ⟨rfl, rfl⟩
  · rw [initiated]
    exact ⟨rfl, rfl⟩

theorem RecoveryManager.Uniform.insert (uniform : manager.Uniform) (userId : String)
    {userConfig : UserRecoveryConfig}
    (common : userConfig.timeLockHours = manager.config.timeLockHours) :
    Uniform { manager with userConfigs := manager.userConfigs.insert userId userConfig } := by
  intro other config found
  rw [Dict.find_insert] at found
  split at found
  · cases found
    exact common
  · exact uniform other config found

theorem RecoveryManager.Uniform.of_same (uniform : manager.Uniform) {next : RecoveryManager}
    (same : next.config = manager.config ∧ next.userConfigs = manager.userConfigs) :
    next.config = manager.config ∧ next.Uniform := by
  refine ⟨same.1, fun userId userConfig found => ?_⟩
  rw [same.2] at found
  rw [same.1]
  exact uniform userId userConfig found

/-- Every call keeps the waiting times uniform. -/
theorem RecoveryManager.Uniform.serve (uniform : manager.Uniform) (call : RecoveryCall) :
    (manager.serve call).1.config = manager.config ∧ (manager.serve call).1.Uniform := by
  cases call with
  | configureUser now drawn userId email phone guardians timeLocked =>
    exact ⟨rfl, uniform.insert userId rfl⟩
  | initiateEmail now drawnCode drawnId asker => exact uniform.of_same (config_initiate _ _ _ _)
  | initiateSms now drawnCode drawnId asker => exact uniform.of_same (config_initiate _ _ _ _)
  | initiateTimeLocked now drawnId asker => exact uniform.of_same (config_initiate _ _ _ _)
  | initiateSocial now drawnId asker => exact uniform.of_same (config_initiate _ _ _ _)
  | verifyCode now requestId code => exact uniform.of_same (config_withRequest _ _ _)
  | verifyBackupCode userId code =>
    change (manager.verifyBackupCode userId code).1.config = _ ∧
      (manager.verifyBackupCode userId code).1.Uniform
    simp only [verifyBackupCode]
    split
    · exact ⟨rfl, uniform⟩
    · rename_i userConfig found
      split
      · exact ⟨rfl, uniform.insert userId (uniform userId userConfig found)⟩
      · exact ⟨rfl, uniform⟩
  | recordGuardianApproval now requestId guardianId approvedFromIp =>
    exact uniform.of_same (config_withRequest _ _ _)
  | checkTimeLock now requestId => exact uniform.of_same (config_withRequest _ _ _)
  | complete requestId => exact uniform.of_same (config_withRequest _ _ _)
  | cancel requestId => exact uniform.of_same (config_withRequest _ _ _)
  | cleanupExpired now => exact uniform.of_same ⟨rfl, rfl⟩
  | regenerateBackupCodes now drawn userId =>
    change (manager.regenerateBackupCodes now drawn userId).1.config = _ ∧
      (manager.regenerateBackupCodes now drawn userId).1.Uniform
    simp only [regenerateBackupCodes]
    split
    · exact ⟨rfl, uniform⟩
    · rename_i userConfig found
      exact ⟨rfl, uniform.insert userId (uniform userId userConfig found)⟩

theorem uniform_new (toLowercase toUppercase : String → String) (config : RecoveryConfig) :
    (RecoveryManager.new toLowercase toUppercase config).Uniform := by
  intro userId userConfig found
  simp [RecoveryManager.new] at found

end

end Hsm.Auth

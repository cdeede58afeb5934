import Hsm.Auth.RecoveryProof

/-! Recovery requests that are closed stay closed, as long as nobody works on them any more. -/

namespace Hsm.Auth

open RecoveryManager

def RecoveryCall.reads : RecoveryCall → Option Clocks
  | .configureUser now .. => some now
  | .initiateEmail now .. => some now
  | .initiateSms now .. => some now
  | .initiateTimeLocked now .. => some now
  | .initiateSocial now .. => some now
  | .verifyCode now .. => some now
  | .verifyBackupCode .. => none
  | .recordGuardianApproval now .. => some now
  | .checkTimeLock now .. => some now
  | .complete _ => none
  | .cancel _ => none
  | .cleanupExpired now => some now
  | .regenerateBackupCodes now .. => some now

def RecoveryCall.Before (earlier later : RecoveryCall) : Prop :=
  ∀ first second, earlier.reads = some first → later.reads = some second →
    first.steady ≤ second.steady

inductive RecoveryEvent.Closes (requestId : String) : RecoveryEvent → Prop where
  | cancelled : Closes requestId (.cancel requestId, .done (.ok ()))
  | completed : Closes requestId (.complete requestId, .done (.ok ()))
  | denied (now : Clocks) (code reason : String) :
    Closes requestId (.verifyCode now requestId code, .done (.error (.rateLimitExceeded reason)))
  | lateCode (now : Clocks) (code : String) :
    Closes requestId (.verifyCode now requestId code, .done (.error .sessionExpired))
  | lateApproval (now : Clocks) (guardianId : String) (ip : Option String) :
    Closes requestId (.recordGuardianApproval now requestId guardianId ip,
      .decided (.error .sessionExpired))
  | lateCheck (now : Clocks) :
    Closes requestId (.checkTimeLock now requestId, .decided (.error .sessionExpired))

def RecoveryRequest.Closed (request : RecoveryRequest) : Prop :=
  request.status = .denied ∨ request.status = .completed

def RecoveryRequest.SparedBy (request : RecoveryRequest) : RecoveryCall → Prop
  | .verifyCode now _ _ => request.Closed →
    request.isExpired now = true ∨ request.maxAttempts ≤ request.attempts
  | .recordGuardianApproval now _ _ _ => request.Closed → request.isExpired now = true
  | .checkTimeLock now _ => request.Closed → request.isExpired now = true
  | _ => True

def RecoveryCall.target : RecoveryCall → Option String
  | .verifyCode _ requestId _ => some requestId
  | .recordGuardianApproval _ requestId _ _ => some requestId
  | .checkTimeLock _ requestId => some requestId
  | .complete requestId => some requestId
  | .cancel requestId => some requestId
  | _ => none

def RecoveryManager.SparesClosed (manager : RecoveryManager) (call : RecoveryCall) : Prop :=
  ∀ (requestId : String) (request : RecoveryRequest), call.target = some requestId →
    manager.requests[requestId]? = some request → request.SparedBy call

/-- A request that is closed or expired, and not approved. -/
structure RecoveryRequest.Dead (later : List RecoveryCall) (request : RecoveryRequest) : Prop where
  unapproved : request.status ≠ .approved
  ended : request.Closed ∨
    ∀ call ∈ later, ∀ now, call.reads = some now → request.isExpired now = true

section

variable {request next : RecoveryRequest} {requestId : String} {call : RecoveryCall}
  {later : List RecoveryCall}

variable {now : Clocks}

theorem isExpired_mono {then_ : Clocks} (expired : request.isExpired now = true)
    (after : now.steady ≤ then_.steady) : request.isExpired then_ = true := by
  have early : request.expiresIn < now.since request.createdAt := of_decide_eq_true expired
  refine decide_eq_true (Int.lt_of_lt_of_le early (Int.max_le.mpr ⟨Int.le_max_left _ _, ?_⟩))
  exact Int.le_trans (Int.sub_le_sub_right after _) (Int.le_max_right _ _)

theorem dead_of_expired (reads : call.reads = some now)
    (timely : ∀ other ∈ later, call.Before other) (expired : request.isExpired now = true) :
    RecoveryRequest.Dead later { request with status := .expired } where
  unapproved := nofun
  ended := .inr fun other member then_ isThen =>
    @isExpired_mono request now then_ expired (timely other member now then_ reads isThen)

theorem RecoveryRequest.Dead.closed (dead : request.Dead (call :: later))
    (reads : call.reads = some now) (alive : request.isExpired now ≠ true) : request.Closed := by
  rcases dead.ended with closed | expired
  · exact closed
  · exact absurd (expired call (by simp) now reads) alive

theorem RecoveryRequest.Dead.wait (dead : request.Dead (call :: later)) : request.Dead later where
  unapproved := dead.unapproved
  ended := dead.ended.imp_right fun expired other member =>
    expired other (List.mem_cons_of_mem call member)

theorem RecoveryRequest.Dead.visit (dead : request.Dead (call :: later))
    (timely : ∀ other ∈ later, call.Before other) (spared : request.SparedBy call)
    {reply : RecoveryReply} (visit : Visit requestId request (call, reply) next) :
    next.Dead later := by
  cases visit with
  | verified now code =>
    unfold RecoveryRequest.verifyCode
    split
    · rename_i expired
      exact dead_of_expired rfl timely expired
    · rename_i alive
      -- The request is closed, so all its attempts were made.
      have tried := (spared (dead.closed rfl alive)).resolve_left alive
      rw [if_pos tried]
      exact ⟨nofun, .inl (.inl rfl)⟩
  | recorded now guardianId ip =>
    unfold RecoveryRequest.recordGuardianApproval
    split
    · rename_i expired
      exact dead_of_expired rfl timely expired
    · rename_i alive
      exact absurd (spared (dead.closed rfl alive)) alive
  | checked now =>
    unfold RecoveryRequest.checkTimeLock
    split
    · rename_i expired
      exact dead_of_expired rfl timely expired
    · rename_i alive
      exact absurd (spared (dead.closed rfl alive)) alive
  | completed =>
    rw [RecoveryRequest.complete, if_pos dead.unapproved]
    exact dead.wait
  | cancelled => exact ⟨nofun, .inl (.inl rfl)⟩

end

section

variable {manager : RecoveryManager} {requestId : String} {call : RecoveryCall}
  {later : List RecoveryCall}

def RecoveryManager.Dead (later : List RecoveryCall) (requestId : String)
    (manager : RecoveryManager) : Prop :=
  ∀ request, manager.requests[requestId]? = some request → request.Dead later

variable {request : RecoveryRequest}

theorem Visit.target {next : RecoveryRequest} {event : RecoveryEvent}
    (visit : Visit requestId request event next) : event.1.target = some requestId := by
  cases visit <;> rfl

theorem RecoveryManager.Dead.serve (dead : manager.Dead (call :: later) requestId)
    (uniform : manager.Uniform) (timely : ∀ other ∈ later, call.Before other)
    (spares : manager.SparesClosed call)
    (opensNot : ∀ event ∈ (manager.serve call).2, ¬ RecoveryEvent.Opens requestId event) :
    (manager.serve call).1.Dead later requestId := by
  obtain ⟨reply, replied, change⟩ := serve_change uniform requestId call
  have notOpened := opensNot (call, reply) (by simp [replied])
  have spared := spares requestId
  intro next found
  have before := dead
  unfold RecoveryManager.Dead at before
  rw [found] at change
  generalize manager.requests[requestId]? = old at change before spared
  cases change with
  | kept => exact (before next rfl).wait
  | opened opening named =>
    subst named
    exact absurd opening.opens notOpened
  | @visited request _ visit =>
    exact (before request rfl).visit timely (spared request visit.target rfl) visit

theorem dead_of_reply {α : Type} {act : RecoveryRequest → RecoveryRequest × Except AuthError α}
    {result : Except AuthError α} (replied : (manager.withRequest requestId act).2 = result)
    (found : result ≠ .error (.invalidSession "Recovery request not found"))
    (dies : ∀ request, (act request).2 = result → (act request).1.Dead later) :
    (manager.withRequest requestId act).1.Dead later requestId := by
  intro next isNext
  rw [requests_withRequest, if_pos rfl] at isNext
  unfold withRequest at replied
  split at replied
  · exact absurd replied.symm found
  · rename_i request isThere
    rw [isThere] at isNext
    cases isNext
    exact dies request replied

variable {now : Clocks}

/-- A code for an expired or exhausted request leaves it dead. -/
theorem dead_of_verifyCode {code : String} {error : AuthError}
    (timely : ∀ other ∈ later, RecoveryCall.Before (.verifyCode now requestId code) other)
    (failed : (request.verifyCode now code).2 = .error error)
    (closes : error = .sessionExpired ∨ ∃ reason, error = .rateLimitExceeded reason) :
    (request.verifyCode now code).1.Dead later := by
  unfold RecoveryRequest.verifyCode at failed ⊢
  split
  · rename_i expired
    exact dead_of_expired rfl timely expired
  · rename_i alive
    rw [if_neg alive] at failed
    split
    · exact ⟨nofun, .inl (.inl rfl)⟩
    · rename_i left
      -- The other errors do not close the request.
      rw [if_neg left] at failed
      dsimp only at failed
      split at failed
      · cases failed
        simp at closes
      · split at failed
        · cases failed
          simp at closes
        · cases failed

theorem dead_of_recordGuardianApproval {guardianId : String} {ip : Option String}
    (timely : ∀ other ∈ later,
      RecoveryCall.Before (.recordGuardianApproval now requestId guardianId ip) other)
    (failed : (request.recordGuardianApproval now guardianId ip).2 = .error .sessionExpired) :
    (request.recordGuardianApproval now guardianId ip).1.Dead later := by
  unfold RecoveryRequest.recordGuardianApproval at failed ⊢
  by_cases expired : request.isExpired now = true
  · rw [if_pos expired]
    exact dead_of_expired rfl timely expired
  · rw [if_neg expired] at failed
    split at failed
    · cases failed
    · split at failed
      · cases failed
      · dsimp only at failed
        split at failed
        · split at failed <;> cases failed
        · cases failed

theorem dead_of_checkTimeLock
    (timely : ∀ other ∈ later, RecoveryCall.Before (.checkTimeLock now requestId) other)
    (failed : (request.checkTimeLock now).2 = .error .sessionExpired) :
    (request.checkTimeLock now).1.Dead later := by
  unfold RecoveryRequest.checkTimeLock at failed ⊢
  by_cases expired : request.isExpired now = true
  · rw [if_pos expired]
    exact dead_of_expired rfl timely expired
  · rw [if_neg expired] at failed
    split at failed <;> cases failed

theorem RecoveryEvent.Closes.dead {event : RecoveryEvent} (closes : event.Closes requestId)
    (replied : (manager.serve event.1).2 = [event])
    (timely : ∀ other ∈ later, event.1.Before other) :
    (manager.serve event.1).1.Dead later requestId := by
  cases closes with
  | cancelled =>
    have returned : (manager.cancelRequest requestId).2 = .ok () := by
      simpa [RecoveryManager.serve] using replied
    refine dead_of_reply returned (by simp) fun request _ => ⟨?_, .inl (.inl rfl)⟩
    simp [RecoveryRequest.cancel]
  | completed =>
    have returned : (manager.completeRecovery requestId).2 = .ok () := by
      simpa [RecoveryManager.serve] using replied
    refine dead_of_reply returned (by simp) fun request given => ?_
    rw [(complete_eq_ok given).2]
    exact ⟨by simp, .inl (.inr rfl)⟩
  | denied now code reason =>
    have returned : (manager.verifyCode now requestId code).2 =
        .error (.rateLimitExceeded reason) := by
      simpa [RecoveryManager.serve] using replied
    exact dead_of_reply returned (by simp) fun request given =>
      dead_of_verifyCode timely given (.inr ⟨reason, rfl⟩)
  | lateCode now code =>
    have returned : (manager.verifyCode now requestId code).2 = .error .sessionExpired := by
      simpa [RecoveryManager.serve] using replied
    exact dead_of_reply returned (by simp) fun request given =>
      dead_of_verifyCode timely given (.inl rfl)
  | lateApproval now guardianId ip =>
    have returned : (manager.recordGuardianApproval now requestId guardianId ip).2 =
        .error .sessionExpired := by
      simpa [RecoveryManager.serve] using replied
    exact dead_of_reply returned (by simp) fun request given =>
      dead_of_recordGuardianApproval timely given
  | lateCheck now =>
    have returned : (manager.checkTimeLock now requestId).2 = .error .sessionExpired := by
      simpa [RecoveryManager.serve] using replied
    exact dead_of_reply returned (by simp) fun request given => dead_of_checkTimeLock timely given

theorem RecoveryManager.Dead.run {calls : List RecoveryCall}
    (dead : manager.Dead (calls ++ later) requestId) (uniform : manager.Uniform)
    (timely : (calls ++ later).Pairwise RecoveryCall.Before)
    (spares : Along RecoveryManager.SparesClosed RecoveryManager.serve manager calls)
    (opensNot : ∀ event ∈ (trace RecoveryManager.serve manager calls).2,
      ¬ RecoveryEvent.Opens requestId event) :
    (trace RecoveryManager.serve manager calls).1.Dead later requestId := by
  induction calls generalizing manager with
  | nil => exact dead
  | cons call rest ih =>
    obtain ⟨ahead, behind⟩ := List.pairwise_cons.mp timely
    rw [trace_cons] at opensNot ⊢
    exact ih (dead.serve uniform ahead spares.1 fun event member => opensNot event (by simp [member]))
      (uniform.serve call).2 behind spares.2 fun event member => opensNot event (by simp [member])

end

def ClosedForGood (requestId : String) (history : List RecoveryEvent) : Prop :=
  ∀ (before between after : List RecoveryEvent) (closing : RecoveryEvent), history =
      before ++ closing :: (between ++ (.complete requestId, .done (.ok ())) :: after) →
    closing.Closes requestId → ∃ opening ∈ between, opening.Opens requestId

/-- Closed requests stay closed in runs that do not work on them any more. -/
theorem closed_recovery_stays_closed {toLowercase toUppercase : String → String}
    {config : RecoveryConfig} {calls : List RecoveryCall}
    (timely : calls.Pairwise RecoveryCall.Before)
    (spares : Along RecoveryManager.SparesClosed RecoveryManager.serve
      (.new toLowercase toUppercase config) calls) (requestId : String) :
    ClosedForGood requestId
      (trace RecoveryManager.serve (.new toLowercase toUppercase config) calls).2 := by
  have single : ∀ (manager : RecoveryManager) (call : RecoveryCall),
      ∃ event, (manager.serve call).2 = [event] := fun manager call => ⟨_, rfl⟩
  intro before between after closing history closes
  -- The run splits at the call that closes the request and at the one that completes it.
  obtain ⟨first, call, rest, rfl, -, closed, later⟩ := trace_split single history
  obtain ⟨middle, last, others, rfl, rfl, completed, -⟩ := trace_split single later
  have uniform := trace_invariant (fun (manager : RecoveryManager) _ => manager.Uniform)
    (fun manager _ call inv _ => (inv.serve call).2) first _ []
    (uniform_new toLowercase toUppercase config) (Along.of_forall (fun _ _ _ => trivial) _)
  have isClosing : closing.1 = call := by
    cases closed
    rfl
  have isLast : last = .complete requestId := congrArg Prod.fst (List.singleton_inj.mp completed)
  subst isClosing isLast
  obtain ⟨-, timely⟩ := List.pairwise_append.mp timely
  obtain ⟨ahead, timely⟩ := List.pairwise_cons.mp timely.1
  by_contra opensNot
  have dead := (closes.dead closed ahead).run (uniform.serve _).2 timely
    (along_append.mp (along_append.mp spares).2.2).1
    fun event member opens => opensNot ⟨event, member, opens⟩
  obtain ⟨request, found, approved⟩ := completeRecovery_eq_ok
    (RecoveryReply.done.inj (congrArg Prod.snd (List.singleton_inj.mp completed)))
  exact (dead request found).unapproved approved

def Known.reconsidered : List RecoveryCall := Known.forgotten ++
  [.cancel "rec_07", .verifyCode (Known.moment 2) "rec_07" "000042", .complete "rec_07"]

theorem cancelled_recovery_completed :
    Known.reconsidered.Pairwise RecoveryCall.Before ∧
    ¬ ClosedForGood "rec_07" (trace RecoveryManager.serve Known.recovery Known.reconsidered).2 := by
  constructor
  · simp [Known.reconsidered, Known.forgotten, RecoveryCall.Before, RecoveryCall.reads,
      Known.moment, seconds]
  · intro good
    have history : (trace RecoveryManager.serve Known.recovery Known.reconsidered).2 =
        (trace RecoveryManager.serve Known.recovery Known.forgotten).2 ++
          (.cancel "rec_07", .done (.ok ())) ::
            ([(.verifyCode (Known.moment 2) "rec_07" "000042", .done (.ok ()))] ++
              (.complete "rec_07", .done (.ok ())) :: []) := by
      decide +kernel
    obtain ⟨opening, member, opens⟩ := good _ _ _ _ history .cancelled
    cases List.mem_singleton.mp member
    exact opens

theorem closed_recovery_stays_closed_cancelled :
    ClosedForGood "rec_07" (trace RecoveryManager.serve Known.recovery
      (Known.forgotten ++ [.cancel "rec_07", .complete "rec_07"])).2 := by
  refine closed_recovery_stays_closed ?_ ?_ "rec_07"
  · simp [Known.forgotten, RecoveryCall.Before, RecoveryCall.reads, Known.moment, seconds]
  · exact ⟨(fun _ _ no => by cases no), (fun _ _ no => by cases no), (fun _ _ _ _ => trivial),
      (fun _ _ _ _ => trivial), trivial⟩

end Hsm.Auth

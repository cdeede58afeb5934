import Hsm.Auth.Approval
import Mathlib.Data.List.Induction

/-! Approval means that enough authorised approvers voted for it in time, and is final. -/

namespace Hsm.Auth

/-- A vote cast in time, by an approver for the value. -/
structure ApprovalVote.Counts (policy : ApprovalPolicy) (request : ApprovalRequest)
    (vote : ApprovalVote) : Prop where
  approved : vote.approved = true
  inTime : vote.timestamp ≤ request.expiresAt
  authorised : vote.approver ∈ policy.getApprovers request.value
  notSelf : vote.approver = request.requester → policy.requesterCanApprove = true

/-- Enough votes of different approvers count, up to the deciding one. -/
def ApprovalRequest.Authorised (policy : ApprovalPolicy) (request : ApprovalRequest) : Prop :=
  ∃ decided deciding later, request.votes = decided ++ deciding :: later ∧
    (∀ vote ∈ decided ++ [deciding], vote.Counts policy request) ∧
    ((decided ++ [deciding]).map (·.approver)).Nodup ∧
    (policy.requiredApprovals request.value).toNat ≤ (decided ++ [deciding]).length

def ApprovalStatus.isFinal : ApprovalStatus → Bool
  | .approved => true
  | .rejected => true
  | .expired => true
  | _ => false

def ApprovalCall.Steady : ApprovalCall → Prop
  | .vote cast checked _ _ _ _ => cast ≤ checked
  | _ => True

def ApprovalCall.drawsId : ApprovalCall → Option String
  | .create _ id _ _ _ _ _ => some id
  | _ => none

def ApprovalCall.DrawsApart (first second : ApprovalCall) : Prop :=
  ∀ id, first.drawsId = some id → second.drawsId ≠ some id

/-- What holds of every stored request. -/
structure ApprovalRequest.Valid (policy : ApprovalPolicy) (request : ApprovalRequest) : Prop where
  required : request.requiredApprovals = policy.requiredApprovals request.value
  delayed : ∀ delay, policy.getDelay request.value = some delay →
    request.earliestExecution = some (request.createdAt + seconds (asI64 delay))
  distinct : (request.votes.map (·.approver)).Nodup
  authorised : ∀ vote ∈ request.votes, vote.approver ∈ policy.getApprovers request.value
  notSelf : ∀ vote ∈ request.votes, vote.approver = request.requester →
    policy.requesterCanApprove = true
  undecided : request.status = .pending →
    ∀ vote ∈ request.votes, vote.approved = true ∧ vote.timestamp ≤ request.expiresAt
  decided : request.status = .approved → ∃ decided deciding later,
    request.votes = decided ++ deciding :: later ∧
    (∀ vote ∈ decided ++ [deciding],
      vote.approved = true ∧ vote.timestamp ≤ request.expiresAt) ∧
    request.requiredApprovals.toNat ≤ (decided ++ [deciding]).length

section

variable {policy : ApprovalPolicy} {request : ApprovalRequest}

variable {now : Instant}

theorem ApprovalRequest.Valid.new {id requester : String} {transaction : JsonValue}
    {value keyId namespaceName : String}
    (isNew : ApprovalRequest.new now id requester transaction value keyId namespaceName policy =
      some request) : request.Valid policy ∧ request.id = id := by
  cases isDelay : policy.getDelay value with
  | none =>
    simp only [ApprovalRequest.new, isDelay, Option.bind_eq_bind, Option.bind_eq_some_iff,
      Option.bind_some] at isNew
    obtain ⟨expiresAt, expiry, made⟩ := isNew
    cases made
    refine ⟨⟨rfl, fun delay given => ?_, .nil, nofun, nofun, fun _ => nofun, nofun⟩, rfl⟩
    cases isDelay.symm.trans given
  | some delay =>
    simp only [ApprovalRequest.new, isDelay, Option.bind_eq_bind, Option.bind_eq_some_iff,
      Option.map_eq_some_iff] at isNew
    obtain ⟨expiresAt, expiry, earliest, ⟨moment, sum, rfl⟩, made⟩ := isNew
    cases made
    refine ⟨⟨rfl, fun other given => ?_, .nil, nofun, nofun, fun _ => nofun, nofun⟩, rfl⟩
    cases isDelay.symm.trans given
    rw [Instant.plus_eq sum]

theorem ApprovalRequest.updateStatus_eq (now : Instant) (request : ApprovalRequest) :
    request.updateStatus now = { request with status := (request.updateStatus now).status } := by
  simp only [updateStatus]
  split_ifs <;> rfl

theorem ApprovalRequest.updateStatus_of_final (final : request.status ≠ .pending) :
    request.updateStatus now = request := by
  rw [updateStatus, if_pos final]

theorem ApprovalRequest.status_addVote {cast checked : Instant} {approver : String} {approved : Bool}
    {comment : Option String} (final : request.status ≠ .pending) :
    (request.addVote cast checked approver approved comment).1.status = request.status := by
  unfold addVote
  split
  · rfl
  · show (updateStatus checked { request with votes := _ }).status = request.status
    rw [updateStatus_of_final]
    exact final

theorem ApprovalRequest.updateStatus_cases (pending : request.status = .pending) :
    (request.updateStatus now).status = .expired ∨ (request.updateStatus now).status = .rejected ∨
    (now ≤ request.expiresAt ∧ (∀ vote ∈ request.votes, vote.approved = true) ∧
      ((request.updateStatus now).status = .pending ∨
        ((request.updateStatus now).status = .approved ∧
          request.requiredApprovals.toNat ≤ request.votes.length))) := by
  simp only [updateStatus]
  split_ifs with final late rejected enough
  · exact absurd pending final
  · exact .inl rfl
  · exact .inr (.inl rfl)
  all_goals
    have inTime : now ≤ request.expiresAt := Int.not_lt.mp late
    have all : ∀ vote ∈ request.votes, vote.approved = true := by
      simpa [List.countP_eq_zero] using rejected
  · refine .inr (.inr ⟨inTime, all, .inr ⟨rfl, ?_⟩⟩)
    -- Counting in fewer bits makes the count no higher.
    calc request.requiredApprovals.toNat ≤ request.votes.countP (·.approved) % 2 ^ 32 := enough
      _ ≤ request.votes.countP (·.approved) := Nat.mod_le _ _
      _ ≤ request.votes.length := List.countP_le_length
  · exact .inr (.inr ⟨inTime, all, .inl pending⟩)

theorem ApprovalRequest.Valid.addVote (valid : request.Valid policy) {cast checked : Instant}
    {approver : String} {approved : Bool} {comment : Option String} (steady : cast ≤ checked)
    (authorised : approver ∈ policy.getApprovers request.value)
    (notSelf : approver = request.requester → policy.requesterCanApprove = true) :
    (request.addVote cast checked approver approved comment).1.Valid policy := by
  unfold ApprovalRequest.addVote
  split
  · exact valid
  · rename_i notVoted
    let vote : ApprovalVote := ⟨approver, approved, cast, comment⟩
    let voted : ApprovalRequest := { request with votes := request.votes ++ [vote] }
    show (voted.updateStatus checked).Valid policy
    have distinct : (voted.votes.map (·.approver)).Nodup := by
      rw [List.map_append, List.nodup_append]
      refine ⟨valid.distinct, by simp, fun first isFirst second isSecond same => ?_⟩
      obtain ⟨earlier, member, rfl⟩ := List.mem_map.mp isFirst
      obtain rfl : second = approver := by simpa [vote] using isSecond
      exact notVoted (List.any_eq_true.mpr ⟨earlier, member, by simpa using same⟩)
    have all : ∀ other ∈ voted.votes, other.approver ∈ policy.getApprovers request.value ∧
        (other.approver = request.requester → policy.requesterCanApprove = true) := by
      intro other member
      rcases List.mem_append.mp member with before | last
      · exact ⟨valid.authorised other before, valid.notSelf other before⟩
      · cases List.mem_singleton.mp last
        exact ⟨authorised, notSelf⟩
    have times : voted.status = .pending → checked ≤ request.expiresAt →
        ∀ other ∈ voted.votes, other.timestamp ≤ request.expiresAt := by
      intro pending inTime other member
      rcases List.mem_append.mp member with before | last
      · exact (valid.undecided pending other before).2
      · cases List.mem_singleton.mp last
        exact Int.le_trans steady inTime
    rw [ApprovalRequest.updateStatus_eq]
    refine ⟨valid.required, valid.delayed, distinct, fun other member => (all other member).1,
      fun other member => (all other member).2, ?_, ?_⟩
    · -- A request is left pending only in time, and with approvals only.
      intro stillPending
      by_cases pending : voted.status = .pending
      · rcases @ApprovalRequest.updateStatus_cases voted checked pending with
          isExpired | isRejected | ⟨inTime, approvals, -⟩
        · cases stillPending.symm.trans isExpired
        · cases stillPending.symm.trans isRejected
        · intro other member
          exact ⟨approvals other member, times pending inTime other member⟩
      · rw [ApprovalRequest.updateStatus_of_final pending] at stillPending
        exact absurd stillPending pending
    · intro isApproved
      by_cases pending : voted.status = .pending
      · rcases @ApprovalRequest.updateStatus_cases voted checked pending with
          isExpired | isRejected | ⟨inTime, approvals, isPending | ⟨-, enough⟩⟩
        · cases isApproved.symm.trans isExpired
        · cases isApproved.symm.trans isRejected
        · cases isApproved.symm.trans isPending
        · exact ⟨request.votes, vote, [], rfl,
            fun other member => ⟨approvals other member, times pending inTime other member⟩, enough⟩
      · -- A decision from before stands, and the vote comes after it.
        rw [ApprovalRequest.updateStatus_of_final pending] at isApproved
        obtain ⟨decided, deciding, later, split, counted, enough⟩ := valid.decided isApproved
        refine ⟨decided, deciding, later ++ [vote], ?_, counted, enough⟩
        show request.votes ++ [vote] = _
        rw [split]
        simp

theorem ApprovalRequest.Valid.approved (valid : request.Valid policy)
    (isApproved : request.status = .approved) : request.Authorised policy := by
  obtain ⟨decided, deciding, later, split, counted, enough⟩ := valid.decided isApproved
  have among : (decided ++ [deciding]).Sublist request.votes := by
    rw [split]
    exact List.Sublist.append (List.Sublist.refl _) (by simp)
  refine ⟨decided, deciding, later, split, fun vote member => ?_,
    (among.map _).nodup valid.distinct, valid.required ▸ enough⟩
  have isVote := among.mem member
  exact ⟨(counted vote member).1, (counted vote member).2, valid.authorised vote isVote,
    valid.notSelf vote isVote⟩

theorem ApprovalRequest.Valid.executes (valid : request.Valid policy)
    (executes : request.canExecute now = true) {delay : UInt64}
    (isDelay : policy.getDelay request.value = some delay) (lower : delay.toNat < 2 ^ 63) :
    request.createdAt + seconds delay.toNat ≤ now := by
  unfold canExecute at executes
  split at executes
  · cases executes
  · simp only [valid.delayed delay isDelay, asI64_of_lt lower, Bool.not_eq_true',
      decide_eq_false_iff_not] at executes
    exact Int.not_lt.mp executes

theorem ApprovalRequest.approved_of_canExecute (executes : request.canExecute now = true) :
    request.status = .approved := by
  unfold canExecute at executes
  split at executes
  · cases executes
  · rename_i isApproved
    simpa using isApproved

end

section

variable (manager : ApprovalManager) (id : String) (call : ApprovalCall)

theorem serve_request :
    (manager.serve call).1.requests[id]? = manager.requests[id]? ∨
    ((manager.serve call).1.requests[id]? = none ∧
      ∀ request, manager.requests[id]? = some request → request.status = .pending) ∨
    (∃ request, (manager.serve call).1.requests[id]? = some request ∧ call.drawsId = some id ∧
      request.Valid manager.defaultPolicy) ∨
    ∃ request cast checked approver approved comment,
      call = .vote cast checked id approver approved comment ∧
      manager.requests[id]? = some request ∧
      approver ∈ manager.defaultPolicy.getApprovers request.value ∧
      (approver = request.requester → manager.defaultPolicy.requesterCanApprove = true) ∧
      (manager.serve call).1.requests[id]? =
        some (request.addVote cast checked approver approved comment).1 := by
  cases call with
  | create now drawn requester transaction value keyId namespaceName =>
    simp only [ApprovalManager.serve, ApprovalManager.createRequest]
    cases isNew : ApprovalRequest.new now drawn requester transaction value keyId namespaceName
        manager.defaultPolicy with
    | none => exact .inl rfl
    | some request =>
      obtain ⟨valid, rfl⟩ := ApprovalRequest.Valid.new isNew
      by_cases same : request.id = id
      · subst same
        exact .inr (.inr (.inl ⟨request, Dict.find_insert_self .., rfl, valid⟩))
      · exact .inl (Dict.find_insert_of_ne _ same _)
  | vote cast checked requestId approver approved comment =>
    simp only [ApprovalManager.serve, ApprovalManager.vote]
    split
    · exact .inl rfl
    · rename_i request found
      split
      · exact .inl rfl
      · rename_i authorised
        split
        · exact .inl rfl
        · rename_i self
          -- Whether the vote was added or not, the request is put back.
          rw [apply_ite Prod.fst, ite_self]
          by_cases same : requestId = id
          · subst same
            refine .inr (.inr (.inr ⟨request, cast, checked, approver, approved, comment, rfl,
              found, by simpa using authorised, fun isSelf => ?_, Dict.find_insert_self ..⟩))
            simpa [isSelf] using self
          · exact .inl (Dict.find_insert_of_ne _ same _)
  | cleanupExpired now =>
    have after : (manager.serve (.cleanupExpired now)).1.requests[id]? =
        manager.requests[id]?.filter fun request =>
          !(request.status = .pending ∧ now request > request.expiresAt) :=
      Dict.find_filter ..
    rw [after]
    cases found : manager.requests[id]? with
    | none => exact .inl rfl
    | some request =>
      rw [Option.filter_some]
      split
      · exact .inl rfl
      · rename_i stays
        refine .inr (.inl ⟨rfl, ?_⟩)
        rintro other ⟨⟩
        have gone : request.status = .pending ∧ now request > request.expiresAt := by
          simpa using stays
        exact gone.1

theorem defaultPolicy_serve : (manager.serve call).1.defaultPolicy = manager.defaultPolicy := by
  cases call with
  | create now drawn requester transaction value keyId namespaceName =>
    simp only [ApprovalManager.serve, ApprovalManager.createRequest]
    cases ApprovalRequest.new now drawn requester transaction value keyId namespaceName
      manager.defaultPolicy <;> rfl
  | vote cast checked requestId approver approved comment =>
    simp only [ApprovalManager.serve, ApprovalManager.vote]
    split
    · rfl
    · split_ifs <;> rfl
  | cleanupExpired now => rfl

end

section

variable {policy : ApprovalPolicy} {calls : List ApprovalCall}

variable {request : ApprovalRequest}

theorem valid_trace (steady : ∀ call ∈ calls, call.Steady) {id : String}
    (found : (trace ApprovalManager.serve (.new policy) calls).1.requests[id]? = some request) :
    request.Valid policy := by
  let inv := fun (manager : ApprovalManager) (_ : List ApprovalReply) =>
    manager.defaultPolicy = policy ∧ ∀ (id : String) (request : ApprovalRequest),
      manager.requests[id]? = some request → request.Valid policy
  have preserved : ∀ manager past call, inv manager past → call.Steady →
      inv (manager.serve call).1 (past ++ (manager.serve call).2) := by
    rintro manager past call ⟨isPolicy, valid⟩ steady
    refine ⟨(defaultPolicy_serve manager call).trans isPolicy, fun id request after => ?_⟩
    rcases serve_request manager id call with
      same | ⟨gone, -⟩ | ⟨created, isCreated, -, isValid⟩ |
        ⟨before, cast, checked, approver, approved, comment, rfl, found, authorised, notSelf, voted⟩
    · exact valid id request (same ▸ after)
    · cases after.symm.trans gone
    · cases after.symm.trans isCreated
      exact isPolicy ▸ isValid
    · cases after.symm.trans voted
      rw [isPolicy] at authorised notSelf
      exact (valid id before found).addVote steady authorised notSelf
  have start : inv (.new policy) [] := ⟨rfl, by simp [ApprovalManager.new]⟩
  exact (trace_invariant inv preserved calls _ [] start
    (Along.of_forall (fun _ call member => steady call member) _)).2 id request found

theorem drawn_of_stored {id : String}
    (found : (trace ApprovalManager.serve (.new policy) calls).1.requests[id]? = some request) :
    ∃ call ∈ calls, call.drawsId = some id := by
  induction calls using List.reverseRecOn generalizing request with
  | nil => simp [ApprovalManager.new] at found
  | append_singleton rest call ih =>
    rw [trace_append] at found
    rcases serve_request (trace ApprovalManager.serve (.new policy) rest).1 id call with
      same | ⟨gone, -⟩ | ⟨created, isCreated, draws, -⟩ |
        ⟨before, cast, checked, approver, approved, comment, -, isBefore, -, -, -⟩
    · obtain ⟨earlier, member, draws⟩ := ih (same ▸ found)
      exact ⟨earlier, List.mem_append_left _ member, draws⟩
    · cases found.symm.trans gone
    · exact ⟨call, by simp, draws⟩
    · obtain ⟨earlier, member, draws⟩ := ih isBefore
      exact ⟨earlier, List.mem_append_left _ member, draws⟩

theorem status_trace {manager : ApprovalManager} {id : String}
    (found : manager.requests[id]? = some request) (final : request.status.isFinal = true)
    (drawsNot : ∀ call ∈ calls, call.drawsId ≠ some id) :
    ∃ next, (trace ApprovalManager.serve manager calls).1.requests[id]? = some next ∧
      next.status = request.status := by
  have notPending : request.status ≠ .pending := by
    intro pending
    rw [pending] at final
    cases final
  induction calls generalizing manager request with
  | nil => exact ⟨request, found, rfl⟩
  | cons call rest ih =>
    rw [trace_cons]
    have drawsNotLater : ∀ other ∈ rest, other.drawsId ≠ some id :=
      fun other member => drawsNot other (List.mem_cons_of_mem _ member)
    rcases serve_request manager id call with
      same | ⟨gone, pending⟩ | ⟨created, isCreated, draws, -⟩ |
        ⟨before, cast, checked, approver, approved, comment, -, isBefore, -, -, voted⟩
    · exact ih (same.trans found) final drawsNotLater notPending
    · exact absurd (pending request found) notPending
    · exact absurd draws (drawsNot call List.mem_cons_self)
    · cases found.symm.trans isBefore
      have same := @ApprovalRequest.status_addVote request cast checked approver approved comment
        notPending
      obtain ⟨next, isNext, status⟩ := ih voted (by rw [same]; exact final) drawsNotLater
        (by rw [same]; exact notPending)
      exact ⟨next, isNext, status.trans same⟩

end

/-- Approval needs authorised votes and is final, on a steady clock and with delays that fit. -/
theorem approvals_are_authorised {policy : ApprovalPolicy} {calls later : List ApprovalCall}
    (fresh : (calls ++ later).Pairwise ApprovalCall.DrawsApart)
    (steady : ∀ call ∈ calls, call.Steady)
    (delays : ∀ value delay, policy.getDelay value = some delay → delay.toNat < 2 ^ 63)
    {id : String} {request : ApprovalRequest}
    (found : (trace ApprovalManager.serve (.new policy) calls).1.requests[id]? = some request) :
    (request.status = .approved → request.Authorised policy) ∧
    (∀ now, request.canExecute now = true → request.status = .approved ∧
      ∀ delay, policy.getDelay request.value = some delay →
        request.createdAt + seconds delay.toNat ≤ now) ∧
    (request.status.isFinal = true → ∃ next,
      (trace ApprovalManager.serve (.new policy) (calls ++ later)).1.requests[id]? = some next ∧
        next.status = request.status) := by
  have valid := valid_trace steady found
  refine ⟨valid.approved, fun now executes => ⟨request.approved_of_canExecute executes,
    fun delay isDelay => valid.executes executes isDelay (delays _ delay isDelay)⟩, fun final => ?_⟩
  obtain ⟨earlier, member, draws⟩ := drawn_of_stored found
  obtain ⟨-, -, apart⟩ := List.pairwise_append.mp fresh
  rw [trace_append]
  exact status_trace found final fun call isLater => apart earlier member call isLater id draws

namespace Known

def longDelay : ApprovalPolicy where
  minApprovals := 1
  approvers := ["alice"]
  timeDelaySeconds := some 18446744073709551615

def hourDelay : ApprovalPolicy where
  minApprovals := 2
  approvers := ["alice", "carol", "dave"]
  timeDelaySeconds := some 3600

def approving : List ApprovalCall :=
  [.create 0 "request" "bob" .null "1000" "key-1" "default", .vote 1 2 "request" "alice" true none]

/-- Between two approvers, somebody votes who is none. -/
def disputed : List ApprovalCall :=
  approving ++ [.vote 3 4 "request" "mallory" true none, .vote 5 6 "request" "carol" true none]

def approvedRequest (earliestExecution : Instant) : ApprovalRequest where
  id := "request"
  requester := "bob"
  transaction := .null
  value := "1000"
  keyId := "key-1"
  namespaceName := "default"
  status := .approved
  votes := [⟨"alice", true, 1, none⟩]
  requiredApprovals := 1
  createdAt := 0
  expiresAt := seconds 86400
  earliestExecution := some earliestExecution

def disputedRequest : ApprovalRequest :=
  { approvedRequest (seconds 3600) with
    votes := [⟨"alice", true, 1, none⟩, ⟨"carol", true, 5, none⟩]
    requiredApprovals := 2 }

end Known

theorem longest_delay_skipped :
    (trace ApprovalManager.serve (.new Known.longDelay) Known.approving).1.requests["request"]? =
      some (Known.approvedRequest (seconds (-1))) ∧
    Known.longDelay.getDelay "1000" = some 18446744073709551615 ∧
    (Known.approvedRequest (seconds (-1))).canExecute 2 = true ∧
    ¬ (0 + seconds (18446744073709551615 : UInt64).toNat ≤ 2) := by
  refine ⟨rfl, rfl, rfl, ?_⟩
  decide

theorem approvals_are_authorised_hour :
    Known.disputedRequest.Authorised Known.hourDelay ∧
    ∀ now, Known.disputedRequest.canExecute now = true → seconds 3600 ≤ now := by
  have found : (trace ApprovalManager.serve (.new Known.hourDelay)
      Known.disputed).1.requests["request"]? = some Known.disputedRequest := rfl
  have fresh : (Known.disputed ++ []).Pairwise ApprovalCall.DrawsApart := by
    simp [Known.disputed, Known.approving, ApprovalCall.DrawsApart, ApprovalCall.drawsId]
  have steady : ∀ call ∈ Known.disputed, call.Steady := by
    simp [Known.disputed, Known.approving, ApprovalCall.Steady]
  have delays : ∀ value delay, Known.hourDelay.getDelay value = some delay →
      delay.toNat < 2 ^ 63 := by
    intro value delay isDelay
    cases isDelay
    decide
  obtain ⟨authorised, executes, -⟩ := approvals_are_authorised fresh steady delays found
  exact ⟨authorised rfl, fun now can => (executes now can).2 3600 rfl⟩

end Hsm.Auth

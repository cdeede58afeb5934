import Hsm.Auth.Spending
import Hsm.Lib.Json
import Hsm.Lib.Run

/-! Approval of transactions by votes: policies, requests, and the manager that keeps them. -/

namespace Hsm.Auth

inductive ApprovalStatus where
  | pending
  | approved
  | rejected
  | expired
  | cancelled
  deriving DecidableEq, Repr

structure ApprovalVote where
  approver : String
  approved : Bool
  timestamp : Instant
  comment : Option String
  deriving DecidableEq, Repr

structure EscalationTier where
  threshold : String
  requiredApprovals : UInt32
  approvers : List String
  timeDelaySeconds : Option UInt64
  deriving DecidableEq, Repr

def EscalationTier.triggers (tier : EscalationTier) (value : String) : Bool :=
  match parseU128 tier.threshold, parseU128 value with
  | some threshold, some value => value ≥ threshold
  | _, _ => false

structure ApprovalPolicy where
  minApprovals : UInt32
  approvers : List String
  escalationTiers : List EscalationTier := []
  timeDelaySeconds : Option UInt64 := none
  expirationSeconds : UInt64 := 86400
  requesterCanApprove : Bool := false
  deriving DecidableEq, Repr

namespace ApprovalPolicy

variable (policy : ApprovalPolicy)

def getTier (value : String) : Option EscalationTier :=
  policy.escalationTiers.find? (·.triggers value)

def requiredApprovals (policy : ApprovalPolicy) (value : String) : UInt32 :=
  ((policy.getTier value).map (·.requiredApprovals)).getD policy.minApprovals

def getApprovers (value : String) : List String :=
  ((policy.getTier value).map (·.approvers)).getD policy.approvers

def getDelay (value : String) : Option UInt64 :=
  ((policy.getTier value).bind (·.timeDelaySeconds)).or policy.timeDelaySeconds

end ApprovalPolicy

/-- The cast to a signed integer. -/
def asI64 (count : UInt64) : Int := count.toBitVec.toInt

theorem asI64_of_lt {count : UInt64} (lower : count.toNat < 2 ^ 63) : asI64 count = count.toNat := by
  unfold asI64
  rw [BitVec.toInt_eq_toNat_of_lt]
  · rfl
  · show 2 * count.toNat < 2 ^ 64
    omega

structure ApprovalRequest where
  id : String
  requester : String
  transaction : JsonValue
  value : String
  keyId : String
  namespaceName : String
  status : ApprovalStatus
  votes : List ApprovalVote
  requiredApprovals : UInt32
  createdAt : Instant
  expiresAt : Instant
  earliestExecution : Option Instant

namespace ApprovalRequest

def new (now : Instant) (id requester : String) (transaction : JsonValue)
    (value keyId namespaceName : String) (policy : ApprovalPolicy) : Option ApprovalRequest := do
  let requiredApprovals := policy.requiredApprovals value
  let delay := policy.getDelay value
  let expiresAt ← now.plus (seconds (asI64 policy.expirationSeconds))
  let earliestExecution ← match delay with
    | some delay => (now.plus (seconds (asI64 delay))).map some
    | none => some none
  some { id, requester, transaction, value, keyId, namespaceName, status := .pending, votes := [],
         requiredApprovals, createdAt := now, expiresAt, earliestExecution }

/-- Update status; approvals are counted in 32 bits. -/
def updateStatus (now : Instant) (request : ApprovalRequest) : ApprovalRequest :=
  if request.status ≠ .pending then request
  else if now > request.expiresAt then { request with status := .expired }
  else
    let approvals := request.votes.countP (·.approved) % 2 ^ 32
    let rejections := request.votes.countP (!·.approved)
    if rejections > 0 then { request with status := .rejected }
    else if approvals ≥ request.requiredApprovals.toNat then { request with status := .approved }
    else request

def addVote (cast checked : Instant) (approver : String) (approved : Bool) (comment : Option String)
    (request : ApprovalRequest) : ApprovalRequest × Bool :=
  if request.votes.any (·.approver = approver) then (request, false)
  else
    let votes := request.votes ++ [⟨approver, approved, cast, comment⟩]
    (updateStatus checked { request with votes }, true)

def canExecute (now : Instant) (request : ApprovalRequest) : Bool :=
  if request.status ≠ .approved then false
  else
    match request.earliestExecution with
    | some earliest => !(now < earliest)
    | none => true

end ApprovalRequest

structure ApprovalManager where
  requests : Dict String ApprovalRequest
  defaultPolicy : ApprovalPolicy

namespace ApprovalManager

def new (defaultPolicy : ApprovalPolicy) : ApprovalManager := ⟨∅, defaultPolicy⟩

variable (manager : ApprovalManager)

def createRequest (now : Instant) (id requester : String) (transaction : JsonValue)
    (value keyId namespaceName : String) :
    Option (ApprovalManager × ApprovalRequest) :=
  (ApprovalRequest.new now id requester transaction value keyId namespaceName
    manager.defaultPolicy).map fun request =>
      ({ manager with requests := manager.requests.insert request.id request }, request)

def vote (cast checked : Instant) (requestId approver : String) (approved : Bool)
    (comment : Option String) :
    ApprovalManager × Except String ApprovalRequest :=
  match manager.requests[requestId]? with
  | none => (manager, .error "Request not found")
  | some request =>
    if approver ∉ manager.defaultPolicy.getApprovers request.value then
      (manager, .error "Not an authorized approver")
    else if request.requester = approver ∧ !manager.defaultPolicy.requesterCanApprove then
      (manager, .error "Requester cannot approve their own request")
    else
      let (voted, added) := request.addVote cast checked approver approved comment
      let next := { manager with requests := manager.requests.insert requestId voted }
      if !added then (next, .error "Already voted") else (next, .ok voted)

def cleanupExpired (now : ApprovalRequest → Instant) :
    ApprovalManager × Nat :=
  let kept := manager.requests.filter fun _ request =>
    !(request.status = .pending ∧ now request > request.expiresAt)
  ({ manager with requests := kept }, manager.requests.size - kept.size)

end ApprovalManager

/-- Calls of the approval manager, with clock readings and draws. -/
inductive ApprovalCall where
  | create (now : Instant) (id requester : String) (transaction : JsonValue)
      (value keyId namespaceName : String)
  | vote (cast checked : Instant) (requestId approver : String) (approved : Bool)
      (comment : Option String)
  | cleanupExpired (now : ApprovalRequest → Instant)

inductive ApprovalReply where
  | created (request : ApprovalRequest)
  | voted (result : Except String ApprovalRequest)
  | counted (count : Nat)
  | panicked

def ApprovalManager.serve (manager : ApprovalManager) (call : ApprovalCall) :
    ApprovalManager × List ApprovalReply :=
  match call with
  | .create now id requester transaction value keyId namespaceName =>
    match manager.createRequest now id requester transaction value keyId namespaceName with
    | some (next, request) => (next, [.created request])
    | none => (manager, [.panicked])
  | .vote cast checked requestId approver approved comment =>
    let (next, result) := manager.vote cast checked requestId approver approved comment
    (next, [.voted result])
  | .cleanupExpired now =>
    let (next, count) := manager.cleanupExpired now
    (next, [.counted count])

end Hsm.Auth

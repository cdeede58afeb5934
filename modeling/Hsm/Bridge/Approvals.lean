import Hsm.Bridge.Event
import Hsm.Lib.Dict
import Hsm.Lib.Run

/-! Approvals of held transfers: the quorum behind each of them, and when their status is final. -/

namespace Hsm.Bridge

inductive ApprovalStatus where
  | pending
  | approved
  | rejected
  | expired
  deriving DecidableEq, Repr

structure Approval where
  approverId : String
  approvedAt : Int
  ipAddress : Option String
  comment : Option String
  deriving DecidableEq, Repr

structure PendingApproval where
  id : String
  event : CorrelatedEvent
  reason : String
  requiredApprovers : UInt32
  approvals : List Approval
  createdAt : Nat
  expiresAt : Nat
  status : ApprovalStatus

namespace PendingApproval

def isApproved (pending : PendingApproval) : Bool :=
  decide (pending.requiredApprovers.toNat ≤ pending.approvals.length % 2 ^ 32)

def isExpired (pending : PendingApproval) (now : Nat) : Bool := decide (pending.expiresAt < now)

end PendingApproval

/-- The part of the enforcer that holds approvals. -/
structure ApprovalDesk where
  pendingApprovals : Dict String PendingApproval
  approvalTimeout : Nat

inductive BridgeError where
  | internal (message : String)
  deriving DecidableEq, Repr

inductive ApprovalCall where
  | requestApproval (event : CorrelatedEvent) (reason : String) (requiredApprovers : UInt32)
  | recordApproval (approvalId approverId : String) (ipAddress comment : Option String)
  | rejectApproval (approvalId : String)
  | cleanupExpired

inductive ApprovalAnswer where
  | requested (id : String)
  | recorded (answer : Except BridgeError Bool)
  | rejected (answer : Except BridgeError Unit)
  | swept (count : Nat)

namespace ApprovalDesk

def put (desk : ApprovalDesk) (id : String) (pending : PendingApproval) : ApprovalDesk :=
  { desk with pendingApprovals := desk.pendingApprovals.insert id pending }

def requestApproval (desk : ApprovalDesk) (event : CorrelatedEvent) (reason : String)
    (requiredApprovers : UInt32) (moment : Moment) : ApprovalDesk × String :=
  (desk.put moment.uuid
    ⟨moment.uuid, event, reason, requiredApprovers, [], moment.now,
      moment.now + desk.approvalTimeout, .pending⟩, moment.uuid)

def recordIn (pending : PendingApproval) (approverId : String)
    (ipAddress comment : Option String) (moment : Moment) :
    PendingApproval × Except BridgeError Bool :=
  if pending.isExpired moment.now then
    ({ pending with status := .expired }, .error (.internal "Approval expired"))
  else if pending.approvals.any fun approval => approval.approverId == approverId then
    (pending, .error (.internal "Already approved by this approver"))
  else
    let recorded : PendingApproval :=
      { pending with
        approvals := pending.approvals ++ [⟨approverId, moment.timestamp, ipAddress, comment⟩] }
    (if recorded.isApproved then { recorded with status := .approved } else recorded,
      .ok recorded.isApproved)

/-- Record a consent; neither status nor rejection is looked at. -/
def recordApproval (desk : ApprovalDesk) (approvalId approverId : String)
    (ipAddress comment : Option String) (moment : Moment) :
    ApprovalDesk × Except BridgeError Bool :=
  match desk.pendingApprovals[approvalId]? with
  | none => (desk, .error (.internal "Approval not found"))
  | some pending =>
    let (changed, answer) := recordIn pending approverId ipAddress comment moment
    (desk.put approvalId changed, answer)

def rejectApproval (desk : ApprovalDesk) (approvalId : String) :
    ApprovalDesk × Except BridgeError Unit :=
  match desk.pendingApprovals[approvalId]? with
  | none => (desk, .error (.internal "Approval not found"))
  | some pending => (desk.put approvalId { pending with status := .rejected }, .ok ())

def sweep (now : Nat) (pending : PendingApproval) : PendingApproval :=
  if pending.isExpired now && pending.status == .pending then { pending with status := .expired }
  else pending

/-- The clock is read for each approval. -/
def cleanupExpired (desk : ApprovalDesk) (moment : Moment) : ApprovalDesk × Nat :=
  ({ desk with pendingApprovals := desk.pendingApprovals.map fun id => sweep (moment.read id 0) },
    desk.pendingApprovals.toList.countP fun entry =>
      entry.2.isExpired (moment.read entry.1 0) && entry.2.status == .pending)

def step (desk : ApprovalDesk) (call : ApprovalCall × Moment) :
    ApprovalDesk × List ApprovalAnswer :=
  match call.1 with
  | .requestApproval event reason required =>
    let done := desk.requestApproval event reason required call.2
    (done.1, [.requested done.2])
  | .recordApproval id approver ip comment =>
    let done := desk.recordApproval id approver ip comment call.2
    (done.1, [.recorded done.2])
  | .rejectApproval id =>
    let done := desk.rejectApproval id
    (done.1, [.rejected done.2])
  | .cleanupExpired =>
    let done := desk.cleanupExpired call.2
    (done.1, [.swept done.2])

/-- Approvals time out after an hour of 3600 seconds. -/
def new : ApprovalDesk := ⟨∅, 3600 * 10 ^ 9⟩

theorem find_step (desk : ApprovalDesk) (call : ApprovalCall) (moment : Moment) (id : String) :
    (desk.step (call, moment)).1.pendingApprovals[id]? =
      match call with
      | .requestApproval event reason required =>
        if moment.uuid = id then
          some ⟨moment.uuid, event, reason, required, [], moment.now,
            moment.now + desk.approvalTimeout, .pending⟩
        else desk.pendingApprovals[id]?
      | .recordApproval target approver ip comment =>
        desk.pendingApprovals[id]?.map fun pending =>
          if target = id then (recordIn pending approver ip comment moment).1 else pending
      | .rejectApproval target =>
        desk.pendingApprovals[id]?.map fun pending =>
          if target = id then { pending with status := .rejected } else pending
      | .cleanupExpired => desk.pendingApprovals[id]?.map (sweep (moment.read id 0)) := by
  cases call with
  | requestApproval event reason required =>
    exact Dict.find_insert _ _ _ _
  | recordApproval target approver ip comment =>
    simp only [step, recordApproval]
    by_cases same : target = id
    · subst same
      cases found : desk.pendingApprovals[target]? <;> simp [put, found]
    · cases found : desk.pendingApprovals[target]? <;>
        simp [put, same, Dict.find_insert_of_ne _ same]
  | rejectApproval target =>
    simp only [step, rejectApproval]
    by_cases same : target = id
    · subst same
      cases found : desk.pendingApprovals[target]? <;> simp [put, found]
    · cases found : desk.pendingApprovals[target]? <;>
        simp [put, same, Dict.find_insert_of_ne _ same]
  | cleanupExpired => simp [step, cleanupExpired, Std.ExtTreeMap.getElem?_map]

/-- Consents are of different approvers, in time, and enough once approved. -/
structure Backed (calls : List (ApprovalCall × Moment)) (id : String) (pending : PendingApproval) :
    Prop where
  distinct : (pending.approvals.map Approval.approverId).Nodup
  recorded : ∀ approval ∈ pending.approvals, ∃ moment : Moment, moment.now ≤ pending.expiresAt ∧
    (.recordApproval id approval.approverId approval.ipAddress approval.comment, moment) ∈ calls
  quorum : pending.status = .approved → pending.requiredApprovers.toNat ≤ pending.approvals.length

variable {calls : List (ApprovalCall × Moment)} {pending : PendingApproval}

theorem Backed.mono {more : List (ApprovalCall × Moment)} {id : String}
    (backed : Backed calls id pending) (subset : calls ⊆ more) :
    Backed more id pending :=
  ⟨backed.distinct, fun approval member =>
    let ⟨moment, early, called⟩ := backed.recorded approval member
    ⟨moment, early, subset called⟩, backed.quorum⟩

theorem Backed.withStatus {id : String} (backed : Backed calls id pending) {status : ApprovalStatus}
    (other : status ≠ .approved) : Backed calls id { pending with status := status } :=
  ⟨backed.distinct, backed.recorded, fun approved => absurd approved other⟩

theorem backed_recordIn {id : String} (backed : Backed calls id pending) (approver : String)
    (ip comment : Option String) (moment : Moment) :
    Backed (calls ++ [(.recordApproval id approver ip comment, moment)]) id
      (recordIn pending approver ip comment moment).1 := by
  have kept := backed.mono (List.subset_append_left calls
    [(.recordApproval id approver ip comment, moment)])
  unfold recordIn
  by_cases expired : pending.isExpired moment.now = true
  · rw [if_pos expired]
    exact kept.withStatus (by decide)
  rw [if_neg expired]
  by_cases again : (pending.approvals.any fun approval => approval.approverId == approver) = true
  · rw [if_pos again]
    exact kept
  rw [if_neg again]
  -- the new consent is another approver's, and in time
  have inTime : moment.now ≤ pending.expiresAt := by simpa [PendingApproval.isExpired] using expired
  have fresh : ∀ approval ∈ pending.approvals, approval.approverId ≠ approver := by
    simpa using again
  have distinct : ((pending.approvals ++
      [(⟨approver, moment.timestamp, ip, comment⟩ : Approval)]).map Approval.approverId).Nodup := by
    rw [List.map_append, List.nodup_append]
    refine ⟨kept.distinct, by simp, ?_⟩
    intro known member other single same
    obtain ⟨approval, listed, rfl⟩ := List.mem_map.mp member
    exact fresh approval listed (by simpa [same] using single)
  have recorded : ∀ approval ∈ pending.approvals ++ [⟨approver, moment.timestamp, ip, comment⟩],
      ∃ at_ : Moment, at_.now ≤ pending.expiresAt ∧
        (.recordApproval id approval.approverId approval.ipAddress approval.comment, at_) ∈
          calls ++ [(.recordApproval id approver ip comment, moment)] := by
    intro approval member
    rcases List.mem_append.mp member with old | new
    · exact kept.recorded approval old
    · obtain rfl := List.mem_singleton.mp new
      exact ⟨moment, inTime, by simp⟩
  dsimp only
  split
  · rename_i approved
    refine ⟨distinct, recorded, fun _ => ?_⟩
    have enough : pending.requiredApprovers.toNat ≤
        (pending.approvals ++
          [(⟨approver, moment.timestamp, ip, comment⟩ : Approval)]).length % 2 ^ 32 := by
      simpa [PendingApproval.isApproved] using approved
    exact enough.trans (Nat.mod_le _ _)
  · refine ⟨distinct, recorded, fun approved => ?_⟩
    have before := kept.quorum approved
    simp only [List.length_append]
    omega

variable {desk : ApprovalDesk}

theorem backed_step (all : ∀ (id : String) (pending : PendingApproval),
      desk.pendingApprovals[id]? = some pending → Backed calls id pending) (call : ApprovalCall)
    (moment : Moment) (id : String) (pending : PendingApproval)
    (found : (desk.step (call, moment)).1.pendingApprovals[id]? = some pending) :
    Backed (calls ++ [(call, moment)]) id pending := by
  have kept : ∀ (id : String) (pending : PendingApproval),
      desk.pendingApprovals[id]? = some pending →
      Backed (calls ++ [(call, moment)]) id pending := fun id pending known =>
    (all id pending known).mono (List.subset_append_left _ _)
  rw [find_step] at found
  cases call with
  | requestApproval event reason required =>
    dsimp only at found
    split at found
    · cases found
      exact ⟨List.nodup_nil, by simp, fun approved => absurd approved (by simp)⟩
    · exact kept id pending found
  | recordApproval target approver ip comment =>
    obtain ⟨before, known, rfl⟩ := Option.map_eq_some_iff.mp found
    split
    · rename_i same
      subst same
      exact backed_recordIn (all target before known) approver ip comment moment
    · exact kept id before known
  | rejectApproval target =>
    obtain ⟨before, known, rfl⟩ := Option.map_eq_some_iff.mp found
    split
    · exact (kept id before known).withStatus (by decide)
    · exact kept id before known
  | cleanupExpired =>
    obtain ⟨before, known, rfl⟩ := Option.map_eq_some_iff.mp found
    unfold sweep
    split
    · exact (kept id before known).withStatus (by decide)
    · exact kept id before known

theorem backed_run (before calls : List (ApprovalCall × Moment))
    (all : ∀ (id : String) (pending : PendingApproval),
      desk.pendingApprovals[id]? = some pending → Backed before id pending) (id : String)
    (pending : PendingApproval)
    (found : (trace step desk calls).1.pendingApprovals[id]? = some pending) :
    Backed (before ++ calls) id pending := by
  induction calls generalizing before desk with
  | nil => simpa using all id pending found
  | cons call rest ih =>
    have next := ih (before ++ [call]) (backed_step all call.1 call.2) found
    simpa using next

def Respectful (desk : ApprovalDesk) (call : ApprovalCall × Moment) : Prop :=
  match call.1 with
  | .requestApproval .. => desk.pendingApprovals[call.2.uuid]? = none
  | .recordApproval id .. => ∀ pending, desk.pendingApprovals[id]? = some pending →
      pending.status = .pending ∨ pending.status = .expired ∨
        (pending.status = .approved ∧ call.2.now ≤ pending.expiresAt)
  | .rejectApproval id => ∀ pending, desk.pendingApprovals[id]? = some pending →
      pending.status = .pending ∨ pending.status = .rejected
  | .cleanupExpired => True

/-- The later call starts when the earlier one has read its clock for the last time. -/
def Follows (earlier later : ApprovalCall × Moment) : Prop :=
  earlier.2.now ≤ later.2.now ∧ ∀ id, earlier.2.read id 0 ≤ later.2.now

/-- What is expired stays past its time. -/
def Overdue (desk : ApprovalDesk) (calls : List (ApprovalCall × Moment)) : Prop :=
  ∀ (id : String) (pending : PendingApproval), desk.pendingApprovals[id]? = some pending →
    pending.status = .expired → ∀ call ∈ calls, pending.expiresAt < call.2.now

theorem overdue_step {call : ApprovalCall × Moment} {rest : List (ApprovalCall × Moment)}
    (overdue : Overdue desk (call :: rest)) (ordered : ∀ later ∈ rest, Follows call later) :
    Overdue (desk.step call).1 rest := by
  obtain ⟨call, moment⟩ := call
  have late : ∀ pending : PendingApproval, pending.isExpired moment.now = true →
      ∀ later ∈ rest, pending.expiresAt < later.2.now := fun pending expired later member =>
    (of_decide_eq_true expired).trans_le (ordered later member).1
  have lateRead : ∀ (id : String) (pending : PendingApproval),
      pending.isExpired (moment.read id 0) = true →
      ∀ later ∈ rest, pending.expiresAt < later.2.now := fun id pending expired later member =>
    (of_decide_eq_true expired).trans_le ((ordered later member).2 id)
  have old : ∀ (id : String) (pending : PendingApproval),
      desk.pendingApprovals[id]? = some pending →
      pending.status = .expired → ∀ later ∈ rest, pending.expiresAt < later.2.now :=
    fun id pending known expired later member =>
      overdue id pending known expired later (List.mem_cons_of_mem _ member)
  intro id pending found expired
  rw [find_step] at found
  cases call with
  | requestApproval event reason required =>
    dsimp only at found
    split at found
    · cases found
      cases expired
    · exact old id pending found expired
  | recordApproval target approver ip comment =>
    obtain ⟨before, known, rfl⟩ := Option.map_eq_some_iff.mp found
    unfold recordIn at expired ⊢
    grind
  | rejectApproval target =>
    obtain ⟨before, known, rfl⟩ := Option.map_eq_some_iff.mp found
    grind
  | cleanupExpired =>
    obtain ⟨before, known, rfl⟩ := Option.map_eq_some_iff.mp found
    unfold sweep at expired ⊢
    grind

theorem final_step {call : ApprovalCall × Moment} {rest : List (ApprovalCall × Moment)}
    (respectful : Respectful desk call) (overdue : Overdue desk (call :: rest)) {id : String}
    (found : desk.pendingApprovals[id]? = some pending) (final : pending.status ≠ .pending) :
    ∃ later, (desk.step call).1.pendingApprovals[id]? = some later ∧
      later.status = pending.status := by
  obtain ⟨call, moment⟩ := call
  rw [find_step, found]
  cases call with
  | requestApproval event reason required =>
    have unused : desk.pendingApprovals[moment.uuid]? = none := respectful
    have apart : moment.uuid ≠ id := fun same => by simp [← same, unused] at found
    exact ⟨pending, if_neg apart, rfl⟩
  | recordApproval target approver ip comment =>
    refine ⟨_, rfl, ?_⟩
    split
    · rename_i same
      subst same
      rcases respectful pending found with isPending | isExpired | ⟨isApproved, inTime⟩
      · exact absurd isPending final
      · -- an expired approval is past its time again
        have past := overdue target pending found isExpired _ List.mem_cons_self
        simp [recordIn, PendingApproval.isExpired, past, isExpired]
      · have open_ : ¬ pending.expiresAt < moment.now := Nat.not_lt.mpr inTime
        unfold recordIn
        simp only [PendingApproval.isExpired, open_, decide_false, Bool.false_eq_true, if_false]
        split <;> [rfl; (dsimp only; split <;> simp [isApproved])]
    · rfl
  | rejectApproval target =>
    refine ⟨_, rfl, ?_⟩
    split
    · rename_i same
      subst same
      rcases respectful pending found with isPending | isRejected
      · exact absurd isPending final
      · exact isRejected.symm
    · rfl
  | cleanupExpired =>
    refine ⟨_, rfl, ?_⟩
    simp [sweep, final]

/-- Expired approvals stay past their time. -/
theorem overdue_run (first second : List (ApprovalCall × Moment))
    (overdue : Overdue desk (first ++ second))
    (ordered : (first ++ second).Pairwise Follows) :
    Overdue (trace step desk first).1 second := by
  induction first generalizing desk with
  | nil => exact overdue
  | cons call rest ih =>
    obtain ⟨head, tail⟩ := List.pairwise_cons.mp ordered
    exact ih (overdue_step overdue head) tail

theorem final_run (calls : List (ApprovalCall × Moment)) (overdue : Overdue desk calls)
    (ordered : calls.Pairwise Follows)
    (along : Along Respectful step desk calls) {id : String}
    (found : desk.pendingApprovals[id]? = some pending) (final : pending.status ≠ .pending) :
    ∃ later, (trace step desk calls).1.pendingApprovals[id]? = some later ∧
      later.status = pending.status := by
  induction calls generalizing desk pending with
  | nil => exact ⟨pending, found, rfl⟩
  | cons call rest ih =>
    obtain ⟨head, tail⟩ := List.pairwise_cons.mp ordered
    obtain ⟨next, nextFound, same⟩ := final_step along.1 overdue found final
    obtain ⟨later, laterFound, still⟩ :=
      ih (overdue_step overdue head) tail along.2 nextFound (same ▸ final)
    exact ⟨later, laterFound, still.trans same⟩

/-- Approvals are backed by their quorum, and final if the calls respect the status. -/
theorem approvals_backed_and_final (before after : List (ApprovalCall × Moment))
    (ordered : (before ++ after).Pairwise Follows)
    (id : String) (pending : PendingApproval)
    (found : (trace step new before).1.pendingApprovals[id]? = some pending) :
    Backed before id pending ∧
      (Along Respectful step new (before ++ after) → pending.status ≠ .pending →
        ∃ later, (trace step new (before ++ after)).1.pendingApprovals[id]? = some later ∧
          later.status = pending.status) := by
  constructor
  · exact backed_run [] before (by simp [new]) id pending found
  · intro along final
    have overdue : Overdue (trace step new before).1 after :=
      overdue_run before after (by simp [Overdue, new]) ordered
    rw [trace_append]
    exact final_run after overdue (List.pairwise_append.mp ordered).2.1
      (along_append.mp along).2 found final

def sampleEvent : BridgeEvent :=
  ⟨"e", "ethereum", 12345, "0xdep", .deposit, "USDC", ⟨100, 0⟩, "0xsender", "0xrecipient", none,
    none, 0, 0, .null⟩

def sampleTransfer : CorrelatedEvent := ⟨"c", sampleEvent, none, .pending, 0, none, none⟩

def sampleCalls : List (ApprovalCall × Moment) :=
  [(.requestApproval sampleTransfer "large" 2, { now := 0, timestamp := 0, uuid := "a" }),
    (.recordApproval "a" "alice" none none, { now := 10, timestamp := 10, uuid := "b" }),
    (.recordApproval "a" "bob" none (some "checked"), { now := 20, timestamp := 20, uuid := "c" })]

def sampleApproved : PendingApproval :=
  ⟨"a", sampleTransfer, "large", 2,
    [⟨"alice", 10, none, none⟩, ⟨"bob", 20, none, some "checked"⟩], 0, 3600 * 10 ^ 9, .approved⟩

theorem sample_approved : (trace step new sampleCalls).1.pendingApprovals["a"]? =
    some sampleApproved := by
  rw [sampleCalls, trace_cons, trace_cons, trace_cons, trace_nil, find_step, find_step, find_step]
  rfl

/-- An hour later, or more. -/
def sampleSweep : ApprovalCall × Moment :=
  (.cleanupExpired, { now := 5000 * 10 ^ 9, timestamp := 5000, uuid := "d" })

theorem approved_then_rejected :
    (∃ pending, (trace step new sampleCalls).1.pendingApprovals["a"]? = some pending ∧
      pending.status = .approved) ∧
    ∃ pending, (trace step new
      (sampleCalls ++ [(.rejectApproval "a",
        { now := 30, timestamp := 30, uuid := "d" })])).1.pendingApprovals["a"]? =
        some pending ∧ pending.status = .rejected := by
  refine ⟨⟨_, sample_approved, rfl⟩, { sampleApproved with status := .rejected }, ?_, rfl⟩
  rw [trace_append, trace_cons, trace_nil, find_step, sample_approved]
  rfl

theorem approvals_backed_and_final_swept :
    Backed sampleCalls "a" sampleApproved ∧
      ∃ later, (trace step new
        (sampleCalls ++ [sampleSweep])).1.pendingApprovals["a"]? =
          some later ∧ later.status = .approved := by
  have result := approvals_backed_and_final sampleCalls [sampleSweep]
    (by simp [sampleCalls, sampleSweep, Follows, Moment.read]) "a" sampleApproved sample_approved
  refine ⟨result.1, result.2 ?_ (by decide)⟩
  -- Only the consents have a condition to meet, and they find the approval open.
  have first : new.pendingApprovals["a"]? = none := by simp [new]
  refine ⟨first, fun pending found => ?_, fun pending found => ?_, trivial, trivial⟩
  · rw [find_step] at found
    cases found
    exact Or.inl rfl
  · rw [find_step, find_step] at found
    cases found
    exact Or.inl rfl

end ApprovalDesk

end Hsm.Bridge

import Hsm.Auth.RecoveryLaws

/-! Recovery is completed only after the proof its own method asks for. -/

namespace Hsm.Auth

open RecoveryManager

/-- The proof that the method of a request asks for, since it was initiated. -/
inductive Proven (config : RecoveryConfig) (requestId : String) (since : List RecoveryEvent) :
    RecoveryEvent → Prop where
  | email {now entry : Clocks} {drawnCode : UInt64} {drawnId : Bytes} {asker : Asker}
      {code : String} (entered : (.verifyCode entry requestId code, .done (.ok ())) ∈ since)
      (inTime : entry.steady - now.steady ≤ config.codeTtl) :
    Proven config requestId since
      (.initiateEmail now drawnCode drawnId asker, .sent (.ok (requestId, code)))
  | sms {now entry : Clocks} {drawnCode : UInt64} {drawnId : Bytes} {asker : Asker}
      {code : String} (entered : (.verifyCode entry requestId code, .done (.ok ())) ∈ since)
      (inTime : entry.steady - now.steady ≤ config.codeTtl) :
    Proven config requestId since
      (.initiateSms now drawnCode drawnId asker, .sent (.ok (requestId, code)))
  | timeLocked {now check : Clocks} {drawnId : Bytes} {asker : Asker}
      (checked : (.checkTimeLock check requestId, .decided (.ok true)) ∈ since)
      (reached : now.system + config.timeLockHours * 3600 ≤ check.system) :
    Proven config requestId since
      (.initiateTimeLocked now drawnId asker, .locked (.ok requestId))
  | social {now : Clocks} {drawnId : Bytes} {asker : Asker} {approvals : List GuardianApproval}
      (approving : List String) (distinct : approving.Nodup)
      (enough : config.guardianThreshold approvals.length ≤ approving.length)
      (asked : ∀ guardianId ∈ approving, guardianId ∈ approvals.map (·.guardianId))
      (approved : ∀ guardianId ∈ approving, ∃ then_ ip quorum,
        (.recordGuardianApproval then_ requestId guardianId ip, .decided (.ok quorum)) ∈ since) :
    Proven config requestId since
      (.initiateSocial now drawnId asker, .asked (.ok (requestId, approvals)))

/-- A request was initiated and proven, and not initiated again. -/
def Authorised (config : RecoveryConfig) (requestId : String) (history : List RecoveryEvent) :
    Prop :=
  ∃ earlier opening since, history = earlier ++ opening :: since ∧
    (∀ event ∈ since, ¬ event.Opens requestId) ∧ Proven config requestId since opening

def RecoveryManager.ChecksTimeLocks (manager : RecoveryManager) : RecoveryCall → Prop
  | .checkTimeLock _ requestId => ∀ request, manager.requests[requestId]? = some request →
    ∃ hours, request.method = .timeLocked hours
  | _ => True

def RecoveryCall.code (config : RecoveryConfig) : RecoveryCall → Option String
  | .initiateEmail _ drawnCode _ _ => some (VerificationCode.generate config.codeLength drawnCode)
  | .initiateSms _ drawnCode _ _ => some (VerificationCode.generate config.codeLength drawnCode)
  | .verifyCode _ _ code => some code
  | _ => none

def DistinctDigests (codes : List String) : Prop :=
  ∀ first ∈ codes, ∀ second ∈ codes,
    sha256 (asBytes first) = sha256 (asBytes second) → first = second

/-- What never changes about a request. -/
structure RecoveryRequest.SameTerms (origin request : RecoveryRequest) : Prop where
  method : request.method = origin.method
  createdAt : request.createdAt = origin.createdAt
  expiresIn : request.expiresIn = origin.expiresIn
  verificationHash : request.verificationHash = origin.verificationHash
  timeLockEndsAt : request.timeLockEndsAt = origin.timeLockEndsAt
  guardians : request.guardianApprovals.map (·.guardianId) =
    origin.guardianApprovals.map (·.guardianId)

def FirstsApproved (approvals : List GuardianApproval) : Prop :=
  approvals.Pairwise fun first second =>
    first.guardianId = second.guardianId → second.approved = false

/-- What a stored request records has happened. -/
structure Traced (config : RecoveryConfig) (requestId : String) (opening : RecoveryEvent)
    (since : List RecoveryEvent) (origin request : RecoveryRequest) : Prop where
  opened : Opening config opening origin
  named : origin.id = requestId
  alone : ∀ event ∈ since, ¬ event.Opens requestId
  terms : origin.SameTerms request
  firsts : FirstsApproved request.guardianApprovals
  marks : ∀ approval ∈ request.guardianApprovals, approval.approved = true →
    ∃ then_ ip quorum, (.recordGuardianApproval then_ requestId approval.guardianId ip,
      .decided (.ok quorum)) ∈ since
  proven : request.status = .approved → Proven config requestId since opening

section

variable {config : RecoveryConfig} {requestId : String} {opening event : RecoveryEvent}
  {since : List RecoveryEvent} {origin request : RecoveryRequest}

variable {longer : List RecoveryEvent}

theorem Proven.mono (proven : Proven config requestId since opening) (subset : since ⊆ longer) :
    Proven config requestId longer opening := by
  cases proven with
  | email entered inTime => exact .email (subset entered) inTime
  | sms entered inTime => exact .sms (subset entered) inTime
  | timeLocked checked reached => exact .timeLocked (subset checked) reached
  | social approving distinct enough asked approved =>
    refine .social approving distinct enough asked fun guardianId member => ?_
    obtain ⟨then_, ip, quorum, recorded⟩ := approved guardianId member
    exact ⟨then_, ip, quorum, subset recorded⟩

theorem Opening.traced (opened : Opening config opening request) :
    Traced config request.id opening [] request request := by
  have waiting : request.status ≠ .approved := by
    cases opened <;> simp [codeRequest, timeLockRequest, socialRequest]
  have unmarked : ∀ approval ∈ request.guardianApprovals, approval.approved = false := by
    cases opened <;> simp [codeRequest, timeLockRequest, socialRequest]
  exact {
    opened
    named := rfl
    alone := by simp
    terms := ⟨rfl, rfl, rfl, rfl, rfl, rfl⟩
    firsts := List.pairwise_of_forall_mem_list fun first _ second member _ => unmarked second member
    marks := fun approval member marked => by simp [unmarked approval member] at marked
    proven := fun approved => absurd approved waiting }

theorem guardianIds_modifyFirst (approvals : List GuardianApproval) (guardianId : String)
    (change : GuardianApproval → GuardianApproval)
    (same : ∀ approval, (change approval).guardianId = approval.guardianId) :
    (RecoveryRequest.modifyFirst approvals guardianId change).map (·.guardianId) =
      approvals.map (·.guardianId) := by
  induction approvals with
  | nil => rfl
  | cons approval rest ih =>
    rw [RecoveryRequest.modifyFirst]
    split
    · simp [same]
    · simp [ih]

theorem mem_modifyFirst {approvals : List GuardianApproval} {guardianId : String}
    {change : GuardianApproval → GuardianApproval} {approval : GuardianApproval}
    (member : approval ∈ RecoveryRequest.modifyFirst approvals guardianId change) :
    approval ∈ approvals ∨
      ∃ old ∈ approvals, old.guardianId = guardianId ∧ approval = change old := by
  induction approvals with
  | nil => cases member
  | cons first rest ih =>
    rw [RecoveryRequest.modifyFirst] at member
    split at member
    · rename_i named
      rcases List.mem_cons.mp member with rfl | later
      · exact .inr ⟨first, by simp, named, rfl⟩
      · exact .inl (List.mem_cons_of_mem _ later)
    · rcases List.mem_cons.mp member with rfl | later
      · exact .inl (by simp)
      · rcases ih later with before | ⟨old, before, named, rfl⟩
        · exact .inl (List.mem_cons_of_mem _ before)
        · exact .inr ⟨old, List.mem_cons_of_mem _ before, named, rfl⟩

theorem FirstsApproved.modifyFirst {approvals : List GuardianApproval}
    (firsts : FirstsApproved approvals) (guardianId : String)
    {change : GuardianApproval → GuardianApproval}
    (same : ∀ approval, (change approval).guardianId = approval.guardianId) :
    FirstsApproved (RecoveryRequest.modifyFirst approvals guardianId change) := by
  induction approvals with
  | nil => exact firsts
  | cons first rest ih =>
    obtain ⟨ahead, later⟩ := List.pairwise_cons.mp firsts
    rw [RecoveryRequest.modifyFirst]
    split
    · refine List.pairwise_cons.mpr ⟨fun second member equal => ?_, later⟩
      exact ahead second member ((same first).symm.trans equal)
    · rename_i apart
      refine List.pairwise_cons.mpr ⟨fun second member equal => ?_, ih later⟩
      -- The changed entry belongs to the guardian, and the entry ahead does not.
      rcases mem_modifyFirst member with before | ⟨old, before, named, rfl⟩
      · exact ahead second before equal
      · exact absurd (equal.trans ((same old).trans named)) apart

theorem verifyCode_cases (request : RecoveryRequest) (now : Clocks) (code : String) :
    (∃ status attempts error, request.verifyCode now code =
        ({ request with status, attempts }, .error error) ∧
        (status = .approved → request.status = .approved)) ∨
    ∃ expectedHash, request.isExpired now = false ∧
      request.verificationHash = some expectedHash ∧
      ctEqHexHash (codeHash code) expectedHash = true ∧
      request.verifyCode now code =
        ({ request with status := .approved, attempts := request.attempts + 1 }, .ok ()) := by
  unfold RecoveryRequest.verifyCode
  split
  · exact .inl ⟨.expired, request.attempts, _, rfl, nofun⟩
  · rename_i open_
    split
    · exact .inl ⟨.denied, request.attempts, _, rfl, nofun⟩
    · dsimp only
      split
      · exact .inl ⟨request.status, request.attempts + 1, _, rfl, id⟩
      · rename_i expectedHash expected
        split
        · exact .inl ⟨request.status, request.attempts + 1, _, rfl, id⟩
        · rename_i equal
          exact .inr ⟨expectedHash, by simpa using open_, expected, by simpa using equal, rfl⟩

def marked (now : Clocks) (approvedFromIp : Option String) (guardian : GuardianApproval) :
    GuardianApproval :=
  { guardian with approved := true, approvedAt := some now.system, approvedFromIp }

theorem recordGuardianApproval_cases (request : RecoveryRequest) (now : Clocks)
    (guardianId : String) (ip : Option String) :
    (∃ status error, request.recordGuardianApproval now guardianId ip =
        ({ request with status }, .error error) ∧
        (status = .approved → request.status = .approved)) ∨
    ∃ guardianApprovals status quorum,
      guardianApprovals =
        RecoveryRequest.modifyFirst request.guardianApprovals guardianId (marked now ip) ∧
      request.recordGuardianApproval now guardianId ip =
        ({ request with guardianApprovals, status }, .ok quorum) ∧
      (status = .approved → request.status = .approved ∨
        ∃ threshold total, request.method = .socialRecovery threshold total ∧
          threshold ≤ guardianApprovals.countP (·.approved)) := by
  unfold RecoveryRequest.recordGuardianApproval
  split
  · exact .inl ⟨.expired, _, rfl, nofun⟩
  · split
    · exact .inl ⟨request.status, _, rfl, id⟩
    · split
      · exact .inl ⟨request.status, _, rfl, id⟩
      · refine .inr
          ⟨RecoveryRequest.modifyFirst request.guardianApprovals guardianId (marked now ip), ?_⟩
        dsimp only
        split
        · rename_i threshold total isSocial
          split
          · rename_i quorum
            refine ⟨.approved, true, rfl, rfl, fun _ => .inr ⟨threshold, total, isSocial, ?_⟩⟩
            exact of_decide_eq_true quorum
          · exact ⟨request.status, false, rfl, rfl, .inl⟩
        · exact ⟨request.status, false, rfl, rfl, .inl⟩

theorem checkTimeLock_cases (request : RecoveryRequest) (now : Clocks) :
    (∃ status result, request.checkTimeLock now = ({ request with status }, result) ∧
        (status = .approved → request.status = .approved)) ∨
    request.timeLockPassed now = true ∧
      request.checkTimeLock now = ({ request with status := .approved }, .ok true) := by
  unfold RecoveryRequest.checkTimeLock
  split
  · exact .inl ⟨.expired, _, rfl, nofun⟩
  · split
    · rename_i passed
      exact .inr ⟨passed, rfl⟩
    · exact .inl ⟨request.status, _, rfl, id⟩

/-- Time locks are checked on locked requests, and digests tell codes. -/
structure Sane (config : RecoveryConfig) (codes : List String) (request : RecoveryRequest)
    (opening event : RecoveryEvent) : Prop where
  distinct : DistinctDigests codes
  generated : ∀ code, opening.1.code config = some code → code ∈ codes
  submitted : ∀ code, event.1.code config = some code → code ∈ codes
  locked : ∀ now requestId, event.1 = .checkTimeLock now requestId →
    ∃ hours, request.method = .timeLocked hours

variable {codes : List String}

theorem code_of_ctEqHexHash (distinct : DistinctDigests codes) {code generated : String}
    (isCode : code ∈ codes) (isGenerated : generated ∈ codes)
    (equal : ctEqHexHash (codeHash code) (codeHash generated) = true) : code = generated := by
  simp only [ctEqHexHash, codeHash, hexDecode_hexEncode, decide_eq_true_eq] at equal
  exact distinct code isCode generated isGenerated equal.2

variable {now : Clocks}

theorem Traced.proven_of_code (traced : Traced config requestId opening since origin request)
    {code hash : String}
    (sane : Sane config codes request opening (.verifyCode now requestId code, .done (.ok ())))
    (alive : request.isExpired now = false) (expected : request.verificationHash = some hash)
    (equal : ctEqHexHash (codeHash code) hash = true)
    (entered : (.verifyCode now requestId code, .done (.ok ())) ∈ longer) :
    Proven config requestId longer opening := by
  obtain ⟨opened, named, -, terms, -, -, -⟩ := traced
  rw [RecoveryRequest.isExpired, Clocks.since, terms.createdAt, terms.expiresIn,
    decide_eq_false_iff_not, Int.not_lt] at alive
  have inTime := Int.le_trans (Int.le_max_right 0 _) alive
  rw [terms.verificationHash] at expected
  subst named
  cases opened with
  | email opened drawnCode drawnId asker email =>
    cases expected
    rw [code_of_ctEqHexHash sane.distinct (sane.submitted code rfl) (sane.generated _ rfl) equal]
      at entered
    exact .email entered inTime
  | sms opened drawnCode drawnId asker phone =>
    cases expected
    rw [code_of_ctEqHexHash sane.distinct (sane.submitted code rfl) (sane.generated _ rfl) equal]
      at entered
    exact .sms entered inTime
  | timeLocked opened drawnId asker => cases expected
  | social opened drawnId asker guardians => cases expected

theorem Traced.proven_of_timeLock {hours : Nat}
    (traced : Traced config requestId opening since origin request)
    (locked : request.method = .timeLocked hours) (passed : request.timeLockPassed now = true)
    (checked : (.checkTimeLock now requestId, .decided (.ok true)) ∈ longer) :
    Proven config requestId longer opening := by
  obtain ⟨opened, named, -, terms, -, -, -⟩ := traced
  rw [terms.method] at locked
  rw [RecoveryRequest.timeLockPassed, terms.timeLockEndsAt] at passed
  subst named
  cases opened with
  | email opened drawnCode drawnId asker email => cases locked
  | sms opened drawnCode drawnId asker phone => cases locked
  | timeLocked opened drawnId asker => exact .timeLocked checked (of_decide_eq_true passed)
  | social opened drawnId asker guardians => cases locked

theorem Traced.proven_of_quorum {threshold total : Nat}
    (traced : Traced config requestId opening since origin request)
    (isSocial : request.method = .socialRecovery threshold total)
    (quorum : threshold ≤ request.guardianApprovals.countP (·.approved)) :
    Proven config requestId since opening := by
  obtain ⟨opened, named, -, terms, firsts, marks, -⟩ := traced
  have ids := terms.guardians
  rw [terms.method] at isSocial
  subst named
  cases opened with
  | email opened drawnCode drawnId asker email => cases isSocial
  | sms opened drawnCode drawnId asker phone => cases isSocial
  | timeLocked opened drawnId asker => cases isSocial
  | social opened drawnId asker guardians =>
    cases isSocial
    -- The guardians whose entries are approved are distinct, since only first entries are.
    refine .social ((request.guardianApprovals.filter (·.approved)).map (·.guardianId))
      ?_ ?_ (fun guardianId member => ?_) fun guardianId member => ?_
    · rw [List.Nodup, List.pairwise_map, List.pairwise_filter]
      refine firsts.imp fun {first second} once _ approved same => ?_
      simp [once same] at approved
    · simpa [List.countP_eq_length_filter, socialRequest] using quorum
    · rw [← ids]
      obtain ⟨approval, isApproved, rfl⟩ := List.mem_map.mp member
      exact List.mem_map_of_mem (List.mem_of_mem_filter isApproved)
    · obtain ⟨approval, isApproved, rfl⟩ := List.mem_map.mp member
      exact marks approval (List.mem_of_mem_filter isApproved) (List.mem_filter.mp isApproved).2

theorem Traced.wait (traced : Traced config requestId opening since origin request)
    (event : RecoveryEvent) (opensNot : ¬ event.Opens requestId) :
    Traced config requestId opening (since ++ [event]) origin request where
  opened := traced.opened
  named := traced.named
  alone := by
    intro other member
    rcases List.mem_append.mp member with before | last
    · exact traced.alone other before
    · cases List.mem_singleton.mp last
      exact opensNot
  terms := traced.terms
  firsts := traced.firsts
  marks := fun approval member marked => by
    obtain ⟨then_, ip, quorum, recorded⟩ := traced.marks approval member marked
    exact ⟨then_, ip, quorum, List.mem_append_left _ recorded⟩
  proven := fun approved => (traced.proven approved).mono (List.subset_append_left _ _)

theorem Traced.mark (traced : Traced config requestId opening since origin request)
    (status : RecoveryStatus) (attempts : Nat)
    (proven : status = .approved → Proven config requestId since opening) :
    Traced config requestId opening since origin { request with status, attempts } where
  opened := traced.opened
  named := traced.named
  alone := traced.alone
  terms := ⟨traced.terms.method, traced.terms.createdAt, traced.terms.expiresIn,
    traced.terms.verificationHash, traced.terms.timeLockEndsAt, traced.terms.guardians⟩
  firsts := traced.firsts
  marks := traced.marks
  proven := proven

theorem Traced.record (traced : Traced config requestId opening since origin request)
    {guardianId : String} {ip : Option String} {quorum : Bool}
    (recorded : (.recordGuardianApproval now requestId guardianId ip, .decided (.ok quorum)) ∈ since)
    :
    Traced config requestId opening since origin { request with
      guardianApprovals :=
        RecoveryRequest.modifyFirst request.guardianApprovals guardianId (marked now ip) } where
  opened := traced.opened
  named := traced.named
  alone := traced.alone
  terms := ⟨traced.terms.method, traced.terms.createdAt, traced.terms.expiresIn,
    traced.terms.verificationHash, traced.terms.timeLockEndsAt,
    (guardianIds_modifyFirst _ guardianId (marked now ip) fun _ => rfl).trans traced.terms.guardians⟩
  firsts := traced.firsts.modifyFirst guardianId fun _ => rfl
  marks := fun approval member approved => by
    rcases mem_modifyFirst member with before | ⟨old, -, named, rfl⟩
    · exact traced.marks approval before approved
    · refine ⟨now, ip, quorum, ?_⟩
      rw [marked, named]
      exact recorded
  proven := traced.proven

theorem Traced.visit {next : RecoveryRequest}
    (traced : Traced config requestId opening since origin request)
    (sane : Sane config codes request opening event) (visit : Visit requestId request event next) :
    Traced config requestId opening (since ++ [event]) origin next := by
  have last : event ∈ since ++ [event] := by simp
  cases visit with
  | verified now code =>
    have waited := traced.wait (.verifyCode now requestId code,
      .done (request.verifyCode now code).2) id
    rcases verifyCode_cases request now code with
      ⟨status, attempts, error, failed, kept⟩ | ⟨hash, alive, expected, equal, verified⟩
    · rw [failed] at waited ⊢
      exact waited.mark status attempts fun approved => waited.proven (kept approved)
    · rw [verified] at waited last sane ⊢
      exact waited.mark _ _ fun _ => waited.proven_of_code sane alive expected equal last
  | recorded now guardianId ip =>
    have waited := traced.wait (.recordGuardianApproval now requestId guardianId ip,
      .decided (request.recordGuardianApproval now guardianId ip).2) id
    rcases recordGuardianApproval_cases request now guardianId ip with
      ⟨status, error, failed, kept⟩ | ⟨approvals, status, quorum, rfl, recorded, kept⟩
    · rw [failed] at waited ⊢
      exact waited.mark status request.attempts fun approved => waited.proven (kept approved)
    · rw [recorded] at waited last ⊢
      have accounted := waited.record last
      refine accounted.mark status request.attempts fun approved => ?_
      rcases kept approved with before | ⟨threshold, total, isSocial, reached⟩
      · exact waited.proven before
      · exact accounted.proven_of_quorum isSocial reached
  | checked now =>
    have waited := traced.wait (.checkTimeLock now requestId,
      .decided (request.checkTimeLock now).2) id
    rcases checkTimeLock_cases request now with ⟨status, result, checked, kept⟩ | ⟨passed, checked⟩
    · rw [checked] at waited ⊢
      exact waited.mark status request.attempts fun approved => waited.proven (kept approved)
    · obtain ⟨hours, locked⟩ := sane.locked now requestId rfl
      rw [checked] at waited last ⊢
      exact waited.mark _ request.attempts fun _ =>
        waited.proven_of_timeLock locked passed last
  | completed =>
    have waited := traced.wait (.complete requestId, .done request.complete.2) id
    generalize request.complete.2 = result at waited ⊢
    unfold RecoveryRequest.complete
    split
    · exact waited
    · exact waited.mark .completed request.attempts nofun
  | cancelled =>
    have waited := traced.wait (.cancel requestId, .done request.cancel.2) id
    exact waited.mark .denied request.attempts nofun

end

structure Accounted (config : RecoveryConfig) (codes : List String) (manager : RecoveryManager)
    (history : List RecoveryEvent) : Prop where
  configured : manager.config = config
  uniform : manager.Uniform
  known : ∀ event ∈ history, ∀ code, event.1.code config = some code → code ∈ codes
  traced : ∀ (requestId : String) (request : RecoveryRequest),
    manager.requests[requestId]? = some request →
      ∃ earlier opening since origin, history = earlier ++ opening :: since ∧
        Traced config requestId opening since origin request

theorem Accounted.serve {config : RecoveryConfig} {codes : List String} {manager : RecoveryManager}
    {history : List RecoveryEvent} (accounted : Accounted config codes manager history)
    (distinct : DistinctDigests codes) {call : RecoveryCall} (checks : manager.ChecksTimeLocks call)
    (isKnown : ∀ code, call.code config = some code → code ∈ codes) :
    Accounted config codes (manager.serve call).1 (history ++ (manager.serve call).2) := by
  obtain ⟨configured, uniform, known, traced⟩ := accounted
  obtain ⟨sameConfig, nextUniform⟩ := uniform.serve call
  refine ⟨sameConfig.trans configured, nextUniform, fun event member => ?_, fun requestId => ?_⟩
  · rcases List.mem_append.mp member with before | last
    · exact known event before
    · cases List.mem_singleton.mp last
      exact isKnown
  obtain ⟨reply, replied, change⟩ := serve_change uniform requestId call
  rw [replied]
  have before := traced requestId
  rw [configured] at change
  have locked : ∀ request, manager.requests[requestId]? = some request →
      ∀ now id, call = .checkTimeLock now id → id = requestId →
        ∃ hours, request.method = .timeLocked hours := by
    rintro request found now id rfl rfl
    exact checks request found
  generalize manager.requests[requestId]? = old at change before locked
  generalize (manager.serve call).1.requests[requestId]? = new at change ⊢
  rintro next rfl
  cases change with
  | kept opensNot =>
    obtain ⟨earlier, opening, since, origin, rfl, found⟩ := before next rfl
    exact ⟨earlier, opening, since ++ [(call, reply)], origin, by simp, found.wait _ opensNot⟩
  | opened opening named =>
    subst named
    exact ⟨history, (call, reply), [], next, by simp, opening.traced⟩
  | @visited request _ visit =>
    obtain ⟨earlier, opening, since, origin, rfl, found⟩ := before request rfl
    have sane : Sane config codes request opening (call, reply) := by
      refine ⟨distinct, known opening (by simp), isKnown, ?_⟩
      rintro now id rfl
      cases visit with
      | checked => exact locked request rfl now requestId rfl rfl
    exact ⟨earlier, opening, since ++ [(call, reply)], origin, by simp, found.visit sane visit⟩

/-- Recovery needs its proof, if time locks are checked on time-locked requests only. -/
theorem recovery_needs_proof {toLowercase toUppercase : String → String} {config : RecoveryConfig}
    {calls : List RecoveryCall} (distinct : DistinctDigests (calls.filterMap (·.code config)))
    (checks : Along RecoveryManager.ChecksTimeLocks RecoveryManager.serve
      (.new toLowercase toUppercase config) calls) {requestId : String}
    (completed : ((trace RecoveryManager.serve (.new toLowercase toUppercase config) calls).1
      |>.completeRecovery requestId).2 = .ok ()) :
    Authorised config requestId
      (trace RecoveryManager.serve (.new toLowercase toUppercase config) calls).2 := by
  have start : Accounted config (calls.filterMap (·.code config))
      (.new toLowercase toUppercase config) [] :=
    ⟨rfl, uniform_new _ _ _, by simp, fun requestId request found => by
      simp [RecoveryManager.new] at found⟩
  have known : ∀ call ∈ calls, ∀ code, call.code config = some code →
      code ∈ calls.filterMap (·.code config) :=
    fun call member code isCode => List.mem_filterMap.mpr ⟨call, member, isCode⟩
  have accounted := trace_invariant (Accounted config (calls.filterMap (·.code config)))
    (fun manager history call inv holds => inv.serve distinct holds.1 holds.2) calls _ [] start
    (along_and_forall known checks)
  rw [List.nil_append] at accounted
  obtain ⟨request, found, approved⟩ := completeRecovery_eq_ok completed
  obtain ⟨earlier, opening, since, origin, history, traced⟩ :=
    accounted.traced requestId request found
  exact ⟨earlier, opening, since, history, traced.alone, traced.proven approved⟩

namespace Known

def recovery : RecoveryManager := .new (String.map Char.toLower) (String.map Char.toUpper) {}

def moment (second : Nat) : Clocks := ⟨seconds second, 1700000000 + second⟩

def alice : Asker := ⟨"alice", none, none⟩

def forgotten : List RecoveryCall := [
  .configureUser (moment 0) [] "alice" (some "alice@example.com") none [] false,
  .initiateEmail (moment 1) 42 [7] alice]

end Known

theorem email_recovered_without_code :
    let reached := trace RecoveryManager.serve Known.recovery
      (Known.forgotten ++ [.checkTimeLock (Known.moment 2) "rec_07"])
    (reached.1.completeRecovery "rec_07").2 = .ok () ∧
      ¬ Authorised {} "rec_07" reached.2 := by
  refine ⟨rfl, ?_⟩
  rintro ⟨earlier, opening, since, history, -, proven⟩
  have never : ∀ entry code, (.verifyCode entry "rec_07" code, .done (.ok ())) ∉ since := by
    intro entry code member
    have listed : (RecoveryCall.verifyCode entry "rec_07" code, RecoveryReply.done (.ok ())) ∈
        earlier ++ opening :: since := by simp [member]
    rw [← history] at listed
    simp [Known.forgotten, trace, RecoveryManager.serve] at listed
  have method : ∀ event ∈ earlier ++ opening :: since,
      event.1 ∈ Known.forgotten ++ [.checkTimeLock (Known.moment 2) "rec_07"] := by
    rw [← history]
    simp [Known.forgotten, trace, RecoveryManager.serve]
  have isOpening := method opening (by simp)
  cases proven with
  | email entered inTime => exact never _ _ entered
  | sms entered inTime => exact never _ _ entered
  | timeLocked checked reached => simp [Known.forgotten] at isOpening
  | social approving distinct enough asked approved => simp [Known.forgotten] at isOpening

theorem recovery_needs_proof_entered :
    Authorised {} "rec_07" (trace RecoveryManager.serve Known.recovery
      (Known.forgotten ++ [.verifyCode (Known.moment 2) "rec_07" "000042"])).2 := by
  refine recovery_needs_proof ?_ ?_ ?_
  · have codes : (Known.forgotten ++ [RecoveryCall.verifyCode (Known.moment 2) "rec_07" "000042"]
        ).filterMap (·.code {}) = ["000042", "000042"] := by decide +kernel
    rw [codes]
    simp [DistinctDigests]
  · exact ⟨trivial, trivial, trivial, trivial⟩
  · decide +kernel

end Hsm.Auth

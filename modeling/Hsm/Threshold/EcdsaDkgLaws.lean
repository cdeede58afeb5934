import Hsm.Threshold.EcdsaDkg
import Hsm.Threshold.RefreshLaws

/-! Distributed key generation against malicious packages: what the finalized shares are. -/

namespace Hsm.Threshold

theorem DkgConfig.nodup_of_validate {config : DkgConfig} (valid : config.validate = .ok ()) :
    config.participants.Nodup := by
  have distinct : ∀ (ids seen : List ParticipantId), requireDistinct seen ids = .ok () →
      ids.Nodup ∧ ∀ id ∈ ids, id ∉ seen := by
    intro ids
    induction ids with
    | nil => simp
    | cons id rest ih =>
      intro seen passed
      simp only [requireDistinct, Outcome.bind_eq_ok, Outcome.require_eq_ok] at passed
      obtain ⟨_, isNew, later⟩ := passed
      obtain ⟨nodup, apart⟩ := ih _ later
      refine ⟨List.nodup_cons.mpr ⟨fun again => apart id again List.mem_cons_self, nodup⟩, ?_⟩
      intro other member
      rcases List.mem_cons.mp member with rfl | isRest
      · exact of_decide_eq_true isNew
      · exact fun before => apart other isRest (List.mem_cons_of_mem _ before)
  simp only [validate, Outcome.bind_eq_ok] at valid
  obtain ⟨_, -, _, -, _, passed, -⟩ := valid
  exact (distinct _ _ passed).1

namespace EcdsaDkg

variable {F P : Type} [Field F] [AddCommGroup P] [Module F P] {suite : Suite F P}
  {dkg next : EcdsaDkg}

theorem commits_of_validatePoint {sender : ParticipantId} {commitments : List Bytes}
    (valid : commitments.forM (dkg.validatePoint suite sender) = .ok ()) :
    ∃ points, suite.Commits dkg.participantId commitments points := by
  induction commitments with
  | nil => exact ⟨[], rfl⟩
  | cons commitment rest ih =>
    rw [List.forM_eq_forM, List.forM_cons, Outcome.bind_eq_ok] at valid
    obtain ⟨_, isValid, later⟩ := valid
    obtain ⟨points, commits⟩ := ih later
    unfold validatePoint at isValid
    split at isValid
    · rename_i point isPoint
      exact ⟨point :: points, Outcome.mapM_cons_eq_ok.mpr ⟨point, points, isPoint, commits, rfl⟩⟩
    · cases isValid

theorem of_acceptCommitments {package : EcdsaDkgRound1Package}
    (accepted : dkg.acceptCommitments suite package = .ok next) :
    package.sender ∈ dkg.config.participants ∧
    (package.sender = dkg.participantId ∧ next = dkg ∨
      package.sender ≠ dkg.participantId ∧ package.sender.value ∉ dkg.receivedCommitments ∧
      package.commitments.length = dkg.config.thresholdConfig.threshold.toNat ∧
      (∃ points, suite.Commits dkg.participantId package.commitments points) ∧
      next = { dkg with
        receivedCommitments :=
          dkg.receivedCommitments.insert package.sender.value package.commitments }) := by
  simp only [acceptCommitments, Outcome.bind_eq_ok, Outcome.require_eq_ok] at accepted
  obtain ⟨_, among, accepted⟩ := accepted
  refine ⟨of_decide_eq_true among, ?_⟩
  split at accepted
  · rename_i own
    exact .inl ⟨own, (Except.ok.inj accepted).symm⟩
  · rename_i apart
    simp only [Outcome.bind_eq_ok, Outcome.require_eq_ok] at accepted
    obtain ⟨_, isNew, _, length, _, valid, ⟨⟩⟩ := accepted
    exact .inr ⟨apart, of_decide_eq_true isNew, of_decide_eq_true length,
      commits_of_validatePoint valid, rfl⟩

theorem of_acceptShare [DecidableEq P] {package : EcdsaDkgRound2Package}
    (accepted : dkg.acceptShare suite package = .ok next) :
    package.sender ∈ dkg.config.participants ∧
    (package.sender = dkg.participantId ∧ next = dkg ∨
      package.sender ≠ dkg.participantId ∧ package.sender.value ∉ dkg.receivedShares ∧
      (∃ commitments, dkg.receivedCommitments[package.sender.value]? = some commitments ∧
        suite.verifyShare dkg.participantId package.share commitments = .ok true) ∧
      next = { dkg with
        receivedShares := dkg.receivedShares.insert package.sender.value package.share }) := by
  simp only [acceptShare, Outcome.bind_eq_ok, Outcome.require_eq_ok] at accepted
  obtain ⟨_, -, _, among, accepted⟩ := accepted
  refine ⟨of_decide_eq_true among, ?_⟩
  split at accepted
  · rename_i own
    exact .inl ⟨own, (Except.ok.inj accepted).symm⟩
  · rename_i apart
    simp only [Outcome.bind_eq_ok, Outcome.require_eq_ok] at accepted
    obtain ⟨_, isNew, accepted⟩ := accepted
    split at accepted
    · cases accepted
    · rename_i commitments found
      simp only [Outcome.bind_eq_ok, Outcome.require_eq_ok] at accepted
      obtain ⟨_, verified, _, rfl, ⟨⟩⟩ := accepted
      exact .inr ⟨apart, of_decide_eq_true isNew, ⟨commitments, found, verified⟩, rfl⟩

end EcdsaDkg

section

variable {F P : Type} [Field F] [AddCommGroup P] [Module F P] (suite : Suite F P)

/-- Where commitments come from, as seen by another. -/
def DkgReceived (history : List DkgEvent) (id sender : ParticipantId) (commitments : List Bytes) :
    Prop :=
  if sender = id then ∃ draws, (.round1Generate draws, .round1 ⟨id, commitments⟩) ∈ history
  else ∃ packages reply, (.round1Receive packages, reply) ∈ history ∧
    ⟨sender, commitments⟩ ∈ packages

variable [DecidableEq P]

/-- What holds of a participant, whatever it receives. -/
structure EcdsaDkg.Sound (config : DkgConfig) (id : ParticipantId) (dkg : EcdsaDkg)
    (history : List DkgEvent) : Prop where
  config_eq : dkg.config = config
  id_eq : dkg.participantId = id
  member : id ∈ config.participants
  own : dkg.ownCommitments ≠ [] →
    (∀ coefficient ∈ dkg.polynomialCoefficients, coefficient.length = 32) ∧
    dkg.polynomialCoefficients.length = (config.thresholdConfig.threshold - 1).toNat + 1 ∧
    suite.generateCommitments dkg.polynomialCoefficients = .ok dkg.ownCommitments ∧
    dkg.ownShare = suite.scalarToBytes
      (horner (id.scalar F) (dkg.polynomialCoefficients.map suite.reduceBytes)) ∧
    dkg.receivedCommitments[id.value]? = some dkg.ownCommitments ∧
    DkgReceived history id id dkg.ownCommitments
  started : dkg.state ≠ .notStarted → dkg.ownCommitments ≠ [] ∧
    config.participants.length ≤ dkg.receivedCommitments.size
  commitments : ∀ (key : UInt16) (commitments : List Bytes),
    dkg.receivedCommitments[key]? = some commitments →
      ∃ sender ∈ config.participants, sender.value = key ∧
        (sender ≠ id → commitments.length = config.thresholdConfig.threshold.toNat ∧
          (∃ points, suite.Commits id commitments points) ∧
          DkgReceived history id sender commitments)
  shares : ∀ (key : UInt16) (share : Bytes), dkg.receivedShares[key]? = some share →
    dkg.state ≠ .notStarted ∧ ∃ sender ∈ config.participants, sender.value = key ∧
      (sender = id → share = dkg.ownShare) ∧
      (sender ≠ id → ∃ commitments, dkg.receivedCommitments[key]? = some commitments ∧
        suite.verifyShare id share commitments = .ok true)
  complete : dkg.state = .round2Complete → config.participants.length ≤ dkg.receivedShares.size

variable {suite} {config : DkgConfig} {id : ParticipantId} {dkg : EcdsaDkg}
  {history : List DkgEvent}

omit [DecidableEq P] in
theorem DkgReceived.mono {sender : ParticipantId} {commitments : List Bytes}
    (received : DkgReceived history id sender commitments) (events : List DkgEvent) :
    DkgReceived (history ++ events) id sender commitments := by
  unfold DkgReceived at received ⊢
  split_ifs at received ⊢ with own
  · obtain ⟨draws, member⟩ := received
    exact ⟨draws, List.mem_append_left _ member⟩
  · obtain ⟨packages, reply, member, among⟩ := received
    exact ⟨packages, reply, List.mem_append_left _ member, among⟩

theorem EcdsaDkg.Sound.mono (sound : dkg.Sound suite config id history) (events : List DkgEvent) :
    dkg.Sound suite config id (history ++ events) := by
  refine ⟨sound.config_eq, sound.id_eq, sound.member, fun given => ?_, sound.started,
    fun key commitments found => ?_, sound.shares, sound.complete⟩
  · obtain ⟨lengths, count, generated, share, stored, received⟩ := sound.own given
    exact ⟨lengths, count, generated, share, stored, received.mono events⟩
  · obtain ⟨sender, among, named, other⟩ := sound.commitments key commitments found
    refine ⟨sender, among, named, fun apart => ?_⟩
    obtain ⟨length, commits, received⟩ := other apart
    exact ⟨length, commits, received.mono events⟩

theorem size_le_size_insert {ν : Type} (dict : Dict UInt16 ν) (key : UInt16) (value : ν) :
    dict.size ≤ (dict.insert key value).size := Std.ExtTreeMap.size_le_size_insert

theorem EcdsaDkg.Sound.acceptCommitments {next : EcdsaDkg} {package : EcdsaDkgRound1Package}
    (sound : dkg.Sound suite config id history)
    (received : ∃ packages reply, (.round1Receive packages, reply) ∈ history ∧ package ∈ packages)
    (accepted : dkg.acceptCommitments suite package = .ok next) :
    next.Sound suite config id history := by
  obtain ⟨among, ⟨-, rfl⟩ | ⟨apart, isNew, length, commits, rfl⟩⟩ :=
    EcdsaDkg.of_acceptCommitments accepted
  · exact sound
  rw [sound.config_eq] at among length
  rw [sound.id_eq] at apart commits
  -- Nothing is replaced: what was stored stays where it is.
  have stays : ∀ {key : UInt16} {commitments : List Bytes},
      dkg.receivedCommitments[key]? = some commitments →
      (dkg.receivedCommitments.insert package.sender.value package.commitments)[key]? =
        some commitments := by
    intro key commitments found
    rw [Dict.find_insert_of_ne]
    · exact found
    · rintro rfl
      exact isNew (Std.ExtTreeMap.mem_iff_isSome_getElem?.mpr (by simp [found]))
  refine ⟨sound.config_eq, sound.id_eq, sound.member, fun given => ?_, fun moved => ?_,
    fun key commitments found => ?_, fun key share found => ?_, sound.complete⟩
  · obtain ⟨lengths, count, generated, share, stored, rest⟩ := sound.own given
    exact ⟨lengths, count, generated, share, stays stored, rest⟩
  · obtain ⟨given, enough⟩ := sound.started moved
    exact ⟨given, enough.trans (size_le_size_insert _ _ _)⟩
  · rw [Dict.find_insert] at found
    split at found
    · rename_i same
      cases found
      refine ⟨package.sender, among, same, fun _ => ⟨length, commits, ?_⟩⟩
      rw [DkgReceived, if_neg apart]
      exact received
    · exact sound.commitments key commitments found
  · obtain ⟨moved, sender, isSender, named, own, other⟩ := sound.shares key share found
    refine ⟨moved, sender, isSender, named, own, fun isOther => ?_⟩
    obtain ⟨commitments, stored, verified⟩ := other isOther
    exact ⟨commitments, stays stored, verified⟩

theorem EcdsaDkg.Sound.acceptShare {next : EcdsaDkg} {package : EcdsaDkgRound2Package}
    (sound : dkg.Sound suite config id history) (moved : dkg.state ≠ .notStarted)
    (accepted : dkg.acceptShare suite package = .ok next) :
    next.Sound suite config id history ∧ next.state = dkg.state := by
  obtain ⟨among, ⟨-, rfl⟩ | ⟨apart, isNew, verified, rfl⟩⟩ := EcdsaDkg.of_acceptShare accepted
  · exact ⟨sound, rfl⟩
  rw [sound.config_eq] at among
  rw [sound.id_eq] at apart verified
  refine ⟨⟨sound.config_eq, sound.id_eq, sound.member, sound.own, sound.started, sound.commitments,
    fun key share found => ?_, fun isComplete => ?_⟩, rfl⟩
  · rw [Dict.find_insert] at found
    split at found
    · rename_i same
      cases found
      exact ⟨moved, package.sender, among, same, fun own => absurd own apart,
        fun _ => same ▸ verified⟩
    · exact sound.shares key share found
  · exact (sound.complete isComplete).trans (size_le_size_insert _ _ _)

theorem EcdsaDkg.Sound.round1Generate {next : EcdsaDkg} {draws : CoefficientDraws}
    {package : EcdsaDkgRound1Package} (sound : dkg.Sound suite config id history)
    (generated : dkg.round1GenerateCommitments suite draws = .ok (next, package)) :
    next.Sound suite config id (history ++ [(.round1Generate draws, .round1 package)]) := by
  have later := sound.mono [(.round1Generate draws, .round1 package)]
  simp only [EcdsaDkg.round1GenerateCommitments, Outcome.bind_eq_ok, Outcome.require_eq_ok]
    at generated
  obtain ⟨_, ready, commitments, isCommitted, ownShare, isOwn, ⟨⟩⟩ := generated
  have notMoved : dkg.state = .notStarted := of_decide_eq_true ready
  rw [sound.id_eq] at isOwn later ⊢
  have received : DkgReceived (history ++ [(.round1Generate draws, .round1 ⟨id, commitments⟩)])
      id id commitments := by
    rw [DkgReceived, if_pos rfl]
    exact ⟨draws, by simp⟩
  refine ⟨later.config_eq, rfl, later.member, fun _ => ⟨?_, ?_, isCommitted,
    suite.of_evaluatePolynomial isOwn, by simp, received⟩, fun moved => absurd notMoved moved,
    fun key stored found => ?_, fun key share found => ?_, fun isComplete => ?_⟩
  · intro coefficient member
    obtain ⟨k, -, rfl⟩ := List.mem_map.mp member
    simp
  · rw [EcdsaDkg.generatePolynomial, List.length_map, List.length_range, later.config_eq]
  · rw [Dict.find_insert] at found
    split at found
    · rename_i same
      exact ⟨id, later.member, same, fun apart => absurd rfl apart⟩
    · exact later.commitments key stored found
  · exact absurd notMoved (later.shares key share found).1
  · rw [notMoved] at isComplete
    cases isComplete

theorem EcdsaDkg.Sound.round1Receive {packages : List EcdsaDkgRound1Package}
    (sound : dkg.Sound suite config id history)
    (received : ∃ reply, (.round1Receive packages, reply) ∈ history) :
    (dkg.round1ReceiveCommitments suite packages).1.Sound suite config id history := by
  obtain ⟨reply, isReceived⟩ := received
  unfold EcdsaDkg.round1ReceiveCommitments
  split
  · exact sound
  rename_i given
  have accepted : (acceptAll (EcdsaDkg.acceptCommitments suite) dkg packages).1.Sound suite
      config id history ∧
      (acceptAll (EcdsaDkg.acceptCommitments suite) dkg packages).1.ownCommitments ≠ [] := by
    refine acceptAll_invariant
      (fun dkg => dkg.Sound suite config id history ∧ dkg.ownCommitments ≠ []) ?_ dkg ⟨sound, given⟩
    intro dkg next package member ⟨holds, isGiven⟩ isAccepted
    refine ⟨holds.acceptCommitments ⟨packages, reply, isReceived, member⟩ isAccepted, ?_⟩
    obtain ⟨-, ⟨-, rfl⟩ | ⟨-, -, -, -, rfl⟩⟩ := EcdsaDkg.of_acceptCommitments isAccepted
    · exact isGiven
    · exact isGiven
  split
  · rename_i next failure isNext
    rw [isNext] at accepted
    exact accepted.1
  · rename_i next isNext
    rw [isNext] at accepted
    obtain ⟨holds, isGiven⟩ := accepted
    split
    · rename_i all
      rw [holds.config_eq] at all
      refine ⟨holds.config_eq, holds.id_eq, holds.member, holds.own, fun _ => ⟨isGiven, all.ge⟩,
        holds.commitments, fun key share found => ⟨nofun, (holds.shares key share found).2⟩, nofun⟩
    · exact holds

theorem EcdsaDkg.Sound.round2Generate {next : EcdsaDkg} {packages : List EcdsaDkgRound2Package}
    (sound : dkg.Sound suite config id history)
    (generated : dkg.round2GenerateShares suite = .ok (next, packages)) :
    next.Sound suite config id history := by
  simp only [EcdsaDkg.round2GenerateShares, Outcome.bind_eq_ok, Outcome.require_eq_ok] at generated
  obtain ⟨_, ready, _, -, ⟨⟩⟩ := generated
  have atRound1 : dkg.state = .round1Complete := of_decide_eq_true ready
  refine ⟨sound.config_eq, sound.id_eq, sound.member, sound.own, sound.started, sound.commitments,
    fun key share found => ?_, fun isComplete => ?_⟩
  · rw [sound.id_eq, Dict.find_insert] at found
    split at found
    · rename_i same
      cases found
      refine ⟨?_, id, sound.member, same, fun _ => rfl, fun apart => absurd rfl apart⟩
      rw [atRound1]
      exact nofun
    · exact sound.shares key share found
  · rw [atRound1] at isComplete
    cases isComplete

theorem EcdsaDkg.Sound.round2Receive {packages : List EcdsaDkgRound2Package}
    (sound : dkg.Sound suite config id history) :
    (dkg.round2ReceiveShares suite packages).1.Sound suite config id history := by
  unfold EcdsaDkg.round2ReceiveShares
  split
  · exact sound
  rename_i ready
  have accepted : (acceptAll (EcdsaDkg.acceptShare suite) dkg packages).1.Sound suite
      config id history ∧
      (acceptAll (EcdsaDkg.acceptShare suite) dkg packages).1.state = .round1Complete := by
    refine acceptAll_invariant
      (fun dkg => dkg.Sound suite config id history ∧ dkg.state = .round1Complete) ?_ dkg
      ⟨sound, not_not.mp ready⟩
    intro dkg next package _ ⟨holds, atRound1⟩ isAccepted
    obtain ⟨later, same⟩ := holds.acceptShare (by rw [atRound1]; exact nofun) isAccepted
    exact ⟨later, same.trans atRound1⟩
  split
  · rename_i next failure isNext
    rw [isNext] at accepted
    exact accepted.1
  · rename_i next isNext
    rw [isNext] at accepted
    obtain ⟨holds, atRound1⟩ := accepted
    split
    · rename_i all
      rw [holds.config_eq] at all
      have moved : next.state ≠ .notStarted := by
        rw [atRound1]
        exact nofun
      exact ⟨holds.config_eq, holds.id_eq, holds.member, holds.own, fun _ => holds.started moved,
        holds.commitments, fun key share found => ⟨nofun, (holds.shares key share found).2⟩,
        fun _ => all.ge⟩
    · exact holds

theorem EcdsaDkg.Sound.serve (sound : dkg.Sound suite config id history) (call : DkgCall) :
    (dkg.serve suite call).1.Sound suite config id (history ++ (dkg.serve suite call).2) := by
  have later := sound.mono (dkg.serve suite call).2
  cases call with
  | round1Generate draws =>
    simp only [EcdsaDkg.serve, EcdsaDkg.answer]
    split
    · rename_i next package generated
      exact sound.round1Generate generated
    · exact sound.mono _
  | round1Receive packages => exact later.round1Receive ⟨_, List.mem_append_right _ List.mem_cons_self⟩
  | round2Generate =>
    simp only [EcdsaDkg.serve, EcdsaDkg.answer]
    split
    · rename_i next packages generated
      exact (sound.mono _).round2Generate generated
    · exact sound.mono _
  | round2Receive packages => exact later.round2Receive

variable (suite) in
theorem EcdsaDkg.sound_trace {curve : EcdsaCurve} {start : EcdsaDkg} (calls : List DkgCall)
    (isNew : EcdsaDkg.new config id curve = .ok start) :
    (trace (EcdsaDkg.serve suite) start calls).1.Sound suite config id
      (trace (EcdsaDkg.serve suite) start calls).2 := by
  simp only [EcdsaDkg.new, Outcome.bind_eq_ok, Outcome.require_eq_ok] at isNew
  obtain ⟨_, -, _, member, ⟨⟩⟩ := isNew
  have always : ∀ start, Along (fun _ _ => True) (EcdsaDkg.serve suite) start calls :=
    fun start => Along.of_forall (fun _ _ _ => trivial) start
  refine trace_invariant (EcdsaDkg.Sound suite config id)
    (fun dkg history call sound _ => sound.serve call) calls _ [] ?_ (always _)
  exact ⟨rfl, rfl, of_decide_eq_true member, fun given => absurd rfl given,
    fun moved => absurd rfl moved, by simp, by simp, nofun⟩

omit [DecidableEq P] in
theorem EcdsaDkg.foldlM_addConstant {tables : List (List Bytes)}
    (readable : ∀ commitments ∈ tables, commitments ≠ [] ∧
      ∃ points, suite.Commits dkg.participantId commitments points) (point : P) :
    tables.foldlM (dkg.addConstant suite) (suite.pointToBytes point) =
      .ok (suite.pointToBytes (point + (tables.map fun commitments =>
        (suite.pointsOf dkg.participantId commitments).headD 0).sum)) := by
  induction tables generalizing point with
  | nil => simp; rfl
  | cons commitments rest ih =>
    obtain ⟨given, points, commits⟩ := readable commitments List.mem_cons_self
    cases commitments with
    | nil => exact absurd rfl given
    | cons constant others =>
      have isPoints := commits.pointsOf_eq
      obtain ⟨first, later, isFirst, -, rfl⟩ := Outcome.mapM_cons_eq_ok.mp commits
      have added : dkg.addConstant suite (suite.pointToBytes point) (constant :: others) =
          .ok (suite.pointToBytes (point + first)) := by
        simp only [EcdsaDkg.addConstant, Suite.addPoints, Outcome.bind_eq_ok]
        exact ⟨_, suite.fromBytes_toBytes _ point, _, isFirst, rfl⟩
      rw [List.foldlM_cons, added, List.map_cons, List.sum_cons, isPoints, List.headD_cons,
        ← add_assoc]
      exact ih (fun other member => readable other (List.mem_cons_of_mem _ member)) _

theorem EcdsaDkg.Sound.committed (sound : dkg.Sound suite config id history)
    (positive : config.thresholdConfig.threshold ≠ 0) (moved : dkg.state ≠ .notStarted) :
    dkg.receivedCommitments.keys.Perm (config.participants.map ParticipantId.value) ∧
    ∀ sender ∈ config.participants, ∃ commitments points,
      dkg.receivedCommitments[sender.value]? = some commitments ∧
      suite.Commits id commitments points ∧
      points.length = config.thresholdConfig.threshold.toNat ∧
      DkgReceived history id sender commitments := by
  obtain ⟨given, enough⟩ := sound.started moved
  have keys : dkg.receivedCommitments.keys.Perm
      (config.participants.map ParticipantId.value) := by
    refine Dict.perm_keys (fun key present => ?_) (by rwa [List.length_map])
    obtain ⟨commitments, found⟩ := Option.isSome_iff_exists.mp
      (Std.ExtTreeMap.mem_iff_isSome_getElem?.mp present)
    obtain ⟨sender, among, named, -⟩ := sound.commitments key commitments found
    exact List.mem_map.mpr ⟨sender, among, named⟩
  refine ⟨keys, fun sender member => ?_⟩
  by_cases own : sender = id
  · subst own
    obtain ⟨lengths, count, generated, -, stored, received⟩ := sound.own given
    rw [suite.generateCommitments_eq_ok lengths] at generated
    have isOwn := Except.ok.inj generated
    refine ⟨_, _, stored, isOwn ▸ suite.commits_generated sender _, ?_, received⟩
    rw [List.length_map, count, degree_add_one positive]
  · have present := Std.ExtTreeMap.mem_keys.mp (keys.mem_iff.mpr (List.mem_map_of_mem member))
    obtain ⟨commitments, found⟩ := Option.isSome_iff_exists.mp
      (Std.ExtTreeMap.mem_iff_isSome_getElem?.mp present)
    obtain ⟨other, -, named, known⟩ := sound.commitments _ commitments found
    rw [ParticipantId.value_inj] at named
    subst named
    obtain ⟨length, ⟨points, commits⟩, received⟩ := known own
    exact ⟨commitments, points, found, commits, (Outcome.length_mapM commits).trans length,
      received⟩

theorem EcdsaDkg.Sound.readable (sound : dkg.Sound suite config id history)
    (positive : config.thresholdConfig.threshold ≠ 0) (moved : dkg.state ≠ .notStarted) :
    ∀ commitments ∈ dkg.receivedCommitments.items, commitments ≠ [] ∧
      ∃ points, suite.Commits dkg.participantId commitments points := by
  intro commitments member
  obtain ⟨key, found⟩ := Dict.mem_items.mp member
  obtain ⟨sender, among, rfl, -⟩ := sound.commitments key commitments found
  obtain ⟨stored, points, isStored, commits, length, -⟩ :=
    (sound.committed positive moved).2 sender among
  cases found.symm.trans isStored
  rw [sound.id_eq]
  refine ⟨?_, points, commits⟩
  rintro rfl
  rw [Outcome.length_mapM commits] at length
  exact positive (UInt16.toNat_inj.mp length.symm)

def EcdsaDkg.pointsFrom (suite : Suite F P) (dkg : EcdsaDkg) (sender : ParticipantId) : List P :=
  suite.pointsOf dkg.participantId (dkg.receivedCommitments[sender.value]?.getD [])

theorem EcdsaDkg.Sound.sum_shares (sound : dkg.Sound suite config id history)
    (isComplete : dkg.state = .round2Complete) :
    (dkg.receivedShares.items.map suite.reduceBytes).sum • suite.generator =
      (config.participants.map fun sender =>
        horner (id.scalar F) (dkg.pointsFrom suite sender)).sum := by
  have moved : dkg.state ≠ .notStarted := by
    rw [isComplete]
    exact nofun
  have keys : dkg.receivedShares.keys.Perm (config.participants.map ParticipantId.value) := by
    refine Dict.perm_keys (fun key present => ?_) ?_
    · obtain ⟨share, found⟩ := Option.isSome_iff_exists.mp
        (Std.ExtTreeMap.mem_iff_isSome_getElem?.mp present)
      obtain ⟨-, sender, among, named, -⟩ := sound.shares key share found
      exact List.mem_map.mpr ⟨sender, among, named⟩
    · rw [List.length_map]
      exact sound.complete isComplete
  rw [Dict.sum_items _ keys, List.map_map, List.sum_smul, List.map_map]
  refine congrArg List.sum (List.map_congr_left fun sender member => ?_)
  have present := Std.ExtTreeMap.mem_keys.mp (keys.mem_iff.mpr (List.mem_map_of_mem member))
  obtain ⟨share, found⟩ := Option.isSome_iff_exists.mp
    (Std.ExtTreeMap.mem_iff_isSome_getElem?.mp present)
  obtain ⟨-, other, -, named, own, known⟩ := sound.shares _ share found
  rw [ParticipantId.value_inj] at named
  subst named
  simp only [Function.comp_apply, found, Option.map_some, Option.getD_some]
  by_cases isOwn : other = id
  · subst isOwn
    obtain ⟨lengths, -, generated, isShare, stored, -⟩ := sound.own (sound.started moved).1
    rw [suite.generateCommitments_eq_ok lengths] at generated
    have commits := Except.ok.inj generated ▸ suite.commits_generated other
      dkg.polynomialCoefficients
    rw [EcdsaDkg.pointsFrom, stored, Option.getD_some, sound.id_eq, commits.pointsOf_eq, own rfl,
      isShare, suite.reduce_toBytes, ← suite.horner_smul, List.map_map]
    rfl
  · obtain ⟨commitments, stored, verified⟩ := known isOwn
    obtain ⟨-, points, commits, value⟩ := suite.of_verifyShare verified
    rw [EcdsaDkg.pointsFrom, stored, Option.getD_some, sound.id_eq, commits.pointsOf_eq, value]

theorem ThresholdConfig.of_new {threshold totalParticipants : UInt16} {config : ThresholdConfig}
    (isNew : ThresholdConfig.new threshold totalParticipants = .ok config) : threshold ≠ 0 := by
  rintro rfl
  cases isNew

def FinalizedRun (suite : Suite F P) (config : DkgConfig) (id : ParticipantId) (dkg : EcdsaDkg)
    (history : List DkgEvent) (share : EcdsaKeyShare) (key : EcdsaGroupPublicKey) : Prop :=
  ∃ curve start calls, EcdsaDkg.new config id curve = .ok start ∧
    trace (EcdsaDkg.serve suite) start calls = (dkg, history) ∧
    dkg.finalize suite = .ok (share, key)

theorem FinalizedRun.values {share : EcdsaKeyShare} {key : EcdsaGroupPublicKey}
    (run : FinalizedRun suite config id dkg history share key) :
    (∀ sender ∈ config.participants, ∃ commitments,
      dkg.receivedCommitments[sender.value]? = some commitments ∧
      suite.Commits id commitments (dkg.pointsFrom suite sender) ∧
      (dkg.pointsFrom suite sender).length = config.thresholdConfig.threshold.toNat ∧
      DkgReceived history id sender commitments) ∧
    suite.reduceBytes share.secretShare • suite.generator =
      (config.participants.map fun sender =>
        horner (id.scalar F) (dkg.pointsFrom suite sender)).sum ∧
    share.publicShare =
      suite.pointToBytes (suite.reduceBytes share.secretShare • suite.generator) ∧
    key.bytes = suite.pointToBytes (config.participants.map fun sender =>
      (dkg.pointsFrom suite sender).headD 0).sum := by
  obtain ⟨curve, start, calls, isNew, isRun, finalized⟩ := run
  have sound := EcdsaDkg.sound_trace suite calls isNew
  rw [isRun] at sound
  simp only [EcdsaDkg.finalize, Outcome.bind_eq_ok, Outcome.require_eq_ok] at finalized
  obtain ⟨_, ready, finalShare, isFinal, groupKey, isGroup, publicShare, isPublic, threshold,
    isThreshold, ⟨⟩⟩ := finalized
  rw [sound.config_eq] at isThreshold
  have isComplete : dkg.state = .round2Complete := of_decide_eq_true ready
  have moved : dkg.state ≠ .notStarted := by
    rw [isComplete]
    intro none
    cases none
  have positive := ThresholdConfig.of_new isThreshold
  obtain ⟨keys, committed⟩ := sound.committed positive moved
  have known : ∀ sender ∈ config.participants, ∃ commitments,
      dkg.receivedCommitments[sender.value]? = some commitments ∧
      suite.Commits id commitments (dkg.pointsFrom suite sender) ∧
      (dkg.pointsFrom suite sender).length = config.thresholdConfig.threshold.toNat ∧
      DkgReceived history id sender commitments := by
    intro sender member
    obtain ⟨commitments, points, stored, commits, length, received⟩ := committed sender member
    have isPoints : dkg.pointsFrom suite sender = points := by
      rw [EcdsaDkg.pointsFrom, stored, sound.id_eq]
      exact commits.pointsOf_eq
    rw [isPoints]
    exact ⟨commitments, stored, commits, length, received⟩
  have readable := sound.readable positive moved
  refine ⟨known, ?_, ?_, ?_⟩
  · rw [suite.of_foldlM_addScalars isFinal, Suite.zeroScalar, suite.reduce_zero, zero_add]
    exact sound.sum_shares isComplete
  · simp only [EcdsaDkg.scalarToPoint, Outcome.bind_eq_ok] at isPublic
    obtain ⟨scalar, isScalar, ⟨⟩⟩ := isPublic
    rw [(suite.scalarFromBytes_eq_ok.mp isScalar).2]
    rfl
  · rw [EcdsaDkg.foldlM_addConstant readable] at isGroup
    rw [← Except.ok.inj isGroup, zero_add, Dict.sum_items _ keys, List.map_map]
    refine congrArg (suite.pointToBytes ∘ List.sum) (List.map_congr_left fun sender member => ?_)
    obtain ⟨commitments, stored, -⟩ := known sender member
    simp only [Function.comp_apply, EcdsaDkg.pointsFrom, stored, Option.map_some, Option.getD_some]

end

namespace Known

/-- Two participants generate a key. -/
def dkgConfig : DkgConfig where
  scheme := .thresholdEcdsaP256
  thresholdConfig := twoOfTwo
  participants := [⟨1⟩, ⟨2⟩]

def generating (id : ParticipantId) : EcdsaDkg :=
  ⟨dkgConfig, id, .p256, .notStarted, [], [], ∅, ∅, []⟩

def drawn (id : ParticipantId) : Scalar := if id = ⟨1⟩ then 3 else 5

def dkgCommitments (id : ParticipantId) : List Bytes :=
  [pointToBytes (drawn id), pointToBytes (drawn id)]

def round1Package (id : ParticipantId) : EcdsaDkgRound1Package := ⟨id, dkgCommitments id⟩

def round2Package (sender receiver : ParticipantId) : EcdsaDkgRound2Package :=
  ⟨sender, receiver, scalarToBytes (drawn sender + drawn sender * receiver.scalar Scalar)⟩

def otherOf (id : ParticipantId) : ParticipantId := if id = ⟨1⟩ then ⟨2⟩ else ⟨1⟩

def dkgCalls (id : ParticipantId) : List DkgCall := [
  .round1Generate (constantDraws (drawn id)),
  .round1Receive [round1Package (otherOf id)],
  .round2Generate,
  .round2Receive [round2Package (otherOf id) id]]

def generated (id : ParticipantId) : EcdsaDkg × List DkgEvent :=
  trace (EcdsaDkg.serve suite) (generating id) (dkgCalls id)

def dkgShare (id : ParticipantId) : EcdsaKeyShare :=
  ⟨id, twoOfTwo, scalarToBytes (8 + 8 * id.scalar Scalar), pointToBytes (8 + 8 * id.scalar Scalar),
    pointToBytes 8, .p256⟩

def dkgKey : EcdsaGroupPublicKey := ⟨pointToBytes 8, twoOfTwo, .p256⟩

theorem generating_new : ∀ id ∈ dkgConfig.participants,
    EcdsaDkg.new dkgConfig id .p256 = .ok (generating id) := by
  intro id member
  simp only [dkgConfig, List.mem_cons, List.not_mem_nil, or_false] at member
  rcases member with rfl | rfl
  · rfl
  · rfl

theorem generated_finalizes : ∀ id ∈ dkgConfig.participants,
    FinalizedRun suite dkgConfig id (generated id).1 (generated id).2 (dkgShare id) dkgKey := by
  have finalized : ∀ id ∈ dkgConfig.participants,
      (generated id).1.finalize suite = .ok (dkgShare id, dkgKey) := by
    decide +kernel
  intro id member
  have isRun : trace (EcdsaDkg.serve suite) (generating id) (dkgCalls id) =
      ((generated id).1, (generated id).2) := by
    rw [Prod.mk.eta, generated]
  exact ⟨.p256, generating id, dkgCalls id, generating_new id member, isRun, finalized id member⟩

end Known

namespace Known

def threeConfig : DkgConfig where
  scheme := .thresholdEcdsaP256
  thresholdConfig := ⟨2, 3⟩
  participants := [⟨1⟩, ⟨2⟩, ⟨3⟩]

/-- The third participant commits to two polynomials. -/
def equivocal (secret : Scalar) : EcdsaDkgRound1Package :=
  ⟨⟨3⟩, [pointToBytes secret, pointToBytes secret]⟩

/-- Both others get all packages one by one, the last two in the order of the given secrets. -/
def equivocalCalls (id : ParticipantId) (first second : Scalar) : List DkgCall := [
  .round1Generate (constantDraws (drawn id)),
  .round1Receive [round1Package ⟨1⟩], .round1Receive [round1Package ⟨2⟩],
  .round1Receive [equivocal first], .round1Receive [equivocal second],
  .round2Generate,
  .round2Receive [round2Package (otherOf id) id,
    ⟨⟨3⟩, id, scalarToBytes (first + first * id.scalar Scalar)⟩]]

def equivocated (id : ParticipantId) (first second : Scalar) : EcdsaDkg × List DkgEvent :=
  trace (EcdsaDkg.serve suite) ⟨threeConfig, id, .p256, .notStarted, [], [], ∅, ∅, []⟩
    (equivocalCalls id first second)

end Known

end Hsm.Threshold

import Hsm.Threshold.BlsDkg
import Hsm.Threshold.EcdsaDkgLaws

/-! Distributed key generation for threshold BLS: what finalized shares are, if packages are checked. -/

namespace Hsm.Threshold

/-- Packages come from configured participants, with the own one unaltered. -/
def BlsDkg.Checks (dkg : BlsDkg) : BlsDkgCall → Prop
  | .round2 packages =>
    (∀ package ∈ packages, package.sender ∈ dkg.config.participants ∧
      (package.sender = dkg.participantId → dkg.commitments = some package.commitments)) ∧
    ∃ package ∈ packages, package.sender = dkg.participantId
  | _ => True

/-- Where commitments come from, as seen by another. -/
def BlsReceived (history : List BlsDkgEvent) (id sender : ParticipantId)
    (commitments : List Bytes) : Prop :=
  if sender = id then ∃ draws, (.round1 draws, .round1 ⟨id, commitments⟩) ∈ history
  else ∃ packages reply, (.round2 packages, reply) ∈ history ∧ ⟨sender, commitments⟩ ∈ packages

theorem BlsReceived.mono {history : List BlsDkgEvent} {id sender : ParticipantId}
    {commitments : List Bytes} (received : BlsReceived history id sender commitments)
    (events : List BlsDkgEvent) : BlsReceived (history ++ events) id sender commitments := by
  unfold BlsReceived at received ⊢
  split_ifs at received ⊢ with own
  · obtain ⟨draws, member⟩ := received
    exact ⟨draws, List.mem_append_left _ member⟩
  · obtain ⟨packages, reply, member, among⟩ := received
    exact ⟨packages, reply, List.mem_append_left _ member, among⟩

section

variable {F P : Type} [Field F] [AddCommGroup P] [Module F P] (suite : Suite F P)

/-- What holds of a participant with checked packages. -/
structure BlsDkg.Sound (config : DkgConfig) (id : ParticipantId) (dkg : BlsDkg)
    (history : List BlsDkgEvent) : Prop where
  config_eq : dkg.config = config
  id_eq : dkg.participantId = id
  member : id ∈ config.participants
  own : ∀ commitments, dkg.commitments = some commitments → ∃ polynomial,
    dkg.secretPolynomial = some polynomial ∧
    (∀ coefficient ∈ polynomial, coefficient.length = 32) ∧
    suite.generateCommitments polynomial = .ok commitments ∧
    BlsReceived history id id commitments
  commitments : ∀ (key : UInt16) (commitments : List Bytes),
    dkg.receivedCommitments[key]? = some commitments → dkg.state ≠ .notStarted ∧
      ∃ sender ∈ config.participants, sender.value = key ∧
        commitments.length = config.thresholdConfig.threshold.toNat ∧
        (sender = id → dkg.commitments = some commitments) ∧
        BlsReceived history id sender commitments
  shares : ∀ (key : UInt16) (share : Bytes), dkg.receivedShares[key]? = some share →
    dkg.state ≠ .notStarted ∧ dkg.state ≠ .round1Complete ∧
    ∃ commitments points, dkg.receivedCommitments[key]? = some commitments ∧
      suite.Commits id commitments points ∧
      suite.reduceBytes share • suite.generator = horner (id.scalar F) points

variable {suite} {config : DkgConfig} {id : ParticipantId} {dkg : BlsDkg}
  {history : List BlsDkgEvent}

theorem BlsDkg.Sound.mono (sound : dkg.Sound suite config id history)
    (events : List BlsDkgEvent) : dkg.Sound suite config id (history ++ events) := by
  refine ⟨sound.config_eq, sound.id_eq, sound.member, fun commitments isOwn => ?_,
    fun key commitments found => ?_, sound.shares⟩
  · obtain ⟨polynomial, isPolynomial, lengths, generated, received⟩ := sound.own commitments isOwn
    exact ⟨polynomial, isPolynomial, lengths, generated, received.mono events⟩
  · obtain ⟨started, sender, among, named, length, own, received⟩ :=
      sound.commitments key commitments found
    exact ⟨started, sender, among, named, length, own, received.mono events⟩

theorem BlsDkg.Sound.round1 {next : BlsDkg} {draws : CoefficientDraws}
    {package : BlsDkgRound1Package} (sound : dkg.Sound suite config id history)
    (ran : dkg.round1 suite draws = .ok (next, package)) :
    next.Sound suite config id (history ++ [(.round1 draws, .round1 package)]) := by
  simp only [BlsDkg.round1, Outcome.bind_eq_ok, Outcome.require_eq_ok] at ran
  obtain ⟨_, ready, commitments, generated, ⟨⟩⟩ := ran
  have notMoved : dkg.state = .notStarted := of_decide_eq_true ready
  rw [sound.id_eq]
  refine ⟨sound.config_eq, rfl, sound.member, fun own isOwn => ?_,
    fun key stored found => absurd notMoved (sound.commitments key stored found).1,
    fun key share found => absurd notMoved (sound.shares key share found).1⟩
  cases isOwn
  refine ⟨_, rfl, fun coefficient member => ?_, generated, ?_⟩
  · obtain ⟨k, -, rfl⟩ := List.mem_map.mp member
    simp
  · rw [BlsReceived, if_pos rfl]
    exact ⟨draws, by simp⟩

theorem BlsDkg.Sound.storeCommitments {next : BlsDkg} {package : BlsDkgRound1Package}
    (sound : dkg.Sound suite config id history) (ready : dkg.state = .round1Complete)
    (among : package.sender ∈ config.participants)
    (unaltered : package.sender = id → dkg.commitments = some package.commitments)
    (received : ∃ packages reply, (.round2 packages, reply) ∈ history ∧ package ∈ packages)
    (stored : dkg.storeCommitments package = .ok next) :
    next.Sound suite config id history := by
  simp only [BlsDkg.storeCommitments, Outcome.bind_eq_ok, Outcome.require_eq_ok] at stored
  obtain ⟨_, length, _, -, ⟨⟩⟩ := stored
  rw [decide_eq_true_eq, sound.config_eq] at length
  refine ⟨sound.config_eq, sound.id_eq, sound.member, sound.own, fun key commitments found => ?_,
    fun key share found => absurd ready (sound.shares key share found).2.1⟩
  rw [Dict.find_insert] at found
  split at found
  · rename_i same
    cases found
    refine ⟨?_, package.sender, among, same, length, unaltered, ?_⟩
    · rw [ready]
      exact nofun
    · by_cases isOwn : package.sender = id
      · obtain ⟨-, -, -, -, isReceived⟩ := sound.own _ (unaltered isOwn)
        rw [isOwn]
        exact isReceived
      · rw [BlsReceived, if_neg isOwn]
        exact received
  · exact sound.commitments key commitments found

theorem BlsDkg.of_storeCommitments {next : BlsDkg} {package : BlsDkgRound1Package}
    (stored : dkg.storeCommitments package = .ok next) :
    next = { dkg with
      receivedCommitments :=
        dkg.receivedCommitments.insert package.sender.value package.commitments } := by
  simp only [BlsDkg.storeCommitments, Outcome.bind_eq_ok] at stored
  obtain ⟨_, -, _, -, isNext⟩ := stored
  exact (Except.ok.inj isNext).symm

theorem BlsDkg.of_generateShares {own : Bytes} {packages : List BlsDkgRound2Package}
    (generated : dkg.generateShares suite = .ok (own, packages)) :
    ∃ polynomial, dkg.secretPolynomial = some polynomial ∧
      own = suite.scalarToBytes
        (horner (dkg.participantId.scalar F) (polynomial.map suite.reduceBytes)) := by
  unfold BlsDkg.generateShares at generated
  split at generated
  · cases generated
  · rename_i polynomial isPolynomial
    simp only [BlsDkg.evaluatePolynomial, Outcome.bind_eq_ok] at generated
    obtain ⟨value, ⟨_, -, evaluated⟩, _, -, ⟨⟩⟩ := generated
    exact ⟨polynomial, isPolynomial, suite.of_evaluatePolynomial evaluated⟩

theorem BlsDkg.Sound.round2 {packages : List BlsDkgRound1Package}
    (sound : dkg.Sound suite config id history) (checks : dkg.Checks (.round2 packages))
    (received : ∃ reply, (.round2 packages, reply) ∈ history) :
    (dkg.round2 suite packages).1.Sound suite config id history := by
  obtain ⟨checked, ownPackage, isIn, isOwn⟩ := checks
  obtain ⟨reply, isReceived⟩ := received
  unfold BlsDkg.round2
  split
  · exact sound
  rename_i ready
  split
  · exact sound
  have stored : (acceptAll BlsDkg.storeCommitments dkg packages).1.Sound suite config id history ∧
      (acceptAll BlsDkg.storeCommitments dkg packages).1.state = .round1Complete ∧
      (acceptAll BlsDkg.storeCommitments dkg packages).1.commitments = dkg.commitments := by
    refine acceptAll_invariant (fun next => next.Sound suite config id history ∧
      next.state = .round1Complete ∧ next.commitments = dkg.commitments) ?_ dkg
      ⟨sound, not_not.mp ready, rfl⟩
    intro before next package member ⟨holds, isReady, sameOwn⟩ isStored
    obtain ⟨among, unaltered⟩ := checked package member
    rw [sound.config_eq] at among
    rw [sound.id_eq, ← sameOwn] at unaltered
    refine ⟨holds.storeCommitments isReady among unaltered
      ⟨packages, reply, isReceived, member⟩ isStored, ?_⟩
    rw [BlsDkg.of_storeCommitments isStored]
    exact ⟨isReady, sameOwn⟩
  split
  · rename_i next failure isNext
    rw [isNext] at stored
    exact stored.1
  rename_i next isNext
  rw [isNext] at stored
  obtain ⟨holds, isReady, -⟩ := stored
  split
  · exact holds
  rename_i own shares generated
  -- The own commitments are stored, and no other share is there yet.
  have present : id.value ∈ next.receivedCommitments := by
    rw [← sound.id_eq, ← isOwn]
    refine acceptAll_of_mem (fun final => ownPackage.sender.value ∈ final.receivedCommitments)
      (fun before after isStored => ?_) (fun before after other found isStored => ?_) isIn isNext
    · rw [BlsDkg.of_storeCommitments isStored]
      exact (Dict.mem_insert _ _ _ _).mpr (.inl rfl)
    · rw [BlsDkg.of_storeCommitments isStored]
      exact (Dict.mem_insert _ _ _ _).mpr (.inr found)
  obtain ⟨commitments, found⟩ := Option.isSome_iff_exists.mp
    (Std.ExtTreeMap.mem_iff_isSome_getElem?.mp present)
  refine ⟨holds.config_eq, holds.id_eq, holds.member, holds.own,
    fun key stored isStored => ⟨nofun, (holds.commitments key stored isStored).2⟩,
    fun key share isShare => ⟨nofun, nofun, ?_⟩⟩
  rw [holds.id_eq, Dict.find_insert] at isShare
  split at isShare
  · rename_i same
    cases isShare
    subst same
    obtain ⟨-, sender, -, named, -, isOwnTable, -⟩ := holds.commitments _ commitments found
    obtain ⟨polynomial, isPolynomial, lengths, isGenerated, -⟩ :=
      holds.own commitments (isOwnTable (ParticipantId.value_inj.mp named))
    obtain ⟨other, isOther, isShare⟩ := BlsDkg.of_generateShares generated
    cases isPolynomial.symm.trans isOther
    rw [suite.generateCommitments_eq_ok lengths] at isGenerated
    refine ⟨commitments, _, found,
      Except.ok.inj isGenerated ▸ suite.commits_generated id polynomial, ?_⟩
    rw [isShare, suite.reduce_toBytes, holds.id_eq, ← suite.horner_smul, List.map_map]
    rfl
  · exact absurd isReady (holds.shares key share isShare).2.1

variable [DecidableEq P]

theorem BlsDkg.of_acceptShare {next : BlsDkg} {package : BlsDkgRound2Package}
    (accepted : dkg.acceptShare suite package = .ok next) :
    next = dkg ∨
    (∃ commitments points, dkg.receivedCommitments[package.sender.value]? = some commitments ∧
      suite.Commits dkg.participantId commitments points ∧
      suite.reduceBytes package.share • suite.generator =
        horner (dkg.participantId.scalar F) points) ∧
    next = { dkg with
      receivedShares := dkg.receivedShares.insert package.sender.value package.share } := by
  unfold BlsDkg.acceptShare at accepted
  split at accepted
  · exact .inl (Except.ok.inj accepted).symm
  · simp only [Outcome.bind_eq_ok] at accepted
    obtain ⟨_, -, accepted⟩ := accepted
    split at accepted
    · cases accepted
    · rename_i commitments found
      simp only [BlsDkg.verifyShare, Outcome.bind_eq_ok, Outcome.require_eq_ok] at accepted
      obtain ⟨_, ⟨scalar, isScalar, expected, isExpected, valid⟩, _, rfl, ⟨⟩⟩ := accepted
      obtain ⟨-, rfl⟩ := suite.scalarFromBytes_eq_ok.mp isScalar
      obtain ⟨points, commits, rfl⟩ := suite.accumulate_eq_ok.mp isExpected
      have equal := of_decide_eq_true (Except.ok.inj valid)
      rw [Suite.scalarToPoint, zero_add, one_smul] at equal
      exact .inr ⟨⟨commitments, points, found, commits.agree, equal⟩, rfl⟩

theorem BlsDkg.Sound.acceptAll {packages : List BlsDkgRound2Package}
    (sound : dkg.Sound suite config id history) (ready : dkg.state = .round2Complete) :
    (acceptAll (BlsDkg.acceptShare suite) dkg packages).1.Sound suite config id history := by
  refine (acceptAll_invariant (fun next => next.Sound suite config id history ∧
    next.state = .round2Complete) ?_ dkg ⟨sound, ready⟩).1
  intro before next package _ ⟨holds, isReady⟩ accepted
  rcases BlsDkg.of_acceptShare accepted with rfl | ⟨value, rfl⟩
  · exact ⟨holds, isReady⟩
  rw [holds.id_eq] at value
  refine ⟨⟨holds.config_eq, holds.id_eq, holds.member, holds.own, holds.commitments,
    fun key share found => ?_⟩, isReady⟩
  rw [Dict.find_insert] at found
  split at found
  · rename_i same
    cases found
    subst same
    refine ⟨?_, ?_, value⟩
    · rw [isReady]
      exact nofun
    · rw [isReady]
      exact nofun
  · exact holds.shares key share found

omit [DecidableEq P] in
theorem BlsDkg.foldlM_addConstant {tables : List (List Bytes)} {start total : P}
    (added : tables.foldlM (dkg.addConstant suite) start = .ok total)
    (readable : ∀ commitments ∈ tables, ∃ points,
      suite.Commits dkg.participantId commitments points) :
    total = start + (tables.map fun commitments =>
      (suite.pointsOf dkg.participantId commitments).headD 0).sum := by
  induction tables generalizing start with
  | nil =>
    cases added
    simp
  | cons commitments rest ih =>
    rw [List.foldlM_cons, Outcome.bind_eq_ok] at added
    obtain ⟨next, isNext, later⟩ := added
    obtain ⟨points, commits⟩ := readable commitments List.mem_cons_self
    cases commitments with
    | nil => cases isNext
    | cons constant others =>
      have isPoints := commits.pointsOf_eq
      obtain ⟨first, _, isFirst, -, rfl⟩ := Outcome.mapM_cons_eq_ok.mp commits
      simp only [BlsDkg.addConstant, isFirst] at isNext
      cases isNext
      rw [ih later fun other member => readable other (List.mem_cons_of_mem _ member),
        List.map_cons, List.sum_cons, isPoints, List.headD_cons, add_assoc]

omit [DecidableEq P] in
theorem BlsDkg.Sound.keys_shares (sound : dkg.Sound suite config id history)
    (distinct : config.participants.Nodup) (enough : dkg.requireShares = .ok ()) :
    dkg.receivedShares.keys.Perm (config.participants.map ParticipantId.value) := by
  have among : ∀ key, key ∈ dkg.receivedShares →
      key ∈ config.participants.map ParticipantId.value := by
    intro key present
    obtain ⟨share, found⟩ := Option.isSome_iff_exists.mp
      (Std.ExtTreeMap.mem_iff_isSome_getElem?.mp present)
    obtain ⟨-, -, commitments, -, stored, -⟩ := sound.shares key share found
    obtain ⟨-, sender, isSender, named, -⟩ := sound.commitments key commitments stored
    exact List.mem_map.mpr ⟨sender, isSender, named⟩
  unfold BlsDkg.requireShares at enough
  rw [sound.config_eq] at enough
  split at enough
  · rename_i size
    exact Dict.perm_keys among (by rw [List.length_map, size])
  · refine Dict.perm_keys_of_mem (ParticipantId.nodup_values distinct) fun key => ⟨among key, ?_⟩
    intro member
    obtain ⟨sender, isSender, rfl⟩ := List.mem_map.mp member
    split at enough
    · cases enough
    · rename_i missing
      simpa using List.find?_eq_none.mp missing sender isSender

omit [DecidableEq P] in
theorem BlsDkg.Sound.keys_commitments (sound : dkg.Sound suite config id history)
    (distinct : config.participants.Nodup) (enough : dkg.requireShares = .ok ()) :
    dkg.receivedCommitments.keys.Perm (config.participants.map ParticipantId.value) := by
  refine Dict.perm_keys_of_mem (ParticipantId.nodup_values distinct) fun key => ⟨?_, fun member => ?_⟩
  · intro present
    obtain ⟨commitments, found⟩ := Option.isSome_iff_exists.mp
      (Std.ExtTreeMap.mem_iff_isSome_getElem?.mp present)
    obtain ⟨-, sender, isSender, named, -⟩ := sound.commitments key commitments found
    exact List.mem_map.mpr ⟨sender, isSender, named⟩
  · have present := Std.ExtTreeMap.mem_keys.mp
      ((sound.keys_shares distinct enough).mem_iff.mpr member)
    obtain ⟨share, found⟩ := Option.isSome_iff_exists.mp
      (Std.ExtTreeMap.mem_iff_isSome_getElem?.mp present)
    obtain ⟨-, -, commitments, -, stored, -⟩ := sound.shares key share found
    exact Std.ExtTreeMap.mem_iff_isSome_getElem?.mpr (by simp [stored])

/-- A share and a key come from the commitments of the configured participants. -/
def BlsBound (suite : Suite F P) (config : DkgConfig) (id : ParticipantId)
    (history : List BlsDkgEvent) (share : BlsKeyShare) (key : GroupPublicKey) : Prop :=
  ∃ points : ParticipantId → List P,
    (∀ sender ∈ config.participants, ∃ commitments,
      BlsReceived history id sender commitments ∧
      suite.Commits id commitments (points sender) ∧
      (points sender).length = config.thresholdConfig.threshold.toNat) ∧
    suite.reduceBytes share.secretShare • suite.generator =
      (config.participants.map fun sender => horner (id.scalar F) (points sender)).sum ∧
    share.publicShare =
      suite.pointToBytes (suite.reduceBytes share.secretShare • suite.generator) ∧
    key.bytes = suite.pointToBytes
      (config.participants.map fun sender => (points sender).headD 0).sum

omit [DecidableEq P] in
theorem BlsBound.mono {share : BlsKeyShare} {key : GroupPublicKey}
    (bound : BlsBound suite config id history share key) (events : List BlsDkgEvent) :
    BlsBound suite config id (history ++ events) share key := by
  obtain ⟨points, committed, rest⟩ := bound
  refine ⟨points, fun sender member => ?_, rest⟩
  obtain ⟨commitments, received, values⟩ := committed sender member
  exact ⟨commitments, received.mono events, values⟩

omit [DecidableEq P] in
theorem BlsDkg.Sound.conclude {share : BlsKeyShare} {key : GroupPublicKey}
    (sound : dkg.Sound suite config id history) (distinct : config.participants.Nodup)
    (concluded : dkg.conclude suite = .ok (share, key)) :
    BlsBound suite config id history share key := by
  simp only [BlsDkg.conclude, BlsDkg.computeGroupPublicKey, Outcome.bind_eq_ok] at concluded
  obtain ⟨_, enough, groupKey, ⟨sum, added, ⟨⟩⟩, scalar, isScalar, ⟨⟩⟩ := concluded
  obtain ⟨-, rfl⟩ := suite.scalarFromBytes_eq_ok.mp isScalar
  have keysShares := sound.keys_shares distinct enough
  have keysCommitments := sound.keys_commitments distinct enough
  -- Every participant has a share that fits its commitments.
  have known : ∀ sender ∈ config.participants, ∃ share commitments points,
      dkg.receivedShares[sender.value]? = some share ∧
      dkg.receivedCommitments[sender.value]? = some commitments ∧
      suite.Commits id commitments points ∧
      suite.reduceBytes share • suite.generator = horner (id.scalar F) points := by
    intro sender member
    have present := Std.ExtTreeMap.mem_keys.mp
      (keysShares.mem_iff.mpr (List.mem_map_of_mem member))
    obtain ⟨share, found⟩ := Option.isSome_iff_exists.mp
      (Std.ExtTreeMap.mem_iff_isSome_getElem?.mp present)
    obtain ⟨-, -, commitments, points, stored, commits, value⟩ := sound.shares _ share found
    exact ⟨share, commitments, points, found, stored, commits, value⟩
  let points := fun sender : ParticipantId =>
    suite.pointsOf id (dkg.receivedCommitments[sender.value]?.getD [])
  refine ⟨points, fun sender member => ?_, ?_, rfl, ?_⟩
  · obtain ⟨-, commitments, read, -, stored, commits, -⟩ := known sender member
    obtain ⟨-, other, -, named, length, -, received⟩ := sound.commitments _ commitments stored
    rw [ParticipantId.value_inj] at named
    subst named
    have isRead : points other = read := by
      simp only [points, stored, Option.getD_some]
      exact commits.pointsOf_eq
    rw [isRead]
    exact ⟨commitments, received, commits, (Outcome.length_mapM commits).trans length⟩
  · rw [BlsDkg.combineShares, suite.reduce_toBytes, Dict.sum_items _ keysShares, List.map_map,
      List.sum_smul, List.map_map]
    refine congrArg List.sum (List.map_congr_left fun sender member => ?_)
    obtain ⟨share, commitments, read, found, stored, commits, value⟩ := known sender member
    simp only [Function.comp_apply, found, Option.map_some, Option.getD_some, points, stored,
      commits.pointsOf_eq, value]
  · have readable : ∀ commitments ∈ dkg.receivedCommitments.items, ∃ read,
        suite.Commits dkg.participantId commitments read := by
      intro commitments member
      obtain ⟨key, stored⟩ := Dict.mem_items.mp member
      obtain ⟨-, sender, isSender, rfl, -⟩ := sound.commitments key commitments stored
      obtain ⟨-, other, read, -, isStored, commits, -⟩ := known sender isSender
      cases stored.symm.trans isStored
      rw [sound.id_eq]
      exact ⟨read, commits⟩
    rw [BlsDkg.foldlM_addConstant added readable, zero_add, Dict.sum_items _ keysCommitments,
      List.map_map, sound.id_eq]
    refine congrArg (suite.pointToBytes ∘ List.sum) (List.map_congr_left fun sender member => ?_)
    obtain ⟨-, commitments, -, -, stored, -⟩ := known sender member
    simp only [Function.comp_apply, points, stored, Option.map_some, Option.getD_some]

theorem BlsDkg.Sound.finalize (sound : dkg.Sound suite config id history)
    (distinct : config.participants.Nodup) (packages : List BlsDkgRound2Package) :
    (dkg.finalize suite packages).1.Sound suite config id history ∧
    ∀ share key, (dkg.finalize suite packages).2 = .ok (share, key) →
      BlsBound suite config id history share key := by
  unfold BlsDkg.finalize
  split
  · exact ⟨sound, nofun⟩
  rename_i ready
  have accepted : (Hsm.Threshold.acceptAll (BlsDkg.acceptShare suite) dkg packages).1.Sound suite
    config id history := sound.acceptAll (not_not.mp ready)
  split
  · rename_i next failure isNext
    rw [isNext] at accepted
    exact ⟨accepted, nofun⟩
  rename_i next isNext
  rw [isNext] at accepted
  split
  · exact ⟨accepted, nofun⟩
  rename_i result concluded
  refine ⟨⟨accepted.config_eq, accepted.id_eq, accepted.member, accepted.own,
    fun key commitments found => ⟨nofun, (accepted.commitments key commitments found).2⟩,
    fun key share found => ⟨nofun, nofun, (accepted.shares key share found).2.2⟩⟩, ?_⟩
  rintro share key ⟨⟩
  exact accepted.conclude distinct concluded

theorem BlsDkg.Sound.serve (sound : dkg.Sound suite config id history)
    (distinct : config.participants.Nodup) {call : BlsDkgCall} (checks : dkg.Checks call) :
    (dkg.serve suite call).1.Sound suite config id (history ++ (dkg.serve suite call).2) ∧
    ∀ packages share key, (.finalize packages, .finalized share key) ∈ (dkg.serve suite call).2 →
      BlsBound suite config id history share key := by
  have later := sound.mono (dkg.serve suite call).2
  cases call with
  | round1 draws =>
    simp only [BlsDkg.serve, BlsDkg.answer]
    split
    · rename_i next package ran
      exact ⟨sound.round1 ran, by simp⟩
    · exact ⟨sound.mono _, by simp⟩
  | round2 packages =>
    have kept := later.round2 checks ⟨_, List.mem_append_right _ List.mem_cons_self⟩
    refine ⟨?_, by simp [BlsDkg.serve]⟩
    simp only [BlsDkg.serve, BlsDkg.answer] at kept ⊢
    split
    · rename_i next shares isNext
      simpa only [isNext] using kept
    · rename_i next failure isNext
      simpa only [isNext] using kept
  | finalize packages =>
    have kept := (later.finalize distinct packages).1
    have bound := (sound.finalize distinct packages).2
    simp only [BlsDkg.serve, BlsDkg.answer] at kept ⊢
    split
    · rename_i next share key isNext
      simp only [isNext] at kept bound
      refine ⟨kept, fun others otherShare otherKey member => ?_⟩
      cases List.mem_singleton.mp member
      exact bound share key rfl
    · rename_i next failure isNext
      simp only [isNext] at kept
      exact ⟨kept, by simp⟩

/-- With checked packages, a share and a key come from the configured participants alone. -/
theorem bls_dkg_sound (suite : Suite F P) {config : DkgConfig} {id : ParticipantId} {start : BlsDkg}
    {calls : List BlsDkgCall} (isNew : BlsDkg.new config id = .ok start)
    (checked : Along BlsDkg.Checks (BlsDkg.serve suite) start calls)
    {packages : List BlsDkgRound2Package} {share : BlsKeyShare} {key : GroupPublicKey}
    (finalized : (.finalize packages, .finalized share key) ∈
      (trace (BlsDkg.serve suite) start calls).2) :
    BlsBound suite config id (trace (BlsDkg.serve suite) start calls).2 share key := by
  simp only [BlsDkg.new, Outcome.bind_eq_ok, Outcome.require_eq_ok] at isNew
  obtain ⟨_, valid, _, member, ⟨⟩⟩ := isNew
  have distinct := DkgConfig.nodup_of_validate valid
  refine (trace_invariant (fun dkg history => dkg.Sound suite config id history ∧
    ∀ packages share key, (.finalize packages, .finalized share key) ∈ history →
      BlsBound suite config id history share key) ?_ calls _ [] ?_ checked).2 packages share key
    finalized
  · intro dkg history call ⟨sound, bounds⟩ checks
    obtain ⟨kept, bound⟩ := sound.serve distinct checks
    refine ⟨kept, fun packages share key isFinalized => ?_⟩
    rcases List.mem_append.mp isFinalized with before | now
    · exact (bounds packages share key before).mono _
    · exact (bound packages share key now).mono _
  · exact ⟨⟨rfl, rfl, of_decide_eq_true member, nofun, by simp, by simp⟩, by simp⟩

end

namespace Known

def blsPointToBytes (point : Scalar) : Bytes :=
  if point = 0 then 0xc0 :: List.replicate 47 0
  else 0x80 :: (List.replicate 15 0 ++ scalarToBytes point)

def blsPointFromBytes (id : ParticipantId) : Bytes → Outcome Scalar
  | 0xc0 :: _ => .ok 0
  | 0x80 :: rest => .ok (reduceBytes (rest.drop 15))
  | _ => .fail (.invalidCommitment id)

def blsSuite : Suite Scalar Scalar :=
  { suite with
    scheme := .thresholdBls12381
    pointFromBytes := blsPointFromBytes
    pointToBytes := blsPointToBytes
    emptyPolynomial := .cryptoError "Empty polynomial coefficients"
    zeroKey := some (.error .invalidKeyShare)
    fromBytes_toBytes := by
      intro id point
      unfold blsPointToBytes
      split
      · rename_i zero
        rw [zero]
        rfl
      · have reads : blsPointFromBytes id (0x80 :: (List.replicate 15 0 ++ scalarToBytes point)) =
            .ok (reduceBytes (scalarToBytes point)) := rfl
        rw [reads]
        exact congrArg Except.ok (suite.reduce_toBytes point)
    fromBytes_agree := by
      intro first second bytes point decoded
      unfold blsPointFromBytes at decoded ⊢
      split at decoded
      · exact decoded
      · exact decoded
      · cases decoded
    toBytes_identity := rfl }

/-- Two participants generate a key. -/
def blsConfig : DkgConfig := { dkgConfig with scheme := .thresholdBls12381 }

def blsGenerating : BlsDkg := ⟨blsConfig, ⟨1⟩, .notStarted, none, none, ∅, ∅⟩

def blsRound1Package (id : ParticipantId) (coefficient : Scalar) : BlsDkgRound1Package :=
  ⟨id, [blsPointToBytes coefficient, blsPointToBytes coefficient]⟩

def blsCalls (other : ParticipantId) : List BlsDkgCall := [
  .round1 (constantDraws 3),
  .round2 [blsRound1Package ⟨1⟩ 3, blsRound1Package other 5],
  .finalize [⟨other, ⟨1⟩, scalarToBytes 10⟩]]

def blsShare : BlsKeyShare :=
  ⟨⟨1⟩, twoOfTwo, scalarToBytes 16, blsPointToBytes 16, blsPointToBytes 8⟩

def blsKey : GroupPublicKey := ⟨blsPointToBytes 8, twoOfTwo⟩

theorem blsCalls_finalize {other : ParticipantId} (isOther : other = ⟨2⟩ ∨ other = ⟨9⟩) :
    (.finalize [⟨other, ⟨1⟩, scalarToBytes 10⟩], .finalized blsShare blsKey) ∈
      (trace (BlsDkg.serve blsSuite) blsGenerating (blsCalls other)).2 := by
  refine List.mem_cons_of_mem _ (List.mem_cons_of_mem _ (List.mem_cons.mpr (.inl ?_)))
  refine Prod.ext rfl ?_
  rcases isOther with rfl | rfl
  · decide +kernel
  · decide +kernel

end Known

theorem strangers_share_finalized :
    BlsDkg.new Known.blsConfig ⟨1⟩ = .ok Known.blsGenerating ∧
    (.finalize [⟨⟨9⟩, ⟨1⟩, Known.scalarToBytes 10⟩], .finalized Known.blsShare Known.blsKey) ∈
      (trace (BlsDkg.serve Known.blsSuite) Known.blsGenerating (Known.blsCalls ⟨9⟩)).2 ∧
    ¬ BlsBound Known.blsSuite Known.blsConfig ⟨1⟩
      (trace (BlsDkg.serve Known.blsSuite) Known.blsGenerating (Known.blsCalls ⟨9⟩)).2
      Known.blsShare Known.blsKey := by
  refine ⟨rfl, Known.blsCalls_finalize (.inr rfl), ?_⟩
  rintro ⟨points, committed, -⟩
  -- Nothing was received from the second participant.
  obtain ⟨commitments, received, -⟩ := committed ⟨2⟩ (by decide)
  rw [BlsReceived, if_neg (by decide)] at received
  obtain ⟨packages, reply, member, among⟩ := received
  simp only [Known.blsCalls, trace_cons, trace_nil, BlsDkg.serve, List.singleton_append,
    List.mem_cons, List.not_mem_nil, Prod.mk.injEq, reduceCtorEq, false_and, false_or, or_false,
    BlsDkgCall.round2.injEq] at member
  obtain ⟨rfl, -⟩ := member
  simp [Known.blsRound1Package] at among

theorem bls_dkg_sound_two :
    BlsBound Known.blsSuite Known.blsConfig ⟨1⟩
      (trace (BlsDkg.serve Known.blsSuite) Known.blsGenerating (Known.blsCalls ⟨2⟩)).2
      Known.blsShare Known.blsKey := by
  refine bls_dkg_sound Known.blsSuite rfl ?_ (Known.blsCalls_finalize (.inl rfl))
  refine ⟨trivial, ⟨?_, Known.blsRound1Package ⟨1⟩ 3, by simp, ?_⟩, trivial, trivial⟩
  · decide +kernel
  · decide +kernel

end Hsm.Threshold

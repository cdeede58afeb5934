import Hsm.Threshold.RefreshLaws

/-! Honest participants that refresh their shares, with packages delivered in any order. -/

namespace Hsm.Threshold

structure RefreshGroup where
  parties : ParticipantId → KeyRefreshProtocol
  sent1 : List RefreshRound1Package
  sent2 : List RefreshRound2Package

def RefreshReply.packages1 : RefreshReply → List RefreshRound1Package
  | .round1 package => [package]
  | _ => []

def RefreshReply.packages2 : RefreshReply → List RefreshRound2Package
  | .round2 packages => packages
  | _ => []

abbrev GroupCall := ParticipantId × RefreshCall

abbrev GroupEvent := ParticipantId × RefreshEvent

section

variable {F P : Type} [Field F] [AddCommGroup P] [Module F P] [DecidableEq P] (suite : Suite F P)

def RefreshGroup.serve (group : RefreshGroup) (call : GroupCall) :
    RefreshGroup × List GroupEvent :=
  let result := (group.parties call.1).answer suite call.2
  (⟨Function.update group.parties call.1 result.1, group.sent1 ++ result.2.packages1,
    group.sent2 ++ result.2.packages2⟩, [(call.1, call.2, result.2)])

end

def RefreshGroup.start (parties : ParticipantId → KeyRefreshProtocol) : RefreshGroup :=
  ⟨parties, [], []⟩

/-- Participants process packages sent to them, and finalize with their share. -/
def RefreshGroup.Honest (config : KeyRefreshConfig) (oldShares : ParticipantId → KeyShare)
    (group : RefreshGroup) (call : GroupCall) : Prop :=
  call.1 ∈ config.participants ∧
  match call.2 with
  | .processRound1 package => package ∈ group.sent1
  | .processRound2 package => package ∈ group.sent2 ∧ package.receiver = call.1
  | .finalize oldShare => oldShare = oldShares call.1
  | _ => True

/-- No package is processed by its sender. -/
def NotToItself (call : GroupCall) : Prop :=
  ∀ package, call.2 = .processRound2 package → package.sender ≠ package.receiver

section

variable {F P : Type} [Field F] [AddCommGroup P] [Module F P] (suite : Suite F P)

def RefreshGroup.mask (group : RefreshGroup) (id : ParticipantId) : List F :=
  (group.parties id).myCoefficients.map suite.reduceBytes

def RefreshGroup.Started (group : RefreshGroup) (id : ParticipantId) : Prop :=
  (group.parties id).state ≠ .notStarted

/-- What holds of honest participants. -/
structure RefreshGroup.Sound (config : KeyRefreshConfig) (group : RefreshGroup)
    (history : List GroupEvent) : Prop where
  party : ∀ id ∈ config.participants,
    (group.parties id).config = config ∧ (group.parties id).participantId = id
  drawn : ∀ id ∈ config.participants, group.Started id → ∃ draws,
    (group.parties id).myCoefficients =
      KeyRefreshProtocol.generateZeroConstantPolynomial draws (config.currentConfig.threshold - 1)
  sent : ∀ package ∈ group.sent2, package.sender ∈ config.participants ∧
    group.Started package.sender ∧
    suite.reduceBytes package.refreshShare =
      horner (package.receiver.scalar F) (group.mask suite package.sender)
  received : ∀ id ∈ config.participants, ∀ (key : UInt16) (package : RefreshRound2Package),
    (group.parties id).round2Packages[key]? = some package →
      package ∈ group.sent2 ∧ package.sender.value = key ∧ package.receiver = id ∧
      package.sender ≠ id
  finalized : ∀ id oldShare newShare, (id, .finalize oldShare, .finalized newShare) ∈ history →
    (∀ other ∈ config.participants, group.Started other) ∧
    suite.reduceBytes newShare.secretShare = suite.reduceBytes oldShare.secretShare +
      (config.participants.map fun other => horner (id.scalar F) (group.mask suite other)).sum

variable {suite} {config : KeyRefreshConfig} {oldShares : ParticipantId → KeyShare}
  {group : RefreshGroup} {history : List GroupEvent}

theorem KeyRefreshProtocol.of_evaluated {protocol : KeyRefreshProtocol}
    {receivers : List ParticipantId} {packages : List RefreshRound2Package}
    (evaluated : (receivers.mapM fun receiver => do
      let refreshShare ← suite.evaluatePolynomial protocol.myCoefficients receiver
      return RefreshRound2Package.mk protocol.participantId receiver refreshShare
        protocol.config.scheme) = .ok packages) :
    ∀ package ∈ packages, package.sender = protocol.participantId ∧
      suite.reduceBytes package.refreshShare = horner (package.receiver.scalar F)
        (protocol.myCoefficients.map suite.reduceBytes) := by
  induction receivers generalizing packages with
  | nil =>
    cases evaluated
    simp
  | cons receiver rest ih =>
    obtain ⟨first, others, isFirst, isOthers, rfl⟩ := Outcome.mapM_cons_eq_ok.mp evaluated
    rw [Outcome.bind_eq_ok] at isFirst
    obtain ⟨share, isShare, ⟨⟩⟩ := isFirst
    intro package member
    rcases List.mem_cons.mp member with rfl | later
    · refine ⟨rfl, ?_⟩
      rw [suite.of_evaluatePolynomial isShare, suite.reduce_toBytes]
    · exact ih isOthers package later

theorem RefreshGroup.Sound.finalize (sound : group.Sound suite config history)
    (distinct : config.participants.Nodup) {id : ParticipantId}
    (isMember : id ∈ config.participants)
    {next : KeyRefreshProtocol} {oldShare newShare : KeyShare}
    (finalized : (group.parties id).finalize suite oldShare = .ok (next, newShare)) :
    (∀ other ∈ config.participants, group.Started other) ∧
    suite.reduceBytes newShare.secretShare = suite.reduceBytes oldShare.secretShare +
      (config.participants.map fun other =>
        horner (id.scalar F) (group.mask suite other)).sum := by
  obtain ⟨-, newSecret, ready, enough⟩ := KeyRefreshProtocol.of_finalize suite finalized
  obtain ⟨isConfig, isId⟩ := sound.party id isMember
  let others := config.participants.erase id
  have keys : (group.parties id).round2Packages.keys.Perm (others.map ParticipantId.value) := by
    refine Dict.perm_keys (fun key present => ?_) ?_
    · obtain ⟨package, found⟩ := Option.isSome_iff_exists.mp
        (Std.ExtTreeMap.mem_iff_isSome_getElem?.mp present)
      obtain ⟨isSent, named, -, apart⟩ := sound.received id isMember key package found
      obtain ⟨among, -⟩ := sound.sent package isSent
      exact List.mem_map.mpr ⟨package.sender, distinct.mem_erase_iff.mpr ⟨apart, among⟩, named⟩
    · rw [isConfig] at enough
      rw [List.length_map, List.length_erase_of_mem isMember]
      omega
  have fromOther : ∀ other ∈ others, ∃ package,
      (group.parties id).round2Packages[other.value]? = some package ∧ group.Started other ∧
      suite.reduceBytes package.refreshShare =
        horner (id.scalar F) (group.mask suite other) := by
    intro other member
    have present := Std.ExtTreeMap.mem_keys.mp (keys.mem_iff.mpr (List.mem_map_of_mem member))
    obtain ⟨package, found⟩ := Option.isSome_iff_exists.mp
      (Std.ExtTreeMap.mem_iff_isSome_getElem?.mp present)
    obtain ⟨isSent, named, addressed, -⟩ := sound.received id isMember _ package found
    obtain ⟨-, started, value⟩ := sound.sent package isSent
    have isSender : package.sender = other := by
      cases other
      cases senderIs : package.sender
      rw [senderIs] at named
      exact congrArg ParticipantId.mk named
    rw [isSender, addressed] at value
    rw [isSender] at started
    exact ⟨package, found, started, value⟩
  refine ⟨fun other member => ?_, ?_⟩
  · by_cases same : other = id
    · rw [same, RefreshGroup.Started, ready]
      exact nofun
    · obtain ⟨-, -, started, -⟩ := fromOther other (distinct.mem_erase_iff.mpr ⟨same, member⟩)
      exact started
  · have values : ((group.parties id).round2Packages.items.map fun package =>
        suite.reduceBytes package.refreshShare).sum =
        (others.map fun other => horner (id.scalar F) (group.mask suite other)).sum := by
      rw [Dict.sum_items _ keys, List.map_map]
      refine congrArg List.sum (List.map_congr_left fun other member => ?_)
      obtain ⟨package, found, -, value⟩ := fromOther other member
      rw [Function.comp_apply, found]
      exact value
    rw [newSecret, KeyRefreshProtocol.contribution, values, isId,
      ((List.perm_cons_erase isMember).map fun other =>
        horner (id.scalar F) (group.mask suite other)).sum_eq]
    rfl

variable [DecidableEq P]

namespace KeyRefreshProtocol

variable (suite) in
theorem answer_party (protocol : KeyRefreshProtocol) (call : RefreshCall) :
    (protocol.answer suite call).1.config = protocol.config ∧
    (protocol.answer suite call).1.participantId = protocol.participantId := by
  have step := protocol.answer_step suite call
  generalize protocol.answer suite call = result at step
  cases step <;> exact ⟨rfl, rfl⟩

variable {protocol : KeyRefreshProtocol} {call : RefreshCall}

theorem answer_drawn (started : (protocol.answer suite call).1.state ≠ .notStarted) :
    protocol.state ≠ .notStarted ∨ ∃ draws, (protocol.answer suite call).1.myCoefficients =
      generateZeroConstantPolynomial draws (protocol.config.currentConfig.threshold - 1) := by
  have step := protocol.answer_step suite call
  generalize protocol.answer suite call = result at step started
  cases step with
  | failed failure => exact .inl started
  | round1 ready drawn => exact .inr ⟨_, drawn⟩
  | processRound1 zero => exact .inl started
  | round2 ready evaluated =>
    rw [ready]
    exact .inl nofun
  | processRound2 addressed verified => exact .inl started
  | finalize ready finalized =>
    rw [ready]
    exact .inl nofun

theorem answer_sent :
    ∀ package ∈ (protocol.answer suite call).2.packages2, protocol.state ≠ .notStarted ∧
      package.sender = protocol.participantId ∧
      suite.reduceBytes package.refreshShare = horner (package.receiver.scalar F)
        (protocol.myCoefficients.map suite.reduceBytes) := by
  have step := protocol.answer_step suite call
  generalize protocol.answer suite call = result at step
  cases step with
  | round2 ready evaluated =>
    intro package member
    rw [ready]
    exact ⟨nofun, of_evaluated evaluated package member⟩
  | _ => simp [RefreshReply.packages2]

theorem answer_received {key : UInt16} {package : RefreshRound2Package}
    (found : (protocol.answer suite call).1.round2Packages[key]? = some package) :
    protocol.round2Packages[key]? = some package ∨
      call = .processRound2 package ∧ package.sender.value = key := by
  have step := protocol.answer_step suite call
  generalize protocol.answer suite call = result at step found
  cases step with
  | processRound2 addressed verified =>
    rw [Dict.find_insert] at found
    split at found
    · rename_i same
      cases found
      exact .inr ⟨rfl, same⟩
    · exact .inl found
  | _ => exact .inl found

theorem answer_finalized {oldShare newShare : KeyShare} (isCall : call = .finalize oldShare)
    (replied : (protocol.answer suite call).2 = .finalized newShare) :
    ∃ next, protocol.finalize suite oldShare = .ok (next, newShare) := by
  have step := protocol.answer_step suite call
  generalize protocol.answer suite call = result at step replied
  cases step with
  | finalize ready finalized =>
    cases isCall
    cases replied
    exact ⟨_, finalized⟩
  | failed failure => cases replied
  | _ => cases isCall

end KeyRefreshProtocol

variable (suite) in
theorem RefreshGroup.started_serve (call : GroupCall) {id : ParticipantId}
    (started : group.Started id) :
    (group.serve suite call).1.Started id ∧
    (group.serve suite call).1.mask suite id = group.mask suite id := by
  unfold RefreshGroup.Started RefreshGroup.mask RefreshGroup.serve
  by_cases same : id = call.1
  · subst same
    obtain ⟨still, kept⟩ := KeyRefreshProtocol.answer_started suite _ call.2 started
    simp only [Function.update_self]
    exact ⟨still, congrArg (List.map suite.reduceBytes) kept⟩
  · simp only [Function.update_of_ne same]
    exact ⟨started, True.intro⟩

theorem RefreshGroup.Sound.serve (sound : group.Sound suite config history)
    (distinct : config.participants.Nodup) {call : GroupCall}
    (honest : group.Honest config oldShares call) (notOwn : NotToItself call) :
    (group.serve suite call).1.Sound suite config
      (history ++ (group.serve suite call).2) := by
  obtain ⟨isMember, asSent⟩ := honest
  obtain ⟨isConfig, isId⟩ := sound.party call.1 isMember
  have kept : ∀ {id}, group.Started id → _ := fun started =>
    RefreshGroup.started_serve suite call started
  have self : (group.serve suite call).1.parties call.1 =
    ((group.parties call.1).answer suite call.2).1 := Function.update_self ..
  have other : ∀ {id}, id ≠ call.1 →
      (group.serve suite call).1.parties id = group.parties id :=
    fun apart => Function.update_of_ne apart ..
  refine ⟨fun id member => ?_, fun id member started => ?_, fun package member => ?_,
    fun id member key package found => ?_, fun id oldShare newShare member => ?_⟩
  · by_cases same : id = call.1
    · subst same
      obtain ⟨sameConfig, sameId⟩ :=
        KeyRefreshProtocol.answer_party suite (group.parties call.1) call.2
      rw [self, sameConfig, sameId]
      exact ⟨isConfig, isId⟩
    · rw [other same]
      exact sound.party id member
  · by_cases same : id = call.1
    · subst same
      rw [RefreshGroup.Started, self] at started
      rw [self, ← isConfig]
      rcases KeyRefreshProtocol.answer_drawn started with before | drawn
      · rw [(KeyRefreshProtocol.answer_started suite _ call.2 before).2, isConfig]
        exact sound.drawn _ member before
      · exact drawn
    · rw [RefreshGroup.Started, other same] at started
      rw [other same]
      exact sound.drawn id member started
  · rcases List.mem_append.mp member with before | sent
    · obtain ⟨among, started, value⟩ := sound.sent package before
      obtain ⟨still, same⟩ := kept started
      exact ⟨among, still, same ▸ value⟩
    · obtain ⟨started, isSender, value⟩ := KeyRefreshProtocol.answer_sent package sent
      rw [isId] at isSender
      obtain ⟨still, same⟩ := kept started
      rw [isSender, same]
      exact ⟨isMember, still, value⟩
  · by_cases same : id = call.1
    · subst same
      rw [self] at found
      rcases KeyRefreshProtocol.answer_received found with before | ⟨isCall, isKey⟩
      · obtain ⟨isSent, rest⟩ := sound.received _ member key package before
        exact ⟨List.mem_append_left _ isSent, rest⟩
      · rw [isCall] at asSent
        obtain ⟨isSent, addressed⟩ := asSent
        have apart := notOwn package isCall
        exact ⟨List.mem_append_left _ isSent, isKey, addressed, addressed ▸ apart⟩
    · rw [other same] at found
      obtain ⟨isSent, rest⟩ := sound.received id member key package found
      exact ⟨List.mem_append_left _ isSent, rest⟩
  · have before : (∀ other ∈ config.participants, group.Started other) ∧
        suite.reduceBytes newShare.secretShare = suite.reduceBytes oldShare.secretShare +
          (config.participants.map fun other =>
            horner (id.scalar F) (group.mask suite other)).sum := by
      rcases List.mem_append.mp member with past | now
      · exact sound.finalized id oldShare newShare past
      · simp only [RefreshGroup.serve, List.mem_singleton, Prod.mk.injEq] at now
        obtain ⟨rfl, isCall, replied⟩ := now
        obtain ⟨next, finalized⟩ := KeyRefreshProtocol.answer_finalized isCall.symm replied.symm
        exact sound.finalize distinct isMember finalized
    -- What was added then is what the polynomials have now.
    obtain ⟨started, value⟩ := before
    refine ⟨fun other isOther => (kept (started other isOther)).1, ?_⟩
    rw [value]
    refine congrArg (_ + List.sum ·) (List.map_congr_left fun other isOther => ?_)
    rw [(kept (started other isOther)).2]

theorem RefreshGroup.sound_trace (distinct : config.participants.Nodup)
    {start : ParticipantId → KeyRefreshProtocol} {calls : List GroupCall}
    (areNew : ∀ id ∈ config.participants, KeyRefreshProtocol.new config id = .ok (start id))
    (honest : Along (RefreshGroup.Honest config oldShares) (RefreshGroup.serve suite) (.start start)
      calls) (notOwn : ∀ call ∈ calls, NotToItself call) :
    (trace (RefreshGroup.serve suite) (.start start) calls).1.Sound suite config
      (trace (RefreshGroup.serve suite) (.start start) calls).2 := by
  refine trace_invariant (RefreshGroup.Sound suite config) ?_ calls _ [] ?_
    (along_and_forall notOwn honest)
  · intro group history call sound ⟨isHonest, apart⟩
    exact sound.serve distinct isHonest apart
  · -- Nothing was drawn or sent yet.
    have fresh : ∀ id ∈ config.participants,
        (RefreshGroup.start start).parties id = ⟨config, .notStarted, ∅, ∅, id, []⟩ := by
      intro id member
      have isNew := areNew id member
      simp only [KeyRefreshProtocol.new, Outcome.bind_eq_ok] at isNew
      obtain ⟨_, -, _, -, isStart⟩ := isNew
      exact (Except.ok.inj isStart).symm
    refine ⟨fun id member => ?_, fun id member started => ?_, by simp [RefreshGroup.start],
      fun id member key package found => ?_, by simp⟩
    · rw [fresh id member]
      exact ⟨rfl, rfl⟩
    · rw [RefreshGroup.Started, fresh id member] at started
      exact absurd rfl started
    · rw [fresh id member] at found
      simp at found

end

/-- A refresh keeps the secret, if no package is processed by its sender. -/
theorem refresh_keeps_secret {F P : Type} [Field F] [DecidableEq F] [AddCommGroup P] [Module F P]
    [DecidableEq P] (suite : Suite F P) {config : KeyRefreshConfig}
    {start : ParticipantId → KeyRefreshProtocol} {oldShares newShares : ParticipantId → KeyShare}
    {calls : List GroupCall} {coefficients : List F} {secret : F}
    (distinct : config.participants.Nodup)
    (areNew : ∀ id ∈ config.participants, KeyRefreshProtocol.new config id = .ok (start id))
    (degree : coefficients.length = config.currentConfig.threshold.toNat)
    (isSecret : coefficients.head? = some secret)
    (shared : ∀ id ∈ config.participants,
      suite.reduceBytes (oldShares id).secretShare = horner (id.scalar F) coefficients)
    (honest : Along (RefreshGroup.Honest config oldShares) (RefreshGroup.serve suite) (.start start)
      calls)
    (notOwn : ∀ call ∈ calls, NotToItself call)
    (finalized : ∀ id ∈ config.participants,
      (id, .finalize (oldShares id), .finalized (newShares id)) ∈
        (trace (RefreshGroup.serve suite) (.start start) calls).2) :
    ∃ refreshed : List F, refreshed.length = config.currentConfig.threshold.toNat ∧
      refreshed.head? = some secret ∧
      (∀ id ∈ config.participants,
        suite.reduceBytes (newShares id).secretShare = horner (id.scalar F) refreshed) ∧
      ∀ chosen : List ParticipantId, chosen.Nodup → chosen ⊆ config.participants →
        config.currentConfig.threshold.toNat ≤ chosen.length →
        reconstructSecret
          (chosen.map fun id => (id, suite.reduceBytes (newShares id).secretShare)) = secret := by
  have sound := RefreshGroup.sound_trace distinct areNew honest notOwn
  generalize (trace (RefreshGroup.serve suite) (.start start) calls).1 = group at sound
  have positive : config.currentConfig.threshold ≠ 0 := by
    intro zero
    rw [zero] at degree
    rw [List.length_eq_zero_iff.mp degree] at isSecret
    cases isSecret
  -- All participants have started, and none of their polynomials has a constant term.
  have masks : ∀ id ∈ config.participants,
      (group.mask suite id).length = config.currentConfig.threshold.toNat ∧
      (group.mask suite id).headD 0 = 0 := by
    intro id member
    obtain ⟨started, -⟩ := sound.finalized _ _ _ (finalized id member)
    obtain ⟨draws, drawn⟩ := sound.drawn id member (started id member)
    rw [RefreshGroup.mask, drawn, List.length_map,
      KeyRefreshProtocol.length_generateZeroConstantPolynomial positive]
    exact ⟨rfl, suite.reduce_zero⟩
  let terms := (1, coefficients) :: config.participants.map fun id => ((1 : F), group.mask suite id)
  have short : ∀ term ∈ terms, term.2.length ≤ config.currentConfig.threshold.toNat := by
    intro term member
    rcases List.mem_cons.mp member with rfl | masking
    · exact degree.le
    · obtain ⟨id, isMember, rfl⟩ := List.mem_map.mp masking
      exact (masks id isMember).1.le
  obtain ⟨refreshed, length, constant, values⟩ := exists_horner_eq_sum short
  have isConstant : refreshed.headD 0 = secret := by
    have zeros : (config.participants.map fun id => (group.mask suite id).headD 0).sum = 0 := by
      rw [List.map_congr_left fun id member => (masks id member).2]
      simp
    simp only [terms, List.map_cons, List.map_map, Function.comp_def, one_smul, List.sum_cons,
      zeros, add_zero] at constant
    rw [constant, List.headD_eq_head?_getD, isSecret, Option.getD_some]
  have newValues : ∀ id ∈ config.participants,
      suite.reduceBytes (newShares id).secretShare = horner (id.scalar F) refreshed := by
    intro id member
    obtain ⟨-, value⟩ := sound.finalized _ _ _ (finalized id member)
    rw [value, shared id member, values]
    simp only [terms, List.map_cons, List.map_map, Function.comp_def, one_smul, List.sum_cons]
  refine ⟨refreshed, length, ?_, newValues, fun chosen isNodup among enough => ?_⟩
  · cases refreshed with
    | nil => exact absurd (UInt16.toNat_inj.mp length.symm) positive
    | cons first rest => exact congrArg some isConstant
  · rw [suite.reconstructSecret_horner (fun id member => newValues id (among member)) isNodup
      (length.trans_le enough), isConstant]

namespace Known

def refreshingPair (id : ParticipantId) : KeyRefreshProtocol :=
  ⟨refreshConfig, .notStarted, ∅, ∅, id, []⟩

theorem refreshingPair_new : ∀ id ∈ refreshConfig.participants,
    KeyRefreshProtocol.new refreshConfig id = .ok (refreshingPair id) := by
  intro id member
  simp only [refreshConfig, List.mem_cons, List.not_mem_nil, or_false] at member
  rcases member with rfl | rfl
  · rfl
  · rfl

def lineShare (constant slope : Scalar) (id : ParticipantId) : KeyShare :=
  ⟨id, twoOfTwo, scalarToBytes (constant + slope * id.scalar Scalar),
    pointToBytes (constant + slope * id.scalar Scalar)⟩

def exchange (toItself : List GroupCall) : List GroupCall := [
  (⟨1⟩, .round1 (constantDraws 3)),
  (⟨2⟩, .round1 (constantDraws 5)),
  (⟨1⟩, .processRound1 ⟨⟨2⟩, [pointToBytes 0, pointToBytes 5], .thresholdEcdsaP256⟩),
  (⟨2⟩, .processRound1 ⟨⟨1⟩, [pointToBytes 0, pointToBytes 3], .thresholdEcdsaP256⟩),
  (⟨2⟩, .round2),
  (⟨1⟩, .round2),
  (⟨1⟩, .processRound2 ⟨⟨2⟩, ⟨1⟩, scalarToBytes 5, .thresholdEcdsaP256⟩),
  (⟨2⟩, .processRound2 ⟨⟨1⟩, ⟨2⟩, scalarToBytes 6, .thresholdEcdsaP256⟩)] ++ toItself

def finalizing : List GroupCall := [
  (⟨1⟩, .finalize (lineShare 7 4 ⟨1⟩)),
  (⟨2⟩, .finalize (lineShare 7 4 ⟨2⟩))]

def toItself : List GroupCall := [
  (⟨1⟩, .processRound2 ⟨⟨1⟩, ⟨1⟩, scalarToBytes 3, .thresholdEcdsaP256⟩)]

def refreshedShares (first second : Scalar) (id : ParticipantId) : KeyShare :=
  ⟨id, twoOfTwo, scalarToBytes (if id = ⟨1⟩ then first else second),
    (lineShare 7 4 id).publicKeyShare⟩

theorem finalizing_replies {calls : List GroupCall} {first second : Scalar}
    (replied : ∀ id ∈ refreshConfig.participants,
      (((trace (RefreshGroup.serve suite) (.start refreshingPair) calls).1.parties id).answer suite
        (.finalize (lineShare 7 4 id))).2 = .finalized (refreshedShares first second id)) :
    ∀ id ∈ refreshConfig.participants,
      (id, .finalize (lineShare 7 4 id), .finalized (refreshedShares first second id)) ∈
        (trace (RefreshGroup.serve suite) (.start refreshingPair) (calls ++ finalizing)).2 := by
  intro id member
  have answered := replied id member
  rw [trace_append]
  refine List.mem_append_right _ ?_
  generalize (trace (RefreshGroup.serve suite) (.start refreshingPair) calls).1 = group at answered
  rw [← answered]
  simp only [refreshConfig, List.mem_cons, List.not_mem_nil, or_false] at member
  rcases member with rfl | rfl
  · exact List.mem_cons_self
  · exact List.mem_cons_of_mem _ List.mem_cons_self

end Known

theorem own_package_counted_twice :
    (∀ id ∈ Known.refreshConfig.participants,
      KeyRefreshProtocol.new Known.refreshConfig id = .ok (Known.refreshingPair id)) ∧
    Along (RefreshGroup.Honest Known.refreshConfig (Known.lineShare 7 4))
      (RefreshGroup.serve Known.suite) (.start Known.refreshingPair)
      (Known.exchange Known.toItself ++ Known.finalizing) ∧
    (∀ id ∈ Known.refreshConfig.participants,
      (id, .finalize (Known.lineShare 7 4 id), .finalized (Known.refreshedShares 22 31 id)) ∈
        (trace (RefreshGroup.serve Known.suite) (.start Known.refreshingPair)
          (Known.exchange Known.toItself ++ Known.finalizing)).2) ∧
    reconstructSecret ([⟨1⟩, ⟨2⟩].map fun id =>
      (id, Known.suite.reduceBytes (Known.lineShare 7 4 id).secretShare)) = 7 ∧
    reconstructSecret ([⟨1⟩, ⟨2⟩].map fun id =>
      (id, Known.suite.reduceBytes (Known.refreshedShares 22 31 id).secretShare)) = 13 := by
  refine ⟨Known.refreshingPair_new, ?_, Known.finalizing_replies ?_, ?_, ?_⟩
  · refine ⟨⟨?_, trivial⟩, ⟨?_, trivial⟩, ⟨?_, ?_⟩, ⟨?_, ?_⟩, ⟨?_, trivial⟩, ⟨?_, trivial⟩,
      ⟨?_, ?_, ?_⟩, ⟨?_, ?_, ?_⟩, ⟨?_, ?_, ?_⟩, ⟨?_, rfl⟩, ⟨?_, rfl⟩, trivial⟩
    all_goals decide +kernel
  all_goals decide +kernel

theorem refresh_keeps_secret_seven :
    ∃ refreshed : List Known.Scalar, refreshed.length = 2 ∧ refreshed.head? = some 7 ∧
      ∀ id ∈ Known.refreshConfig.participants,
        Known.suite.reduceBytes (Known.refreshedShares 19 31 id).secretShare =
          horner (id.scalar Known.Scalar) refreshed := by
  have honest : Along (RefreshGroup.Honest Known.refreshConfig (Known.lineShare 7 4))
      (RefreshGroup.serve Known.suite) (.start Known.refreshingPair)
      (Known.exchange [] ++ Known.finalizing) := by
    refine ⟨⟨?_, trivial⟩, ⟨?_, trivial⟩, ⟨?_, ?_⟩, ⟨?_, ?_⟩, ⟨?_, trivial⟩, ⟨?_, trivial⟩,
      ⟨?_, ?_, ?_⟩, ⟨?_, ?_, ?_⟩, ⟨?_, rfl⟩, ⟨?_, rfl⟩, trivial⟩
    all_goals decide +kernel
  have notOwn : ∀ call ∈ Known.exchange [] ++ Known.finalizing, NotToItself call := by
    intro call member package isCall
    simp only [Known.exchange, Known.finalizing, List.append_nil, List.cons_append,
      List.nil_append, List.mem_cons, List.not_mem_nil, or_false] at member
    rcases member with rfl | rfl | rfl | rfl | rfl | rfl | rfl | rfl | rfl | rfl <;> cases isCall
    all_goals decide
  have shared : ∀ id ∈ Known.refreshConfig.participants,
      Known.suite.reduceBytes (Known.lineShare 7 4 id).secretShare =
        horner (id.scalar Known.Scalar) [7, 4] := by
    decide +kernel
  have finalized : ∀ id ∈ Known.refreshConfig.participants,
      (id, .finalize (Known.lineShare 7 4 id), .finalized (Known.refreshedShares 19 31 id)) ∈
        (trace (RefreshGroup.serve Known.suite) (.start Known.refreshingPair)
          (Known.exchange [] ++ Known.finalizing)).2 :=
    Known.finalizing_replies (by decide +kernel)
  obtain ⟨refreshed, length, constant, values, -⟩ := refresh_keeps_secret Known.suite (by decide)
    Known.refreshingPair_new rfl rfl shared honest notOwn finalized
  exact ⟨refreshed, length, constant, values⟩

end Hsm.Threshold

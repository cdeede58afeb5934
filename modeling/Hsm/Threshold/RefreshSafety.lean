import Hsm.Threshold.RefreshLaws

/-! A refresh with checked packages adds polynomials without constant term, one per participant. -/

namespace Hsm.Threshold

/-- Packages come once from configured participants, of no higher degree. -/
def KeyRefreshProtocol.Checks (protocol : KeyRefreshProtocol) : RefreshCall → Prop
  | .processRound1 package => package.scheme = protocol.config.scheme ∧
    package.sender ∈ protocol.config.participants ∧ package.sender ≠ protocol.participantId ∧
    package.commitments.length ≤ protocol.config.currentConfig.threshold.toNat ∧
    package.sender.value ∉ protocol.round1Packages
  | .processRound2 package => package.sender ∈ protocol.config.participants ∧
    package.sender ≠ protocol.participantId ∧ package.sender.value ∈ protocol.round1Packages
  | _ => True

section

variable {F P : Type} [Field F] [AddCommGroup P] [Module F P] (suite : Suite F P)

def CommittedTo (history : List RefreshEvent) (id sender : ParticipantId) (points : List P) :
    Prop :=
  ∃ package : RefreshRound1Package, package.sender = sender ∧
    suite.Commits id package.commitments points ∧
    if sender = id then ∃ draws, (.round1 draws, .round1 package) ∈ history
    else (.processRound1 package, .processed) ∈ history

variable [DecidableEq P]

/-- What holds of a participant with checked packages. -/
structure KeyRefreshProtocol.Sound (config : KeyRefreshConfig) (id : ParticipantId)
    (protocol : KeyRefreshProtocol) (history : List RefreshEvent) : Prop where
  config_eq : protocol.config = config
  id_eq : protocol.participantId = id
  own : protocol.state ≠ .notStarted → ∃ draws package, (.round1 draws, .round1 package) ∈ history ∧
    package.sender = id ∧
    protocol.myCoefficients =
      generateZeroConstantPolynomial draws (config.currentConfig.threshold - 1) ∧
    suite.generateCommitments protocol.myCoefficients = .ok package.commitments
  round1 : ∀ (key : UInt16) (package : RefreshRound1Package),
    protocol.round1Packages[key]? = some package →
      (.processRound1 package, .processed) ∈ history ∧ package.sender.value = key ∧
      package.sender ≠ id ∧
      package.commitments.length ≤ config.currentConfig.threshold.toNat ∧
      package.commitments.head? = some config.scheme.identityPoint
  round2 : ∀ (key : UInt16) (package : RefreshRound2Package),
    protocol.round2Packages[key]? = some package →
      package.sender.value = key ∧ package.sender ∈ config.participants ∧ package.sender ≠ id ∧
      ∃ first, protocol.round1Packages[key]? = some first ∧
        suite.verifyShare id package.refreshShare first.commitments = .ok true

variable {suite} {config : KeyRefreshConfig} {id : ParticipantId} {protocol : KeyRefreshProtocol}
  {history : List RefreshEvent}

theorem KeyRefreshProtocol.Sound.mono (sound : protocol.Sound suite config id history)
    (events : List RefreshEvent) : protocol.Sound suite config id (history ++ events) where
  config_eq := sound.config_eq
  id_eq := sound.id_eq
  own := fun started => by
    obtain ⟨draws, package, member, rest⟩ := sound.own started
    exact ⟨draws, package, List.mem_append_left _ member, rest⟩
  round1 := fun key package found => by
    obtain ⟨member, rest⟩ := sound.round1 key package found
    exact ⟨List.mem_append_left _ member, rest⟩
  round2 := sound.round2

theorem KeyRefreshProtocol.Sound.serve (sound : protocol.Sound suite config id history)
    {call : RefreshCall} (checks : protocol.Checks call) :
    (protocol.serve suite call).1.Sound suite config id
      (history ++ (protocol.serve suite call).2) := by
  simp only [KeyRefreshProtocol.serve]
  have step := protocol.answer_step suite call
  generalize protocol.answer suite call = result at step
  have later := sound.mono [(call, result.2)]
  cases step with
  | failed failure => exact later
  | @round1 draws coefficients commitments ready drawn generated =>
    refine ⟨later.config_eq, later.id_eq, fun _ => ?_, later.round1, later.round2⟩
    refine ⟨draws, _, List.mem_append_right _ (List.mem_singleton.mpr rfl), later.id_eq, ?_,
      generated⟩
    rw [← later.config_eq]
    exact drawn
  | @processRound1 package zero =>
    obtain ⟨sameScheme, -, notOwn, degree, isNew⟩ := checks
    refine ⟨later.config_eq, later.id_eq, later.own, fun key stored found => ?_,
      fun key stored found => ?_⟩
    · rw [Dict.find_insert] at found
      split at found
      · rename_i same
        cases found
        rw [sound.config_eq] at sameScheme degree
        rw [sound.id_eq] at notOwn
        exact ⟨by simp, same, notOwn, degree, sameScheme ▸ zero⟩
      · exact later.round1 key stored found
    · obtain ⟨named, among, apart, first, isFirst, verified⟩ := later.round2 key stored found
      -- Commitments are not replaced, so what was verified still is.
      have other : package.sender.value ≠ key := by
        rintro rfl
        exact isNew (Std.ExtTreeMap.mem_iff_isSome_getElem?.mpr (by simp [isFirst]))
      refine ⟨named, among, apart, first, ?_, verified⟩
      rw [Dict.find_insert_of_ne _ other]
      exact isFirst
  | @round2 packages ready evaluated =>
    have started : protocol.state ≠ .notStarted := by
      rw [ready]
      intro none
      cases none
    exact ⟨later.config_eq, later.id_eq, fun _ => later.own started, later.round1, later.round2⟩
  | @processRound2 package addressed verified =>
    obtain ⟨among, notOwn, present⟩ := checks
    obtain ⟨first, isFirst⟩ := Option.isSome_iff_exists.mp
      (Std.ExtTreeMap.mem_iff_isSome_getElem?.mp present)
    simp only [KeyRefreshProtocol.verifyRefreshShare, isFirst, Outcome.bind_eq_ok,
      Outcome.require_eq_ok] at verified
    obtain ⟨valid, isValid, rfl⟩ := verified
    refine ⟨later.config_eq, later.id_eq, later.own, later.round1, fun key stored found => ?_⟩
    rw [Dict.find_insert] at found
    split at found
    · rename_i same
      cases found
      rw [sound.config_eq] at among
      rw [sound.id_eq] at notOwn isValid
      exact ⟨same, among, notOwn, first, same ▸ isFirst, isValid⟩
    · exact later.round2 key stored found
  | @finalize oldShare newShare ready finalized =>
    have started : protocol.state ≠ .notStarted := by
      rw [ready]
      intro none
      cases none
    exact ⟨later.config_eq, later.id_eq, fun _ => later.own started, later.round1, later.round2⟩

theorem sound_trace {start : KeyRefreshProtocol} {calls : List RefreshCall}
    (isNew : KeyRefreshProtocol.new config id = .ok start)
    (checked : Along KeyRefreshProtocol.Checks (KeyRefreshProtocol.serve suite) start calls) :
    (trace (KeyRefreshProtocol.serve suite) start calls).1.Sound suite config id
      (trace (KeyRefreshProtocol.serve suite) start calls).2 := by
  simp only [KeyRefreshProtocol.new, Outcome.bind_eq_ok] at isNew
  obtain ⟨_, -, _, -, ⟨⟩⟩ := isNew
  refine trace_invariant (KeyRefreshProtocol.Sound suite config id)
    (fun protocol history call sound checks => sound.serve checks) calls _ [] ?_ checked
  exact ⟨rfl, rfl, fun started => absurd rfl started, by simp, by simp⟩

def KeyRefreshProtocol.committed (suite : Suite F P) (protocol : KeyRefreshProtocol)
    (sender : ParticipantId) : List P :=
  if sender = protocol.participantId then
    protocol.myCoefficients.map fun coefficient => suite.reduceBytes coefficient • suite.generator
  else
    match protocol.round1Packages[sender.value]? with
    | some package =>
      (package.commitments.mapM (suite.pointFromBytes protocol.participantId)).toOption.getD []
    | none => []

theorem KeyRefreshProtocol.Sound.own_committed (sound : protocol.Sound suite config id history)
    (started : protocol.state ≠ .notStarted) (positive : config.currentConfig.threshold ≠ 0) :
    CommittedTo suite history id id (protocol.committed suite id) ∧
    (protocol.committed suite id).length = config.currentConfig.threshold.toNat ∧
    (protocol.committed suite id).head? = some 0 ∧
    horner (id.scalar F) (protocol.committed suite id) =
      horner (id.scalar F) (protocol.myCoefficients.map suite.reduceBytes) • suite.generator := by
  obtain ⟨draws, package, member, isSender, coefficients, generated⟩ := sound.own started
  have committed : protocol.committed suite id = protocol.myCoefficients.map fun coefficient =>
      suite.reduceBytes coefficient • suite.generator := by
    rw [KeyRefreshProtocol.committed, if_pos sound.id_eq.symm]
  have lengths : ∀ coefficient ∈ protocol.myCoefficients, coefficient.length = 32 := by
    rw [coefficients]
    exact KeyRefreshProtocol.lengths_generateZeroConstantPolynomial
  rw [suite.generateCommitments_eq_ok lengths] at generated
  refine ⟨⟨package, isSender, ?_, ?_⟩, ?_, ?_, ?_⟩
  · rw [← Except.ok.inj generated, committed]
    exact suite.commits_generated id _
  · rw [if_pos rfl]
    exact ⟨draws, member⟩
  · rw [committed, List.length_map, coefficients,
      KeyRefreshProtocol.length_generateZeroConstantPolynomial positive]
  · rw [committed, coefficients, KeyRefreshProtocol.generateZeroConstantPolynomial, List.map_cons,
      List.head?_cons, Suite.zeroScalar, suite.reduce_zero, zero_smul]
  · rw [committed, ← suite.horner_smul, List.map_map]
    rfl

theorem KeyRefreshProtocol.Sound.other_committed (sound : protocol.Sound suite config id history)
    {sender : ParticipantId} (apart : sender ≠ id)
    (received : sender.value ∈ protocol.round2Packages) :
    CommittedTo suite history id sender (protocol.committed suite sender) ∧
    (protocol.committed suite sender).length ≤ config.currentConfig.threshold.toNat ∧
    (suite.scheme = config.scheme → (protocol.committed suite sender).head? = some 0) ∧
    horner (id.scalar F) (protocol.committed suite sender) =
      ((protocol.round2Packages[sender.value]?.map fun package =>
        suite.reduceBytes package.refreshShare).getD 0) • suite.generator := by
  obtain ⟨package, found⟩ := Option.isSome_iff_exists.mp
    (Std.ExtTreeMap.mem_iff_isSome_getElem?.mp received)
  obtain ⟨-, -, -, first, isFirst, verified⟩ := sound.round2 _ package found
  obtain ⟨member, isSender, -, degree, zero⟩ := sound.round1 _ first isFirst
  obtain ⟨-, points, commits, value⟩ := suite.of_verifyShare verified
  have named : first.sender = sender := by
    cases sender
    cases senderIs : first.sender
    rw [senderIs] at isSender
    exact congrArg ParticipantId.mk isSender
  have committed : protocol.committed suite sender = points := by
    have decoded : first.commitments.mapM (suite.pointFromBytes id) = .ok points := commits
    rw [KeyRefreshProtocol.committed, sound.id_eq, if_neg apart, isFirst]
    simp only [decoded]
    rfl
  rw [committed, found]
  refine ⟨⟨first, named, commits, ?_⟩, ?_, fun sameScheme => ?_, value.symm⟩
  · rw [if_neg apart]
    exact member
  · rw [Outcome.length_mapM commits]
    exact degree
  · obtain ⟨rest, isList⟩ := List.head?_eq_some_iff.mp zero
    rw [Suite.Commits, isList] at commits
    obtain ⟨point, others, isPoint, -, rfl⟩ := Outcome.mapM_cons_eq_ok.mp commits
    rw [← sameScheme, ← suite.toBytes_identity, suite.fromBytes_toBytes] at isPoint
    rw [← Except.ok.inj isPoint, List.head?_cons]

end

section

variable {F P : Type} [Field F] [AddCommGroup P] [Module F P] [DecidableEq P]

/-- A share changed by the polynomials that participants committed to. -/
def AddsCommitted (suite : Suite F P) (config : KeyRefreshConfig) (id : ParticipantId)
    (history : List RefreshEvent) (oldShare newShare : KeyShare) : Prop :=
  ∃ committed : ParticipantId → List P,
    (∀ sender ∈ config.participants,
      CommittedTo suite history id sender (committed sender) ∧
      (committed sender).head? = some 0 ∧
      (committed sender).length ≤ config.currentConfig.threshold.toNat) ∧
    (suite.reduceBytes newShare.secretShare - suite.reduceBytes oldShare.secretShare) •
      suite.generator =
        (config.participants.map fun sender => horner (id.scalar F) (committed sender)).sum

end

namespace Known

/-- Nobody vouches for a share. -/
def unvouchedCalls : List RefreshCall := [
  .round1 (constantDraws 3),
  .processRound1 ⟨⟨9⟩, [pointToBytes 0], .thresholdEcdsaP256⟩,
  .round2,
  .processRound2 ⟨⟨2⟩, ⟨1⟩, scalarToBytes 5, .thresholdEcdsaP256⟩]

end Known

end Hsm.Threshold

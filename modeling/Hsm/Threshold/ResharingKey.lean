import Hsm.Threshold.ResharingLaws

/-! When forged packages still leave the new participants with shares of the group's key. -/

namespace Hsm.Threshold

section

variable {F P : Type} [Field F] [AddCommGroup P] [Module F P] (suite : Suite F P)

def ResharingPackage.committed (package : ResharingPackage) : List P :=
  (package.commitments.mapM (suite.pointFromBytes package.newParticipant)).toOption.getD []

def ResharingPackage.point (package : ResharingPackage) : P :=
  if package.scheme = suite.scheme then
    horner (package.newParticipant.scalar F) (package.committed suite)
  else suite.reduceBytes package.share • suite.generator

theorem ResharingPackage.point_eq [DecidableEq P] {others : OtherSchemes}
    {package : ResharingPackage} (verified : package.verify suite others = .ok true) :
    package.point suite = suite.reduceBytes package.share • suite.generator := by
  unfold ResharingPackage.verify at verified
  unfold ResharingPackage.point
  split
  · rename_i same
    rw [if_pos same] at verified
    obtain ⟨-, points, commits, value⟩ := suite.of_verifyShare verified
    have decoded : package.commitments.mapM (suite.pointFromBytes package.newParticipant) =
      .ok points := commits
    rw [ResharingPackage.committed, decoded, value]
    rfl
  · rfl

variable [DecidableEq F]

def Resharing.combinedPoint (resharing : Resharing) (packages : List ResharingPackage) : P :=
  ((resharing.used packages).map fun package =>
    lagrangeWeight ((resharing.used packages).map fun other => other.oldParticipant.scalar F)
      (package.oldParticipant.scalar F) • package.point suite).sum

def Resharing.BoundTo (resharing : Resharing) (key : P) (receivers : List ParticipantId)
    (given : ParticipantId → List ResharingPackage) : Prop :=
  ∃ points : List P, points.length = resharing.config.newConfig.threshold.toNat ∧
    points.headD 0 = key ∧
    ∀ id ∈ receivers, resharing.combinedPoint suite (given id) = horner (id.scalar F) points

/-- Any new participants, as many as the threshold, interpolate the key's logarithm. -/
def Resharing.SharesLogOf (resharing : Resharing) (key : P) (receivers : List ParticipantId)
    (newShares : ParticipantId → KeyShare) : Prop :=
  (∃ coefficients : List F, coefficients.length = resharing.config.newConfig.threshold.toNat ∧
    ∀ id ∈ receivers,
      suite.reduceBytes (newShares id).secretShare = horner (id.scalar F) coefficients) ∧
  ∀ chosen : List ParticipantId, chosen.Nodup → chosen ⊆ receivers →
    resharing.config.newConfig.threshold.toNat ≤ chosen.length →
    reconstructSecret (chosen.map fun id => (id, suite.reduceBytes (newShares id).secretShare)) •
      suite.generator = key

variable {suite} {resharing : Resharing}

/-- Packages are bound to the key that their constant terms combine to. -/
theorem Resharing.boundTo_of_constants {receivers : List ParticipantId}
    {given : ParticipantId → List ResharingPackage} {key : P}
    {dealings : List (ParticipantId × List P)}
    (same : ∀ id ∈ receivers, (resharing.used (given id)).map (fun package =>
      (package.oldParticipant, package.committed suite)) = dealings)
    (addressed : ∀ id ∈ receivers, ∀ package ∈ resharing.used (given id),
      package.newParticipant = id ∧ package.scheme = suite.scheme)
    (short : ∀ dealing ∈ dealings,
      dealing.2.length ≤ resharing.config.newConfig.threshold.toNat)
    (constants : (dealings.map fun dealing =>
      lagrangeWeight (dealings.map fun other => other.1.scalar F) (dealing.1.scalar F) •
        dealing.2.headD 0).sum = key) :
    resharing.BoundTo suite key receivers given := by
  let weight := fun id : ParticipantId =>
    lagrangeWeight (dealings.map fun other => other.1.scalar F) (id.scalar F)
  have shortTerms : ∀ term ∈ dealings.map fun dealing => (weight dealing.1, dealing.2),
      term.2.length ≤ resharing.config.newConfig.threshold.toNat := by
    intro term member
    obtain ⟨dealing, isDealing, rfl⟩ := List.mem_map.mp member
    exact short dealing isDealing
  obtain ⟨total, length, constant, values⟩ := exists_horner_eq_sum shortTerms
  refine ⟨total, length, ?_, fun id member => ?_⟩
  · rw [constant, ← constants, List.map_map]
    rfl
  · rw [values, Resharing.combinedPoint, List.map_map, ← same id member, List.map_map]
    refine congrArg List.sum (List.map_congr_left fun package isUsed => ?_)
    obtain ⟨isReceiver, isScheme⟩ := addressed id member package isUsed
    rw [ResharingPackage.point, if_pos isScheme, isReceiver]
    simp only [Function.comp_apply, weight, ← same id member, List.map_map, Function.comp_def]

variable [DecidableEq P]

theorem Resharing.combinedPoint_eq {others : OtherSchemes} {id : ParticipantId}
    {packages : List ResharingPackage} {groupPublicKey : GroupPublicKey} {newShare : KeyShare}
    (received : resharing.receiveShares suite others id packages groupPublicKey = .ok newShare) :
    resharing.combinedPoint suite packages =
      suite.reduceBytes newShare.secretShare • suite.generator := by
  obtain ⟨value, -, -, checked⟩ := Resharing.of_receiveShares received
  rw [value, suite.reconstructSecret_eq, List.sum_smul, Resharing.combinedPoint]
  simp only [List.map_map, Function.comp_def, mul_smul]
  refine congrArg List.sum (List.map_congr_left fun package member => ?_)
  rw [ResharingPackage.point_eq suite (checked package member).2.2]

end

namespace Known

def packagesWith (constant : Scalar) (receiver : ParticipantId) : List ResharingPackage :=
  [resharingPackage 11 ⟨1⟩ receiver, resharingPackage constant ⟨2⟩ receiver]

end Known

end Hsm.Threshold

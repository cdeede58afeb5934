import Hsm.Threshold.RefreshGroup
import Hsm.Threshold.Resharing

/-! What new participants hold after a resharing, from honest packages and from forged ones. -/

namespace Hsm.Threshold

namespace Resharing

variable {F P : Type} [Field F] [AddCommGroup P] [Module F P] {suite : Suite F P}
  {resharing : Resharing}

section

variable [DecidableEq P] {others : OtherSchemes}

theorem of_collectShares {id : ParticipantId} {seen : List ParticipantId}
    {packages : List ResharingPackage} {shares : List (ParticipantId × Bytes)}
    (collected : resharing.collectShares suite others id seen packages = .ok shares) :
    shares = packages.map (fun package => (package.oldParticipant, package.share)) ∧
    (packages.map ResharingPackage.oldParticipant).Nodup ∧
    ∀ package ∈ packages, package.oldParticipant ∉ seen ∧ package.newParticipant = id ∧
      package.oldParticipant ∈ resharing.config.oldParticipants ∧
      package.verify suite others = .ok true := by
  induction packages generalizing seen shares with
  | nil =>
    cases collected
    simp
  | cons package rest ih =>
    simp only [collectShares, Outcome.bind_eq_ok, Outcome.require_eq_ok] at collected
    obtain ⟨_, addressed, _, isOld, _, isNew, _, verified, _, rfl, later, isLater, ⟨⟩⟩ := collected
    obtain ⟨rfl, distinct, checked⟩ := ih isLater
    refine ⟨rfl, ?_, fun other member => ?_⟩
    · refine List.nodup_cons.mpr ⟨fun again => ?_, distinct⟩
      obtain ⟨other, member, same⟩ := List.mem_map.mp again
      exact (checked other member).1 (same ▸ List.mem_cons_self)
    · rcases List.mem_cons.mp member with rfl | isRest
      · exact ⟨of_decide_eq_true isNew, of_decide_eq_true addressed, of_decide_eq_true isOld,
          verified⟩
      · obtain ⟨notSeen, rest⟩ := checked other isRest
        exact ⟨fun before => notSeen (List.mem_cons_of_mem _ before), rest⟩

end

def used (resharing : Resharing) (packages : List ResharingPackage) : List ResharingPackage :=
  packages.take resharing.config.oldConfig.threshold.toNat

section

variable [DecidableEq F]

theorem of_lagrangeInterpolate {shares : List (ParticipantId × Bytes)} {secret : Bytes}
    (interpolated : lagrangeInterpolate suite shares = .ok secret) :
    suite.reduceBytes secret =
      reconstructSecret (shares.map fun share => (share.1, suite.reduceBytes share.2)) := by
  simp only [lagrangeInterpolate, Outcome.bind_eq_ok] at interpolated
  obtain ⟨scalars, areScalars, ⟨⟩⟩ := interpolated
  rw [suite.reduce_toBytes]
  refine congrArg reconstructSecret ?_
  induction shares generalizing scalars with
  | nil =>
    cases areScalars
    rfl
  | cons share rest ih =>
    obtain ⟨first, later, isFirst, isLater, rfl⟩ := Outcome.mapM_cons_eq_ok.mp areScalars
    rw [Outcome.bind_eq_ok] at isFirst
    obtain ⟨scalar, isScalar, ⟨⟩⟩ := isFirst
    obtain ⟨-, rfl⟩ := suite.scalarFromBytes_eq_ok.mp isScalar
    rw [List.map_cons, ih later isLater]

variable [DecidableEq P] {others : OtherSchemes}

theorem of_receiveShares {id : ParticipantId} {packages : List ResharingPackage}
    {groupPublicKey : GroupPublicKey} {newShare : KeyShare}
    (received : resharing.receiveShares suite others id packages groupPublicKey = .ok newShare) :
    suite.reduceBytes newShare.secretShare =
      reconstructSecret ((resharing.used packages).map fun package =>
        (package.oldParticipant, suite.reduceBytes package.share)) ∧
    (resharing.used packages).length = resharing.config.oldConfig.threshold.toNat ∧
    ((resharing.used packages).map ResharingPackage.oldParticipant).Nodup ∧
    ∀ package ∈ resharing.used packages, package.newParticipant = id ∧
      package.oldParticipant ∈ resharing.config.oldParticipants ∧
      package.verify suite others = .ok true := by
  simp only [receiveShares, Outcome.bind_eq_ok, Outcome.require_eq_ok] at received
  obtain ⟨_, enough, shares, collected, _, -, secret, interpolated, _, -, ⟨⟩⟩ := received
  obtain ⟨rfl, distinct, checked⟩ := of_collectShares collected
  have value := of_lagrangeInterpolate interpolated
  rw [← List.map_take, List.map_map] at value
  refine ⟨value, ?_, ?_, fun package member => (checked package (List.mem_of_mem_take member)).2⟩
  · rw [used, List.length_take]
    simpa using enough
  · rw [used, List.map_take]
    exact distinct.sublist (List.take_sublist _ _)

end

def dealing (suite : Suite F P) (resharing : Resharing) (draws : CoefficientDraws)
    (oldShare : KeyShare) : List F :=
  suite.reduceBytes oldShare.secretShare ::
    (List.range (resharing.config.newConfig.threshold - 1).toNat).map fun k =>
      suite.reduceBytes (draws k).toList

theorem reduce_constantTerm {constant first : Bytes}
    (isFirst : resharing.constantTerm suite constant = .ok first) :
    suite.reduceBytes first = suite.reduceBytes constant := by
  have reduced : ∀ {first : Bytes}, (do
      let scalar ← suite.scalarFromBytes constant
      return suite.scalarToBytes scalar : Outcome Bytes) = .ok first →
      suite.reduceBytes first = suite.reduceBytes constant := by
    intro first isFirst
    rw [Outcome.bind_eq_ok] at isFirst
    obtain ⟨scalar, isScalar, ⟨⟩⟩ := isFirst
    rw [suite.reduce_toBytes, (suite.scalarFromBytes_eq_ok.mp isScalar).2]
  unfold constantTerm at isFirst
  split at isFirst
  · exact reduced isFirst
  · exact reduced isFirst
  · rw [Except.ok.inj isFirst]
  · rw [Except.ok.inj isFirst]

theorem of_generateNewShares {draws : CoefficientDraws} {oldShare : KeyShare}
    {packages : List ResharingPackage}
    (generated : resharing.generateNewShares suite draws oldShare = .ok packages) :
    ∀ package ∈ packages, package.oldParticipant = oldShare.participantId ∧
      suite.reduceBytes package.share =
        horner (package.newParticipant.scalar F) (dealing suite resharing draws oldShare) := by
  simp only [generateNewShares, Outcome.bind_eq_ok, Outcome.require_eq_ok] at generated
  obtain ⟨_, -, coefficients, areCoefficients, commitments, -, evaluated⟩ := generated
  have isDealing : coefficients.map suite.reduceBytes = dealing suite resharing draws oldShare := by
    simp only [generatePolynomialWithConstant, Outcome.bind_eq_ok] at areCoefficients
    obtain ⟨first, isFirst, ⟨⟩⟩ := areCoefficients
    rw [List.map_cons, reduce_constantTerm isFirst, List.map_map]
    rfl
  clear areCoefficients
  generalize resharing.config.newParticipants = receivers at evaluated
  induction receivers generalizing packages with
  | nil =>
    cases evaluated
    simp
  | cons receiver rest ih =>
    obtain ⟨first, later, isFirst, isLater, rfl⟩ := Outcome.mapM_cons_eq_ok.mp evaluated
    rw [Outcome.bind_eq_ok] at isFirst
    obtain ⟨share, isShare, ⟨⟩⟩ := isFirst
    intro package member
    rcases List.mem_cons.mp member with rfl | isRest
    · refine ⟨rfl, ?_⟩
      rw [suite.of_evaluatePolynomial isShare, suite.reduce_toBytes, isDealing]
    · exact ih isLater package isRest

theorem length_dealing {draws : CoefficientDraws} {oldShare : KeyShare}
    (positive : resharing.config.newConfig.threshold ≠ 0) :
    (dealing suite resharing draws oldShare).length =
      resharing.config.newConfig.threshold.toNat := by
  rw [dealing, List.length_cons, List.length_map, List.length_range,
    degree_add_one positive]

end Resharing

/-- Resharing keeps the secret, if packages of the same old participants are combined. -/
theorem resharing_keeps_secret {F P : Type} [Field F] [DecidableEq F] [AddCommGroup P] [Module F P]
    [DecidableEq P] (suite : Suite F P) (others : OtherSchemes) {resharing : Resharing}
    {dealers chosen : List ParticipantId} {draws : ParticipantId → CoefficientDraws}
    {oldShares newShares : ParticipantId → KeyShare}
    {dealt given : ParticipantId → List ResharingPackage} {groupPublicKey : GroupPublicKey}
    {coefficients : List F} {secret : F}
    (degree : coefficients.length = resharing.config.oldConfig.threshold.toNat)
    (isSecret : coefficients.head? = some secret)
    (positive : resharing.config.newConfig.threshold ≠ 0)
    (shared : ∀ id ∈ dealers, (oldShares id).participantId = id ∧
      suite.reduceBytes (oldShares id).secretShare = horner (id.scalar F) coefficients)
    (generated : ∀ id ∈ dealers,
      resharing.generateNewShares suite (draws id) (oldShares id) = .ok (dealt id))
    (delivered : ∀ id ∈ chosen, ∀ package ∈ given id, ∃ dealer ∈ dealers, package ∈ dealt dealer)
    (received : ∀ id ∈ chosen,
      resharing.receiveShares suite others id (given id) groupPublicKey = .ok (newShares id))
    (same : ∀ first ∈ chosen, ∀ second ∈ chosen,
      ((resharing.used (given first)).map ResharingPackage.oldParticipant).Perm
        ((resharing.used (given second)).map ResharingPackage.oldParticipant))
    (distinct : chosen.Nodup)
    (enough : resharing.config.newConfig.threshold.toNat ≤ chosen.length) :
    reconstructSecret
      (chosen.map fun id => (id, suite.reduceBytes (newShares id).secretShare)) = secret := by
  -- There is a new participant, and all of them combine packages of the same old ones.
  obtain ⟨first, isFirst⟩ : ∃ first, first ∈ chosen := by
    refine List.exists_mem_of_length_pos (lt_of_lt_of_le (Nat.pos_of_ne_zero fun zero => ?_) enough)
    exact positive (UInt16.toNat_inj.mp zero)
  let ids := (resharing.used (given first)).map ResharingPackage.oldParticipant
  let points := ids.map (ParticipantId.scalar F)
  let polynomial := fun id => Resharing.dealing suite resharing (draws id) (oldShares id)
  obtain ⟨-, count, isNodup, -⟩ := Resharing.of_receiveShares (received first isFirst)
  have fromDealer : ∀ id ∈ chosen, ∀ package ∈ given id, package.oldParticipant ∈ dealers ∧
      suite.reduceBytes package.share =
        horner (package.newParticipant.scalar F) (polynomial package.oldParticipant) := by
    intro id isChosen package member
    obtain ⟨dealer, isDealer, isDealt⟩ := delivered id isChosen package member
    obtain ⟨isOld, value⟩ :=
      Resharing.of_generateNewShares (generated dealer isDealer) package isDealt
    rw [(shared dealer isDealer).1] at isOld
    rw [isOld]
    exact ⟨isDealer, value⟩
  -- So their shares are values of one polynomial.
  have short : ∀ term ∈ ids.map fun id => (lagrangeWeight points (id.scalar F), polynomial id),
      term.2.length ≤ resharing.config.newConfig.threshold.toNat := by
    intro term member
    obtain ⟨id, -, rfl⟩ := List.mem_map.mp member
    exact (Resharing.length_dealing positive).le
  obtain ⟨total, length, constant, values⟩ := exists_horner_eq_sum short
  have newValues : ∀ id ∈ chosen,
      suite.reduceBytes (newShares id).secretShare = horner (id.scalar F) total := by
    intro id isChosen
    obtain ⟨value, -, -, checked⟩ := Resharing.of_receiveShares (received id isChosen)
    have onPolynomials : (resharing.used (given id)).map (fun package =>
        (package.oldParticipant, suite.reduceBytes package.share)) =
        ((resharing.used (given id)).map ResharingPackage.oldParticipant).map fun dealer =>
          (dealer, horner (id.scalar F) (polynomial dealer)) := by
      rw [List.map_map]
      refine List.map_congr_left fun package member => ?_
      rw [(fromDealer id isChosen package (List.mem_of_mem_take member)).2,
        (checked package member).1]
      rfl
    rw [value, onPolynomials,
      suite.reconstructSecret_perm ((same id isChosen first isFirst).map _),
      suite.reconstructSecret_eq, values]
    simp only [List.map_map, Function.comp_def, smul_eq_mul, points, ids]
  -- Its constant term interpolates the old shares.
  have isConstant : total.headD 0 = secret := by
    have points_nodup : points.Nodup := isNodup.map suite.scalar_injective
    have oldValues : ∀ id ∈ ids, (polynomial id).headD 0 = horner (id.scalar F) coefficients := by
      intro id member
      obtain ⟨package, isUsed, rfl⟩ := List.mem_map.mp member
      have isDealer := (fromDealer first isFirst package (List.mem_of_mem_take isUsed)).1
      exact (shared _ isDealer).2
    have atZero : (ids.map fun id =>
        lagrangeWeight points (id.scalar F) • horner (id.scalar F) coefficients).sum =
        coefficients.headD 0 := by
      rw [← sum_lagrangeWeight_horner points_nodup (by
        rw [degree, List.length_map, List.length_map, count])]
      simp only [points, List.map_map, Function.comp_def]
    rw [List.headD_eq_head?_getD, isSecret, Option.getD_some] at atZero
    rw [constant, ← atZero]
    simp only [List.map_map, Function.comp_def]
    exact congrArg List.sum (List.map_congr_left fun id member => by rw [oldValues id member])
  rw [suite.reconstructSecret_horner newValues distinct (length.trans_le enough), isConstant]

namespace Known

def resharing : Resharing where
  config := {
    scheme := .thresholdEcdsaP256
    oldConfig := ⟨2, 3⟩
    newConfig := twoOfTwo
    oldParticipants := [⟨1⟩, ⟨2⟩, ⟨3⟩]
    newParticipants := [⟨1⟩, ⟨2⟩] }

def slope (dealer : ParticipantId) : Scalar :=
  if dealer = ⟨1⟩ then 1 else if dealer = ⟨2⟩ then 2 else 5

def resharingPackage (constant : Scalar) (dealer receiver : ParticipantId) : ResharingPackage where
  oldParticipant := dealer
  newParticipant := receiver
  share := scalarToBytes (constant + slope dealer * receiver.scalar Scalar)
  commitments := [pointToBytes constant, pointToBytes (slope dealer)]
  scheme := .thresholdEcdsaP256

def dealtPackage (dealer receiver : ParticipantId) : ResharingPackage :=
  resharingPackage (7 + 4 * dealer.scalar Scalar) dealer receiver

theorem resharing_generates : ∀ id ∈ resharing.config.oldParticipants,
    resharing.generateNewShares suite (constantDraws (slope id)) (lineShare 7 4 id) =
      .ok (resharing.config.newParticipants.map (dealtPackage id)) := by
  decide +kernel

def resharedShare (id : ParticipantId) (secret : Scalar) : KeyShare :=
  ⟨id, twoOfTwo, scalarToBytes secret, pointToBytes secret⟩

def noOthers : OtherSchemes := fun _ _ _ _ => .ok false

def keyOfSeven : GroupPublicKey := ⟨pointToBytes 7, twoOfTwo⟩

end Known

theorem resharing_subsets_disagree :
    (∀ id ∈ Known.resharing.config.oldParticipants,
      Known.resharing.generateNewShares Known.suite (Known.constantDraws (Known.slope id))
        (Known.lineShare 7 4 id) =
        .ok (Known.resharing.config.newParticipants.map (Known.dealtPackage id))) ∧
    Known.resharing.receiveShares Known.suite Known.noOthers ⟨1⟩
      [Known.dealtPackage ⟨1⟩ ⟨1⟩, Known.dealtPackage ⟨2⟩ ⟨1⟩] Known.keyOfSeven =
      .ok (Known.resharedShare ⟨1⟩ 7) ∧
    Known.resharing.receiveShares Known.suite Known.noOthers ⟨2⟩
      [Known.dealtPackage ⟨1⟩ ⟨2⟩, Known.dealtPackage ⟨3⟩ ⟨2⟩] Known.keyOfSeven =
      .ok (Known.resharedShare ⟨2⟩ 5) ∧
    reconstructSecret ([⟨1⟩, ⟨2⟩].map fun id =>
      (id, Known.suite.reduceBytes (Known.lineShare 7 4 id).secretShare)) = 7 ∧
    reconstructSecret [(⟨1⟩, Known.suite.reduceBytes (Known.resharedShare ⟨1⟩ 7).secretShare),
      (⟨2⟩, Known.suite.reduceBytes (Known.resharedShare ⟨2⟩ 5).secretShare)] = 9 := by
  refine ⟨Known.resharing_generates, ?_, ?_, ?_, ?_⟩
  all_goals decide +kernel

namespace Known

def givenPackages (receiver : ParticipantId) : List ResharingPackage :=
  if receiver = ⟨1⟩ then [dealtPackage ⟨1⟩ ⟨1⟩, dealtPackage ⟨2⟩ ⟨1⟩]
  else [dealtPackage ⟨2⟩ ⟨2⟩, dealtPackage ⟨1⟩ ⟨2⟩, dealtPackage ⟨3⟩ ⟨2⟩]

end Known

theorem resharing_keeps_secret_seven :
    (∀ id ∈ Known.resharing.config.newParticipants,
      Known.resharing.receiveShares Known.suite Known.noOthers id (Known.givenPackages id)
        Known.keyOfSeven = .ok (Known.resharedShare id 7)) ∧
    reconstructSecret (Known.resharing.config.newParticipants.map fun id =>
      (id, Known.suite.reduceBytes (Known.resharedShare id 7).secretShare)) = 7 := by
  have received : ∀ id ∈ Known.resharing.config.newParticipants,
      Known.resharing.receiveShares Known.suite Known.noOthers id (Known.givenPackages id)
        Known.keyOfSeven = .ok (Known.resharedShare id 7) := by
    decide +kernel
  have shared : ∀ id ∈ Known.resharing.config.oldParticipants,
      (Known.lineShare 7 4 id).participantId = id ∧
      Known.suite.reduceBytes (Known.lineShare 7 4 id).secretShare =
        horner (id.scalar Known.Scalar) [7, 4] := by
    decide +kernel
  refine ⟨received, resharing_keeps_secret Known.suite Known.noOthers rfl rfl (by decide) shared
    Known.resharing_generates ?_ received ?_ (by decide) (by decide)⟩
  · decide +kernel
  · decide +kernel

end Hsm.Threshold

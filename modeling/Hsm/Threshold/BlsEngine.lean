import Hsm.Threshold.BlsDkgLaws

/-! The threshold BLS signing engine: shares of signatures are combined into one signature. -/

namespace Hsm.Threshold

/-- Signatures are in a group of their own, with the same scalars. -/
structure BlsSuite (F P S : Type) [Field F] [AddCommGroup P] [Module F P] [AddCommGroup S]
    [Module F S] extends Suite F P where
  hashMessage : Bytes → S
  secretKeyFromBytes : Bytes → Option F
  signatureToBytes : S → Bytes
  signatureFromBytes : Bytes → Option S
  secretKey_toBytes : ∀ scalar, scalar ≠ 0 →
    secretKeyFromBytes (scalarToBytes scalar) = some scalar
  secretKey_zero : secretKeyFromBytes (scalarToBytes 0) = none
  signature_toBytes : ∀ signature, signatureFromBytes (signatureToBytes signature) = some signature

def ParticipantId.new (id : UInt16) : Outcome ParticipantId := do
  .require (id ≠ 0) (.invalidParticipant "Participant ID must be non-zero")
  return ⟨id⟩

structure BlsSignatureShare where
  participantId : ParticipantId
  share : Bytes
  deriving DecidableEq, Repr

structure BlsThresholdSignature where
  bytes : Bytes
  deriving DecidableEq, Repr

namespace ThresholdBlsEngine

def lagrangeCoefficient (F : Type) [Field F] (participant : ParticipantId)
    (participants : List ParticipantId) : F :=
  let products := participants.foldl (fun products other =>
    if other = participant then products
    else (products.1 * other.scalar F, products.2 * (other.scalar F - participant.scalar F))) (1, 1)
  products.1 * products.2⁻¹

variable {F P S : Type} [Field F] [AddCommGroup P] [Module F P] [AddCommGroup S] [Module F S]
  (suite : BlsSuite F P S)

def splitSecretShamir (master : F) (draws : CoefficientDraws) (threshold total : UInt16) :
    Outcome (List Bytes) :=
  let coefficients := suite.scalarToBytes master ::
    (List.range (threshold.toNat - 1)).map fun k => (draws k).toList
  (List.range total.toNat).mapM fun i =>
    BlsDkg.evaluatePolynomial suite.toSuite coefficients ⟨.ofNat (i + 1)⟩

def dealtShare (config : ThresholdConfig) (groupKey : Bytes) (secretShare : Bytes × Nat) :
    Outcome BlsKeyShare := do
  let participantId ← ParticipantId.new (.ofNat (secretShare.2 + 1))
  match suite.secretKeyFromBytes secretShare.1 with
  | none => .fail .invalidKeyShare
  | some secret => return ⟨participantId, config, secretShare.1,
      suite.pointToBytes (suite.scalarToPoint secret), groupKey⟩

def trustedDealerKeygen (config : ThresholdConfig) (master : F) (draws : CoefficientDraws) :
    Outcome (GroupPublicKey × List BlsKeyShare) := do
  let groupKey := suite.pointToBytes (suite.scalarToPoint master)
  let secretShares ← splitSecretShamir suite master draws config.threshold config.totalParticipants
  let keyShares ← secretShares.zipIdx.mapM (dealtShare suite config groupKey)
  return (⟨groupKey, config⟩, keyShares)

def signShare (keyShare : BlsKeyShare) (message : Bytes) : Outcome BlsSignatureShare :=
  match suite.secretKeyFromBytes keyShare.secretShare with
  | none => .fail .invalidKeyShare
  | some secret =>
    .ok ⟨keyShare.participantId, suite.signatureToBytes (secret • suite.hashMessage message)⟩

def signature (share : BlsSignatureShare) : Outcome S :=
  match suite.signatureFromBytes share.share with
  | none => .fail .invalidSignature
  | some signature => .ok signature

def lagrangeInterpolateSignatures (signatures : List S) (participants : List ParticipantId) :
    Outcome S := do
  .require (signatures ≠ []) (.aggregationFailed "No signatures to aggregate")
  let result := (signatures.zip participants).foldl (fun result share =>
    result + lagrangeCoefficient F share.2 participants • share.1) (0 : S)
  match suite.signatureFromBytes (suite.signatureToBytes result) with
  | none => .fail (.aggregationFailed "Failed to create signature from aggregated point")
  | some signature => return signature

def aggregate (shares : List BlsSignatureShare) (participants : List ParticipantId)
    (threshold : UInt16) : Outcome BlsThresholdSignature := do
  let required := max threshold.toNat 2
  .require (!(shares.length < required))
    (.insufficientParticipants required (shares.length % 65536))
  .require (shares.length = participants.length)
    (.invalidParticipant "Number of shares must match number of participants")
  let signatures ← shares.mapM (signature suite)
  let aggregated ← lagrangeInterpolateSignatures suite signatures participants
  return ⟨suite.signatureToBytes aggregated⟩

end ThresholdBlsEngine

def BlsKeyShare.HoldsOne (keyShare : BlsKeyShare) (secretShares : List Bytes) : Prop :=
  ∃ i, keyShare.participantId = ⟨.ofNat (i + 1)⟩ ∧ secretShares[i]? = some keyShare.secretShare

namespace ThresholdBlsEngine

variable {F P S : Type} [Field F] [AddCommGroup P] [Module F P] [AddCommGroup S] [Module F S]

theorem lagrangeCoefficient_eq [DecidableEq F] (suite : Suite F P) (participant : ParticipantId)
    (participants : List ParticipantId) :
    lagrangeCoefficient F participant participants =
      lagrangeWeight (participants.map (ParticipantId.scalar F)) (participant.scalar F) := by
  -- Both products are collected at once, over the scalars of the other participants.
  have general : ∀ numerator denominator : F,
      (participants.foldl (fun products other =>
        if other = participant then products
        else (products.1 * other.scalar F, products.2 * (other.scalar F - participant.scalar F)))
        (numerator, denominator)) =
      (numerator *
        ((participants.map (ParticipantId.scalar F)).filter (· ≠ participant.scalar F)).prod,
      denominator *
        (((participants.map (ParticipantId.scalar F)).filter (· ≠ participant.scalar F)).map
          fun x => x - participant.scalar F).prod) := by
    induction participants with
    | nil => simp
    | cons other rest ih =>
      intro numerator denominator
      by_cases same : other = participant
      · simp only [List.foldl_cons, same, if_true, ih, List.map_cons, ne_eq, not_true_eq_false,
          decide_false, Bool.false_eq_true, not_false_eq_true, List.filter_cons_of_neg]
      · have apart : other.scalar F ≠ participant.scalar F := fun equal =>
          same (suite.scalar_injective equal)
        simp only [List.foldl_cons, same, if_false, ih, List.map_cons, ne_eq, apart,
          not_false_eq_true, decide_true, List.filter_cons_of_pos, List.prod_cons, mul_assoc]
  -- The quotient of the products is the product of the quotients.
  rw [lagrangeCoefficient, general, one_mul, one_mul, lagrangeWeight, List.prod_map_mul,
    List.map_id', List.prod_inv, List.map_map]
  rfl

variable (suite : BlsSuite F P S)

def splitPolynomial (master : F) (draws : CoefficientDraws) (threshold : UInt16) : List F :=
  master :: (List.range (threshold.toNat - 1)).map fun k => suite.reduceBytes (draws k).toList

theorem splitSecretShamir_eq_ok (master : F) (draws : CoefficientDraws)
    (threshold total : UInt16) :
    splitSecretShamir suite master draws threshold total =
      .ok ((List.range total.toNat).map fun i => suite.scalarToBytes
        (horner (ParticipantId.scalar F ⟨.ofNat (i + 1)⟩)
          (splitPolynomial suite master draws threshold))) := by
  refine Outcome.mapM_eq_ok fun i _ => ?_
  have lengths : ∀ coefficient ∈ suite.scalarToBytes master ::
      (List.range (threshold.toNat - 1)).map (fun k => (draws k).toList),
      coefficient.length = 32 := by
    intro coefficient member
    rcases List.mem_cons.mp member with rfl | drawn
    · exact suite.length_scalarToBytes master
    · obtain ⟨k, -, rfl⟩ := List.mem_map.mp drawn
      simp
  simp only [BlsDkg.evaluatePolynomial, Outcome.bind_eq_ok]
  refine ⟨(), by simp [Outcome.require], ?_⟩
  rw [suite.evaluatePolynomial_eq_ok (List.cons_ne_nil _ _) lengths, splitPolynomial]
  simp only [List.map_cons, suite.reduce_toBytes, List.map_map, Function.comp_def]

theorem of_signShare {keyShare : BlsKeyShare} {message : Bytes} {share : BlsSignatureShare}
    {secret : F} (holds : keyShare.secretShare = suite.scalarToBytes secret)
    (signed : signShare suite keyShare message = .ok share) :
    signature suite share = .ok (secret • suite.hashMessage message) := by
  by_cases zero : secret = 0
  · rw [signShare, holds, zero, suite.secretKey_zero] at signed
    cases signed
  · rw [signShare, holds, suite.secretKey_toBytes secret zero] at signed
    cases signed
    rw [signature, suite.signature_toBytes]

theorem lagrangeInterpolateSignatures_eq_ok [DecidableEq F] {participants : List ParticipantId}
    (given : participants ≠ []) (value : ParticipantId → S) :
    lagrangeInterpolateSignatures suite (participants.map value) participants =
      .ok (participants.map fun id => lagrangeWeight (participants.map (ParticipantId.scalar F))
        (id.scalar F) • value id).sum := by
  have general : ∀ (ids : List ParticipantId) (start : S),
      ((ids.map value).zip ids).foldl (fun result share =>
        result + lagrangeCoefficient F share.2 participants • share.1) start =
      start + (ids.map fun id => lagrangeWeight (participants.map (ParticipantId.scalar F))
        (id.scalar F) • value id).sum := by
    intro ids
    induction ids with
    | nil => simp
    | cons id rest ih =>
      intro start
      rw [List.map_cons, List.zip_cons_cons, List.foldl_cons, ih,
        lagrangeCoefficient_eq suite.toSuite, List.map_cons, List.sum_cons, add_assoc]
  simp only [lagrangeInterpolateSignatures, Outcome.bind_eq_ok]
  refine ⟨(), by simp [Outcome.require, given], ?_⟩
  rw [general, zero_add, suite.signature_toBytes]
  rfl

theorem mapM_signature {secret : ParticipantId → F} {chosen : List BlsKeyShare}
    (holds : ∀ keyShare ∈ chosen,
      keyShare.secretShare = suite.scalarToBytes (secret keyShare.participantId))
    {message : Bytes} {shares : List BlsSignatureShare}
    (signed : chosen.mapM (signShare suite · message) = .ok shares) :
    shares.mapM (signature suite) = .ok ((chosen.map BlsKeyShare.participantId).map
      fun id => secret id • suite.hashMessage message) := by
  induction chosen generalizing shares with
  | nil =>
    cases signed
    rfl
  | cons keyShare rest ih =>
    obtain ⟨share, others, isShare, areOthers, rfl⟩ := Outcome.mapM_cons_eq_ok.mp signed
    exact Outcome.mapM_cons_eq_ok.mpr ⟨_, _,
      of_signShare suite (holds keyShare List.mem_cons_self) isShare,
      ih (fun other member => holds other (List.mem_cons_of_mem _ member)) areOthers, rfl⟩

theorem secretShare_of_holdsOne (value : ParticipantId → Bytes) {total : Nat}
    {keyShare : BlsKeyShare}
    (holds : keyShare.HoldsOne ((List.range total).map fun i => value ⟨.ofNat (i + 1)⟩)) :
    keyShare.secretShare = value keyShare.participantId := by
  obtain ⟨i, isParticipant, isShare⟩ := holds
  rw [List.getElem?_map, Option.map_eq_some_iff] at isShare
  obtain ⟨j, isIndex, isShare⟩ := isShare
  obtain ⟨_, sameIndex⟩ := List.getElem?_eq_some_iff.mp isIndex
  rw [← isShare, isParticipant, ← sameIndex, List.getElem_range]

theorem aggregate_eq_ok {polynomial : List F} {threshold : UInt16} {chosen : List BlsKeyShare}
    (holds : ∀ keyShare ∈ chosen, keyShare.secretShare =
      suite.scalarToBytes (horner (keyShare.participantId.scalar F) polynomial))
    (distinct : (chosen.map BlsKeyShare.participantId).Nodup)
    (enough : max threshold.toNat 2 ≤ chosen.length) (short : polynomial.length ≤ chosen.length)
    {message : Bytes} {shares : List BlsSignatureShare}
    (signed : chosen.mapM (signShare suite · message) = .ok shares) :
    aggregate suite shares (chosen.map BlsKeyShare.participantId) threshold =
      .ok ⟨suite.signatureToBytes (polynomial.headD 0 • suite.hashMessage message)⟩ := by
  classical
  have length : shares.length = chosen.length := Outcome.length_mapM signed
  have given : chosen.map BlsKeyShare.participantId ≠ [] := by
    rintro empty
    have none := congrArg List.length empty
    simp only [List.length_map, List.length_nil] at none
    omega
  -- The weights are applied to scalars, and only the sum is a multiple of the message.
  have points : ((chosen.map BlsKeyShare.participantId).map (ParticipantId.scalar F)).Nodup :=
    distinct.map suite.scalar_injective
  have interpolated := sum_lagrangeWeight_horner points (by simpa using short)
  simp only [aggregate, Outcome.bind_eq_ok, Outcome.require_eq_ok]
  refine ⟨(), by simpa [length, Nat.succ_le_iff] using enough, (), by simp [length], _,
    mapM_signature suite holds signed, _,
    lagrangeInterpolateSignatures_eq_ok suite given
      (fun id => horner (id.scalar F) polynomial • suite.hashMessage message), ?_⟩
  rw [← interpolated, List.sum_smul]
  simp only [List.map_map, Function.comp_def, smul_eq_mul, mul_smul]
  rfl

end ThresholdBlsEngine

/-- Enough signature shares, at least two, give the signature of the master secret. -/
theorem bls_aggregate_complete {F P S : Type} [Field F] [AddCommGroup P] [Module F P]
    [AddCommGroup S] [Module F S] (suite : BlsSuite F P S) {threshold total : UInt16}
    {config : ThresholdConfig} (accepted : ThresholdConfig.new threshold total = .ok config)
    (master : F) (draws : CoefficientDraws) :
    ∃ secretShares,
      ThresholdBlsEngine.splitSecretShamir suite master draws threshold total = .ok secretShares ∧
      ∀ (chosen : List BlsKeyShare) (message : Bytes) (shares : List BlsSignatureShare),
        (∀ keyShare ∈ chosen, keyShare.HoldsOne secretShares) →
        (chosen.map BlsKeyShare.participantId).Nodup →
        chosen.mapM (ThresholdBlsEngine.signShare suite · message) = .ok shares →
        max threshold.toNat 2 ≤ shares.length →
        ThresholdBlsEngine.aggregate suite shares (chosen.map BlsKeyShare.participantId)
            threshold =
          .ok ⟨suite.signatureToBytes (master • suite.hashMessage message)⟩ := by
  have positive := ThresholdConfig.of_new accepted
  refine ⟨_, ThresholdBlsEngine.splitSecretShamir_eq_ok suite master draws threshold total, ?_⟩
  intro chosen message shares holds distinct signed enough
  rw [Outcome.length_mapM signed] at enough
  have values : ∀ keyShare ∈ chosen, keyShare.secretShare = suite.scalarToBytes
      (horner (keyShare.participantId.scalar F)
        (ThresholdBlsEngine.splitPolynomial suite master draws threshold)) := by
    intro keyShare member
    exact ThresholdBlsEngine.secretShare_of_holdsOne (fun id => suite.scalarToBytes
      (horner (id.scalar F) (ThresholdBlsEngine.splitPolynomial suite master draws threshold)))
      (holds keyShare member)
  refine ThresholdBlsEngine.aggregate_eq_ok suite values distinct enough ?_ signed
  have nonzero : threshold.toNat ≠ 0 := fun zero => positive (UInt16.toNat_inj.mp zero)
  simp only [ThresholdBlsEngine.splitPolynomial, List.length_cons, List.length_map,
    List.length_range]
  omega

namespace Known

def secretKeyFromBytes (bytes : Bytes) : Option Scalar :=
  if reduceBytes bytes ≠ 0 ∧ scalarToBytes (reduceBytes bytes) = bytes then some (reduceBytes bytes)
  else none

def blsEngine : BlsSuite Scalar Scalar Scalar :=
  { blsSuite with
    hashMessage := reduceBytes
    secretKeyFromBytes := secretKeyFromBytes
    signatureToBytes := fun signature => List.replicate 64 0 ++ scalarToBytes signature
    signatureFromBytes := fun bytes =>
      if bytes.length = 96 then some (reduceBytes (bytes.drop 64)) else none
    secretKey_toBytes := by
      intro scalar nonzero
      have canonical : reduceBytes (scalarToBytes scalar) = scalar := suite.reduce_toBytes scalar
      change secretKeyFromBytes (scalarToBytes scalar) = some scalar
      simp [secretKeyFromBytes, canonical, nonzero]
    secretKey_zero := by
      have canonical : reduceBytes (scalarToBytes 0) = 0 := suite.reduce_toBytes 0
      change secretKeyFromBytes (scalarToBytes 0) = none
      simp [secretKeyFromBytes, canonical]
    signature_toBytes := by
      intro signature
      have length : (List.replicate 64 0 ++ scalarToBytes signature).length = 96 := rfl
      rw [if_pos length, List.drop_left' (by rfl)]
      exact congrArg some (suite.reduce_toBytes signature) }

def engineShare (config : ThresholdConfig) (id : UInt16) (secret : Scalar) : BlsKeyShare :=
  ⟨⟨id⟩, config, scalarToBytes secret, blsPointToBytes secret, blsPointToBytes 5⟩

def engineSignature (id : UInt16) (secret : Scalar) : BlsSignatureShare :=
  ⟨⟨id⟩, List.replicate 64 0 ++ scalarToBytes (secret * 7)⟩

end Known

theorem single_share_refused :
    ThresholdConfig.new 1 2 = .ok ⟨1, 2⟩ ∧
    ThresholdBlsEngine.trustedDealerKeygen Known.blsEngine ⟨1, 2⟩ 5 (Known.constantDraws 3) =
      .ok (⟨Known.blsPointToBytes 5, ⟨1, 2⟩⟩,
        [Known.engineShare ⟨1, 2⟩ 1 5, Known.engineShare ⟨1, 2⟩ 2 5]) ∧
    ThresholdBlsEngine.signShare Known.blsEngine (Known.engineShare ⟨1, 2⟩ 1 5) [7] =
      .ok (Known.engineSignature 1 5) ∧
    ThresholdBlsEngine.aggregate Known.blsEngine [Known.engineSignature 1 5] [⟨1⟩] 1 =
      .fail (.insufficientParticipants 2 1) := by
  refine ⟨by decide, by decide +kernel, by decide +kernel, by decide +kernel⟩

theorem bls_aggregate_complete_two :
    ThresholdBlsEngine.aggregate Known.blsEngine
        [Known.engineSignature 2 11, Known.engineSignature 1 8] [⟨2⟩, ⟨1⟩] 2 =
      .ok ⟨Known.blsEngine.signatureToBytes
        ((5 : Known.Scalar) • Known.blsEngine.hashMessage [7])⟩ := by
  obtain ⟨secretShares, split, complete⟩ := bls_aggregate_complete Known.blsEngine
    (show ThresholdConfig.new 2 2 = .ok ⟨2, 2⟩ by decide) 5 (Known.constantDraws 3)
  have isSplit : ThresholdBlsEngine.splitSecretShamir Known.blsEngine 5 (Known.constantDraws 3)
      2 2 = .ok [Known.scalarToBytes 8, Known.scalarToBytes 11] := by decide +kernel
  obtain rfl := Except.ok.inj (isSplit.symm.trans split)
  refine complete [Known.engineShare ⟨2, 2⟩ 2 11, Known.engineShare ⟨2, 2⟩ 1 8] [7] _ ?_
    (by decide) ?_ (by decide)
  · intro keyShare member
    simp only [List.mem_cons, List.not_mem_nil, or_false] at member
    rcases member with rfl | rfl
    · exact ⟨1, rfl, rfl⟩
    · exact ⟨0, rfl, rfl⟩
  · decide +kernel

end Hsm.Threshold

import Hsm.Threshold.Feldman
import Hsm.Threshold.Refresh

/-! What finalizing a key refresh gives: a new secret share, and the old public share. -/

namespace Hsm.Threshold

namespace KeyRefreshProtocol

theorem length_generateZeroConstantPolynomial {draws : CoefficientDraws} {threshold : UInt16}
    (positive : threshold ≠ 0) :
    (generateZeroConstantPolynomial draws (threshold - 1)).length = threshold.toNat := by
  rw [generateZeroConstantPolynomial, List.length_cons, List.length_map, List.length_range,
    degree_add_one positive]

theorem lengths_generateZeroConstantPolynomial {draws : CoefficientDraws} {degree : UInt16} :
    ∀ coefficient ∈ generateZeroConstantPolynomial draws degree,
      coefficient.length = 32 := by
  intro coefficient member
  rcases List.mem_cons.mp member with rfl | drawn
  · rfl
  · obtain ⟨k, -, rfl⟩ := List.mem_map.mp drawn
    simp

variable {F P : Type} [Field F] [AddCommGroup P] [Module F P] (suite : Suite F P)

variable (protocol : KeyRefreshProtocol)

def contribution : F :=
  horner (protocol.participantId.scalar F) (protocol.myCoefficients.map suite.reduceBytes) +
    (protocol.round2Packages.items.map fun package =>
      suite.reduceBytes package.refreshShare).sum

theorem reduce_addRefreshShares {packages : List RefreshRound2Package} {secret result : Bytes}
    (added : addRefreshShares suite secret packages = .ok result) :
    suite.reduceBytes result = suite.reduceBytes secret +
      (packages.map fun package => suite.reduceBytes package.refreshShare).sum := by
  induction packages generalizing secret with
  | nil =>
    cases added
    simp
  | cons package rest ih =>
    rw [addRefreshShares, Outcome.bind_eq_ok] at added
    obtain ⟨next, isNext, later⟩ := added
    obtain ⟨-, -, rfl⟩ := suite.addScalars_eq_ok.mp isNext
    rw [ih later, suite.reduce_toBytes, List.map_cons, List.sum_cons, add_assoc]

theorem of_finalize {protocol next : KeyRefreshProtocol} {oldShare newShare : KeyShare}
    (finalized : protocol.finalize suite oldShare = .ok (next, newShare)) :
    newShare.publicKeyShare = oldShare.publicKeyShare ∧
    suite.reduceBytes newShare.secretShare =
      suite.reduceBytes oldShare.secretShare + protocol.contribution suite ∧
    protocol.state = .round2Complete ∧
    protocol.config.participants.length ≤ protocol.round2Packages.size + 1 := by
  simp only [finalize, Outcome.bind_eq_ok, Outcome.require_eq_ok] at finalized
  obtain ⟨_, ready, _, enough, own, isOwn, secret, isSecret, newSecret, added, ⟨⟩⟩ := finalized
  obtain ⟨-, -, rfl⟩ := suite.addScalars_eq_ok.mp isSecret
  have ownValue := suite.of_evaluatePolynomial isOwn
  refine ⟨rfl, ?_, by simpa using ready, by simpa using enough⟩
  rw [reduce_addRefreshShares suite added, suite.reduce_toBytes, ownValue, suite.reduce_toBytes,
    contribution, add_assoc]

variable [DecidableEq P]

inductive Step (protocol : KeyRefreshProtocol) :
    RefreshCall → KeyRefreshProtocol × RefreshReply → Prop where
  | failed (call : RefreshCall) (failure : Failure) : Step protocol call (protocol, .failed failure)
  | round1 {draws : CoefficientDraws} {coefficients commitments : List Bytes}
    (ready : protocol.state = .notStarted)
    (drawn : coefficients =
      generateZeroConstantPolynomial draws (protocol.config.currentConfig.threshold - 1))
    (generated : suite.generateCommitments coefficients = .ok commitments) :
    Step protocol (.round1 draws)
      ({ protocol with myCoefficients := coefficients, state := .round1Complete },
        .round1 ⟨protocol.participantId, commitments, protocol.config.scheme⟩)
  | processRound1 {package : RefreshRound1Package}
    (zero : package.commitments.head? = some package.scheme.identityPoint) :
    Step protocol (.processRound1 package)
      ({ protocol with
        round1Packages := protocol.round1Packages.insert package.sender.value package }, .processed)
  | round2 {packages : List RefreshRound2Package} (ready : protocol.state = .round1Complete)
    (evaluated : (protocol.config.participants.mapM fun receiver => do
      let refreshShare ← suite.evaluatePolynomial protocol.myCoefficients receiver
      return RefreshRound2Package.mk protocol.participantId receiver refreshShare
        protocol.config.scheme) = .ok packages) :
    Step protocol .round2 ({ protocol with state := .round2Complete }, .round2 packages)
  | processRound2 {package : RefreshRound2Package}
    (addressed : package.receiver = protocol.participantId)
    (verified : protocol.verifyRefreshShare suite package = .ok ()) :
    Step protocol (.processRound2 package)
      ({ protocol with
        round2Packages := protocol.round2Packages.insert package.sender.value package }, .processed)
  | finalize {oldShare newShare : KeyShare} (ready : protocol.state = .round2Complete)
    (finalized : protocol.finalize suite oldShare =
      .ok ({ protocol with state := .complete }, newShare)) :
    Step protocol (.finalize oldShare) ({ protocol with state := .complete }, .finalized newShare)

theorem answer_step (call : RefreshCall) :
    Step suite protocol call (protocol.answer suite call) := by
  cases call with
  | round1 draws =>
    rw [answer]
    cases ran : protocol.round1 suite draws with
    | error failure => exact .failed _ failure
    | ok result =>
      simp only [KeyRefreshProtocol.round1, Outcome.bind_eq_ok, Outcome.require_eq_ok] at ran
      obtain ⟨_, ready, commitments, generated, ⟨⟩⟩ := ran
      exact .round1 (of_decide_eq_true ready) rfl generated
  | processRound1 package =>
    rw [answer]
    cases ran : protocol.processRound1Package package with
    | error failure => exact .failed _ failure
    | ok next =>
      simp only [KeyRefreshProtocol.processRound1Package, Outcome.bind_eq_ok,
        Outcome.require_eq_ok] at ran
      obtain ⟨zero, verified, _, rfl, ⟨⟩⟩ := ran
      refine .processRound1 ?_
      unfold RefreshRound1Package.verifyZeroConstant at verified
      split at verified
      · cases verified
      · rename_i first rest isList
        rw [isList, List.head?_cons]
        exact congrArg some (of_decide_eq_true (Except.ok.inj verified))
  | round2 =>
    rw [answer]
    cases ran : protocol.round2 suite with
    | error failure => exact .failed _ failure
    | ok result =>
      simp only [KeyRefreshProtocol.round2, Outcome.bind_eq_ok, Outcome.require_eq_ok] at ran
      obtain ⟨_, ready, _, -, packages, evaluated, ⟨⟩⟩ := ran
      refine .round2 (of_decide_eq_true ready) ?_
      simpa only [Outcome.bind_eq_ok] using evaluated
  | processRound2 package =>
    rw [answer]
    cases ran : protocol.processRound2Package suite package with
    | error failure => exact .failed _ failure
    | ok next =>
      simp only [KeyRefreshProtocol.processRound2Package, Outcome.bind_eq_ok,
        Outcome.require_eq_ok] at ran
      obtain ⟨_, addressed, _, verified, ⟨⟩⟩ := ran
      exact .processRound2 (of_decide_eq_true addressed) verified
  | finalize oldShare =>
    rw [answer]
    cases ran : protocol.finalize suite oldShare with
    | error failure => exact .failed _ failure
    | ok result =>
      have finalized := ran
      simp only [KeyRefreshProtocol.finalize, Outcome.bind_eq_ok, Outcome.require_eq_ok] at ran
      obtain ⟨_, ready, _, -, _, -, _, -, _, -, ⟨⟩⟩ := ran
      exact .finalize (of_decide_eq_true ready) finalized

theorem answer_started (call : RefreshCall) (started : protocol.state ≠ .notStarted) :
    (protocol.answer suite call).1.state ≠ .notStarted ∧
    (protocol.answer suite call).1.myCoefficients = protocol.myCoefficients := by
  have step := protocol.answer_step suite call
  generalize protocol.answer suite call = result at step
  cases step with
  | failed failure => exact ⟨started, rfl⟩
  | round1 ready => exact absurd ready started
  | processRound1 zero => exact ⟨started, rfl⟩
  | round2 ready evaluated => exact ⟨nofun, rfl⟩
  | processRound2 addressed verified => exact ⟨started, rfl⟩
  | finalize ready finalized => exact ⟨nofun, rfl⟩

end KeyRefreshProtocol

section

variable {F P : Type} [Field F] [AddCommGroup P] [Module F P]

/-- The public share is the secret times the generator. -/
def KeyShare.Consistent (suite : Suite F P) (share : KeyShare) : Prop :=
  share.publicKeyShare = suite.pointToBytes (suite.reduceBytes share.secretShare • suite.generator)

/-- A refreshed share is consistent exactly if all contributions add up to zero. -/
theorem refreshed_share_consistent_iff (suite : Suite F P) {protocol next : KeyRefreshProtocol}
    {oldShare newShare : KeyShare} (consistent : oldShare.Consistent suite)
    (finalized : protocol.finalize suite oldShare = .ok (next, newShare)) :
    newShare.Consistent suite ↔ protocol.contribution suite = 0 := by
  obtain ⟨samePublic, newSecret, -, -⟩ := KeyRefreshProtocol.of_finalize suite finalized
  rw [KeyShare.Consistent, samePublic, consistent, newSecret]
  constructor
  · intro same
    have samePoint := suite.pointToBytes_injective protocol.participantId same
    have sameScalar := suite.smul_injective samePoint
    exact left_eq_add.mp sameScalar
  · intro nothing
    rw [nothing, add_zero]

end

namespace Known

def twoOfTwo : ThresholdConfig := ⟨2, 2⟩

def refreshConfig : KeyRefreshConfig where
  scheme := .thresholdEcdsaP256
  currentConfig := twoOfTwo
  participants := [⟨1⟩, ⟨2⟩]

def refreshing : KeyRefreshProtocol := ⟨refreshConfig, .notStarted, ∅, ∅, ⟨1⟩, []⟩

def oldKeyShare : KeyShare := ⟨⟨1⟩, twoOfTwo, scalarToBytes 7, pointToBytes 7⟩

def constantDraws (scalar : Scalar) : CoefficientDraws := fun _ =>
  ⟨(scalarToBytes scalar).toArray, rfl⟩

def refreshCalls (own : Scalar) : List RefreshCall := [
  .round1 (constantDraws own),
  .processRound1 ⟨⟨2⟩, [pointToBytes 0, pointToBytes 5], .thresholdEcdsaP256⟩,
  .round2,
  .processRound2 ⟨⟨2⟩, ⟨1⟩, scalarToBytes 5, .thresholdEcdsaP256⟩]

def refreshed (own : Scalar) : KeyRefreshProtocol :=
  (trace (KeyRefreshProtocol.serve suite) refreshing (refreshCalls own)).1

theorem oldKeyShare_consistent : oldKeyShare.Consistent suite := by
  unfold KeyShare.Consistent
  decide +kernel

theorem finalized_of_reply {protocol : KeyRefreshProtocol} {oldShare newShare : KeyShare}
    (replied : (protocol.answer suite (.finalize oldShare)).2 = .finalized newShare) :
    ∃ next, protocol.finalize suite oldShare = .ok (next, newShare) := by
  cases finalized : protocol.finalize suite oldShare with
  | error failure =>
    simp only [KeyRefreshProtocol.answer, finalized, settleRefresh] at replied
    cases replied
  | ok result =>
    simp only [KeyRefreshProtocol.answer, finalized, settleRefresh] at replied
    cases replied
    exact ⟨result.1, rfl⟩

end Known

theorem refreshed_share_inconsistent :
    KeyRefreshProtocol.new Known.refreshConfig ⟨1⟩ = .ok Known.refreshing ∧
    Known.oldKeyShare.Consistent Known.suite ∧
    ∃ newShare, ((Known.refreshed 3).answer Known.suite (.finalize Known.oldKeyShare)).2 =
      .finalized newShare ∧ ¬ newShare.Consistent Known.suite := by
  refine ⟨rfl, Known.oldKeyShare_consistent,
    ⟨⟨1⟩, Known.twoOfTwo, Known.scalarToBytes 15, Known.pointToBytes 7⟩, ?_, ?_⟩
  · decide +kernel
  · unfold KeyShare.Consistent
    decide +kernel

theorem refreshed_share_consistent_unchanged :
    ∃ next newShare, (Known.refreshed (-5)).finalize Known.suite Known.oldKeyShare =
      .ok (next, newShare) ∧ newShare.Consistent Known.suite := by
  have replied : ((Known.refreshed (-5)).answer Known.suite (.finalize Known.oldKeyShare)).2 =
      .finalized Known.oldKeyShare := by
    decide +kernel
  have nothing : (Known.refreshed (-5)).contribution Known.suite = 0 := by
    decide +kernel
  obtain ⟨next, finalized⟩ := Known.finalized_of_reply replied
  exact ⟨next, _, finalized, (refreshed_share_consistent_iff Known.suite
    Known.oldKeyShare_consistent finalized).mpr nothing⟩

end Hsm.Threshold

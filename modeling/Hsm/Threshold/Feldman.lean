import Hsm.Threshold.Suite
import Mathlib.Algebra.Field.ZMod
import Mathlib.Tactic.NormNum.Prime

/-! Shares that verify lie on the committed polynomials, and interpolate to their constant terms. -/

namespace Hsm.Threshold

section

variable {α β : Type}

theorem Outcome.bind_eq_ok {first : Outcome α} {next : α → Outcome β} {result : β} :
    (first >>= next) = .ok result ↔ ∃ value, first = .ok value ∧ next value = .ok result := by
  cases first with
  | error failure => exact ⟨nofun, nofun⟩
  | ok value =>
    constructor
    · exact fun succeeds => ⟨value, rfl, succeeds⟩
    · rintro ⟨_, ⟨⟩, succeeds⟩
      exact succeeds

variable {read : α → Outcome β}

theorem Outcome.mapM_cons_eq_ok {item : α} {rest : List α} {results : List β} :
    (item :: rest).mapM read = .ok results ↔ ∃ result others, read item = .ok result ∧
      rest.mapM read = .ok others ∧ results = result :: others := by
  rw [List.mapM_cons]
  simp only [Outcome.bind_eq_ok]
  constructor
  · rintro ⟨result, isResult, others, areOthers, ⟨⟩⟩
    exact ⟨result, others, isResult, areOthers, rfl⟩
  · rintro ⟨result, others, isResult, areOthers, rfl⟩
    exact ⟨result, isResult, others, areOthers, rfl⟩

variable {items : List α}

theorem Outcome.length_mapM {results : List β} (isRead : items.mapM read = .ok results) :
    results.length = items.length := by
  induction items generalizing results with
  | nil => cases isRead; rfl
  | cons item rest ih =>
    obtain ⟨result, others, -, areOthers, rfl⟩ := mapM_cons_eq_ok.mp isRead
    simp [ih areOthers]

theorem Outcome.mapM_eq_ok {result : α → β} (all : ∀ item ∈ items, read item = .ok (result item)) :
    items.mapM read = .ok (items.map result) := by
  induction items with
  | nil => rfl
  | cons item rest ih =>
    exact mapM_cons_eq_ok.mpr ⟨_, _, all item List.mem_cons_self,
      ih fun other member => all other (List.mem_cons_of_mem _ member), rfl⟩

theorem Outcome.require_eq_ok {holds : Bool} {error : ThresholdError} {result : Unit} :
    Outcome.require holds error = .ok result ↔ holds = true := by
  unfold Outcome.require
  split
  · simp_all
  · simp_all [Outcome.fail]

theorem ParticipantId.value_inj {first second : ParticipantId} :
    first.value = second.value ↔ first = second := by
  cases first
  cases second
  simp

theorem ParticipantId.nodup_values {ids : List ParticipantId} (distinct : ids.Nodup) :
    (ids.map ParticipantId.value).Nodup :=
  distinct.map fun _ _ same => ParticipantId.value_inj.mp same

/-- What every item keeps, a batch keeps, even if it fails. -/
theorem acceptAll_invariant {σ : Type} {accept : σ → α → Outcome σ} (inv : σ → Prop)
    (preserved : ∀ state next, ∀ item ∈ items, inv state → accept state item = .ok next → inv next)
    (state : σ) (start : inv state) : inv (acceptAll accept state items).1 := by
  induction items generalizing state with
  | nil => exact start
  | cons item rest ih =>
    rw [acceptAll]
    split
    · rename_i next accepted
      exact ih (fun state next other member =>
        preserved state next other (List.mem_cons_of_mem _ member))
        next (preserved state next item List.mem_cons_self start accepted)
    · exact start

/-- What one item establishes, and none undoes, holds after the batch. -/
theorem acceptAll_of_mem {σ : Type} {accept : σ → α → Outcome σ} (holds : σ → Prop) {item : α}
    (established : ∀ state next, accept state item = .ok next → holds next)
    (kept : ∀ state next other, holds state → accept state other = .ok next → holds next)
    (member : item ∈ items) {state final : σ}
    (accepted : acceptAll accept state items = (final, .ok ())) : holds final := by
  induction items generalizing state with
  | nil => cases member
  | cons first rest ih =>
    rw [acceptAll] at accepted
    split at accepted
    · rename_i next isNext
      rcases List.mem_cons.mp member with rfl | later
      · have after : holds (acceptAll accept next rest).1 :=
          acceptAll_invariant holds (fun state next other _ => kept state next other) next
            (established state next isNext)
        rw [accepted] at after
        exact after
      · exact ih later accepted
    · cases accepted

theorem degree_add_one {threshold : UInt16} (positive : threshold ≠ 0) :
    (threshold - 1).toNat + 1 = threshold.toNat := by
  have above : (1 : UInt16).toNat ≤ threshold.toNat :=
    Nat.pos_of_ne_zero fun zero => positive (UInt16.toNat_inj.mp zero)
  rw [UInt16.toNat_sub_of_le _ _ (UInt16.le_iff_toNat_le.mpr above)]
  exact Nat.sub_add_cancel above

end

namespace Suite

variable {F P : Type} [Field F] [AddCommGroup P] [Module F P] (suite : Suite F P)

def Commits (id : ParticipantId) (commitments : List Bytes) (points : List P) : Prop :=
  commitments.mapM (suite.pointFromBytes id) = .ok points

def pointsOf (id : ParticipantId) (commitments : List Bytes) : List P :=
  (commitments.mapM (suite.pointFromBytes id)).toOption.getD []

variable {commitments : List Bytes}

variable {suite} in
theorem Commits.pointsOf_eq {id : ParticipantId} {points : List P}
    (commits : suite.Commits id commitments points) : suite.pointsOf id commitments = points := by
  have decoded : commitments.mapM (suite.pointFromBytes id) = .ok points := commits
  rw [pointsOf, decoded]
  rfl

@[simp] theorem scalarFromBytes_toBytes (scalar : F) :
    suite.scalarFromBytes (suite.scalarToBytes scalar) = .ok scalar := by
  rw [scalarFromBytes, if_pos (suite.length_scalarToBytes scalar), suite.reduce_toBytes]

theorem scalarFromBytes_eq_ok {bytes : Bytes} {scalar : F} :
    suite.scalarFromBytes bytes = .ok scalar ↔
      bytes.length = 32 ∧ suite.reduceBytes bytes = scalar := by
  unfold scalarFromBytes
  split
  · rename_i right
    simp [right]
  · rename_i wrong
    simp [wrong]

theorem pointToBytes_injective (id : ParticipantId) : Function.Injective suite.pointToBytes := by
  intro first second same
  have decoded := suite.fromBytes_toBytes id first
  rw [same, suite.fromBytes_toBytes] at decoded
  exact (Except.ok.inj decoded).symm

theorem smul_injective {first second : F}
    (same : first • suite.generator = second • suite.generator) : first = second := by
  have zero := suite.free (first - second) (by rw [sub_smul, same, sub_self])
  exact sub_eq_zero.mp zero

theorem accumulate_eq_ok {id : ParticipantId} {x power : F} {start total : P} :
    suite.accumulate id x start power commitments = .ok total ↔
      ∃ points, suite.Commits id commitments points ∧
        total = start + power • horner x points := by
  induction commitments generalizing start power with
  | nil =>
    rw [accumulate]
    constructor
    · rintro ⟨⟩
      exact ⟨[], rfl, by simp⟩
    · rintro ⟨points, ⟨⟩, rfl⟩
      simp
  | cons commitment rest ih =>
    rw [accumulate, Outcome.bind_eq_ok]
    simp only [Commits, Outcome.mapM_cons_eq_ok, ih]
    -- The power moves on from each commitment to the next.
    have next : ∀ (point : P) (points : List P),
        start + power • point + (power * x) • horner x points =
        start + power • horner x (point :: points) := by
      intro point points
      rw [horner_cons, smul_add, smul_smul]
      abel
    constructor
    · rintro ⟨point, isPoint, points, arePoints, rfl⟩
      exact ⟨point :: points, ⟨point, points, isPoint, arePoints, rfl⟩, next point points⟩
    · rintro ⟨_, ⟨point, points, isPoint, arePoints, rfl⟩, rfl⟩
      exact ⟨point, isPoint, points, arePoints, (next point points).symm⟩

variable [DecidableEq P]

theorem of_verifyShare {id : ParticipantId} {share : Bytes}
    (verifies : suite.verifyShare id share commitments = .ok true) :
    share.length = 32 ∧ ∃ points, suite.Commits id commitments points ∧
      suite.reduceBytes share • suite.generator = horner (id.scalar F) points := by
  simp only [verifyShare, Outcome.bind_eq_ok] at verifies
  obtain ⟨_, -, scalar, isScalar, expected, isExpected, same⟩ := verifies
  obtain ⟨length, rfl⟩ := suite.scalarFromBytes_eq_ok.mp isScalar
  obtain ⟨points, commits, rfl⟩ := suite.accumulate_eq_ok.mp isExpected
  refine ⟨length, points, commits, ?_⟩
  have equal := of_decide_eq_true (Except.ok.inj same)
  rwa [scalarToPoint, zero_add, one_smul] at equal

omit [DecidableEq P]

variable {coefficients : List Bytes}

theorem evaluatePolynomial_eq_ok (given : coefficients ≠ [])
    (lengths : ∀ coefficient ∈ coefficients, coefficient.length = 32) (id : ParticipantId) :
    suite.evaluatePolynomial coefficients id =
      .ok (suite.scalarToBytes (horner (id.scalar F) (coefficients.map suite.reduceBytes))) := by
  have steps : ∀ items : List Bytes, (∀ item ∈ items, item.length = 32) →
      items.reverse.foldlM (fun (result : F) coefficient => (do
        let scalar ← suite.scalarFromBytes coefficient
        return result * id.scalar F + scalar : Outcome F)) 0 =
      .ok (horner (id.scalar F) (items.map suite.reduceBytes)) := by
    intro items all
    induction items with
    | nil => rfl
    | cons item rest ih =>
      rw [List.reverse_cons, List.foldlM_append, Outcome.bind_eq_ok]
      refine ⟨_, ih fun other member => all other (List.mem_cons_of_mem _ member), ?_⟩
      have isScalar := suite.scalarFromBytes_eq_ok.mpr ⟨all item List.mem_cons_self, rfl⟩
      rw [List.map_cons, horner_cons, smul_eq_mul, mul_comm]
      simp only [List.foldlM_cons, List.foldlM_nil, isScalar]
      rfl
  simp only [evaluatePolynomial, Outcome.bind_eq_ok]
  exact ⟨(), by simp [Outcome.require, given], _, steps coefficients lengths, rfl⟩

theorem of_evaluatePolynomial {id : ParticipantId} {value : Bytes}
    (evaluated : suite.evaluatePolynomial coefficients id = .ok value) :
    value = suite.scalarToBytes (horner (id.scalar F) (coefficients.map suite.reduceBytes)) := by
  have steps : ∀ (items : List Bytes) (start result : F), items.foldlM
      (fun (result : F) coefficient => (do
        let scalar ← suite.scalarFromBytes coefficient
        return result * id.scalar F + scalar : Outcome F)) start = .ok result →
      ∀ item ∈ items, item.length = 32 := by
    intro items
    induction items with
    | nil => simp
    | cons item rest ih =>
      intro start result succeeds other member
      simp only [List.foldlM_cons, Outcome.bind_eq_ok, scalarFromBytes_eq_ok] at succeeds
      obtain ⟨next, ⟨_, ⟨length, -⟩, -⟩, later⟩ := succeeds
      rcases List.mem_cons.mp member with rfl | isLater
      · exact length
      · exact ih next result later other isLater
  have evaluatedSteps := evaluated
  simp only [evaluatePolynomial, Outcome.bind_eq_ok] at evaluatedSteps
  obtain ⟨_, given, result, succeeds, -⟩ := evaluatedSteps
  have lengths : ∀ coefficient ∈ coefficients, coefficient.length = 32 :=
    fun coefficient member => steps _ _ _ succeeds coefficient (List.mem_reverse.mpr member)
  have notEmpty : coefficients ≠ [] := by
    rintro rfl
    cases given
  rw [suite.evaluatePolynomial_eq_ok notEmpty lengths] at evaluated
  exact (Except.ok.inj evaluated).symm

theorem generateCommitments_eq_ok (lengths : ∀ coefficient ∈ coefficients, coefficient.length = 32)
    :
    suite.generateCommitments coefficients = .ok (coefficients.map fun coefficient =>
      suite.pointToBytes (suite.reduceBytes coefficient • suite.generator)) := by
  refine Outcome.mapM_eq_ok fun coefficient member => ?_
  rw [Outcome.bind_eq_ok]
  exact ⟨_, suite.scalarFromBytes_eq_ok.mpr ⟨lengths coefficient member, rfl⟩, rfl⟩

theorem commits_generated (id : ParticipantId) (coefficients : List Bytes) :
    suite.Commits id (coefficients.map fun coefficient =>
        suite.pointToBytes (suite.reduceBytes coefficient • suite.generator))
      (coefficients.map fun coefficient => suite.reduceBytes coefficient • suite.generator) := by
  induction coefficients with
  | nil => rfl
  | cons coefficient rest ih =>
    exact Outcome.mapM_cons_eq_ok.mpr ⟨_, _, suite.fromBytes_toBytes id _, ih, rfl⟩

theorem horner_smul (x : F) (scalars : List F) :
    horner x (scalars.map (· • suite.generator)) = horner x scalars • suite.generator :=
  horner_map (LinearMap.toSpanSingleton F P suite.generator) x scalars

theorem exists_scalars (points : List P) :
    ∃ scalars : List F, scalars.map (· • suite.generator) = points := by
  induction points with
  | nil => exact ⟨[], rfl⟩
  | cons point rest ih =>
    obtain ⟨scalars, rfl⟩ := ih
    obtain ⟨scalar, rfl⟩ := suite.generates point
    exact ⟨scalar :: scalars, rfl⟩

theorem addScalars_eq_ok {first second : Bytes} {sum : Bytes} :
    suite.addScalars first second = .ok sum ↔ first.length = 32 ∧ second.length = 32 ∧
      sum = suite.scalarToBytes (suite.reduceBytes first + suite.reduceBytes second) := by
  simp only [addScalars, Outcome.bind_eq_ok, scalarFromBytes_eq_ok]
  constructor
  · rintro ⟨_, ⟨firstLength, rfl⟩, _, ⟨secondLength, rfl⟩, ⟨⟩⟩
    exact ⟨firstLength, secondLength, rfl⟩
  · rintro ⟨firstLength, secondLength, rfl⟩
    exact ⟨_, ⟨firstLength, rfl⟩, _, ⟨secondLength, rfl⟩, rfl⟩

theorem of_foldlM_addScalars {items : List Bytes} {start total : Bytes}
    (added : items.foldlM suite.addScalars start = .ok total) :
    suite.reduceBytes total = suite.reduceBytes start + (items.map suite.reduceBytes).sum := by
  induction items generalizing start with
  | nil =>
    cases added
    simp
  | cons item rest ih =>
    rw [List.foldlM_cons, Outcome.bind_eq_ok] at added
    obtain ⟨next, isNext, later⟩ := added
    obtain ⟨-, -, rfl⟩ := suite.addScalars_eq_ok.mp isNext
    rw [ih later, suite.reduce_toBytes, List.map_cons, List.sum_cons, add_assoc]

theorem exists_foldlM_addScalars {items : List Bytes} {start : Bytes} (isScalar : start.length = 32)
    (lengths : ∀ item ∈ items, item.length = 32) :
    ∃ total, items.foldlM suite.addScalars start = .ok total ∧ total.length = 32 := by
  induction items generalizing start with
  | nil => exact ⟨start, rfl, isScalar⟩
  | cons item rest ih =>
    obtain ⟨total, added, length⟩ := ih (suite.length_scalarToBytes _)
      fun other member => lengths other (List.mem_cons_of_mem _ member)
    refine ⟨total, ?_, length⟩
    rw [List.foldlM_cons, Outcome.bind_eq_ok]
    exact ⟨_, suite.addScalars_eq_ok.mpr ⟨isScalar, lengths item List.mem_cons_self, rfl⟩, added⟩

variable {suite} in
theorem Commits.agree {first second : ParticipantId} {points : List P}
    (commits : suite.Commits first commitments points) :
    suite.Commits second commitments points := by
  induction commitments generalizing points with
  | nil => exact commits
  | cons commitment rest ih =>
    obtain ⟨point, others, isPoint, areOthers, rfl⟩ := Outcome.mapM_cons_eq_ok.mp commits
    exact Outcome.mapM_cons_eq_ok.mpr
      ⟨point, others, suite.fromBytes_agree _ _ _ _ isPoint, ih areOthers, rfl⟩

end Suite

section

variable {F P : Type} [Field F] [AddCommGroup P] [Module F P]

theorem Suite.scalar_injective (suite : Suite F P) :
    Function.Injective (ParticipantId.scalar F) := by
  rintro ⟨first⟩ ⟨second⟩ same
  exact congrArg ParticipantId.mk (suite.cast_injective first second same)

variable [DecidableEq F]

theorem Suite.lagrangeCoefficient_eq (suite : Suite F P) (id : ParticipantId)
    (participants : List ParticipantId) :
    lagrangeCoefficient F id participants =
      lagrangeWeight (participants.map (ParticipantId.scalar F)) (id.scalar F) := by
  have general : ∀ start : F, participants.foldl (fun result other =>
      if other ≠ id then
        let denominator := other.scalar F - id.scalar F
        result * (other.scalar F * if denominator = 0 then 1 else denominator⁻¹)
      else result) start =
      start * lagrangeWeight (participants.map (ParticipantId.scalar F)) (id.scalar F) := by
    induction participants with
    | nil => simp [lagrangeWeight]
    | cons other rest ih =>
      intro start
      rw [List.foldl_cons, ih, List.map_cons, lagrangeWeight, lagrangeWeight]
      by_cases same : other = id
      · simp [same]
      · have apart : other.scalar F ≠ id.scalar F := fun equal =>
          same (suite.scalar_injective equal)
        have nonzero : other.scalar F - id.scalar F ≠ 0 := sub_ne_zero.mpr apart
        simp only [ne_eq, same, not_false_eq_true, if_true, nonzero, if_false,
          List.filter_cons, apart, decide_true, List.map_cons, List.prod_cons]
        ring
  rw [lagrangeCoefficient, general, one_mul]

theorem Suite.reconstructSecret_eq (suite : Suite F P) (shares : List (ParticipantId × F)) :
    reconstructSecret shares = (shares.map fun share =>
      lagrangeWeight (shares.map fun other => other.1.scalar F) (share.1.scalar F) *
        share.2).sum := by
  have general : ∀ (ids : List ParticipantId) (items : List (ParticipantId × F)) (start : F),
      items.foldl (fun result share =>
        result + share.2 * lagrangeCoefficient F share.1 ids) start =
      start + (items.map fun share =>
        lagrangeWeight (ids.map (ParticipantId.scalar F)) (share.1.scalar F) * share.2).sum := by
    intro ids items
    induction items with
    | nil => simp
    | cons item rest ih =>
      intro start
      rw [List.foldl_cons, ih, suite.lagrangeCoefficient_eq, List.map_cons, List.sum_cons,
        mul_comm item.2, add_assoc]
  rw [reconstructSecret, general, zero_add, List.map_map]
  rfl

theorem Suite.reconstructSecret_perm (suite : Suite F P) {first second : List (ParticipantId × F)}
    (same : first.Perm second) : reconstructSecret first = reconstructSecret second := by
  rw [suite.reconstructSecret_eq, suite.reconstructSecret_eq]
  simp only [lagrangeWeight_perm (same.map fun share => share.1.scalar F)]
  exact (same.map _).sum_eq

/-- Enough shares of a polynomial give its constant term. -/
theorem Suite.reconstructSecret_horner (suite : Suite F P) {ids : List ParticipantId}
    {share : ParticipantId → F} {coefficients : List F}
    (values : ∀ id ∈ ids, share id = horner (id.scalar F) coefficients) (distinct : ids.Nodup)
    (enough : coefficients.length ≤ ids.length) :
    reconstructSecret (ids.map fun id => (id, share id)) = coefficients.headD 0 := by
  have points : (ids.map (ParticipantId.scalar F)).Nodup := distinct.map suite.scalar_injective
  rw [suite.reconstructSecret_eq, ← sum_lagrangeWeight_horner points (by simpa using enough)]
  simp only [List.map_map, Function.comp_def, smul_eq_mul]
  exact congrArg List.sum (List.map_congr_left fun id member => by rw [values id member])

end

namespace Known

/-- The scalars of a small group. -/
abbrev Scalar := ZMod 65537

instance primeModulus : Fact (Nat.Prime 65537) := ⟨by norm_num⟩

-- The numerals of the samples.
scoped instance two : Nat.AtLeastTwo 2 := ⟨by decide⟩

scoped instance three : Nat.AtLeastTwo 3 := ⟨by decide⟩

scoped instance four : Nat.AtLeastTwo 4 := ⟨by decide⟩

scoped instance five : Nat.AtLeastTwo 5 := ⟨by decide⟩

scoped instance seven : Nat.AtLeastTwo 7 := ⟨by decide⟩

scoped instance eight : Nat.AtLeastTwo 8 := ⟨by decide⟩

scoped instance ten : Nat.AtLeastTwo 10 := ⟨by decide⟩

scoped instance sixteen : Nat.AtLeastTwo 16 := ⟨by decide⟩

def reduceBytes (bytes : Bytes) : Scalar :=
  (bytes.foldl (fun number byte => number * 256 + byte.toNat) 0 : Nat)

def scalarToBytes (scalar : Scalar) : Bytes :=
  List.replicate 29 0 ++ [UInt8.ofNat (scalar.val / 65536), UInt8.ofNat (scalar.val / 256),
    UInt8.ofNat scalar.val]

def pointToBytes (point : Scalar) : Bytes := if point = 0 then [0] else 2 :: scalarToBytes point

def pointFromBytes (_ : ParticipantId) : Bytes → Outcome Scalar
  | [] => .fail (.serializationError "crypto error")
  | [0] => .ok 0
  | tag :: rest =>
    if tag = 2 ∧ rest.length = 32 then .ok (reduceBytes rest)
    else .fail (.serializationError "crypto error")

theorem reduce_toBytes (scalar : Scalar) : reduceBytes (scalarToBytes scalar) = scalar := by
  have below : scalar.val < 65537 := scalar.val_lt
  have number : (scalarToBytes scalar).foldl (fun number byte => number * 256 + byte.toNat) 0 =
      scalar.val := by
    simp only [scalarToBytes, List.foldl_append, List.foldl_cons, List.foldl_nil,
      UInt8.toNat_ofNat']
    have zeros : (List.replicate 29 (0 : UInt8)).foldl
        (fun number byte => number * 256 + byte.toNat) 0 = 0 := by decide
    rw [zeros]
    omega
  rw [reduceBytes, number, ZMod.natCast_val, ZMod.cast_id]

theorem cast_injective (first second : UInt16)
    (same : (first.toNat : Scalar) = (second.toNat : Scalar)) : first = second := by
  have small : ∀ number : UInt16, number.toNat < 65537 := fun number => by
    have := number.toNat_lt
    omega
  have equal := congrArg ZMod.val same
  rw [ZMod.val_natCast_of_lt (small first), ZMod.val_natCast_of_lt (small second)] at equal
  exact UInt16.toNat_inj.mp equal

def suite : Suite Scalar Scalar where
  scheme := .thresholdEcdsaP256
  generator := 1
  reduceBytes := reduceBytes
  scalarToBytes := scalarToBytes
  pointFromBytes := pointFromBytes
  pointToBytes := pointToBytes
  badScalar := fun _ => .error (.serializationError "Invalid scalar length")
  emptyPolynomial := .invalidThreshold "Empty polynomial coefficients"
  emptyCommitments := none
  zeroKey := none
  generates := fun point => ⟨point, mul_one point⟩
  free := fun scalar zero => by simpa using zero
  cast_injective := cast_injective
  reduce_toBytes := reduce_toBytes
  length_scalarToBytes := fun _ => rfl
  reduce_zero := by decide
  fromBytes_toBytes := by
    intro id point
    unfold pointToBytes
    split
    · rename_i zero
      rw [zero]
      rfl
    · have reads : pointFromBytes id (2 :: scalarToBytes point) =
          .ok (reduceBytes (scalarToBytes point)) := rfl
      rw [reads, reduce_toBytes]
  fromBytes_agree := fun _ _ _ _ decoded => decoded
  toBytes_identity := rfl

end Known

/-- Shares below the threshold fit every secret. -/
theorem shares_hide_secret {F P : Type} [Field F] [AddCommGroup P] [Module F P] (suite : Suite F P)
    (coefficients : List Bytes) (lengths : ∀ coefficient ∈ coefficients, coefficient.length = 32)
    (ids : List ParticipantId) (nonzero : ∀ id ∈ ids, id.value ≠ 0)
    (few : ids.length < coefficients.length) (secret : F) :
    ∃ others : List Bytes, others.length = coefficients.length ∧
      others.head?.map suite.reduceBytes = some secret ∧
      ∀ id ∈ ids, ∃ share, suite.evaluatePolynomial coefficients id = .ok share ∧
        suite.evaluatePolynomial others id = .ok share := by
  have offZero : (0 : F) ∉ ids.map (ParticipantId.scalar F) := by
    intro member
    obtain ⟨id, inside, isZero⟩ := List.mem_map.mp member
    refine nonzero id inside (suite.cast_injective id.value 0 ?_)
    simpa [ParticipantId.scalar] using isZero
  obtain ⟨first, rest, rfl⟩ := List.exists_cons_of_length_pos (Nat.zero_lt_of_lt few)
  let scalars := (first :: rest).map suite.reduceBytes
  obtain ⟨mask, maskLength, shift, vanishes⟩ := exists_mask offZero
    (few.trans_eq' (List.length_map _).symm) (secret - suite.reduceBytes first)
  have short : ∀ term ∈ [((1 : F), scalars), (1, mask)], term.2.length ≤ rest.length + 1 := by
    simp [scalars, maskLength]
  obtain ⟨total, length, constant, values⟩ := exists_horner_eq_sum short
  have isSecret : total.headD 0 = secret := by
    simp only [constant, List.map_cons, List.map_nil, List.sum_cons, List.sum_nil, shift, one_smul]
    simp [scalars]
  obtain ⟨head, tail, rfl⟩ := List.exists_cons_of_length_eq_add_one length
  refine ⟨(head :: tail).map suite.scalarToBytes, by simpa using length, ?_, fun id member => ?_⟩
  · simpa [suite.reduce_toBytes] using isSecret
  · refine ⟨_, suite.evaluatePolynomial_eq_ok (List.cons_ne_nil _ _) lengths id, ?_⟩
    rw [suite.evaluatePolynomial_eq_ok (by simp) (by simp [suite.length_scalarToBytes]),
      List.map_map, Function.comp_def]
    simp only [suite.reduce_toBytes, List.map_id', values]
    simp [scalars, vanishes _ (List.mem_map_of_mem member)]

theorem shares_hide_secret_seven :
    ∃ others : List Bytes, others.length = 2 ∧
      others.head?.map Known.suite.reduceBytes = some 7 ∧
      ∀ id ∈ [(⟨3⟩ : ParticipantId)], ∃ share,
        Known.suite.evaluatePolynomial [Known.scalarToBytes 1, Known.scalarToBytes 2] id =
          .ok share ∧ Known.suite.evaluatePolynomial others id = .ok share :=
  shares_hide_secret Known.suite [Known.scalarToBytes 1, Known.scalarToBytes 2]
    (by simp [Known.scalarToBytes]) [⟨3⟩] (by decide) (by decide) 7

end Hsm.Threshold

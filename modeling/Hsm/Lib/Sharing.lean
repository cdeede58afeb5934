import Mathlib.LinearAlgebra.Lagrange

/-! Sharing of secrets by polynomials, and commitments to their coefficients. -/

namespace Hsm

variable {F M : Type} [Field F] [AddCommGroup M] [Module F M]

/-- The value of a polynomial, with its coefficients lowest first. -/
def horner (x : F) (coefficients : List M) : M :=
  coefficients.foldr (fun coefficient higher => x • higher + coefficient) 0

@[simp] theorem horner_nil (x : F) : horner x ([] : List M) = 0 := rfl

theorem horner_cons (x : F) (coefficient : M) (rest : List M) :
    horner x (coefficient :: rest) = x • horner x rest + coefficient := rfl

theorem horner_eq_sum (x : F) (coefficients : List M) :
    horner x coefficients =
      ∑ k ∈ Finset.range coefficients.length, x ^ k • coefficients.getD k 0 := by
  induction coefficients with
  | nil => simp
  | cons coefficient rest ih =>
    rw [horner_cons, ih, List.length_cons, Finset.sum_range_succ', Finset.smul_sum]
    simp [pow_succ', mul_smul]

theorem horner_map {N : Type} [AddCommGroup N] [Module F N] (f : M →ₗ[F] N) (x : F)
    (coefficients : List M) : horner x (coefficients.map f) = f (horner x coefficients) := by
  induction coefficients with
  | nil => simp
  | cons coefficient rest ih => simp [horner_cons, ih]

theorem horner_eq_sum_of_le (x : F) {coefficients : List M} {n : Nat}
    (short : coefficients.length ≤ n) :
    horner x coefficients = ∑ k ∈ Finset.range n, x ^ k • coefficients.getD k 0 := by
  rw [horner_eq_sum]
  refine Finset.sum_subset (Finset.range_subset_range.mpr short) fun k _ beyond => ?_
  have missing : coefficients[k]? = none :=
    List.getElem?_eq_none (Nat.not_lt.mp fun below => beyond (Finset.mem_range.mpr below))
  rw [List.getD_eq_getElem?_getD, missing, Option.getD_none, smul_zero]

theorem exists_horner_eq_sum {terms : List (F × List M)} {n : Nat}
    (short : ∀ term ∈ terms, term.2.length ≤ n) :
    ∃ total : List M, total.length = n ∧
      total.headD 0 = (terms.map fun term => term.1 • term.2.headD 0).sum ∧
      ∀ x : F, horner x total = (terms.map fun term => term.1 • horner x term.2).sum := by
  -- Coefficients are added up one by one, where missing ones count as zero.
  let coefficient := fun k => (terms.map fun term => term.1 • term.2.getD k 0).sum
  have first : ∀ coefficients : List M, coefficients.headD 0 = coefficients.getD 0 0 := by
    intro coefficients
    cases coefficients <;> rfl
  refine ⟨(List.range n).map coefficient, by simp, ?_, fun x => ?_⟩
  · simp only [first]
    cases n with
    | zero =>
      have empty : ∀ term ∈ terms, term.1 • term.2.getD 0 0 = 0 := by
        intro term member
        rw [List.length_eq_zero_iff.mp (Nat.le_zero.mp (short term member))]
        exact smul_zero _
      rw [List.map_congr_left empty]
      simp
    | succ n => simp [coefficient, List.range_succ_eq_map]
  · calc horner x ((List.range n).map coefficient)
        = ∑ k ∈ Finset.range n, x ^ k • ((List.range n).map coefficient).getD k 0 :=
          horner_eq_sum_of_le x (by simp)
      _ = ∑ k ∈ Finset.range n, x ^ k • coefficient k := by
          refine Finset.sum_congr rfl fun k below => ?_
          simp [List.getD_eq_getElem?_getD, Finset.mem_range.mp below]
      _ = (terms.map fun term => term.1 • ∑ k ∈ Finset.range n, x ^ k • term.2.getD k 0).sum := by
          clear short
          induction terms with
          | nil => simp [coefficient]
          | cons term rest ih =>
            simp only [coefficient, List.map_cons, List.sum_cons, smul_add,
              Finset.sum_add_distrib] at ih ⊢
            rw [ih, Finset.smul_sum]
            simp only [smul_comm term.1]
      _ = (terms.map fun term => term.1 • horner x term.2).sum := by
          refine congrArg List.sum (List.map_congr_left fun term member => ?_)
          rw [horner_eq_sum_of_le x (short term member)]

def lagrangeWeight [DecidableEq F] (points : List F) (x : F) : F :=
  ((points.filter (· ≠ x)).map fun y => y * (y - x)⁻¹).prod

theorem lagrangeWeight_perm [DecidableEq F] {points others : List F} (same : points.Perm others)
    (x : F) : lagrangeWeight points x = lagrangeWeight others x :=
  ((same.filter _).map _).prod_eq

theorem eval_basis_zero [DecidableEq F] {points : List F} (distinct : points.Nodup) (x : F) :
    (Lagrange.basis points.toFinset id x).eval 0 = lagrangeWeight points x := by
  have others : points.toFinset.erase x = (points.filter (· ≠ x)).toFinset := by
    ext y
    simp [and_comm]
  have factor : ∀ y, (Lagrange.basisDivisor x y).eval 0 = y * (y - x)⁻¹ := by
    intro y
    rw [Lagrange.basisDivisor, Polynomial.eval_mul, Polynomial.eval_C, Polynomial.eval_sub,
      Polynomial.eval_X, Polynomial.eval_C, zero_sub, ← neg_sub y x, inv_neg, neg_mul_neg, mul_comm]
  rw [Lagrange.basis, Polynomial.eval_prod, others, List.prod_toFinset _ (distinct.filter _),
    lagrangeWeight]
  simp only [id, factor]

theorem sum_lagrangeWeight_pow [DecidableEq F] {points : List F} (distinct : points.Nodup) {k : Nat}
    (below : k < points.length) :
    (points.map fun x => lagrangeWeight points x * x ^ k).sum = if k = 0 then 1 else 0 := by
  have degree : (Polynomial.X ^ k : Polynomial F).degree < points.toFinset.card := by
    rw [Polynomial.degree_X_pow, List.toFinset_card_of_nodup distinct]
    exact_mod_cast below
  have interpolated := congrArg (Polynomial.eval 0)
    (Lagrange.eq_interpolate (s := points.toFinset) (v := id) (Set.injOn_id _) degree)
  rw [Lagrange.interpolate_apply, Polynomial.eval_finsetSum,
    List.sum_toFinset _ distinct] at interpolated
  simp only [Polynomial.eval_mul, Polynomial.eval_C, Polynomial.eval_pow, Polynomial.eval_X,
    eval_basis_zero distinct, id, zero_pow_eq] at interpolated
  rw [interpolated]
  exact congrArg List.sum (List.map_congr_left fun x _ => mul_comm _ _)

/-- Interpolation at zero gives the constant term, from enough points. -/
theorem sum_lagrangeWeight_horner [DecidableEq F] {points : List F} (distinct : points.Nodup)
    {coefficients : List M} (enough : coefficients.length ≤ points.length) :
    (points.map fun x => lagrangeWeight points x • horner x coefficients).sum =
      coefficients.headD 0 := by
  -- The sums are exchanged: for each coefficient, the weights interpolate a power.
  have exchanged : (points.map fun x => lagrangeWeight points x • horner x coefficients).sum =
      ∑ k ∈ Finset.range coefficients.length,
        (points.map fun x => lagrangeWeight points x * x ^ k).sum • coefficients.getD k 0 := by
    rw [← List.sum_toFinset _ distinct]
    simp only [horner_eq_sum, Finset.smul_sum, smul_smul, ← List.sum_toFinset _ distinct,
      Finset.sum_smul]
    exact Finset.sum_comm
  have powers : ∀ k ∈ Finset.range coefficients.length,
      (points.map fun x => lagrangeWeight points x * x ^ k).sum • coefficients.getD k 0 =
        if k = 0 then coefficients.getD k 0 else 0 := by
    intro k below
    rw [sum_lagrangeWeight_pow distinct (lt_of_lt_of_le (Finset.mem_range.mp below) enough)]
    split_ifs <;> simp
  rw [exchanged, Finset.sum_congr rfl powers, Finset.sum_ite_eq']
  cases coefficients with
  | nil => simp
  | cons coefficient rest => simp

/-- Below the degree, values off zero leave the constant term free. -/
theorem exists_mask {points : List F} (nonzero : 0 ∉ points) {n : Nat}
    (few : points.length < n) (shift : F) :
    ∃ mask : List F, mask.length = n ∧ mask.headD 0 = shift ∧ ∀ x ∈ points, horner x mask = 0 := by
  -- One factor for each point makes the polynomial vanish there, and keeps its value at zero.
  have exists_polynomial : ∃ p : Polynomial F, p.natDegree ≤ points.length ∧ p.eval 0 = shift ∧
      ∀ x ∈ points, p.eval x = 0 := by
    clear few
    induction points with
    | nil => exact ⟨.C shift, by simp⟩
    | cons point rest ih =>
      obtain ⟨apart, others⟩ := not_or.mp (List.mem_cons.not.mp nonzero)
      obtain ⟨p, degree, value, zeros⟩ := ih others
      refine ⟨p * (1 - .C point⁻¹ * .X), ?_, by simp [value], ?_⟩
      · refine Polynomial.natDegree_mul_le.trans (Nat.add_le_add degree ?_)
        compute_degree
      · intro x member
        rcases List.mem_cons.mp member with rfl | later
        · simp [inv_mul_cancel₀ (Ne.symm apart)]
        · simp [zeros x later]
  obtain ⟨p, degree, value, zeros⟩ := exists_polynomial
  have eval : ∀ x, horner x ((List.range n).map p.coeff) = p.eval x := by
    intro x
    rw [horner_eq_sum, Polynomial.eval_eq_sum_range' (degree.trans_lt few), List.length_map,
      List.length_range]
    refine Finset.sum_congr rfl fun k below => ?_
    simp [List.getD_eq_getElem?_getD, Finset.mem_range.mp below, mul_comm]
  refine ⟨(List.range n).map p.coeff, by simp, ?_, fun x member => by rw [eval, zeros x member]⟩
  obtain ⟨m, rfl⟩ := Nat.exists_eq_add_one_of_ne_zero (Nat.ne_of_gt (Nat.zero_lt_of_lt few))
  simp [List.range_succ_eq_map, Polynomial.coeff_zero_eq_eval_zero, value]

end Hsm

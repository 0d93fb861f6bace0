import GraduatedFit.Proofs.EliminationPlan
import GraduatedFit.Proofs.SparseGram
import GraduatedFit.LeastSquares.LevenbergMarquardt

/-! A damped step predicts a reduction that is never negative, and its quality has the sign of the actual one. -/

namespace GraduatedFit

open GraduatedFit.Elimination

namespace NormalEquations

/-- A kept plan was made for Jacobians that store these positions. -/
def MadeFor {K : Type} [Scalar K] (kept : NormalEquations K) (places : List (List Nat)) : Prop :=
  ∀ plan, kept.plan = some plan → ∀ (J : SparseMat K) (damping : K), J.support = places →
    plan.Fits (J.gram.addDiagonal damping).shape

theorem madeFor_nothing {K : Type} [Scalar K] (places : List (List Nat)) :
    MadeFor (K := K) {} places := by
  rintro plan ⟨⟩

/-- The first plan serves every later system. -/
theorem plan_fits {K : Type} [Scalar K] {kept : NormalEquations K} {J : SparseMat K} (damping : K)
    (made : kept.MadeFor J.support) (J' : SparseMat K) (damping' : K) (same : J'.support = J.support) :
    (kept.plan.getD (.ofSymmetric (J.gram.addDiagonal damping))).Fits (J'.gram.addDiagonal damping').shape := by
  cases present : kept.plan with
  | some plan => exact made plan present J' damping' same
  | none =>
      have shape : (J'.gram.addDiagonal damping').shape = (J.gram.addDiagonal damping).shape :=
        SparseMat.gramOf_shape damping' damping same
      rw [shape]
      exact Plan.ofSymmetric_fits _

theorem solve_damped {kept next : NormalEquations ℝ} {r h : Vec ℝ} {J : SparseMat ℝ} {damping : ℝ}
    (made : kept.MadeFor J.support) (solved : kept.solve r J (some damping) = (next, .ok h)) :
    next.MadeFor J.support ∧ next.gradient = some (J.transposeMul r) ∧
      Solves (J.gram.addDiagonal damping) ((J.transposeMul r).map (- ·)) h := by
  have fits := plan_fits damping made
  unfold solve at solved
  split at solved
  · cases solved
  · dsimp only at solved
    split at solved
    · rename_i x found
      obtain ⟨rfl, same⟩ := Prod.mk.inj solved
      obtain rfl := Except.ok.inj same
      refine ⟨?_, rfl, Plan.solve_solves (fits J damping rfl) found⟩
      rintro plan ⟨⟩ J' damping' same
      exact fits J' damping' same
    · cases solved

end NormalEquations

namespace LeastSquares.LevenbergMarquardt

/-- Each row of a damped system gives the gradient in terms of the step. -/
theorem damped_row {J : SparseMat ℝ} {lambda : ℝ} {h gradient : Vec ℝ} (length : gradient.length = J.width)
    (solves : Solves (J.gram.addDiagonal lambda) (gradient.map (- ·)) h) {i : Nat} (inside : i < J.width) :
    gradient.getD i 0 =
      - (∑ j ∈ Finset.range J.width, J.gram.get i j * h.getD j 0 + lambda * h.getD i 0) := by
  have size : (J.gram.addDiagonal lambda).length = J.width := by
    simp [Symmetric.addDiagonal, SparseMat.gram, SparseMat.width]
  have width : J.gram.length = J.width := SparseMat.length_gramOf _
  have equation := solves.row i (inside.trans_eq size.symm)
  have right : (gradient.map (- ·)).getD i 0 = - gradient.getD i 0 := by
    simp [List.getD_eq_getElem?_getD, length, inside]
  have applied := SparseMat.addDiagonal_apply J.gram lambda (h.getD · 0) (inside.trans_eq width.symm)
  rw [width] at applied
  rw [size, right, applied] at equation
  rw [equation, neg_neg]

/-- The reduction that the solution of a damped system predicts. -/
theorem predictedReduction_eq {J : SparseMat ℝ} {lambda : ℝ} {h gradient : Vec ℝ} (formed : J.WellFormed)
    (length : gradient.length = J.width)
    (solves : Solves (J.gram.addDiagonal lambda) (gradient.map (- ·)) h) :
    predictedReduction lambda h gradient =
      lambda * ∑ i ∈ Finset.range J.width, h.getD i 0 ^ 2 +
        (1 / 2) * ∑ p ∈ Finset.range J.height, (∑ i ∈ Finset.range J.width, J.get p i * h.getD i 0) ^ 2 := by
  have count : h.length = J.width := by
    rw [solves.length_eq]
    simp [Symmetric.addDiagonal, SparseMat.gram, SparseMat.width]
  rw [predictedReduction, Vec.dot_eq_range _ _ J.width (by simp [count]) (by simp [count, length]),
    ← SparseMat.gram_form formed, Finset.mul_sum, Finset.mul_sum, ← Finset.sum_add_distrib]
  apply Finset.sum_congr rfl
  intro i member
  have inside := Finset.mem_range.mp member
  have row := damped_row length solves inside
  calc
    _ = (0.5 * h.getD i 0) * (lambda * h.getD i 0 - gradient.getD i 0) := by
      simp [List.getD_eq_getElem?_getD, count, length, inside]
    _ = lambda * h.getD i 0 ^ 2 +
        (1 / 2) * (h.getD i 0 * ∑ j ∈ Finset.range J.width, J.gram.get i j * h.getD j 0) := by
      rw [row]
      ring

theorem predictedReduction_nonneg {J : SparseMat ℝ} {lambda : ℝ} {h gradient : Vec ℝ} (formed : J.WellFormed)
    (length : gradient.length = J.width) (damped : 0 < lambda)
    (solves : Solves (J.gram.addDiagonal lambda) (gradient.map (- ·)) h) :
    0 ≤ predictedReduction lambda h gradient := by
  rw [predictedReduction_eq formed length solves]
  have steps : 0 ≤ ∑ i ∈ Finset.range J.width, h.getD i 0 ^ 2 := Finset.sum_nonneg fun i _ => sq_nonneg _
  have images : 0 ≤ ∑ p ∈ Finset.range J.height, (∑ i ∈ Finset.range J.width, J.get p i * h.getD i 0) ^ 2 :=
    Finset.sum_nonneg fun p _ => sq_nonneg _
  positivity

/-- Where the prediction is not negative the quality is positive exactly for a step that goes down. -/
theorem stepQuality_pos {cost newCost predicted : ℝ} (nonneg : 0 ≤ predicted) :
    0 < stepQuality cost newCost predicted ↔ newCost < cost := by
  unfold stepQuality
  by_cases tiny : |predicted| < (1e-15 : ℝ)
  · by_cases down : newCost < cost
    · simp [tiny, down]
    · simp [tiny, down]
  · have positive : 0 < predicted := by
      rcases nonneg.lt_or_eq with positive | zero
      · exact positive
      · rw [← zero, abs_zero] at tiny
        exact absurd (by norm_num) tiny
    simp [tiny, positive]

end LeastSquares.LevenbergMarquardt

namespace LeastSquares.Damping

/-- The damping and the factor of the next rejection are positive. -/
structure Positive (d : Damping ℝ) : Prop where
  lambda : 0 < d.lambda
  nu : 0 < d.nu

theorem accept_positive {d : Damping ℝ} (positive : d.Positive) (lower quality : ℝ) :
    (d.accept lower quality).Positive := by
  refine ⟨?_, by norm_num [accept]⟩
  have third : (0 : ℝ) < 1 / 3.0 := by norm_num
  simp only [accept, Scalar.max_real]
  have factor : 0 < (1 / 3.0 : ℝ) ⊔ (1 - (2.0 * quality - 1) * (2.0 * quality - 1) * (2.0 * quality - 1)) :=
    third.trans_le le_sup_left
  exact (mul_pos positive.lambda factor).trans_le le_sup_left

theorem reject_positive {d : Damping ℝ} (positive : d.Positive) {upper : ℝ} (above : 0 < upper) :
    (d.reject upper).Positive := by
  have grown := mul_pos positive.lambda positive.nu
  have doubled : 0 < d.nu * 2.0 := mul_pos positive.nu (by norm_num)
  simp only [reject, Scalar.min_real]
  exact ⟨lt_min grown above, doubled⟩

end LeastSquares.Damping

end GraduatedFit

import GraduatedFit.Proofs.DampedStep
import GraduatedFit.Proofs.ScaledSystem
import GraduatedFit.Proofs.SingleFactor

/-! The reduction that a damped step predicts is that of the linear model of the cost, in whatever coordinates the
system was solved. -/

namespace GraduatedFit

open GraduatedFit.Elimination

namespace SparseMat

variable {J : SparseMat ℝ} {r h : Vec ℝ}

/-- The gradient along a step is the residual along the image of the step. -/
theorem transposeMul_adjoint (formed : J.WellFormed) (fits : r.length = J.height) (h : Vec ℝ) :
    ∑ a ∈ Finset.range J.width, h.getD a 0 * (J.transposeMul r).getD a 0 =
      ∑ p ∈ Finset.range J.height, r.getD p 0 * (J.mulVec h).getD p 0 := by
  calc
    _ = ∑ a ∈ Finset.range J.width, ∑ p ∈ Finset.range J.height, r.getD p 0 * (J.get p a * h.getD a 0) := by
      refine Finset.sum_congr rfl fun a member => ?_
      rw [transposeMul_getD formed _ (Finset.mem_range.mp member), fits, Finset.mul_sum]
      exact Finset.sum_congr rfl fun p _ => by ring
    _ = ∑ p ∈ Finset.range J.height, ∑ a ∈ Finset.range J.width, r.getD p 0 * (J.get p a * h.getD a 0) :=
      Finset.sum_comm
    _ = _ := by
      refine Finset.sum_congr rfl fun p member => ?_
      rw [mulVec_getD _ _ (Finset.mem_range.mp member), Finset.mul_sum]

/-- The squared norm after a step, expanded about the residual. -/
theorem normSq_moved (fits : r.length = J.height) (h : Vec ℝ) :
    Vec.normSq (List.zipWith (· + ·) r (J.mulVec h)) = Vec.normSq r +
      2 * ∑ p ∈ Finset.range J.height, r.getD p 0 * (J.mulVec h).getD p 0 + Vec.normSq (J.mulVec h) := by
  have length : (List.zipWith (· + ·) r (J.mulVec h)).length = J.height := by simp [fits]
  rw [Vec.normSq_eq_range _ length, Vec.normSq_eq_range _ fits, Vec.normSq_eq_range _ (length_mulVec J h),
    Finset.mul_sum, ← Finset.sum_add_distrib, ← Finset.sum_add_distrib]
  refine Finset.sum_congr rfl fun p member => ?_
  have inside := Finset.mem_range.mp member
  have entry : (List.zipWith (· + ·) r (J.mulVec h)).getD p 0 = r.getD p 0 + (J.mulVec h).getD p 0 := by
    simp [List.getD_eq_getElem?_getD, fits, inside]
  rw [entry]
  ring

end SparseMat

namespace LeastSquares.LevenbergMarquardt

section System

variable {J : SparseMat ℝ} {r h : Vec ℝ} {lambda : ℝ} (formed : J.WellFormed)
  (solves : Solves (J.damped (some lambda)) ((J.transposeMul r).map (- ·)) h)

include solves in
theorem length_solution : h.length = J.width := by
  rw [solves.length_eq, SparseMat.length_damped, SparseMat.width]

include formed solves

/-- A damped step goes against the gradient. -/
theorem gradient_along : ∑ a ∈ Finset.range J.width, h.getD a 0 * (J.transposeMul r).getD a 0 =
    -(Vec.normSq (J.mulVec h) + lambda * Vec.normSq h) := by
  rw [SparseMat.normSq_mulVec, ← SparseMat.gram_form formed, Vec.normSq_eq_range _ (length_solution solves),
    Finset.mul_sum, ← Finset.sum_add_distrib, ← Finset.sum_neg_distrib]
  refine Finset.sum_congr rfl fun a member => ?_
  rw [damped_row (SparseMat.length_transposeMul J r) solves (Finset.mem_range.mp member)]
  ring

theorem predictedReduction_squares : predictedReduction lambda h (J.transposeMul r) =
    lambda * Vec.normSq h + 1 / 2 * Vec.normSq (J.mulVec h) := by
  rw [predictedReduction_eq formed (SparseMat.length_transposeMul J r) solves,
    Vec.normSq_eq_range _ (length_solution solves), SparseMat.normSq_mulVec]

/-- The prediction is what the linear model of the residual loses. -/
theorem predictedReduction_model (fits : r.length = J.height) : predictedReduction lambda h (J.transposeMul r) =
    1 / 2 * Vec.normSq r - 1 / 2 * Vec.normSq (List.zipWith (· + ·) r (J.mulVec h)) := by
  rw [predictedReduction_squares formed solves, SparseMat.normSq_moved fits, ← SparseMat.transposeMul_adjoint formed fits,
    gradient_along formed solves]
  ring

/-- Nothing is predicted only where the step is zero. -/
theorem predictedReduction_eq_zero (damped : 0 < lambda) :
    predictedReduction lambda h (J.transposeMul r) = 0 ↔ ∀ a < J.width, h.getD a 0 = 0 := by
  rw [predictedReduction_squares formed solves]
  have image := Vec.normSq_nonneg (J.mulVec h)
  have steps := mul_nonneg damped.le (Vec.normSq_nonneg h)
  have squares := Vec.normSq_eq_range h (length_solution solves)
  constructor
  · intro zero
    have none : Vec.normSq h = 0 := by
      have : lambda * Vec.normSq h = 0 := by linarith
      exact (mul_eq_zero.mp this).resolve_left damped.ne'
    rw [squares, Finset.sum_eq_zero_iff_of_nonneg fun a _ => sq_nonneg _] at none
    exact fun a inside => sq_eq_zero_iff.mp (none a (Finset.mem_range.mpr inside))
  · intro still
    have none : Vec.normSq h = 0 := by
      rw [squares]
      exact Finset.sum_eq_zero fun a member => by rw [still a (Finset.mem_range.mp member), zero_pow two_ne_zero]
    have unmoved : Vec.normSq (J.mulVec h) = 0 := by
      rw [SparseMat.normSq_mulVec]
      refine Finset.sum_eq_zero fun p _ => ?_
      rw [sq_eq_zero_iff]
      exact Finset.sum_eq_zero fun a member => by rw [still a (Finset.mem_range.mp member), mul_zero]
    rw [none, unmoved]
    ring

/-- The step is zero exactly where the gradient is. -/
theorem step_zero_iff (damped : 0 < lambda) :
    (∀ a < J.width, h.getD a 0 = 0) ↔ ∀ a < J.width, (J.transposeMul r).getD a 0 = 0 := by
  constructor
  · intro still a inside
    rw [damped_row (SparseMat.length_transposeMul J r) solves inside, still a inside, mul_zero, add_zero,
      Finset.sum_eq_zero fun b member => by rw [still b (Finset.mem_range.mp member), mul_zero], neg_zero]
  · intro flat
    have against := gradient_along formed solves
    rw [Finset.sum_eq_zero fun a member => by rw [flat a (Finset.mem_range.mp member), mul_zero]] at against
    have image := Vec.normSq_nonneg (J.mulVec h)
    have steps := mul_nonneg damped.le (Vec.normSq_nonneg h)
    rw [← predictedReduction_eq_zero formed solves damped, predictedReduction_squares formed solves]
    linarith

end System

/-- A step and its prediction, in the coordinates of the variables: the prediction is what the linear model of the
residual loses by the step, and it is zero only where the gradient is. -/
structure Predicts (r : Vec ℝ) (J : SparseMat ℝ) (h : Vec ℝ) (predicted : ℝ) : Prop where
  length : h.length = J.width
  eq_model : predicted = 1 / 2 * Vec.normSq r - 1 / 2 * Vec.normSq (List.zipWith (· + ·) r (J.mulVec h))
  nonneg : 0 ≤ predicted
  zero_iff : predicted = 0 ↔ J.transposeMul r = List.replicate J.width 0
  still : predicted = 0 → h = List.replicate J.width 0

/-- What a solved system predicts in scaled coordinates is what the step of the variables gains. -/
theorem predicts {d : Direction ℝ} {factors : Vec ℝ} {lambda : ℝ} {r : Vec ℝ} {J : SparseMat ℝ}
    (solves : d.Solves factors (some lambda) r J) (formed : J.WellFormed) (fits : r.length = J.height)
    (length : factors.length = J.width) (nonzero : ∀ factor ∈ factors, factor ≠ 0) (damped : 0 < lambda) :
    Predicts r J d.step (predictedReduction lambda d.systemStep d.gradient) := by
  have formed' : (J.scaleColumns factors).WellFormed := SparseMat.scaleColumns_wellFormed formed
  have width := SparseMat.width_scaleColumns length
  have gradient : d.gradient = (J.scaleColumns factors).transposeMul r := by
    rw [solves.gradient_eq, SparseMat.transposeMul_scaleColumns]
  have factor (a : Nat) (inside : a < J.width) : factors.getD a 0 ≠ 0 :=
    Vec.getD_ne_zero nonzero (inside.trans_eq length.symm)
  have system := solves.system
  rw [gradient] at system ⊢
  have zero_iff := predictedReduction_eq_zero formed' system damped
  have step_iff := step_zero_iff formed' system damped
  rw [width] at zero_iff step_iff
  refine ⟨solves.length_step length, ?_, ?_, ?_, fun zero => ?_⟩
  · rw [predictedReduction_model formed' system fits, SparseMat.mulVec_scaleColumns length, ← solves.step_eq]
  · exact predictedReduction_nonneg formed' (SparseMat.length_transposeMul _ r) damped system
  · rw [zero_iff, step_iff, Vec.eq_zeros_iff (SparseMat.length_transposeMul J r)]
    refine forall₂_congr fun a inside => ?_
    rw [SparseMat.transposeMul_scaleColumns, Vec.getD_zipWith_mul, mul_eq_zero, or_iff_left (factor a inside)]
  · rw [Vec.eq_zeros_iff (solves.length_step length)]
    intro a inside
    rw [solves.step_eq, Vec.getD_zipWith_mul, zero_iff.mp zero a inside, zero_mul]

/-- Every damped system has a step, with or without scaling, and the reduction that the step predicts is what the linear
model of the residual loses by it. -/
theorem direction_predicts (config : LevenbergMarquardt ℝ) {s : DampedState ℝ} {r : Vec ℝ} {J : SparseMat ℝ}
    (formed : J.WellFormed) (fits : r.length = J.height) (ready : s.Ready config.useScaling true J)
    (damped : 0 < s.damping.lambda) : ∃ d, config.direction r J s = .ok d ∧
      Predicts r J d.step (predictedReduction s.damping.lambda d.systemStep d.gradient) := by
  have formed' : (J.scaleColumns (s.factors config.useScaling J)).WellFormed := SparseMat.scaleColumns_wellFormed formed
  have definite := SparseMat.damped_positiveDefinite formed' damped
  have ready' : s.Ready config.useScaling (some s.damping.lambda).isSome J := ready
  obtain ⟨d, solved, solves⟩ :=
    ready'.direction_exists fits definite .because (.numericalInstability .gradientUnavailable)
  exact ⟨d, solved, predicts solves formed fits ready.length_factors ready.factors_ne_zero damped⟩

theorem scaled_direction_predicts :
    let config : LevenbergMarquardt ℝ := { standard with useScaling := true }
    let J : SparseMat ℝ := ⟨1, [[(0, 2)]]⟩
    let s : DampedState ℝ := ⟨{ State.start (.single 0) 0 with scaling := some (.ofJacobian J) }, ⟨1, 2.0⟩⟩
    (s.Ready config.useScaling true J ∧ 0 < s.damping.lambda) ∧ ∃ d, config.direction [3] J s = .ok d ∧
      0 < predictedReduction s.damping.lambda d.systemStep d.gradient := by
  intro config J s
  have formed : J.WellFormed := by
    constructor <;> simp [J, SparseVec.Increasing, SparseVec.support]
  have ready : s.Ready config.useScaling true J := by
    refine ⟨NormalEquations.plannedFor_nothing _ _, fun _ => ⟨_, rfl, rfl, ?_⟩⟩
    intro factor member
    obtain rfl := List.mem_singleton.mp member
    have norm : (0 : ℝ) < 1 + Scalar.sqrt (SparseVec.normSq [(0, 2)]) :=
      add_pos_of_pos_of_nonneg one_pos (Real.sqrt_nonneg _)
    exact (one_div_pos.mpr norm).ne'
  have damped : 0 < s.damping.lambda := one_pos
  obtain ⟨d, solved, predicts⟩ := direction_predicts config (r := [3]) formed rfl ready damped
  refine ⟨⟨ready, damped⟩, d, solved, lt_of_le_of_ne predicts.nonneg fun zero => ?_⟩
  have slope := predicts.zero_iff.mp zero.symm
  norm_num [J, SparseMat.transposeMul, SparseMat.width, SparseVec.addDot] at slope

end LeastSquares.LevenbergMarquardt

end GraduatedFit

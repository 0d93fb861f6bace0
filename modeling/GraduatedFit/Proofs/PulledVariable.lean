import GraduatedFit.Proofs.SingleColumn

/-! A variable that two priors pull at, one of them towards zero and the other towards one, beside a variable that nothing
refers to. A damped step moves it to the mean of what it was and what pulls at it. -/

namespace GraduatedFit

open GraduatedFit.LeastSquares

/-- An estimate of the variable that is pulled. -/
def Values.beside (x : ℝ) : Values ℝ where
  entries := [("x", [x]), ("y", [7, -7])]
  increasing := List.pairwise_pair.mpr (show "x" < "y" by decide +kernel)

/-- The two priors with their deviations. -/
noncomputable def Graph.pulled (first second : ℝ) : Graph ℝ where
  factors := [⟨["x"], ⟨0, .prior [0]⟩, .isotropic 1 first⟩, ⟨["x"], ⟨1, .prior [1]⟩, .isotropic 1 second⟩]

section Priors

variable (first second x : ℝ)

theorem Graph.pulled_factorErrors : (pulled first second).factorErrors (.beside x) =
    .ok [0.5 * (x / first * (x / first)), 0.5 * ((x - 1) / second * ((x - 1) / second))] := by
  simp [Graph.factorErrors, pulled, Values.beside, GraphFactor.error, GraphFactor.residual, GraphFactor.params,
    Values.find, Values.get?, Factor.prior, Factor.ofParts, Vec.sub?, Vec.zip?, GraphFactor.checkResidual, Noise.dim,
    Result.ofShape, Noise.error?, Noise.whiten?, Vec.normSq, Vec.sum, Scalar.square]

theorem Graph.pulled_error : (pulled first second).error (.beside x) =
    .ok (0.5 * (x / first * (x / first)) + 0.5 * ((x - 1) / second * ((x - 1) / second))) := by
  simp [Graph.error, pulled_factorErrors]

theorem Graph.pulled_reweight {v w : ℝ} (nonneg : 0 ≤ v) (nonneg' : 0 ≤ w) :
    (pulled first second).reweight [v, w] = .ok (pulled (first / √v) (second / √w)) := by
  simp [Graph.reweight, pulled, Graph.size, Graph.withNoise, Graph.checkWeight, nonneg, nonneg', Noise.scaledByWeight?]

/-- The problem of the priors, with one column for their variable. -/
noncomputable def LeastSquares.Problem.pulled : Problem ℝ :=
  ⟨.pulled first second, ⟨[("x", 1)]⟩, ⟨2, 1, [(0, 0), (1, 0)]⟩⟩

namespace LeastSquares

theorem Problem.prepare_pulled :
    Problem.prepare (.pulled first second) (.beside x) = .ok (.pulled first second) := by
  simp [Problem.prepare, Problem.pulled, Graph.pulled, Values.beside, Graph.isEmpty, Graph.layout,
    Graph.variableNames, sortedNames, insertName, Values.find, Values.get?, Layout.totalDof, Graph.pattern,
    Graph.positionsFrom, Layout.start?, Layout.startIn, Graph.blockPositions, Noise.dim, Graph.residualDimension]

theorem Problem.linearize_pulled : (Problem.pulled first second).linearize (.beside x) =
    .ok ([x / first, (x - 1) / second], ⟨2, [[(0, 1 / first), (1, 1 / second)]]⟩) := by
  simp [Problem.linearize, Problem.pulled, Graph.linearize, Graph.linearizeBlock, Graph.pulled, Values.beside,
    GraphFactor.linearize, GraphFactor.params, Values.find, Values.get?, Factor.prior, Factor.ofParts, Vec.sub?, Vec.zip?,
    GraphFactor.checkResidual, Noise.dim, Result.ofShape, GraphFactor.checkJacobian, Mat.identity, Mat.ofFn, Mat.height,
    Noise.whitenSystem?, Noise.whiten?, Noise.whitenJacobian?, Mat.map, Graph.blockEntries, Pattern.fill?,
    SparseMat.ofEntries, SparseVec.accumulate]

theorem Problem.retract_pulled (h : ℝ) :
    (Problem.pulled first second).retract (.beside x) [h] = .ok (.beside (x + h)) := by
  simp [Problem.retract, Problem.pulled, Values.retract?, Values.beside, Layout.order, Values.get?,
    Values.mapValues, Result.ofShape]

theorem Problem.pulled_inclined : (Problem.pulled first second).Inclined (.beside x)
    (1 / first * (1 / first) + 1 / second * (1 / second)) (1 / first * (x / first) + 1 / second * ((x - 1) / second)) := by
  refine ⟨⟨_, _, linearize_pulled first second x, rfl, ?_, ?_⟩, ?_⟩
  · simp [SparseMat.gram, SparseMat.gramOf, SparseVec.overlap, SparseVec.products]
  · simp [SparseMat.transposeMul, SparseVec.addDot]
  · exact add_nonneg (mul_self_nonneg _) (mul_self_nonneg _)

end LeastSquares

end Priors

section Weights

/-- Two residuals under a deviation of one over the root of a weight have their product times the weight. -/
theorem weighted_product (a b : ℝ) {weight : ℝ} (nonneg : 0 ≤ weight) :
    a / (1 / √weight) * (b / (1 / √weight)) = weight * (a * b) := by
  rw [div_div_eq_mul_div, div_div_eq_mul_div, div_one, div_one]
  calc
    a * √weight * (b * √weight) = √weight * √weight * (a * b) := by ring
    _ = weight * (a * b) := by rw [Real.mul_self_sqrt nonneg]

variable {v w : ℝ} (nonneg : 0 ≤ v) (nonneg' : 0 ≤ w) (x : ℝ)
include nonneg nonneg'

theorem Graph.weighted_error : (pulled (1 / √v) (1 / √w)).error (.beside x) =
    .ok (0.5 * (v * (x * x)) + 0.5 * (w * ((x - 1) * (x - 1)))) := by
  rw [pulled_error, weighted_product x x nonneg, weighted_product (x - 1) (x - 1) nonneg']

namespace LeastSquares

theorem Problem.weighted_inclined :
    (Problem.pulled (1 / √v) (1 / √w)).Inclined (.beside x) (v + w) (v * x + w * (x - 1)) := by
  have inclined := Problem.pulled_inclined (1 / √v) (1 / √w) x
  rwa [weighted_product 1 1 nonneg, weighted_product 1 1 nonneg', weighted_product 1 x nonneg,
    weighted_product 1 (x - 1) nonneg', one_mul, one_mul, one_mul, mul_one, mul_one] at inclined

/-- The mean of what the variable was and what pulls at it, by the weights. -/
noncomputable def pulledMean (v w x : ℝ) : ℝ := (x + w) / (1 + v + w)

theorem pulledMean_eq_step : x + -(v * x + w * (x - 1)) / (v + w + 1) = pulledMean v w x := by
  have definite : 0 < 1 + v + w := by positivity
  have definite' : 0 < v + w + 1 := by positivity
  rw [pulledMean, eq_div_iff definite.ne']
  field_simp
  ring

theorem pulledMean_eq_self_iff : pulledMean v w x = x ↔ v * x + w * (x - 1) = 0 := by
  have definite : 0 < 1 + v + w := by positivity
  rw [pulledMean, div_eq_iff definite.ne', ← sub_eq_zero, ← neg_eq_zero]
  ring_nf

/-- The cost is lower at the mean unless the pulls are in balance, and then the variable is there already. -/
theorem pulledMean_lower_iff :
    0.5 * (v * (pulledMean v w x * pulledMean v w x)) + 0.5 * (w * ((pulledMean v w x - 1) * (pulledMean v w x - 1))) <
      0.5 * (v * (x * x)) + 0.5 * (w * ((x - 1) * (x - 1))) ↔ v * x + w * (x - 1) ≠ 0 := by
  have definite : 0 < 1 + v + w := by positivity
  have balance : (1 + v + w) * pulledMean v w x = x + w := mul_div_cancel₀ _ definite.ne'
  -- what the cost loses is a multiple of the squared step
  have loss : 0.5 * (v * (pulledMean v w x * pulledMean v w x)) +
      0.5 * (w * ((pulledMean v w x - 1) * (pulledMean v w x - 1))) =
        0.5 * (v * (x * x)) + 0.5 * (w * ((x - 1) * (x - 1))) - (0.5 * (v + w) + 1) * (pulledMean v w x - x) ^ 2 := by
    linear_combination (pulledMean v w x - x) * balance
  rw [loss, sub_lt_self_iff, mul_pos_iff_of_pos_left (by positivity), sq_pos_iff, sub_ne_zero]
  exact not_congr (pulledMean_eq_self_iff nonneg nonneg' x)

/-- A solver that makes one iteration, with a damping of one. -/
noncomputable def LevenbergMarquardt.brief : LevenbergMarquardt ℝ := { standard with maxIterations := 1, damping := 1 }

theorem LevenbergMarquardt.run_pulled (clock : Clock) (leftover : Option (ColumnScaling ℝ)) :
    ∃ solution step, (brief.run clock (.pulled (1 / √v) (1 / √w)) (.beside x) leftover).2.outcome = .ok solution ∧
      (brief.run clock (.pulled (1 / √v) (1 / √w)) (.beside x) leftover).2.steps = [step] ∧
      step.accepted = decide (v * x + w * (x - 1) ≠ 0) ∧ solution.values = .beside (pulledMean v w x) ∧
      solution.status = .maxIterationsReached := by
  have plain : brief.useScaling = false := rfl
  have lower := pulledMean_lower_iff nonneg nonneg' x
  have retracted := Problem.retract_pulled (1 / √v) (1 / √w) x (-(v * x + w * (x - 1)) / (v + w + 1))
  rw [pulledMean_eq_step nonneg nonneg' x] at retracted
  obtain ⟨solution, step, returned, steps, accepted, values, status⟩ :=
    run_column plain rfl rfl one_pos clock (Problem.prepare_pulled (1 / √v) (1 / √w) x)
      (Graph.weighted_error nonneg nonneg' x) (Problem.weighted_inclined nonneg nonneg' x) retracted
      (Graph.weighted_error nonneg nonneg' (pulledMean v w x)) leftover
  refine ⟨solution, step, returned, steps, accepted.trans (decide_eq_decide.mpr lower), ?_, status⟩
  rw [values]
  split
  · rfl
  · rename_i stays
    rw [(pulledMean_eq_self_iff nonneg nonneg' x).mpr (not_not.mp (mt lower.mpr stays))]

end LeastSquares

end Weights

namespace LeastSquares.LevenbergMarquardt

theorem brief_positive : 0 < brief.damping ∧ 0 < brief.dampingMax ∧ 0 < brief.dampingNu := by
  norm_num [brief, standard]

/-- Priors of deviation one pull evenly. -/
theorem run_evenly (x : ℝ) (clock : Clock) (leftover : Option (ColumnScaling ℝ)) :
    ∃ solution step, (brief.run clock (.pulled 1 1) (.beside x) leftover).2.outcome = .ok solution ∧
      (brief.run clock (.pulled 1 1) (.beside x) leftover).2.steps = [step] ∧
      step.accepted = decide (x + (x - 1) ≠ 0) ∧ solution.values = .beside ((x + 1) / 3) := by
  have even : (1 : ℝ) / √1 = 1 := by simp
  obtain ⟨solution, step, returned, steps, accepted, values, -⟩ := run_pulled zero_le_one zero_le_one x clock leftover
  rw [even] at returned steps
  rw [one_mul, one_mul] at accepted
  have three : (1 : ℝ) + 1 + 1 = 3 := by norm_num
  rw [pulledMean, three] at values
  exact ⟨solution, step, returned, steps, accepted, values⟩

end LeastSquares.LevenbergMarquardt

end GraduatedFit

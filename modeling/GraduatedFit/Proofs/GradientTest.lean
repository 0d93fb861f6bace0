import GraduatedFit.Proofs.FoldedValley

/-! The gradient norm of an iteration is taken in the coordinates of its system, so that with scaling on it is less than
that of the gradient. -/

namespace GraduatedFit

namespace Vec

theorem norm_eq_zero_iff {a : Vec ℝ} {n : Nat} (length : a.length = n) : norm a = 0 ↔ ∀ i < n, a.getD i 0 = 0 := by
  rw [norm, Scalar.sqrt_real, Real.sqrt_eq_zero (normSq_nonneg a), normSq_eq_range a length,
    Finset.sum_eq_zero_iff_of_nonneg fun i _ => sq_nonneg _]
  simp only [Finset.mem_range, sq_eq_zero_iff]

section Scaled

variable {a factors : Vec ℝ} {n : Nat} (length : a.length = n) (sized : factors.length = n)
  (bounds : ∀ factor ∈ factors, 0 < factor ∧ factor ≤ 1)
include length sized bounds

/-- Factors of at most one do not lengthen a vector. -/
theorem norm_scaled_le : norm (List.zipWith (· * ·) a factors) ≤ norm a := by
  have scaled : (List.zipWith (· * ·) a factors).length = n := by simp [length, sized]
  rw [norm, norm, normSq_eq_range _ scaled, normSq_eq_range _ length]
  refine Real.sqrt_le_sqrt (Finset.sum_le_sum fun i member => ?_)
  have inside : i < factors.length := (Finset.mem_range.mp member).trans_eq sized.symm
  obtain ⟨positive, small⟩ := bounds _ (List.getElem_mem inside)
  rw [getD_zipWith_mul, mul_pow, List.getD_eq_getElem factors _ inside]
  exact mul_le_of_le_one_right (sq_nonneg _) (pow_le_one₀ positive.le small)

theorem norm_scaled_eq_zero_iff : norm (List.zipWith (· * ·) a factors) = 0 ↔ norm a = 0 := by
  have scaled : (List.zipWith (· * ·) a factors).length = n := by simp [length, sized]
  rw [norm_eq_zero_iff scaled, norm_eq_zero_iff length]
  refine forall₂_congr fun i inside => ?_
  have factor := getD_ne_zero (fun factor member => (bounds factor member).1.ne') (inside.trans_eq sized.symm)
  rw [getD_zipWith_mul, mul_eq_zero, or_iff_left factor]

end Scaled

end Vec

namespace LeastSquares

section Status

variable {K : Type} [Scalar K]

theorem Criteria.interruption_ne_gradient (criteria : Criteria K) (elapsed : Nanoseconds) (step : Step K) :
    criteria.interruption elapsed step ≠ some .gradientToleranceReached := by
  unfold interruption
  split
  · simp
  · split
    · split <;> simp
    · simp

theorem Criteria.progressTest_ne_gradient (criteria : Criteria K) (step : Step K) :
    criteria.progressTest step ≠ some .gradientToleranceReached := by
  unfold progressTest
  split
  · simp
  · split
    · simp
    · split
      · split <;> simp
      · simp

/-- The status of the gradient is given by its test only. -/
theorem Criteria.gradientTest_of_status {criteria : Criteria K} {elapsed : Nanoseconds} {step : Step K} {limit : Nat}
    {rest : Option Status} (other : rest ≠ some .gradientToleranceReached)
    (decided : (criteria.interruption elapsed step <|>
      (if limit ≤ step.iteration + 1 then some Status.maxIterationsReached else none) <|>
        (criteria.gradientTest step <|> rest)) = some .gradientToleranceReached) :
    Scalar.lt step.gradientNorm criteria.gradientTolerance = true := by
  have uninterrupted := criteria.interruption_ne_gradient elapsed step
  cases interrupted : criteria.interruption elapsed step with
  | some status =>
      rw [interrupted] at decided uninterrupted
      exact absurd decided uninterrupted
  | none =>
      rw [interrupted] at decided
      by_contra large
      have failed : criteria.gradientTest step = none := if_neg large
      rw [failed] at decided
      by_cases last : limit ≤ step.iteration + 1
      · rw [if_pos last] at decided
        cases decided
      · rw [if_neg last] at decided
        exact other decided

theorem GaussNewton.gradient_of_status {config : GaussNewton K} {clock : Clock} {problem : Problem K} {limit : Nat}
    {step : Step K} (decided : (config.scheme clock problem).verdict limit step = some .gradientToleranceReached) :
    Scalar.lt step.gradientNorm config.gradientTolerance = true :=
  Criteria.gradientTest_of_status (config.progressTest_ne_gradient step) decided

theorem LevenbergMarquardt.gradient_of_status {config : LevenbergMarquardt K} {clock : Clock} {problem : Problem K}
    {limit : Nat} {step : Step K}
    (decided : (config.scheme clock problem).verdict limit step = some .gradientToleranceReached) :
    Scalar.lt step.gradientNorm config.gradientTolerance = true := by
  refine Criteria.gradientTest_of_status (orElse_ne ?_ ?_) decided
  · unfold radiusTest
    split
    · split <;> simp
    · simp
  · split
    · exact config.progressTest_ne_gradient step
    · simp

/-- A run that ends with the status of the gradient ends with an iteration that passes the test. -/
theorem Method.Loops.gradient_of_status {method : Method K} {clock : Clock} {problem : Problem K} {initial : Values K}
    {cost : K} {run : Run K} (loops : method.Loops clock problem initial cost run) {solution : Solution K}
    (returned : run.outcome = .ok solution) (status : solution.status = .gradientToleranceReached) :
    Scalar.lt solution.info.gradientNorm method.criteria.gradientTolerance = true := by
  cases loops with
  | gaussNewton loops =>
      obtain ⟨⟨step, _⟩, ended, rfl⟩ := Result.except_map_ok_iff.mp returned
      obtain rfl : _ = Status.gradientToleranceReached := status
      exact GaussNewton.gradient_of_status (loops.last ended).2
  | levenbergMarquardt loops =>
      obtain ⟨⟨step, _⟩, ended, rfl⟩ := Result.except_map_ok_iff.mp returned
      obtain rfl : _ = Status.gradientToleranceReached := status
      exact LevenbergMarquardt.gradient_of_status (loops.last ended).2

end Status

/-- What an iteration reports of the gradient `Jᵀr`, where the columns of its system have these factors. -/
structure Step.GradientIs (step : Step ℝ) (factors gradient : Vec ℝ) : Prop where
  scaled : step.gradientNorm = Vec.norm (List.zipWith (· * ·) gradient factors)
  le : step.gradientNorm ≤ Vec.norm gradient
  zero_iff : step.gradientNorm = 0 ↔ Vec.norm gradient = 0

theorem Step.Solves.gradientIs {step : Step ℝ} {problem : Problem ℝ} {before : Values ℝ} {factors r h : Vec ℝ}
    {added : ℝ} {J : SparseMat ℝ} (solves : step.Solves problem before factors added r J h)
    (bounds : ∀ factor ∈ factors, 0 < factor ∧ factor ≤ 1) : step.GradientIs factors (J.transposeMul r) where
  scaled := solves.gradientNorm_eq
  le := by
    rw [solves.gradientNorm_eq]
    exact Vec.norm_scaled_le (SparseMat.length_transposeMul J r) solves.width.symm bounds
  zero_iff := by
    rw [solves.gradientNorm_eq]
    exact Vec.norm_scaled_eq_zero_iff (SparseMat.length_transposeMul J r) solves.width.symm bounds

/-- Every iteration of a run reports the norm of its gradient in the coordinates of the first Jacobian's scaling, which is
that of the gradient itself where scaling is off. A run that ends with the status of the gradient ends with an iteration
whose norm is below the tolerance. -/
theorem Solver.optimize_gradient (solver : Solver ℝ) (clock : Clock) (graph : Graph ℝ) (initial : Values ℝ) :
    let run := (solver.optimize clock graph initial).2
    let useScaling := solver.method.criteria.useScaling
    (∀ i step, run.steps[i]? = some step → ∃ problem r₀ J₀ r J, Problem.prepare graph initial = .ok problem ∧
      problem.linearize initial = .ok (r₀, J₀) ∧ problem.linearize (run.estimate initial i) = .ok (r, J) ∧
      step.GradientIs (ColumnScaling.factorsFrom useScaling J₀) (J.transposeMul r) ∧
      (useScaling = false → step.gradientNorm = Vec.norm (J.transposeMul r))) ∧
    ∀ solution, run.outcome = .ok solution → ∃ step, run.steps[solution.iterations - 1]? = some step ∧
      solution.info.gradientNorm = step.gradientNorm ∧
      (solution.status = .gradientToleranceReached →
        step.gradientNorm < solver.method.criteria.gradientTolerance) := by
  intro run useScaling
  constructor
  · intro i step reported
    rcases solver.optimize_cases clock graph initial with ⟨failure, failed, -⟩ | ⟨problem, cost, prepared, -, loops⟩
    · rw [show run = _ from failed] at reported
      cases reported
    obtain ⟨r₀, J₀, r, J, h, first, solves, -⟩ := loops.solves (Problem.prepare_ok prepared).2 reported
    refine ⟨problem, r₀, J₀, r, J, prepared, first, solves.linear,
      solves.gradientIs ColumnScaling.factorsFrom_bounds, fun off => ?_⟩
    have width : J.width = J₀.width := by rw [solves.width, ColumnScaling.length_factorsFrom]
    have ones : List.zipWith (· * ·) (J.transposeMul r) (ColumnScaling.factorsFrom useScaling J₀) = J.transposeMul r := by
      rw [off]
      exact List.ext_getElem (by simp [ColumnScaling.factorsFrom, width]) fun a _ _ => by
        simp [ColumnScaling.factorsFrom]
    rw [solves.gradientNorm_eq]
    exact congrArg Vec.norm ones
  · intro solution returned
    have accounts := solver.optimize_ok returned
    obtain ⟨step, last, -, -, gradient, -⟩ := accounts.last
    rw [List.getLast?_eq_getElem?, ← accounts.iterations_eq] at last
    refine ⟨step, last, gradient.symm, fun status => ?_⟩
    rcases solver.optimize_cases clock graph initial with ⟨failure, failed, -⟩ | ⟨problem, cost, -, -, loops⟩
    · rw [show run = _ from failed] at returned
      cases returned
    have small := loops.gradient_of_status returned status
    rwa [Scalar.lt_real, decide_eq_true_eq, ← gradient] at small

/-- With scaling on a run ends with the status of the gradient where the gradient is far above the tolerance. -/
theorem Solver.folded_scaled_gradient :
    let config : GaussNewton ℝ :=
      { GaussNewton.standard with maxIterations := 2, gradientTolerance := 2.0, useScaling := true, minDiagonal := 0 }
    ∃ solution r J, ((Method.gaussNewton config).build.optimize (fun _ => 0) .folded (.single 0.3)).2.outcome =
        .ok solution ∧ solution.status = .gradientToleranceReached ∧ solution.iterations = 1 ∧
      Problem.folded.linearize (.single 0.3) = .ok (r, J) ∧ solution.info.gradientNorm = 1.68 ∧
      Vec.norm (J.transposeMul r) = 8.4 ∧ ¬ Vec.norm (J.transposeMul r) < config.gradientTolerance := by
  intro config
  have slope : tilt 0.3 = 4 := by norm_num [tilt]
  have residual : bend 0.3 = 2.1 := by norm_num [bend]
  have steep : tilt 0.3 ≠ 0 := slope ▸ four_ne_zero
  obtain ⟨s, step, r, J, h, -, number, solves, ends⟩ := GaussNewton.folded_first steep config (fun _ => 0)
  obtain ⟨rfl, rfl, -, -, -, gradient, -⟩ := solves.folded
  have norm : step.gradientNorm = 1.68 := by
    rw [gradient, slope, residual, SparseMat.slope_factorsFrom]
    norm_num [abs_of_pos]
  have stops : (config.scheme (fun _ => 0) .folded).verdict config.maxIterations step = some .gradientToleranceReached := by
    norm_num [Scheme.verdict, GaussNewton.scheme, GaussNewton.settlement, Criteria.interruption, Criteria.gradientTest,
      config, GaussNewton.standard, number, norm]
  have whole : Vec.norm ((SparseMat.slope (tilt 0.3)).transposeMul [bend 0.3]) = 8.4 := by
    rw [SparseMat.slope_transposeMul, slope, residual, Vec.norm_singleton]
    norm_num [abs_of_pos]
  refine ⟨_, _, _, ends _ stops, rfl, ?_, solves.linear, norm, whole, ?_⟩
  · simp [solution, number]
  · rw [whole]
    norm_num [config]

end LeastSquares

end GraduatedFit

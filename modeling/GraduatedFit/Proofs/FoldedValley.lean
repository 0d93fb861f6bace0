import GraduatedFit.Proofs.ScaledRuns
import GraduatedFit.Proofs.SingleFactor
import GraduatedFit.Factor.Benchmark

/-! The curved valley with one variable in the places of both: its residual bends, so that a step can gain less than it
predicts. -/

namespace GraduatedFit

open GraduatedFit.LeastSquares

noncomputable def Graph.folded : Graph ℝ := ⟨[⟨["x", "x"], ⟨0, .valley⟩, .unit 1⟩]⟩

/-- The residual of the graph. -/
noncomputable def bend (x : ℝ) : ℝ := 10.0 * (x - x * x)

/-- The slope of the residual. -/
noncomputable def tilt (x : ℝ) : ℝ := -20.0 * x + 10.0

theorem Graph.folded_error (x : ℝ) :
    folded.error (.single x) = .ok (0.5 * (bend x * bend x)) := by
  simp [bend, Graph.error, Graph.factorErrors, folded, Values.single, GraphFactor.error, GraphFactor.residual,
    GraphFactor.params, Values.find, Values.get?, Factor.valley, Factor.ofParts, GraphFactor.checkResidual, Noise.dim,
    Result.ofShape, Noise.error?, Noise.whiten?, Vec.normSq, Vec.sum, Scalar.square]

theorem Vec.norm_singleton (y : ℝ) : Vec.norm [y] = |y| := by
  simp [Vec.norm, Vec.normSq, Scalar.square, Real.sqrt_mul_self_eq_abs]

namespace SparseMat

/-- A Jacobian of one row and one column. -/
def slope (j : ℝ) : SparseMat ℝ := ⟨1, [[(0, j)]]⟩

theorem slope_formed (j : ℝ) : (slope j).WellFormed := by
  constructor <;> simp [slope, SparseVec.Increasing, SparseVec.support]

theorem slope_fullRank {j : ℝ} (steep : j ≠ 0) : (slope j).FullRank := by
  intro v unseen a inside
  obtain rfl : a = 0 := Nat.lt_one_iff.mp inside
  have row := unseen 0 one_pos
  simpa [slope, width, get, SparseVec.get, steep] using row

theorem slope_transposeMul (j r : ℝ) : (slope j).transposeMul [r] = [j * r] := by
  simp [slope, transposeMul, SparseVec.addDot]

theorem slope_mulVec (j h : ℝ) : (slope j).mulVec [h] = [j * h] := by
  simp [slope, mulVec, width, get, SparseVec.get]

theorem slope_factorsFrom (j : ℝ) : ColumnScaling.factorsFrom true (slope j) = [1 / (1 + |j|)] := by
  have norm : SparseVec.normSq [(0, j)] = j * j := by simp [SparseVec.normSq, Vec.normSq, Scalar.square]
  simp [ColumnScaling.factorsFrom, ColumnScaling.ofJacobian, slope, norm, Real.sqrt_mul_self_eq_abs]

end SparseMat

namespace LeastSquares

/-- The problem of the graph: both places of the variable are in its one column. -/
noncomputable def Problem.folded : Problem ℝ := ⟨.folded, ⟨[("x", 1)]⟩, ⟨1, 1, [(0, 0), (0, 0)]⟩⟩

theorem Problem.prepare_folded (x : ℝ) : Problem.prepare .folded (.single x) = .ok .folded := by
  simp [Problem.prepare, Problem.folded, Graph.folded, Values.single, Graph.isEmpty, Graph.layout,
    Graph.variableNames, sortedNames, insertName, Values.find, Values.get?, Layout.totalDof, Graph.pattern,
    Graph.positionsFrom, Layout.start?, Layout.startIn, Graph.blockPositions, Noise.dim, Graph.residualDimension]

theorem Problem.linearize_folded (x : ℝ) :
    Problem.folded.linearize (.single x) = .ok ([bend x], .slope (tilt x)) := by
  simp [bend, tilt, Problem.linearize, Problem.folded, Graph.linearize, Graph.linearizeBlock, Graph.folded, Values.single,
    GraphFactor.linearize, GraphFactor.params, Values.find, Values.get?, Factor.valley, Factor.ofParts,
    GraphFactor.checkResidual, Noise.dim, Result.ofShape, GraphFactor.checkJacobian, Mat.ofRows?, Mat.height,
    Noise.whitenSystem?, Noise.whiten?, Noise.whitenJacobian?, Graph.blockEntries, Pattern.fill?, SparseMat.ofEntries,
    SparseVec.accumulate, SparseMat.slope]

theorem Problem.retract_folded (x h : ℝ) :
    Problem.folded.retract (.single x) [h] = .ok (.single (x + h)) := by
  simp [Problem.retract, Problem.folded, Values.retract?, Values.single, Layout.order, Values.get?,
    Values.mapValues, Result.ofShape]

/-- What the solution of a system of the graph is. -/
theorem Step.Solves.folded {step : Step ℝ} {x added : ℝ} {factors r h : Vec ℝ} {J : SparseMat ℝ}
    (solves : step.Solves .folded (.single x) factors added r J h) :
    r = [bend x] ∧ J = .slope (tilt x) ∧ ∃ η, h = [η] ∧
      (tilt x * tilt x + added * (1 / factors.getD 0 0 ^ 2)) * η =
        -(tilt x * bend x) ∧
      step.gradientNorm = |tilt x * bend x * factors.getD 0 0| ∧ step.stepNorm = |η| ∧
      step.values = if step.accepted then .single (x + η) else .single x := by
  obtain ⟨rfl, rfl⟩ := Prod.mk.inj (Except.ok.inj ((Problem.linearize_folded x).symm.trans solves.linear))
  obtain ⟨η, rfl⟩ : ∃ η, h = [η] := List.length_eq_one_iff.mp solves.length
  obtain ⟨factor, rfl⟩ : ∃ factor, factors = [factor] := List.length_eq_one_iff.mp solves.width.symm
  obtain ⟨tried, cost, retracted, -, values⟩ := solves.moves
  obtain rfl := Except.ok.inj ((Problem.retract_folded x η).symm.trans retracted)
  have row := solves.equation 0 one_pos
  have gradient := solves.gradientNorm_eq
  rw [SparseMat.slope_transposeMul, SparseMat.slope_mulVec, SparseMat.slope_transposeMul] at row
  rw [SparseMat.slope_transposeMul, List.zipWith_cons_cons, List.zipWith_nil_left, Vec.norm_singleton] at gradient
  refine ⟨rfl, rfl, η, rfl, ?_, gradient, solves.stepNorm_eq.trans (Vec.norm_singleton η), values⟩
  simp only [List.getD_cons_zero] at row ⊢
  linarith

section FirstIteration

variable {x : ℝ} (steep : tilt x ≠ 0)
include steep

/-- Where the residual has a slope the first iteration finds a step, with or without scaling and damping. -/
theorem Problem.folded_direction (useScaling : Bool) {damping : Option ℝ} (nonneg : 0 ≤ damping.getD 0) (cost : ℝ)
    (fault : LinearError → SystemFault) (noGradient : SolveError ℝ) :
    ∃ d η, ({ (State.start (.single x) cost).updateScaling useScaling (.slope (tilt x)) with
      jacobianEvaluations := 0 + 1 } : State ℝ).direction useScaling damping fault noGradient [bend x]
        (.slope (tilt x)) = .ok d ∧ d.step = [η] ∧
      d.Solves (ColumnScaling.factorsFrom useScaling (.slope (tilt x))) damping [bend x]
        (.slope (tilt x)) := by
  have linear := Problem.linearize_folded x
  have inside := (Problem.prepare_ok (Problem.prepare_folded x)).2
  have follows := State.start_follows useScaling damping.isSome (.single x) (.slope (tilt x)) cost
  obtain ⟨formed, -, -, ready, factors, -⟩ := follows.rescaled inside linear linear
  have definite := ((SparseMat.fullRank_scaleColumns ready.length_factors ready.factors_ne_zero).mpr
    (SparseMat.slope_fullRank steep)).positiveDefinite (SparseMat.scaleColumns_wellFormed formed) nonneg
  have fits : [bend x].length = (SparseMat.slope (tilt x)).height := rfl
  obtain ⟨d, solved, solves⟩ := ready.direction_exists fits definite fault noGradient
  obtain ⟨η, step⟩ : ∃ η, d.step = [η] := List.length_eq_one_iff.mp (solves.length_step ready.length_factors)
  exact ⟨d, η, solved, step, factors ▸ solves⟩

theorem GaussNewton.folded_advance (config : GaussNewton ℝ) (cost : ℝ) :
    ∃ s' step, config.advance .folded (.start (.single x) cost) = (s', .ok step) := by
  obtain ⟨d, η, solved, step, -⟩ := Problem.folded_direction steep config.useScaling config.damping_nonneg cost
    (fun _ => .gaussNewton) (.linearSolveFailed .gradientUnavailable)
  have moved : Problem.folded.retract (config.rescaled (.slope (tilt x)) (.start (.single x) cost)).values d.step =
      .ok (.single (x + η)) := by
    rw [rescaled_values, step]
    exact Problem.retract_folded x η
  obtain ⟨s', step, done, -⟩ := take_exists moved (Graph.folded_error _)
  exact ⟨s', step, advance_ok_iff.mpr ⟨_, _, d, Problem.linearize_folded x, solved, done⟩⟩

/-- The first iteration of a run from an estimate where the residual has a slope, and the run where that is the last. -/
theorem GaussNewton.folded_first (config : GaussNewton ℝ) (clock : Clock) :
    let run := ((Method.gaussNewton config).build.optimize clock .folded (.single x)).2
    ∃ s step r J h, run.steps[0]? = some step ∧ step.iteration = 0 ∧
      step.Solves .folded (.single x) (ColumnScaling.factorsFrom config.useScaling (.slope (tilt x)))
        (config.damping.getD 0) r J h ∧
      ∀ status, (config.scheme clock .folded).verdict config.maxIterations step = some status →
        run.outcome = .ok (solution (0.5 * (bend x * bend x)) s step status) := by
  intro run
  have linear := Problem.linearize_folded x
  have inside := (Problem.prepare_ok (Problem.prepare_folded x)).2
  have loops := (Method.gaussNewton config).build.optimize_loops clock (Problem.prepare_folded x) (Graph.folded_error x)
  change Method.Loops clock .folded (.single x) _ (.gaussNewton config) run at loops
  clear_value run
  obtain ⟨s, step, advanced⟩ := folded_advance steep config (0.5 * (bend x * bend x))
  obtain ⟨-, -, r, J, h, solves⟩ := advance_solves inside linear (State.start_follows _ _ _ _ _) advanced
  have number : step.iteration = 0 :=
    ((config.scheme_keepsBooks clock .folded).reports (.start (.single x) _) s step advanced).number
  cases loops with
  | gaussNewton loops =>
      refine ⟨s, step, r, J, h, loops.reports_first advanced, number, solves, fun status verdict => ?_⟩
      rw [← loops.unique (.decided advanced verdict)]
      rfl

theorem LevenbergMarquardt.folded_advance (config : LevenbergMarquardt ℝ) (nonneg : 0 ≤ config.damping) (cost : ℝ) :
    ∃ s' step, config.advance .folded (config.start (.single x) cost) = (s', .ok step) := by
  have nonneg' : 0 ≤ (some config.damping).getD 0 := nonneg
  obtain ⟨d, η, solved, step, -⟩ := Problem.folded_direction steep config.useScaling nonneg' cost .because
    (.numericalInstability .gradientUnavailable)
  have solved : config.direction [bend x] (.slope (tilt x))
      (config.rescaled (.slope (tilt x)) (config.start (.single x) cost)) = .ok d := by
    rw [direction, rescaled_damping]
    exact solved
  have moved : Problem.folded.retract (config.rescaled (.slope (tilt x)) (config.start (.single x) cost)).values
      d.step = .ok (.single (x + η)) := by
    rw [rescaled_values, step]
    exact Problem.retract_folded x η
  obtain ⟨s', step, done, -⟩ := attempt_exists moved (Graph.folded_error _)
  exact ⟨s', step, advance_ok_iff.mpr ⟨_, _, d, Problem.linearize_folded x, solved, done⟩⟩

theorem LevenbergMarquardt.folded_first (config : LevenbergMarquardt ℝ) (nonneg : 0 ≤ config.damping) (clock : Clock) :
    let run := ((Method.levenbergMarquardt config).build.optimize clock .folded (.single x)).2
    ∃ s step, config.advance .folded (config.start (.single x) (0.5 * (bend x * bend x))) =
      (s, .ok step) ∧ run.steps[0]? = some step := by
  intro run
  have loops :=
    (Method.levenbergMarquardt config).build.optimize_loops clock (Problem.prepare_folded x) (Graph.folded_error x)
  change Method.Loops clock .folded (.single x) _ (.levenbergMarquardt config) run at loops
  clear_value run
  obtain ⟨s, step, advanced⟩ := folded_advance steep config nonneg (0.5 * (bend x * bend x))
  cases loops with
  | levenbergMarquardt loops => exact ⟨s, step, advanced, loops.reports_first advanced⟩

end FirstIteration

end LeastSquares

end GraduatedFit

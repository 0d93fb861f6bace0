import GraduatedFit.Proofs.SingleColumn

/-! Graphs whose factors do not depend on their variable: a damped step leaves the estimate where it is. -/

namespace GraduatedFit

open GraduatedFit.LeastSquares

/-- A factor of one variable whose residual is always the same. -/
noncomputable def Factor.fixed (residual : ℝ) : Factor ℝ where
  dim := 1
  arity := 1
  linearize? _ wanted := some ([residual], if wanted then some (Mat.ofFn 1 1 fun _ _ => 0) else none)

noncomputable def Graph.single (residual sigma : ℝ) : Graph ℝ :=
  ⟨[⟨["x"], ⟨0, .fixed residual⟩, .isotropic 1 sigma⟩]⟩

def Values.single (x : ℝ) : Values ℝ := ⟨[("x", [x])], List.pairwise_singleton _ _⟩

theorem Graph.single_factorErrors (residual sigma x : ℝ) :
    (single residual sigma).factorErrors (.single x) = .ok [0.5 * (residual / sigma * (residual / sigma))] := by
  simp [Graph.factorErrors, single, Values.single, GraphFactor.error, GraphFactor.residual, GraphFactor.params,
    Values.find, Values.get?, Factor.fixed, GraphFactor.checkResidual, Noise.dim, Result.ofShape, Noise.error?,
    Noise.whiten?, Vec.normSq, Vec.sum, Scalar.square]

theorem Graph.single_error (residual sigma x : ℝ) :
    (single residual sigma).error (.single x) = .ok (0.5 * (residual / sigma * (residual / sigma))) := by
  simp [Graph.error, single_factorErrors]

theorem Graph.single_reweight (residual sigma : ℝ) {weight : ℝ} (nonneg : 0 ≤ weight) :
    (single residual sigma).reweight [weight] = .ok (single residual (sigma / √weight)) := by
  simp [Graph.reweight, single, Graph.size, Graph.withNoise, Graph.checkWeight, nonneg, Noise.scaledByWeight?]

/-- The problem of the graph, with one column for its variable. -/
noncomputable def LeastSquares.Problem.single (residual sigma : ℝ) : Problem ℝ :=
  ⟨.single residual sigma, ⟨[("x", 1)]⟩, ⟨1, 1, [(0, 0)]⟩⟩

namespace LeastSquares

theorem Problem.prepare_single (residual sigma x : ℝ) :
    Problem.prepare (.single residual sigma) (.single x) = .ok (.single residual sigma) := by
  simp [Problem.prepare, Problem.single, Graph.single, Values.single, Graph.isEmpty, Graph.layout,
    Graph.variableNames, sortedNames, insertName, Values.find, Values.get?, Layout.totalDof, Graph.pattern,
    Graph.positionsFrom, Layout.start?, Layout.startIn, Graph.blockPositions, Noise.dim, Graph.residualDimension]

theorem Problem.linearize_single (residual sigma x : ℝ) :
    (Problem.single residual sigma).linearize (.single x) = .ok ([residual / sigma], ⟨1, [[(0, 0)]]⟩) := by
  simp [Problem.linearize, Problem.single, Graph.linearize, Graph.linearizeBlock, Graph.single, Values.single,
    GraphFactor.linearize, GraphFactor.params, Values.find, Values.get?, Factor.fixed, GraphFactor.checkResidual,
    Noise.dim, Result.ofShape, GraphFactor.checkJacobian, Mat.ofFn, Mat.height, Noise.whitenSystem?, Noise.whiten?,
    Noise.whitenJacobian?, Mat.map, Graph.blockEntries, Pattern.fill?, SparseMat.ofEntries, SparseVec.accumulate]

theorem Problem.retract_single (residual sigma x : ℝ) :
    (Problem.single residual sigma).retract (.single x) [0] = .ok (.single x) := by
  simp [Problem.retract, Problem.single, Values.retract?, Values.single, Layout.order, Values.get?,
    Values.mapValues, Result.ofShape]

/-- At an estimate the cost has no slope along the only column. -/
structure Problem.Still (problem : Problem ℝ) (values : Values ℝ) : Prop where
  cost : ∃ cost, problem.cost values = .ok cost
  inclined : problem.Inclined values 0 0
  retract : problem.retract values [0] = .ok values

theorem Problem.single_still (residual sigma x : ℝ) : (Problem.single residual sigma).Still (.single x) := by
  refine ⟨⟨_, Graph.single_error residual sigma x⟩, ⟨⟨_, _, linearize_single residual sigma x, rfl, ?_, ?_⟩, le_rfl⟩,
    retract_single residual sigma x⟩
  · simp [SparseMat.gram, SparseMat.gramOf, SparseVec.overlap, SparseVec.products]
  · simp [SparseMat.transposeMul, SparseVec.addDot]

namespace LevenbergMarquardt

variable {config : LevenbergMarquardt ℝ}

/-- A run of one iteration ends where it began. -/
theorem run_still (plain : config.useScaling = false) (once : config.maxIterations = 1)
    (timeless : config.timeout = none) (damped : 0 < config.damping) (clock : Clock) {graph : Graph ℝ}
    {initial : Values ℝ} {problem : Problem ℝ} (prepared : Problem.prepare graph initial = .ok problem)
    (still : problem.Still initial) (leftover : Option (ColumnScaling ℝ)) :
    ∃ solution, (config.run clock graph initial leftover).2.outcome = .ok solution ∧
      solution.values = initial ∧ solution.status = .maxIterationsReached := by
  obtain ⟨cost, known⟩ := still.cost
  have stays : problem.retract initial [-0 / (0 + config.damping)] = .ok initial := by
    simpa using still.retract
  obtain ⟨solution, -, returned, -, -, values, status⟩ :=
    run_column plain once timeless damped clock prepared known still.inclined stays known leftover
  exact ⟨solution, returned, by rw [values, ite_self], status⟩

end LevenbergMarquardt

end LeastSquares

end GraduatedFit

import GraduatedFit.Proofs.StoppingTests
import GraduatedFit.Proofs.WeightShape

/-! Which slots a continuation with truncated losses keeps as inliers: those inside of the threshold of the last control
parameter, which is the configured threshold only where that parameter is one. -/

namespace GraduatedFit

namespace Continuation

open LeastSquares

theorem mem_inlierSlots {K : Type} [Scalar K] {weights : Vec K} {slot : Nat} :
    slot ∈ inlierSlots weights ↔ ∃ w, weights[slot]? = some w ∧ Scalar.lt 0.5 w = true := by
  simp only [inlierSlots, List.mem_map, List.mem_filter, Prod.exists, List.mem_zipIdx_iff_getElem?]
  constructor
  · rintro ⟨w, _, ⟨found, heavy⟩, rfl⟩
    exact ⟨w, found, heavy⟩
  · rintro ⟨w, found, heavy⟩
    exact ⟨w, slot, ⟨found, heavy⟩, rfl⟩

theorem saturated_iff {weights : Vec ℝ} {tolerance : ℝ} {pinned : Nat → Bool} :
    saturated weights tolerance pinned = true ↔
      (∀ (slot : Nat) w, weights[slot]? = some w → pinned slot = true ∨ w ≤ tolerance ∨ 1 - tolerance ≤ w) ∧
        ∃ (slot : Nat) (w : ℝ), weights[slot]? = some w ∧ 1 - tolerance ≤ w := by
  simp only [saturated, nearOne, Bool.and_eq_true, List.all_eq_true, List.any_eq_true, Prod.forall,
    List.mem_zipIdx_iff_getElem?, Bool.or_eq_true, Scalar.le_real, decide_eq_true_eq, or_assoc]
  refine and_congr ⟨fun all slot w => all w slot, fun all w slot => all slot w⟩ ?_
  simp only [List.mem_iff_getElem?]
  constructor
  · rintro ⟨w, ⟨slot, found⟩, near⟩
    exact ⟨slot, w, found, near⟩
  · rintro ⟨slot, w, found, near⟩
    exact ⟨w, ⟨slot, found⟩, near⟩

/-- A truncated weight is one, or it is below a quarter. -/
theorem half_lt_truncatedWeight {e mu threshold : ℝ} (positive : 0 < mu * threshold) :
    0.5 < truncatedWeight e mu threshold ↔ e ≤ mu * threshold := by
  rcases le_or_gt e (mu * threshold) with inside | outside
  · rw [truncatedWeight_inside inside]
    exact iff_of_true (by norm_num) inside
  · have light := truncatedWeight_lt_quarter positive outside
    refine iff_of_false (fun heavy => ?_) outside.not_ge
    norm_num at heavy
    linarith

namespace Optimizer

section Last

variable {K : Type} [Scalar K]

/-- The weights of a run are those of its last iteration. Where they are saturated the control parameter that is
reported is the one that they are made with. -/
theorem optimize_last {o : Optimizer K} {clock : Nat → Clock} {solution : Solution K}
    (finished : (o.optimize clock).outcome = .ok solution) (iterated : 1 ≤ solution.iterations) :
    ∃ mu, o.initialMu = .ok mu ∧ Scalar.le mu 0 = false ∧
      o.weightsAt solution.values (o.muAt mu (solution.iterations - 1)) = .ok solution.weights ∧
      (o.weightsSaturated solution.weights = true → solution.mu = o.muAt mu (solution.iterations - 1)) := by
  obtain ⟨-, last, present, values, weights⟩ := optimize_final finished iterated
  obtain ⟨mu, initial, positive, someFree, iterates⟩ := optimize_iterates present
  have closes := optimize_closes clock initial positive someFree
  have weighed := optimize_weighed present
  rw [values, weights, iterates.mu_eq] at weighed
  refine ⟨mu, initial, positive, weighed, fun saturated => ?_⟩
  obtain ⟨-, -, ended⟩ := closes.stops present (verdict_weights_iff.mpr (weights ▸ saturated))
  exact congrArg Solution.mu (Except.ok.inj (finished.symm.trans ended))

end Last

/-- With truncated losses the control parameter grows by the same factor in every iteration. -/
theorem muAt_truncated {o : Optimizer ℝ} (truncated : o.config.family = .truncatedLeastSquares) (mu : ℝ) (i : Nat) :
    o.muAt mu i = mu * o.config.muStep ^ i := by
  induction i with
  | zero => simp
  | succ i ih =>
      rw [muAt_succ, ih, nextMu, truncated]
      exact (mul_assoc _ _ _).trans (by rw [← pow_succ])

/-- Where the weights of a run with truncated losses are saturated, a free slot is kept as an inlier if its error at the
result is within the threshold scaled by the control parameter of the result, and not otherwise. -/
theorem saturated_partition {graph : Graph ℝ} {initial : Values ℝ} {config : Config ℝ} {o : Optimizer ℝ}
    (reachable : Reachable graph initial config o) (truncated : config.family = .truncatedLeastSquares)
    (clock : Nat → Clock) {solution : Solution ℝ} (finished : (o.optimize clock).outcome = .ok solution)
    (iterated : 1 ≤ solution.iterations) (saturated : o.weightsSaturated solution.weights = true) :
    (∃ mu, o.initialMu = .ok mu ∧ 0 < mu ∧ solution.mu = mu * config.muStep ^ (solution.iterations - 1)) ∧
      ∃ errors, graph.stripRobustLosses.factorErrors solution.values = .ok errors ∧
        ∀ slot e, errors[slot]? = some e → config.knownInliers.contains slot = false →
          (slot ∈ solution.inlierSlots ↔ e ≤ solution.mu * config.threshold) := by
  have built := reachable.builtFrom
  obtain ⟨threshold, growing⟩ := Config.validate_real built.valid
  obtain ⟨mu, parameter, positive, weighed, reported⟩ := optimize_last finished iterated
  have start : 0 < mu := by simpa using positive
  have low : 0 < solution.mu := by
    rw [reported saturated]
    exact muAt_pos start (built.config_eq ▸ growing) _
  refine ⟨⟨mu, parameter, start, ?_⟩, ?_⟩
  · rw [reported saturated, muAt_truncated (built.config_eq ▸ truncated), built.config_eq]
  · obtain ⟨errors, known, weights⟩ := built.weights_eq weighed
    rw [← reported saturated] at weights
    refine ⟨errors, known, ?_⟩
    intro slot e found free
    have weight : solution.weights[slot]? = some (truncatedWeight e solution.mu config.threshold) := by
      rw [weights, Continuation.weights, List.getElem?_mapIdx, found, truncated, Option.map_some, free]
      rfl
    rw [Solution.inlierSlots, mem_inlierSlots, weight, ← half_lt_truncatedWeight (mul_pos low threshold)]
    simp

end Optimizer

end Continuation

/-- Three factors of one variable, of errors zero, one half and two hundred wherever the variable is. -/
noncomputable def Graph.triple : Graph ℝ :=
  ⟨[⟨["x"], ⟨0, .fixed 0⟩, .isotropic 1 1⟩, ⟨["x"], ⟨1, .fixed 1⟩, .isotropic 1 1⟩,
    ⟨["x"], ⟨2, .fixed 20⟩, .isotropic 1 1⟩]⟩

theorem Graph.triple_factorErrors (x : ℝ) : triple.factorErrors (.single x) = .ok [0, 1 / 2, 200] := by
  simp [Graph.factorErrors, triple, Values.single, GraphFactor.error, GraphFactor.residual, GraphFactor.params,
    Values.find, Values.get?, Factor.fixed, GraphFactor.checkResidual, Noise.dim, Result.ofShape, Noise.error?,
    Noise.whiten?, Vec.normSq, Vec.sum, Scalar.square]
  norm_num

theorem Graph.triple_reweight : triple.reweight [1, 1, 1] = .ok triple := by
  simp [Graph.reweight, triple, Graph.size, Graph.withNoise, Graph.checkWeight, Noise.scaledByWeight?]

namespace LeastSquares

/-- The problem of the three factors, with one column for their variable. -/
noncomputable def Problem.triple : Problem ℝ :=
  ⟨.triple, ⟨[("x", 1)]⟩, ⟨3, 1, [(0, 0), (1, 0), (2, 0)]⟩⟩

theorem Problem.prepare_triple (x : ℝ) : Problem.prepare .triple (.single x) = .ok .triple := by
  simp [Problem.prepare, Problem.triple, Graph.triple, Values.single, Graph.isEmpty, Graph.layout,
    Graph.variableNames, sortedNames, insertName, Values.find, Values.get?, Layout.totalDof, Graph.pattern,
    Graph.positionsFrom, Layout.start?, Layout.startIn, Graph.blockPositions, Noise.dim, Graph.residualDimension]

theorem Problem.linearize_triple (x : ℝ) :
    Problem.triple.linearize (.single x) = .ok ([0, 1, 20], ⟨3, [[(0, 0), (1, 0), (2, 0)]]⟩) := by
  simp [Problem.linearize, Problem.triple, Graph.linearize, Graph.linearizeBlock, Graph.triple, Values.single,
    GraphFactor.linearize, GraphFactor.params, Values.find, Values.get?, Factor.fixed, GraphFactor.checkResidual,
    Noise.dim, Result.ofShape, GraphFactor.checkJacobian, Mat.ofFn, Mat.height, Noise.whitenSystem?, Noise.whiten?,
    Noise.whitenJacobian?, Mat.map, Graph.blockEntries, Pattern.fill?, SparseMat.ofEntries, SparseVec.accumulate]

theorem Problem.triple_still (x : ℝ) : Problem.triple.Still (.single x) := by
  refine ⟨⟨0 + 1 / 2 + 200, ?_⟩, ⟨⟨_, _, linearize_triple x, rfl, ?_, ?_⟩, le_rfl⟩, ?_⟩
  · simp [Problem.cost, Problem.triple, Graph.error, Graph.triple_factorErrors]
  · simp [SparseMat.gram, SparseMat.gramOf, SparseVec.overlap, SparseVec.products]
  · simp [SparseMat.transposeMul, SparseVec.addDot]
  · simp [Problem.retract, Problem.triple, Values.retract?, Values.single, Layout.order, Values.get?,
      Values.mapValues, Result.ofShape]

end LeastSquares

namespace Continuation

open LeastSquares

namespace Optimizer

/-- The three factors with truncated losses and the default threshold of one. -/
noncomputable def early : Optimizer ℝ where
  graph := .triple
  estimate := .single 0
  config := .ofBase (.levenbergMarquardt { LevenbergMarquardt.standard with maxIterations := 1 })
  weights := [1, 1, 1]
  known := [false, false, false]

theorem early_created : create .triple (.single 0) early.config = .ok early := by
  have valid : early.config.validate = .ok () := Config.validate_ok_iff.mpr (by norm_num [early, Config.ofBase])
  exact create_ok_iff.mpr ⟨valid, List.forall_mem_nil _, rfl⟩

theorem early_initialMu : early.initialMu = .ok (1 / 399) := by
  have start : early.graph.factorErrors early.estimate = .ok [0, 1 / 2, 200] := Graph.triple_factorErrors 0
  rw [initialMu, start]
  simp [largestError, early, Config.ofBase, Family.initialMu]
  norm_num

/-- The weights at the first control parameter. -/
noncomputable def earlyWeights : Vec ℝ := [1, (2 / 401) ^ 2, (1 / 79801) ^ 2]

theorem early_weightsAt : early.weightsAt (.single 0) (1 / 399) = .ok earlyWeights := by
  have errors : early.graph.factorErrors (.single 0) = .ok [0, 1 / 2, 200] := Graph.triple_factorErrors 0
  rw [weightsAt, errors]
  simp [checkErrors, Continuation.weights, isKnown, early, Config.ofBase, Family.weight, truncatedWeight,
    rationalWeight, Scalar.square, earlyWeights]
  norm_num

theorem early_saturated : early.weightsSaturated earlyWeights = true := by
  simp [weightsSaturated, saturated, nearOne, isKnown, early, Config.ofBase, earlyWeights]
  norm_num

theorem early_step : ∃ cost, (early.step (fun _ => 0) 0 (1 / 399)).2 =
    .ok ({ early with weights := earlyWeights }, ⟨0, 1 / 399, earlyWeights, .single 0, cost⟩) := by
  have damped : (0 : ℝ) < LevenbergMarquardt.standard.damping := by norm_num [LevenbergMarquardt.standard]
  exact step_still (o := early) rfl rfl rfl rfl damped (Problem.prepare_triple 0) (Problem.triple_still 0)
    Graph.triple_reweight (fun _ => 0) 0 early_weightsAt

/-- The run stops at its first iteration, with a control parameter that is far below one. -/
theorem early_optimize : (early.optimize fun _ _ => 0).outcome =
    .ok ⟨.single 0, earlyWeights, 1, .converged, 1 / 399⟩ := by
  have cost : early.graph.error early.estimate = .ok (0 + 1 / 2 + 200) := by
    have errors : early.graph.factorErrors early.estimate = .ok [0, 1 / 2, 200] := Graph.triple_factorErrors 0
    simp [Graph.error, errors]
  have someFree : early.known.all id = false := rfl
  have positive : Scalar.le (1 / 399 : ℝ) 0 = false := by norm_num
  obtain ⟨-, -, outcome⟩ := optimize_begun (fun _ _ => 0) early_initialMu cost someFree positive
  obtain ⟨_, stepped⟩ := early_step
  rw [outcome]
  exact congrArg Run.outcome (continueFrom_saturated 99 stepped early_saturated)

/-- The weights that the three factors end with keep the first one only, although the error of the second is within the
configured threshold. -/
theorem early_excludes : ∃ solution, Reachable .triple (.single 0) early.config early ∧
    early.config.family = .truncatedLeastSquares ∧ early.config.weightsTolerance < 1 / 4 ∧
    (early.optimize fun _ _ => 0).outcome = .ok solution ∧ solution.outcome = .converged ∧ 1 ≤ solution.iterations ∧
    early.weightsSaturated solution.weights = true ∧
    ∃ errors e, Graph.triple.stripRobustLosses.factorErrors solution.values = .ok errors ∧ errors[1]? = some e ∧
      early.config.knownInliers.contains 1 = false ∧ e ≤ early.config.threshold ∧ 1 ∉ solution.inlierSlots := by
  have errors : Graph.triple.stripRobustLosses.factorErrors (.single 0) = .ok [0, 1 / 2, 200] :=
    Graph.triple_factorErrors 0
  have tolerance : early.config.weightsTolerance < 1 / 4 := by norm_num [early, Config.ofBase]
  have within : (1 / 2 : ℝ) ≤ early.config.threshold := by norm_num [early, Config.ofBase]
  have light : 1 ∉ inlierSlots earlyWeights := by
    intro member
    obtain ⟨w, found, heavy⟩ := mem_inlierSlots.mp member
    obtain rfl : (2 / 401) ^ 2 = w := Option.some.inj found
    norm_num at heavy
  exact ⟨_, .created early_created, rfl, tolerance, early_optimize, rfl, le_rfl, early_saturated, _, _, errors, rfl,
    rfl, within, light⟩

theorem early_partition : ∃ solution, (early.optimize fun _ _ => 0).outcome = .ok solution ∧
    ∃ errors, Graph.triple.stripRobustLosses.factorErrors solution.values = .ok errors ∧
      ∀ slot e, errors[slot]? = some e → early.config.knownInliers.contains slot = false →
        (slot ∈ solution.inlierSlots ↔ e ≤ solution.mu * early.config.threshold) := by
  obtain ⟨-, partition⟩ := saturated_partition (.created early_created) rfl (fun _ _ => 0) early_optimize le_rfl
    early_saturated
  exact ⟨_, early_optimize, partition⟩

end Optimizer

end Continuation

end GraduatedFit

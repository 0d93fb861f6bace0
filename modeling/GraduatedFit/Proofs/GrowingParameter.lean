import GraduatedFit.Proofs.ControlParameter
import GraduatedFit.Proofs.EvenWeights

/-! With truncated losses the control parameter moves ever faster, so its test ends a run at once or never. -/

namespace GraduatedFit.Continuation.Optimizer

open LeastSquares

section Loop

variable {o : Optimizer ℝ} {left : Nat} {mu : ℝ} {run : Run ℝ}
  (closes : o.Closes left 0 mu run) (truncated : o.config.family = .truncatedLeastSquares) (positive : 0 < mu)
  (growing : 1 < o.config.muStep)
include closes truncated positive growing

/-- An iteration whose step of the control parameter is within the tolerance comes after steps that are smaller still. -/
theorem parameter_stops_first {i : Nat} (stopped : run.StopsBy .parameter i) : i = 0 := by
  obtain ⟨record, present, met⟩ := closes.stopsBy_from_zero.mp stopped
  obtain ⟨-, within⟩ := verdict_parameter_iff.mp met
  by_contra later
  have inside := (List.getElem?_eq_some_iff.mp present).1
  have first : run.iterations[0]? = some run.iterations[0] := List.getElem?_eq_getElem _
  obtain ⟨-, beyond⟩ := verdict_none_iff.mp (closes.undecided first (.inl (by omega)))
  have start : mu ≤ o.muAt mu i := muAt_truncated_le truncated positive.le growing i
  rw [muConverged_truncated_iff truncated (positive.trans_le start) growing] at within
  have small : mu * (o.config.muStep - 1) ≤ o.config.costTolerance :=
    (mul_le_mul_of_nonneg_right start (by linarith)).trans within
  rw [muAt_zero, (muConverged_truncated_iff truncated positive growing).mpr small] at beyond
  cases beyond

theorem parameter_stops_first_iff {first : Iteration ℝ} (present : run.iterations[0]? = some first) :
    run.StopsBy .parameter 0 ↔
      o.weightsSaturated first.weights = false ∧ mu * (o.config.muStep - 1) ≤ o.config.costTolerance := by
  rw [closes.stopsBy_from_zero, ← muConverged_truncated_iff truncated positive growing, ← verdict_parameter_iff, muAt_zero]
  constructor
  · rintro ⟨record, present', met⟩
    obtain rfl := Option.some.inj (present'.symm.trans present)
    exact met
  · exact fun met => ⟨first, present, met⟩

/-- A run that is ended later is ended by its weights. -/
theorem saturated_of_later {solution : Solution ℝ} (finished : run.outcome = .ok solution)
    (converged : solution.outcome = .converged) (later : 2 ≤ solution.iterations) :
    o.weightsSaturated solution.weights = true := by
  rcases closes.finished_cases finished with ⟨-, i, record, test, count, present, met⟩ | ⟨limit, -⟩
  · obtain ⟨-, -, ended⟩ := closes.stops present met
    obtain rfl := Except.ok.inj (ended.symm.trans finished)
    cases test with
    | weights => exact verdict_weights_iff.mp met
    | parameter =>
        have stopped : run.StopsBy .parameter i := closes.stopsBy_from_zero.mpr ⟨record, present, met⟩
        obtain rfl := parameter_stops_first closes truncated positive growing stopped
        exact absurd later (by simp)
  · rw [limit] at converged
    cases converged

end Loop

/-- The first control parameter of truncated losses, from the worst error. -/
theorem initialMu_truncated {o : Optimizer ℝ} {mu worst : ℝ} {errors : List ℝ}
    (truncated : o.config.family = .truncatedLeastSquares) (initial : o.initialMu = .ok mu)
    (known : o.graph.factorErrors o.estimate = .ok errors) (greatest : IsGreatest {e | e ∈ errors} worst)
    (nonneg : 0 ≤ worst) : mu = o.config.threshold / (2 * worst - o.config.threshold) := by
  rw [initialMu, known, Result.ok_bind, truncated, largestError_eq greatest nonneg] at initial
  obtain rfl : o.config.threshold / (2.0 * worst - o.config.threshold) = mu := Except.ok.inj initial
  norm_num

/-- With truncated losses the test of the control parameter ends a run in its first iteration or never: there, if the
weights are not saturated and the first step of the control parameter is within the tolerance. So a run that converges
later does so by its weights, and one whose worst error makes the first control parameter small converges after a single
solve of the graph without weights. -/
theorem growing_parameter_stops {graph : Graph ℝ} {initial : Values ℝ} {config : Config ℝ} {o : Optimizer ℝ}
    (reachable : Reachable graph initial config o) (truncated : config.family = .truncatedLeastSquares)
    (clock : Nat → Clock) {mu : ℝ} (started : o.initialMu = .ok mu) (positive : 0 < mu)
    (someFree : o.known.all id = false) {solution : Solution ℝ} (finished : (o.optimize clock).outcome = .ok solution) :
    let run := o.optimize clock
    (∀ i, run.StopsBy .parameter i → i = 0) ∧
    (∃ first, run.iterations[0]? = some first ∧
      (run.StopsBy .parameter 0 ↔
        o.weightsSaturated first.weights = false ∧ mu * (config.muStep - 1) ≤ config.costTolerance)) ∧
    (solution.outcome = .converged → 2 ≤ solution.iterations → o.weightsSaturated solution.weights = true) ∧
    ∀ errors worst, graph.stripRobustLosses.factorErrors o.estimate = .ok errors →
      IsGreatest {e | e ∈ errors} worst →
      config.threshold * (config.muStep - 1) ≤ config.costTolerance * (2 * worst - config.threshold) →
      solution.outcome = .converged ∧ solution.iterations = 1 ∧
        ∃ base, (config.base.build.optimize (clock 0) graph.stripRobustLosses o.estimate).2.outcome = .ok base ∧
          solution.values = base.values := by
  have built := reachable.builtFrom
  obtain ⟨threshold, growing, allowed, tolerance, -⟩ := Config.validate_ok_iff.mp built.valid
  have closes := optimize_closes clock started (by simpa using positive) someFree
  rw [← built.graph_eq]
  rw [← built.config_eq] at truncated threshold growing allowed tolerance ⊢
  obtain ⟨first, present⟩ := closes.begun finished allowed
  have atOnce := parameter_stops_first_iff closes truncated positive growing present
  refine ⟨fun i => parameter_stops_first closes truncated positive growing, ⟨first, present, atOnce⟩,
    saturated_of_later closes truncated positive growing finished, fun errors worst known greatest small => ?_⟩
  -- what is asked of the worst error puts it outside of the inlier region
  have denominator : 0 < 2 * worst - o.config.threshold := by
    by_contra inside
    have bounded := mul_nonpos_of_nonneg_of_nonpos tolerance (not_lt.mp inside)
    have above : 0 < o.config.threshold * (o.config.muStep - 1) := mul_pos threshold (by linarith)
    linarith
  have within : mu * (o.config.muStep - 1) ≤ o.config.costTolerance := by
    rwa [initialMu_truncated truncated started known greatest (by linarith), div_mul_eq_mul_div, div_le_iff₀ denominator]
  obtain ⟨test, met⟩ : ∃ test, o.verdict (o.muAt mu 0) first.weights = some test := by
    rcases saturated : o.weightsSaturated first.weights with _ | _
    · have near := (muConverged_truncated_iff truncated positive growing).mpr within
      exact ⟨.parameter, verdict_parameter_iff.mpr ⟨saturated, near⟩⟩
    · exact ⟨.weights, verdict_weights_iff.mpr saturated⟩
  obtain ⟨-, -, ended⟩ := closes.stops present met
  obtain rfl := Except.ok.inj (ended.symm.trans finished)
  exact ⟨rfl, rfl, optimize_first present⟩

section Lone

theorem lone_growing_initialMu : Family.truncatedLeastSquares.initialMu (8 : ℝ) 1 = 1 / 15 := by
  norm_num [Family.initialMu]

theorem lone_growing_low : Family.truncatedLeastSquares.weight 8 (1 / 15 : ℝ) 1 = 1 / 14641 := by
  rw [Family.weight, truncatedWeight_outside (by norm_num)]
  norm_num

theorem lone_growing_high : Family.truncatedLeastSquares.weight 8 (40 / 3 : ℝ) 1 = 1 := by
  rw [Family.weight, truncatedWeight_inside (by norm_num)]

/-- The first weight is that of an outlier, and there is no inlier. -/
theorem lone_growing_verdict (tolerance : ℝ) :
    (lone .truncatedLeastSquares 200 tolerance 1).verdict (1 / 15) [1 / 14641] =
      if 199 / 15 ≤ tolerance then some .parameter else none := by
  have light : (lone .truncatedLeastSquares 200 tolerance 1).weightsSaturated [1 / 14641] = false := by
    simp [weightsSaturated, saturated, nearOne, lone, Config.ofBase]
    norm_num
  have step : |(1 / 15 : ℝ) * 200 - 1 / 15| = 199 / 15 := by norm_num
  have test : (lone .truncatedLeastSquares 200 tolerance 1).muConverged
      ((lone .truncatedLeastSquares 200 tolerance 1).nextMu (1 / 15)) (1 / 15) = decide (199 / 15 ≤ tolerance) := by
    rw [← step, ← Scalar.abs_real, ← Scalar.le_real]
    rfl
  rw [verdict, light, test]
  simp

/-- The control parameter passes the error in the second iteration, and all of the weight is back. -/
theorem lone_growing_optimize : ((lone .truncatedLeastSquares 200 1 1).optimize fun _ _ => 0).outcome =
    .ok ⟨.single 0, [1], 2, .converged, 40 / 3⟩ := by
  have next : Family.truncatedLeastSquares.nextMu (1 / 15 : ℝ) 200 = 40 / 3 := by norm_num [Family.nextMu]
  have unmet : (lone .truncatedLeastSquares 200 1 1).verdict (1 / 15)
      [Family.truncatedLeastSquares.weight 8 (1 / 15) 1] = none := by
    rw [lone_growing_low, lone_growing_verdict, if_neg (by norm_num)]
  have met : (lone .truncatedLeastSquares 200 1 1).verdict (40 / 3)
      [Family.truncatedLeastSquares.weight 8 (40 / 3) 1] = some .weights := by
    rw [lone_growing_high, verdict_weights_iff]
    simp [weightsSaturated, saturated, nearOne, lone, Config.ofBase]
    norm_num
  have positive : (0 : ℝ) < 1 / 15 := by norm_num
  have kept : (0 : ℝ) ≤ 1 / 14641 := by norm_num
  rw [lone_optimize _ 200 1 lone_growing_initialMu positive, lone_unmet _ 99 0 zero_le_one unmet, next,
    lone_growing_low, lone_met _ 98 1 kept met, lone_growing_high]
  rfl

/-- Under a wide tolerance the first step of the control parameter ends the run. -/
theorem lone_tolerant_optimize : ((lone .truncatedLeastSquares 200 20 1).optimize fun _ _ => 0).outcome =
    .ok ⟨.single 0, [1 / 14641], 1, .converged, 40 / 3⟩ := by
  have next : (lone .truncatedLeastSquares 200 20 1).reportedMu (1 / 15) .parameter = 40 / 3 := by
    norm_num [reportedMu, nextMu, lone, Family.nextMu]
  have met : (lone .truncatedLeastSquares 200 20 1).verdict (1 / 15)
      [Family.truncatedLeastSquares.weight 8 (1 / 15) 1] = some .parameter := by
    rw [lone_growing_low, lone_growing_verdict, if_pos (by norm_num)]
  have positive : (0 : ℝ) < 1 / 15 := by norm_num
  rw [lone_optimize _ 200 20 lone_growing_initialMu positive, lone_met _ 99 0 zero_le_one met, lone_growing_low, next]

/-- The one run converges later, by its weights; the other one at once, whatever its weights. -/
theorem lone_parameter_stops :
    (lone .truncatedLeastSquares 200 1 1).weightsSaturated [1] = true ∧
    ∃ solution, ((lone .truncatedLeastSquares 200 20 1).optimize fun _ _ => 0).outcome = .ok solution ∧
      solution.outcome = .converged ∧ solution.iterations = 1 := by
  have reachable (tolerance : ℝ) (nonneg : 0 ≤ tolerance) : Reachable (.single 4 1) (.single 0)
      (lone .truncatedLeastSquares 200 tolerance 1).config (lone .truncatedLeastSquares 200 tolerance 1) :=
    .created (lone_created _ (by norm_num) nonneg)
  have started (tolerance : ℝ) : (lone .truncatedLeastSquares 200 tolerance 1).initialMu = .ok (1 / 15) :=
    lone_growing_initialMu ▸ lone_initialMu .truncatedLeastSquares 200 tolerance 1
  have positive : (0 : ℝ) < 1 / 15 := by norm_num
  obtain ⟨-, -, later, -⟩ := growing_parameter_stops (reachable 1 zero_le_one) rfl (fun _ _ => 0) (started 1) positive
    rfl lone_growing_optimize
  obtain ⟨-, -, -, atOnce⟩ := growing_parameter_stops (reachable 20 (by norm_num)) rfl (fun _ _ => 0) (started 20)
    positive rfl lone_tolerant_optimize
  have known : (Graph.single 4 1).stripRobustLosses.factorErrors (.single 0) = .ok [8] :=
    lone_errors .truncatedLeastSquares 200 20 1
  have greatest : IsGreatest {e : ℝ | e ∈ [8]} 8 := ⟨.head _, fun e member => (List.mem_singleton.mp member).le⟩
  have small : (1 : ℝ) * (200 - 1) ≤ 20 * (2 * 8 - 1) := by norm_num
  obtain ⟨converged, single, -⟩ := atOnce [8] 8 known greatest small
  exact ⟨later rfl le_rfl, _, lone_tolerant_optimize, converged, single⟩

end Lone

end GraduatedFit.Continuation.Optimizer

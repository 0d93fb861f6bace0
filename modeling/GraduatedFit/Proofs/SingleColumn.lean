import GraduatedFit.Proofs.DampedStep

/-! Problems of one column: the step of a damped iteration is a quotient, and it is taken where the cost goes down. -/

namespace GraduatedFit

open GraduatedFit.LeastSquares

/-- A single unknown is eliminated on its own. -/
theorem Elimination.Plan.solve_single {d : ℝ} (positive : 0 < d) (b : ℝ) :
    ∃ x, (ofSymmetric [⟨some d, []⟩]).solve [⟨some d, []⟩] [b] = .ok [x] ∧ d * x = b := by
  have blocks : (ofSymmetric [⟨some d, []⟩]).inBlocks = false := rfl
  have shape : (ofSymmetric [⟨some d, []⟩]).shape = [[true]] := rfl
  have order : (ofSymmetric [⟨some d, []⟩]).order = [0] := by
    have perm := GroupGraph.order_perm 1 (GroupGraph.ofNeighbours (Symmetric.neighbours [⟨some d, []⟩]))
    exact List.perm_singleton.mp perm
  have solved : (ofSymmetric [⟨some d, []⟩]).solve [⟨some d, []⟩] [b] = .ok [b / √d / √d] := by
    simp [solve, solveOrdered, blocks, order, shape, ranks, Symmetric.shape, Symmetric.reorder,
      Symmetric.select, Symmetric.table, Symmetric.stored?, Symmetric.cholesky?, Symmetric.downdate,
      positive, Cholesky.solve]
  refine ⟨_, solved, ?_⟩
  have row := (solve_solves (ofSymmetric_fits _) solved).row 0 (by simp)
  simpa using row

/-- The normal equations of one column are solved by a quotient. -/
theorem NormalEquations.solve_column {r : Vec ℝ} {J : SparseMat ℝ} {curvature slope : ℝ} (rows : r.length = J.height)
    (gram : J.gram = [⟨some curvature, []⟩]) (gradient : J.transposeMul r = [slope]) (damping : Option ℝ)
    (definite : 0 < curvature + damping.getD 0) :
    ∃ plan, ({} : NormalEquations ℝ).solve r J damping =
      (⟨some plan, some [⟨some curvature, []⟩], some [slope]⟩, .ok [-slope / (curvature + damping.getD 0)]) := by
  obtain ⟨x, solved, product⟩ := Elimination.Plan.solve_single definite (-slope)
  obtain rfl : x = -slope / (curvature + damping.getD 0) :=
    eq_div_of_mul_eq definite.ne' ((mul_comm _ _).trans product)
  refine ⟨.ofSymmetric [⟨some (curvature + damping.getD 0), []⟩], ?_⟩
  cases damping with
  | none =>
      rw [Option.getD_none, add_zero] at solved ⊢
      simp [NormalEquations.solve, rows, gram, gradient, solved]
  | some lambda =>
      rw [Option.getD_some] at solved ⊢
      simp [NormalEquations.solve, rows, gram, gradient, Symmetric.addDiagonal, solved]

namespace LeastSquares

/-- At an estimate the problem has one column, with a curvature and a slope of the cost along it. -/
structure Problem.Inclined (problem : Problem ℝ) (values : Values ℝ) (curvature slope : ℝ) : Prop where
  linear : ∃ r J, problem.linearize values = .ok (r, J) ∧ r.length = J.height ∧ J.gram = [⟨some curvature, []⟩] ∧
    J.transposeMul r = [slope]
  convex : 0 ≤ curvature

namespace LevenbergMarquardt

variable {config : LevenbergMarquardt ℝ} {curvature slope : ℝ}

theorem direction_column (plain : config.useScaling = false) {r : Vec ℝ} {J : SparseMat ℝ}
    (rows : r.length = J.height) (gram : J.gram = [⟨some curvature, []⟩]) (gradient : J.transposeMul r = [slope])
    {s : DampedState ℝ} (definite : 0 < curvature + s.damping.lambda) (fresh : s.equations = {}) :
    let h := -slope / (curvature + s.damping.lambda)
    ∃ d, config.direction r J s = .ok d ∧ d.step = [h] ∧ d.systemStep = [h] ∧ d.gradient = [slope] := by
  intro h
  obtain ⟨plan, system⟩ := NormalEquations.solve_column rows gram gradient (some s.damping.lambda) definite
  rw [← fresh] at system
  refine ⟨⟨[h], [h], [slope], ⟨some plan, some [⟨some curvature, []⟩], some [slope]⟩⟩, ?_, rfl, rfl, rfl⟩
  simp [direction, State.direction, State.scaledJacobian, plain, system, State.unscaledStep, Except.mapError, h]

/-- The quotient never predicts that the cost goes up. -/
theorem predictedReduction_column (convex : 0 ≤ curvature) {lambda : ℝ} (damped : 0 < lambda) (slope : ℝ) :
    0 ≤ predictedReduction lambda [-slope / (curvature + lambda)] [slope] := by
  set h := -slope / (curvature + lambda) with quotient
  have solved : slope = -(curvature + lambda) * h := by
    rw [quotient]
    field_simp
  have value : predictedReduction lambda [h] [slope] = 0.5 * h * (lambda * h - slope) := by
    simp [predictedReduction, Vec.dot]
  rw [value, solved]
  calc
    (0 : ℝ) ≤ 0.5 * ((2.0 * lambda + curvature) * h ^ 2) := by positivity
    _ = 0.5 * h * (lambda * h - -(curvature + lambda) * h) := by norm_num; ring

theorem advance_column (plain : config.useScaling = false) {problem : Problem ℝ} {values moved : Values ℝ}
    (inclined : problem.Inclined values curvature slope) {s : DampedState ℝ} (damped : 0 < s.damping.lambda)
    (fresh : s.equations = {}) (here : s.values = values)
    (retracted : problem.retract values [-slope / (curvature + s.damping.lambda)] = .ok moved) {newCost : ℝ}
    (evaluated : problem.cost moved = .ok newCost) :
    ∃ s' step, config.advance problem s = (s', .ok step) ∧ step.accepted = decide (newCost < s.cost) ∧
      step.values = if newCost < s.cost then moved else values := by
  obtain ⟨r, J, linear, rows, gram, gradient⟩ := inclined.linear
  obtain ⟨d, solved, same, inSystem, slopes⟩ := direction_column plain rows gram gradient
    (s := { s with toState := { s.toState with jacobianEvaluations := s.jacobianEvaluations + 1 } })
    (add_pos_of_nonneg_of_pos inclined.convex damped) fresh
  have taken : problem.retract s.values d.step = .ok moved := by
    rw [same, here]
    exact retracted
  have quality : Scalar.lt 0 (stepQuality s.cost newCost (predictedReduction s.damping.lambda d.systemStep d.gradient)) =
      decide (newCost < s.cost) := by
    rw [inSystem, slopes]
    exact decide_eq_decide.mpr (stepQuality_pos (predictedReduction_column inclined.convex damped slope))
  unfold advance
  rw [here, linear]
  simp only [State.updateScaling, plain, Bool.false_and, Bool.false_eq_true, if_false, solved, Result.ok_bind,
    attempt, taken, evaluated, quality]
  exact ⟨_, _, rfl, rfl, by simp [here]⟩

/-- A run of one iteration. -/
theorem run_column (plain : config.useScaling = false) (once : config.maxIterations = 1)
    (timeless : config.timeout = none) (damped : 0 < config.damping) (clock : Clock) {graph : Graph ℝ}
    {initial moved : Values ℝ} {problem : Problem ℝ} (prepared : Problem.prepare graph initial = .ok problem)
    {cost newCost : ℝ} (known : problem.cost initial = .ok cost) (inclined : problem.Inclined initial curvature slope)
    (retracted : problem.retract initial [-slope / (curvature + config.damping)] = .ok moved)
    (evaluated : problem.cost moved = .ok newCost) (leftover : Option (ColumnScaling ℝ)) :
    ∃ solution step, (config.run clock graph initial leftover).2.outcome = .ok solution ∧
      (config.run clock graph initial leftover).2.steps = [step] ∧ step.accepted = decide (newCost < cost) ∧
      solution.values = (if newCost < cost then moved else initial) ∧ solution.status = .maxIterationsReached := by
  have begun : (do
      let problem ← Problem.prepare graph initial
      return (problem, ← problem.cost initial)) = .ok (problem, cost) := by
    rw [prepared, Result.ok_bind, known]
    rfl
  obtain ⟨s', step, advanced, accepted, values⟩ := advance_column plain inclined
    (s := ⟨.start initial cost, ⟨config.damping, config.dampingNu⟩⟩) damped rfl rfl retracted evaluated
  have uninterrupted : config.interruption (clock step.iteration) step = none := by
    simp [Criteria.interruption, timeless]
  unfold run
  rw [begun]
  simp only [once, Nat.sub_self]
  rw [iterate]
  simp only [scheme, advanced, uninterrupted]
  exact ⟨_, _, rfl, rfl, accepted, values, rfl⟩

end LevenbergMarquardt

end LeastSquares

end GraduatedFit

import GraduatedFit.Proofs.FoldedValley

/-! Jacobi scaling changes the coordinates in which a step is found, and not the problem that it solves. -/

namespace GraduatedFit.LeastSquares

/-- With scaling on every iteration of a run finds the step `h` with `(JᵀJ + added S⁻²) h = -Jᵀr`, where the factors `S`
are those of the first Jacobian, and reports its norm. A Gauss-Newton iteration that adds nothing to the diagonal has
independent columns, and without scaling it makes the same step from the same estimate. -/
theorem Solver.optimize_scaled_steps (solver : Solver ℝ) (scaling : solver.method.criteria.useScaling = true)
    (clock : Clock) (graph : Graph ℝ) (initial : Values ℝ) (i : Nat) (step : Step ℝ)
    (reported : (solver.optimize clock graph initial).2.steps[i]? = some step) :
    let run := (solver.optimize clock graph initial).2
    ∃ problem r₀ J₀ r J h, Problem.prepare graph initial = .ok problem ∧ problem.linearize initial = .ok (r₀, J₀) ∧
      problem.linearize (run.estimate initial i) = .ok (r, J) ∧ J₀.width = J.width ∧
      let S (a : Nat) : ℝ := 1 / (1 + √(∑ p ∈ Finset.range J₀.height, J₀.get p a ^ 2))
      (∀ a, 0 < S a ∧ S a ≤ 1) ∧
      (∃ moved, problem.retract (run.estimate initial i) h = .ok moved ∧
        step.values = if step.accepted then moved else run.estimate initial i) ∧
      h.length = J.width ∧ step.stepNorm = Vec.norm h ∧
      (∀ a < J.width, (J.transposeMul (J.mulVec h)).getD a 0 +
        solver.method.added run i * (1 / S a ^ 2) * h.getD a 0 = -(J.transposeMul r).getD a 0) ∧
      ∀ config, solver.method = .gaussNewton config → config.minDiagonal ≤ 0 → J.FullRank ∧
        let plain : GaussNewton ℝ := { config with useScaling := false }
        ∀ s : State ℝ, s.values = run.estimate initial i → s.equations.PlannedFor J.support false →
          ∃ d s' step', plain.direction r J (plain.rescaled J s) = .ok d ∧ d.step = h ∧
            plain.advance problem s = (s', .ok step') ∧ step'.values = step.values ∧
            step'.stepNorm = step.stepNorm := by
  intro run
  rcases solver.optimize_cases clock graph initial with ⟨failure, failed, -⟩ | ⟨problem, cost, prepared, -, loops⟩
  · rw [failed] at reported
    cases reported
  have inside := (Problem.prepare_ok prepared).2
  obtain ⟨r₀, J₀, r, J, h, first, solves, accepted⟩ := loops.solves inside reported
  have width : J₀.width = J.width := by rw [solves.width, ColumnScaling.length_factorsFrom]
  refine ⟨problem, r₀, J₀, r, J, h, prepared, first, solves.linear, width,
    fun a => ColumnScaling.factor_bounds (Real.sqrt_nonneg _), ?_, solves.length, solves.stepNorm_eq,
    fun a bound => ?_, fun config plainly undamped => ?_⟩
  · obtain ⟨moved, -, retracted, -, values⟩ := solves.moves
    exact ⟨moved, retracted, values⟩
  · obtain ⟨-, formed₀⟩ := problem.linearize_stored inside first
    have equation := solves.equation a bound
    rwa [scaling, ColumnScaling.factorsFrom_getD formed₀ (bound.trans_eq width.symm)] at equation
  · have added : solver.method.added run i = 0 := by
      rw [plainly, Method.added, GaussNewton.damping_eq_none undamped, Option.getD_none]
    rw [added] at solves
    exact ⟨solves.rank rfl, fun s here planned =>
      GaussNewton.advance_unscaled undamped solves (accepted config plainly) here planned⟩

/-- Gauss-Newton makes the same first step with scaling and without. -/
theorem Solver.folded_scaled_steps :
    let config : GaussNewton ℝ := { GaussNewton.standard with useScaling := true, minDiagonal := 0 }
    let plain : GaussNewton ℝ := { config with useScaling := false }
    let solver := (Method.gaussNewton config).build
    ∃ step, (solver.method.criteria.useScaling = true ∧
        (solver.optimize (fun _ => 0) .folded (.single 0.3)).2.steps[0]? = some step) ∧
      ∃ s' step', plain.advance .folded (.start (.single 0.3) 0) = (s', .ok step') ∧ step'.values = step.values := by
  intro config plain solver
  have steep : tilt 0.3 ≠ 0 := by norm_num [tilt]
  obtain ⟨-, step, -, -, -, reported, -⟩ := GaussNewton.folded_first steep config (fun _ => 0)
  obtain ⟨problem, r₀, J₀, r, J, h, prepared, -, -, -, -, -, -, -, -, unscaled⟩ :=
    optimize_scaled_steps solver rfl (fun _ => 0) .folded (.single 0.3) 0 step reported
  obtain rfl := Except.ok.inj ((Problem.prepare_folded 0.3).symm.trans prepared)
  obtain ⟨-, same⟩ := unscaled config rfl le_rfl
  obtain ⟨d, s', step', -, -, advanced, values, -⟩ :=
    same (.start (.single 0.3) 0) rfl (NormalEquations.plannedFor_nothing _ _)
  exact ⟨step, ⟨rfl, reported⟩, s', step', advanced, values⟩

end GraduatedFit.LeastSquares

import GraduatedFit.Proofs.Reweighting
import GraduatedFit.Proofs.StoppingTests

/-! Solvers do not tell apart graphs that evaluate alike, so a solve with even weights is a solve of the graph itself. -/

namespace GraduatedFit

namespace LeastSquares

/-- Two problems of the same layout and pattern that evaluate alike. -/
structure Problem.Alike (problem problem' : Problem ℝ) : Prop where
  layout_eq : problem'.layout = problem.layout
  cost_eq : problem'.cost = problem.cost
  linearize_eq : problem'.linearize = problem.linearize

section Steps

variable {problem problem' : Problem ℝ} (alike : problem.Alike problem')
include alike

theorem Problem.Alike.retract_eq : problem'.retract = problem.retract := by
  funext values step
  rw [retract, retract, alike.layout_eq]

theorem Problem.Alike.parameterNorm_eq : problem'.parameterNorm = problem.parameterNorm := by
  funext values
  rw [parameterNorm, parameterNorm, alike.layout_eq]

theorem GaussNewton.scheme_alike (config : GaussNewton ℝ) (clock : Clock) :
    config.scheme clock problem' = config.scheme clock problem := by
  have taken : take problem' = take problem := by
    funext d s
    simp only [take, alike.retract_eq, alike.cost_eq, alike.parameterNorm_eq]
  have advanced : config.advance problem' = config.advance problem := by
    funext s
    rw [advance, advance, alike.linearize_eq, taken]
  rw [scheme, scheme, advanced]

theorem LevenbergMarquardt.scheme_alike (config : LevenbergMarquardt ℝ) (clock : Clock) :
    config.scheme clock problem' = config.scheme clock problem := by
  have attempted : config.attempt problem' = config.attempt problem := by
    funext d s
    simp only [attempt, alike.retract_eq, alike.cost_eq, alike.parameterNorm_eq]
  have advanced : config.advance problem' = config.advance problem := by
    funext s
    rw [advance, advance, alike.linearize_eq, attempted]
  rw [scheme, scheme, advanced]

end Steps

section Runs

variable {a b : Graph ℝ} (alike : a.Alike b)
include alike

/-- Graphs that evaluate alike have the same layout and pattern. -/
theorem Problem.prepare_alike (initial : Values ℝ) :
    prepare b initial = (fun problem => { problem with graph := b }) <$> prepare a initial := by
  have empty : b.isEmpty = a.isEmpty := by
    rw [Graph.isEmpty, Graph.isEmpty, Bool.eq_iff_iff, List.isEmpty_iff, List.isEmpty_iff,
      ← List.length_eq_zero_iff, ← List.length_eq_zero_iff, alike.frame.length_eq]
  unfold prepare
  rw [empty, alike.layout_eq]
  cases a.isEmpty with
  | true => rfl
  | false =>
      rcases a.layout initial with failure | layout
      · rfl
      · simp only [Bool.false_eq_true, if_false, Result.pure_ok, Result.ok_bind, alike.pattern_eq]
        by_cases narrow : layout.totalDof = 0
        · rw [if_pos narrow, if_pos narrow]
          rfl
        · rw [if_neg narrow, if_neg narrow]
          cases a.pattern initial layout <;> rfl

theorem Problem.prepare_problem_alike {initial : Values ℝ} {problem : Problem ℝ}
    (prepared : prepare a initial = .ok problem) : problem.Alike { problem with graph := b } := by
  obtain ⟨rfl, -⟩ := prepare_ok prepared
  refine ⟨rfl, ?_, ?_⟩
  · funext values
    exact alike.error_eq values
  · funext values
    exact alike.linearize_eq values _

/-- Neither method tells apart graphs that evaluate alike. -/
theorem Solver.optimize_alike (solver : Solver ℝ) (clock : Clock) (initial : Values ℝ) :
    solver.optimize clock b initial = solver.optimize clock a initial := by
  obtain ⟨method, scaling⟩ := solver
  have same := Problem.prepare_alike alike initial
  rcases prepared : Problem.prepare a initial with failure | problem
  · rw [prepared] at same
    cases method with
    | gaussNewton config =>
        simp only [optimize, GaussNewton.run, prepared, same]
        rfl
    | levenbergMarquardt config =>
        simp only [optimize, LevenbergMarquardt.run, prepared, same]
        rfl
  · rw [prepared] at same
    have alike' := Problem.prepare_problem_alike alike prepared
    have same' : Problem.prepare b initial = .ok { problem with graph := b } := same
    cases method with
    | gaussNewton config =>
        simp only [optimize, GaussNewton.run, prepared, same', Result.ok_bind, alike'.cost_eq]
        cases problem.cost initial with
        | error failure => rfl
        | ok cost =>
            dsimp only [Result.ok_bind, Result.pure_ok]
            rw [GaussNewton.scheme_alike alike']
    | levenbergMarquardt config =>
        simp only [optimize, LevenbergMarquardt.run, prepared, same', Result.ok_bind, alike'.cost_eq]
        cases problem.cost initial with
        | error failure => rfl
        | ok cost =>
            dsimp only [Result.ok_bind, Result.pure_ok]
            rw [LevenbergMarquardt.scheme_alike alike']

end Runs

end LeastSquares

/-- A graph under even weights evaluates like the graph itself. -/
theorem Graph.reweight_even {graph g : Graph ℝ} {count : Nat}
    (reweighted : graph.reweight (List.replicate count 1) = .ok g) : graph.Alike g :=
  alike_of_slots ((reweights_of_ok reweighted).alike_one fun _ => List.eq_of_mem_replicate)

/-- The first iteration of a continuation is a solve of the graph without weights. -/
theorem Continuation.Optimizer.optimize_first {o : Optimizer ℝ} {clock : Nat → Clock} {first : Iteration ℝ}
    (present : (o.optimize clock).iterations[0]? = some first) :
    ∃ base, (o.config.base.build.optimize (clock 0) o.graph o.estimate).2.outcome = .ok base ∧
      first.values = base.values := by
  obtain ⟨mu, -, -, -, iterates⟩ := optimize_iterates present
  rw [stage_zero] at iterates
  obtain ⟨g, base, reweighted, returned, values, -⟩ := iterates.solved
  have alike : o.graph.Alike g := Graph.reweight_even reweighted
  refine ⟨base, ?_, values⟩
  rw [← o.config.base.build.optimize_alike alike]
  exact returned

end GraduatedFit

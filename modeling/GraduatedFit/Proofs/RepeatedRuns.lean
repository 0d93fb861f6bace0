import GraduatedFit.Proofs.InlierThreshold
import GraduatedFit.Proofs.MatchedRuns

/-! Nothing that a run leaves behind reaches the next one, apart from the estimate of a continuation. -/

namespace GraduatedFit

variable {K : Type} [Scalar K]

namespace LeastSquares

section Fresh

variable (clock clock' : Clock) (graph : Graph K) (initial : Values K)

/-- The scaling that is left from an earlier run plays no part. -/
theorem GaussNewton.run_scaling (config : GaussNewton K) (scaling scaling' : Option (ColumnScaling K)) :
    (config.run clock graph initial scaling').2 = (config.run clock graph initial scaling).2 := by
  unfold run
  split <;> rfl

theorem LevenbergMarquardt.run_scaling (config : LevenbergMarquardt K) (scaling scaling' : Option (ColumnScaling K)) :
    (config.run clock graph initial scaling').2 = (config.run clock graph initial scaling).2 := by
  unfold run
  split <;> rfl

/-- Without a time limit two clocks give one and the same scheme. -/
theorem GaussNewton.scheme_untimed {config : GaussNewton K} (untimed : config.timeout = none) (problem : Problem K) :
    config.scheme clock' problem = config.scheme clock problem := by
  have tests (step : Step K) :
      config.interruption (clock' step.iteration) step = config.interruption (clock step.iteration) step :=
    config.interruption_untimed untimed _ _ step
  simp only [scheme, tests]

theorem LevenbergMarquardt.scheme_untimed {config : LevenbergMarquardt K} (untimed : config.timeout = none)
    (problem : Problem K) : config.scheme clock' problem = config.scheme clock problem := by
  have tests (step : Step K) :
      config.interruption (clock' step.iteration) step = config.interruption (clock step.iteration) step :=
    config.interruption_untimed untimed _ _ step
  simp only [scheme, tests]

namespace Solver

theorem optimize_method (solver : Solver K) : (solver.optimize clock graph initial).1.method = solver.method := by
  obtain ⟨method, scaling⟩ := solver
  cases method <;> rfl

/-- A run is that of a fresh solver. -/
theorem optimize_fresh (solver : Solver K) :
    (solver.optimize clock graph initial).2 = (solver.method.build.optimize clock graph initial).2 := by
  obtain ⟨method, scaling⟩ := solver
  cases method with
  | gaussNewton config => exact config.run_scaling clock graph initial none scaling
  | levenbergMarquardt config => exact config.run_scaling clock graph initial none scaling

theorem optimize_untimed {solver : Solver K} (untimed : solver.method.criteria.timeout = none) :
    (solver.optimize clock' graph initial).2 = (solver.optimize clock graph initial).2 := by
  obtain ⟨method, scaling⟩ := solver
  cases method with
  | gaussNewton config =>
      show (config.run clock' graph initial scaling).2 = (config.run clock graph initial scaling).2
      simp only [GaussNewton.run, GaussNewton.scheme_untimed clock clock' untimed]
  | levenbergMarquardt config =>
      show (config.run clock' graph initial scaling).2 = (config.run clock graph initial scaling).2
      simp only [LevenbergMarquardt.run, LevenbergMarquardt.scheme_untimed clock clock' untimed]

/-- The solver after calls with any graphs and any initial estimates, however they end. -/
def after (solver : Solver K) (calls : List (Clock × Graph K × Values K)) : Solver K :=
  calls.foldl (fun solver (clock, graph, initial) => (solver.optimize clock graph initial).1) solver

theorem after_method (solver : Solver K) (calls : List (Clock × Graph K × Values K)) :
    (solver.after calls).method = solver.method := by
  induction calls generalizing solver with
  | nil => rfl
  | cons call calls ih => exact (ih _).trans (solver.optimize_method _ _ _)

end Solver

end Fresh

end LeastSquares

namespace Continuation

open LeastSquares

namespace Optimizer

section Untimed

variable {o : Optimizer K} (untimed : o.config.base.criteria.timeout = none)
include untimed

theorem solve_untimed (clock clock' : Clock) (graph : Graph K) : o.solve clock' graph = o.solve clock graph := by
  rw [solve, solve, Solver.optimize_untimed clock clock' graph o.estimate untimed]

theorem step_untimed (clock clock' : Clock) (number : Nat) (mu : K) :
    o.step clock' number mu = o.step clock number mu := by
  simp only [step, solve_untimed untimed clock clock']

theorem solvePlain_untimed (clock clock' : Clock) (mu : K) : o.solvePlain clock' mu = o.solvePlain clock mu := by
  rw [solvePlain, solvePlain, solve_untimed untimed clock clock']

/-- Without a time limit the clocks decide nothing in any of the iterations. -/
theorem continueFrom_untimed (clock clock' : Nat → Clock) (left number : Nat) (mu : K) :
    continueFrom clock' left number mu o = continueFrom clock left number mu o := by
  induction left generalizing number mu o with
  | zero => rfl
  | succ left ih =>
      have stepped := step_untimed untimed (clock number) (clock' number) number mu
      rcases split : o.step (clock number) number mu with ⟨events, failure | ⟨next, record⟩⟩
      · rw [continueFrom, continueFrom, stepped, split]
      · obtain ⟨-, rfl⟩ := step_iterates (congrArg Prod.snd split)
        have later := ih (o := o.moveTo record) untimed
        rw [continueFrom, continueFrom, stepped, split]
        simp only [later]

theorem optimize_untimed (clock clock' : Nat → Clock) : o.optimize clock' = o.optimize clock := by
  have plain := solvePlain_untimed (o := o.evenly) untimed (clock 0) (clock' 0)
  have loop := continueFrom_untimed (o := o.evenly) untimed clock clock'
  rcases initial : o.initialMu with failure | mu
  · rw [optimize_unknown clock initial, optimize_unknown clock' initial]
  rcases start : o.graph.error o.estimate with failure | cost
  · rw [optimize_costless clock initial start, optimize_costless clock' initial start]
  rw [optimize_started clock initial start, optimize_started clock' initial start, plain, loop]

end Untimed

/-- Only a run that never starts leaves the weights that it has found. -/
theorem optimize_evenly (o : Optimizer K) (clock : Nat → Clock) :
    (o.optimize clock).events = (o.evenly.optimize clock).events ∧
    (o.optimize clock).outcome = (o.evenly.optimize clock).outcome ∧
    (o.optimize clock).optimizer.estimate = (o.evenly.optimize clock).optimizer.estimate ∧
    ∀ mu, o.initialMu = .ok mu → o.optimize clock = o.evenly.optimize clock := by
  have evenly : o.evenly.initialMu = o.initialMu := rfl
  rcases initial : o.initialMu with failure | mu
  · rw [optimize_unknown clock initial, optimize_unknown clock (evenly.trans initial)]
    exact ⟨rfl, rfl, rfl, fun mu known => by cases known⟩
  · have same : o.optimize clock = o.evenly.optimize clock := by
      rw [optimize, optimize, evenly, initial]
      rfl
    exact ⟨congrArg Run.events same, congrArg Run.outcome same, congrArg (·.optimizer.estimate) same, fun _ _ => same⟩

/-- A new optimizer at the estimate that earlier runs have left is the optimizer they have left, with even weights. -/
theorem Reachable.create_evenly {graph : Graph K} {initial : Values K} {config : Config K} {o : Optimizer K}
    (reachable : Reachable graph initial config o) : create graph o.estimate config = .ok o.evenly := by
  have built := reachable.builtFrom
  have even : o.evenly.weights = List.replicate graph.size 1 := by rw [evenly, built.size_eq]
  refine create_ok_iff.mpr ⟨built.valid, reachable.known_inside, ?_⟩
  rw [← built.graph_eq, ← built.known_eq, ← even, ← built.config_eq]
  rfl

/-- After any calls a solver runs like a fresh one, and after any runs a continuation runs like a new one from the
estimate it holds. -/
theorem nothing_carried_over (method : Method K) (untimed : method.criteria.timeout = none) :
    (∀ calls clock clock' graph initial,
      ((method.build.after calls).optimize clock graph initial).2 = (method.build.optimize clock' graph initial).2) ∧
    ∀ (config : Config K), config.base = method → ∀ graph initial o, Reachable graph initial config o →
      ∃ fresh, create graph o.estimate config = .ok fresh ∧ ∀ clock clock',
        let run := o.optimize clock
        let run' := fresh.optimize clock'
        run.outcome = run'.outcome ∧ run.events = run'.events ∧ run.optimizer.estimate = run'.optimizer.estimate ∧
          ∀ mu, o.initialMu = .ok mu → run = run' := by
  constructor
  · intro calls clock clock' graph initial
    have kept : (method.build.after calls).method = method := Solver.after_method _ calls
    have timeless : method.build.method.criteria.timeout = none := untimed
    rw [Solver.optimize_fresh, kept, Solver.optimize_untimed clock' clock graph initial timeless]
  · intro config base graph initial o reachable
    have timeless : o.config.base.criteria.timeout = none := by rw [reachable.builtFrom.config_eq, base, untimed]
    refine ⟨o.evenly, reachable.create_evenly, fun clock clock' => ?_⟩
    obtain ⟨events, outcome, estimate, same⟩ := o.optimize_evenly clock'
    rw [optimize_untimed timeless clock' clock]
    exact ⟨outcome, events, estimate, same⟩

/-- A solver that has failed on an empty graph, and a continuation that has run before. -/
theorem early_repeated :
    let method := early.config.base
    let failed := (method.build.optimize (fun _ => 0) .empty (.single 0)).2
    let o := (early.optimize fun _ _ => 0).optimizer
    failed.outcome = .error (.raised (.solve .noResidualBlocks) []) ∧
    ((method.build.after [(fun _ => 0, .empty, .single 0)]).optimize (fun _ => 0) .triple (.single 0)).2 =
      (method.build.optimize (fun _ => 1) .triple (.single 0)).2 ∧
    ∃ fresh, create .triple o.estimate early.config = .ok fresh ∧
      (o.optimize fun _ _ => 0).outcome = (fresh.optimize fun _ _ => 1).outcome := by
  intro method failed o
  have untimed : method.criteria.timeout = none := rfl
  obtain ⟨solver, continuation⟩ := nothing_carried_over method untimed
  obtain ⟨fresh, created, runs⟩ :=
    continuation early.config rfl .triple (.single 0) o (.optimized (.created early_created) _)
  exact ⟨rfl, solver _ _ _ _ _, fresh, created, (runs _ _).1⟩

end Optimizer

end Continuation

end GraduatedFit

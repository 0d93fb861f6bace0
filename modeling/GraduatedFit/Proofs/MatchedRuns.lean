import GraduatedFit.Proofs.SameProducts
import GraduatedFit.Proofs.RunAccounts

/-! Problems whose systems have the same products are solved in the same iterations. -/

namespace GraduatedFit.LeastSquares

/-- Wherever the first problem succeeds the second one does, with the same errors and with a system of the same
products. What makes an estimate admissible is kept by every step. -/
structure Problem.Matches (problem problem' : Problem ℝ) (Admissible : Values ℝ → Prop) : Prop where
  layout_eq : problem'.layout = problem.layout
  cost_ok : ∀ values cost, problem.cost values = .ok cost → problem'.cost values = .ok cost
  linearize_ok : ∀ values r J, Admissible values → problem.linearize values = .ok (r, J) →
    ∃ r' J', problem'.linearize values = .ok (r', J') ∧ SameProducts r r' J J'
  admissible : ∀ values step moved, Admissible values → problem.retract values step = .ok moved → Admissible moved

section Steps

variable {problem problem' : Problem ℝ} {Admissible : Values ℝ → Prop} (matched : problem.Matches problem' Admissible)
include matched

theorem Problem.Matches.retract_eq (values : Values ℝ) (step : Vec ℝ) :
    problem'.retract values step = problem.retract values step := by
  rw [Problem.retract, Problem.retract, matched.layout_eq]

theorem Problem.Matches.parameterNorm_eq (values : Values ℝ) :
    problem'.parameterNorm values = problem.parameterNorm values := by
  rw [Problem.parameterNorm, Problem.parameterNorm, matched.layout_eq]

theorem GaussNewton.take_matched {d : Direction ℝ} {s s' : State ℝ} {step : Step ℝ} (admissible : Admissible s.values)
    (taken : take problem d s = .ok (s', step)) : take problem' d s = .ok (s', step) ∧ Admissible s'.values := by
  simp only [take, Result.bind_ok_iff, matched.parameterNorm_eq, matched.retract_eq] at taken ⊢
  obtain ⟨values, retracted, cost, known, done⟩ := taken
  refine ⟨⟨values, retracted, cost, matched.cost_ok _ _ known, done⟩, ?_⟩
  obtain ⟨rfl, -⟩ := Prod.mk.inj (Except.ok.inj done)
  exact matched.admissible _ _ _ admissible retracted

/-- An iteration that succeeds is the same iteration of the other problem. -/
theorem GaussNewton.advance_matched {config : GaussNewton ℝ} {s s' : State ℝ} {step : Step ℝ}
    (admissible : Admissible s.values) (advanced : config.advance problem s = (s', .ok step)) :
    config.advance problem' s = (s', .ok step) ∧ Admissible s'.values := by
  obtain ⟨r, J, d, linear, solved, taken⟩ := advance_ok_iff.mp advanced
  obtain ⟨r', J', linear', same⟩ := matched.linearize_ok _ _ _ admissible linear
  obtain ⟨scaling, frame⟩ := updateScaling_frame config.useScaling J s
  have unmoved : (s.updateScaling config.useScaling J).values = s.values := by rw [frame]
  obtain ⟨taken', next⟩ := take_matched matched (by simpa only [unmoved] using admissible) taken
  have solved' := (State.direction_same same _ _ _ _ _).trans solved
  refine ⟨advance_ok_iff.mpr ⟨r', J', d, linear', ?_⟩, next⟩
  rw [State.updateScaling_same same]
  exact ⟨solved', taken'⟩

theorem LevenbergMarquardt.attempt_matched {config : LevenbergMarquardt ℝ} {d : Direction ℝ} {s s' : DampedState ℝ}
    {step : Step ℝ} (admissible : Admissible s.values) (attempted : config.attempt problem d s = .ok (s', step)) :
    config.attempt problem' d s = .ok (s', step) ∧ Admissible s'.values := by
  simp only [attempt, Result.bind_ok_iff, matched.parameterNorm_eq, matched.retract_eq] at attempted ⊢
  obtain ⟨tried, retracted, newCost, known, done⟩ := attempted
  refine ⟨⟨tried, retracted, newCost, matched.cost_ok _ _ known, done⟩, ?_⟩
  obtain ⟨rfl, -⟩ := Prod.mk.inj (Except.ok.inj done)
  dsimp only
  split
  · exact matched.admissible _ _ _ admissible retracted
  · exact admissible

theorem LevenbergMarquardt.advance_matched {config : LevenbergMarquardt ℝ} {s s' : DampedState ℝ} {step : Step ℝ}
    (admissible : Admissible s.values) (advanced : config.advance problem s = (s', .ok step)) :
    config.advance problem' s = (s', .ok step) ∧ Admissible s'.values := by
  obtain ⟨r, J, d, linear, solved, attempted⟩ := advance_ok_iff.mp advanced
  obtain ⟨r', J', linear', same⟩ := matched.linearize_ok _ _ _ admissible linear
  obtain ⟨scaling, -, frame⟩ := config.rescaled_eq J s
  have unmoved : (config.rescaled J s).values = s.values := by rw [frame]
  obtain ⟨attempted', next⟩ := attempt_matched matched (unmoved.symm ▸ admissible) attempted
  have solved' : config.direction r' J' (config.rescaled J s) = .ok d :=
    (State.direction_same same _ _ _ _ _).trans solved
  have same_state : config.rescaled J' s = config.rescaled J s := by
    rw [rescaled, rescaled, State.updateScaling_same same]
  refine ⟨advance_ok_iff.mpr ⟨r', J', d, linear', ?_⟩, next⟩
  rw [same_state]
  exact ⟨solved', attempted'⟩

end Steps

section Fits

variable {K : Type} [Scalar K]

/-- A system that is solved has a residual for every row. -/
theorem State.direction_fits {useScaling : Bool} {damping : Option K} {fault : LinearError → SystemFault}
    {noGradient : SolveError K} {r : Vec K} {J : SparseMat K} {s : State K} {d : Direction K}
    (solved : s.direction useScaling damping fault noGradient r J = .ok d) : r.length = J.height := by
  obtain ⟨scaled, found, system, -⟩ := direction_ok solved
  have height : scaled.height = J.height := by
    rcases scaledJacobian_cases found with ⟨scaling, -, rfl⟩ | rfl <;> rfl
  by_contra differ
  rw [← height] at differ
  rw [NormalEquations.solve, if_pos differ] at system
  cases (Prod.mk.inj system).2

omit [Scalar K] in
/-- A loop that ends well has made an iteration. -/
theorem Scheme.Loops.begun {σ : Type} {scheme : Scheme K σ} {limit : Nat} {start : σ} {history : History K σ}
    (loops : scheme.Loops limit start history) {result : Step K × Status} (ended : history.outcome = .ok result) :
    ∃ s step, scheme.advance start = (s, .ok step) := by
  cases loops with
  | failed advanced => cases ended
  | decided advanced verdict => exact ⟨_, _, advanced⟩
  | undecided advanced verdict later => exact ⟨_, _, advanced⟩

/-- A run that ends well has solved the system of its initial estimate. -/
theorem Method.Loops.first {method : Method K} {clock : Clock} {problem : Problem K} {initial : Values K} {cost : K}
    {run : Run K} (loops : method.Loops clock problem initial cost run) {solution : Solution K}
    (returned : run.outcome = .ok solution) :
    ∃ r J, problem.linearize initial = .ok (r, J) ∧ r.length = J.height := by
  cases loops with
  | @gaussNewton config history loops =>
      obtain ⟨result, ended, -⟩ := Result.except_map_ok_iff.mp returned
      obtain ⟨s, step, advanced⟩ := loops.begun ended
      obtain ⟨r, J, d, linear, solved, -⟩ := GaussNewton.advance_ok_iff.mp advanced
      exact ⟨r, J, linear, State.direction_fits solved⟩
  | @levenbergMarquardt config history loops =>
      obtain ⟨result, ended, -⟩ := Result.except_map_ok_iff.mp returned
      obtain ⟨s, step, advanced⟩ := loops.begun ended
      obtain ⟨r, J, d, linear, solved, -⟩ := LevenbergMarquardt.advance_ok_iff.mp advanced
      exact ⟨r, J, linear, State.direction_fits solved⟩

end Fits

section Runs

/-- A loop that ends well is the loop of every scheme that makes the same iterations and decides alike. -/
theorem Scheme.Loops.transfer {K σ : Type} {scheme scheme' : Scheme K σ} {limit : Nat} {Inv : σ → Prop}
    (follows : ∀ s s' step, Inv s → scheme.advance s = (s', .ok step) → scheme'.advance s = (s', .ok step) ∧ Inv s')
    (verdicts : ∀ step, scheme'.verdict limit step = scheme.verdict limit step) {start : σ} {history : History K σ}
    (loops : scheme.Loops limit start history) (initial : Inv start) {result : Step K × Status}
    (ended : history.outcome = .ok result) : scheme'.Loops limit start history := by
  induction loops with
  | failed advanced => cases ended
  | decided advanced verdict => exact .decided (follows _ _ _ initial advanced).1 ((verdicts _).trans verdict)
  | undecided advanced verdict later ih =>
      obtain ⟨advanced', next⟩ := follows _ _ _ initial advanced
      exact .undecided advanced' ((verdicts _).trans verdict) (ih next ended)

/-- Without a time limit the clock decides nothing. -/
theorem Criteria.interruption_untimed {K : Type} [Scalar K] {criteria : Criteria K} (untimed : criteria.timeout = none)
    (elapsed elapsed' : Nanoseconds) (step : Step K) :
    criteria.interruption elapsed' step = criteria.interruption elapsed step := by
  rw [interruption, interruption, untimed]

theorem GaussNewton.verdict_untimed {K : Type} [Scalar K] {config : GaussNewton K} (untimed : config.timeout = none)
    (clock clock' : Clock) (problem problem' : Problem K) (limit : Nat) (step : Step K) :
    (config.scheme clock' problem').verdict limit step = (config.scheme clock problem).verdict limit step :=
  congrArg (· <|> _) (config.interruption_untimed untimed _ _ step)

theorem LevenbergMarquardt.verdict_untimed {K : Type} [Scalar K] {config : LevenbergMarquardt K}
    (untimed : config.timeout = none) (clock clock' : Clock) (problem problem' : Problem K) (limit : Nat) (step : Step K) :
    (config.scheme clock' problem').verdict limit step = (config.scheme clock problem).verdict limit step :=
  congrArg (· <|> _) (config.interruption_untimed untimed _ _ step)

/-- A run that ends well is also that of a problem that matches. -/
theorem Method.Loops.matched {problem problem' : Problem ℝ} {Admissible : Values ℝ → Prop}
    (matched : problem.Matches problem' Admissible) {method : Method ℝ} (untimed : method.criteria.timeout = none)
    {clock : Clock} (clock' : Clock) {initial : Values ℝ} (admissible : Admissible initial) {cost : ℝ} {run : Run ℝ}
    (loops : method.Loops clock problem initial cost run) {solution : Solution ℝ}
    (returned : run.outcome = .ok solution) : method.Loops clock' problem' initial cost run := by
  cases loops with
  | @gaussNewton config history loops =>
      obtain ⟨result, ended, -⟩ := Result.except_map_ok_iff.mp returned
      have verdicts := config.verdict_untimed untimed clock clock' problem problem' config.maxIterations
      have follows (s s' : State ℝ) (step : Step ℝ) (admissible : Admissible s.values) :=
        @GaussNewton.advance_matched _ _ _ matched config s s' step admissible
      exact .gaussNewton (loops.transfer follows verdicts admissible ended)
  | @levenbergMarquardt config history loops =>
      obtain ⟨result, ended, -⟩ := Result.except_map_ok_iff.mp returned
      have verdicts := config.verdict_untimed untimed clock clock' problem problem' config.maxIterations
      have follows (s s' : DampedState ℝ) (step : Step ℝ) (admissible : Admissible s.values) :=
        @LevenbergMarquardt.advance_matched _ _ _ matched config s s' step admissible
      exact .levenbergMarquardt (loops.transfer follows verdicts admissible ended)

end Runs

end GraduatedFit.LeastSquares

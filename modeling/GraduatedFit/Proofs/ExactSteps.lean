import GraduatedFit.Proofs.AffineProblems
import GraduatedFit.Proofs.DampingRange
import GraduatedFit.Proofs.GradientTest
import GraduatedFit.Proofs.ReachedStates
import GraduatedFit.Proofs.UnfailingRuns

/-! Levenberg-Marquardt on linear least-squares problems: every step gains what it predicts, so that steps are taken until
the gradient is zero, and each of them divides the damping by three. -/

namespace GraduatedFit.LeastSquares

namespace Damping

/-- A step that gains exactly what it predicts leaves a third of the damping. -/
theorem accept_exact (d : Damping ℝ) (lower : ℝ) : (d.accept lower 1).lambda = max (d.lambda / 3) lower := by
  rw [accept_lambda]
  norm_num
  ring_nf

end Damping

namespace LevenbergMarquardt

/-- The quality of a step whose prediction is exact. -/
theorem stepQuality_exact {cost newCost : ℝ} (lower : newCost ≤ cost) :
    stepQuality cost newCost (cost - newCost) = if newCost = cost then 0 else 1 := by
  simp only [stepQuality, Scalar.lt_real, Scalar.abs_real, decide_eq_true_eq, sub_pos]
  by_cases same : newCost = cost
  · rw [if_pos same, same]
    simp
  · have gained : newCost < cost := lt_of_le_of_ne lower same
    rw [if_neg same, if_pos gained, div_self (sub_pos.mpr gained).ne', ite_self]

/-- The damping after so many steps that gain exactly what they predict. -/
noncomputable def exactDamping (config : LevenbergMarquardt ℝ) : Nat → ℝ
  | 0 => config.damping
  | taken + 1 => max (config.damping / 3.0 ^ (taken + 1)) config.dampingMin

theorem exactDamping_succ {config : LevenbergMarquardt ℝ} (nonneg : 0 ≤ config.dampingMin) (taken : Nat) :
    max (config.exactDamping taken / 3) config.dampingMin = config.exactDamping (taken + 1) := by
  have three : (3.0 : ℝ) = 3 := by norm_num
  cases taken with
  | zero => rw [exactDamping, exactDamping, three, zero_add, pow_one]
  | succ taken =>
      have shrunk : config.dampingMin / 3 ≤ config.dampingMin := by linarith
      rw [exactDamping, exactDamping, three, ← max_div_div_right zero_le_three, div_div, ← pow_succ, max_assoc,
        max_eq_right shrunk]

variable {graph : Graph ℝ} {initial : Values ℝ} {problem : Problem ℝ} {config : LevenbergMarquardt ℝ}
  {s : DampedState ℝ} {r : Vec ℝ} {J : SparseMat ℝ}

/-- A damped system is solved, with scaling or without. -/
theorem damped_direction (formed : J.WellFormed) (fits : r.length = J.height) (ready : s.Ready config.useScaling true J)
    (damped : 0 < s.damping.lambda) : ∃ d, config.direction r J s = .ok d ∧
      d.Solves (s.factors config.useScaling J) (some s.damping.lambda) r J := by
  have ready' : s.Ready config.useScaling (some s.damping.lambda).isSome J := ready
  exact ready'.direction_exists fits (SparseMat.damped_positiveDefinite (SparseMat.scaleColumns_wellFormed formed) damped)
    .because (.numericalInstability .gradientUnavailable)

/-- What an iteration does where the cost is that of a linear least-squares problem. -/
structure Exact (config : LevenbergMarquardt ℝ) (problem : Problem ℝ) (r : Vec ℝ) (J : SparseMat ℝ)
    (s s' : DampedState ℝ) (step : Step ℝ) : Prop where
  sloped : J.transposeMul r ≠ List.replicate J.width 0 → config.quality problem s = .ok 1 ∧ step.accepted = true ∧
    s'.damping.lambda = max (s.damping.lambda / 3) config.dampingMin
  flat : J.transposeMul r = List.replicate J.width 0 → config.quality problem s = .ok 0 ∧ step.accepted = false ∧
    step.values = s.values ∧ ∃ d, config.direction r J (config.rescaled J s) = .ok d ∧
      d.step = List.replicate J.width 0 ∧ step.stepNorm = 0
  damping : step.damping = some s'.damping.lambda

section Iterations

variable (prepared : Problem.prepare graph initial = .ok problem)
  (affine : ∀ f ∈ graph.factors, f.factor.value.Affine) (plain : graph.hasRobustFactors = false)
include prepared affine plain

/-- On an affine problem every iteration that finds a system makes a step, and knows beforehand what it gains. -/
theorem advance_exact (shape : initial.SameShape s.values) (balanced : problem.cost s.values = .ok s.cost)
    (linear : problem.linearize s.values = .ok (r, J)) (fits : r.length = J.height)
    (ready : (config.rescaled J s).Ready config.useScaling true J) (damped : 0 < s.damping.lambda) :
    ∃ s' step, config.advance problem s = (s', .ok step) ∧ config.Exact problem r J s s' step := by
  have formed := (problem.linearize_stored (Problem.prepare_ok prepared).2 linear).2
  have lambda := config.rescaled_damping J s
  obtain ⟨d, solved, solves⟩ := damped_direction formed fits ready (lambda ▸ damped)
  rw [lambda] at solves
  have predicts := predicts solves formed fits ready.length_factors ready.factors_ne_zero damped
  obtain ⟨moved, retracted, stepped, linear'⟩ :=
    Problem.linearize_moved prepared affine plain shape linear fits predicts.length
  have before := Except.ok.inj (balanced.symm.trans (Problem.cost_of_linearize prepared affine plain shape linear))
  have after := Problem.cost_of_linearize prepared affine plain (shape.trans stepped.shape) linear'
  -- The prediction is the difference of the costs.
  have gain := predicts.eq_model
  rw [one_div, ← show (0.5 : ℝ) = 2⁻¹ by norm_num, ← before] at gain
  generalize 0.5 * Vec.normSq (List.zipWith (· + ·) r (J.mulVec d.step)) = newCost at after gain
  rw [gain] at predicts
  have value : config.quality problem s = .ok (if newCost = s.cost then 0 else 1) := by
    rw [← stepQuality_exact (sub_nonneg.mp predicts.nonneg), ← gain]
    simp only [quality, linear, Result.ok_bind, solved, retracted, after]
    rfl
  have unmoved := config.rescaled_values J s
  obtain ⟨s', step, attempted, norm⟩ := attempt_exists (unmoved ▸ retracted) after
  obtain ⟨_, _, -, -, outcome⟩ := attempt_ok attempted
  have advanced := advance_ok_iff.mpr ⟨r, J, d, linear, solved, attempted⟩
  obtain ⟨_, known, accepted, reported, damping⟩ := advance_quality advanced
  obtain rfl := Except.ok.inj (value.symm.trans known)
  refine ⟨s', step, advanced, fun sloped => ?_, fun flat => ?_, reported⟩
  · have gained : newCost ≠ s.cost := fun same => sloped (predicts.zero_iff.mp (sub_eq_zero.mpr same.symm))
    rw [if_neg gained] at value accepted damping
    have taken : step.accepted = true := by simpa using accepted
    rw [if_pos taken] at damping
    exact ⟨value, taken, by rw [damping, Damping.accept_exact]⟩
  · have none : s.cost - newCost = 0 := predicts.zero_iff.mpr flat
    have still := predicts.still none
    rw [if_pos (sub_eq_zero.mp none).symm] at value accepted
    have rejected : step.accepted = false := by simpa using accepted
    refine ⟨value, rejected, ?_, d, solved, still, ?_⟩
    · rw [outcome.values_eq, rejected, unmoved]
      rfl
    · rw [norm, Vec.safeNorm_eq_norm, still, Vec.norm_eq_zero_iff List.length_replicate]
      simp

variable {clock : Clock} {cost : ℝ} {history : History ℝ (DampedState ℝ)} {i : Nat} (damped : 0 < config.damping)
  (upper : 0 < config.dampingMax) (nu : 0 < config.dampingNu) (known : problem.cost initial = .ok cost)
  (loops : (config.scheme clock problem).Loops config.maxIterations (config.start initial cost) history)
include damped upper nu known loops

theorem before_exact (made : i ≤ history.steps.length)
    (here : s = (config.scheme clock problem).before (config.start initial cost) i)
    (linear : problem.linearize s.values = .ok (r, J)) (fits : r.length = J.height) :
    ∃ s' step, config.advance problem s = (s', .ok step) ∧ config.Exact problem r J s s' step := by
  subst here
  have inside := (Problem.prepare_ok prepared).2
  let before := (config.scheme clock problem).before (config.start initial cost)
  have shape : initial.SameShape (before i).values := before_sameShape rfl loops made
  have balanced : (before i).toState.Balanced problem := loops.before_preserved (State.start_balanced known)
    (config.scheme_keepsBooks clock problem).balanced i made
  have kept (s s' : DampedState ℝ) (step : Step ℝ) (positive : s.damping.Positive)
      (advanced : config.advance problem s = (s', .ok step)) : s'.damping.Positive :=
    (advance_positive upper positive advanced).1
  have positive := loops.before_preserved (show (config.start initial cost).damping.Positive from ⟨damped, nu⟩) kept i made
  obtain ⟨r₀, J₀, first, follows⟩ := before_follows rfl loops inside made linear
  obtain ⟨-, -, -, ready, -⟩ := follows.rescaled inside first linear
  exact advance_exact prepared affine plain shape balanced.cost linear fits ready positive.lambda

/-- As long as the gradient is not zero all steps have been taken, each at a third of the damping before it. -/
theorem before_damping (nonneg : 0 ≤ config.dampingMin) (made : i ≤ history.steps.length)
    (here : s = (config.scheme clock problem).before (config.start initial cost) i) :
    (∃ r J, problem.linearize s.values = .ok (r, J) ∧ J.transposeMul r = List.replicate J.width 0) ∨
      s.damping.lambda = config.exactDamping i ∧
        ∀ j < i, ∀ step, history.steps[j]? = some step → step.accepted = true := by
  induction i generalizing s with
  | zero => exact .inr ⟨here ▸ rfl, fun j below => absurd below j.not_lt_zero⟩
  | succ i ih =>
      obtain ⟨step, reported⟩ : ∃ step, history.steps[i]? = some step := ⟨_, List.getElem?_eq_getElem made⟩
      have advanced := loops.advances reported
      rw [← here] at advanced
      obtain ⟨r, J, d, linear, solved, -⟩ := advance_ok_iff.mp advanced
      obtain ⟨_, _, again, exact⟩ := before_exact prepared affine plain damped upper nu known loops
        (Nat.le_of_succ_le made) rfl linear (State.direction_fits solved)
      obtain ⟨rfl, same⟩ := Prod.mk.inj (again.symm.trans advanced)
      obtain rfl := Except.ok.inj same
      by_cases flat : J.transposeMul r = List.replicate J.width 0
      · -- The step is rejected, and the next iteration finds the same system.
        obtain ⟨-, -, still, -⟩ := exact.flat flat
        have left := (config.advance_retracts problem advanced).1
        exact .inl ⟨r, J, by rw [left, still, linear], flat⟩
      · obtain ⟨-, accepted, lambda⟩ := exact.sloped flat
        rcases ih (Nat.le_of_succ_le made) rfl with ⟨r', J', linear', flat'⟩ | ⟨before, earlier⟩
        · obtain ⟨rfl, rfl⟩ := Prod.mk.inj (Except.ok.inj (linear'.symm.trans linear))
          exact absurd flat' flat
        · refine .inr ⟨by rw [lambda, before, exactDamping_succ nonneg], fun j below other found => ?_⟩
          rcases Nat.lt_succ_iff_lt_or_eq.mp below with sooner | rfl
          · exact earlier j sooner other found
          · obtain rfl := Option.some.inj (found.symm.trans reported)
            exact accepted

end Iterations

end LevenbergMarquardt

/-- Levenberg-Marquardt on an affine problem, with or without scaling. Where the gradient is not zero a step gains exactly
what it predicts and is taken, as were all steps before it, so that the damping is divided by three each time down to its
least value; where the gradient is zero the step is zero and rejected. -/
theorem Solver.optimize_affine_steps {solver : Solver ℝ} {config : LevenbergMarquardt ℝ}
    (method : solver.method = .levenbergMarquardt config) (damped : 0 < config.damping) (upper : 0 < config.dampingMax)
    (nu : 0 < config.dampingNu) (nonneg : 0 ≤ config.dampingMin) {graph : Graph ℝ}
    (affine : ∀ f ∈ graph.factors, f.factor.value.Affine) (plain : graph.hasRobustFactors = false)
    (addressable : (graph.factors.map (·.noise.dim)).sum < 2 ^ 64) (clock : Clock) {initial : Values ℝ}
    {problem : Problem ℝ} (prepared : Problem.prepare graph initial = .ok problem) {cost : ℝ}
    (known : graph.error initial = .ok cost) :
    let run := (solver.optimize clock graph initial).2
    ∀ i ≤ run.steps.length, ∀ r J, problem.linearize (run.estimate initial i) = .ok (r, J) →
      let s := (config.scheme clock problem).before (config.start initial cost) i
      ∃ s' step, config.advance problem s = (s', .ok step) ∧ (i < run.steps.length → run.steps[i]? = some step) ∧
        (J.transposeMul r ≠ List.replicate J.width 0 →
          config.quality problem s = .ok 1 ∧ step.accepted = true ∧
          (∀ j < i, ∀ earlier, run.steps[j]? = some earlier → earlier.accepted = true) ∧
          step.damping = some (max (config.damping / 3 ^ (i + 1)) config.dampingMin)) ∧
        (J.transposeMul r = List.replicate J.width 0 →
          step.accepted = false ∧ step.values = run.estimate initial i ∧
          ∃ d, config.direction r J (config.rescaled J s) = .ok d ∧ d.step = List.replicate J.width 0 ∧
            step.stepNorm = 0) := by
  intro run i made r J linear s
  have looped : (Method.levenbergMarquardt config).Loops clock problem initial cost run :=
    method ▸ solver.optimize_loops clock prepared known
  obtain ⟨history, loops, steps⟩ := looped.levenbergMarquardt_history
  have known' : problem.cost initial = .ok cost := by rwa [Problem.cost, (Problem.prepare_ok prepared).1]
  have made' : i ≤ history.steps.length := made.trans_eq (congrArg _ steps)
  have estimate : run.estimate initial i = s.values :=
    (config.scheme_keepsBooks clock problem).estimate rfl loops steps made'
  have fits := Problem.linearize_fits prepared addressable (looped.estimate_shape i) linear
  rw [estimate] at linear ⊢
  obtain ⟨s', step, advanced, exact⟩ := LevenbergMarquardt.before_exact prepared affine plain damped upper nu known' loops
    made' rfl linear fits
  refine ⟨s', step, advanced, fun within => ?_, fun sloped => ?_, fun flat => ?_⟩
  · obtain ⟨step', reported⟩ : ∃ step', run.steps[i]? = some step' := ⟨_, List.getElem?_eq_getElem within⟩
    have advanced' := loops.advances (steps ▸ reported)
    rw [reported, Except.ok.inj (Prod.mk.inj (advanced'.symm.trans advanced)).2]
  · obtain ⟨quality, accepted, lambda⟩ := exact.sloped sloped
    rcases LevenbergMarquardt.before_damping prepared affine plain damped upper nu known' loops nonneg made' rfl with
      ⟨r', J', linear', flat⟩ | ⟨before, earlier⟩
    · obtain ⟨rfl, rfl⟩ := Prod.mk.inj (Except.ok.inj (linear'.symm.trans linear))
      exact absurd flat sloped
    · refine ⟨quality, accepted, steps ▸ earlier, ?_⟩
      rw [exact.damping, lambda, before, LevenbergMarquardt.exactDamping_succ nonneg, LevenbergMarquardt.exactDamping]
      norm_num
  · obtain ⟨-, rejected, still, zero⟩ := exact.flat flat
    exact ⟨rejected, still, zero⟩

theorem Solver.anchored_steps :
    let config : LevenbergMarquardt ℝ := LevenbergMarquardt.standard
    let start := config.start (.single 0) (0.5 * ((0 - 1) * (0 - 1)))
    0 < config.damping ∧ 0 < config.dampingMax ∧ 0 < config.dampingNu ∧ 0 ≤ config.dampingMin ∧
      ∃ s' step, config.advance .anchored start = (s', .ok step) ∧ config.quality .anchored start = .ok 1 ∧
        step.accepted = true ∧ step.damping = some (max (config.damping / 3 ^ (0 + 1)) config.dampingMin) := by
  intro config start
  have damped : 0 < config.damping := by norm_num [config, LevenbergMarquardt.standard]
  have upper : 0 < config.dampingMax := by norm_num [config, LevenbergMarquardt.standard]
  have nu : 0 < config.dampingNu := by norm_num [config, LevenbergMarquardt.standard]
  have nonneg : 0 ≤ config.dampingMin := by norm_num [config, LevenbergMarquardt.standard]
  have method : (Method.levenbergMarquardt config).build.method = .levenbergMarquardt config := rfl
  obtain ⟨s', step, advanced, -, sloped, -⟩ := Solver.optimize_affine_steps method damped upper nu nonneg
    Graph.anchored_affine rfl
    (by simp [Graph.anchored, Noise.dim]) (fun _ => 0) (Problem.prepare_anchored 0) (Graph.anchored_error 0) 0
    (Nat.zero_le _) _ _ (Problem.linearize_anchored 0)
  have steep : (SparseMat.slope 1).transposeMul [0 - 1] ≠ List.replicate (SparseMat.slope 1).width 0 := by
    rw [SparseMat.slope_transposeMul]
    simp [SparseMat.slope, SparseMat.width]
  obtain ⟨quality, accepted, -, damping⟩ := sloped steep
  exact ⟨damped, upper, nu, nonneg, s', step, advanced, quality, accepted, damping⟩

end GraduatedFit.LeastSquares

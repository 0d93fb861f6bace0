import GraduatedFit.Proofs.AffineProblems
import GraduatedFit.Proofs.ReachedStates

/-! Gauss-Newton on linear least-squares problems: the gradient that a step leaves is what was added to the diagonal
times the negated step. -/

namespace GraduatedFit

namespace SparseMat

variable {J : SparseMat ℝ} {r h : Vec ℝ} {added : Nat → ℝ} (formed : J.WellFormed) (fits : r.length = J.height)
  (equation : ∀ a < J.width, (J.transposeMul (J.mulVec h)).getD a 0 + added a * h.getD a 0 = -(J.transposeMul r).getD a 0)

include formed in
/-- The squared norm of an image, as the step along the Gram matrix of it. -/
theorem normSq_mulVec_eq (h : Vec ℝ) : Vec.normSq (J.mulVec h) =
    ∑ a ∈ Finset.range J.width, h.getD a 0 * (J.transposeMul (J.mulVec h)).getD a 0 := by
  rw [transposeMul_adjoint formed (length_mulVec J h), Vec.normSq_eq_range _ (length_mulVec J h)]
  exact Finset.sum_congr rfl fun p _ => sq _

include formed fits equation

/-- The gradient after a step of the normal equations. -/
theorem gradient_after {a : Nat} (inside : a < J.width) :
    (J.transposeMul (List.zipWith (· + ·) r (J.mulVec h))).getD a 0 = -(added a * h.getD a 0) := by
  have row := equation a inside
  rw [transposeMul_moved formed fits h inside]
  linarith

/-- A step of the normal equations makes the residual no larger. -/
theorem normSq_after_le (nonneg : ∀ a < J.width, 0 ≤ added a) :
    Vec.normSq (List.zipWith (· + ·) r (J.mulVec h)) ≤ Vec.normSq r := by
  have along : ∑ p ∈ Finset.range J.height, r.getD p 0 * (J.mulVec h).getD p 0 =
      -(Vec.normSq (J.mulVec h) + ∑ a ∈ Finset.range J.width, added a * h.getD a 0 ^ 2) := by
    rw [← transposeMul_adjoint formed fits, normSq_mulVec_eq formed, ← Finset.sum_add_distrib, ← Finset.sum_neg_distrib]
    refine Finset.sum_congr rfl fun a member => ?_
    linear_combination h.getD a 0 * equation a (Finset.mem_range.mp member)
  have weighed : 0 ≤ ∑ a ∈ Finset.range J.width, added a * h.getD a 0 ^ 2 :=
    Finset.sum_nonneg fun a member => mul_nonneg (nonneg a (Finset.mem_range.mp member)) (sq_nonneg _)
  rw [normSq_moved fits, along]
  linarith [Vec.normSq_nonneg (J.mulVec h)]

/-- Where the same number is added for every column the gradient gets no larger. -/
theorem norm_gradient_after_le {d : ℝ} (nonneg : 0 ≤ d) (same : ∀ a, added a = d) :
    Vec.norm (J.transposeMul (List.zipWith (· + ·) r (J.mulVec h))) ≤ Vec.norm (J.transposeMul r) := by
  have cross : 0 ≤ d * Vec.normSq (J.mulVec h) := mul_nonneg nonneg (Vec.normSq_nonneg _)
  rw [normSq_mulVec_eq formed, Finset.mul_sum] at cross
  refine Real.sqrt_le_sqrt ?_
  rw [Vec.normSq_eq_range _ (length_transposeMul J _), Vec.normSq_eq_range _ (length_transposeMul J _)]
  -- The gradient before is the Gram image of the step and the gradient after it, negated; their product is not negative.
  have expand : ∀ a ∈ Finset.range J.width, (J.transposeMul r).getD a 0 ^ 2 =
      (J.transposeMul (J.mulVec h)).getD a 0 ^ 2 + 2 * (d * (h.getD a 0 * (J.transposeMul (J.mulVec h)).getD a 0)) +
        (J.transposeMul (List.zipWith (· + ·) r (J.mulVec h))).getD a 0 ^ 2 := by
    intro a member
    have inside := Finset.mem_range.mp member
    have row := equation a inside
    rw [gradient_after formed fits equation inside, ← neg_sq ((J.transposeMul r).getD a 0), ← row, same a]
    ring
  rw [Finset.sum_congr rfl expand, Finset.sum_add_distrib, Finset.sum_add_distrib, ← Finset.mul_sum]
  have squares := Finset.sum_nonneg fun a (_ : a ∈ Finset.range J.width) =>
    sq_nonneg ((J.transposeMul (J.mulVec h)).getD a 0)
  linarith

end SparseMat

namespace LeastSquares

namespace GaussNewton

variable {config : GaussNewton ℝ} {graph : Graph ℝ} {initial : Values ℝ} {problem : Problem ℝ} {s : State ℝ}
  {r : Vec ℝ} {J : SparseMat ℝ} {d : Direction ℝ}

section Affine

variable (prepared : Problem.prepare graph initial = .ok problem)
  (affine : ∀ f ∈ graph.factors, f.factor.value.Affine) (plain : graph.hasRobustFactors = false)
  (shape : initial.SameShape s.values) (linear : problem.linearize s.values = .ok (r, J))
  (solved : config.direction r J (config.rescaled J s) = .ok d)
include prepared affine plain shape linear solved

/-- On an affine problem every step that is found is taken. -/
theorem take_affine (length : d.step.length = J.width) :
    ∃ s' step, config.advance problem s = (s', .ok step) ∧ problem.retract s.values d.step = .ok step.values ∧
      problem.linearize step.values = .ok (List.zipWith (· + ·) r (J.mulVec d.step), J) ∧
      problem.cost step.values = .ok step.cost := by
  obtain ⟨moved, retracted, stepped, linear'⟩ :=
    Problem.linearize_moved prepared affine plain shape linear (State.direction_fits solved) length
  have known := Problem.cost_of_linearize prepared affine plain (shape.trans stepped.shape) linear'
  have unmoved := config.rescaled_values J s
  obtain ⟨s', step, done, rfl, cost, -⟩ := take_exists (unmoved ▸ retracted) known
  exact ⟨s', step, advance_ok_iff.mpr ⟨r, J, d, linear, solved, done⟩, retracted, linear', cost ▸ known⟩

/-- Without scaling the gradient after a step is what was added to the diagonal times the negated step, and neither the
gradient nor the cost gets larger. -/
theorem advance_affine (unscaled : config.useScaling = false)
    (planned : s.equations.PlannedFor J.support config.damping.isSome) :
    let after := List.zipWith (· + ·) r (J.mulVec d.step)
    ∃ s' step, config.advance problem s = (s', .ok step) ∧ problem.retract s.values d.step = .ok step.values ∧
      problem.linearize step.values = .ok (after, J) ∧ problem.cost step.values = .ok step.cost ∧
      J.transposeMul after = d.step.map (-(max config.minDiagonal 0) * ·) ∧
      Vec.norm (J.transposeMul after) ≤ Vec.norm (J.transposeMul r) ∧
      ∃ e, problem.cost s.values = .ok e ∧ step.cost ≤ e := by
  intro after
  have fits := State.direction_fits solved
  have formed := (problem.linearize_stored (Problem.prepare_ok prepared).2 linear).2
  obtain ⟨length, equation⟩ := unscaled_equation unscaled planned formed solved
  obtain ⟨s', step, advanced, retracted, linear', known⟩ :=
    take_affine prepared affine plain shape linear solved length
  have shape' := Problem.retract_sameShape shape retracted
  have before := Problem.cost_of_linearize prepared affine plain shape linear
  have cost := Except.ok.inj (known.symm.trans (Problem.cost_of_linearize prepared affine plain shape' linear'))
  have gradient : J.transposeMul after = d.step.map (-(max config.minDiagonal 0) * ·) := by
    refine Vec.ext_getD (by simp [length]) fun a inside => ?_
    have bound : a < J.width := inside.trans_eq (SparseMat.length_transposeMul J _)
    rw [SparseMat.gradient_after formed fits equation bound]
    simp [List.getD_eq_getElem?_getD, length, bound]
  refine ⟨s', step, advanced, retracted, linear', known, gradient,
    SparseMat.norm_gradient_after_le formed fits equation (le_max_right _ _) fun _ => rfl, _, before, ?_⟩
  rw [cost]
  exact mul_le_mul_of_nonneg_left (SparseMat.normSq_after_le formed fits equation fun _ _ => le_max_right _ _)
    (by norm_num)

end Affine

section Runs

variable {clock : Clock} {cost : ℝ} {history : History ℝ (State ℝ)}
  (loops : (config.scheme clock problem).Loops config.maxIterations (.start initial cost) history)
  (prepared : Problem.prepare graph initial = .ok problem)
include loops prepared

/-- Every state that an iteration finds has the variables of the initial estimate, and a plan for its system. -/
theorem before_planned {i : Nat} (made : i ≤ history.steps.length) {s : State ℝ}
    (here : s = (config.scheme clock problem).before (.start initial cost) i)
    (linear : problem.linearize s.values = .ok (r, J)) :
    initial.SameShape s.values ∧ s.equations.PlannedFor J.support config.damping.isSome := by
  subst here
  have inside := (Problem.prepare_ok prepared).2
  obtain ⟨r₀, J₀, first, follows⟩ := before_follows loops inside made linear
  obtain ⟨-, -, support, -⟩ := follows.rescaled inside first linear
  exact ⟨before_sameShape loops made, support ▸ follows.planned⟩

variable (affine : ∀ f ∈ graph.factors, f.factor.value.Affine) (plain : graph.hasRobustFactors = false)
  (unscaled : config.useScaling = false) {run : Run ℝ} (steps : run.steps = history.steps)
include affine plain unscaled steps

/-- Every iteration of a run on an affine problem whose system is solved. -/
theorem iteration_affine {i : Nat} (made : i ≤ run.steps.length)
    (linear : problem.linearize (run.estimate initial i) = .ok (r, J))
    (here : s = (config.scheme clock problem).before (.start initial cost) i)
    (solved : config.direction r J (config.rescaled J s) = .ok d) :
    let after := List.zipWith (· + ·) r (J.mulVec d.step)
    ∃ s' step, config.advance problem s = (s', .ok step) ∧ (i < run.steps.length → run.steps[i]? = some step) ∧
      problem.retract (run.estimate initial i) d.step = .ok step.values ∧
      problem.linearize step.values = .ok (after, J) ∧ problem.cost step.values = .ok step.cost ∧
      J.transposeMul after = d.step.map (-(max config.minDiagonal 0) * ·) ∧
      Vec.norm (J.transposeMul after) ≤ Vec.norm (J.transposeMul r) ∧
      ∃ e, problem.cost (run.estimate initial i) = .ok e ∧ step.cost ≤ e := by
  intro after
  have made' : i ≤ history.steps.length := made.trans_eq (congrArg _ steps)
  have estimate : run.estimate initial i = s.values :=
    here ▸ (config.scheme_keepsBooks clock problem).estimate rfl loops steps made'
  rw [estimate] at linear ⊢
  obtain ⟨shape, planned⟩ := before_planned loops prepared made' here linear
  obtain ⟨s', step, advanced, rest⟩ := advance_affine prepared affine plain shape linear solved unscaled planned
  refine ⟨s', step, advanced, fun within => ?_, rest⟩
  obtain ⟨step', reported⟩ : ∃ step', run.steps[i]? = some step' := ⟨_, List.getElem?_eq_getElem within⟩
  have advanced' := loops.advances (steps ▸ reported)
  rw [← here] at advanced'
  rw [reported, Except.ok.inj (Prod.mk.inj (advanced'.symm.trans advanced)).2]

/-- Where nothing is added and the columns are independent the first iteration finds the least cost. -/
theorem first_least (undamped : config.minDiagonal ≤ 0) (linear : problem.linearize initial = .ok (r, J))
    (fits : r.length = J.height) (rank : J.FullRank) :
    ∃ step, run.steps[0]? = some step ∧ problem.cost step.values = .ok step.cost ∧
      ∀ other, initial.SameShape other → ∃ e, graph.error other = .ok e ∧ step.cost ≤ e := by
  have formed := (problem.linearize_stored (Problem.prepare_ok prepared).2 linear).2
  have none : max config.minDiagonal 0 = 0 := max_eq_right undamped
  obtain ⟨d, solved⟩ := unscaled_direction_exists (s := .start initial cost) unscaled
    (NormalEquations.plannedFor_nothing _ _) fits (rank.positiveDefinite formed config.damping_nonneg)
  obtain ⟨s', step, advanced, -, retracted, linear', value, gradient, -⟩ :=
    iteration_affine loops prepared affine plain unscaled steps (Nat.zero_le _) (i := 0) linear rfl solved
  have shape := Problem.retract_sameShape (fun _ => rfl) retracted
  have length : (List.zipWith (· + ·) r (J.mulVec d.step)).length = J.height := by simp [fits]
  have least := Except.ok.inj (value.symm.trans (Problem.cost_of_linearize prepared affine plain shape linear'))
  refine ⟨step, (congrArg (·[0]?) steps).trans (loops.reports_first advanced), value, fun other same => ?_⟩
  rw [least]
  refine Problem.cost_least prepared affine plain shape linear' formed length (fun a inside => ?_) same
  rw [gradient, none]
  simp [List.getD_eq_getElem?_getD]

/-- Neither the gradient nor the cost gets larger in an iteration. -/
theorem iteration_descends {i : Nat} (within : i < run.steps.length) : ∃ r J r' e e',
      problem.linearize (run.estimate initial i) = .ok (r, J) ∧
      problem.linearize (run.estimate initial (i + 1)) = .ok (r', J) ∧
      Vec.norm (J.transposeMul r') ≤ Vec.norm (J.transposeMul r) ∧
      problem.cost (run.estimate initial i) = .ok e ∧ problem.cost (run.estimate initial (i + 1)) = .ok e' ∧ e' ≤ e := by
  obtain ⟨step, reported⟩ : ∃ step, run.steps[i]? = some step := ⟨_, List.getElem?_eq_getElem within⟩
  obtain ⟨r, J, d, linear, solved, -⟩ := advance_ok_iff.mp (loops.advances (steps ▸ reported))
  have estimate : run.estimate initial i = ((config.scheme clock problem).before (.start initial cost) i).values :=
    (config.scheme_keepsBooks clock problem).estimate rfl loops steps (within.le.trans_eq (congrArg _ steps))
  rw [← estimate] at linear
  obtain ⟨s', step', advanced, reported', retracted, linear', value, -, gradient, e, before, lower⟩ :=
    iteration_affine loops prepared affine plain unscaled steps within.le linear rfl solved
  rw [Run.estimate_succ (reported' within)]
  exact ⟨r, J, _, e, step'.cost, linear, linear', gradient, before, value, lower⟩

end Runs

end GaussNewton

/-- Gauss-Newton without scaling on an affine problem. An iteration whose system is solved is made, and the gradient that
it leaves is what was added to the diagonal times the negated step. Where nothing is added and the columns are
independent the first iteration finds the least cost of all estimates of the same variables; where something is added
neither the gradient nor the cost ever gets larger. -/
theorem Solver.optimize_affine_gradients {solver : Solver ℝ} {config : GaussNewton ℝ}
    (method : solver.method = .gaussNewton config) (unscaled : config.useScaling = false) {graph : Graph ℝ}
    (affine : ∀ f ∈ graph.factors, f.factor.value.Affine) (plain : graph.hasRobustFactors = false)
    (addressable : (graph.factors.map (·.noise.dim)).sum < 2 ^ 64) (clock : Clock) {initial : Values ℝ}
    {problem : Problem ℝ} (prepared : Problem.prepare graph initial = .ok problem) {cost : ℝ}
    (known : graph.error initial = .ok cost) :
    let run := (solver.optimize clock graph initial).2
    (∀ i ≤ run.steps.length, ∀ r J d, problem.linearize (run.estimate initial i) = .ok (r, J) →
      let s := (config.scheme clock problem).before (.start initial cost) i
      config.direction r J (config.rescaled J s) = .ok d →
      ∃ s' step r', config.advance problem s = (s', .ok step) ∧ (i < run.steps.length → run.steps[i]? = some step) ∧
        problem.retract (run.estimate initial i) d.step = .ok step.values ∧
        problem.linearize step.values = .ok (r', J) ∧
        J.transposeMul r' = d.step.map (-(max config.minDiagonal 0) * ·)) ∧
    (config.minDiagonal ≤ 0 → ∀ r J, problem.linearize initial = .ok (r, J) → J.FullRank →
      ∃ step, run.steps[0]? = some step ∧ graph.error step.values = .ok step.cost ∧
        ∀ other, initial.SameShape other → ∃ e, graph.error other = .ok e ∧ step.cost ≤ e) ∧
    (0 < config.minDiagonal → ∀ i < run.steps.length, ∃ r J r' e e',
      problem.linearize (run.estimate initial i) = .ok (r, J) ∧
      problem.linearize (run.estimate initial (i + 1)) = .ok (r', J) ∧
      Vec.norm (J.transposeMul r') ≤ Vec.norm (J.transposeMul r) ∧
      graph.error (run.estimate initial i) = .ok e ∧ graph.error (run.estimate initial (i + 1)) = .ok e' ∧ e' ≤ e) := by
  intro run
  have looped : (Method.gaussNewton config).Loops clock problem initial cost run :=
    method ▸ solver.optimize_loops clock prepared known
  obtain ⟨history, loops, steps⟩ := looped.gaussNewton_history
  have errors (values : Values ℝ) : problem.cost values = graph.error values := by
    rw [Problem.cost, (Problem.prepare_ok prepared).1]
  refine ⟨?_, ?_, ?_⟩
  · intro i made r J d linear s solved
    obtain ⟨s', step, advanced, reported, retracted, linear', -, gradient, -⟩ :=
      GaussNewton.iteration_affine loops prepared affine plain unscaled steps made linear rfl solved
    exact ⟨s', step, _, advanced, reported, retracted, linear', gradient⟩
  · intro undamped r J linear rank
    have fits := Problem.linearize_fits prepared addressable (fun _ => rfl) linear
    obtain ⟨step, reported, value, least⟩ :=
      GaussNewton.first_least loops prepared affine plain unscaled steps undamped linear fits rank
    exact ⟨step, reported, errors _ ▸ value, least⟩
  · intro _ i within
    obtain ⟨r, J, r', e, e', linear, linear', gradient, before, after, lower⟩ :=
      GaussNewton.iteration_descends loops prepared affine plain unscaled steps within
    exact ⟨r, J, r', e, e', linear, linear', gradient, errors _ ▸ before, errors _ ▸ after, lower⟩

/-- From zero the prior of one is met in the first iteration. -/
theorem Solver.anchored_gradients :
    let config : GaussNewton ℝ := { GaussNewton.standard with minDiagonal := 0 }
    let solver := (Method.gaussNewton config).build
    config.useScaling = false ∧ Graph.anchored.hasRobustFactors = false ∧
      ∃ step, (solver.optimize (fun _ => 0) .anchored (.single 0)).2.steps[0]? = some step ∧ step.cost ≤ 0 := by
  intro config solver
  refine ⟨rfl, rfl, ?_⟩
  have method : solver.method = .gaussNewton config := rfl
  obtain ⟨-, least, -⟩ := Solver.optimize_affine_gradients method rfl Graph.anchored_affine rfl
    (by simp [Graph.anchored, Noise.dim]) (fun _ => 0) (Problem.prepare_anchored 0)
    (Graph.anchored_error 0)
  obtain ⟨step, reported, -, below⟩ :=
    least le_rfl _ _ (Problem.linearize_anchored 0) (SparseMat.slope_fullRank one_ne_zero)
  obtain ⟨e, error, lower⟩ := below (.single 1) (Values.single_shape 0 1)
  obtain rfl := Except.ok.inj ((Graph.anchored_error 1).symm.trans error)
  exact ⟨step, reported, by simpa using lower⟩

end LeastSquares

end GraduatedFit

import GraduatedFit.Proofs.FoldedValley
import GraduatedFit.Proofs.LinearModel

/-! Where the damping of a run goes: never below its range, but above it by steps that are taken though they gain less
than half of what they predict. -/

namespace GraduatedFit.LeastSquares

namespace Damping

/-- The damping is not below its range, and the factor of the next rejection does not shrink it. -/
structure Above (lower : ℝ) (d : Damping ℝ) : Prop where
  lambda : lower ≤ d.lambda
  nu : 1 ≤ d.nu

variable {lower upper quality : ℝ} {d : Damping ℝ}

theorem accept_lambda : (d.accept lower quality).lambda =
    (d.lambda * ((1 / 3) ⊔ (1 - (2 * quality - 1) ^ 3))) ⊔ lower := by
  simp only [accept, Scalar.max_real]
  norm_num [pow_succ]

theorem accept_above : (d.accept lower quality).Above lower where
  lambda := accept_lambda ▸ le_sup_right
  nu := by norm_num [accept]

theorem reject_le : (d.reject upper).lambda ≤ upper := by
  rw [reject, Scalar.min_real]
  exact inf_le_right

theorem reject_above (above : d.Above lower) (nonneg : 0 ≤ lower) (range : lower ≤ upper) :
    (d.reject upper).Above lower where
  lambda := by
    rw [reject, Scalar.min_real]
    exact le_inf (above.lambda.trans (le_mul_of_one_le_right (nonneg.trans above.lambda) above.nu)) range
  nu := by
    have grown : d.nu ≤ d.nu * 2.0 := le_mul_of_one_le_right (zero_le_one.trans above.nu) (by norm_num)
    exact above.nu.trans grown

/-- A step that is taken less than doubles the damping. -/
theorem accept_lt (above : d.Above lower) (positive : 0 < lower) (gained : 0 < quality) :
    (d.accept lower quality).lambda < 2 * d.lambda := by
  have lambda : 0 < d.lambda := positive.trans_le above.lambda
  have cube : (-1 : ℝ) ^ 3 < (2 * quality - 1) ^ 3 :=
    Odd.strictMono_pow (by decide) (show (-1 : ℝ) < 2 * quality - 1 by linarith)
  have factor : (1 / 3 : ℝ) ⊔ (1 - (2 * quality - 1) ^ 3) < 2 := sup_lt_iff.mpr ⟨by norm_num, by linarith⟩
  rw [accept_lambda, sup_lt_iff]
  exact ⟨by linarith [mul_lt_mul_of_pos_left factor lambda], above.lambda.trans_lt (by linarith)⟩

/-- It raises the damping exactly where it gains less than half of what it predicts. -/
theorem accept_le_iff (above : d.Above lower) (positive : 0 < lower) :
    (d.accept lower quality).lambda ≤ d.lambda ↔ 1 / 2 ≤ quality := by
  have lambda : 0 < d.lambda := positive.trans_le above.lambda
  rw [accept_lambda, sup_le_iff, and_iff_left above.lambda, mul_le_iff_le_one_right lambda, sup_le_iff,
    and_iff_right (by norm_num), sub_le_self_iff, Odd.pow_nonneg_iff (by decide)]
  constructor <;> intro h <;> linarith

end Damping

namespace LevenbergMarquardt

section Quality

variable {K : Type} [Scalar K]

/-- The quality of the step that an iteration tries. -/
def quality (config : LevenbergMarquardt K) (problem : Problem K) (s : DampedState K) : Result K K := do
  let (r, J) ← problem.linearize s.values
  let d ← config.direction r J (config.rescaled J s)
  let newCost ← problem.cost (← problem.retract s.values d.step)
  return stepQuality s.cost newCost (predictedReduction s.damping.lambda d.systemStep d.gradient)

/-- The quality decides whether the step is taken, and how the damping changes. -/
theorem advance_quality {config : LevenbergMarquardt K} {problem : Problem K} {s s' : DampedState K} {step : Step K}
    (advanced : config.advance problem s = (s', .ok step)) : ∃ quality, config.quality problem s = .ok quality ∧
      step.accepted = Scalar.lt 0 quality ∧ step.damping = some s'.damping.lambda ∧
      s'.damping = if step.accepted then s.damping.accept config.dampingMin quality
        else s.damping.reject config.dampingMax := by
  obtain ⟨r, J, d, linear, solved, attempted⟩ := advance_ok_iff.mp advanced
  have reported := attempt_damping attempted
  simp only [attempt, Result.bind_ok_iff] at attempted
  obtain ⟨tried, retracted, newCost, known, done⟩ := attempted
  obtain ⟨rfl, rfl⟩ := Prod.mk.inj (Except.ok.inj done)
  rw [rescaled_values] at retracted
  obtain ⟨scaling, -, frame⟩ := config.rescaled_eq J s
  have cost : (config.rescaled J s).cost = s.cost := by rw [frame]
  refine ⟨stepQuality s.cost newCost (predictedReduction s.damping.lambda d.systemStep d.gradient), ?_, ?_, reported, ?_⟩
  · simp only [quality, Result.bind_ok_iff, Prod.exists]
    exact ⟨r, J, linear, d, solved, tried, retracted, newCost, known, rfl⟩
  · dsimp only
    rw [cost, rescaled_damping]
  · dsimp only
    rw [cost, rescaled_damping]

end Quality

/-- How an iteration changes the damping. -/
structure Redamps (config : LevenbergMarquardt ℝ) (before quality after : ℝ) (step : Step ℝ) : Prop where
  reported : step.damping = some after
  accepted_iff : step.accepted = true ↔ 0 < quality
  not_below : config.dampingMin ≤ after
  rejected : step.accepted = false → after ≤ config.dampingMax
  less_than_doubled : step.accepted = true → after < 2 * before
  falls_iff : step.accepted = true → (after ≤ before ↔ 1 / 2 ≤ quality)

/-- A configuration whose damping begins in its range. -/
structure InRange (config : LevenbergMarquardt ℝ) : Prop where
  positive : 0 < config.dampingMin
  lower : config.dampingMin ≤ config.damping
  upper : config.damping ≤ config.dampingMax
  nu : 1 ≤ config.dampingNu

section Range

variable {config : LevenbergMarquardt ℝ} (range : config.InRange)
include range

theorem advance_redamps {problem : Problem ℝ} {s s' : DampedState ℝ} {step : Step ℝ}
    (above : s.damping.Above config.dampingMin) (advanced : config.advance problem s = (s', .ok step)) :
    s'.damping.Above config.dampingMin ∧ ∃ quality, config.quality problem s = .ok quality ∧
      config.Redamps s.damping.lambda quality s'.damping.lambda step := by
  obtain ⟨quality, evaluated, accepted, reported, damping⟩ := advance_quality advanced
  have accepted_iff : step.accepted = true ↔ 0 < quality := by
    rw [accepted, Scalar.lt_real, decide_eq_true_eq]
  cases taken : step.accepted with
  | true =>
      rw [taken, if_pos rfl] at damping
      have next : s'.damping.Above config.dampingMin := damping ▸ Damping.accept_above
      refine ⟨next, quality, evaluated, reported, accepted_iff, next.lambda, ?_, fun _ => ?_, fun _ => ?_⟩
      · exact fun rejected => Bool.noConfusion (taken.symm.trans rejected)
      · rw [damping]
        exact Damping.accept_lt above range.positive (accepted_iff.mp taken)
      · rw [damping]
        exact Damping.accept_le_iff above range.positive
  | false =>
      rw [taken, if_neg Bool.false_ne_true] at damping
      have next : s'.damping.Above config.dampingMin :=
        damping ▸ Damping.reject_above above range.positive.le (range.lower.trans range.upper)
      refine ⟨next, quality, evaluated, reported, accepted_iff, next.lambda, fun _ => ?_, ?_, ?_⟩
      · rw [damping]
        exact Damping.reject_le
      · exact fun accepted => Bool.noConfusion (taken.symm.trans accepted)
      · exact fun accepted => Bool.noConfusion (taken.symm.trans accepted)

section Run

variable {clock : Clock} {problem : Problem ℝ} {initial : Values ℝ} {cost : ℝ} {history : History ℝ (DampedState ℝ)}
  (loops : (config.scheme clock problem).Loops config.maxIterations (config.start initial cost) history)
include loops

/-- Every iteration of a run changes the damping like this. -/
theorem loop_redamps {i : Nat} {step : Step ℝ} (reported : history.steps[i]? = some step) :
    let before := (config.scheme clock problem).before (config.start initial cost)
    ∃ quality, config.quality problem (before i) = .ok quality ∧
      config.Redamps (before i).damping.lambda quality (before (i + 1)).damping.lambda step := by
  obtain ⟨bound, -⟩ := List.getElem?_eq_some_iff.mp reported
  have start : (config.start initial cost).damping.Above config.dampingMin := ⟨range.lower, range.nu⟩
  have preserved (s s' : DampedState ℝ) (step : Step ℝ) (above : s.damping.Above config.dampingMin)
      (advanced : config.advance problem s = (s', .ok step)) : s'.damping.Above config.dampingMin :=
    (advance_redamps range above advanced).1
  have above := loops.before_preserved start preserved i bound.le
  exact (advance_redamps range above (loops.advances reported)).2

/-- From the start, or from a rejection on, the damping stays in its range as long as every step that is taken gains at
least half of what it predicts. -/
theorem loop_within {m : Nat} (entered : m = 0 ∨
      ∃ k step, m = k + 1 ∧ history.steps[k]? = some step ∧ step.accepted = false) {i : Nat} (later : m ≤ i)
    (made : i ≤ history.steps.length) :
    let before := (config.scheme clock problem).before (config.start initial cost)
    (∀ j, m ≤ j → j < i → ∀ quality, config.quality problem (before j) = .ok quality → 0 < quality →
      1 / 2 ≤ quality) → (before i).damping.lambda ≤ config.dampingMax := by
  intro before
  -- From one iteration to the next: a rejection is cut at the upper end, and a step that gains enough raises nothing.
  induction i, later using Nat.le_induction with
  | base =>
      intro _
      rcases entered with rfl | ⟨k, step, rfl, reported, rejected⟩
      · exact range.upper
      · obtain ⟨quality, -, moves⟩ := loop_redamps range loops reported
        exact moves.rejected rejected
  | succ i later ih =>
      intro good
      have reported := List.getElem?_eq_getElem (show i < history.steps.length from made)
      obtain ⟨quality, evaluated, moves⟩ := loop_redamps range loops reported
      cases taken : history.steps[i].accepted with
      | false => exact moves.rejected taken
      | true =>
          have gained := good i later (Nat.lt_succ_self i) quality evaluated (moves.accepted_iff.mp taken)
          have within := ih (Nat.le_of_succ_le made) fun j after before => good j after (before.trans (Nat.lt_succ_self i))
          exact ((moves.falls_iff taken).mpr gained).trans within

end Run

end Range

section Folded

variable {x : ℝ} (steep : tilt x ≠ 0)
include steep

/-- The first iteration without scaling: the step that it tries, and what that gains. -/
theorem folded_quality {config : LevenbergMarquardt ℝ} (plain : config.useScaling = false) (damped : 0 < config.damping)
    (cost : ℝ) : ∃ η, (tilt x ^ 2 + config.damping) * η = -(tilt x * bend x) ∧
      config.quality .folded (config.start (.single x) cost) = .ok (stepQuality cost
        (0.5 * (bend (x + η) * bend (x + η)))
        (1 / 2 * bend x ^ 2 - 1 / 2 * (bend x + tilt x * η) ^ 2)) := by
  have nonneg : 0 ≤ (some config.damping).getD 0 := damped.le
  obtain ⟨d, η, solved, step, solves⟩ := Problem.folded_direction steep config.useScaling nonneg cost .because
    (.numericalInstability .gradientUnavailable)
  have ones : ColumnScaling.factorsFrom config.useScaling (.slope (tilt x)) = [1] := by rw [plain]; rfl
  rw [ones] at solves
  have formed := SparseMat.slope_formed (tilt x)
  have predicted := (predicts solves formed rfl rfl (by simp) damped).eq_model
  have row := solves.equation formed rfl (by simp) (Nat.zero_lt_one)
  rw [step] at predicted row
  rw [SparseMat.slope_mulVec] at predicted
  rw [SparseMat.slope_mulVec, SparseMat.slope_transposeMul, SparseMat.slope_transposeMul] at row
  simp only [List.getD_cons_zero, Option.getD_some] at row
  have model : predictedReduction config.damping d.systemStep d.gradient =
      1 / 2 * bend x ^ 2 - 1 / 2 * (bend x + tilt x * η) ^ 2 := by
    rw [predicted]
    simp [Vec.normSq, Vec.sum, Scalar.square, sq]
  have solved : config.direction [bend x] (.slope (tilt x))
      (config.rescaled (.slope (tilt x)) (config.start (.single x) cost)) = .ok d := by
    rw [direction, rescaled_damping]
    exact solved
  refine ⟨η, by linarith, ?_⟩
  rw [← model]
  simp only [quality, Result.bind_ok_iff, Prod.exists]
  exact ⟨_, _, Problem.linearize_folded x, d, solved, _, step ▸ Problem.retract_folded x η, _,
    Graph.folded_error (x + η), rfl⟩

end Folded

/-- A configuration whose damping begins at the upper end of its range. -/
noncomputable def narrow : LevenbergMarquardt ℝ :=
  { standard with maxIterations := 1, damping := 2.0, dampingMin := 1, dampingMax := 2.0 }

theorem narrow_inRange : narrow.InRange := by
  constructor <;> norm_num [narrow, standard]

end LevenbergMarquardt

open LevenbergMarquardt

/-- The damping that an observer sees after an iteration is never below its range. It is not above the range after a step
that is rejected, a step that is taken less than doubles it, and raises it exactly if it gains less than half of what it
predicts: without such steps since the start or since a rejection the damping is not above its range either. -/
theorem Solver.optimize_damping (solver : Solver ℝ) (config : LevenbergMarquardt ℝ)
    (method : solver.method = .levenbergMarquardt config) (range : config.InRange) (clock : Clock) (graph : Graph ℝ)
    (initial : Values ℝ) (i : Nat) (step : Step ℝ)
    (reported : (solver.optimize clock graph initial).2.steps[i]? = some step) :
    let run := (solver.optimize clock graph initial).2
    ∃ problem cost, Problem.prepare graph initial = .ok problem ∧ graph.error initial = .ok cost ∧
      let before := (config.scheme clock problem).before (config.start initial cost)
      ∃ quality after, config.quality problem (before i) = .ok quality ∧
        config.Redamps (solver.method.added run i) quality after step ∧
        ∀ m ≤ i, (m = 0 ∨ ∃ k earlier, m = k + 1 ∧ run.steps[k]? = some earlier ∧ earlier.accepted = false) →
          (∀ j, m ≤ j → j ≤ i → ∀ quality, config.quality problem (before j) = .ok quality → 0 < quality →
            1 / 2 ≤ quality) → after ≤ config.dampingMax := by
  intro run
  rcases solver.optimize_cases clock graph initial with ⟨failure, failed, -⟩ | ⟨problem, cost, prepared, known, loops⟩
  · rw [failed] at reported
    cases reported
  rw [method] at loops ⊢
  change run.steps[i]? = some step at reported
  change Method.Loops clock problem initial cost (.levenbergMarquardt config) run at loops
  clear_value run
  obtain ⟨bound, -⟩ := List.getElem?_eq_some_iff.mp reported
  cases loops with
  | levenbergMarquardt loops =>
      obtain ⟨quality, evaluated, redamps⟩ := LevenbergMarquardt.loop_redamps range loops reported
      have added := loops.carried (fun s s' step advanced => LevenbergMarquardt.advance_damping advanced) bound.le
      refine ⟨problem, cost, prepared, known, quality,
        ((config.scheme clock problem).before (config.start initial cost) (i + 1)).damping.lambda, evaluated, ?_,
        fun m later entered good => ?_⟩
      · rw [Method.added, List.getD_eq_getElem?_getD]
        exact added ▸ redamps
      · exact LevenbergMarquardt.loop_within range loops entered (Nat.le_succ_of_le later) bound
          fun j after before => good j after (Nat.le_of_lt_succ before)

theorem Solver.folded_optimize_damping :
    let solver := (Method.levenbergMarquardt narrow).build
    ∃ step after, (solver.method = .levenbergMarquardt narrow ∧ narrow.InRange ∧
        (solver.optimize (fun _ => 0) .folded (.single 0.3)).2.steps[0]? = some step) ∧
      step.damping = some after ∧ 1 ≤ after ∧ (step.accepted = true → after < 4) := by
  intro solver
  have steep : tilt 0.3 ≠ 0 := by norm_num [tilt]
  have damped : 0 ≤ narrow.damping := by norm_num [narrow]
  obtain ⟨-, step, -, first⟩ := folded_first steep narrow damped (fun _ => 0)
  obtain ⟨problem, cost, -, -, quality, after, -, redamps, -⟩ :=
    optimize_damping solver narrow rfl narrow_inRange (fun _ => 0) .folded (.single 0.3) 0 step first
  have added : solver.method.added (solver.optimize (fun _ => 0) .folded (.single 0.3)).2 0 = 2 := by
    norm_num [solver, Method.build, Method.added, narrow]
  rw [added] at redamps
  refine ⟨step, after, ⟨rfl, narrow_inRange, first⟩, redamps.reported, redamps.not_below, fun taken => ?_⟩
  have doubled := redamps.less_than_doubled taken
  linarith

/-- A step that gains 13/90 of what it predicts leads above the range. -/
theorem Solver.folded_damping_above :
    narrow.InRange ∧
      ∃ step, ((Method.levenbergMarquardt narrow).build.optimize (fun _ => 0) .folded (.single 0.3)).2.steps[0]? =
        some step ∧ step.damping = some (247786 / 91125) ∧ narrow.dampingMax < 247786 / 91125 := by
  have steep : tilt 0.3 ≠ 0 := by norm_num [tilt]
  have damped : 0 < narrow.damping := by norm_num [narrow]
  obtain ⟨s', step, advanced, first⟩ := folded_first steep narrow damped.le (fun _ => 0)
  obtain ⟨η, row, evaluated⟩ := folded_quality steep rfl damped (0.5 * (bend 0.3 * bend 0.3))
  obtain ⟨quality, evaluated', accepted, reported, damping⟩ := advance_quality advanced
  obtain rfl := Except.ok.inj (evaluated.symm.trans evaluated')
  obtain rfl : η = -7 / 15 := by
    norm_num [narrow, bend, tilt] at row
    linarith
  have gain : stepQuality (0.5 * (bend 0.3 * bend 0.3)) (0.5 * (bend (0.3 + -7 / 15) * bend (0.3 + -7 / 15)))
      (1 / 2 * bend 0.3 ^ 2 - 1 / 2 * (bend 0.3 + tilt 0.3 * (-7 / 15)) ^ 2) = 13 / 90 := by
    norm_num [stepQuality, bend, tilt, abs_of_pos]
  rw [gain] at accepted damping
  have taken : step.accepted = true := by
    rw [accepted]
    norm_num
  have raised : s'.damping.lambda = 247786 / 91125 := by
    rw [damping, taken, if_pos rfl, Damping.accept_lambda]
    norm_num [narrow, start]
  refine ⟨narrow_inRange, step, first, reported.trans (congrArg some raised), ?_⟩
  norm_num [narrow]

end GraduatedFit.LeastSquares

import GraduatedFit.Proofs.DampedStep
import GraduatedFit.Proofs.PulledVariable
import GraduatedFit.Proofs.SolverLoop

/-! A damped run takes a step exactly where the cost goes down, so that the cost never goes up. -/

namespace GraduatedFit.LeastSquares

namespace LevenbergMarquardt

section Iteration

variable {K : Type} [Scalar K]

/-- The state in which an iteration solves its system. -/
def rescaled (config : LevenbergMarquardt K) (J : SparseMat K) (s : DampedState K) : DampedState K :=
  { s with toState := { s.updateScaling config.useScaling J with jacobianEvaluations := s.jacobianEvaluations + 1 } }

/-- Only the scaling and a counter change. -/
theorem rescaled_eq (config : LevenbergMarquardt K) (J : SparseMat K) (s : DampedState K) :
    ∃ scaling, (scaling = s.scaling ∨ scaling = some (.ofJacobian J)) ∧ config.rescaled J s =
      { s with toState := { s.toState with scaling, jacobianEvaluations := s.jacobianEvaluations + 1 } } := by
  unfold rescaled State.updateScaling
  split
  · exact ⟨_, .inr rfl, rfl⟩
  · exact ⟨_, .inl rfl, rfl⟩

/-- The estimate that an iteration tries. -/
def candidate (config : LevenbergMarquardt K) (problem : Problem K) (s : DampedState K) : Result K (Values K) := do
  let (r, J) ← problem.linearize s.values
  let d ← config.direction r J (config.rescaled J s)
  problem.retract s.values d.step

/-- What an attempt of a step does: it is taken if its quality is positive, and else nothing moves. -/
structure Attempted (config : LevenbergMarquardt K) (d : Direction K) (s s' : DampedState K) (step : Step K)
    (tried : Values K) (newCost : K) : Prop where
  accepted_eq : step.accepted =
    Scalar.lt 0 (stepQuality s.cost newCost (predictedReduction s.damping.lambda d.systemStep d.gradient))
  costBefore_eq : step.costBefore = s.cost
  values_eq : step.values = if step.accepted then tried else s.values
  cost_eq : step.cost = if step.accepted then newCost else s.cost
  state_values : s'.values = step.values
  state_cost : s'.cost = step.cost
  damping_eq : ∃ quality, s'.damping =
    if step.accepted then s.damping.accept config.dampingMin quality else s.damping.reject config.dampingMax
  equations_eq : s'.equations = d.equations
  scaling_eq : s'.scaling = s.scaling

theorem attempt_ok {config : LevenbergMarquardt K} {problem : Problem K} {d : Direction K} {s s' : DampedState K}
    {step : Step K} (attempted : config.attempt problem d s = .ok (s', step)) :
    ∃ tried newCost, problem.retract s.values d.step = .ok tried ∧ problem.cost tried = .ok newCost ∧
      config.Attempted d s s' step tried newCost := by
  simp only [attempt, Result.bind_ok_iff] at attempted
  obtain ⟨tried, retracted, newCost, cost, done⟩ := attempted
  obtain ⟨rfl, rfl⟩ := Prod.mk.inj (Except.ok.inj done)
  exact ⟨tried, newCost, retracted, cost, rfl, rfl, rfl, rfl, rfl, rfl, ⟨_, rfl⟩, rfl, rfl⟩

theorem attempt_damping {config : LevenbergMarquardt K} {problem : Problem K} {d : Direction K} {s s' : DampedState K}
    {step : Step K} (attempted : config.attempt problem d s = .ok (s', step)) : step.damping = some s'.damping.lambda := by
  simp only [attempt, Result.bind_ok_iff] at attempted
  obtain ⟨tried, -, newCost, -, done⟩ := attempted
  obtain ⟨rfl, rfl⟩ := Prod.mk.inj (Except.ok.inj done)
  rfl

/-- An iteration that succeeds solves its system and tries the step. -/
theorem advance_ok_iff {config : LevenbergMarquardt K} {problem : Problem K} {s s' : DampedState K} {step : Step K} :
    config.advance problem s = (s', .ok step) ↔ ∃ r J d, problem.linearize s.values = .ok (r, J) ∧
      config.direction r J (config.rescaled J s) = .ok d ∧
      config.attempt problem d (config.rescaled J s) = .ok (s', step) := by
  constructor
  · intro advanced
    unfold advance at advanced
    split at advanced
    · cases advanced
    · rename_i r J linear
      dsimp only at advanced
      split at advanced
      · cases advanced
      · rename_i moved step' done
        obtain ⟨rfl, same⟩ := Prod.mk.inj advanced
        obtain rfl := Except.ok.inj same
        obtain ⟨d, solved, attempted⟩ := Result.bind_ok_iff.mp done
        exact ⟨r, J, d, linear, solved, attempted⟩
  · rintro ⟨r, J, d, linear, solved, attempted⟩
    unfold rescaled at solved attempted
    rw [advance, linear]
    dsimp only
    rw [solved, Result.ok_bind, attempted]

theorem advance_ok {config : LevenbergMarquardt K} {problem : Problem K} {s s' : DampedState K} {step : Step K}
    (advanced : config.advance problem s = (s', .ok step)) :
    ∃ r J d tried newCost, problem.linearize s.values = .ok (r, J) ∧
      config.direction r J (config.rescaled J s) = .ok d ∧ config.candidate problem s = .ok tried ∧
      problem.cost tried = .ok newCost ∧ config.Attempted d (config.rescaled J s) s' step tried newCost := by
  obtain ⟨r, J, d, linear, solved, attempted⟩ := advance_ok_iff.mp advanced
  obtain ⟨tried, newCost, retracted, cost, outcome⟩ := attempt_ok attempted
  refine ⟨r, J, d, tried, newCost, linear, solved, ?_, cost, outcome⟩
  obtain ⟨scaling, -, frame⟩ := config.rescaled_eq J s
  have unmoved : (config.rescaled J s).values = s.values := by rw [frame]
  simp only [candidate, Result.bind_ok_iff]
  exact ⟨_, linear, d, solved, unmoved ▸ retracted⟩

end Iteration

/-- An attempt leaves a positive damping, whether it is taken or not. -/
theorem Attempted.positive {config : LevenbergMarquardt ℝ} {d : Direction ℝ} {s s' : DampedState ℝ} {step : Step ℝ}
    {tried : Values ℝ} {newCost : ℝ} (attempted : config.Attempted d s s' step tried newCost)
    (upper : 0 < config.dampingMax) (positive : s.damping.Positive) : s'.damping.Positive := by
  obtain ⟨quality, changed⟩ := attempted.damping_eq
  rw [changed]
  split
  · exact Damping.accept_positive positive _ _
  · exact Damping.reject_positive positive upper

/-- The state before the first iteration. -/
def start (config : LevenbergMarquardt ℝ) (initial : Values ℝ) (cost : ℝ) : DampedState ℝ :=
  ⟨.start initial cost, ⟨config.damping, config.dampingNu⟩⟩

/-- What every iteration of a run finds. -/
structure Sound (problem : Problem ℝ) (s : DampedState ℝ) : Prop where
  damping : s.damping.Positive
  cost_eq : problem.cost s.values = .ok s.cost
  equations : s.equations.MadeFor (problem.pattern.places ℝ)
  scaling : ∀ scaling, s.scaling = some scaling → scaling.factors.length = (problem.pattern.places ℝ).length

theorem start_sound {config : LevenbergMarquardt ℝ} {problem : Problem ℝ} {initial : Values ℝ} {cost : ℝ}
    (damping : 0 < config.damping) (nu : 0 < config.dampingNu) (known : problem.cost initial = .ok cost) :
    Sound problem (config.start initial cost) where
  damping := ⟨damping, nu⟩
  cost_eq := known
  equations := NormalEquations.madeFor_nothing _
  scaling _ present := by cases present

/-- The step that a sound state leads to predicts no increase. -/
theorem direction_sound {config : LevenbergMarquardt ℝ} {problem : Problem ℝ} {s : DampedState ℝ} {r : Vec ℝ}
    {J : SparseMat ℝ} {d : Direction ℝ} (sound : Sound problem s) (inside : problem.pattern.Inside)
    (linear : problem.linearize s.values = .ok (r, J))
    (solved : config.direction r J (config.rescaled J s) = .ok d) :
    d.equations.MadeFor (problem.pattern.places ℝ) ∧
      (∀ scaling, (config.rescaled J s).scaling = some scaling →
        scaling.factors.length = (problem.pattern.places ℝ).length) ∧
      0 ≤ predictedReduction s.damping.lambda d.systemStep d.gradient := by
  obtain ⟨stored, formed⟩ := problem.linearize_stored inside linear
  obtain ⟨scaling, origin, frame⟩ := config.rescaled_eq J s
  have width : J.width = (problem.pattern.places ℝ).length := by
    rw [← stored, SparseMat.support, List.length_map, SparseMat.width]
  have sized (scaling' : ColumnScaling ℝ) (present : (config.rescaled J s).scaling = some scaling') :
      scaling'.factors.length = (problem.pattern.places ℝ).length := by
    rw [frame] at present
    rcases origin with old | new
    · exact sound.scaling _ (old ▸ present)
    · obtain rfl := Option.some.inj (new.symm.trans present)
      rw [← width]
      exact List.length_map _
  obtain ⟨scaled, found, system, gradient⟩ := State.direction_ok solved
  obtain ⟨support, scaled_formed⟩ := State.scaledJacobian_stored formed
    (fun scaling' present => (sized scaling' present).trans width.symm) found
  -- scaling changes what the Jacobian stores but not where, so the plan that was kept still fits
  have kept : (config.rescaled J s).equations.MadeFor scaled.support := by
    rw [frame, support, stored]
    exact sound.equations
  obtain ⟨made, transposed, solves⟩ := NormalEquations.solve_damped kept system
  have gradient_eq : d.gradient = scaled.transposeMul r := Option.some.inj (gradient.symm.trans transposed)
  rw [frame, ← gradient_eq] at solves
  have length : d.gradient.length = scaled.width := by
    rw [gradient_eq]
    exact List.length_map _
  refine ⟨?_, sized, predictedReduction_nonneg scaled_formed length sound.damping.lambda solves⟩
  rwa [← stored, ← support]

/-- One iteration: the candidate is taken exactly where its error is below the cost, and else nothing moves. -/
structure Fair (graph : Graph ℝ) (before after : DampedState ℝ) (step : Step ℝ) (tried : Values ℝ)
    (newCost : ℝ) : Prop where
  tried_cost : graph.error tried = .ok newCost
  costBefore_eq : step.costBefore = before.cost
  accepted_iff : step.accepted = true ↔ newCost < before.cost
  taken : step.accepted = true → step.values = tried ∧ step.cost = newCost
  kept : step.accepted = false → step.values = before.values ∧ step.cost = before.cost
  after_values : after.values = step.values
  after_cost : after.cost = step.cost

theorem Fair.cost_le {graph : Graph ℝ} {before after : DampedState ℝ} {step : Step ℝ} {tried : Values ℝ}
    {newCost : ℝ} (fair : Fair graph before after step tried newCost) : after.cost ≤ before.cost := by
  rw [fair.after_cost]
  cases accepted : step.accepted with
  | true =>
      rw [(fair.taken accepted).2]
      exact (fair.accepted_iff.mp accepted).le
  | false => exact (fair.kept accepted).2.le

/-- An iteration from a sound state is fair and leaves a sound state. -/
theorem advance_fair {config : LevenbergMarquardt ℝ} {problem : Problem ℝ} {s s' : DampedState ℝ} {step : Step ℝ}
    (upper : 0 < config.dampingMax) (inside : problem.pattern.Inside) (sound : Sound problem s)
    (advanced : config.advance problem s = (s', .ok step)) :
    Sound problem s' ∧
      ∃ tried newCost, config.candidate problem s = .ok tried ∧ Fair problem.graph s s' step tried newCost := by
  obtain ⟨r, J, d, tried, newCost, linear, solved, chosen, cost, attempted⟩ := advance_ok advanced
  obtain ⟨made, sized, predicted⟩ := direction_sound sound inside linear solved
  obtain ⟨scaling, -, frame⟩ := config.rescaled_eq J s
  have same_values : (config.rescaled J s).values = s.values := by rw [frame]
  have same_cost : (config.rescaled J s).cost = s.cost := by rw [frame]
  have same_damping : (config.rescaled J s).damping = s.damping := by rw [frame]
  have accepted_iff : step.accepted = true ↔ newCost < s.cost := by
    rw [attempted.accepted_eq, same_cost, same_damping, Scalar.lt_real, decide_eq_true_eq]
    exact stepQuality_pos predicted
  have values := attempted.values_eq
  have costs := attempted.cost_eq
  rw [same_values] at values
  rw [same_cost] at costs
  have fair : Fair problem.graph s s' step tried newCost := by
    refine ⟨cost, attempted.costBefore_eq.trans same_cost, accepted_iff, ?_, ?_, attempted.state_values,
      attempted.state_cost⟩
    · intro accepted
      rw [accepted, if_pos rfl] at values costs
      exact ⟨values, costs⟩
    · intro rejected
      rw [rejected] at values costs
      exact ⟨values, costs⟩
  refine ⟨⟨?_, ?_, attempted.equations_eq ▸ made, attempted.scaling_eq ▸ sized⟩, tried, newCost, chosen, fair⟩
  · exact attempted.positive upper (same_damping ▸ sound.damping)
  · rw [fair.after_values, fair.after_cost]
    cases accepted : step.accepted with
    | true =>
        rw [(fair.taken accepted).1, (fair.taken accepted).2]
        exact cost
    | false =>
        rw [(fair.kept accepted).1, (fair.kept accepted).2]
        exact sound.cost_eq

theorem run_ok {config : LevenbergMarquardt ℝ} {clock : Clock} {graph : Graph ℝ} {initial : Values ℝ}
    {leftover : Option (ColumnScaling ℝ)} {solution : Solution ℝ}
    (returned : (config.run clock graph initial leftover).2.outcome = .ok solution) :
    ∃ problem, Problem.prepare graph initial = .ok problem ∧ graph.error initial = .ok solution.initialCost ∧
      let history := iterate (config.scheme clock problem) (config.maxIterations - 1)
        (config.start initial solution.initialCost)
      (config.run clock graph initial leftover).2.steps = history.steps ∧
        ∃ last status, history.outcome = .ok (last, status) ∧
          solution.values = last.values ∧ solution.finalCost = last.cost := by
  unfold run at returned ⊢
  split at returned
  · cases returned
  · rename_i problem cost prepared
    obtain ⟨_, found, rest⟩ := Result.bind_ok_iff.mp prepared
    obtain ⟨_, known, done⟩ := Result.bind_ok_iff.mp rest
    obtain ⟨rfl, rfl⟩ := Prod.mk.inj (Except.ok.inj done)
    rw [Problem.cost, (Problem.prepare_ok found).1] at known
    obtain ⟨⟨last, status⟩, ended, rfl⟩ := Result.except_map_ok_iff.mp returned
    exact ⟨_, found, known, rfl, last, status, ended, rfl, rfl⟩

section Run

variable {config : LevenbergMarquardt ℝ} {clock : Clock} {problem : Problem ℝ} {left : Nat} {start : DampedState ℝ}

/-- Every iteration of a run starts from a sound state and is fair. -/
theorem iterate_fair (upper : 0 < config.dampingMax) (inside : problem.pattern.Inside) (sound : Sound problem start)
    {i : Nat} {step : Step ℝ}
    (reported : (iterate (config.scheme clock problem) left start).steps[i]? = some step) :
    let before := (config.scheme clock problem).before start
    Sound problem (before (i + 1)) ∧ ∃ tried newCost, config.candidate problem (before i) = .ok tried ∧
      Fair problem.graph (before i) (before (i + 1)) step tried newCost := by
  obtain ⟨bound, -⟩ := List.getElem?_eq_some_iff.mp reported
  refine advance_fair upper inside ?_ (iterate_advance reported)
  exact before_preserved sound (fun s s' step sound advanced => (advance_fair upper inside sound advanced).1)
    i bound.le

/-- The cost after an iteration is no higher than it was before any of the iterations made. -/
theorem cost_antitone (upper : 0 < config.dampingMax) (inside : problem.pattern.Inside) (sound : Sound problem start)
    {i j : Nat} (before : i ≤ j) (made : j ≤ (iterate (config.scheme clock problem) left start).steps.length) :
    ((config.scheme clock problem).before start j).cost ≤ ((config.scheme clock problem).before start i).cost := by
  induction j, before using Nat.le_induction with
  | base => exact le_rfl
  | succ j above ih =>
      have found := List.getElem?_eq_getElem
        (show j < (iterate (config.scheme clock problem) left start).steps.length by omega)
      obtain ⟨-, tried, newCost, -, fair⟩ := iterate_fair upper inside sound found
      exact fair.cost_le.trans (ih (by omega))

/-- The reported costs, the initial one first, are those of the states. -/
theorem reported_cost (upper : 0 < config.dampingMax) (inside : problem.pattern.Inside) (sound : Sound problem start)
    {i : Nat} (made : i ≤ (iterate (config.scheme clock problem) left start).steps.length) :
    (start.cost :: (iterate (config.scheme clock problem) left start).steps.map Step.cost)[i]? =
      some ((config.scheme clock problem).before start i).cost := by
  cases i with
  | zero => rfl
  | succ i =>
      have found := List.getElem?_eq_getElem
        (show i < (iterate (config.scheme clock problem) left start).steps.length by omega)
      obtain ⟨-, tried, newCost, -, fair⟩ := iterate_fair upper inside sound found
      rw [List.getElem?_cons_succ, List.getElem?_map, found, fair.after_cost]
      rfl

end Run

/-- A run goes down from the error of its initial estimate to that of its result. -/
theorem run_descends {config : LevenbergMarquardt ℝ} {clock : Clock} {graph : Graph ℝ} {initial : Values ℝ}
    {leftover : Option (ColumnScaling ℝ)} {solution : Solution ℝ}
    (damping : 0 < config.damping) (upper : 0 < config.dampingMax) (nu : 0 < config.dampingNu)
    (returned : (config.run clock graph initial leftover).2.outcome = .ok solution) :
    graph.error initial = .ok solution.initialCost ∧ graph.error solution.values = .ok solution.finalCost ∧
      solution.finalCost ≤ solution.initialCost := by
  obtain ⟨problem, prepared, known, -, last, status, ended, values, cost⟩ := run_ok returned
  obtain ⟨same, inside⟩ := Problem.prepare_ok prepared
  have sound : Sound problem (config.start initial solution.initialCost) :=
    start_sound damping nu (by rw [Problem.cost, same, known])
  obtain ⟨final, -⟩ := iterate_ended ended
  set history := iterate (config.scheme clock problem) (config.maxIterations - 1)
    (config.start initial solution.initialCost) with run
  -- the solution is made of the last step that was reported
  have found : history.steps[history.steps.length - 1]? = some last := by
    rw [← List.getLast?_eq_getElem?, final]
  have some_step : 0 < history.steps.length := by
    obtain ⟨bound, -⟩ := List.getElem?_eq_some_iff.mp found
    omega
  obtain ⟨after, tried, newCost, -, fair⟩ := iterate_fair upper inside sound found
  have descent := cost_antitone (i := 0) upper inside sound (Nat.zero_le _) (show _ ≤ history.steps.length from le_rfl)
  rw [Nat.sub_add_cancel some_step] at after fair
  have error := after.cost_eq
  rw [fair.after_values, fair.after_cost, Problem.cost, same] at error
  rw [fair.after_cost, Scheme.before_zero] at descent
  exact ⟨known, by rw [values, cost, error], by rw [cost]; exact descent⟩

/-- Every iteration is fair, so the reported costs descend from the error of the initial estimate to that of the
result. -/
theorem run_never_uphill (config : LevenbergMarquardt ℝ) (clock : Clock) (graph : Graph ℝ) (initial : Values ℝ)
    (leftover : Option (ColumnScaling ℝ)) (solution : Solution ℝ)
    (damping : 0 < config.damping) (upper : 0 < config.dampingMax) (nu : 0 < config.dampingNu)
    (returned : (config.run clock graph initial leftover).2.outcome = .ok solution) :
    let steps := (config.run clock graph initial leftover).2.steps
    let reported := solution.initialCost :: steps.map Step.cost
    ∃ problem, Problem.prepare graph initial = .ok problem ∧
      let before := (config.scheme clock problem).before (config.start initial solution.initialCost)
      (∀ i step, steps[i]? = some step →
        (∃ tried newCost, config.candidate problem (before i) = .ok tried ∧
          Fair graph (before i) (before (i + 1)) step tried newCost) ∧
        reported[i]? = some step.costBefore ∧ reported[i + 1]? = some step.cost ∧
        (step.accepted = true → step.cost < step.costBefore)) ∧
      reported.Pairwise (fun earlier later => later ≤ earlier) ∧
      graph.error initial = .ok solution.initialCost ∧
      graph.error solution.values = .ok solution.finalCost ∧
      solution.finalCost ≤ solution.initialCost := by
  obtain ⟨problem, prepared, -, same_steps, -⟩ := run_ok returned
  obtain ⟨known, final, descent⟩ := run_descends damping upper nu returned
  obtain ⟨same, inside⟩ := Problem.prepare_ok prepared
  have sound : Sound problem (config.start initial solution.initialCost) :=
    start_sound damping nu (by rw [Problem.cost, same, known])
  rw [same_steps]
  set history := iterate (config.scheme clock problem) (config.maxIterations - 1)
    (config.start initial solution.initialCost)
  have costs (i : Nat) (made : i ≤ history.steps.length) :
      (solution.initialCost :: history.steps.map Step.cost)[i]? =
        some ((config.scheme clock problem).before (config.start initial solution.initialCost) i).cost :=
    reported_cost upper inside sound made
  refine ⟨problem, prepared, ?_, ?_, known, final, descent⟩
  · intro i step reported
    obtain ⟨-, tried, newCost, chosen, fair⟩ := iterate_fair upper inside sound reported
    obtain ⟨bound, -⟩ := List.getElem?_eq_some_iff.mp reported
    rw [same] at fair
    refine ⟨⟨tried, newCost, chosen, fair⟩, ?_, ?_, ?_⟩
    · rw [fair.costBefore_eq]
      exact costs i bound.le
    · rw [← fair.after_cost]
      exact costs (i + 1) bound
    · intro accepted
      rw [(fair.taken accepted).2, fair.costBefore_eq]
      exact fair.accepted_iff.mp accepted
  · rw [List.pairwise_iff_getElem]
    intro i j first second before
    have made : j ≤ history.steps.length := by simpa [Nat.lt_succ_iff] using second
    obtain ⟨_, earlier⟩ := List.getElem?_eq_some_iff.mp (costs i (before.le.trans made))
    obtain ⟨_, later⟩ := List.getElem?_eq_some_iff.mp (costs j made)
    rw [earlier, later]
    exact cost_antitone upper inside sound before.le made

/-- The step that takes the variable from four to five thirds is taken, and the cost goes down. -/
theorem pulled_never_uphill : ∃ solution step,
    (brief.run (fun _ => 0) (.pulled 1 1) (.beside 4) none).2.outcome = .ok solution ∧
      (brief.run (fun _ => 0) (.pulled 1 1) (.beside 4) none).2.steps = [step] ∧
      (0 < brief.damping ∧ 0 < brief.dampingMax ∧ 0 < brief.dampingNu) ∧
      step.accepted = true ∧ solution.values = .beside (5 / 3) ∧ step.cost < step.costBefore ∧
      solution.finalCost ≤ solution.initialCost := by
  obtain ⟨damping, upper, nu⟩ := brief_positive
  obtain ⟨solution, step, returned, steps, accepted, values⟩ := run_evenly 4 (fun _ => 0) none
  obtain ⟨problem, -, each, -, -, -, descent⟩ :=
    run_never_uphill brief (fun _ => 0) (.pulled 1 1) (.beside 4) none solution damping upper nu returned
  have taken : step.accepted = true := by
    rw [accepted]
    norm_num
  have moved : solution.values = .beside (5 / 3) := by
    rw [values]
    norm_num
  obtain ⟨-, -, -, lower⟩ := each 0 step (by rw [steps]; rfl)
  exact ⟨solution, step, returned, steps, ⟨damping, upper, nu⟩, taken, moved, lower taken, descent⟩

end LevenbergMarquardt

end GraduatedFit.LeastSquares

import GraduatedFit.Proofs.Extended
import GraduatedFit.Proofs.FailedRun
import GraduatedFit.Proofs.OuterDescent
import GraduatedFit.Proofs.RunAccounts
import GraduatedFit.Proofs.WeightShape

/-! No optimizer is left with an estimate or with weights that come from errors which are not finite. -/

namespace GraduatedFit

namespace Continuation

open LeastSquares

/-- A base solve that ended in order. -/
def Sound {K : Type} [Scalar K] (solution : LeastSquares.Solution K) : Prop :=
  Scalar.finite solution.finalCost = true ∧ solution.status ≠ .invalidNumericalValues

namespace Optimizer

section Solves

variable {K : Type} [Scalar K]

theorem checkSolution_sound {solution checked : LeastSquares.Solution K}
    (passed : checkSolution solution = .ok checked) : checked = solution ∧ Sound solution := by
  refine ⟨checkSolution_ok passed, ?_⟩
  unfold checkSolution at passed
  split at passed
  · cases passed
  · rename_i sound
    simp only [Bool.or_eq_true, not_or, Bool.not_eq_true, Bool.not_eq_false'] at sound
    refine ⟨sound.2, ?_⟩
    intro broken
    simp [broken, Status.isFailure] at sound

/-- A solve that succeeds ends in order. -/
theorem solve_sound {o : Optimizer K} {clock : Clock} {graph : Graph K} {solution : LeastSquares.Solution K}
    (solved : (o.solve clock graph).2 = .ok solution) :
    (o.config.base.build.optimize clock graph o.estimate).2.outcome = .ok solution ∧ Sound solution := by
  obtain ⟨base, returned, passed⟩ := Result.bind_ok_iff.mp solved
  obtain ⟨rfl, sound⟩ := checkSolution_sound passed
  exact ⟨returned, sound⟩

/-- The base solve of an iteration. -/
structure SolvedBy (o : Optimizer K) (clock : Clock) (record : Iteration K) (base : LeastSquares.Solution K) :
    Prop where
  returned : ∃ graph, o.reweighted o.weights = .ok graph ∧
    (o.config.base.build.optimize clock graph o.estimate).2.outcome = .ok base
  values_eq : record.values = base.values
  cost_eq : record.cost = base.finalCost

theorem step_solved {o next : Optimizer K} {clock : Clock} {number : Nat} {mu : K} {record : Iteration K}
    (succeeded : (o.step clock number mu).2 = .ok (next, record)) :
    ∃ base, o.SolvedBy clock record base ∧ Sound base := by
  unfold step at succeeded
  split at succeeded
  · cases succeeded
  · rename_i graph reweighted
    simp only [Result.bind_ok_iff, Result.pure_ok, Except.ok.injEq, Prod.mk.injEq] at succeeded
    obtain ⟨base, solved, weights, -, -, rfl⟩ := succeeded
    obtain ⟨returned, sound⟩ := solve_sound solved
    exact ⟨base, ⟨⟨graph, reweighted, returned⟩, rfl, rfl⟩, sound⟩

/-- Every iteration that a loop completes is a step that succeeds. -/
theorem continueFrom_steps {clock : Nat → Clock} {left number : Nat} {mu : K} {o : Optimizer K} {i : Nat}
    {record : Iteration K} (completed : (continueFrom clock left number mu o).iterations[i]? = some record) :
    let before := stage o (continueFrom clock left number mu o).iterations i
    (before.step (clock (number + i)) (number + i) (o.muAt mu i)).2 = .ok (before.moveTo record, record) := by
  dsimp only
  induction left generalizing number mu o i with
  | zero => cases completed
  | succ left ih =>
      have continues := continueFrom_continues clock left number mu o
      generalize continueFrom clock (left + 1) number mu o = run at continues completed ⊢
      cases continues with
      | failed unfinished => simp at completed
      | @saturated first stepped decided =>
          obtain ⟨rfl, rfl⟩ : i = 0 ∧ first = record := by
            simpa [Event.iteration?, List.filterMap_cons, List.getElem?_singleton] using completed
          simpa using stepped
      | @muConverged first stepped undecided met =>
          obtain ⟨rfl, rfl⟩ : i = 0 ∧ first = record := by
            simpa [Event.iteration?, List.filterMap_cons, List.getElem?_singleton] using completed
          simpa using stepped
      | @later first stepped undecided unmet =>
          cases i with
          | zero =>
              obtain rfl : first = record := by simpa using completed
              simpa using stepped
          | succ i =>
              have later := ih (i := i) (by simpa using completed)
              rw [Nat.add_right_comm, Nat.add_assoc] at later
              simpa using later

/-- What a run leaves: the optimizer that it began with, with its weights or with even ones, the estimate of the single
solve, or the estimate and the weights of an iteration. -/
theorem optimize_leaves (o : Optimizer K) (clock : Nat → Clock) :
    let run := o.optimize clock
    run.optimizer = o ∨ run.optimizer = o.evenly ∨
      (∃ base, (o.evenly.solve (clock 0) o.graph).2 = .ok base ∧
        run.optimizer = { o.evenly with estimate := base.values }) ∨
      ∃ mu i record, o.initialMu = .ok mu ∧ Scalar.le mu 0 = false ∧
        (stage o.evenly run.iterations i).Iterates (clock i) i (o.muAt mu i) record ∧
        run.optimizer = o.moveTo record := by
  have opens := o.optimize_opens clock
  dsimp only
  generalize o.optimize clock = run at opens ⊢
  cases opens with
  | unknown initial => exact .inl rfl
  | costless initial start => exact .inr (.inl rfl)
  | plain initial start early said =>
      rcases o.evenly.solvePlain_cases (clock 0) _ with ⟨failure, -, same⟩ | ⟨base, solved, same⟩ <;> rw [same]
      · exact .inr (.inl rfl)
      · exact .inr (.inr (.inl ⟨base, solved, rfl⟩))
  | @looped mu cost initial start someFree positive =>
      have chain := continueFrom_chain clock o.config.maxIterations 0 mu o.evenly
      generalize continueFrom clock o.config.maxIterations 0 mu o.evenly = run at chain ⊢
      have same : (run.after [.configured o.config, .started mu cost]).iterations = run.iterations :=
        Run.iterations_after _ _
      rw [same, Run.optimizer_after, chain_final chain]
      rcases last : run.iterations.getLast? with _ | record
      · rw [List.getLast?_eq_none_iff.mp last]
        exact .inr (.inl rfl)
      · have final := stage_last o last
        rw [List.getLast?_eq_getElem?] at last
        have iterates := chain_iterates chain last
        rw [Nat.zero_add] at iterates
        exact .inr (.inr (.inr ⟨mu, _, record, initial, positive, iterates, final⟩))

/-- The base solves behind a result: one for every iteration, or the one of a run that makes none. All of them ended in
order. -/
structure Founded (o : Optimizer K) (clock : Nat → Clock) : Prop where
  early : (o.optimize clock).iterations = [] → ∃ base,
    (o.config.base.build.optimize (clock 0) o.graph o.estimate).2.outcome = .ok base ∧ Sound base ∧
      (o.optimize clock).optimizer.estimate = base.values
  each : ∀ i record, (o.optimize clock).iterations[i]? = some record → ∃ base,
    (stage o.evenly (o.optimize clock).iterations i).SolvedBy (clock i) record base ∧ Sound base

theorem optimize_founded {o : Optimizer K} {clock : Nat → Clock} {solution : Solution K}
    (allowed : o.config.maxIterations ≠ 0) (finished : (o.optimize clock).outcome = .ok solution) :
    o.Founded clock := by
  constructor
  · intro none
    have opens := o.optimize_opens clock
    generalize o.optimize clock = run at opens none finished ⊢
    cases opens with
    | unknown initial => cases finished
    | costless initial start => cases finished
    | plain initial start early said =>
        rcases o.evenly.solvePlain_cases (clock 0) _ with ⟨failure, -, same⟩ | ⟨base, solved, same⟩
        · rw [same] at finished
          cases finished
        · obtain ⟨returned, sound⟩ := solve_sound solved
          rw [same]
          exact ⟨base, returned, sound, rfl⟩
    | looped initial start someFree positive =>
        have ends := continueFrom_ends finished
        rw [show (continueFrom clock o.config.maxIterations 0 _ o.evenly).iterations = [] from none] at ends
        generalize o.config.maxIterations = limit at allowed ends
        cases ends
        exact absurd rfl allowed
  · intro i record completed
    rcases o.optimize_cases clock with ⟨none, -⟩ | ⟨mu, cost, initial, start, someFree, positive⟩
    · rw [none] at completed
      cases completed
    · rw [(optimize_begun clock initial start someFree positive).1] at completed ⊢
      have stepped := continueFrom_steps completed
      rw [Nat.zero_add] at stepped
      exact step_solved stepped

end Solves

end Optimizer

end Continuation

section Errors

open Extended

/-- Half a squared norm that is finite is a number that is not negative. -/
theorem GraphFactor.error_number {f : GraphFactor Extended} (plain : f.noise.isRobust = false)
    {values : Values Extended} {e : Extended} (known : f.error values = .ok e) (finite : Scalar.finite e = true) :
    ∃ x, 0 ≤ x ∧ e = number x := by
  obtain ⟨residual, -, whitened⟩ := Result.bind_ok_iff.mp known
  rw [Result.ofShape_ok_iff, Noise.error_plain plain, Option.map_eq_some_iff] at whitened
  obtain ⟨r, -, rfl⟩ := whitened
  obtain ⟨x, nonneg, square⟩ := normSq_finite (mul_finite finite)
  refine ⟨0.5 * x, by positivity, ?_⟩
  rw [square]
  rfl

/-- A sum of errors that is finite has finite errors only. -/
theorem Graph.errors_finite {graph : Graph Extended} {values : Values Extended} {cost : Extended}
    (known : graph.error values = .ok cost) (finite : Scalar.finite cost = true) :
    ∃ errors, graph.factorErrors values = .ok errors ∧ ∀ e ∈ errors, Scalar.finite e = true := by
  obtain ⟨errors, found, sum⟩ := Result.bind_ok_iff.mp known
  obtain rfl := Except.ok.inj sum
  exact ⟨errors, found, (foldl_finite finite).2⟩

end Errors

namespace Continuation

open Extended LeastSquares

/-- A weight between zero and one. -/
def IsFraction (weight : Extended) : Prop := ∃ x, 0 ≤ x ∧ x ≤ 1 ∧ weight = number x

theorem isFraction_one : IsFraction 1 := ⟨1, zero_le_one, le_rfl, rfl⟩

theorem rationalWeight_number {e c : ℝ} (nonzero : e + c ≠ 0) :
    rationalWeight (number e) (number c) = number (rationalWeight e c) := by
  rw [rationalWeight, number_add, number_div c nonzero, Scalar.square, number_mul]
  rfl

/-- The weight of an error that is a number is the exact one. -/
theorem Family.weight_number (family : Family) {e mu threshold : ℝ} (nonneg : 0 ≤ e) (positive : 0 < mu * threshold) :
    family.weight (number e) (number mu) (number threshold) = number (family.weight e mu threshold) := by
  have rational := rationalWeight_number (add_pos_of_nonneg_of_pos nonneg positive).ne'
  cases family with
  | gemanMcClure =>
      simp only [weight, gemanMcClureWeight, number_zero, number_mul, number_eq, Scalar.eq_real, rational]
      split <;> rfl
  | truncatedLeastSquares =>
      simp only [weight, truncatedWeight, number_mul, number_le, Scalar.le_real, rational]
      split <;> rfl

theorem Family.weight_fraction (family : Family) {e mu threshold : ℝ} (nonneg : 0 ≤ e) (positive : 0 < mu * threshold) :
    IsFraction (family.weight (number e) (number mu) (number threshold)) := by
  obtain ⟨above, below⟩ := family.weight_unit nonneg positive
  exact ⟨_, above.le, below, family.weight_number nonneg positive⟩

/-- The control parameter stays a positive number. -/
theorem Family.nextMu_number (family : Family) {mu step : ℝ} (positive : 0 < mu) (growing : 1 < step) :
    ∃ next, 0 < next ∧ family.nextMu (number mu) (number step) = number next := by
  have nonzero : step ≠ 0 := by linarith
  cases family with
  | gemanMcClure =>
      refine ⟨mu / step ⊔ 1, lt_max_of_lt_right one_pos, ?_⟩
      rw [nextMu, number_div _ nonzero, number_one, number_max]
  | truncatedLeastSquares => exact ⟨mu * step, mul_pos positive (one_pos.trans growing), rfl⟩

theorem Config.validate_extended {config : Config Extended} (valid : config.validate = .ok ()) :
    (∃ threshold, 0 < threshold ∧ config.threshold = number threshold) ∧
      (∃ step, 1 < step ∧ config.muStep = number step) ∧ config.maxIterations ≠ 0 := by
  unfold validate at valid
  dsimp only at valid
  split at valid
  · cases valid
  · rename_i threshold
    split at valid
    · cases valid
    · rename_i step
      split at valid
      · cases valid
      · rename_i allowed
        simp only [Scalar.positive, Bool.not_eq_true', Bool.and_eq_true, Bool.not_eq_false] at threshold step
        obtain ⟨x, same⟩ := finite_iff.mp threshold.1
        obtain ⟨y, same'⟩ := finite_iff.mp step.1
        refine ⟨⟨x, ?_, same⟩, ⟨y, ?_, same'⟩, allowed⟩
        · simpa [same, number_zero] using threshold.2
        · simpa [same', number_one] using step.2

namespace Optimizer

theorem initialMu_number {o : Optimizer Extended} {mu : Extended} (initial : o.initialMu = .ok mu)
    (positive : Scalar.le mu 0 = false) : ∃ x, 0 < x ∧ mu = number x := by
  obtain ⟨errors, -, rest⟩ := Result.bind_ok_iff.mp initial
  dsimp only at rest
  split at rest
  · cases rest
  · rename_i checked
    obtain rfl := Except.ok.inj rest
    simp only [Bool.or_eq_true, Bool.not_eq_true', not_or, Bool.not_eq_false] at checked
    obtain ⟨x, same⟩ := finite_iff.mp checked.2
    refine ⟨x, ?_, same⟩
    simpa [same, number_zero] using positive

theorem muAt_number {o : Optimizer Extended} {mu step : ℝ} (positive : 0 < mu) (growing : 1 < step)
    (stepped : o.config.muStep = number step) (i : Nat) : ∃ x, 0 < x ∧ o.muAt (number mu) i = number x := by
  induction i with
  | zero => exact ⟨mu, positive, rfl⟩
  | succ i ih =>
      obtain ⟨x, above, same⟩ := ih
      rw [muAt_succ, same, nextMu, stepped]
      exact o.config.family.nextMu_number above growing

theorem checkErrors_finite {errors : List Extended} (passed : checkErrors errors = .ok ()) :
    ∀ e ∈ errors, Scalar.finite e = true := by
  unfold checkErrors at passed
  split at passed
  · cases passed
  · rename_i none
    intro e member
    obtain ⟨slot, present⟩ := List.mem_iff_getElem?.mp member
    have checked := List.find?_eq_none.mp none (e, slot) (by simpa [List.mem_zipIdx_iff_getElem?] using present)
    simpa using checked

/-- The weights that an iteration finds come from finite errors, and are fractions. -/
theorem weightsAt_finite {o : Optimizer Extended} {values : Values Extended} {mu threshold : ℝ} {weights : Vec Extended}
    (plain : o.graph.hasRobustFactors = false) (positive : 0 < mu) (above : 0 < threshold)
    (given : o.config.threshold = number threshold) (weighed : o.weightsAt values (number mu) = .ok weights) :
    (∃ errors, o.graph.factorErrors values = .ok errors ∧ ∀ e ∈ errors, Scalar.finite e = true) ∧
      weights.length = o.graph.size ∧ (∀ w ∈ weights, IsFraction w) ∧
      ∀ slot, slot < o.graph.size → o.isKnown slot = true → weights[slot]? = some 1 := by
  obtain ⟨errors, known, rest⟩ := Result.bind_ok_iff.mp weighed
  obtain ⟨_, passed, done⟩ := Result.bind_ok_iff.mp rest
  obtain rfl := Except.ok.inj done
  have finite := checkErrors_finite passed
  have count : errors.length = o.graph.size := (Result.mapM_ok_iff.mp known).length_eq.symm
  refine ⟨⟨errors, known, finite⟩, by simp [Continuation.weights, count], ?_, ?_⟩
  · intro w member
    obtain ⟨slot, inside, rfl⟩ := List.mem_mapIdx.mp member
    split
    · exact isFraction_one
    · obtain ⟨f, present, found⟩ := Result.mapM_mem known (List.getElem_mem inside)
      obtain ⟨x, nonneg, same⟩ := GraphFactor.error_number (Graph.hasRobustFactors_false_iff.mp plain f present) found
        (finite _ (List.getElem_mem inside))
      rw [same, given]
      exact o.config.family.weight_fraction nonneg (mul_pos positive above)
  · intro slot inside trusted
    simp [Continuation.weights, count, inside, trusted]

/-- What every state of an optimizer satisfies: its estimate is the one that it was made with, or all factor errors there
are finite; its weights are fractions, and those of the known slots are one. -/
structure Clean (graph : Graph Extended) (initial : Values Extended) (config : Config Extended)
    (o : Optimizer Extended) : Prop where
  estimate : o.estimate = initial ∨
    ∃ errors, graph.stripRobustLosses.factorErrors o.estimate = .ok errors ∧ ∀ e ∈ errors, Scalar.finite e = true
  count : o.weights.length = graph.size
  fractions : ∀ w ∈ o.weights, IsFraction w
  known : ∀ slot ∈ config.knownInliers, o.weights[slot]? = some 1

/-- Even weights are fractions. -/
theorem Clean.of_even {graph : Graph Extended} {initial : Values Extended} {config : Config Extended}
    {o : Optimizer Extended} (estimate : o.estimate = initial ∨
      ∃ errors, graph.stripRobustLosses.factorErrors o.estimate = .ok errors ∧ ∀ e ∈ errors, Scalar.finite e = true)
    (even : o.weights = List.replicate graph.size 1) (inside : ∀ slot ∈ config.knownInliers, slot < graph.size) :
    Clean graph initial config o where
  estimate := estimate
  count := by rw [even, List.length_replicate]
  fractions w member := by
    rw [even] at member
    rw [List.eq_of_mem_replicate member]
    exact isFraction_one
  known slot member := by
    rw [even, List.getElem?_replicate, if_pos (inside slot member)]

theorem Reachable.clean {graph : Graph Extended} {initial : Values Extended} {config : Config Extended}
    {o : Optimizer Extended} (reachable : Reachable graph initial config o) : Clean graph initial config o := by
  have inside := reachable.known_inside
  induction reachable with
  | created made =>
      obtain ⟨-, -, rfl⟩ := create_ok_iff.mp made
      exact .of_even (.inl rfl) rfl inside
  | @optimized o before clock ih =>
      have built := before.builtFrom
      have even : o.evenly.weights = List.replicate graph.size 1 := by rw [evenly, built.size_eq]
      obtain ⟨⟨threshold, above, given⟩, ⟨step, growing, stepped⟩, -⟩ := Config.validate_extended built.valid
      rw [← built.config_eq] at given stepped
      rcases o.optimize_leaves clock with
        same | same | ⟨base, solved, moved⟩ | ⟨mu, i, record, initially, positive, iterates, moved⟩
      · rw [same]
        exact ih
      · rw [same]
        exact .of_even ih.estimate even inside
      · rw [moved]
        obtain ⟨returned, finite, -⟩ := solve_sound solved
        have cost := (LeastSquares.Solver.optimize_ok returned).finalCost_eq
        rw [built.graph_eq] at cost
        exact .of_even (.inr (Graph.errors_finite cost finite)) even inside
      · rw [moved]
        obtain ⟨x, above', rfl⟩ := initialMu_number initially positive
        obtain ⟨m, parameter, same⟩ := muAt_number above' growing stepped i
        obtain ⟨g, -, reweighted, -⟩ := iterates.solved
        rw [stage_reweighted] at reweighted
        have weighed := iterates.weighed
        rw [stage_weightsAt, same] at weighed
        have plain : o.graph.hasRobustFactors = false := (Graph.reweights_of_ok reweighted).base_plain
        have weighed : o.weightsAt record.values (number m) = .ok record.weights := weighed
        obtain ⟨errors, count, fractions, known⟩ := weightsAt_finite plain parameter above given weighed
        rw [built.graph_eq] at errors
        refine ⟨.inr errors, count.trans built.size_eq, fractions, ?_⟩
        intro slot member
        have bound := inside slot member
        refine known slot (built.size_eq.symm ▸ bound) ?_
        rw [built.isKnown_eq bound]
        exact List.contains_iff_mem.mpr member

/-- However often an optimizer has run, and however its runs have ended, its state is clean, and every result of its next
run comes from base solves that ended in order. -/
theorem Reachable.finite_states {graph : Graph Extended} {initial : Values Extended} {config : Config Extended}
    {o : Optimizer Extended} (reachable : Reachable graph initial config o) :
    Clean graph initial config o ∧
      ∀ clock solution, (o.optimize clock).outcome = .ok solution → o.Founded clock := by
  refine ⟨reachable.clean, fun clock solution finished => optimize_founded ?_ finished⟩
  obtain ⟨-, -, allowed⟩ := Config.validate_extended reachable.builtFrom.valid
  rw [reachable.builtFrom.config_eq]
  exact allowed

/-- A factor that has a number for its residual at the origin only. -/
noncomputable def guardedFactor : Factor Extended where
  dim := 1
  arity := 1
  linearize? params wanted :=
    some ([if params.flatten.all (Scalar.eq · 0) then number 4.0 else notANumber],
      if wanted then some (Mat.ofFn 1 1 fun _ _ => number 1) else none)

noncomputable def guardedGraph : Graph Extended := ⟨[⟨["x"], ⟨0, guardedFactor⟩, .unit 1⟩]⟩

noncomputable def guardedValues (x : ℝ) : Values Extended := ⟨[("x", [number x])], List.pairwise_singleton _ _⟩

theorem guardedGraph_errors : guardedGraph.factorErrors (guardedValues 0) = .ok [number 8] := by
  simp [Graph.factorErrors, guardedGraph, guardedFactor, guardedValues, GraphFactor.error, GraphFactor.residual,
    GraphFactor.params, Values.find, Values.get?, GraphFactor.checkResidual, Noise.dim, Result.ofShape, Noise.error?,
    Noise.whiten?, Vec.normSq, Vec.sum, Scalar.square, number_zero, number_ofScientific]
  norm_num

theorem guardedGraph_cost : guardedGraph.error (guardedValues 0) = .ok (number 8) := by
  rw [Graph.error, guardedGraph_errors]
  simp [number_zero]

/-- Away from the origin the cost is not a number. -/
theorem guardedGraph_undefined {x : ℝ} (away : x ≠ 0) :
    guardedGraph.error (guardedValues x) = .ok notANumber := by
  simp [Graph.error, Graph.factorErrors, guardedGraph, guardedFactor, guardedValues, GraphFactor.error,
    GraphFactor.residual, GraphFactor.params, Values.find, Values.get?, GraphFactor.checkResidual, Noise.dim,
    Result.ofShape, Noise.error?, Noise.whiten?, Vec.normSq, Vec.sum, Scalar.square, away, number_zero]
  rfl

noncomputable def guardedProblem : Problem Extended := ⟨guardedGraph, ⟨[("x", 1)]⟩, ⟨1, 1, [(0, 0)]⟩⟩

theorem guardedProblem_prepare : Problem.prepare guardedGraph (guardedValues 0) = .ok guardedProblem := by
  simp [Problem.prepare, guardedProblem, guardedGraph, guardedValues, Graph.isEmpty, Graph.layout,
    Graph.variableNames, sortedNames, insertName, Values.find, Values.get?, Layout.totalDof, Graph.pattern,
    Graph.positionsFrom, Layout.start?, Layout.startIn, Graph.blockPositions, Noise.dim, Graph.residualDimension]

theorem guardedProblem_linearize :
    guardedProblem.linearize (guardedValues 0) = .ok ([number 4], ⟨1, [[(0, number 1)]]⟩) := by
  simp [Problem.linearize, guardedProblem, Graph.linearize, Graph.linearizeBlock, guardedGraph, guardedFactor,
    guardedValues, GraphFactor.linearize, GraphFactor.params, Values.find, Values.get?, GraphFactor.checkResidual,
    Noise.dim, Result.ofShape, GraphFactor.checkJacobian, Mat.ofFn, Mat.height, Noise.whitenSystem?, Noise.whiten?,
    Noise.whitenJacobian?, Graph.blockEntries, Pattern.fill?, SparseMat.ofEntries, SparseVec.accumulate, number_zero]
  norm_num

theorem guardedProblem_retract (x : ℝ) :
    guardedProblem.retract (guardedValues 0) [number x] = .ok (guardedValues x) := by
  simp [Problem.retract, guardedProblem, Values.retract?, guardedValues, Layout.order, Values.get?,
    Values.mapValues, Result.ofShape]

noncomputable def guardedBase : LevenbergMarquardt Extended :=
  { LevenbergMarquardt.standard with maxIterations := 1, damping := number 1 }

/-- The damped step at the origin leads away from it. -/
theorem guardedBase_direction {s : DampedState Extended} (fresh : s.equations = {}) (damping : s.damping.lambda = number 1) :
    ∃ d x g, guardedBase.direction [number 4] ⟨1, [[(0, number 1)]]⟩ s = .ok d ∧ d.step = [number x] ∧ x ≠ 0 ∧
      d.gradient = [number g] := by
  have order : (Elimination.Plan.ofSymmetric [⟨some (number 2), []⟩]).order = [0] := by
    have perm := Elimination.GroupGraph.order_perm 1
      (Elimination.GroupGraph.ofNeighbours (Symmetric.neighbours [⟨some (number 2), []⟩]))
    exact List.perm_singleton.mp perm
  have root : Scalar.sqrt (number 2) = number √2 := number_sqrt zero_le_two
  have nonzero : √(2 : ℝ) ≠ 0 := Real.sqrt_ne_zero'.mpr two_pos
  have solved : (Elimination.Plan.ofSymmetric [⟨some (number 2), []⟩]).solve [⟨some (number 2), []⟩] [number (-4)] =
      .ok [number (-4 / √2 / √2)] := by
    have blocks : (Elimination.Plan.ofSymmetric [⟨some (number 2), []⟩]).inBlocks = false := rfl
    have shape : (Elimination.Plan.ofSymmetric [⟨some (number 2), []⟩]).shape = [[true]] := rfl
    simp [Elimination.Plan.solve, Elimination.Plan.solveOrdered, blocks, order, shape, Elimination.Plan.ranks,
      Symmetric.shape, Symmetric.reorder, Symmetric.select, Symmetric.table, Symmetric.stored?, Symmetric.cholesky?,
      Symmetric.downdate, Cholesky.solve, number_zero, root, number_div _ nonzero]
  have gram : (⟨1, [[(0, number 1)]]⟩ : SparseMat Extended).gram = [⟨some (number 1), []⟩] := by
    simp [SparseMat.gram, SparseMat.gramOf, SparseVec.overlap, SparseVec.products, Vec.sum, number_zero]
  have gradient : (⟨1, [[(0, number 1)]]⟩ : SparseMat Extended).transposeMul [number 4] = [number 4] := by
    simp [SparseMat.transposeMul, SparseVec.addDot, number_zero]
  have two : (1 : ℝ) + 1 = 2 := by norm_num
  have system : s.equations.solve [number 4] ⟨1, [[(0, number 1)]]⟩ (some (number 1)) =
      (⟨some (.ofSymmetric [⟨some (number 2), []⟩]), some [⟨some (number 1), []⟩], some [number 4]⟩,
        .ok [number (-4 / √2 / √2)]) := by
    simp [fresh, NormalEquations.solve, gram, gradient, Symmetric.addDiagonal, two, solved]
  have plain : guardedBase.useScaling = false := rfl
  refine ⟨⟨[number (-4 / √2 / √2)], [number (-4 / √2 / √2)], [number 4], ⟨some (.ofSymmetric [⟨some (number 2), []⟩]),
    some [⟨some (number 1), []⟩], some [number 4]⟩⟩, -4 / √2 / √2, 4, ?_, rfl, ?_, rfl⟩
  · simp [LevenbergMarquardt.direction, plain, damping, State.direction, State.scaledJacobian, system,
      State.unscaledStep, Except.mapError]
  · exact div_ne_zero (div_ne_zero (by norm_num) nonzero) nonzero

/-- A candidate whose cost is not a number is not taken. -/
theorem stepQuality_undefined (cost predicted : Extended) :
    Scalar.lt 0 (LevenbergMarquardt.stepQuality cost notANumber predicted) = false := by
  have undefined : cost - notANumber = notANumber := by cases cost <;> rfl
  unfold LevenbergMarquardt.stepQuality
  rw [undefined]
  dsimp only
  split
  · have unordered : Scalar.lt 0 notANumber = false := rfl
    rw [unordered]
    simp [number_zero]
  · rfl

/-- The only iteration tries a candidate that has no cost, and stays at the origin. -/
theorem guardedBase_advance :
    ∃ s' step, guardedBase.advance guardedProblem ⟨.start (guardedValues 0) (number 8), ⟨number 1, 2.0⟩⟩ =
      (s', .ok step) ∧ step.values = guardedValues 0 ∧ guardedBase.interruption 0 step = none := by
  obtain ⟨d, x, g, solved, moves, away, slope⟩ := guardedBase_direction
    (s := ⟨{ State.start (guardedValues 0) (number 8) with jacobianEvaluations := 1 }, ⟨number 1, 2.0⟩⟩) rfl rfl
  have moved : guardedProblem.retract (guardedValues 0) d.step = .ok (guardedValues x) := by
    rw [moves, guardedProblem_retract]
  have undefined : guardedProblem.cost (guardedValues x) = .ok notANumber := guardedGraph_undefined away
  have plain : guardedBase.useScaling = false := rfl
  unfold LevenbergMarquardt.advance
  simp only [State.start, guardedProblem_linearize, State.updateScaling, plain, Bool.false_and, Bool.false_eq_true,
    if_false] at solved ⊢
  simp only [Nat.zero_add, solved, Result.ok_bind, LevenbergMarquardt.attempt, moved, undefined, stepQuality_undefined,
    Bool.false_eq_true, if_false]
  refine ⟨_, _, rfl, rfl, ?_⟩
  have first : Scalar.finite (Vec.safeNorm d.step) = true := by
    rw [moves]
    exact safeNorm_finite [x]
  have second : Scalar.finite (Vec.safeNorm d.gradient) = true := by
    rw [slope]
    exact safeNorm_finite [g]
  have timeless : guardedBase.timeout = none := rfl
  simp [Criteria.interruption, first, second, timeless]

theorem guardedBase_run : ∃ solution,
    (guardedBase.run (fun _ => 0) guardedGraph (guardedValues 0) none).2.outcome = .ok solution ∧
      solution.values = guardedValues 0 ∧ checkSolution solution = .ok solution := by
  have begun : (do
      let problem ← Problem.prepare guardedGraph (guardedValues 0)
      return (problem, ← problem.cost (guardedValues 0))) = .ok (guardedProblem, number 8) := by
    simp [guardedProblem_prepare, Problem.cost, guardedProblem, guardedGraph_cost]
  obtain ⟨s', step, advanced, stays, uninterrupted⟩ := guardedBase_advance
  have once : guardedBase.maxIterations - 1 = 0 := rfl
  have damping : guardedBase.damping = number 1 := rfl
  have nu : guardedBase.dampingNu = 2.0 := rfl
  have finite : Scalar.finite step.cost = true := by
    by_contra broken
    rw [Bool.not_eq_true] at broken
    simp [Criteria.interruption, broken] at uninterrupted
  unfold LevenbergMarquardt.run
  rw [begun]
  simp only [once, damping, nu]
  rw [iterate]
  simp only [LevenbergMarquardt.scheme, advanced, uninterrupted]
  refine ⟨_, rfl, stays, ?_⟩
  simp [checkSolution, solution, Status.isFailure, finite]

/-- An optimizer whose only slot is trusted, so that it makes a single solve. -/
noncomputable def guarded : Optimizer Extended where
  graph := guardedGraph
  estimate := guardedValues 0
  config := { Config.ofBase (.levenbergMarquardt guardedBase) with family := .gemanMcClure, knownInliers := [0] }
  weights := [1]
  known := [true]

theorem guarded_created : create guardedGraph (guardedValues 0) guarded.config = .ok guarded := by
  have valid : guarded.config.validate = .ok () := by
    simp [Config.validate, guarded, Config.ofBase, Scalar.positive, Scalar.nonNegative, number_zero, number_one,
      number_ofScientific]
    norm_num
  have inside : (checkKnown guardedGraph.size guarded.config.knownInliers : Result Extended Unit) = .ok () := rfl
  rw [create, valid, Result.ok_bind, inside]
  rfl

theorem guarded_initialMu : guarded.initialMu = .ok (number 16) := by
  have here : guarded.estimate = guardedValues 0 := rfl
  have graph : guarded.graph = guardedGraph := rfl
  rw [initialMu, here, graph, guardedGraph_errors]
  simp [largestError, guarded, Config.ofBase, Family.initialMu, number_zero, number_one, number_ofScientific,
    number_div _ one_ne_zero]
  norm_num

theorem guarded_optimize : ∃ solution, (guarded.optimize fun _ _ => 0).outcome = .ok solution := by
  obtain ⟨base, returned, -, checked⟩ := guardedBase_run
  have same := optimize_started (o := guarded) (fun _ _ => 0) guarded_initialMu guardedGraph_cost
  rw [if_pos (show guarded.known.all id = true from rfl)] at same
  have solved : (guarded.evenly.solve (fun _ => 0) guardedGraph).2 = .ok base := by
    show (guardedBase.run (fun _ => 0) guardedGraph (guardedValues 0) none).2.outcome >>= checkSolution = _
    rw [returned, Result.ok_bind, checked]
  have graph : guarded.evenly.graph = guardedGraph := rfl
  rw [same, Run.outcome_after, solvePlain, graph]
  rcases split : guarded.evenly.solve (fun _ => 0) guardedGraph with ⟨events, result⟩
  rw [split] at solved
  obtain rfl : result = _ := solved
  exact ⟨_, rfl⟩

theorem guarded_finite_states :
    let run := guarded.optimize fun _ _ => 0
    Reachable guardedGraph (guardedValues 0) guarded.config run.optimizer ∧
      (∃ solution, run.outcome = .ok solution) ∧ run.optimizer.weights[0]? = some 1 ∧
      ∃ base, (guardedBase.run (fun _ => 0) guardedGraph (guardedValues 0) none).2.outcome = .ok base ∧ Sound base := by
  intro run
  have before : Reachable guardedGraph (guardedValues 0) guarded.config guarded := .created guarded_created
  have after : Reachable guardedGraph (guardedValues 0) guarded.config run.optimizer := .optimized before _
  obtain ⟨solution, finished⟩ := guarded_optimize
  obtain ⟨clean, -⟩ := Reachable.finite_states after
  obtain ⟨-, founded⟩ := Reachable.finite_states before
  have none := optimize_early_iterations (fun _ _ => 0) guarded_initialMu (.inl rfl)
  obtain ⟨base, returned, sound, -⟩ := (founded _ solution finished).early none
  exact ⟨after, ⟨solution, finished⟩, clean.known 0 List.mem_cons_self, base, returned, sound⟩

end Optimizer

end Continuation

end GraduatedFit

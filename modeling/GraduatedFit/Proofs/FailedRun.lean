import GraduatedFit.Proofs.ContinuationRun

/-! A run that fails leaves the estimate and the weights of the last iteration that it completed. -/

namespace GraduatedFit.Continuation

open LeastSquares

variable {K : Type}

/-- What observers hear of. The other events are notes in the log. -/
def Event.observed : Event K → Bool
  | .started .. | .iterated _ | .finished .. => true
  | _ => false

/-- What the observers of a run have heard, in order. -/
def Run.observed (run : Run K) : List (Event K) := run.events.filter Event.observed

@[simp]
theorem Run.observed_after (events : List (Event K)) (run : Run K) :
    (run.after events).observed = events.filter Event.observed ++ run.observed := by
  simp [Run.after, Run.observed]

namespace Optimizer

@[simp]
theorem failed_observed (o : Optimizer K) (failure : Failure K) : (Run.failed o failure).observed = [] := rfl

variable [Scalar K]

@[simp]
theorem solve_observed_free (o : Optimizer K) (clock : Clock) (graph : Graph K) :
    (o.solve clock graph).1.filter Event.observed = [] := by
  unfold solve
  dsimp only
  split <;> rfl

@[simp]
theorem step_observed_free (o : Optimizer K) (clock : Clock) (number : Nat) (mu : K) :
    (o.step clock number mu).1.filter Event.observed = [] := by
  unfold step
  split
  · rfl
  · exact o.solve_observed_free clock _

/-- Where a run fails, and after which iterations: before the first one, in the single solve of a run that needs none, or
in the iteration that follows those it has completed. -/
inductive FailsAfter (o : Optimizer K) (clock : Nat → Clock) (failure : Failure K) : List (Iteration K) → Prop
  | parameter (unknown : o.initialMu = .error failure) : FailsAfter o clock failure []
  | cost {mu : K} (initial : o.initialMu = .ok mu) (unknown : o.graph.error o.estimate = .error failure) :
      FailsAfter o clock failure []
  | plain {mu cost : K} (initial : o.initialMu = .ok mu) (start : o.graph.error o.estimate = .ok cost)
      (early : o.known.all id = true ∨ Scalar.le mu 0 = true)
      (unsolved : (o.evenly.solve (clock 0) o.graph).2 = .error failure) : FailsAfter o clock failure []
  | iteration {mu cost : K} {records : List (Iteration K)} (initial : o.initialMu = .ok mu)
      (start : o.graph.error o.estimate = .ok cost) (someFree : o.known.all id = false)
      (positive : Scalar.le mu 0 = false)
      (unfinished : ((stage o.evenly records records.length).step (clock records.length) records.length
        (o.muAt mu records.length)).2 = .error failure) : FailsAfter o clock failure records

/-- A loop that fails does so in the iteration after those that it has completed and reported. -/
theorem continueFrom_failed {clock : Nat → Clock} {left number : Nat} {mu : K} {o : Optimizer K} {failure : Failure K}
    (failed : (continueFrom clock left number mu o).outcome = .error failure) :
    let run := continueFrom clock left number mu o
    let completed := run.iterations.length
    ((stage o run.iterations completed).step (clock (number + completed)) (number + completed)
        (o.muAt mu completed)).2 = .error failure ∧
      run.observed = run.iterations.map .iterated := by
  dsimp only
  induction left generalizing number mu o with
  | zero => cases failed
  | succ left ih =>
      have continues := continueFrom_continues clock left number mu o
      generalize continueFrom clock (left + 1) number mu o = run at continues failed ⊢
      cases continues with
      | failed unfinished =>
          obtain rfl := Except.error.inj failed
          exact ⟨by simpa using unfinished, by simp⟩
      | saturated stepped decided => cases failed
      | muConverged stepped undecided met => cases failed
      | @later record stepped undecided unmet =>
          obtain ⟨unfinished, observed⟩ := ih failed
          rw [Nat.add_right_comm, Nat.add_assoc] at unfinished
          have heard : [Event.iterated record].filter Event.observed = [.iterated record] := rfl
          exact ⟨by simpa using unfinished, by simp [heard, observed]⟩

/-- The control parameter and the cost that the observers hear of at the start of a run. -/
def beginning (o : Optimizer K) : List (Event K) :=
  match o.initialMu, o.graph.error o.estimate with
  | .ok mu, .ok cost => [.started mu cost]
  | _, _ => []

/-- The optimizer that a failure after some iterations leaves. -/
structure Keeps (o : Optimizer K) (records : List (Iteration K)) (final : Optimizer K) : Prop where
  last : ∀ record, records.getLast? = some record → final = o.moveTo record
  even : ∀ mu, records = [] → o.initialMu = .ok mu → final = o.evenly
  untouched : ∀ failure, o.initialMu = .error failure → final = o

/-- The optimizer that iterations lead to is that of the last one. -/
theorem stage_last (o : Optimizer K) {records : List (Iteration K)} {record : Iteration K}
    (last : records.getLast? = some record) : stage o.evenly records records.length = o.moveTo record := by
  obtain ⟨front, rfl⟩ := List.getLast?_eq_some_iff.mp last
  rw [List.length_append, List.length_singleton]
  exact stage_after _ _ _ _ (by simp)

theorem optimize_failed {o : Optimizer K} {clock : Nat → Clock} {failure : Failure K}
    (failed : (o.optimize clock).outcome = .error failure) :
    o.FailsAfter clock failure (o.optimize clock).iterations ∧
      (o.optimize clock).observed = o.beginning ++ (o.optimize clock).iterations.map .iterated ∧
      o.Keeps (o.optimize clock).iterations (o.optimize clock).optimizer := by
  have opens := o.optimize_opens clock
  unfold beginning
  generalize o.optimize clock = run at opens failed ⊢
  cases opens with
  | unknown initial =>
      obtain rfl := Except.error.inj failed
      rw [initial]
      exact ⟨.parameter initial, rfl, nofun, fun mu _ known => by simp [initial] at known, fun _ _ => rfl⟩
  | costless initial start =>
      obtain rfl := Except.error.inj failed
      rw [initial, start]
      exact ⟨.cost initial start, rfl, nofun, fun _ _ _ => rfl, fun failure unknown => by simp [initial] at unknown⟩
  | @plain mu cost note initial start early said =>
      rcases o.evenly.solvePlain_cases (clock 0) mu with ⟨failure', unsolved, same⟩ | ⟨base, -, same⟩
      · rw [same] at failed ⊢
        obtain rfl := Except.error.inj failed
        have none : [.configured o.config, .started mu cost, note].filterMap Event.iteration? = [] := by
          rcases said with rfl | rfl <;> rfl
        have heard : [.configured o.config, .started mu cost, note].filter Event.observed = [.started mu cost] := by
          rcases said with rfl | rfl <;> rfl
        rw [initial, start]
        simp only [Run.iterations_after, Run.observed_after, Run.optimizer_after, none, heard, solve_iteration_free,
          solve_observed_free, failed_iterations, failed_observed, failed_optimizer, List.append_nil]
        exact ⟨.plain initial start early unsolved, rfl, nofun, fun _ _ _ => rfl,
          fun failure unknown => by simp [initial] at unknown⟩
      · rw [same] at failed
        cases failed
  | @looped mu cost initial start someFree positive =>
      obtain ⟨unfinished, observed⟩ := continueFrom_failed failed
      have final := chain_final (continueFrom_chain clock o.config.maxIterations 0 mu o.evenly)
      have none : [.configured o.config, .started mu cost].filterMap Event.iteration? = [] := rfl
      have heard : [.configured o.config, .started mu cost].filter Event.observed = [.started mu cost] := rfl
      rw [Nat.zero_add] at unfinished
      rw [initial, start, Run.iterations_after, Run.observed_after, Run.optimizer_after, none, heard, observed,
        List.nil_append]
      refine ⟨.iteration initial start someFree positive unfinished, rfl, ?_, ?_, fun failure unknown => ?_⟩
      · intro record last
        rw [final, stage_last o last]
      · intro mu none _
        rw [final, none]
        rfl
      · simp [initial] at unknown

/-- A run that fails has reported the iterations that it completed, and leaves the estimate of the last of them with the
weights found there. Every iteration has its number, its control parameter and the weights that go with its estimate. -/
theorem optimize_atomic (o : Optimizer K) (clock : Nat → Clock) (failure : Failure K)
    (failed : (o.optimize clock).outcome = .error failure) :
    let run := o.optimize clock
    let records := run.iterations
    o.FailsAfter clock failure records ∧
    run.observed = o.beginning ++ records.map .iterated ∧
    o.Keeps records run.optimizer ∧
    ∀ i record, records[i]? = some record → ∃ mu, o.initialMu = .ok mu ∧
      (stage o.evenly records i).Iterates (clock i) i (o.muAt mu i) record ∧
      o.weightsAt record.values (o.muAt mu i) = .ok record.weights := by
  intro run records
  obtain ⟨fails, observed, keeps⟩ := optimize_failed failed
  refine ⟨fails, observed, keeps, ?_⟩
  intro i record found
  rcases o.optimize_cases clock with ⟨none, -⟩ | ⟨mu, cost, initial, start, someFree, positive⟩
  · rw [show records = [] from none] at found
    cases found
  · have chain := continueFrom_chain clock o.config.maxIterations 0 mu o.evenly
    rw [← (optimize_begun clock initial start someFree positive).1] at chain
    have iterates := chain_iterates chain found
    have weighed := iterates.weighed
    rw [stage_weightsAt] at weighed
    rw [Nat.zero_add] at iterates
    exact ⟨mu, initial, iterates, weighed⟩

/-- A factor whose residual is always four, and which has a Jacobian at the origin only. -/
noncomputable def lapsingFactor : Factor ℝ where
  dim := 1
  arity := 1
  linearize? params wanted :=
    some ([4.0], if wanted && params.flatten.all (Scalar.eq · 0) then some (Mat.ofFn 1 1 fun _ _ => 1) else none)

noncomputable def lapsingGraph (sigma : ℝ) : Graph ℝ := ⟨[⟨["x"], ⟨0, lapsingFactor⟩, .isotropic 1 sigma⟩]⟩

theorem lapsingGraph_errors (sigma x : ℝ) :
    (lapsingGraph sigma).factorErrors (.single x) = .ok [0.5 * (4 / sigma * (4 / sigma))] := by
  simp [Graph.factorErrors, lapsingGraph, lapsingFactor, Values.single, GraphFactor.error, GraphFactor.residual,
    GraphFactor.params, Values.find, Values.get?, GraphFactor.checkResidual, Noise.dim, Result.ofShape, Noise.error?,
    Noise.whiten?, Vec.normSq, Vec.sum, Scalar.square]
  norm_num

theorem lapsingGraph_error (sigma x : ℝ) :
    (lapsingGraph sigma).error (.single x) = .ok (0.5 * (4 / sigma * (4 / sigma))) := by
  simp [Graph.error, lapsingGraph_errors]

noncomputable def lapsingProblem (sigma : ℝ) : Problem ℝ := ⟨lapsingGraph sigma, ⟨[("x", 1)]⟩, ⟨1, 1, [(0, 0)]⟩⟩

theorem lapsingProblem_prepare (sigma x : ℝ) :
    Problem.prepare (lapsingGraph sigma) (.single x) = .ok (lapsingProblem sigma) := by
  simp [Problem.prepare, lapsingProblem, lapsingGraph, Values.single, Graph.isEmpty, Graph.layout,
    Graph.variableNames, sortedNames, insertName, Values.find, Values.get?, Layout.totalDof, Graph.pattern,
    Graph.positionsFrom, Layout.start?, Layout.startIn, Graph.blockPositions, Noise.dim, Graph.residualDimension]

theorem lapsingProblem_linearize (sigma : ℝ) :
    (lapsingProblem sigma).linearize (.single 0) = .ok ([4 / sigma], ⟨1, [[(0, 1 / sigma)]]⟩) := by
  simp [Problem.linearize, lapsingProblem, Graph.linearize, Graph.linearizeBlock, lapsingGraph, lapsingFactor,
    Values.single, GraphFactor.linearize, GraphFactor.params, Values.find, Values.get?, GraphFactor.checkResidual,
    Noise.dim, Result.ofShape, GraphFactor.checkJacobian, Mat.ofFn, Mat.height, Noise.whitenSystem?, Noise.whiten?,
    Noise.whitenJacobian?, Mat.map, Graph.blockEntries, Pattern.fill?, SparseMat.ofEntries, SparseVec.accumulate]
  norm_num

theorem lapsingProblem_lapsed (sigma : ℝ) {x : ℝ} (away : x ≠ 0) :
    ∃ failure, (lapsingProblem sigma).linearize (.single x) = .error failure := by
  simp [Problem.linearize, lapsingProblem, Graph.linearize, Graph.linearizeBlock, lapsingGraph, lapsingFactor,
    Values.single, GraphFactor.linearize, GraphFactor.params, Values.find, Values.get?, GraphFactor.checkResidual,
    Noise.dim, Result.ofShape, GraphFactor.checkJacobian, away, Result.failModel]
  exact ⟨_, rfl⟩

theorem lapsingProblem_retract (sigma x : ℝ) :
    (lapsingProblem sigma).retract (.single 0) [x] = .ok (.single x) := by
  simp [Problem.retract, lapsingProblem, Values.retract?, Values.single, Layout.order, Values.get?,
    Values.mapValues, Result.ofShape]

noncomputable def lapsingBase : GaussNewton ℝ := { GaussNewton.standard with maxIterations := 1, minDiagonal := 0 }

/-- At the origin the system has a step, and it leads away from the origin. -/
theorem lapsingBase_direction {sigma : ℝ} (positive : 0 < sigma) {s : State ℝ} (fresh : s.equations = {}) :
    ∃ d x, lapsingBase.direction [4 / sigma] ⟨1, [[(0, 1 / sigma)]]⟩ s = .ok d ∧ d.step = [x] ∧ x ≠ 0 := by
  have inverse : 0 < 1 / sigma := one_div_pos.mpr positive
  have curvature : 0 < 1 / sigma * (1 / sigma) := mul_pos inverse inverse
  have slope : 0 < 1 / sigma * (4 / sigma) := mul_pos inverse (div_pos four_pos positive)
  have undamped : lapsingBase.damping = none := by simp [GaussNewton.damping, lapsingBase]
  have unscaled : lapsingBase.useScaling = false := rfl
  have gram : (⟨1, [[(0, 1 / sigma)]]⟩ : SparseMat ℝ).gram = [⟨some (1 / sigma * (1 / sigma)), []⟩] := by
    simp [SparseMat.gram, SparseMat.gramOf, SparseVec.overlap, SparseVec.products]
  have gradient : (⟨1, [[(0, 1 / sigma)]]⟩ : SparseMat ℝ).transposeMul [4 / sigma] = [1 / sigma * (4 / sigma)] := by
    simp [SparseMat.transposeMul, SparseVec.addDot]
  obtain ⟨plan, system⟩ := NormalEquations.solve_column rfl gram gradient none (by rwa [Option.getD_none, add_zero])
  rw [← fresh, Option.getD_none, add_zero] at system
  set h := -(1 / sigma * (4 / sigma)) / (1 / sigma * (1 / sigma))
  have away : h ≠ 0 := div_ne_zero (neg_ne_zero.mpr slope.ne') curvature.ne'
  refine ⟨⟨[h], [h], [1 / sigma * (4 / sigma)], ⟨some plan, some [⟨some (1 / sigma * (1 / sigma)), []⟩],
    some [1 / sigma * (4 / sigma)]⟩⟩, h, ?_, rfl, away⟩
  simp [-one_div, GaussNewton.direction, undamped, unscaled, State.direction, State.scaledJacobian, system,
    State.unscaledStep, Except.mapError]

/-- The first iteration leads away from the origin. -/
theorem lapsingBase_advance {sigma : ℝ} (positive : 0 < sigma) (cost : ℝ) :
    ∃ s' step x, lapsingBase.advance (lapsingProblem sigma) (.start (.single 0) cost) = (s', .ok step) ∧
      step.values = .single x ∧ x ≠ 0 := by
  obtain ⟨d, x, solved, moves, away⟩ := lapsingBase_direction positive
    (s := { State.start (.single 0) cost with jacobianEvaluations := 1 }) rfl
  have moved : (lapsingProblem sigma).retract (.single 0) d.step = .ok (.single x) := by
    rw [moves, lapsingProblem_retract]
  have evaluated : (lapsingProblem sigma).cost (.single x) = .ok (0.5 * (4 / sigma * (4 / sigma))) :=
    lapsingGraph_error sigma x
  have plain : lapsingBase.useScaling = false := rfl
  have here : (State.start (Values.single (0 : ℝ)) cost).values = .single 0 := rfl
  unfold GaussNewton.advance
  rw [here, lapsingProblem_linearize]
  simp only [State.updateScaling, plain, Bool.false_and, Bool.false_eq_true, if_false]
  simp only [State.start] at solved ⊢
  simp only [Nat.zero_add, solved, Result.ok_bind, GaussNewton.take, moved, evaluated]
  exact ⟨_, _, x, rfl, rfl, away⟩

/-- A run of one iteration ends where that leads. -/
theorem lapsingBase_run {sigma : ℝ} (positive : 0 < sigma) :
    ∃ solution x, (lapsingBase.run (fun _ => 0) (lapsingGraph sigma) (.single 0) none).2.outcome = .ok solution ∧
      solution.status = .maxIterationsReached ∧ solution.values = .single x ∧ x ≠ 0 := by
  have begun : (do
      let problem ← Problem.prepare (lapsingGraph sigma) (.single 0)
      return (problem, ← problem.cost (.single 0))) =
        .ok (lapsingProblem sigma, 0.5 * (4 / sigma * (4 / sigma))) := by
    simp [lapsingProblem_prepare, Problem.cost, lapsingProblem, lapsingGraph_error]
  obtain ⟨s', step, x, advanced, moved, away⟩ := lapsingBase_advance positive (0.5 * (4 / sigma * (4 / sigma)))
  have once : lapsingBase.maxIterations - 1 = 0 := rfl
  have timeless : lapsingBase.timeout = none := rfl
  have uninterrupted : lapsingBase.interruption 0 step = none := by
    simp [Criteria.interruption, timeless]
  unfold GaussNewton.run
  rw [begun]
  simp only [once]
  rw [iterate]
  simp only [GaussNewton.scheme, advanced, uninterrupted]
  exact ⟨_, x, rfl, rfl, moved, away⟩

/-- Away from the origin there is no run. -/
theorem lapsingBase_lapsed (sigma : ℝ) {x : ℝ} (away : x ≠ 0) :
    ∃ failure, (lapsingBase.run (fun _ => 0) (lapsingGraph sigma) (.single x) none).2.outcome = .error failure := by
  have begun : (do
      let problem ← Problem.prepare (lapsingGraph sigma) (.single x)
      return (problem, ← problem.cost (.single x))) =
        .ok (lapsingProblem sigma, 0.5 * (4 / sigma * (4 / sigma))) := by
    simp [lapsingProblem_prepare, Problem.cost, lapsingProblem, lapsingGraph_error]
  obtain ⟨failure, lapsed⟩ := lapsingProblem_lapsed sigma away
  have once : lapsingBase.maxIterations - 1 = 0 := rfl
  refine ⟨failure, ?_⟩
  unfold GaussNewton.run
  rw [begun]
  simp only [once]
  rw [iterate]
  simp only [GaussNewton.scheme, GaussNewton.advance, State.start, lapsed]
  rfl

theorem lapsingGraph_reweight (sigma : ℝ) {weight : ℝ} (nonneg : 0 ≤ weight) :
    (lapsingGraph sigma).reweight [weight] = .ok (lapsingGraph (sigma / √weight)) := by
  simp [Graph.reweight, lapsingGraph, Graph.size, Graph.withNoise, Graph.checkWeight, nonneg, Noise.scaledByWeight?]

/-- A continuation of that factor: its first iteration succeeds, and its second one has no Jacobian. -/
noncomputable def lapsing (x weight : ℝ) : Optimizer ℝ where
  graph := lapsingGraph 1
  estimate := .single x
  config := { Config.ofBase (.gaussNewton lapsingBase) with
    family := .gemanMcClure, muStep := 2.0, maxIterations := 2, weightsTolerance := 0 }
  weights := [weight]
  known := [false]

theorem lapsing_errors (x weight y : ℝ) : (lapsing x weight).graph.factorErrors (.single y) = .ok [8] := by
  rw [lapsing, lapsingGraph_errors]
  norm_num

theorem lapsing_weightsAt (x weight y mu : ℝ) :
    (lapsing x weight).weightsAt (.single y) mu = .ok [(mu / (8 + mu)) ^ 2] := by
  rw [weightsAt, lapsing_errors]
  simp [checkErrors, Continuation.weights, isKnown, lapsing, Config.ofBase, Family.weight, gemanMcClureWeight,
    rationalWeight, Scalar.square, sq]

theorem lapsing_step (number : Nat) {weight : ℝ} (positive : 0 < weight) (mu : ℝ) :
    ∃ record x, ((lapsing 0 weight).step (fun _ => 0) number mu).2 = .ok (lapsing x ((mu / (8 + mu)) ^ 2), record) ∧
      record.values = .single x ∧ record.weights = [(mu / (8 + mu)) ^ 2] ∧ x ≠ 0 := by
  obtain ⟨solution, x, returned, status, moved, away⟩ :=
    lapsingBase_run (div_pos one_pos (Real.sqrt_pos.mpr positive))
  have reweighted : (lapsing 0 weight).reweighted (lapsing 0 weight).weights = .ok (lapsingGraph (1 / √weight)) :=
    lapsingGraph_reweight 1 positive.le
  have checked : checkSolution solution = .ok solution := by
    simp [checkSolution, status, Status.isFailure]
  have solved : ((lapsing 0 weight).solve (fun _ => 0) (lapsingGraph (1 / √weight))).2 = .ok solution := by
    show (lapsingBase.run (fun _ => 0) (lapsingGraph (1 / √weight)) (.single 0) none).2.outcome >>= checkSolution = _
    rw [returned, Result.ok_bind, checked]
  refine ⟨⟨number, mu, [(mu / (8 + mu)) ^ 2], .single x, solution.finalCost⟩, x, ?_, rfl, rfl, away⟩
  unfold step
  rw [reweighted]
  simp only [solved, Result.ok_bind, moved, lapsing_weightsAt]
  rfl

/-- Away from the origin an iteration fails. -/
theorem lapsing_lapsed (number : Nat) {x weight : ℝ} (away : x ≠ 0) (nonneg : 0 ≤ weight) (mu : ℝ) :
    ∃ failure, ((lapsing x weight).step (fun _ => 0) number mu).2 = .error failure := by
  obtain ⟨failure, lapsed⟩ := lapsingBase_lapsed (1 / √weight) away
  have reweighted : (lapsing x weight).reweighted (lapsing x weight).weights = .ok (lapsingGraph (1 / √weight)) :=
    lapsingGraph_reweight 1 nonneg
  have unsolved : ((lapsing x weight).solve (fun _ => 0) (lapsingGraph (1 / √weight))).2 = .error failure := by
    show (lapsingBase.run (fun _ => 0) (lapsingGraph (1 / √weight)) (.single x) none).2.outcome >>= checkSolution = _
    rw [lapsed]
    rfl
  refine ⟨failure, ?_⟩
  unfold step
  rw [reweighted]
  simp only [unsolved]
  rfl

theorem lapsing_initialMu : (lapsing 0 1).initialMu = .ok 16 := by
  have here : (lapsing 0 1).estimate = .single 0 := rfl
  rw [initialMu, here, lapsing_errors]
  simp [largestError, lapsing, Config.ofBase, Family.initialMu]
  norm_num

theorem lapsing_error : (lapsing 0 1).graph.error (lapsing 0 1).estimate = .ok 8 := by
  have here : (lapsing 0 1).estimate = .single 0 := rfl
  rw [Graph.error, here, lapsing_errors]
  norm_num

theorem lapsing_fails : ∃ failure record x, ((lapsing 0 1).optimize fun _ _ => 0).outcome = .error failure ∧
    ((lapsing 0 1).optimize fun _ _ => 0).iterations = [record] ∧ record.values = .single x ∧ x ≠ 0 ∧
      record.weights = [4 / 9] := by
  have far : Scalar.le (16 : ℝ) 0 = false := by norm_num
  obtain ⟨iterations, -, outcome⟩ := optimize_begun (fun _ _ => 0) lapsing_initialMu lapsing_error (by rfl) far
  obtain ⟨record, x, stepped, values, weights, away⟩ := lapsing_step 0 one_pos 16
  have share : ((16 : ℝ) / (8 + 16)) ^ 2 = 4 / 9 := by norm_num
  rw [share] at stepped weights
  obtain ⟨failure, lapsed⟩ := lapsing_lapsed 1 away (show (0 : ℝ) ≤ 4 / 9 by norm_num) 8
  have undecided : (lapsing x (4 / 9)).weightsSaturated (lapsing x (4 / 9)).weights = false := by
    simp [weightsSaturated, saturated, lapsing, isKnown, nearOne]
    norm_num
  have next : (lapsing x (4 / 9)).nextMu 16 = 8 := by
    simp [nextMu, lapsing, Config.ofBase, Family.nextMu]
    norm_num
  have unmet : (lapsing x (4 / 9)).muConverged ((lapsing x (4 / 9)).nextMu 16) 16 = false := by
    rw [next]
    simp [muConverged, lapsing, Config.ofBase, Family.muConverged]
  have later := @continueFrom_later ℝ _ (fun _ _ => 0) 0 16 _ _ _ 1 stepped undecided unmet
  rw [next, @continueFrom_unfinished ℝ _ (fun _ _ => 0) 1 8 _ _ 0 lapsed] at later
  refine ⟨failure, record, x, ?_, ?_, values, away, weights⟩
  · rw [outcome]
    exact congrArg Run.outcome later
  · rw [iterations]
    exact (congrArg Run.iterations later).trans (by simp)

theorem lapsing_atomic :
    ∃ failure record x, ((lapsing 0 1).optimize fun _ _ => 0).outcome = .error failure ∧
      ((lapsing 0 1).optimize fun _ _ => 0).optimizer.estimate = .single x ∧ x ≠ 0 ∧
      ((lapsing 0 1).optimize fun _ _ => 0).optimizer.weights = [4 / 9] ∧
      ((lapsing 0 1).optimize fun _ _ => 0).observed = [.started 16 8, .iterated record] := by
  obtain ⟨failure, record, x, failed, completed, moved, away, weights⟩ := lapsing_fails
  obtain ⟨-, observed, keeps, -⟩ := optimize_atomic (lapsing 0 1) (fun _ _ => 0) failure failed
  have last := keeps.last record (by rw [completed]; rfl)
  refine ⟨failure, record, x, failed, ?_, away, ?_, ?_⟩
  · rw [last, moveTo_estimate, moved]
  · rw [last, moveTo_weights, weights]
  · rw [observed, completed, beginning, lapsing_initialMu, lapsing_error]
    rfl

end Optimizer

end GraduatedFit.Continuation

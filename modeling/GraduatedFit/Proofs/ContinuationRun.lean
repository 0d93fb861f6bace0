import GraduatedFit.Proofs.OuterIterations
import GraduatedFit.Proofs.PulledVariable
import GraduatedFit.Proofs.SingleFactor
import GraduatedFit.Proofs.Surrogate

/-! Every run of the outer loop is the continuation that its parameters describe. -/

namespace GraduatedFit.Continuation

open LeastSquares

variable {K : Type} [Scalar K]

namespace Optimizer

/-- The control parameter of the iteration of an index, from that of the first one. -/
def muAt (o : Optimizer K) (mu : K) (i : Nat) : K := o.nextMu^[i] mu

@[simp]
theorem muAt_zero (o : Optimizer K) (mu : K) : o.muAt mu 0 = mu := rfl

theorem muAt_succ (o : Optimizer K) (mu : K) (i : Nat) : o.muAt mu (i + 1) = o.nextMu (o.muAt mu i) :=
  Function.iterate_succ_apply' _ _ _

@[simp]
theorem moveTo_muAt (o : Optimizer K) (record : Iteration K) (mu : K) (i : Nat) :
    (o.moveTo record).muAt (o.nextMu mu) i = o.muAt mu (i + 1) := rfl

theorem chain_iterates {clock : Nat → Clock} {number : Nat} {mu : K} {o final : Optimizer K}
    {records : List (Iteration K)} (chain : Chain clock number mu o records final)
    {i : Nat} {record : Iteration K} (present : records[i]? = some record) :
    (stage o records i).Iterates (clock (number + i)) (number + i) (o.muAt mu i) record := by
  induction chain generalizing i with
  | nil number mu o => cases present
  | cons first rest ih =>
      cases i with
      | zero =>
          obtain rfl := Option.some.inj present
          simpa using first
      | succ i =>
          have later := ih present
          rwa [Nat.add_right_comm, Nat.add_assoc] at later

theorem chain_final {clock : Nat → Clock} {number : Nat} {mu : K} {o final : Optimizer K}
    {records : List (Iteration K)} (chain : Chain clock number mu o records final) :
    final = stage o records records.length := by
  induction chain with
  | nil number mu o => simp
  | cons first rest ih => simpa using ih

theorem ends_count {left number : Nat} {mu : K} {o : Optimizer K} {records : List (Iteration K)}
    {solution : Solution K} (ends : Ends left number mu o records solution) :
    solution.iterations = number + records.length ∧ records.length ≤ left ∧
      (solution.outcome = .maxIterationsReached → records.length = left) := by
  induction ends with
  | limit number mu o => simp
  | saturated decided => simp
  | muConverged undecided met => simp
  | later undecided unmet rest ih =>
      obtain ⟨count, bound, full⟩ := ih
      refine ⟨?_, ?_, ?_⟩
      · rw [count, List.length_cons]
        omega
      · simpa using bound
      · intro limit
        simpa using full limit

theorem ends_state {left number : Nat} {mu : K} {o : Optimizer K} {records : List (Iteration K)}
    {solution : Solution K} (ends : Ends left number mu o records solution) :
    solution.values = (stage o records records.length).estimate ∧
      solution.weights = (stage o records records.length).weights := by
  induction ends with
  | limit number mu o => simp
  | saturated decided => simp
  | muConverged undecided met => simp
  | later undecided unmet rest ih => simpa using ih

/-- No iteration before the last one meets a test. -/
theorem ends_unfinished {left number : Nat} {mu : K} {o : Optimizer K} {records : List (Iteration K)}
    {solution : Solution K} (ends : Ends left number mu o records solution)
    {i : Nat} (before : i + 1 < records.length) :
    o.weightsSaturated (stage o records (i + 1)).weights = false ∧
      o.muConverged (o.muAt mu (i + 1)) (o.muAt mu i) = false := by
  induction ends generalizing i with
  | limit number mu o => simp at before
  | saturated decided => simp at before
  | muConverged undecided met => simp at before
  | later undecided unmet rest ih =>
      cases i with
      | zero => exact ⟨by simpa using undecided, unmet⟩
      | succ i => exact ih (by simpa using before)

/-- The last iteration decides the outcome and the control parameter that is reported. -/
theorem ends_outcome {left number : Nat} {mu : K} {o : Optimizer K} {records : List (Iteration K)}
    {solution : Solution K} (ends : Ends left number mu o records solution)
    {k : Nat} (count : records.length = k + 1) :
    let saturated := o.weightsSaturated (stage o records (k + 1)).weights
    (solution.outcome = .converged ↔
        saturated = true ∨ o.muConverged (o.muAt mu (k + 1)) (o.muAt mu k) = true) ∧
      solution.mu = if saturated then o.muAt mu k else o.muAt mu (k + 1) := by
  induction ends generalizing k with
  | limit number mu o => simp at count
  | saturated decided =>
      obtain rfl : k = 0 := by simpa using count
      simp [decided]
  | muConverged undecided met =>
      obtain rfl : k = 0 := by simpa using count
      simp [undecided, muAt_succ, met]
  | later undecided unmet rest ih =>
      cases k with
      | zero =>
          obtain rfl : _ = [] := List.length_eq_zero_iff.mp (by simpa using count)
          cases rest
          simp [undecided, muAt_succ, unmet]
      | succ k =>
          have later := ih (k := k) (by simpa using count)
          exact later

/-- The estimates, weights, control parameters and costs of a continuation by the number of
iterations made. -/
structure Course (K : Type) where
  values : Nat → Values K
  weights : Nat → Vec K
  mu : Nat → K
  cost : Nat → K

/-- The record of an iteration of a course. -/
def Course.record (course : Course K) (i : Nat) : Iteration K :=
  ⟨i, course.mu i, course.weights (i + 1), course.values (i + 1), course.cost i⟩

/-- The first `k` iterations of a continuation that starts at the state of the optimizer: each
solves the problem reweighted by the weights it finds, from the estimate it finds, and weighs the
factors at the solution with its own control parameter. No iteration before the last meets a
test. -/
structure Follows (o : Optimizer K) (clock : Nat → Clock) (k : Nat) (course : Course K) : Prop where
  values_zero : course.values 0 = o.estimate
  weights_zero : course.weights 0 = List.replicate o.graph.size 1
  mu_zero : o.initialMu = .ok (course.mu 0)
  mu_succ : ∀ i, course.mu (i + 1) = o.nextMu (course.mu i)
  solved : ∀ i < k, ∃ graph solution, o.reweighted (course.weights i) = .ok graph ∧
    (o.config.base.build.optimize (clock i) graph (course.values i)).2.outcome = .ok solution ∧
    course.values (i + 1) = solution.values ∧ course.cost i = solution.finalCost
  weighed : ∀ i < k, o.weightsAt (course.values (i + 1)) (course.mu i) = .ok (course.weights (i + 1))
  undecided : ∀ i, i + 1 < k → o.weightsSaturated (course.weights (i + 1)) = false
  unmet : ∀ i, i + 1 < k → o.muConverged (course.mu (i + 1)) (course.mu i) = false

/-- The course that records describe. -/
def courseOf (o : Optimizer K) (mu : K) (records : List (Iteration K)) : Course K where
  values i := (stage o records i).estimate
  weights i := (stage o records i).weights
  mu := o.muAt mu
  cost i := (records[i]?.map Iteration.cost).getD 0

/-- The optimizer at the start of the outer loop. -/
def evenly (o : Optimizer K) : Optimizer K := { o with weights := List.replicate o.graph.size 1 }

@[simp]
theorem solve_iteration_free (o : Optimizer K) (clock : Clock) (graph : Graph K) :
    (o.solve clock graph).1.filterMap Event.iteration? = [] := by
  unfold solve
  dsimp only
  split <;> rfl

/-- A single solve fails, or moves to where it ends. -/
theorem solvePlain_cases (o : Optimizer K) (clock : Clock) (mu : K) :
    (∃ failure, (o.solve clock o.graph).2 = .error failure ∧
      o.solvePlain clock mu = (Run.failed o failure).after (o.solve clock o.graph).1) ∨
    ∃ base, (o.solve clock o.graph).2 = .ok base ∧ o.solvePlain clock mu =
      ({ o with estimate := base.values }.finish .converged 0 mu).after (o.solve clock o.graph).1 := by
  unfold solvePlain
  rcases o.solve clock o.graph with ⟨events, failure | base⟩
  · exact .inl ⟨failure, rfl, rfl⟩
  · exact .inr ⟨base, rfl, rfl⟩

theorem optimize_unknown {o : Optimizer K} {failure : Failure K} (clock : Nat → Clock)
    (unknown : o.initialMu = .error failure) :
    o.optimize clock = (Run.failed o failure).after [.configured o.config] := by
  rw [optimize, unknown]

theorem optimize_costless {o : Optimizer K} {mu : K} {failure : Failure K} (clock : Nat → Clock)
    (initial : o.initialMu = .ok mu) (unknown : o.graph.error o.estimate = .error failure) :
    o.optimize clock = (Run.failed o.evenly failure).after [.configured o.config] := by
  rw [optimize, initial]
  simp only [unknown]
  rfl

/-- What a run does once its first control parameter and its first cost are known. -/
theorem optimize_started {o : Optimizer K} {mu cost : K} (clock : Nat → Clock) (initial : o.initialMu = .ok mu)
    (start : o.graph.error o.estimate = .ok cost) :
    o.optimize clock =
      if o.known.all id then
        (o.evenly.solvePlain (clock 0) mu).after [.configured o.config, .started mu cost, .allKnown]
      else if Scalar.le mu 0 then
        (o.evenly.solvePlain (clock 0) mu).after [.configured o.config, .started mu cost, .allInside mu]
      else (continueFrom clock o.config.maxIterations 0 mu o.evenly).after [.configured o.config, .started mu cost] := by
  rw [optimize, initial]
  simp only [start]
  rfl

/-- A run that enters the outer loop is that loop, from even weights on. -/
theorem optimize_looped {o : Optimizer K} {mu cost : K} (clock : Nat → Clock) (initial : o.initialMu = .ok mu)
    (start : o.graph.error o.estimate = .ok cost) (someFree : o.known.all id = false)
    (positive : Scalar.le mu 0 = false) :
    o.optimize clock = (continueFrom clock o.config.maxIterations 0 mu o.evenly).after
      [.configured o.config, .started mu cost] := by
  rw [optimize_started clock initial start, someFree, positive]
  rfl

/-- What a run is: it fails at its control parameter or at its cost, it is a single solve, or it is the outer loop. -/
inductive Opens (o : Optimizer K) (clock : Nat → Clock) : Run K → Prop
  | unknown {failure : Failure K} (unknown : o.initialMu = .error failure) :
      Opens o clock ((Run.failed o failure).after [.configured o.config])
  | costless {mu : K} {failure : Failure K} (initial : o.initialMu = .ok mu)
      (unknown : o.graph.error o.estimate = .error failure) :
      Opens o clock ((Run.failed o.evenly failure).after [.configured o.config])
  | plain {mu cost : K} {note : Event K} (initial : o.initialMu = .ok mu)
      (start : o.graph.error o.estimate = .ok cost) (early : o.known.all id = true ∨ Scalar.le mu 0 = true)
      (said : note = .allKnown ∨ note = .allInside mu) :
      Opens o clock ((o.evenly.solvePlain (clock 0) mu).after [.configured o.config, .started mu cost, note])
  | looped {mu cost : K} (initial : o.initialMu = .ok mu) (start : o.graph.error o.estimate = .ok cost)
      (someFree : o.known.all id = false) (positive : Scalar.le mu 0 = false) :
      Opens o clock ((continueFrom clock o.config.maxIterations 0 mu o.evenly).after
        [.configured o.config, .started mu cost])

theorem optimize_opens (o : Optimizer K) (clock : Nat → Clock) : o.Opens clock (o.optimize clock) := by
  rcases initial : o.initialMu with failure | mu
  · rw [optimize_unknown clock initial]
    exact .unknown initial
  rcases start : o.graph.error o.estimate with failure | cost
  · rw [optimize_costless clock initial start]
    exact .costless initial start
  rw [optimize_started clock initial start]
  split
  · rename_i allKnown
    exact .plain initial start (.inl allKnown) (.inl rfl)
  · rename_i someFree
    split
    · rename_i inside
      exact .plain initial start (.inr inside) (.inr rfl)
    · rename_i outside
      exact .looped initial start (Bool.eq_false_iff.mpr someFree) (Bool.eq_false_iff.mpr outside)

theorem optimize_begun {o : Optimizer K} {mu cost : K} (clock : Nat → Clock) (initial : o.initialMu = .ok mu)
    (start : o.graph.error o.estimate = .ok cost) (someFree : o.known.all id = false)
    (positive : Scalar.le mu 0 = false) :
    let run := continueFrom clock o.config.maxIterations 0 mu o.evenly
    (o.optimize clock).iterations = run.iterations ∧ (o.optimize clock).optimizer = run.optimizer ∧
      (o.optimize clock).outcome = run.outcome := by
  rw [optimize_looped clock initial start someFree positive]
  exact ⟨by simp [Event.iteration?, List.filterMap_cons], rfl, rfl⟩

/-- A run makes no iteration, or it enters the outer loop with a control parameter that is positive. -/
theorem optimize_cases (o : Optimizer K) (clock : Nat → Clock) :
    ((o.optimize clock).iterations = [] ∧
      ∀ solution, (o.optimize clock).outcome = .ok solution → solution.iterations = 0) ∨
    ∃ mu cost, o.initialMu = .ok mu ∧ o.graph.error o.estimate = .ok cost ∧ o.known.all id = false ∧
      Scalar.le mu 0 = false := by
  have opens := o.optimize_opens clock
  generalize o.optimize clock = run at opens ⊢
  cases opens with
  | unknown initial => exact .inl ⟨rfl, fun solution finished => by cases finished⟩
  | costless initial start => exact .inl ⟨rfl, fun solution finished => by cases finished⟩
  | @plain mu cost note initial start early said =>
      left
      have none : [.configured o.config, .started mu cost, note].filterMap Event.iteration? = [] := by
        rcases said with rfl | rfl <;> rfl
      rcases o.evenly.solvePlain_cases (clock 0) mu with ⟨failure, -, same⟩ | ⟨base, -, same⟩
      · rw [same]
        exact ⟨by simp [none], fun solution finished => by cases finished⟩
      · rw [same]
        refine ⟨by simp [none], fun solution finished => ?_⟩
        obtain rfl := Except.ok.inj finished
        rfl
  | looped initial start someFree positive => exact .inr ⟨_, _, initial, start, someFree, positive⟩

theorem optimize_early_iterations {o : Optimizer K} {mu : K} (clock : Nat → Clock) (initial : o.initialMu = .ok mu)
    (early : o.known.all id = true ∨ Scalar.le mu 0 = true) : (o.optimize clock).iterations = [] := by
  rcases o.optimize_cases clock with ⟨none, -⟩ | ⟨mu', cost, initial', -, someFree, positive⟩
  · exact none
  · obtain rfl := Except.ok.inj (initial.symm.trans initial')
    simp [someFree, positive] at early

theorem optimize_iterated {o : Optimizer K} {clock : Nat → Clock} {solution : Solution K}
    (finished : (o.optimize clock).outcome = .ok solution) (iterated : 1 ≤ solution.iterations) :
    ∃ mu, o.initialMu = .ok mu ∧
      let run := continueFrom clock o.config.maxIterations 0 mu o.evenly
      (o.optimize clock).iterations = run.iterations ∧
        (o.optimize clock).optimizer = run.optimizer ∧ run.outcome = .ok solution := by
  rcases o.optimize_cases clock with ⟨-, plain⟩ | ⟨mu, cost, initial, start, someFree, positive⟩
  · have none := plain solution finished
    omega
  · obtain ⟨iterations, optimizer, outcome⟩ := optimize_begun clock initial start someFree positive
    exact ⟨mu, initial, iterations, optimizer, outcome.symm.trans finished⟩

theorem chain_records {clock : Nat → Clock} {mu : K} {o final : Optimizer K}
    {records : List (Iteration K)} (chain : Chain clock 0 mu o records final) :
    records = (List.range records.length).map (o.courseOf mu records).record := by
  apply List.ext_getElem
  · simp
  · intro i inside _
    have found := List.getElem?_eq_getElem inside
    have iterates := chain_iterates chain found
    have after := stage_after o records i _ found
    have number := iterates.number_eq
    have parameter := iterates.mu_eq
    rw [Nat.zero_add] at number
    simp only [List.getElem_map, List.getElem_range, Course.record, courseOf, after, found,
      moveTo_estimate, moveTo_weights, Option.map_some, Option.getD_some]
    rw [← parameter]
    nth_rewrite 2 [← number]
    rfl

theorem chain_follows {clock : Nat → Clock} {mu : K} {o final : Optimizer K} {left : Nat}
    {records : List (Iteration K)} {solution : Solution K} (initial : o.initialMu = .ok mu)
    (chain : Chain clock 0 mu o.evenly records final)
    (ends : Ends left 0 mu o.evenly records solution) :
    o.Follows clock records.length (o.evenly.courseOf mu records) where
  values_zero := by simp [courseOf, evenly]
  weights_zero := by simp [courseOf, evenly]
  mu_zero := initial
  mu_succ i := muAt_succ o.evenly mu i
  solved i inside := by
    have found := List.getElem?_eq_getElem inside
    have iterates := chain_iterates chain found
    obtain ⟨graph, solution, reweighted, solved, values, cost⟩ := iterates.solved
    rw [stage_reweighted] at reweighted
    rw [stage_config, Nat.zero_add] at solved
    refine ⟨graph, solution, reweighted, solved, ?_, ?_⟩
    · simpa [courseOf, stage_after _ _ _ _ found] using values
    · simpa [courseOf, found] using cost
  weighed i inside := by
    have found := List.getElem?_eq_getElem inside
    have weighed := (chain_iterates chain found).weighed
    rw [stage_weightsAt] at weighed
    simp only [courseOf, stage_after _ _ _ _ found]
    exact weighed
  undecided i before := (ends_unfinished ends before).1
  unmet i before := (ends_unfinished ends before).2

/-- A run that iterates is a continuation from even weights. It ends with the first iteration that meets a test, or at
the limit, and returns the last estimate with the weights found there. -/
theorem optimize_is_continuation (o : Optimizer K) (clock : Nat → Clock) (solution : Solution K)
    (finished : (o.optimize clock).outcome = .ok solution) (iterated : 1 ≤ solution.iterations) :
    ∃ course : Course K,
      let k := solution.iterations
      let saturated := o.weightsSaturated (course.weights k)
      o.Follows clock k course ∧ k ≤ o.config.maxIterations ∧
      (solution.outcome = .converged ↔
        saturated = true ∨ o.muConverged (course.mu k) (course.mu (k - 1)) = true) ∧
      (solution.outcome = .maxIterationsReached → k = o.config.maxIterations) ∧
      solution.values = course.values k ∧ solution.weights = course.weights k ∧
      solution.mu = (if saturated then course.mu (k - 1) else course.mu k) ∧
      o.weightsAt solution.values (course.mu (k - 1)) = .ok solution.weights ∧
      (o.optimize clock).optimizer =
        { o with estimate := solution.values, weights := solution.weights } ∧
      (o.optimize clock).iterations = (List.range k).map course.record := by
  obtain ⟨mu, initial, same, moved, ended⟩ := optimize_iterated finished iterated
  have ends := continueFrom_ends ended
  have chain := continueFrom_chain clock o.config.maxIterations 0 mu o.evenly
  rw [← same] at ends chain
  rw [← moved] at chain
  generalize (o.optimize clock).iterations = records at ends chain ⊢
  obtain ⟨count, bound, full⟩ := ends_count ends
  obtain ⟨values, weights⟩ := ends_state ends
  rw [Nat.zero_add] at count
  -- the test that ends the run is the one after the last record
  obtain ⟨last, length⟩ : ∃ last, records.length = last + 1 := ⟨records.length - 1, by omega⟩
  obtain ⟨outcome, parameter⟩ := ends_outcome ends length
  have follows := chain_follows initial chain ends
  refine ⟨o.evenly.courseOf mu records, ?_⟩
  rw [count]
  refine ⟨follows, bound, ?_, full, values, weights, ?_, ?_, ?_, chain_records chain⟩
  · rw [length]
    exact outcome
  · rw [length]
    exact parameter
  · have weighed := follows.weighed last (by omega)
    rw [values, weights, length]
    exact weighed
  · rw [chain_final chain, stage_frame, ← values, ← weights]
    rfl

/-- An iteration goes where the run of its base solver leads. -/
theorem step_moved {o : Optimizer ℝ} {base : LevenbergMarquardt ℝ} (method : o.config.base = .levenbergMarquardt base)
    {graph : Graph ℝ} (reweighted : o.reweighted o.weights = .ok graph) {clock : Clock}
    {solution : LeastSquares.Solution ℝ} (returned : (base.run clock graph o.estimate none).2.outcome = .ok solution)
    (status : solution.status = .maxIterationsReached) (number : Nat) {mu : ℝ} {weights : Vec ℝ}
    (weighed : o.weightsAt solution.values mu = .ok weights) :
    (o.step clock number mu).2 = .ok ({ o with estimate := solution.values, weights },
      ⟨number, mu, weights, solution.values, solution.finalCost⟩) := by
  have checked : checkSolution solution = .ok solution := by
    simp [checkSolution, status, Status.isFailure]
  have solved : (o.solve clock graph).2 = .ok solution := by
    simp only [solve, method, Method.build, Solver.optimize, returned, Result.ok_bind, checked]
  unfold step
  rw [reweighted]
  simp only [solved, Result.ok_bind, weighed]
  rfl

/-- An iteration on a weighted problem that stands still moves the weights only. -/
theorem step_still {o : Optimizer ℝ} {base : LevenbergMarquardt ℝ} (method : o.config.base = .levenbergMarquardt base)
    (plain : base.useScaling = false) (once : base.maxIterations = 1) (timeless : base.timeout = none)
    (damped : 0 < base.damping) {graph : Graph ℝ} {problem : Problem ℝ}
    (prepared : Problem.prepare graph o.estimate = .ok problem) (still : problem.Still o.estimate)
    (reweighted : o.reweighted o.weights = .ok graph) (clock : Clock) (number : Nat) {mu : ℝ} {weights : Vec ℝ}
    (weighed : o.weightsAt o.estimate mu = .ok weights) :
    ∃ cost, (o.step clock number mu).2 = .ok ({ o with weights }, ⟨number, mu, weights, o.estimate, cost⟩) := by
  obtain ⟨solution, returned, stays, status⟩ :=
    LevenbergMarquardt.run_still plain once timeless damped clock prepared still none
  rw [← stays] at weighed
  refine ⟨solution.finalCost, ?_⟩
  rw [step_moved method reweighted returned status number weighed, stays]

/-- Two priors pull at a variable, and the control parameter is halved in every iteration. -/
noncomputable def halving (x v w : ℝ) : Optimizer ℝ where
  graph := .pulled 1 1
  estimate := .beside x
  config := { Config.ofBase (.levenbergMarquardt .brief) with
    family := .gemanMcClure, muStep := 2.0, maxIterations := 2, weightsTolerance := 0 }
  weights := [v, w]
  known := [false, false]

/-- The weight of a prior by the distance to it. -/
noncomputable def heed (mu distance : ℝ) : ℝ := gemanMcClureWeight (0.5 * (distance * distance)) mu 1

theorem heed_eq {mu : ℝ} (positive : 0 < mu) (distance : ℝ) :
    heed mu distance = (mu / (0.5 * (distance * distance) + mu)) ^ 2 := by
  rw [heed, gemanMcClureWeight_real (by rwa [mul_one]), mul_one]

theorem heed_pos {mu : ℝ} (positive : 0 < mu) (distance : ℝ) : 0 < heed mu distance := by
  have square := mul_self_nonneg distance
  rw [heed_eq positive]
  exact pow_pos (div_pos positive (by linarith)) 2

theorem heed_lt_one {mu distance : ℝ} (positive : 0 < mu) (apart : distance ≠ 0) : heed mu distance < 1 := by
  have square := mul_self_pos.mpr apart
  have fraction : mu / (0.5 * (distance * distance) + mu) < 1 := (div_lt_one (by linarith)).mpr (by linarith)
  rw [heed_eq positive]
  exact pow_lt_one₀ (div_nonneg positive.le (by linarith)) fraction two_ne_zero

section Halving

variable {x v w : ℝ}

theorem halving_errors (y : ℝ) :
    (halving x v w).graph.factorErrors (.beside y) = .ok [0.5 * (y * y), 0.5 * ((y - 1) * (y - 1))] := by
  rw [halving, Graph.pulled_factorErrors]
  simp only [div_one]

theorem halving_weightsAt (y mu : ℝ) :
    (halving x v w).weightsAt (.beside y) mu = .ok [heed mu y, heed mu (y - 1)] := by
  rw [weightsAt, halving_errors]
  simp [checkErrors, Continuation.weights, isKnown, halving, Config.ofBase, Family.weight, heed]

theorem halving_step (number : Nat) (mu : ℝ) (nonneg : 0 ≤ v) (nonneg' : 0 ≤ w) {y : ℝ} (mean : pulledMean v w x = y) :
    ∃ cost, ((halving x v w).step (fun _ => 0) number mu).2 =
      .ok (halving y (heed mu y) (heed mu (y - 1)), ⟨number, mu, [heed mu y, heed mu (y - 1)], .beside y, cost⟩) := by
  have start : (halving x v w).estimate = .beside x := rfl
  have reweighted : (halving x v w).reweighted (halving x v w).weights = .ok (.pulled (1 / √v) (1 / √w)) :=
    Graph.pulled_reweight 1 1 nonneg nonneg'
  obtain ⟨solution, -, returned, -, -, values, status⟩ :=
    LevenbergMarquardt.run_pulled nonneg nonneg' x (fun _ => 0) none
  rw [← start] at returned
  rw [mean] at values
  have weighed : (halving x v w).weightsAt solution.values mu = .ok [heed mu y, heed mu (y - 1)] := by
    rw [values]
    exact halving_weightsAt y mu
  have stepped := step_moved rfl reweighted returned status number weighed
  rw [values] at stepped
  exact ⟨_, stepped⟩

/-- While the control parameter is far from one no test is met. -/
theorem halving_later (left number : Nat) {mu : ℝ} (start : 0 < x) (nonneg : 0 ≤ v) (nonneg' : 0 ≤ w) (far : 4 ≤ mu)
    {y : ℝ} (mean : pulledMean v w x = y) :
    (continueFrom (fun _ _ => 0) (left + 1) number mu (halving x v w)).outcome =
        (continueFrom (fun _ _ => 0) left (number + 1) (mu / 2) (halving y (heed mu y) (heed mu (y - 1)))).outcome ∧
      ∃ cost, (continueFrom (fun _ _ => 0) (left + 1) number mu (halving x v w)).iterations =
        ⟨number, mu, [heed mu y, heed mu (y - 1)], .beside y, cost⟩ ::
          (continueFrom (fun _ _ => 0) left (number + 1) (mu / 2) (halving y (heed mu y) (heed mu (y - 1)))).iterations := by
  obtain ⟨cost, stepped⟩ := halving_step number mu nonneg nonneg' mean
  have positive : 0 < mu := by linarith
  have away : y ≠ 0 := by
    rw [← mean, pulledMean]
    positivity
  have low := heed_pos positive y
  have high := heed_lt_one positive away
  set next := halving y (heed mu y) (heed mu (y - 1)) with moved
  have undecided : next.weightsSaturated next.weights = false := by
    simp [weightsSaturated, saturated, moved, halving, isKnown, nearOne, low.not_ge, high.not_ge]
  have halved : next.nextMu mu = mu / 2 := by
    have larger : 1 ≤ mu / 2 := by linarith
    have same : mu / 2.0 = mu / 2 := by norm_num
    simp [nextMu, moved, halving, Config.ofBase, Family.nextMu, same, larger]
  have unmet : next.muConverged (next.nextMu mu) mu = false := by
    rw [halved]
    have different : mu / 2 ≠ 1 := by linarith
    simp [muConverged, moved, halving, Config.ofBase, Family.muConverged, different]
  rw [continueFrom_later left stepped undecided unmet, halved]
  exact ⟨rfl, cost, by simp⟩

end Halving

/-- Where the second iteration takes the variable from five thirds. -/
noncomputable def halvingEnd : ℝ := pulledMean (heed 16 (5 / 3)) (heed 16 (5 / 3 - 1)) (5 / 3)

theorem halving_optimize : ((halving 4 1 1).optimize fun _ _ => 0).outcome =
      .ok ⟨.beside halvingEnd, [heed 8 halvingEnd, heed 8 (halvingEnd - 1)], 2, .maxIterationsReached, 4⟩ ∧
    ∃ cost cost', ((halving 4 1 1).optimize fun _ _ => 0).iterations =
      [⟨0, 16, [heed 16 (5 / 3), heed 16 (5 / 3 - 1)], .beside (5 / 3), cost⟩,
        ⟨1, 8, [heed 8 halvingEnd, heed 8 (halvingEnd - 1)], .beside halvingEnd, cost'⟩] := by
  have start : (halving 4 1 1).estimate = .beside 4 := rfl
  have initial : (halving 4 1 1).initialMu = .ok 16 := by
    rw [initialMu, start, halving_errors]
    simp [largestError, halving, Config.ofBase, Family.initialMu]
    norm_num
  have cost : (halving 4 1 1).graph.error (.beside 4) = .ok (8 + 9 / 2) := by
    rw [Graph.error, halving_errors]
    norm_num
  have known : (halving 4 1 1).known.all id = false := rfl
  have far : Scalar.le (16 : ℝ) 0 = false := by norm_num
  obtain ⟨iterations, -, outcome⟩ := optimize_begun (fun _ _ => 0) initial cost known far
  have first : pulledMean 1 1 4 = 5 / 3 := by norm_num [pulledMean]
  have positive := heed_pos (show (0 : ℝ) < 16 by norm_num)
  obtain ⟨begun, c, made⟩ := halving_later 1 0 four_pos zero_le_one zero_le_one (show (4 : ℝ) ≤ 16 by norm_num) first
  obtain ⟨ended, c', made'⟩ := halving_later 0 1 (show (0 : ℝ) < 5 / 3 by norm_num) (positive (5 / 3)).le
    (positive (5 / 3 - 1)).le (show (4 : ℝ) ≤ 8 by norm_num) (rfl : _ = halvingEnd)
  have eight : (16 : ℝ) / 2 = 8 := by norm_num
  have four : (8 : ℝ) / 2 = 4 := by norm_num
  rw [eight] at begun made
  rw [four] at ended made'
  exact ⟨outcome.trans (begun.trans ended), c, c', iterations.trans (made.trans (congrArg _ made'))⟩

/-- A run of two iterations, each of which moves the estimate. -/
theorem halving_is_continuation :
    ∃ (solution : Solution ℝ) (course : Course ℝ),
      ((halving 4 1 1).optimize fun _ _ => 0).outcome = .ok solution ∧ 1 ≤ solution.iterations ∧
      (halving 4 1 1).Follows (fun _ _ => 0) solution.iterations course ∧
      course.values 0 = .beside 4 ∧ course.values 1 = .beside (5 / 3) ∧ solution.values = course.values 2 ∧
      solution.weights = course.weights 2 := by
  obtain ⟨finished, cost, cost', made⟩ := halving_optimize
  obtain ⟨course, follows, -, -, -, values, weights, -, -, -, records⟩ :=
    optimize_is_continuation (halving 4 1 1) (fun _ _ => 0) _ finished one_le_two
  have both := made.symm.trans records
  have first : course.values 1 = .beside (5 / 3) := (congrArg Iteration.values (List.cons.inj both).1).symm
  exact ⟨_, course, finished, one_le_two, follows, follows.values_zero, first, values, weights⟩

end Optimizer

end GraduatedFit.Continuation

import GraduatedFit.Proofs.OuterDescent

/-! Which test ends a continuation, and in which iteration. -/

namespace GraduatedFit.Continuation

open LeastSquares

variable {K : Type}

/-- The tests that can end a continuation before its limit. -/
inductive StopTest
  | weights
  | parameter
  deriving DecidableEq

/-- The iteration that an event ends a run in, and by which test. -/
def Event.stop? : Event K → Option (Nat × StopTest)
  | .weightsSaturated iteration => some (iteration, .weights)
  | .muConverged iteration _ => some (iteration, .parameter)
  | _ => none

@[simp]
theorem Event.stop?_iterated (record : Iteration K) : (Event.iterated record).stop? = none := rfl

@[simp]
theorem Event.stop?_weightsSaturated (iteration : Nat) :
    (Event.weightsSaturated iteration : Event K).stop? = some (iteration, .weights) := rfl

@[simp]
theorem Event.stop?_muConverged (iteration : Nat) (mu : K) :
    (Event.muConverged iteration mu).stop? = some (iteration, .parameter) := rfl

/-- The tests that were met in a run. -/
def Run.stops (run : Run K) : List (Nat × StopTest) := run.events.filterMap Event.stop?

/-- A test ends a run in an iteration. -/
def Run.StopsBy (run : Run K) (test : StopTest) (iteration : Nat) : Prop := (iteration, test) ∈ run.stops

@[simp]
theorem Run.stops_after (events : List (Event K)) (run : Run K) :
    (run.after events).stops = events.filterMap Event.stop? ++ run.stops := by
  simp [Run.after, Run.stops]

namespace Optimizer

@[simp]
theorem finish_stops (o : Optimizer K) (outcome : Outcome) (count : Nat) (mu : K) :
    (o.finish outcome count mu).stops = [] := rfl

@[simp]
theorem failed_stops (o : Optimizer K) (failure : Failure K) : (Run.failed o failure).stops = [] := rfl

variable [Scalar K]

@[simp]
theorem solve_stop_free (o : Optimizer K) (clock : Clock) (graph : Graph K) :
    (o.solve clock graph).1.filterMap Event.stop? = [] := by
  unfold solve
  dsimp only
  split <;> rfl

@[simp]
theorem step_stop_free (o : Optimizer K) (clock : Clock) (number : Nat) (mu : K) :
    (o.step clock number mu).1.filterMap Event.stop? = [] := by
  unfold step
  split
  · rfl
  · exact o.solve_stop_free clock _

/-- The test that an iteration meets with the weights that it makes. The weights are tested first. -/
def verdict (o : Optimizer K) (mu : K) (weights : Vec K) : Option StopTest :=
  if o.weightsSaturated weights then some .weights
  else if o.muConverged (o.nextMu mu) mu then some .parameter
  else none

/-- The control parameter that a run reports if a test ends it. -/
def reportedMu (o : Optimizer K) (mu : K) : StopTest → K
  | .weights => mu
  | .parameter => o.nextMu mu

theorem verdict_weights_iff {o : Optimizer K} {mu : K} {weights : Vec K} :
    o.verdict mu weights = some .weights ↔ o.weightsSaturated weights = true := by
  unfold verdict
  cases o.weightsSaturated weights <;> cases o.muConverged (o.nextMu mu) mu <;> simp

theorem verdict_parameter_iff {o : Optimizer K} {mu : K} {weights : Vec K} :
    o.verdict mu weights = some .parameter ↔
      o.weightsSaturated weights = false ∧ o.muConverged (o.nextMu mu) mu = true := by
  unfold verdict
  cases o.weightsSaturated weights <;> cases o.muConverged (o.nextMu mu) mu <;> simp

theorem verdict_none_iff {o : Optimizer K} {mu : K} {weights : Vec K} :
    o.verdict mu weights = none ↔ o.weightsSaturated weights = false ∧ o.muConverged (o.nextMu mu) mu = false := by
  unfold verdict
  cases o.weightsSaturated weights <;> cases o.muConverged (o.nextMu mu) mu <;> simp

section Loop

variable {clock : Nat → Clock} {number : Nat} {mu : K} {o next : Optimizer K} {record : Iteration K}

/-- A test that is met ends the loop. -/
theorem continueFrom_met {test : StopTest} (left : Nat)
    (stepped : (o.step (clock number) number mu).2 = .ok (next, record))
    (met : next.verdict mu next.weights = some test) :
    (continueFrom clock (left + 1) number mu o).outcome =
      .ok ⟨next.estimate, next.weights, number + 1, .converged, next.reportedMu mu test⟩ := by
  cases test with
  | weights =>
      rw [continueFrom_saturated left stepped (verdict_weights_iff.mp met)]
      rfl
  | parameter =>
      obtain ⟨undecided, within⟩ := verdict_parameter_iff.mp met
      rw [continueFrom_muConverged left stepped undecided within]
      rfl

theorem continueFrom_unmet (left : Nat) (stepped : (o.step (clock number) number mu).2 = .ok (next, record))
    (unmet : next.verdict mu next.weights = none) :
    (continueFrom clock (left + 1) number mu o).outcome =
      (continueFrom clock left (number + 1) (next.nextMu mu) next).outcome := by
  obtain ⟨undecided, beyond⟩ := verdict_none_iff.mp unmet
  rw [continueFrom_later left stepped undecided beyond]
  rfl

end Loop

/-- The first iterations of a run meet no test. -/
def Undecided (o : Optimizer K) (mu : K) (records : List (Iteration K)) (count : Nat) : Prop :=
  ∀ i record, i < count → records[i]? = some record → o.verdict (o.muAt mu i) record.weights = none

theorem Undecided.cons {o : Optimizer K} {mu : K} {record : Iteration K} {records : List (Iteration K)} {count : Nat}
    (first : o.verdict mu record.weights = none)
    (later : (o.moveTo record).Undecided (o.nextMu mu) records count) :
    o.Undecided mu (record :: records) (count + 1) := by
  intro i next before present
  cases i with
  | zero =>
      obtain rfl := Option.some.inj present
      exact first
  | succ i => exact later i next (Nat.lt_of_succ_lt_succ before) present

/-- How a loop ends: with the first iteration that meets a test, at its limit, or by a failure. -/
inductive Closes (o : Optimizer K) (left number : Nat) (mu : K) (run : Run K) : Prop
  | stopped {i : Nat} {record : Iteration K} {test : StopTest} (count : run.iterations.length = i + 1)
      (last : run.iterations[i]? = some record) (undecided : o.Undecided mu run.iterations i)
      (met : o.verdict (o.muAt mu i) record.weights = some test) (within : i < left)
      (noted : run.stops = [(number + i, test)])
      (ended : run.outcome = .ok ⟨record.values, record.weights, number + i + 1, .converged,
        o.reportedMu (o.muAt mu i) test⟩)
  | limit {solution : Solution K} (count : run.iterations.length = left)
      (undecided : o.Undecided mu run.iterations left) (noted : run.stops = [])
      (ended : run.outcome = .ok solution) (reached : solution.outcome = .maxIterationsReached)
      (iterations : solution.iterations = number + left)
  | failed {failure : Failure K} (count : run.iterations.length < left)
      (undecided : o.Undecided mu run.iterations run.iterations.length) (noted : run.stops = [])
      (ended : run.outcome = .error failure)

/-- An iteration that meets no test is followed by the rest of the loop. -/
theorem Closes.later {o : Optimizer K} {left number : Nat} {mu : K} {record : Iteration K} {run rest : Run K}
    (first : o.verdict mu record.weights = none)
    (closes : (o.moveTo record).Closes left (number + 1) (o.nextMu mu) rest)
    (iterations : run.iterations = record :: rest.iterations) (stops : run.stops = rest.stops)
    (outcome : run.outcome = rest.outcome) : o.Closes (left + 1) number mu run := by
  have next (i : Nat) : number + 1 + i = number + (i + 1) := by omega
  cases closes with
  | @stopped i last test count present undecided met within noted ended =>
      rw [next] at noted ended
      refine .stopped (i := i + 1) ?_ ?_ ?_ met (Nat.succ_lt_succ within) (stops.trans noted) (outcome.trans ended)
      · rw [iterations, List.length_cons, count]
      · rw [iterations]
        exact present
      · rw [iterations]
        exact undecided.cons first
  | limit count undecided noted ended reached counted =>
      refine .limit ?_ ?_ (stops.trans noted) (outcome.trans ended) reached (counted.trans (next left))
      · rw [iterations, List.length_cons, count]
      · rw [iterations]
        exact undecided.cons first
  | failed count undecided noted ended =>
      refine .failed ?_ ?_ (stops.trans noted) (outcome.trans ended)
      · rw [iterations]
        exact Nat.succ_lt_succ count
      · rw [iterations]
        exact undecided.cons first

theorem continueFrom_closes (clock : Nat → Clock) (left number : Nat) (mu : K) (o : Optimizer K) :
    o.Closes left number mu (continueFrom clock left number mu o) := by
  induction left generalizing number mu o with
  | zero => exact .limit rfl (fun i record before => absurd before i.not_lt_zero) rfl rfl rfl rfl
  | succ left ih =>
      have continues := continueFrom_continues clock left number mu o
      generalize continueFrom clock (left + 1) number mu o = run at continues ⊢
      cases continues with
      | failed unfinished => exact .failed (by simp) (fun i record before => by simp at before) (by simp) rfl
      | @saturated record stepped decided =>
          have only : [Event.iterated record, .weightsSaturated number].filterMap Event.iteration? = [record] := rfl
          have met : o.verdict (o.muAt mu 0) record.weights = some .weights := verdict_weights_iff.mpr decided
          refine .stopped (i := 0) ?_ ?_ (fun i record before => absurd before i.not_lt_zero) met left.succ_pos ?_ rfl
          · simp [only]
          · simp [only]
          · simp [List.filterMap_cons]
      | @muConverged record stepped undecided met =>
          have only : [Event.iterated record, .muConverged number (o.nextMu mu)].filterMap Event.iteration? = [record] :=
            rfl
          have met : o.verdict (o.muAt mu 0) record.weights = some .parameter :=
            verdict_parameter_iff.mpr ⟨undecided, met⟩
          refine .stopped (i := 0) ?_ ?_ (fun i record before => absurd before i.not_lt_zero) met left.succ_pos ?_ rfl
          · simp [only]
          · simp [only]
          · simp [List.filterMap_cons]
      | @later record stepped undecided unmet =>
          have first : o.verdict mu record.weights = none := verdict_none_iff.mpr ⟨undecided, unmet⟩
          exact (ih (number + 1) (o.nextMu mu) (o.moveTo record)).later first (by simp) (by simp) rfl

section Closed

variable {o : Optimizer K} {left number : Nat} {mu : K} {run : Run K} {i : Nat} {record : Iteration K} {test : StopTest}

/-- An iteration that meets a test is the last one, and the run returns what it found. -/
theorem Closes.stops (closes : o.Closes left number mu run) (present : run.iterations[i]? = some record)
    (met : o.verdict (o.muAt mu i) record.weights = some test) :
    run.iterations.length = i + 1 ∧ run.stops = [(number + i, test)] ∧
      run.outcome = .ok ⟨record.values, record.weights, number + i + 1, .converged, o.reportedMu (o.muAt mu i) test⟩ := by
  have inside := (List.getElem?_eq_some_iff.mp present).1
  have decided {count : Nat} (undecided : o.Undecided mu run.iterations count) : ¬i < count := by
    intro before
    rw [undecided i record before present] at met
    cases met
  cases closes with
  | @stopped j last test' count present' undecided met' within noted ended =>
      obtain rfl : i = j := by
        have := decided undecided
        omega
      obtain rfl := Option.some.inj (present'.symm.trans present)
      obtain rfl := Option.some.inj (met'.symm.trans met)
      exact ⟨count, noted, ended⟩
  | limit count undecided noted ended reached counted => exact absurd (count ▸ inside) (decided undecided)
  | failed count undecided noted ended => exact absurd inside (decided undecided)

/-- A test ends a run just where an iteration meets it. -/
theorem Closes.stopsBy_iff (closes : o.Closes left number mu run) :
    run.StopsBy test (number + i) ↔
      ∃ record, run.iterations[i]? = some record ∧ o.verdict (o.muAt mu i) record.weights = some test := by
  constructor
  · intro stopped
    rw [Run.StopsBy] at stopped
    cases closes with
    | @stopped j last test' count present undecided met within noted ended =>
        rw [noted, List.mem_singleton, Prod.mk.injEq] at stopped
        obtain ⟨same, rfl⟩ := stopped
        obtain rfl : i = j := by omega
        exact ⟨last, present, met⟩
    | limit count undecided noted ended reached counted => simp [noted] at stopped
    | failed count undecided noted ended => simp [noted] at stopped
  · rintro ⟨record, present, met⟩
    rw [Run.StopsBy, (closes.stops present met).2.1]
    exact List.mem_singleton.mpr rfl

theorem Closes.stopsBy_from_zero (closes : o.Closes left 0 mu run) :
    run.StopsBy test i ↔
      ∃ record, run.iterations[i]? = some record ∧ o.verdict (o.muAt mu i) record.weights = some test := by
  rw [← closes.stopsBy_iff, Nat.zero_add]

theorem Closes.undecided (closes : o.Closes left number mu run) (present : run.iterations[i]? = some record)
    (unfinished : i + 1 < run.iterations.length ∨ ∃ failure, run.outcome = .error failure) :
    o.verdict (o.muAt mu i) record.weights = none := by
  rcases met : o.verdict (o.muAt mu i) record.weights with _ | test
  · rfl
  · obtain ⟨count, -, ended⟩ := closes.stops present met
    rcases unfinished with more | ⟨failure, failed⟩
    · omega
    · rw [ended] at failed
      cases failed

/-- The limit bounds the iterations that are begun: one that fails is not among the completed ones. -/
theorem Closes.bounded (closes : o.Closes left number mu run) :
    run.iterations.length ≤ left ∧ ∀ failure, run.outcome = .error failure → run.iterations.length < left := by
  cases closes with
  | stopped count last undecided met within noted ended =>
      refine ⟨by omega, fun failure failed => ?_⟩
      rw [ended] at failed
      cases failed
  | limit count undecided noted ended reached counted =>
      refine ⟨count.le, fun failure failed => ?_⟩
      rw [ended] at failed
      cases failed
  | failed count undecided noted ended => exact ⟨count.le, fun _ _ => count⟩

variable {solution : Solution K}

/-- A run that ends well makes an iteration, if it may. -/
theorem Closes.begun (closes : o.Closes left number mu run) (finished : run.outcome = .ok solution) (allowed : left ≠ 0) :
    ∃ first, run.iterations[0]? = some first := by
  have begun : 0 < run.iterations.length := by
    cases closes with
    | stopped count last undecided met within noted ended => omega
    | limit count undecided noted ended reached counted => omega
    | failed count undecided noted ended => cases ended.symm.trans finished
  exact ⟨_, List.getElem?_eq_getElem begun⟩

/-- Where the weights end a run they are saturated. -/
theorem Closes.saturated_of_stopsBy (closes : o.Closes left 0 mu run) (stopped : run.StopsBy .weights i)
    (finished : run.outcome = .ok solution) : o.weightsSaturated solution.weights = true := by
  obtain ⟨record, present, met⟩ := closes.stopsBy_from_zero.mp stopped
  obtain ⟨-, -, ended⟩ := closes.stops present met
  obtain rfl := Except.ok.inj (ended.symm.trans finished)
  exact verdict_weights_iff.mp met

/-- A run that ends well ends by a test that its last iteration meets, or it has made all the iterations that it may
make and none of them meets a test. -/
theorem Closes.finished_cases (closes : o.Closes left number mu run) (finished : run.outcome = .ok solution) :
    (solution.outcome = .converged ∧ ∃ i record test, run.iterations.length = i + 1 ∧ run.iterations[i]? = some record ∧
      o.verdict (o.muAt mu i) record.weights = some test) ∨
    (solution.outcome = .maxIterationsReached ∧ run.iterations.length = left ∧ o.Undecided mu run.iterations left) := by
  cases closes with
  | @stopped i record test count last undecided met within noted ended =>
      obtain rfl := Except.ok.inj (ended.symm.trans finished)
      exact .inl ⟨rfl, i, record, test, count, last, met⟩
  | limit count undecided noted ended reached counted =>
      obtain rfl := Except.ok.inj (ended.symm.trans finished)
      exact .inr ⟨reached, count, undecided⟩
  | failed count undecided noted ended => cases ended.symm.trans finished

end Closed

section Runs

variable {o : Optimizer K} {mu : K}

/-- Errors that give a control parameter add up to a cost. -/
theorem initialMu_cost (initial : o.initialMu = .ok mu) : ∃ cost, o.graph.error o.estimate = .ok cost := by
  obtain ⟨errors, known, -⟩ := Result.bind_ok_iff.mp initial
  exact ⟨_, by rw [Graph.error, known]; rfl⟩

/-- A run with a free slot and a control parameter that is positive is the loop, from even weights on. -/
theorem optimize_closes (clock : Nat → Clock) (initial : o.initialMu = .ok mu) (positive : Scalar.le mu 0 = false)
    (someFree : o.known.all id = false) : o.Closes o.config.maxIterations 0 mu (o.optimize clock) := by
  obtain ⟨cost, start⟩ := initialMu_cost initial
  have closes := continueFrom_closes clock o.config.maxIterations 0 mu o.evenly
  rw [optimize_looped clock initial start someFree positive]
  generalize continueFrom clock o.config.maxIterations 0 mu o.evenly = loop at closes ⊢
  -- what is said before the loop is about neither iterations nor tests, and no test reads the weights that are held
  cases closes with
  | stopped count last undecided met within noted ended => exact .stopped count last undecided met within noted ended
  | limit count undecided noted ended reached counted => exact .limit count undecided noted ended reached counted
  | failed count undecided noted ended => exact .failed count undecided noted ended

/-- A run that completes an iteration has entered the loop. -/
theorem optimize_iterates {clock : Nat → Clock} {i : Nat} {record : Iteration K}
    (present : (o.optimize clock).iterations[i]? = some record) :
    ∃ mu, o.initialMu = .ok mu ∧ Scalar.le mu 0 = false ∧ o.known.all id = false ∧
      (stage o.evenly (o.optimize clock).iterations i).Iterates (clock i) i (o.muAt mu i) record := by
  rcases o.optimize_cases clock with ⟨none, -⟩ | ⟨mu, cost, initial, start, someFree, positive⟩
  · rw [none] at present
    cases present
  · have chain := continueFrom_chain clock o.config.maxIterations 0 mu o.evenly
    rw [← (optimize_begun clock initial start someFree positive).1] at chain
    have iterates := chain_iterates chain present
    rw [Nat.zero_add] at iterates
    exact ⟨mu, initial, positive, someFree, iterates⟩

/-- An iteration weighs the slots at its estimate with its control parameter. -/
theorem optimize_weighed {clock : Nat → Clock} {i : Nat} {record : Iteration K}
    (present : (o.optimize clock).iterations[i]? = some record) :
    o.weightsAt record.values record.mu = .ok record.weights := by
  obtain ⟨mu, -, -, -, iterates⟩ := optimize_iterates present
  have weighed := iterates.weighed
  rwa [stage_weightsAt, ← iterates.mu_eq] at weighed

/-- A result has the estimate and the weights of the last iteration. -/
theorem optimize_final {clock : Nat → Clock} {solution : Solution K} (finished : (o.optimize clock).outcome = .ok solution)
    (iterated : 1 ≤ solution.iterations) : (o.optimize clock).iterations.length = solution.iterations ∧
      ∃ last, (o.optimize clock).iterations[solution.iterations - 1]? = some last ∧ last.values = solution.values ∧
        last.weights = solution.weights := by
  rcases o.optimize_cases clock with ⟨-, plain⟩ | ⟨mu, cost, initial, start, someFree, positive⟩
  · have none := plain solution finished
    omega
  · obtain ⟨same, -, outcome⟩ := optimize_begun clock initial start someFree positive
    have ends := continueFrom_ends (outcome.symm.trans finished)
    rw [← same] at ends
    generalize (o.optimize clock).iterations = records at ends ⊢
    obtain ⟨count, -, -⟩ := ends_count ends
    obtain ⟨values, weights⟩ := ends_state ends
    obtain ⟨i, length⟩ : ∃ i, solution.iterations = i + 1 := ⟨solution.iterations - 1, by omega⟩
    rw [Nat.zero_add, length] at count
    have present : records[i]? = some records[i] := List.getElem?_eq_getElem _
    rw [← count, stage_after _ _ _ _ present] at values weights
    rw [length]
    exact ⟨count.symm, records[i], present, values.symm, weights.symm⟩

end Runs

/-- A factor of error eight that does not depend on its variable, with a threshold of one. -/
noncomputable def lone (family : Family) (step tolerance weight : ℝ) : Optimizer ℝ where
  graph := .single 4 1
  estimate := .single 0
  config := { Config.ofBase (.levenbergMarquardt { LevenbergMarquardt.standard with maxIterations := 1 }) with
    family, muStep := step, costTolerance := tolerance }
  weights := [weight]
  known := [false]

section Lone

variable (family : Family) {step tolerance weight : ℝ}

theorem lone_created (growing : 1 < step) (nonneg : 0 ≤ tolerance) :
    create (.single 4 1) (.single 0) (lone family step tolerance 1).config = .ok (lone family step tolerance 1) := by
  have positive : (0 : ℝ) ≤ 1e-4 := by norm_num
  have valid : (lone family step tolerance 1).config.validate = .ok () :=
    Config.validate_ok_iff.mpr ⟨one_pos, growing, by simp [lone, Config.ofBase], nonneg, positive⟩
  exact create_ok_iff.mpr ⟨valid, List.forall_mem_nil _, rfl⟩

theorem lone_errors (step tolerance weight : ℝ) :
    (lone family step tolerance weight).graph.factorErrors (.single 0) = .ok [8] := by
  rw [lone, Graph.single_factorErrors]
  norm_num

theorem lone_cost (step tolerance weight : ℝ) :
    (lone family step tolerance weight).graph.error (.single 0) = .ok 8 := by
  rw [Graph.error, lone_errors]
  norm_num

theorem lone_initialMu (step tolerance weight : ℝ) :
    (lone family step tolerance weight).initialMu = .ok (family.initialMu 8 1) := by
  have start : (lone family step tolerance weight).estimate = .single 0 := rfl
  rw [initialMu, start, lone_errors]
  simp [largestError, lone, Config.ofBase]

theorem lone_step (number : Nat) (mu : ℝ) (nonneg : 0 ≤ weight) :
    ∃ cost, ((lone family step tolerance weight).step (fun _ => 0) number mu).2 =
      .ok (lone family step tolerance (family.weight 8 mu 1),
        ⟨number, mu, [family.weight 8 mu 1], .single 0, cost⟩) := by
  have damped : (0 : ℝ) < LevenbergMarquardt.standard.damping := by norm_num [LevenbergMarquardt.standard]
  have weighed : (lone family step tolerance weight).weightsAt (.single 0) mu = .ok [family.weight 8 mu 1] := by
    rw [weightsAt, lone_errors]
    simp [checkErrors, Continuation.weights, isKnown, lone, Config.ofBase]
  exact step_still (o := lone family step tolerance weight) rfl rfl rfl rfl damped
    (Problem.prepare_single 4 (1 / √weight) 0) (Problem.single_still 4 (1 / √weight) 0)
    (Graph.single_reweight 4 1 nonneg) (fun _ => 0) number weighed

variable (left number : Nat) {mu : ℝ}

theorem lone_optimize (step tolerance : ℝ) (start : family.initialMu 8 1 = mu) (positive : 0 < mu) :
    ((lone family step tolerance 1).optimize fun _ _ => 0).outcome =
      (continueFrom (fun _ _ => 0) 100 0 mu (lone family step tolerance 1)).outcome := by
  have initial : (lone family step tolerance 1).initialMu = .ok mu := start ▸ lone_initialMu family step tolerance 1
  have outside : Scalar.le mu 0 = false := by simpa using positive
  exact (optimize_begun (fun _ _ => 0) initial (lone_cost family step tolerance 1) rfl outside).2.2

theorem lone_met {test : StopTest} (nonneg : 0 ≤ weight)
    (met : (lone family step tolerance 1).verdict mu [family.weight 8 mu 1] = some test) :
    (continueFrom (fun _ _ => 0) (left + 1) number mu (lone family step tolerance weight)).outcome =
      .ok ⟨.single 0, [family.weight 8 mu 1], number + 1, .converged,
        (lone family step tolerance 1).reportedMu mu test⟩ := by
  obtain ⟨cost, stepped⟩ := lone_step family number mu nonneg
  exact continueFrom_met left stepped met

theorem lone_unmet (nonneg : 0 ≤ weight)
    (unmet : (lone family step tolerance 1).verdict mu [family.weight 8 mu 1] = none) :
    (continueFrom (fun _ _ => 0) (left + 1) number mu (lone family step tolerance weight)).outcome =
      (continueFrom (fun _ _ => 0) left (number + 1) (family.nextMu mu step)
        (lone family step tolerance (family.weight 8 mu 1))).outcome := by
  obtain ⟨cost, stepped⟩ := lone_step family number mu nonneg
  exact continueFrom_unmet left stepped unmet

end Lone

end Optimizer

end GraduatedFit.Continuation

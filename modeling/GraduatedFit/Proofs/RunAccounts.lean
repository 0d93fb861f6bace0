import GraduatedFit.Proofs.NeverUphill
import GraduatedFit.LeastSquares.Solver
import GraduatedFit.Registry

/-! The bookkeeping of a solver run: its loop ends by its own tests, its iterations are counted from zero on and reported
once each, and its result is the last of them. -/

namespace GraduatedFit

/-- A listener hears of every event in order, once for every time that it is registered. -/
theorem Registry.notify_each {ρ ε : Type} (observe : ρ → ε → ρ) (events : List ε) {registry : Registry ρ} {n : Nat}
    {record : ρ} (present : registry.records[n]? = some record) :
    (events.foldl (Registry.notify observe) registry).records[n]? =
      some (events.foldl (fun record event => (observe · event)^[registry.listeners.count n] record) record) := by
  have heard (event : ε) (listeners : List Nat) (records : List ρ) :
      (listeners.foldl (fun records listener => records.modify listener (observe · event)) records)[n]? =
        records[n]?.map (observe · event)^[listeners.count n] := by
    induction listeners generalizing records with
    | nil => simp
    | cons listener listeners ih =>
        rw [List.foldl_cons, ih, List.getElem?_modify, List.count_cons]
        by_cases same : listener = n
        · simp [same, Option.map_map, Function.iterate_succ]
        · simp [same]
  induction events generalizing registry record with
  | nil => exact present
  | cons event events ih =>
      have next : (registry.notify observe event).records[n]? =
          some ((observe · event)^[registry.listeners.count n] record) := by
        rw [Registry.notify, heard, present]
        rfl
      exact ih next

namespace LeastSquares

section Loop

variable {K σ : Type} {scheme : Scheme K σ} {limit : Nat}

/-- The decision after an iteration: a breakdown or the time limit comes first, then the limit on the iterations, then the
tests on what the iteration did. -/
def Scheme.verdict (scheme : Scheme K σ) (limit : Nat) (step : Step K) : Option Status :=
  scheme.interruption step <|>
    (if limit ≤ step.iteration + 1 then some .maxIterationsReached else none) <|> scheme.settlement step

/-- The loop that nothing bounds but its own decisions. -/
inductive Scheme.Loops (scheme : Scheme K σ) (limit : Nat) : σ → History K σ → Prop
  | failed {s s' : σ} {failure : Failure K} (advanced : scheme.advance s = (s', .error failure)) :
      Loops scheme limit s ⟨[], s', .error failure⟩
  | decided {s s' : σ} {step : Step K} {status : Status} (advanced : scheme.advance s = (s', .ok step))
      (verdict : scheme.verdict limit step = some status) : Loops scheme limit s ⟨[step], s', .ok (step, status)⟩
  | undecided {s s' : σ} {step : Step K} {rest : History K σ} (advanced : scheme.advance s = (s', .ok step))
      (verdict : scheme.verdict limit step = none) (later : Loops scheme limit s' rest) :
      Loops scheme limit s { rest with steps := step :: rest.steps }

/-- Every iteration that succeeds is counted. -/
def Scheme.Counts (scheme : Scheme K σ) (count : σ → Nat) : Prop :=
  ∀ s s' step, scheme.advance s = (s', .ok step) → step.iteration = count s ∧ count s' = count s + 1

theorem Scheme.verdict_within {step : Step K} (within : step.iteration + 1 < limit) :
    scheme.verdict limit step = (scheme.interruption step <|> scheme.settlement step) := by
  rw [verdict, if_neg (by omega)]
  cases scheme.interruption step <;> rfl

theorem Scheme.verdict_limit {step : Step K} (last : limit ≤ step.iteration + 1) :
    scheme.verdict limit step = (scheme.interruption step <|> some .maxIterationsReached) := by
  rw [verdict, if_pos last]
  cases scheme.interruption step <;> rfl

/-- From any state the loop ends, and it ends within the iterations that its limit leaves. -/
theorem iterate_loops {count : σ → Nat} (counts : scheme.Counts count) (left : Nat) (start : σ)
    (room : count start + left + 1 = max 1 limit) : scheme.Loops limit start (iterate scheme left start) := by
  induction left generalizing start with
  | zero =>
      rw [iterate]
      rcases advanced : scheme.advance start with ⟨s, failure | step⟩
      · exact .failed advanced
      · have last : limit ≤ step.iteration + 1 := by
          rw [(counts _ _ _ advanced).1]
          omega
        have verdict : scheme.verdict limit step = (scheme.interruption step <|> some .maxIterationsReached) :=
          Scheme.verdict_limit last
        dsimp only
        split
        · rename_i status interrupted
          exact .decided advanced (by rw [verdict, interrupted]; rfl)
        · rename_i uninterrupted
          exact .decided advanced (by rw [verdict, uninterrupted]; rfl)
  | succ left ih =>
      rw [iterate]
      rcases advanced : scheme.advance start with ⟨s, failure | step⟩
      · exact .failed advanced
      · obtain ⟨number, next⟩ := counts _ _ _ advanced
        have verdict : scheme.verdict limit step = (scheme.interruption step <|> scheme.settlement step) :=
          Scheme.verdict_within (by omega)
        dsimp only
        split
        · rename_i status interrupted
          exact .decided advanced (by rw [verdict, interrupted]; rfl)
        · rename_i uninterrupted
          rw [uninterrupted] at verdict
          split
          · rename_i status settled
            exact .decided advanced (by rw [verdict, settled]; rfl)
          · rename_i unsettled
            exact .undecided advanced (by rw [verdict, unsettled]; rfl) (ih s (by omega))

/-- The iterations of a loop are numbered one after the other. -/
theorem Scheme.Loops.numbered {count : σ → Nat} (counts : scheme.Counts count) {start : σ} {history : History K σ}
    (loops : scheme.Loops limit start history) :
    history.steps.map Step.iteration = List.range' (count start) history.steps.length := by
  induction loops with
  | failed advanced => rfl
  | decided advanced verdict => simp [(counts _ _ _ advanced).1]
  | undecided advanced verdict later ih =>
      obtain ⟨number, next⟩ := counts _ _ _ advanced
      rw [List.map_cons, ih, next, number]
      rfl

/-- A loop makes no more iterations than its limit leaves. -/
theorem Scheme.Loops.bounded {count : σ → Nat} (counts : scheme.Counts count) {start : σ} {history : History K σ}
    (loops : scheme.Loops limit start history) : history.steps.length ≤ max 1 (limit - count start) := by
  induction loops with
  | failed advanced => exact Nat.zero_le _
  | decided advanced verdict => exact le_max_left _ _
  | @undecided s s' step rest advanced verdict later ih =>
      obtain ⟨number, next⟩ := counts _ _ _ advanced
      have within : step.iteration + 1 < limit := by
        by_contra past
        rw [Scheme.verdict_limit (not_lt.mp past)] at verdict
        cases interrupted : scheme.interruption step <;> rw [interrupted] at verdict <;> cases verdict
      rw [List.length_cons]
      omega

/-- A loop that ends well ends with its last iteration, by the decision after it. -/
theorem Scheme.Loops.last {start : σ} {history : History K σ} (loops : scheme.Loops limit start history)
    {step : Step K} {status : Status} (ended : history.outcome = .ok (step, status)) :
    history.steps.getLast? = some step ∧ scheme.verdict limit step = some status := by
  induction loops with
  | failed advanced => cases ended
  | decided advanced verdict =>
      obtain ⟨rfl, rfl⟩ := Prod.mk.inj (Except.ok.inj ended)
      exact ⟨rfl, verdict⟩
  | undecided advanced verdict later ih =>
      obtain ⟨last, decision⟩ := ih ended
      rw [List.getLast?_cons, last]
      exact ⟨rfl, decision⟩

/-- A state has one loop. -/
theorem Scheme.Loops.unique {start : σ} {history history' : History K σ} (loops : scheme.Loops limit start history)
    (loops' : scheme.Loops limit start history') : history' = history := by
  induction loops generalizing history' with
  | failed advanced => cases loops' <;> simp_all
  | decided advanced verdict => cases loops' <;> simp_all
  | undecided advanced verdict later ih =>
      cases loops' with
      | failed advanced' => simp_all
      | decided advanced' verdict' => simp_all
      | undecided advanced' verdict' later' =>
          obtain ⟨rfl, same⟩ := Prod.mk.inj (advanced.symm.trans advanced')
          rw [ih later', Except.ok.inj same]

/-- What every iteration preserves holds after a loop that ends well, and its last step was made by the last iteration. -/
theorem Scheme.Loops.final {start : σ} {history : History K σ} (loops : scheme.Loops limit start history)
    {Inv : σ → Prop} (initial : Inv start)
    (preserved : ∀ s s' step, Inv s → scheme.advance s = (s', .ok step) → Inv s')
    {step : Step K} {status : Status} (ended : history.outcome = .ok (step, status)) :
    ∃ s, Inv s ∧ scheme.advance s = (history.final, .ok step) := by
  induction loops with
  | failed advanced => cases ended
  | decided advanced verdict =>
      obtain ⟨rfl, -⟩ := Prod.mk.inj (Except.ok.inj ended)
      exact ⟨_, initial, advanced⟩
  | undecided advanced verdict later ih => exact ih (preserved _ _ _ initial advanced) ended

/-- What an iteration preserves holds before every iteration of a loop, also before one that fails. -/
theorem Scheme.Loops.before_preserved {start : σ} {history : History K σ} (loops : scheme.Loops limit start history)
    {Inv : σ → Prop} (initial : Inv start)
    (preserved : ∀ s s' step, Inv s → scheme.advance s = (s', .ok step) → Inv s') :
    ∀ i ≤ history.steps.length, Inv (scheme.before start i) := by
  induction loops with
  | failed advanced =>
      intro i made
      obtain rfl := Nat.le_zero.mp made
      exact initial
  | decided advanced verdict =>
      intro i made
      cases i with
      | zero => exact initial
      | succ i =>
          obtain rfl := Nat.le_zero.mp (Nat.le_of_succ_le_succ made)
          rw [Scheme.before_succ, Scheme.before_zero, advanced]
          exact preserved _ _ _ initial advanced
  | undecided advanced verdict later ih =>
      intro i made
      cases i with
      | zero => exact initial
      | succ i =>
          rw [← Scheme.before_advance, advanced]
          exact ih (preserved _ _ _ initial advanced) i (Nat.le_of_succ_le_succ made)

/-- What every iteration keeps is reported by every step of a loop. -/
theorem Scheme.Loops.always {start : σ} {history : History K σ} (loops : scheme.Loops limit start history)
    {Inv : σ → Prop} {Reports : Step K → Prop} (initial : Inv start)
    (preserved : ∀ s s' step, Inv s → scheme.advance s = (s', .ok step) → Inv s' ∧ Reports step) :
    ∀ step ∈ history.steps, Reports step := by
  induction loops with
  | failed advanced =>
      intro step member
      cases member
  | decided advanced verdict =>
      intro step member
      obtain rfl := List.mem_singleton.mp member
      exact (preserved _ _ _ initial advanced).2
  | undecided advanced verdict later ih =>
      obtain ⟨next, reported⟩ := preserved _ _ _ initial advanced
      intro step member
      rcases List.mem_cons.mp member with rfl | member
      · exact reported
      · exact ih next step member

end Loop

section Accounts

variable {K σ : Type} [Scalar K]

/-- The books of a run that has made the iterations of its counter: every one of them linearized once and evaluated the
cost once, after the evaluation at the start, and the cost carried on is that of the estimate. -/
structure State.Balanced (problem : Problem K) (s : State K) : Prop where
  cost : problem.cost s.values = .ok s.cost
  costEvaluations : s.costEvaluations = s.iteration + 1
  jacobianEvaluations : s.jacobianEvaluations = s.iteration

/-- What an iteration reports is what it leaves. -/
structure State.Reports (before after : State K) (step : Step K) : Prop where
  number : step.iteration = before.iteration
  next : after.iteration = before.iteration + 1
  values : after.values = step.values
  cost : after.cost = step.cost

theorem State.start_balanced {problem : Problem K} {initial : Values K} {cost : K}
    (known : problem.cost initial = .ok cost) : (State.start initial cost).Balanced problem := ⟨known, rfl, rfl⟩

/-- A scheme whose iterations keep the books, and whose tests do not speak of the limit on the iterations. -/
structure Scheme.KeepsBooks (scheme : Scheme K σ) (problem : Problem K) (state : σ → State K) : Prop where
  reports : ∀ s s' step, scheme.advance s = (s', .ok step) → (state s).Reports (state s') step
  balanced : ∀ s s' step, (state s).Balanced problem → scheme.advance s = (s', .ok step) →
    (state s').Balanced problem
  interruption_ne : ∀ step, scheme.interruption step ≠ some .maxIterationsReached
  settlement_ne : ∀ step, scheme.settlement step ≠ some .maxIterationsReached

/-- The accounts of a result: as many iterations as were reported, and the result of the last one. -/
structure Run.Accounts (run : Run K) (graph : Graph K) (initial : Values K) (limit : Nat) (solution : Solution K) :
    Prop where
  iterations_eq : solution.iterations = run.steps.length
  iterated : 1 ≤ solution.iterations
  within : solution.iterations ≤ max 1 limit
  jacobianEvaluations_eq : solution.info.jacobianEvaluations = solution.iterations
  costEvaluations_eq : solution.info.costEvaluations = solution.iterations + 1
  last : ∃ step, run.steps.getLast? = some step ∧ step.values = solution.values ∧ step.cost = solution.finalCost ∧
    step.gradientNorm = solution.info.gradientNorm ∧ step.stepNorm = solution.info.stepNorm
  initialCost_eq : graph.error initial = .ok solution.initialCost
  finalCost_eq : graph.error solution.values = .ok solution.finalCost
  full : solution.status = .maxIterationsReached → solution.iterations = max 1 limit

variable {scheme : Scheme K σ} {problem : Problem K} {state : σ → State K}

theorem Scheme.KeepsBooks.counts (keeps : scheme.KeepsBooks problem state) :
    scheme.Counts fun s => (state s).iteration := by
  intro s s' step advanced
  have reports := keeps.reports s s' step advanced
  exact ⟨reports.number, reports.next⟩

/-- Only the limit on the iterations ends a run with its status. -/
theorem Scheme.KeepsBooks.verdict_full (keeps : scheme.KeepsBooks problem state) {limit : Nat} {step : Step K}
    (full : scheme.verdict limit step = some .maxIterationsReached) : limit ≤ step.iteration + 1 := by
  by_contra within
  rw [Scheme.verdict_within (not_le.mp within)] at full
  cases interrupted : scheme.interruption step with
  | some status =>
      rw [interrupted] at full
      exact keeps.interruption_ne step (interrupted.trans full)
  | none =>
      rw [interrupted] at full
      exact keeps.settlement_ne step full

/-- The accounts of a loop that ends well. -/
theorem Scheme.KeepsBooks.accounts (keeps : scheme.KeepsBooks problem state) {initial : Values K} {cost : K}
    (known : problem.cost initial = .ok cost) {start : σ} (fresh : state start = .start initial cost) {limit : Nat}
    {history : History K σ} (loops : scheme.Loops limit start history) {run : Run K} (steps : run.steps = history.steps)
    {step : Step K} {status : Status} (ended : history.outcome = .ok (step, status)) :
    run.Accounts problem.graph initial limit (solution cost (state history.final) step status) := by
  have numbered := loops.numbered keeps.counts
  have bounded := loops.bounded keeps.counts
  obtain ⟨last, verdict⟩ := loops.last ended
  have balanced : (state start).Balanced problem := fresh ▸ State.start_balanced known
  obtain ⟨s, before, advanced⟩ := loops.final balanced keeps.balanced ended
  have after := keeps.balanced _ _ _ before advanced
  have reports := keeps.reports _ _ _ advanced
  have zero : (state start).iteration = 0 := by rw [fresh]; rfl
  rw [zero] at numbered bounded
  -- the number of the last iteration is one less than that of the iterations
  have number : step.iteration + 1 = history.steps.length := by
    have same := congrArg List.getLast? numbered
    rw [List.getLast?_map, last, List.getLast?_range'] at same
    split at same
    · cases same
    · have := Option.some.inj same
      omega
  refine ⟨number.trans (congrArg _ steps.symm), Nat.le_add_left 1 _, ?_, ?_, ?_,
    ⟨step, steps ▸ last, rfl, rfl, rfl, rfl⟩, known, ?_, ?_⟩
  · have room : history.steps.length ≤ max 1 limit := bounded
    exact number.trans_le room
  · exact after.jacobianEvaluations.trans (reports.next.trans (congrArg (· + 1) reports.number.symm))
  · exact after.costEvaluations.trans (congrArg (· + 1) (reports.next.trans (congrArg (· + 1) reports.number.symm)))
  · have final := after.cost
    rwa [reports.values, reports.cost] at final
  · rintro rfl
    have full := keeps.verdict_full verdict
    have room : history.steps.length ≤ max 1 limit := bounded
    show step.iteration + 1 = max 1 limit
    omega

end Accounts

section Tests

variable {K : Type} [Scalar K]

theorem Criteria.interruption_ne (criteria : Criteria K) (elapsed : Nanoseconds) (step : Step K) :
    criteria.interruption elapsed step ≠ some .maxIterationsReached := by
  unfold interruption
  split
  · simp
  · split
    · split <;> simp
    · simp

theorem Criteria.gradientTest_ne (criteria : Criteria K) (step : Step K) :
    criteria.gradientTest step ≠ some .maxIterationsReached := by
  unfold gradientTest
  split <;> simp

theorem Criteria.progressTest_ne (criteria : Criteria K) (step : Step K) :
    criteria.progressTest step ≠ some .maxIterationsReached := by
  unfold progressTest
  split
  · simp
  · split
    · simp
    · split
      · split <;> simp
      · simp

theorem orElse_ne {α : Type} {a : α} {x y : Option α} (left : x ≠ some a) (right : y ≠ some a) :
    (x <|> y) ≠ some a := by
  cases x with
  | none => exact right
  | some b => exact left

end Tests

namespace GaussNewton

variable {K : Type} [Scalar K] {config : GaussNewton K} {problem : Problem K}

/-- Only the scaling changes before the system of an iteration is solved. -/
theorem updateScaling_frame (useScaling : Bool) (J : SparseMat K) (s : State K) :
    ∃ scaling, s.updateScaling useScaling J = { s with scaling } := by
  unfold State.updateScaling
  split
  · exact ⟨_, rfl⟩
  · exact ⟨s.scaling, rfl⟩

/-- An iteration that succeeds solves its system and takes the step. -/
theorem advance_ok_iff {s s' : State K} {step : Step K} : config.advance problem s = (s', .ok step) ↔
    ∃ r J d, problem.linearize s.values = .ok (r, J) ∧
      let rescaled := { s.updateScaling config.useScaling J with jacobianEvaluations := s.jacobianEvaluations + 1 }
      config.direction r J rescaled = .ok d ∧ take problem d rescaled = .ok (s', step) := by
  constructor
  · intro advanced
    unfold advance at advanced
    split at advanced
    · cases advanced
    · rename_i r J linear
      dsimp only at advanced
      split at advanced
      · cases advanced
      · rename_i moved step' done
        obtain ⟨rfl, same⟩ := Prod.mk.inj advanced
        obtain rfl := Except.ok.inj same
        obtain ⟨d, solved, taken⟩ := Result.bind_ok_iff.mp done
        exact ⟨r, J, d, linear, solved, taken⟩
  · rintro ⟨r, J, d, linear, solved, taken⟩
    rw [advance, linear]
    dsimp only
    rw [solved, Result.ok_bind, taken]

/-- Every step is taken, and its cost is that of the estimate it leads to. -/
theorem take_ok {d : Direction K} {s s' : State K} {step : Step K} (taken : take problem d s = .ok (s', step)) :
    s.Reports s' step ∧ problem.cost s'.values = .ok s'.cost ∧ s'.costEvaluations = s.costEvaluations + 1 ∧
      s'.jacobianEvaluations = s.jacobianEvaluations := by
  simp only [take, Result.bind_ok_iff] at taken
  obtain ⟨values, -, cost, known, done⟩ := taken
  obtain ⟨rfl, rfl⟩ := Prod.mk.inj (Except.ok.inj done)
  exact ⟨⟨rfl, rfl, rfl, rfl⟩, known, rfl, rfl⟩

theorem scheme_keepsBooks (config : GaussNewton K) (clock : Clock) (problem : Problem K) :
    (config.scheme clock problem).KeepsBooks problem id where
  reports s s' step advanced := by
    obtain ⟨r, J, d, -, -, taken⟩ := advance_ok_iff.mp advanced
    obtain ⟨scaling, frame⟩ := updateScaling_frame config.useScaling J s
    rw [frame] at taken
    obtain ⟨reports, -⟩ := take_ok taken
    exact ⟨reports.number, reports.next, reports.values, reports.cost⟩
  balanced s s' step balanced advanced := by
    obtain ⟨r, J, d, -, -, taken⟩ := advance_ok_iff.mp advanced
    obtain ⟨scaling, frame⟩ := updateScaling_frame config.useScaling J s
    rw [frame] at taken
    obtain ⟨reports, cost, costs, jacobians⟩ := take_ok taken
    have next : s'.iteration = s.iteration + 1 := reports.next
    have costs : s'.costEvaluations = s.costEvaluations + 1 := costs
    have jacobians : s'.jacobianEvaluations = s.jacobianEvaluations + 1 := jacobians
    exact ⟨cost, costs.trans ((congrArg (· + 1) balanced.costEvaluations).trans (congrArg (· + 1) next.symm)),
      jacobians.trans ((congrArg (· + 1) balanced.jacobianEvaluations).trans next.symm)⟩
  interruption_ne step := config.interruption_ne _ step
  settlement_ne step := orElse_ne (config.gradientTest_ne step) (config.progressTest_ne step)

end GaussNewton

namespace LevenbergMarquardt

variable {K : Type} [Scalar K] {config : LevenbergMarquardt K} {problem : Problem K}

/-- An attempt counts whether or not its step is taken. -/
theorem attempt_counts {d : Direction K} {s s' : DampedState K} {step : Step K}
    (attempted : config.attempt problem d s = .ok (s', step)) :
    s.toState.Reports s'.toState step ∧ s'.costEvaluations = s.costEvaluations + 1 ∧
      s'.jacobianEvaluations = s.jacobianEvaluations := by
  simp only [attempt, Result.bind_ok_iff] at attempted
  obtain ⟨tried, -, newCost, -, done⟩ := attempted
  obtain ⟨rfl, rfl⟩ := Prod.mk.inj (Except.ok.inj done)
  exact ⟨⟨rfl, rfl, rfl, rfl⟩, rfl, rfl⟩

/-- A step that is not taken leaves the estimate with the cost that it had. -/
theorem Attempted.cost_known {d : Direction K} {s s' : DampedState K} {step : Step K} {tried : Values K} {newCost : K}
    (attempted : config.Attempted d s s' step tried newCost) (before : problem.cost s.values = .ok s.cost)
    (candidate : problem.cost tried = .ok newCost) : problem.cost s'.values = .ok s'.cost := by
  rw [attempted.state_values, attempted.state_cost, attempted.values_eq, attempted.cost_eq]
  cases step.accepted with
  | true => exact candidate
  | false => exact before

theorem scheme_keepsBooks (config : LevenbergMarquardt K) (clock : Clock) (problem : Problem K) :
    (config.scheme clock problem).KeepsBooks problem DampedState.toState where
  reports s s' step advanced := by
    obtain ⟨r, J, d, -, -, attempted⟩ := advance_ok_iff.mp advanced
    obtain ⟨scaling, -, frame⟩ := config.rescaled_eq J s
    rw [frame] at attempted
    obtain ⟨reports, -⟩ := attempt_counts attempted
    exact ⟨reports.number, reports.next, reports.values, reports.cost⟩
  balanced s s' step balanced advanced := by
    obtain ⟨r, J, d, -, -, attempted⟩ := advance_ok_iff.mp advanced
    obtain ⟨scaling, -, frame⟩ := config.rescaled_eq J s
    rw [frame] at attempted
    obtain ⟨reports, costs, jacobians⟩ := attempt_counts attempted
    obtain ⟨tried, newCost, -, candidate, outcome⟩ := attempt_ok attempted
    have next : s'.iteration = s.iteration + 1 := reports.next
    refine ⟨outcome.cost_known balanced.cost candidate, ?_, ?_⟩
    · exact costs.trans (by rw [next, ← balanced.costEvaluations])
    · exact jacobians.trans (by rw [next, ← balanced.jacobianEvaluations])
  interruption_ne step := config.interruption_ne _ step
  settlement_ne step := by
    refine orElse_ne (config.gradientTest_ne step) (orElse_ne ?_ ?_)
    · unfold radiusTest
      split
      · split <;> simp
      · simp
    · split
      · exact config.progressTest_ne step
      · simp

end LevenbergMarquardt

section Methods

variable {K : Type} [Scalar K]

/-- The tests that both methods have. -/
def Method.criteria : Method K → Criteria K
  | gaussNewton config => config.toCriteria
  | levenbergMarquardt config => config.toCriteria

/-- What the loop of a method makes of a problem, bounded by nothing but its own decisions. -/
inductive Method.Loops (clock : Clock) (problem : Problem K) (initial : Values K) (cost : K) : Method K → Run K → Prop
  | gaussNewton {config : GaussNewton K} {history : History K (State K)}
      (loops : (config.scheme clock problem).Loops config.maxIterations (.start initial cost) history) :
      Loops clock problem initial cost (.gaussNewton config) ⟨true, history.steps,
        history.outcome.map fun (step, status) => solution cost history.final step status⟩
  | levenbergMarquardt {config : LevenbergMarquardt K} {history : History K (DampedState K)}
      (loops : (config.scheme clock problem).Loops config.maxIterations
        ⟨.start initial cost, ⟨config.damping, config.dampingNu⟩⟩ history) :
      Loops clock problem initial cost (.levenbergMarquardt config) ⟨true, history.steps,
        history.outcome.map fun (step, status) => solution cost history.final.toState step status⟩

variable {clock : Clock} {graph : Graph K} {initial : Values K} {solver : Solver K}

/-- A run fails before its first iteration, or it is that of the loop. -/
theorem Solver.optimize_cases (solver : Solver K) (clock : Clock) (graph : Graph K) (initial : Values K) :
    (∃ failure, (solver.optimize clock graph initial).2 = ⟨false, [], .error failure⟩ ∧
      ∀ problem cost, Problem.prepare graph initial = .ok problem → graph.error initial ≠ .ok cost) ∨
    ∃ problem cost, Problem.prepare graph initial = .ok problem ∧ graph.error initial = .ok cost ∧
      solver.method.Loops clock problem initial cost (solver.optimize clock graph initial).2 := by
  obtain ⟨method, scaling⟩ := solver
  rcases begun : (do
    let problem ← Problem.prepare graph initial
    return (problem, ← problem.cost initial)) with failure | ⟨problem, cost⟩
  · refine .inl ⟨failure, ?_, ?_⟩
    · cases method with
      | gaussNewton config => simp only [optimize, GaussNewton.run, begun]
      | levenbergMarquardt config => simp only [optimize, LevenbergMarquardt.run, begun]
    · intro problem cost prepared known
      rw [prepared, Result.ok_bind, Problem.cost, (Problem.prepare_ok prepared).1, known] at begun
      cases begun
  · refine .inr ⟨problem, cost, ?_⟩
    obtain ⟨_, prepared, rest⟩ := Result.bind_ok_iff.mp begun
    obtain ⟨_, known, done⟩ := Result.bind_ok_iff.mp rest
    obtain ⟨rfl, rfl⟩ := Prod.mk.inj (Except.ok.inj done)
    rw [Problem.cost, (Problem.prepare_ok prepared).1] at known
    refine ⟨prepared, known, ?_⟩
    have room (limit : Nat) : 0 + (limit - 1) + 1 = max 1 limit := by omega
    cases method with
    | gaussNewton config =>
        simp only [optimize, GaussNewton.run, begun]
        exact .gaussNewton (iterate_loops (config.scheme_keepsBooks clock _).counts _ _ (room _))
    | levenbergMarquardt config =>
        simp only [optimize, LevenbergMarquardt.run, begun]
        exact .levenbergMarquardt (iterate_loops (config.scheme_keepsBooks clock _).counts _ _ (room _))

/-- A run that can be prepared, at an estimate that has a cost, is that of the loop. -/
theorem Solver.optimize_loops {problem : Problem K} {cost : K} (solver : Solver K) (clock : Clock)
    (prepared : Problem.prepare graph initial = .ok problem) (known : graph.error initial = .ok cost) :
    solver.method.Loops clock problem initial cost (solver.optimize clock graph initial).2 := by
  rcases solver.optimize_cases clock graph initial with ⟨failure, failed, none⟩ | ⟨_, _, prepared', known', loops⟩
  · exact absurd known (none problem cost prepared)
  · obtain rfl := Except.ok.inj (prepared.symm.trans prepared')
    obtain rfl := Except.ok.inj (known.symm.trans known')
    exact loops

section Books

variable {problem : Problem K} {cost : K} {method : Method K} {run : Run K}

/-- Each method has a scheme that keeps the books, and its runs are those of that scheme's loop. -/
theorem Method.Loops.books (loops : method.Loops clock problem initial cost run) :
    ∃ (σ : Type) (scheme : Scheme K σ) (state : σ → State K) (start : σ) (history : History K σ),
      scheme.KeepsBooks problem state ∧ state start = .start initial cost ∧
      scheme.Loops method.criteria.maxIterations start history ∧ run.steps = history.steps ∧
      run.outcome = history.outcome.map fun (step, status) => solution cost (state history.final) step status := by
  cases loops with
  | gaussNewton loops => exact ⟨_, _, _, _, _, GaussNewton.scheme_keepsBooks _ _ _, rfl, loops, rfl, rfl⟩
  | levenbergMarquardt loops =>
      exact ⟨_, _, _, _, _, LevenbergMarquardt.scheme_keepsBooks _ _ _, rfl, loops, rfl, rfl⟩

theorem Method.Loops.unique {run' : Run K} (loops : method.Loops clock problem initial cost run)
    (loops' : method.Loops clock problem initial cost run') : run' = run := by
  cases loops with
  | gaussNewton loops =>
      cases loops' with
      | gaussNewton loops' => rw [loops.unique loops']
  | levenbergMarquardt loops =>
      cases loops' with
      | levenbergMarquardt loops' => rw [loops.unique loops']

theorem Method.Loops.bounded (loops : method.Loops clock problem initial cost run) :
    run.steps.length ≤ max 1 method.criteria.maxIterations := by
  obtain ⟨σ, scheme, state, start, history, keeps, fresh, loops, steps, -⟩ := loops.books
  have bounded := loops.bounded keeps.counts
  rw [fresh] at bounded
  exact steps ▸ bounded

theorem Method.Loops.numbered (loops : method.Loops clock problem initial cost run) :
    run.steps.map Step.iteration = List.range run.steps.length := by
  obtain ⟨σ, scheme, state, start, history, keeps, fresh, loops, steps, -⟩ := loops.books
  have numbered := loops.numbered keeps.counts
  rw [fresh] at numbered
  rw [steps, numbered, List.range_eq_range']
  rfl

theorem Method.Loops.accounts (loops : method.Loops clock problem initial cost run)
    (known : problem.cost initial = .ok cost) {solution : Solution K} (returned : run.outcome = .ok solution) :
    run.Accounts problem.graph initial method.criteria.maxIterations solution := by
  obtain ⟨σ, scheme, state, start, history, keeps, fresh, loops, steps, outcome⟩ := loops.books
  obtain ⟨⟨step, status⟩, ended, rfl⟩ := Result.except_map_ok_iff.mp (outcome.symm.trans returned)
  exact keeps.accounts known fresh loops steps ended

end Books

/-- The accounts of every run that returns a result. -/
theorem Solver.optimize_ok {solution : Solution K}
    (returned : (solver.optimize clock graph initial).2.outcome = .ok solution) :
    (solver.optimize clock graph initial).2.Accounts graph initial solver.method.criteria.maxIterations solution := by
  rcases solver.optimize_cases clock graph initial with ⟨failure, failed, -⟩ | ⟨problem, cost, prepared, known, loops⟩
  · rw [failed] at returned
    cases returned
  · have accounts := loops.accounts (by rwa [Problem.cost, (Problem.prepare_ok prepared).1]) returned
    rwa [(Problem.prepare_ok prepared).1] at accounts

/-- A run is that of a loop that ends by its own decisions, in no more iterations than its limit. The iterations are
numbered from zero, every listener hears of each of them, and a result has its accounts. -/
theorem Solver.optimize_accounts (solver : Solver K) (clock : Clock) (graph : Graph K) (initial : Values K) :
    let run := (solver.optimize clock graph initial).2
    let limit := solver.method.criteria.maxIterations
    (∀ problem cost, Problem.prepare graph initial = .ok problem → graph.error initial = .ok cost →
      ∀ run', solver.method.Loops clock problem initial cost run' ↔ run' = run) ∧
    run.steps.length ≤ max 1 limit ∧
    run.steps.map Step.iteration = List.range run.steps.length ∧
    (∀ (ρ : Type) (observe : ρ → Step K → ρ) (registry : Registry ρ) (n : Nat) (record : ρ),
      registry.records[n]? = some record →
      (run.steps.foldl (Registry.notify observe) registry).records[n]? =
        some (run.steps.foldl (fun record step => (observe · step)^[registry.listeners.count n] record) record)) ∧
    ∀ solution, run.outcome = .ok solution → run.Accounts graph initial limit solution := by
  intro run limit
  refine ⟨?_, ?_, ?_, fun ρ observe registry n record => Registry.notify_each observe run.steps,
    fun solution => optimize_ok⟩
  all_goals
    rcases solver.optimize_cases clock graph initial with ⟨failure, failed, none⟩ | ⟨problem, cost, prepared, known, loops⟩
  · exact fun problem cost prepared known => absurd known (none problem cost prepared)
  · intro problem' cost' prepared' known' run'
    obtain rfl := Except.ok.inj (prepared.symm.trans prepared')
    obtain rfl := Except.ok.inj (known.symm.trans known')
    exact ⟨loops.unique, fun same => same ▸ loops⟩
  · simp [run, failed]
  · exact loops.bounded
  · simp [run, failed]
  · exact loops.numbered

/-- The accounts of a run whose only step moves the variable from four to five thirds. -/
theorem Solver.pulled_optimize_accounts :
    let run := ((Method.levenbergMarquardt .brief).build.optimize (fun _ => 0) (.pulled 1 1) (.beside 4)).2
    ∃ solution step, run.outcome = .ok solution ∧ run.steps = [step] ∧ step.accepted = true ∧ step.iteration = 0 ∧
      solution.values = .beside (5 / 3) ∧ solution.iterations = 1 ∧ solution.info.costEvaluations = 2 ∧
      solution.info.jacobianEvaluations = 1 := by
  intro run
  obtain ⟨solution, step, returned, steps, accepted, values⟩ :=
    LevenbergMarquardt.run_evenly 4 (fun _ => 0) none
  obtain ⟨-, -, numbered, -, accounts⟩ := optimize_accounts (Method.levenbergMarquardt .brief).build
    (fun _ => 0) (.pulled 1 1) (.beside 4)
  have alone : run.steps = [step] := steps
  have books := accounts solution returned
  have once : solution.iterations = 1 := by rw [books.iterations_eq, alone, List.length_singleton]
  have number : step.iteration = 0 := by
    rw [alone] at numbered
    exact (List.cons.inj numbered).1
  refine ⟨solution, step, returned, steps, ?_, number, ?_, once, ?_, ?_⟩
  · rw [accepted]
    norm_num
  · rw [values]
    norm_num
  · rw [books.costEvaluations_eq, once]
  · rw [books.jacobianEvaluations_eq, once]

end Methods

end LeastSquares

end GraduatedFit

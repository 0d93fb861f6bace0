import GraduatedFit.Proofs.ContinuationRun
import GraduatedFit.Proofs.NeverUphill
import GraduatedFit.Proofs.Surrogate
import GraduatedFit.Proofs.WeightedGraph

/-! No iteration of a continuation raises the surrogate cost that its weights stand for. -/

namespace GraduatedFit

/-- Half a squared norm. -/
theorem GraphFactor.error_nonneg {f : GraphFactor ℝ} (plain : f.noise.isRobust = false) {values : Values ℝ} {e : ℝ}
    (known : f.error values = .ok e) : 0 ≤ e := by
  obtain ⟨residual, -, whitened⟩ := Result.bind_ok_iff.mp known
  rw [Result.ofShape_ok_iff, Noise.error_plain plain, Option.map_eq_some_iff] at whitened
  obtain ⟨r, -, rfl⟩ := whitened
  have square := Vec.normSq_nonneg r
  positivity

namespace Graph

theorem errors_nonneg {graph : Graph ℝ} (plain : graph.hasRobustFactors = false) {values : Values ℝ} {errors : List ℝ}
    (known : graph.factorErrors values = .ok errors) : ∀ e ∈ errors, 0 ≤ e := by
  intro e member
  obtain ⟨f, present, found⟩ := Result.mapM_mem known member
  exact f.error_nonneg (hasRobustFactors_false_iff.mp plain f present) found

/-- There is an error for each slot. -/
theorem errors_length {K : Type} [Scalar K] {graph : Graph K} {values : Values K} {errors : List K}
    (known : graph.stripRobustLosses.factorErrors values = .ok errors) : errors.length = graph.size := by
  have related := (Result.mapM_ok_iff.mp known).length_eq
  simpa [stripRobustLosses, size] using related.symm

/-- A graph that has been reweighted has no robust losses. -/
theorem Reweights.base_plain {K : Type} [Scalar K] {weights : Vec K} {graph g : Graph K}
    (reweights : Reweights weights graph.factors g.factors) : graph.hasRobustFactors = false := by
  rw [hasRobustFactors_false_iff]
  intro f member
  obtain ⟨slot, present⟩ := List.mem_iff_getElem?.mp member
  exact (GraphFactor.refusal_none_iff.mp (reweights.admits slot f present)).2

theorem Reweights.errors_nonneg {weights : Vec ℝ} {graph g : Graph ℝ}
    (reweights : Reweights weights graph.factors g.factors) {values : Values ℝ} {errors : List ℝ}
    (known : graph.factorErrors values = .ok errors) : ∀ e ∈ errors, 0 ≤ e :=
  Graph.errors_nonneg reweights.base_plain known

end Graph

namespace Continuation

open LeastSquares

/-- The control parameter stays positive. -/
theorem Family.nextMu_pos (family : Family) {mu step : ℝ} (positive : 0 < mu) (growing : 1 < step) :
    0 < family.nextMu mu step := by
  cases family with
  | gemanMcClure =>
      rw [nextMu, Scalar.max_real]
      exact lt_max_of_lt_right one_pos
  | truncatedLeastSquares => exact mul_pos positive (one_pos.trans growing)

theorem Config.validate_ok_iff {config : Config ℝ} : config.validate = .ok () ↔
    0 < config.threshold ∧ 1 < config.muStep ∧ config.maxIterations ≠ 0 ∧ 0 ≤ config.costTolerance ∧
      0 ≤ config.weightsTolerance := by
  have refused (fault : ConfigFault ℝ) :
      (Result.failContinuation (.invalidConfig fault) : Result ℝ Unit) ≠ .ok () := fun valid => by cases valid
  simp only [validate, Scalar.positive_real, Scalar.finite_real, Scalar.lt_real, Scalar.nonNegative_real,
    Bool.true_and, Bool.not_eq_true', decide_eq_false_iff_not]
  split_ifs <;> simp [*]

theorem Config.validate_real {config : Config ℝ} (valid : config.validate = .ok ()) :
    0 < config.threshold ∧ 1 < config.muStep := by
  obtain ⟨threshold, growing, -⟩ := validate_ok_iff.mp valid
  exact ⟨threshold, growing⟩

namespace Optimizer

section States

variable {K : Type} [Scalar K]

omit [Scalar K] in
theorem checkKnown_ok_iff {size : Nat} {slots : List Nat} :
    (checkKnown size slots : Result K Unit) = .ok () ↔ ∀ slot ∈ slots, slot < size := by
  unfold checkKnown
  split
  · rename_i slot outside
    refine iff_of_false (fun failed => by cases failed) fun inside => ?_
    have beyond : size ≤ slot := by simpa using List.find?_some outside
    exact beyond.not_gt (inside slot (List.mem_of_find?_eq_some outside))
  · rename_i none
    exact iff_of_true rfl fun slot member => by simpa using List.find?_eq_none.mp none slot member

/-- A new optimizer has a valid configuration that trusts slots of the graph, and even weights. -/
theorem create_ok_iff {graph : Graph K} {initial : Values K} {config : Config K} {o : Optimizer K} :
    create graph initial config = .ok o ↔ config.validate = .ok () ∧
      (∀ slot ∈ config.knownInliers, slot < graph.size) ∧
      o = { graph := graph.stripRobustLosses, estimate := initial, config, weights := List.replicate graph.size 1,
            known := (List.range graph.size).map config.knownInliers.contains } := by
  rw [← checkKnown_ok_iff (K := K)]
  constructor
  · intro made
    obtain ⟨_, valid, rest⟩ := Result.bind_ok_iff.mp made
    obtain ⟨_, inside, done⟩ := Result.bind_ok_iff.mp rest
    exact ⟨valid, inside, (Except.ok.inj done).symm⟩
  · rintro ⟨valid, inside, rfl⟩
    rw [create, valid, Result.ok_bind, inside]
    rfl

/-- What a new optimizer becomes by runs, however they end. -/
inductive Reachable (graph : Graph K) (initial : Values K) (config : Config K) : Optimizer K → Prop
  | created {o : Optimizer K} (made : create graph initial config = .ok o) : Reachable graph initial config o
  | optimized {o : Optimizer K} (before : Reachable graph initial config o) (clock : Nat → Clock) :
      Reachable graph initial config (o.optimize clock).optimizer

/-- What no run changes. -/
structure BuiltFrom (graph : Graph K) (config : Config K) (o : Optimizer K) : Prop where
  graph_eq : o.graph = graph.stripRobustLosses
  config_eq : o.config = config
  known_eq : o.known = (List.range graph.size).map config.knownInliers.contains
  valid : config.validate = .ok ()

theorem continueFrom_frame (clock : Nat → Clock) (left number : Nat) (mu : K) (o : Optimizer K) :
    ∃ estimate weights, (continueFrom clock left number mu o).optimizer = { o with estimate, weights } := by
  have final := chain_final (continueFrom_chain clock left number mu o)
  rw [stage_frame] at final
  exact ⟨_, _, final⟩

/-- A run moves the estimate and the weights only. -/
theorem optimize_frame (o : Optimizer K) (clock : Nat → Clock) :
    ∃ estimate weights, (o.optimize clock).optimizer = { o with estimate, weights } := by
  have opens := o.optimize_opens clock
  generalize o.optimize clock = run at opens ⊢
  cases opens with
  | unknown initial => exact ⟨o.estimate, o.weights, rfl⟩
  | costless initial start => exact ⟨o.estimate, _, rfl⟩
  | plain initial start early said =>
      rcases o.evenly.solvePlain_cases (clock 0) _ with ⟨failure, -, same⟩ | ⟨base, -, same⟩ <;> rw [same]
      · exact ⟨o.estimate, _, rfl⟩
      · exact ⟨base.values, _, rfl⟩
  | looped initial start someFree positive => exact continueFrom_frame clock _ 0 _ o.evenly

theorem Reachable.builtFrom {graph : Graph K} {initial : Values K} {config : Config K} {o : Optimizer K}
    (reachable : Reachable graph initial config o) : BuiltFrom graph config o := by
  induction reachable with
  | created made =>
      obtain ⟨valid, -, rfl⟩ := create_ok_iff.mp made
      exact ⟨rfl, rfl, rfl, valid⟩
  | @optimized o before clock ih =>
      obtain ⟨estimate, weights, moved⟩ := o.optimize_frame clock
      rw [moved]
      exact ⟨ih.graph_eq, ih.config_eq, ih.known_eq, ih.valid⟩

theorem Reachable.known_inside {graph : Graph K} {initial : Values K} {config : Config K} {o : Optimizer K}
    (reachable : Reachable graph initial config o) : ∀ slot ∈ config.knownInliers, slot < graph.size := by
  induction reachable with
  | created made => exact (create_ok_iff.mp made).2.1
  | optimized before clock ih => exact ih

theorem BuiltFrom.size_eq {graph : Graph K} {config : Config K} {o : Optimizer K} (built : BuiltFrom graph config o) :
    o.graph.size = graph.size := by
  rw [built.graph_eq, Graph.stripRobustLosses, Graph.size, List.length_map, Graph.size]

/-- The known slots are those that the configuration trusts. -/
theorem BuiltFrom.isKnown_eq {graph : Graph K} {config : Config K} {o : Optimizer K} (built : BuiltFrom graph config o)
    {slot : Nat} (inside : slot < graph.size) : o.isKnown slot = config.knownInliers.contains slot := by
  rw [isKnown, built.known_eq]
  simp [List.getD_eq_getElem?_getD, inside]

/-- The weights of an iteration, in terms of the graph and the configuration. -/
theorem BuiltFrom.weights_eq {graph : Graph K} {config : Config K} {o : Optimizer K} (built : BuiltFrom graph config o)
    {values : Values K} {mu : K} {weights : Vec K} (weighed : o.weightsAt values mu = .ok weights) :
    ∃ errors, graph.stripRobustLosses.factorErrors values = .ok errors ∧
      weights = Continuation.weights config.family errors mu config.threshold config.knownInliers.contains := by
  obtain ⟨errors, known, rest⟩ := Result.bind_ok_iff.mp weighed
  obtain ⟨_, -, done⟩ := Result.bind_ok_iff.mp rest
  obtain rfl := Except.ok.inj done
  rw [built.graph_eq] at known
  refine ⟨errors, known, ?_⟩
  have count : graph.size = errors.length := (Graph.errors_length known).symm
  rw [built.config_eq, Continuation.weights, Continuation.weights]
  apply List.ext_getElem
  · simp
  · intro slot inside _
    have bound : slot < errors.length := by simpa using inside
    simp only [List.getElem_mapIdx, built.isKnown_eq (count ▸ bound)]

end States

theorem muAt_pos {o : Optimizer ℝ} {mu : ℝ} (positive : 0 < mu) (growing : 1 < o.config.muStep) (i : Nat) :
    0 < o.muAt mu i := by
  induction i with
  | zero => exact positive
  | succ i ih =>
      rw [muAt_succ]
      exact o.config.family.nextMu_pos ih growing

/-- An iteration whose weights come from a control parameter lowers the surrogate cost of that parameter. -/
theorem iterates_descends {o : Optimizer ℝ} {clock : Clock} {number : Nat} {mu mu' threshold : ℝ}
    {record : Iteration ℝ} {base : LevenbergMarquardt ℝ} {family : Family} {trusted : Nat → Bool} {errors : List ℝ}
    (iterates : o.Iterates clock number mu' record) (damped : o.config.base = .levenbergMarquardt base)
    (damping : 0 < base.damping) (upper : 0 < base.dampingMax) (nu : 0 < base.dampingNu)
    (known : o.graph.factorErrors o.estimate = .ok errors)
    (weighted : o.weights = Continuation.weights family errors mu threshold trusted) (positive : 0 < mu * threshold) :
    ∃ errors' g solution, o.graph.factorErrors record.values = .ok errors' ∧
      o.graph.reweight o.weights = .ok g ∧ (base.run clock g o.estimate none).2.outcome = .ok solution ∧
      solution.values = record.values ∧
      surrogateCost family (mu * threshold) trusted errors' ≤ surrogateCost family (mu * threshold) trusted errors := by
  obtain ⟨g, solution, reweighted, solved, values, -⟩ := iterates.solved
  rw [damped] at solved
  have reweights := Graph.reweights_of_ok reweighted
  obtain ⟨start, final, descent⟩ := LevenbergMarquardt.run_descends damping upper nu solved
  have initialSum := reweights.error_eq o.estimate
  have finalSum := reweights.error_eq solution.values
  rw [start, known] at initialSum
  rw [final] at finalSum
  obtain ⟨errors', known', sum⟩ := Result.map_ok_iff.mp finalSum.symm
  have initialCost : solution.initialCost = (List.zipWith (· * ·) o.weights errors).sum := Except.ok.inj initialSum
  refine ⟨errors', g, solution, ?_, reweighted, solved, values.symm, ?_⟩
  · rw [values]
    exact known'
  · have count : errors'.length = errors.length :=
      (Result.mapM_ok_iff.mp known').length_eq.symm.trans (Result.mapM_ok_iff.mp known).length_eq
    -- the weighted sum of the errors is the tangent of the surrogate cost at the old errors
    have tangent := surrogateCost_tangent family positive trusted count
      (reweights.errors_nonneg known) (reweights.errors_nonneg known')
    dsimp only at tangent
    rw [← weighted, sum, ← initialCost] at tangent
    linarith

/-- No iteration after the first raises the surrogate cost at the control parameter of the weights it solves with. -/
theorem optimize_descends {graph : Graph ℝ} {initial : Values ℝ} {config : Config ℝ} {base : LevenbergMarquardt ℝ}
    {o : Optimizer ℝ} (reachable : Reachable graph initial config o) (clock : Nat → Clock)
    (damped : config.base = .levenbergMarquardt base)
    (damping : 0 < base.damping) (upper : 0 < base.dampingMax) (nu : 0 < base.dampingNu)
    {i : Nat} {record next : Iteration ℝ} (before : (o.optimize clock).iterations[i]? = some record)
    (after : (o.optimize clock).iterations[i + 1]? = some next) :
    let trusted := config.knownInliers.contains
    ∃ errors errors', graph.stripRobustLosses.factorErrors record.values = .ok errors ∧
      graph.stripRobustLosses.factorErrors next.values = .ok errors' ∧
      record.weights = Continuation.weights config.family errors record.mu config.threshold trusted ∧
      (∃ g solution, graph.stripRobustLosses.reweight record.weights = .ok g ∧
        (base.run (clock (i + 1)) g record.values none).2.outcome = .ok solution ∧
        solution.values = next.values) ∧
      0 < record.mu ∧ 0 < config.threshold ∧
      surrogateCost config.family (record.mu * config.threshold) trusted errors' ≤
        surrogateCost config.family (record.mu * config.threshold) trusted errors := by
  have built := reachable.builtFrom
  obtain ⟨threshold, growing⟩ := Config.validate_real built.valid
  rcases o.optimize_cases clock with ⟨none, -⟩ | ⟨mu, cost, parameter, start, someFree, positive⟩
  · rw [none] at before
    cases before
  · have chain := continueFrom_chain clock o.config.maxIterations 0 mu o.evenly
    rw [← (optimize_begun clock parameter start someFree positive).1] at chain
    have first := chain_iterates chain before
    have second := chain_iterates chain after
    rw [stage_after _ _ _ _ before, Nat.zero_add] at second
    -- the later iteration solves with the weights that the earlier one found at its estimate
    have weighed := first.weighed
    rw [stage_weightsAt, ← first.mu_eq] at weighed
    have built' : BuiltFrom graph config o.evenly := ⟨built.graph_eq, built.config_eq, built.known_eq, built.valid⟩
    obtain ⟨errors, known, weights⟩ := built'.weights_eq weighed
    have low : 0 < record.mu := by
      rw [first.mu_eq]
      refine muAt_pos (by simpa using positive) ?_ i
      rw [built'.config_eq]
      exact growing
    have known' : (o.evenly.moveTo record).graph.factorErrors (o.evenly.moveTo record).estimate = .ok errors := by
      rw [← built.graph_eq] at known
      exact known
    obtain ⟨errors', g, solution, found, reweighted, solved, values, descent⟩ :=
      iterates_descends second (built'.config_eq ▸ damped) damping upper nu known' weights (mul_pos low threshold)
    refine ⟨errors, errors', known, ?_, weights, ⟨g, solution, ?_, solved, values⟩, low, threshold, descent⟩
    · rw [← built.graph_eq]
      exact found
    · rw [← built.graph_eq]
      exact reweighted

theorem halving_created : create (.pulled 1 1) (.beside 4) (halving 4 1 1).config = .ok (halving 4 1 1) := by
  have valid : (halving 4 1 1).config.validate = .ok () :=
    Config.validate_ok_iff.mpr (by norm_num [halving, Config.ofBase])
  exact create_ok_iff.mpr ⟨valid, List.forall_mem_nil _, rfl⟩

/-- The second iteration starts at five thirds and moves on. -/
theorem halving_descends :
    let run := (halving 4 1 1).optimize fun _ _ => 0
    let surrogate := surrogateCost .gemanMcClure (16 * 1) (halving 4 1 1).config.knownInliers.contains
    ∃ record next errors errors', Reachable (.pulled 1 1) (.beside 4) (halving 4 1 1).config (halving 4 1 1) ∧
      run.iterations[0]? = some record ∧ run.iterations[1]? = some next ∧
      record.values = .beside (5 / 3) ∧ next.values = .beside halvingEnd ∧
      (Graph.pulled 1 1).factorErrors (.beside (5 / 3)) = .ok errors ∧
      (Graph.pulled 1 1).factorErrors (.beside halvingEnd) = .ok errors' ∧
      surrogate errors' ≤ surrogate errors := by
  intro run surrogate
  have reachable : Reachable (.pulled 1 1) (.beside 4) (halving 4 1 1).config (halving 4 1 1) :=
    .created halving_created
  obtain ⟨-, cost, cost', made⟩ := halving_optimize
  have before := congrArg (·[0]?) made
  have after := congrArg (·[1]?) made
  obtain ⟨damping, upper, nu⟩ := LevenbergMarquardt.brief_positive
  obtain ⟨errors, errors', known, known', -, -, -, -, descent⟩ :=
    optimize_descends reachable (fun _ _ => 0) rfl damping upper nu before after
  exact ⟨_, _, errors, errors', reachable, before, after, rfl, rfl, known, known', descent⟩

end Optimizer

end Continuation

end GraduatedFit

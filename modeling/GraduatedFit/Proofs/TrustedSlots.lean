import GraduatedFit.Proofs.FiniteStates

/-! A continuation that trusts every slot is a single solve, once it has a control parameter to begin with. -/

namespace GraduatedFit.Continuation

open Extended LeastSquares

section Schedule

/-- The largest of finite errors is a number. -/
theorem largestError_finite {errors : List Extended} (finite : ∀ e ∈ errors, Scalar.finite e = true) :
    ∃ x, largestError errors = number x := by
  obtain ⟨xs, rfl⟩ := all_numbers finite
  suffices ∀ start : ℝ, ∃ x, (xs.map number).foldl
      (fun largest e => if Scalar.isNaN e || Scalar.lt largest e then e else largest) (number start) = number x from
    this 0
  clear finite
  induction xs with
  | nil => exact fun start => ⟨start, rfl⟩
  | cons x xs ih =>
      intro start
      rw [List.map_cons, List.foldl_cons]
      split
      · exact ih x
      · exact ih start

/-- The largest error is on the edge of the inlier region, where the schedule of truncated losses has a pole. -/
def Family.AtPole (family : Family) (maxError threshold : Extended) : Prop :=
  family = .truncatedLeastSquares ∧ 2.0 * maxError = threshold

theorem Family.initialMu_pole {family : Family} {x threshold : ℝ} (pole : family.AtPole (number x) (number threshold))
    (positive : 0 < threshold) : family.initialMu (number x) (number threshold) = infinite false := by
  obtain ⟨rfl, edge⟩ := pole
  have zero : 2.0 * number x - number threshold = number 0 := by
    rw [edge, number_sub, sub_self]
  rw [initialMu, zero]
  show Extended.div _ _ = _
  simp [Extended.div, positive.ne', positive.le]

theorem Family.initialMu_regular {family : Family} {x threshold : ℝ}
    (regular : ¬family.AtPole (number x) (number threshold)) (positive : 0 < threshold) :
    Scalar.finite (family.initialMu (number x) (number threshold)) = true := by
  cases family with
  | gemanMcClure =>
      rw [initialMu, number_ofScientific, number_mul, number_div _ positive.ne']
      rfl
  | truncatedLeastSquares =>
      rw [AtPole, number_ofScientific, number_mul] at regular
      have apart : 2.0 * x - threshold ≠ 0 := fun zero =>
        regular ⟨rfl, congrArg number (sub_eq_zero.mp zero)⟩
      rw [initialMu, number_ofScientific, number_mul, number_sub, number_div _ apart]
      rfl

end Schedule

namespace Optimizer

section Solves

variable {K : Type} [Scalar K] {o : Optimizer K}

theorem checkSolution_ok_iff {solution checked : LeastSquares.Solution K} :
    checkSolution solution = .ok checked ↔ checked = solution ∧ Sound solution := by
  refine ⟨checkSolution_sound, ?_⟩
  rintro ⟨rfl, finite, unbroken⟩
  simp [checkSolution, Status.isFailure, finite, unbroken]

theorem solve_ok_iff {clock : Clock} {graph : Graph K} {base : LeastSquares.Solution K} :
    (o.solve clock graph).2 = .ok base ↔
      (o.config.base.build.optimize clock graph o.estimate).2.outcome = .ok base ∧ Sound base := by
  refine ⟨solve_sound, ?_⟩
  rintro ⟨returned, sound⟩
  exact Result.bind_ok_iff.mpr ⟨base, returned, checkSolution_ok_iff.mpr ⟨rfl, sound⟩⟩

theorem solvePlain_ok_iff {clock : Clock} {mu : K} {solution : Solution K} :
    (o.solvePlain clock mu).outcome = .ok solution ↔
      ∃ base, (o.solve clock o.graph).2 = .ok base ∧ solution = ⟨base.values, o.weights, 0, .converged, mu⟩ := by
  rcases o.solvePlain_cases clock mu with ⟨failure, failed, same⟩ | ⟨base, solved, same⟩
  · rw [same, failed]
    refine iff_of_false (fun finished => by cases finished) ?_
    rintro ⟨base, solved, -⟩
    cases solved
  · rw [same, solved]
    constructor
    · intro finished
      exact ⟨base, rfl, (Except.ok.inj finished).symm⟩
    · rintro ⟨_, same, rfl⟩
      obtain rfl := Except.ok.inj same
      rfl

/-- Where nothing is left to reweight a run returns what a sound solve returns, with even weights. -/
theorem optimize_trusted {mu cost : K} (initial : o.initialMu = .ok mu) (start : o.graph.error o.estimate = .ok cost)
    (trusted : o.known.all id = true) (clock : Nat → Clock) (solution : Solution K) :
    (o.optimize clock).outcome = .ok solution ↔
      ∃ base, (o.config.base.build.optimize (clock 0) o.graph o.estimate).2.outcome = .ok base ∧ Sound base ∧
        solution = ⟨base.values, List.replicate o.graph.size 1, 0, .converged, mu⟩ := by
  rw [optimize_started clock initial start, if_pos trusted, Run.outcome_after, solvePlain_ok_iff]
  simp only [solve_ok_iff, and_assoc]
  rfl

theorem BuiltFrom.trusted {graph : Graph K} {config : Config K} (built : BuiltFrom graph config o)
    (trusted : ∀ slot < graph.size, slot ∈ config.knownInliers) : o.known.all id = true := by
  rw [built.known_eq, List.all_map, List.all_eq_true]
  intro slot member
  simpa using trusted slot (List.mem_range.mp member)

end Solves

variable {o : Optimizer Extended} {errors : List Extended}

/-- Finite errors have a first control parameter, and at the pole they have none. -/
theorem initialMu_cases {threshold : ℝ} (above : 0 < threshold) (given : o.config.threshold = number threshold)
    (evaluated : o.graph.factorErrors o.estimate = .ok errors) (finite : ∀ e ∈ errors, Scalar.finite e = true) :
    (o.config.family.AtPole (largestError errors) o.config.threshold →
      o.initialMu = .failContinuation (.degenerateMu (infinite false) (largestError errors) o.config.threshold)) ∧
    (¬o.config.family.AtPole (largestError errors) o.config.threshold → ∃ mu, o.initialMu = .ok mu) := by
  obtain ⟨x, largest⟩ := largestError_finite finite
  rw [initialMu, evaluated, Result.ok_bind, given, largest]
  dsimp only
  refine ⟨fun pole => ?_, fun regular => ?_⟩
  · rw [Family.initialMu_pole pole above]
    rfl
  · exact ⟨o.config.family.initialMu (number x) (number threshold), by
      simp [Family.initialMu_regular regular above]⟩

/-- Where every slot is trusted and every error is finite a run is a single solve: it returns what that solve returns if
it is sound, with the weights that it began with. At the pole of the schedule it is refused. -/
theorem trusted_single_solve {graph : Graph Extended} {initial : Values Extended} {config : Config Extended}
    (reachable : Reachable graph initial config o) (trusted : ∀ slot < graph.size, slot ∈ config.knownInliers)
    (evaluated : graph.stripRobustLosses.factorErrors o.estimate = .ok errors)
    (finite : ∀ e ∈ errors, Scalar.finite e = true) (clock : Nat → Clock) :
    let plain := (config.base.build.optimize (clock 0) graph.stripRobustLosses o.estimate).2
    let run := o.optimize clock
    (¬config.family.AtPole (largestError errors) config.threshold →
      ((∃ solution, run.outcome = .ok solution) ↔ ∃ base, plain.outcome = .ok base ∧ Sound base) ∧
      ∀ solution, run.outcome = .ok solution → ∃ base, plain.outcome = .ok base ∧ Sound base ∧
        solution.values = base.values ∧ solution.weights = List.replicate graph.size 1 ∧ solution.iterations = 0 ∧
        solution.outcome = .converged) ∧
    (config.family.AtPole (largestError errors) config.threshold →
      run.outcome = .failContinuation (.degenerateMu (infinite false) (largestError errors) config.threshold)) := by
  have built := reachable.builtFrom
  obtain ⟨⟨threshold, above, given⟩, -⟩ := Config.validate_extended built.valid
  have known := built.trusted trusted
  have size := built.size_eq
  rw [← built.graph_eq] at evaluated ⊢
  rw [← built.config_eq] at given ⊢
  obtain ⟨refused, begun⟩ := initialMu_cases above given evaluated finite
  refine ⟨fun regular => ?_, fun pole => ?_⟩
  · obtain ⟨mu, initially⟩ := begun regular
    have start : o.graph.error o.estimate = .ok (errors.foldl (· + ·) (-0)) := by
      rw [Graph.error, evaluated]
      rfl
    have returns := optimize_trusted initially start known clock
    rw [size] at returns
    refine ⟨⟨?_, ?_⟩, fun solution finished => ?_⟩
    · rintro ⟨solution, finished⟩
      obtain ⟨base, returned, sound, -⟩ := (returns solution).mp finished
      exact ⟨base, returned, sound⟩
    · rintro ⟨base, returned, sound⟩
      exact ⟨_, (returns _).mpr ⟨base, returned, sound, rfl⟩⟩
    · obtain ⟨base, returned, sound, rfl⟩ := (returns solution).mp finished
      exact ⟨base, returned, sound, rfl, rfl, rfl, rfl⟩
  · rw [optimize_unknown clock (refused pole)]
    rfl

theorem guarded_single_solve :
    let base := (guarded.config.base.build.optimize (fun _ => 0) guardedGraph.stripRobustLosses (guardedValues 0)).2
    ¬guarded.config.family.AtPole (largestError [number 8]) guarded.config.threshold ∧
      ∃ solution plain, (guarded.optimize fun _ _ => 0).outcome = .ok solution ∧ base.outcome = .ok plain ∧
        Sound plain ∧ solution.values = plain.values ∧ solution.weights = [1] := by
  have reachable : Reachable guardedGraph (guardedValues 0) guarded.config guarded := .created guarded_created
  have trusted : ∀ slot < guardedGraph.size, slot ∈ guarded.config.knownInliers := by
    intro slot inside
    obtain rfl : slot = 0 := Nat.lt_one_iff.mp inside
    exact .head _
  have regular : ¬guarded.config.family.AtPole (largestError [number 8]) guarded.config.threshold := by
    rintro ⟨other, -⟩
    cases other
  obtain ⟨plain, -⟩ := trusted_single_solve reachable trusted guardedGraph_errors (by simp) fun _ _ => 0
  obtain ⟨-, returns⟩ := plain regular
  obtain ⟨solution, finished⟩ := guarded_optimize
  obtain ⟨base, returned, sound, values, weights, -⟩ := returns solution finished
  exact ⟨regular, solution, base, finished, returned, sound, values, weights⟩

/-- The optimizer of the same slot with truncated losses, twice its error being the threshold. -/
noncomputable def guardedAtPole : Optimizer Extended :=
  { guarded with config := { guarded.config with family := .truncatedLeastSquares, threshold := number 16.0 } }

/-- A single solve that ends in order, of a graph whose only slot is trusted and has a finite error, is refused. -/
theorem guardedAtPole_refused :
    create guardedGraph (guardedValues 0) guardedAtPole.config = .ok guardedAtPole ∧
    guardedAtPole.config.knownInliers = List.range guardedGraph.size ∧
    guardedAtPole.graph.factorErrors guardedAtPole.estimate = .ok [number 8] ∧
    (∃ base, (guardedAtPole.config.base.build.optimize (fun _ => 0) guardedAtPole.graph
      guardedAtPole.estimate).2.outcome = .ok base ∧ Sound base) ∧
    ¬∃ solution, (guardedAtPole.optimize fun _ _ => 0).outcome = .ok solution := by
  have valid : guardedAtPole.config.validate = .ok () := by
    simp [Config.validate, guardedAtPole, guarded, Config.ofBase, Scalar.positive, Scalar.nonNegative, number_zero,
      number_one, number_ofScientific]
    norm_num
  have inside : (checkKnown guardedGraph.size guardedAtPole.config.knownInliers : Result Extended Unit) = .ok () := rfl
  have errors : guardedAtPole.graph.factorErrors guardedAtPole.estimate = .ok [number 8] := guardedGraph_errors
  refine ⟨?_, rfl, errors, ?_, ?_⟩
  · rw [create, valid, Result.ok_bind, inside]
    rfl
  · obtain ⟨base, returned, -, checked⟩ := guardedBase_run
    exact ⟨base, returned, (checkSolution_ok_iff.mp checked).2⟩
  · have largest : largestError [number 8] = number 8 := by
      simp [largestError, number_zero]
    have pole : guardedAtPole.config.family.AtPole (largestError [number 8]) guardedAtPole.config.threshold := by
      refine ⟨rfl, ?_⟩
      rw [largest, number_ofScientific, number_mul]
      exact congrArg number (by norm_num)
    have sixteen : (0 : ℝ) < 16.0 := by norm_num
    obtain ⟨refused, -⟩ := initialMu_cases sixteen rfl errors (by simp)
    rw [optimize_unknown _ (refused pole)]
    rintro ⟨solution, finished⟩
    cases finished

end Optimizer

end GraduatedFit.Continuation

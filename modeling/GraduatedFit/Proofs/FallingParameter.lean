import GraduatedFit.Proofs.ControlParameter
import GraduatedFit.Proofs.StoppingTests

/-! With Geman-McClure losses the schedule itself ends a continuation: when the control parameter is one. -/

namespace GraduatedFit.Continuation.Optimizer

open LeastSquares

section Loop

variable {o : Optimizer ℝ} {left : Nat} {mu : ℝ} {run : Run ℝ} {n i : Nat} {record : Iteration ℝ}
  (closes : o.Closes left 0 mu run) (falling : o.config.family = .gemanMcClure)
  (schedule : FallsToOne (o.muAt mu) o.config.muStep n)

section Tests

include falling schedule

/-- The test of the control parameter is met when the next one is one. -/
theorem muConverged_at_iff : o.muConverged (o.nextMu (o.muAt mu i)) (o.muAt mu i) = true ↔ n ≤ i + 1 := by
  rw [muConverged_gemanMcClure_iff falling, ← muAt_succ, schedule.eq_one_iff (Nat.le_add_left 1 i)]

theorem before_of_undecided (undecided : o.verdict (o.muAt mu i) record.weights = none) : i + 1 < n := by
  obtain ⟨-, unmet⟩ := verdict_none_iff.mp undecided
  by_contra reached
  rw [(muConverged_at_iff falling schedule).mpr (not_lt.mp reached)] at unmet
  cases unmet

end Tests

include closes falling schedule

theorem before_of_unfinished (inside : i < run.iterations.length)
    (unfinished : i + 1 < run.iterations.length ∨ ∃ failure, run.outcome = .error failure) : i + 1 < n :=
  before_of_undecided falling schedule (closes.undecided (List.getElem?_eq_getElem inside) unfinished)

theorem iterations_le (least : 1 ≤ n) : run.iterations.length ≤ n := by
  by_contra beyond
  have before := before_of_unfinished closes falling schedule (i := n - 1) (by omega) (.inl (by omega))
  omega

/-- The iteration that fails comes before the one that the schedule would end with. -/
theorem iterations_lt {failure : Failure ℝ} (failed : run.outcome = .error failure) (least : 1 ≤ n) :
    run.iterations.length < n := by
  by_contra beyond
  have before := before_of_unfinished closes falling schedule (i := n - 1) (by omega) (.inr ⟨failure, failed⟩)
  omega

theorem parameter_above (least : 1 ≤ n) (later : 1 ≤ i) (present : run.iterations[i]? = some record) :
    o.muAt mu i = mu / o.config.muStep ^ i ∧ 1 < o.muAt mu i := by
  have inside := (List.getElem?_eq_some_iff.mp present).1
  have bound := iterations_le closes falling schedule least
  exact schedule.above i later (by omega)

theorem limit_iff (allowed : left ≠ 0) {solution : Solution ℝ} (finished : run.outcome = .ok solution) :
    solution.outcome = .maxIterationsReached ↔
      left < n ∧ ∀ record ∈ run.iterations, o.weightsSaturated record.weights = false := by
  rcases closes.finished_cases finished with ⟨converged, j, last, test, count, present, met⟩ | ⟨limit, count, undecided⟩
  · refine iff_of_false (by simp [converged]) ?_
    rintro ⟨short, unsaturated⟩
    cases test with
    | weights =>
        have light := unsaturated last (List.mem_of_getElem? present)
        rw [verdict_weights_iff.mp met] at light
        cases light
    | parameter =>
        have reached := (muConverged_at_iff falling schedule).mp (verdict_parameter_iff.mp met).2
        have bound := closes.bounded.1
        omega
  · refine iff_of_true limit ⟨?_, fun record member => ?_⟩
    · have inside : left - 1 < run.iterations.length := by omega
      have last := undecided (left - 1) _ (by omega) (List.getElem?_eq_getElem inside)
      have before := before_of_undecided falling schedule last
      omega
    · obtain ⟨j, present⟩ := List.mem_iff_getElem?.mp member
      have inside := (List.getElem?_eq_some_iff.mp present).1
      exact (verdict_none_iff.mp (undecided j record (by omega) present)).1

/-- A run that the control parameter ends has made all the iterations of the schedule. -/
theorem parameter_stops_last (least : 1 ≤ n) (stopped : run.StopsBy .parameter i) :
    ∃ solution, run.outcome = .ok solution ∧ solution.outcome = .converged ∧ solution.mu = 1 ∧
      solution.iterations = n := by
  obtain ⟨record, present, met⟩ := closes.stopsBy_from_zero.mp stopped
  obtain ⟨count, -, ended⟩ := closes.stops present met
  have reached := (muConverged_at_iff falling schedule).mp (verdict_parameter_iff.mp met).2
  have bound := iterations_le closes falling schedule least
  refine ⟨_, ended, rfl, ?_, ?_⟩
  · exact (o.muAt_succ mu i).symm.trans (schedule.one (i + 1) (Nat.le_add_left 1 i) reached)
  · show 0 + i + 1 = n
    omega

end Loop

/-- With Geman-McClure losses the control parameter falls to one in a number of iterations that is known beforehand: the
first power of the step, from one on, that reaches it at the start. No run makes more iterations. One that is ended by
the limit has fewer and meets no test, and one that is ended by the control parameter has just as many. -/
theorem falling_parameter_stops {graph : Graph ℝ} {initial : Values ℝ} {config : Config ℝ} {o : Optimizer ℝ}
    (reachable : Reachable graph initial config o) (falling : config.family = .gemanMcClure) (clock : Nat → Clock)
    {mu : ℝ} (started : o.initialMu = .ok mu) (positive : 0 < mu) (someFree : o.known.all id = false) :
    let run := o.optimize clock
    ∃ n, IsLeast {n : Nat | 1 ≤ n ∧ mu ≤ config.muStep ^ n} n ∧ FallsToOne (o.muAt mu) config.muStep n ∧
      (∀ i record, run.iterations[i]? = some record →
        record.mu = o.muAt mu i ∧ (1 ≤ i → record.mu = mu / config.muStep ^ i ∧ 1 < record.mu)) ∧
      run.iterations.length ≤ min config.maxIterations n ∧
      (∀ failure, run.outcome = .error failure → run.iterations.length < min config.maxIterations n) ∧
      (∀ solution, run.outcome = .ok solution → (solution.outcome = .maxIterationsReached ↔
        config.maxIterations < n ∧ ∀ record ∈ run.iterations, o.weightsSaturated record.weights = false)) ∧
      ∀ i, run.StopsBy .parameter i → ∃ solution, run.outcome = .ok solution ∧ solution.outcome = .converged ∧
        solution.mu = 1 ∧ solution.iterations = n := by
  have built := reachable.builtFrom
  obtain ⟨-, growing, allowed, -⟩ := Config.validate_ok_iff.mp built.valid
  have closes := optimize_closes clock started (by simpa using positive) someFree
  rw [← built.config_eq] at falling growing allowed ⊢
  obtain ⟨n, least⟩ := exists_isLeast_pow growing one_pos 1 mu
  simp only [one_mul] at least
  have schedule := muAt_fallsToOne falling growing least
  have later := least.1.1
  refine ⟨n, least, schedule, fun i record present => ?_, ?_, fun failure failed => ?_, fun solution finished => ?_,
    fun i stopped => parameter_stops_last closes falling schedule later stopped⟩
  · obtain ⟨mu', started', -, -, iterates⟩ := optimize_iterates present
    obtain rfl := Except.ok.inj (started.symm.trans started')
    rw [iterates.mu_eq]
    exact ⟨rfl, fun above => parameter_above closes falling schedule later above present⟩
  · exact le_min closes.bounded.1 (iterations_le closes falling schedule later)
  · exact lt_min (closes.bounded.2 failure failed) (iterations_lt closes falling schedule failed later)
  · exact limit_iff closes falling schedule allowed finished

/-- From sixteen the control parameter falls to four and to one. -/
theorem lone_falling_optimize : ((lone .gemanMcClure 4 1 1).optimize fun _ _ => 0).outcome =
    .ok ⟨.single 0, [1 / 9], 2, .converged, 1⟩ := by
  have start : Family.gemanMcClure.initialMu (8 : ℝ) 1 = 16 := by norm_num [Family.initialMu]
  have next : Family.gemanMcClure.nextMu (16 : ℝ) 4 = 4 := by norm_num [Family.nextMu]
  have last : (lone .gemanMcClure 4 1 1).reportedMu 4 .parameter = 1 := by
    norm_num [reportedMu, nextMu, lone, Family.nextMu]
  have first : Family.gemanMcClure.weight (8 : ℝ) 16 1 = 4 / 9 := by
    rw [Family.weight, gemanMcClureWeight_real (by norm_num)]
    norm_num
  have second : Family.gemanMcClure.weight (8 : ℝ) 4 1 = 1 / 9 := by
    rw [Family.weight, gemanMcClureWeight_real (by norm_num)]
    norm_num
  have unmet : (lone .gemanMcClure 4 1 1).verdict 16 [Family.gemanMcClure.weight 8 16 1] = none := by
    rw [first, verdict_none_iff]
    simp [weightsSaturated, saturated, nearOne, isKnown, muConverged, nextMu, lone, Config.ofBase,
      Family.muConverged, Family.nextMu]
    norm_num
  have met : (lone .gemanMcClure 4 1 1).verdict 4 [Family.gemanMcClure.weight 8 4 1] = some .parameter := by
    rw [second, verdict_parameter_iff]
    simp [weightsSaturated, saturated, nearOne, isKnown, muConverged, nextMu, lone, Config.ofBase,
      Family.muConverged, Family.nextMu]
    norm_num
  have positive : (0 : ℝ) < 16 := by norm_num
  have kept : (0 : ℝ) ≤ 4 / 9 := by norm_num
  rw [lone_optimize _ 4 1 start positive, lone_unmet _ 99 0 zero_le_one unmet, next, first, lone_met _ 98 1 kept met,
    second, last]

theorem lone_parameter_falls : ∃ solution, ((lone .gemanMcClure 4 1 1).optimize fun _ _ => 0).outcome = .ok solution ∧
    solution.iterations = 2 ∧ solution.mu = 1 ∧ IsLeast {n : Nat | 1 ≤ n ∧ (16 : ℝ) ≤ 4 ^ n} 2 ∧
    ((lone .gemanMcClure 4 1 1).optimize fun _ _ => 0).iterations.length ≤ 2 ∧
    solution.outcome ≠ .maxIterationsReached := by
  have reachable : Reachable (.single 4 1) (.single 0) (lone .gemanMcClure 4 1 1).config (lone .gemanMcClure 4 1 1) :=
    .created (lone_created _ (by norm_num) zero_le_one)
  have start : Family.gemanMcClure.initialMu (8 : ℝ) 1 = 16 := by norm_num [Family.initialMu]
  have started : (lone .gemanMcClure 4 1 1).initialMu = .ok 16 := start ▸ lone_initialMu .gemanMcClure 4 1 1
  have positive : (0 : ℝ) < 16 := by norm_num
  have two : IsLeast {n : Nat | 1 ≤ n ∧ (16 : ℝ) ≤ 4 ^ n} 2 := by
    refine ⟨⟨one_le_two, by norm_num⟩, ?_⟩
    rintro n ⟨later, reached⟩
    by_contra before
    obtain rfl : n = 1 := by omega
    norm_num at reached
  obtain ⟨n, least, -, -, bounded, -, limited, -⟩ :=
    falling_parameter_stops reachable rfl (fun _ _ => 0) started positive rfl
  obtain rfl : n = 2 := least.unique two
  refine ⟨_, lone_falling_optimize, rfl, rfl, two, bounded.trans (min_le_right _ _), fun exhausted => ?_⟩
  obtain ⟨short, -⟩ := (limited _ lone_falling_optimize).mp exhausted
  norm_num [lone, Config.ofBase] at short

end GraduatedFit.Continuation.Optimizer

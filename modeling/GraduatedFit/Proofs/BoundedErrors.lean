import GraduatedFit.Proofs.GrowingParameter

/-! With truncated losses the control parameter outgrows every bound on the errors, and then every slot is an inlier. -/

namespace GraduatedFit.Continuation

open LeastSquares

/-- At an estimate the errors of the slots that are not trusted are at most a bound. -/
def FreeErrorsWithin (graph : Graph ℝ) (trusted : List Nat) (values : Values ℝ) (bound : ℝ) : Prop :=
  ∃ errors, graph.stripRobustLosses.factorErrors values = .ok errors ∧
    ∀ slot e, errors[slot]? = some e → slot ∉ trusted → e ≤ bound

theorem FreeErrorsWithin.mono {graph : Graph ℝ} {trusted : List Nat} {values : Values ℝ} {bound bound' : ℝ}
    (within : FreeErrorsWithin graph trusted values bound) (above : bound ≤ bound') :
    FreeErrorsWithin graph trusted values bound' := by
  obtain ⟨errors, known, bounded⟩ := within
  exact ⟨errors, known, fun slot e found free => (bounded slot e found free).trans above⟩

/-- Errors inside of the scaled threshold have all of the weight. -/
theorem weights_truncated_even {errors : List ℝ} {mu threshold : ℝ} {pinned : Nat → Bool}
    (within : ∀ slot e, errors[slot]? = some e → pinned slot = false → e ≤ mu * threshold) :
    weights .truncatedLeastSquares errors mu threshold pinned = List.replicate errors.length 1 := by
  apply List.ext_getElem
  · simp [weights]
  · intro slot inside _
    have bound : slot < errors.length := by simpa [weights] using inside
    simp only [weights, List.getElem_mapIdx, List.getElem_replicate]
    rcases free : pinned slot with _ | _
    · exact truncatedWeight_inside (within slot _ (List.getElem?_eq_getElem bound) free)
    · rw [if_pos rfl]

/-- Even weights are decided, unless there are none. -/
theorem saturated_even {count : Nat} (some : count ≠ 0) {tolerance : ℝ} (nonneg : 0 ≤ tolerance) (pinned : Nat → Bool) :
    saturated (List.replicate count (1 : ℝ)) tolerance pinned = true := by
  have near : 1 - tolerance ≤ 1 := by linarith
  refine saturated_iff.mpr ⟨fun slot w found => ?_, 0, 1, ?_, near⟩
  · obtain rfl : w = 1 := List.eq_of_mem_replicate (List.mem_of_getElem? found)
    exact .inr (.inr near)
  · rw [List.getElem?_replicate, if_pos (Nat.pos_of_ne_zero some)]

theorem inlierSlots_even (count : Nat) : inlierSlots (List.replicate count (1 : ℝ)) = List.range count := by
  have heavy : ∀ entry ∈ (List.replicate count (1 : ℝ)).zipIdx, Scalar.lt 0.5 entry.1 = true := by
    intro (w, slot) member
    obtain rfl : w = 1 := List.eq_of_mem_replicate (List.fst_mem_of_mem_zipIdx member)
    norm_num
  rw [inlierSlots, List.filter_eq_self.mpr heavy, List.zipIdx_map_snd, List.length_replicate, List.range_eq_range']

namespace Optimizer

/-- A graph with a slot that is not trusted has a slot. -/
theorem BuiltFrom.size_ne_zero {K : Type} [Scalar K] {graph : Graph K} {config : Config K} {o : Optimizer K}
    (built : BuiltFrom graph config o) (someFree : o.known.all id = false) : graph.size ≠ 0 := by
  intro none
  rw [built.known_eq, none] at someFree
  cases someFree

section Accepted

variable {graph : Graph ℝ} {config : Config ℝ} {o : Optimizer ℝ} (built : BuiltFrom graph config o)
  (truncated : config.family = .truncatedLeastSquares)
include built truncated

/-- Where the control parameter covers all the errors of free slots the weights are even. -/
theorem weightsAt_even {values : Values ℝ} {mu : ℝ} {weights : Vec ℝ}
    (weighed : o.weightsAt values mu = .ok weights)
    (within : FreeErrorsWithin graph config.knownInliers values (mu * config.threshold)) :
    weights = List.replicate graph.size 1 := by
  obtain ⟨errors, known, bounded⟩ := within
  obtain ⟨errors', known', rfl⟩ := built.weights_eq weighed
  obtain rfl := Except.ok.inj (known.symm.trans known')
  rw [truncated, ← Graph.errors_length known]
  exact weights_truncated_even fun slot e found free => bounded slot e found (by simpa using free)

/-- An iteration whose control parameter covers all the errors of free slots is the last one of a run, which converges
with even weights. -/
theorem optimize_accepted {clock : Nat → Clock} {i : Nat} {record : Iteration ℝ}
    (present : (o.optimize clock).iterations[i]? = some record)
    (within : FreeErrorsWithin graph config.knownInliers record.values (record.mu * config.threshold)) :
    record.weights = List.replicate graph.size 1 ∧ (o.optimize clock).iterations.length = i + 1 ∧
      (o.optimize clock).StopsBy .weights i ∧
      (o.optimize clock).outcome = .ok ⟨record.values, record.weights, i + 1, .converged, record.mu⟩ := by
  obtain ⟨-, -, -, -, nonneg⟩ := Config.validate_ok_iff.mp built.valid
  obtain ⟨mu, started, positive, someFree, iterates⟩ := optimize_iterates present
  have closes := optimize_closes clock started positive someFree
  have even := weightsAt_even built truncated (optimize_weighed present) within
  have met : o.verdict (o.muAt mu i) record.weights = some .weights := by
    rw [verdict_weights_iff, even, weightsSaturated, built.config_eq]
    exact saturated_even (built.size_ne_zero someFree) nonneg _
  obtain ⟨count, -, ended⟩ := closes.stops present met
  rw [Nat.zero_add, reportedMu, ← iterates.mu_eq] at ended
  exact ⟨even, count, closes.stopsBy_from_zero.mpr ⟨record, present, met⟩, ended⟩

/-- An iteration after the control parameter has outgrown a bound on all the errors of free slots is the last one. -/
theorem optimize_outgrown {clock : Nat → Clock} {mu bound : ℝ} {n : Nat} (started : o.initialMu = .ok mu)
    (bounded : ∀ record ∈ (o.optimize clock).iterations, FreeErrorsWithin graph config.knownInliers record.values bound)
    (outgrown : bound ≤ mu * config.muStep ^ n * config.threshold) (inside : n < (o.optimize clock).iterations.length) :
    (o.optimize clock).iterations.length = n + 1 ∧
      ∃ solution, (o.optimize clock).outcome = .ok solution ∧ solution.outcome = .converged := by
  have present := List.getElem?_eq_getElem inside
  obtain ⟨mu', started', -, -, iterates⟩ := optimize_iterates present
  obtain rfl := Except.ok.inj (started.symm.trans started')
  have parameter := iterates.mu_eq
  rw [muAt_truncated (built.config_eq ▸ truncated), built.config_eq] at parameter
  have within := (bounded _ (List.getElem_mem inside)).mono (parameter ▸ outgrown)
  obtain ⟨-, count, -, ended⟩ := optimize_accepted built truncated present within
  exact ⟨count, _, ended, rfl⟩

end Accepted

/-- A run that does not enter the loop converges. -/
theorem optimize_early_converged {K : Type} [Scalar K] {o : Optimizer K} {clock : Nat → Clock} {mu : K}
    (initial : o.initialMu = .ok mu) (early : o.known.all id = true ∨ Scalar.le mu 0 = true)
    {solution : Solution K} (finished : (o.optimize clock).outcome = .ok solution) :
    solution.outcome = .converged := by
  have opens := o.optimize_opens clock
  generalize o.optimize clock = run at opens finished
  cases opens with
  | unknown unknown => cases finished
  | costless initial' unknown => cases finished
  | plain initial' start early' said =>
      rcases o.evenly.solvePlain_cases (clock 0) _ with ⟨failure, -, same⟩ | ⟨base, -, same⟩ <;> rw [same] at finished
      · cases finished
      · obtain rfl := Except.ok.inj finished
        rfl
  | looped initial' start someFree positive =>
      obtain rfl := Except.ok.inj (initial.symm.trans initial')
      simp [someFree, positive] at early

/-- A run that ends well otherwise than by converging has made all the iterations that it may make. -/
theorem optimize_limited {K : Type} [Scalar K] {o : Optimizer K} {clock : Nat → Clock} {mu : K}
    (initial : o.initialMu = .ok mu) {solution : Solution K} (finished : (o.optimize clock).outcome = .ok solution)
    (unconverged : solution.outcome ≠ .converged) : (o.optimize clock).iterations.length = o.config.maxIterations := by
  rcases someFree : o.known.all id with _ | _
  · rcases positive : Scalar.le mu 0 with _ | _
    · rcases (optimize_closes clock initial positive someFree).finished_cases finished with
        ⟨converged, -⟩ | ⟨-, count, -⟩
      · exact absurd converged unconverged
      · exact count
    · exact absurd (optimize_early_converged initial (.inr positive) finished) unconverged
  · exact absurd (optimize_early_converged initial (.inl someFree) finished) unconverged

/-- With truncated losses an iteration whose control parameter covers the errors of the free slots gives all of them
weight one, and it ends the run, which converges with every slot as an inlier. So a bound on the errors of the free slots
at all estimates of a run bounds its iterations: there is one at most after the control parameter has outgrown the bound,
which it does if it is positive at the start, and where the limit allows that many the run converges. -/
theorem bounded_errors_accepted {graph : Graph ℝ} {initial : Values ℝ} {config : Config ℝ} {o : Optimizer ℝ}
    (reachable : Reachable graph initial config o) (truncated : config.family = .truncatedLeastSquares)
    (clock : Nat → Clock) :
    let run := o.optimize clock
    (∀ i record, run.iterations[i]? = some record →
      FreeErrorsWithin graph config.knownInliers record.values (record.mu * config.threshold) →
      record.weights = List.replicate graph.size 1 ∧ run.StopsBy .weights i ∧
        ∃ solution, run.outcome = .ok solution ∧ solution.outcome = .converged ∧ solution.iterations = i + 1 ∧
          solution.values = record.values ∧ solution.weights = record.weights ∧
          solution.inlierSlots = List.range graph.size) ∧
    ∀ mu bound, o.initialMu = .ok mu →
      (∀ record ∈ run.iterations, FreeErrorsWithin graph config.knownInliers record.values bound) →
      (0 < mu → ∃ n, IsLeast {n : Nat | bound ≤ mu * config.muStep ^ n * config.threshold} n) ∧
      ∀ n, IsLeast {n : Nat | bound ≤ mu * config.muStep ^ n * config.threshold} n →
        run.iterations.length ≤ n + 1 ∧
        (∀ failure, run.outcome = .error failure → run.iterations.length ≤ n) ∧
        ∀ solution, run.outcome = .ok solution → n < config.maxIterations → solution.outcome = .converged := by
  have built := reachable.builtFrom
  obtain ⟨threshold, growing, -⟩ := Config.validate_ok_iff.mp built.valid
  refine ⟨fun i record present within => ?_, fun mu bound started bounded => ⟨fun positive => ?_, fun n least => ?_⟩⟩
  · obtain ⟨even, -, stopped, ended⟩ := optimize_accepted built truncated present within
    refine ⟨even, stopped, _, ended, rfl, rfl, rfl, rfl, ?_⟩
    rw [Solution.inlierSlots, even, inlierSlots_even]
  · obtain ⟨n, least⟩ := exists_isLeast_pow growing (mul_pos positive threshold) 0 bound
    exact ⟨n, by simpa [mul_right_comm] using least⟩
  · have last := optimize_outgrown built truncated started bounded least.1
    refine ⟨?_, fun failure failed => ?_, fun solution finished allowed => ?_⟩
    · by_contra beyond
      obtain ⟨count, -⟩ := last (by omega)
      omega
    · by_contra beyond
      obtain ⟨-, solution, finished, -⟩ := last (by omega)
      cases failed.symm.trans finished
    · by_contra unconverged
      have count := optimize_limited started finished unconverged
      rw [built.config_eq] at count
      obtain ⟨-, solution', finished', converged⟩ := last (by omega)
      obtain rfl := Except.ok.inj (finished.symm.trans finished')
      exact unconverged converged

/-- The error is eight wherever it is known. -/
theorem lone_errors_within {values : Values ℝ} {errors : List ℝ}
    (known : (Graph.single 4 1).stripRobustLosses.factorErrors values = .ok errors) :
    FreeErrorsWithin (.single 4 1) [] values 8 := by
  refine ⟨errors, known, fun slot e found _ => ?_⟩
  obtain ⟨f, present, evaluated⟩ := Result.mapM_mem known (List.mem_of_getElem? found)
  obtain rfl := List.mem_singleton.mp present
  obtain ⟨residual, determined, whitened⟩ := Result.bind_ok_iff.mp evaluated
  obtain ⟨params, -, determined⟩ := Result.bind_ok_iff.mp determined
  obtain rfl : [4] = residual := by
    simpa [Factor.fixed, Result.ofShape, GraphFactor.checkResidual, Noise.withoutRobustLoss, Noise.dim] using determined
  have error : 0.5 * (4 / 1 * (4 / 1)) = e := by
    simpa [Noise.withoutRobustLoss, Noise.error?, Noise.whiten?, Result.ofShape, Vec.normSq, Vec.sum, Scalar.square]
      using whitened
  norm_num at error
  exact error.ge

/-- The control parameter covers the error of eight from its second value on, and the run ends there. -/
theorem lone_all_accepted :
    ((lone .truncatedLeastSquares 200 1 1).optimize fun _ _ => 0).iterations.length ≤ 2 ∧
    ∃ solution, ((lone .truncatedLeastSquares 200 1 1).optimize fun _ _ => 0).outcome = .ok solution ∧
      solution.outcome = .converged := by
  have reachable : Reachable (.single 4 1) (.single 0) (lone .truncatedLeastSquares 200 1 1).config
      (lone .truncatedLeastSquares 200 1 1) := .created (lone_created _ (by norm_num) zero_le_one)
  have started : (lone .truncatedLeastSquares 200 1 1).initialMu = .ok (1 / 15) :=
    lone_growing_initialMu ▸ lone_initialMu .truncatedLeastSquares 200 1 1
  have bounded : ∀ record ∈ ((lone .truncatedLeastSquares 200 1 1).optimize fun _ _ => 0).iterations,
      FreeErrorsWithin (.single 4 1) [] record.values 8 := by
    intro record member
    obtain ⟨i, present⟩ := List.mem_iff_getElem?.mp member
    obtain ⟨errors, known, -⟩ := reachable.builtFrom.weights_eq (optimize_weighed present)
    exact lone_errors_within known
  have one : IsLeast {n : Nat | (8 : ℝ) ≤ 1 / 15 * 200 ^ n * 1} 1 := by
    refine ⟨by norm_num, fun n covered => ?_⟩
    by_contra before
    obtain rfl : n = 0 := by omega
    norm_num at covered
  obtain ⟨-, consequences⟩ := bounded_errors_accepted reachable rfl (fun _ _ => 0)
  obtain ⟨-, afterwards⟩ := consequences _ 8 started bounded
  obtain ⟨count, -, converges⟩ := afterwards 1 one
  have allowed : 1 < (lone .truncatedLeastSquares 200 1 1).config.maxIterations := by norm_num [lone, Config.ofBase]
  exact ⟨count, _, lone_growing_optimize, converges _ lone_growing_optimize allowed⟩

end Optimizer

end GraduatedFit.Continuation

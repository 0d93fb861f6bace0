import GraduatedFit.Proofs.InlierThreshold

/-! The slots that a continuation keeps as inliers: what their errors are, and what their weights are where these end
the run. -/

namespace GraduatedFit.Continuation

open LeastSquares

/-- The slots are listed in order. -/
theorem inlierSlots_sorted {K : Type} [Scalar K] (weights : Vec K) : (inlierSlots weights).Pairwise (· < ·) := by
  have kept : (inlierSlots weights).Sublist (List.range' 0 weights.length) := by
    rw [← List.zipIdx_map_snd 0 weights]
    exact List.filter_sublist.map Prod.snd
  exact List.Pairwise.sublist kept List.pairwise_lt_range'

/-- The errors of weight above one half at a scaled threshold. -/
def Family.Accepts : Family → ℝ → ℝ → Prop
  | .truncatedLeastSquares, c, e => e ≤ c
  | .gemanMcClure, c, e => e < (√2.0 - 1) * c

theorem half_lt_gemanMcClureWeight {e mu threshold : ℝ} (positive : 0 < mu * threshold) (nonneg : 0 ≤ e) :
    0.5 < gemanMcClureWeight e mu threshold ↔ e < (√2 - 1) * (mu * threshold) := by
  have denominator : 0 < e + mu * threshold := by linarith
  have ratio : 0 ≤ mu * threshold / (e + mu * threshold) := by positivity
  have half : (0.5 : ℝ) = (1 / √2) ^ 2 := by
    rw [div_pow, Real.sq_sqrt zero_le_two]
    norm_num
  rw [gemanMcClureWeight_real positive, half, sq_lt_sq₀ (by positivity) ratio,
    div_lt_div_iff₀ (Real.sqrt_pos.mpr two_pos) denominator]
  constructor <;> intro below <;> linarith

theorem Family.half_lt_weight_iff (family : Family) {e mu threshold : ℝ} (positive : 0 < mu * threshold)
    (nonneg : 0 ≤ e) : 0.5 < family.weight e mu threshold ↔ family.Accepts (mu * threshold) e := by
  cases family with
  | truncatedLeastSquares => exact half_lt_truncatedWeight positive
  | gemanMcClure =>
      rw [Accepts, Scalar.two_real]
      exact half_lt_gemanMcClureWeight positive nonneg

theorem mem_inlierSlots_weights {family : Family} {errors : List ℝ} {mu threshold : ℝ} {pinned : Nat → Bool} {slot : Nat}
    (positive : 0 < mu * threshold) (nonneg : ∀ e ∈ errors, 0 ≤ e) :
    slot ∈ inlierSlots (weights family errors mu threshold pinned) ↔
      ∃ e, errors[slot]? = some e ∧ (pinned slot = true ∨ family.Accepts (mu * threshold) e) := by
  have heavy : (0.5 : ℝ) < 1 := by norm_num
  rw [mem_inlierSlots]
  simp only [getElem?_weights, Option.map_eq_some_iff, Scalar.lt_real, decide_eq_true_eq]
  constructor
  · rintro ⟨_, ⟨e, found, rfl⟩, above⟩
    refine ⟨e, found, ?_⟩
    rcases free : pinned slot with _ | _
    · rw [free, if_neg Bool.false_ne_true] at above
      exact .inr ((family.half_lt_weight_iff positive (nonneg e (List.mem_of_getElem? found))).mp above)
    · exact .inl rfl
  · rintro ⟨e, found, accepted⟩
    refine ⟨_, ⟨e, found, rfl⟩, ?_⟩
    split
    · exact heavy
    · rename_i free
      exact (family.half_lt_weight_iff positive (nonneg e (List.mem_of_getElem? found))).mpr (accepted.resolve_left free)

/-- The two ways in which a weight is decided are the two sides of one half. -/
theorem saturated_inlierSlots {weights : Vec ℝ} {tolerance : ℝ} {pinned : Nat → Bool}
    (decided : saturated weights tolerance pinned = true) (nonneg : 0 ≤ tolerance) (narrow : tolerance < 1 / 2)
    (trusted : ∀ slot w, weights[slot]? = some w → pinned slot = true → w = 1) :
    inlierSlots weights ≠ [] ∧
      (∀ slot, slot ∈ inlierSlots weights ↔ ∃ w, weights[slot]? = some w ∧ 1 - tolerance ≤ w) ∧
      ∀ slot w, weights[slot]? = some w → slot ∉ inlierSlots weights → w ≤ tolerance := by
  obtain ⟨split, slot, w, found, near⟩ := saturated_iff.mp decided
  have sides (slot : Nat) (w : ℝ) (found : weights[slot]? = some w) : w ≤ tolerance ∨ 1 - tolerance ≤ w := by
    rcases split slot w found with pin | sides
    · rw [trusted slot w found pin]
      exact .inr (by linarith)
    · exact sides
  have member (slot : Nat) : slot ∈ inlierSlots weights ↔ ∃ w, weights[slot]? = some w ∧ 1 - tolerance ≤ w := by
    rw [mem_inlierSlots]
    refine exists_congr fun w => and_congr_right fun found => ?_
    rw [Scalar.lt_real, decide_eq_true_eq]
    constructor
    · intro heavy
      refine (sides slot w found).resolve_left fun light => ?_
      norm_num at heavy
      linarith
    · intro near
      norm_num
      linarith
  refine ⟨List.ne_nil_of_mem ((member slot).mpr ⟨w, found, near⟩), member, fun slot w found out => ?_⟩
  exact (sides slot w found).resolve_right fun near => out ((member slot).mpr ⟨w, found, near⟩)

namespace Optimizer

section Runs

variable {K : Type} [Scalar K] {o : Optimizer K} {clock : Nat → Clock}

/-- A graph that is reweighted has no robust losses left. -/
theorem optimize_plain {i : Nat} {record : Iteration K} (present : (o.optimize clock).iterations[i]? = some record) :
    o.graph.hasRobustFactors = false := by
  obtain ⟨mu, -, -, -, iterates⟩ := optimize_iterates present
  obtain ⟨g, base, reweighted, -⟩ := iterates.solved
  rw [stage_reweighted] at reweighted
  exact (Graph.reweights_of_ok reweighted).base_plain

theorem weightsAt_known {values : Values K} {mu : K} {weights : Vec K} (weighed : o.weightsAt values mu = .ok weights)
    {slot : Nat} {w : K} (found : weights[slot]? = some w) (trusted : o.isKnown slot = true) : w = 1 := by
  obtain ⟨errors, -, rest⟩ := Result.bind_ok_iff.mp weighed
  obtain ⟨_, -, done⟩ := Result.bind_ok_iff.mp rest
  obtain rfl := Except.ok.inj done
  rw [getElem?_weights, Option.map_eq_some_iff] at found
  obtain ⟨e, -, rfl⟩ := found
  exact if_pos trusted

end Runs

/-- The slots kept by the weights of an estimate are the trusted ones and those whose errors are accepted. -/
theorem weightsAt_inlierSlots {graph : Graph ℝ} {initial : Values ℝ} {config : Config ℝ} {o : Optimizer ℝ}
    (reachable : Reachable graph initial config o) (plain : o.graph.hasRobustFactors = false) {values : Values ℝ} {mu : ℝ}
    {weights : Vec ℝ} (weighed : o.weightsAt values mu = .ok weights) (scaled : 0 < mu * config.threshold) :
    ∃ errors, graph.stripRobustLosses.factorErrors values = .ok errors ∧
      ∀ slot, slot ∈ inlierSlots weights ↔ slot ∈ config.knownInliers ∨
        ∃ e, errors[slot]? = some e ∧ slot ∉ config.knownInliers ∧ config.family.Accepts (mu * config.threshold) e := by
  have built := reachable.builtFrom
  obtain ⟨errors, known, rfl⟩ := built.weights_eq weighed
  rw [built.graph_eq] at plain
  refine ⟨errors, known, fun slot => ?_⟩
  rw [mem_inlierSlots_weights scaled (Graph.errors_nonneg plain known)]
  by_cases trusted : slot ∈ config.knownInliers
  · have inside : slot < errors.length := by
      rw [Graph.errors_length known]
      exact reachable.known_inside slot trusted
    exact iff_of_true ⟨_, List.getElem?_eq_getElem inside, .inl (by simpa using trusted)⟩ (.inl trusted)
  · simp [trusted]

/-- The inliers of a result are the trusted slots and those whose error at the estimate of the result is accepted at the
control parameter of the last weighing, in order. Where the weights end the run, and their tolerance is below one half,
there is an inlier, the inliers are the slots of weight near one, and all others are near zero. -/
theorem optimize_inlierSlots {graph : Graph ℝ} {initial : Values ℝ} {config : Config ℝ} {o : Optimizer ℝ}
    (reachable : Reachable graph initial config o) (clock : Nat → Clock) {solution : Solution ℝ}
    (finished : (o.optimize clock).outcome = .ok solution) (iterated : 1 ≤ solution.iterations) :
    let run := o.optimize clock
    ∃ mu last errors, o.initialMu = .ok mu ∧ run.iterations.length = solution.iterations ∧
      run.iterations[solution.iterations - 1]? = some last ∧ last.mu = o.muAt mu (solution.iterations - 1) ∧
      last.values = solution.values ∧ last.weights = solution.weights ∧
      o.weightsAt solution.values last.mu = .ok solution.weights ∧
      graph.stripRobustLosses.factorErrors solution.values = .ok errors ∧
      solution.inlierSlots.Pairwise (· < ·) ∧
      (∀ slot, slot ∈ solution.inlierSlots ↔ slot ∈ config.knownInliers ∨
        ∃ e, errors[slot]? = some e ∧ slot ∉ config.knownInliers ∧
          config.family.Accepts (last.mu * config.threshold) e) ∧
      ∀ i, run.StopsBy .weights i → config.weightsTolerance < 1 / 2 →
        solution.inlierSlots ≠ [] ∧
        (∀ slot, slot ∈ solution.inlierSlots ↔
          ∃ w, solution.weights[slot]? = some w ∧ 1 - config.weightsTolerance ≤ w) ∧
        ∀ slot w, solution.weights[slot]? = some w → slot ∉ solution.inlierSlots → w ≤ config.weightsTolerance := by
  have built := reachable.builtFrom
  obtain ⟨threshold, growing, -, -, nonneg⟩ := Config.validate_ok_iff.mp built.valid
  obtain ⟨count, last, present, values, weights⟩ := optimize_final finished iterated
  obtain ⟨mu, started, positive, someFree, iterates⟩ := optimize_iterates present
  have closes := optimize_closes clock started positive someFree
  have scaled : 0 < last.mu * config.threshold := by
    rw [iterates.mu_eq]
    exact mul_pos (muAt_pos (by simpa using positive) (built.config_eq ▸ growing) _) threshold
  have weighed := optimize_weighed present
  rw [values, weights] at weighed
  obtain ⟨errors, known, members⟩ := weightsAt_inlierSlots reachable (optimize_plain present) weighed scaled
  refine ⟨mu, last, errors, started, count, present, iterates.mu_eq, values, weights, weighed, known,
    inlierSlots_sorted _, members, fun i stopped narrow => ?_⟩
  have decided := closes.saturated_of_stopsBy stopped finished
  rw [weightsSaturated, built.config_eq] at decided
  exact saturated_inlierSlots decided nonneg narrow fun slot w found trusted => weightsAt_known weighed found trusted

/-- Of the three factors only the first has an error that is accepted, and the weights say so too. -/
theorem early_inlierSlots : ∃ solution, (early.optimize fun _ _ => 0).outcome = .ok solution ∧
    (∀ slot, slot ∈ solution.inlierSlots ↔ slot = 0) ∧
    ∀ slot w, solution.weights[slot]? = some w → slot ≠ 0 → w ≤ early.config.weightsTolerance := by
  obtain ⟨mu, last, errors, started, -, present, parameter, -, weights, -, known, -, members, saturated⟩ :=
    optimize_inlierSlots (.created early_created) (fun _ _ => 0) early_optimize le_rfl
  have outside : Scalar.le (1 / 399 : ℝ) 0 = false := by norm_num
  have closes := optimize_closes (fun _ _ => 0) early_initialMu outside rfl
  have stopped : (early.optimize fun _ _ => 0).StopsBy .weights 0 :=
    closes.stopsBy_from_zero.mpr ⟨last, present, verdict_weights_iff.mpr (weights ▸ early_saturated)⟩
  have narrow : early.config.weightsTolerance < 1 / 2 := by norm_num [early, Config.ofBase]
  obtain ⟨-, -, light⟩ := saturated 0 stopped narrow
  obtain rfl := Except.ok.inj ((Graph.triple_factorErrors 0).symm.trans known)
  obtain rfl := Except.ok.inj (early_initialMu.symm.trans started)
  have accepted (e : ℝ) : early.config.family.Accepts (last.mu * early.config.threshold) e ↔ e ≤ 1 / 399 := by
    rw [parameter]
    show e ≤ 1 / 399 * 1 ↔ e ≤ 1 / 399
    rw [mul_one]
  have first (slot : Nat) : slot ∈ inlierSlots earlyWeights ↔ slot = 0 := by
    refine (members slot).trans ?_
    simp only [accepted]
    rcases slot with _ | _ | _ | slot <;> simp [early, Config.ofBase] <;> norm_num
  exact ⟨_, early_optimize, first, fun slot w found other => light slot w found (mt (first slot).mp other)⟩

end Optimizer

end GraduatedFit.Continuation

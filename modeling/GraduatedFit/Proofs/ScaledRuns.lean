import GraduatedFit.Proofs.MirroredRuns
import GraduatedFit.Proofs.ScaledSystem

/-! Every iteration of a run, in the coordinates of its variables: the scaling of the first iteration weighs what is added
to the diagonal, and without such an addition it changes nothing. -/

namespace GraduatedFit

open GraduatedFit.Elimination

namespace ColumnScaling

/-- The factors of the columns in a run: by the Jacobian of its first iteration, or ones where scaling is off. -/
noncomputable def factorsFrom (useScaling : Bool) (J₀ : SparseMat ℝ) : Vec ℝ :=
  if useScaling then (ofJacobian J₀).factors else List.replicate J₀.width 1

variable {useScaling : Bool} {J₀ : SparseMat ℝ}

theorem length_factorsFrom (useScaling : Bool) (J₀ : SparseMat ℝ) : (factorsFrom useScaling J₀).length = J₀.width := by
  cases useScaling <;> simp [factorsFrom, ofJacobian, SparseMat.width]

theorem factor_bounds {norm : ℝ} (nonneg : 0 ≤ norm) : 0 < 1 / (1 + norm) ∧ 1 / (1 + norm) ≤ 1 := by
  have grown : 1 ≤ 1 + norm := le_add_of_nonneg_right nonneg
  exact ⟨one_div_pos.mpr (one_pos.trans_le grown), (div_le_one (one_pos.trans_le grown)).mpr grown⟩

/-- A factor shrinks its column, and does not lose it. -/
theorem factorsFrom_bounds : ∀ factor ∈ factorsFrom useScaling J₀, 0 < factor ∧ factor ≤ 1 := by
  intro factor member
  cases useScaling with
  | false =>
      obtain rfl := (List.mem_replicate.mp member).2
      exact ⟨one_pos, le_rfl⟩
  | true =>
      obtain ⟨column, -, rfl⟩ := List.mem_map.mp member
      exact factor_bounds (Real.sqrt_nonneg _)

theorem factorsFrom_getD (formed : J₀.WellFormed) {a : Nat} (inside : a < J₀.width) :
    (factorsFrom true J₀).getD a 0 = 1 / (1 + √(∑ p ∈ Finset.range J₀.height, J₀.get p a ^ 2)) := by
  have member : J₀.columns[a] ∈ J₀.columns := List.getElem_mem inside
  have norm : SparseVec.normSq J₀.columns[a] = ∑ p ∈ Finset.range J₀.height, J₀.get p a ^ 2 := by
    rw [SparseVec.normSq_eq_overlap, SparseMat.overlap_sum (formed.increasing _ member) (formed.increasing _ member)
      (formed.below _ member)]
    refine Finset.sum_congr rfl fun p _ => ?_
    rw [SparseMat.get, List.getD_eq_getElem _ _ inside, sq]
  have entry : (factorsFrom true J₀).getD a 0 = 1 / (1 + √(SparseVec.normSq J₀.columns[a])) := by
    have columns : a < J₀.columns.length := inside
    simp [factorsFrom, ofJacobian, List.getD_eq_getElem?_getD, columns]
    rfl
  rw [entry, norm]

end ColumnScaling

namespace LeastSquares

section Loop

variable {K σ α : Type} {scheme : Scheme K σ} {limit : Nat} {start : σ} {history : History K σ}

/-- Every iteration that a loop reports advances the state that it finds. -/
theorem Scheme.Loops.advances (loops : scheme.Loops limit start history) {i : Nat} {step : Step K}
    (reported : history.steps[i]? = some step) :
    scheme.advance (scheme.before start i) = (scheme.before start (i + 1), .ok step) := by
  induction loops generalizing i with
  | failed advanced => cases reported
  | decided advanced verdict =>
      cases i with
      | zero =>
          obtain rfl := Option.some.inj reported
          exact advance_first advanced
      | succ i => cases reported
  | undecided advanced verdict later ih =>
      cases i with
      | zero =>
          obtain rfl := Option.some.inj reported
          exact advance_first advanced
      | succ i =>
          rw [← Scheme.before_advance, ← Scheme.before_advance, advanced]
          exact ih reported

/-- A loop whose first iteration succeeds reports it. -/
theorem Scheme.Loops.reports_first (loops : scheme.Loops limit start history) {s : σ} {step : Step K}
    (advanced : scheme.advance start = (s, .ok step)) : history.steps[0]? = some step := by
  cases loops with
  | failed failing => cases advanced.symm.trans failing
  | decided advanced' verdict =>
      obtain ⟨-, same⟩ := Prod.mk.inj (advanced'.symm.trans advanced)
      exact congrArg some (Except.ok.inj same)
  | undecided advanced' verdict later =>
      obtain ⟨-, same⟩ := Prod.mk.inj (advanced'.symm.trans advanced)
      exact congrArg some (Except.ok.inj same)

/-- What an iteration reports of the state that it leaves is what the next iteration finds. -/
theorem Scheme.Loops.carried (loops : scheme.Loops limit start history) {found : σ → α} {reports : Step K → α}
    (carries : ∀ s s' step, scheme.advance s = (s', .ok step) → found s' = reports step) {i : Nat}
    (made : i ≤ history.steps.length) :
    (found start :: history.steps.map reports)[i]? = some (found (scheme.before start i)) := by
  cases i with
  | zero => rfl
  | succ i =>
      have reported := List.getElem?_eq_getElem (show i < history.steps.length from made)
      rw [List.getElem?_cons_succ, List.getElem?_map, reported, carries _ _ _ (loops.advances reported)]
      rfl

end Loop

/-- The estimate that an iteration of a run starts from. -/
def Run.estimate {K : Type} (run : Run K) (initial : Values K) (i : Nat) : Values K :=
  (initial :: run.steps.map Step.values).getD i initial

/-- What an iteration adds to the diagonal of its system: always the same in Gauss-Newton, and in Levenberg-Marquardt the
damping that the iteration before it left. -/
noncomputable def Method.added (method : Method ℝ) (run : Run ℝ) (i : Nat) : ℝ :=
  match method with
  | .gaussNewton config => config.damping.getD 0
  | .levenbergMarquardt config => (config.damping :: run.steps.map fun step => step.damping.getD 0).getD i 0

/-- What the iterations of a run keep, where the first of them has this Jacobian. -/
structure State.Follows (useScaling damped : Bool) (initial : Values ℝ) (J₀ : SparseMat ℝ) (s : State ℝ) : Prop where
  planned : s.equations.PlannedFor J₀.support damped
  first : s.iteration = 0 → s.values = initial
  scaled : useScaling = true → s.iteration ≠ 0 → s.scaling = some (.ofJacobian J₀)

/-- An iteration in the coordinates of the variables. The step `h` solves the normal equations with what was added to
the diagonal divided by the squares of the factors, and the gradient is taken in scaled coordinates. -/
structure Step.Solves (step : Step ℝ) (problem : Problem ℝ) (before : Values ℝ) (factors : Vec ℝ) (added : ℝ)
    (r : Vec ℝ) (J : SparseMat ℝ) (h : Vec ℝ) : Prop where
  linear : problem.linearize before = .ok (r, J)
  formed : J.WellFormed
  width : J.width = factors.length
  fits : r.length = J.height
  length : h.length = J.width
  moves : ∃ tried cost, problem.retract before h = .ok tried ∧ problem.cost tried = .ok cost ∧
    step.values = if step.accepted then tried else before
  stepNorm_eq : step.stepNorm = Vec.norm h
  gradientNorm_eq : step.gradientNorm = Vec.norm (List.zipWith (· * ·) (J.transposeMul r) factors)
  equation : ∀ a < J.width, (J.transposeMul (J.mulVec h)).getD a 0 +
    added * (1 / factors.getD a 0 ^ 2) * h.getD a 0 = -(J.transposeMul r).getD a 0
  rank : added = 0 → J.FullRank

section Iterations

variable {useScaling : Bool} {damping : Option ℝ} {problem : Problem ℝ} {initial : Values ℝ} {s : State ℝ}
  {r r₀ : Vec ℝ} {J J₀ : SparseMat ℝ} {d : Direction ℝ}

theorem State.start_follows (useScaling damped : Bool) (initial : Values ℝ) (J₀ : SparseMat ℝ) (cost : ℝ) :
    (start initial cost).Follows useScaling damped initial J₀ where
  planned := NormalEquations.plannedFor_nothing _ _
  first _ := rfl
  scaled _ later := absurd rfl later

/-- A step that leads to an estimate with a cost is taken. -/
theorem GaussNewton.take_exists {K : Type} [Scalar K] {problem : Problem K} {d : Direction K} {s : State K}
    {tried : Values K} {cost : K} (retracted : problem.retract s.values d.step = .ok tried)
    (known : problem.cost tried = .ok cost) : ∃ s' step, take problem d s = .ok (s', step) ∧ step.values = tried ∧
      step.cost = cost ∧ step.stepNorm = Vec.safeNorm d.step := by
  rw [take, retracted, Result.ok_bind, known]
  exact ⟨_, _, rfl, rfl, rfl, rfl⟩

theorem LevenbergMarquardt.attempt_exists {K : Type} [Scalar K] {config : LevenbergMarquardt K} {problem : Problem K}
    {d : Direction K} {s : DampedState K} {tried : Values K} {cost : K}
    (retracted : problem.retract s.values d.step = .ok tried) (known : problem.cost tried = .ok cost) :
    ∃ s' step, config.attempt problem d s = .ok (s', step) ∧ step.stepNorm = Vec.safeNorm d.step := by
  rw [attempt, retracted, Result.ok_bind, known]
  exact ⟨_, _, rfl, rfl⟩

/-- Every system of a run is scaled by the factors of the first one. -/
theorem State.Follows.rescaled {damped : Bool} (follows : s.Follows useScaling damped initial J₀)
    (inside : problem.pattern.Inside) (first : problem.linearize initial = .ok (r₀, J₀))
    (linear : problem.linearize s.values = .ok (r, J)) :
    J.WellFormed ∧ J.width = J₀.width ∧ J.support = J₀.support ∧
      let t := { s.updateScaling useScaling J with jacobianEvaluations := s.jacobianEvaluations + 1 }
      t.Ready useScaling damped J ∧ t.factors useScaling J = ColumnScaling.factorsFrom useScaling J₀ ∧
        (useScaling = true → t.scaling = some (.ofJacobian J₀)) := by
  obtain ⟨stored, formed⟩ := problem.linearize_stored inside linear
  obtain ⟨stored₀, -⟩ := problem.linearize_stored inside first
  have support : J.support = J₀.support := stored.trans stored₀.symm
  have width : J.width = J₀.width := by simpa [SparseMat.support, SparseMat.width] using congrArg List.length support
  refine ⟨formed, width, support, ?_⟩
  obtain ⟨scaling, frame⟩ := GaussNewton.updateScaling_frame useScaling J s
  have scaled : useScaling = true → (s.updateScaling useScaling J).scaling = some (.ofJacobian J₀) := by
    intro on
    unfold State.updateScaling
    rw [on, Bool.true_and]
    -- The first iteration makes the scaling of its own Jacobian, the later ones find it.
    by_cases begun : s.iteration = 0
    · obtain ⟨-, rfl⟩ := Prod.mk.inj (Except.ok.inj (linear.symm.trans ((follows.first begun).symm ▸ first)))
      rw [begun]
      rfl
    · rw [if_neg (by simpa using begun)]
      exact follows.scaled on begun
  refine ⟨⟨?_, fun on => ⟨_, scaled on, ?_, ?_⟩⟩, ?_, scaled⟩
  · rw [frame, support]
    exact follows.planned
  · rw [width]
    exact List.length_map _
  · have bounds : ∀ factor ∈ ColumnScaling.factorsFrom true J₀, _ := ColumnScaling.factorsFrom_bounds
    exact fun factor member => (bounds factor member).1.ne'
  · unfold State.factors ColumnScaling.factorsFrom
    cases useScaling with
    | true => simp only [scaled rfl, if_true]
    | false =>
        simp only [Bool.false_eq_true, if_false, width]
        cases (s.updateScaling false J).scaling <;> rfl

/-- A step of a direction, in the coordinates of the variables. -/
theorem Direction.Solves.step_solves {factors : Vec ℝ} (solves : d.Solves factors damping r J) {step : Step ℝ}
    {before : Values ℝ} (linear : problem.linearize before = .ok (r, J)) (formed : J.WellFormed)
    (width : J.width = factors.length) (fits : r.length = J.height) (nonzero : ∀ factor ∈ factors, factor ≠ 0)
    (moves : ∃ tried cost, problem.retract before d.step = .ok tried ∧ problem.cost tried = .ok cost ∧
      step.values = if step.accepted then tried else before)
    (stepNorm : step.stepNorm = Vec.safeNorm d.step) (gradientNorm : step.gradientNorm = Vec.safeNorm d.gradient) :
    step.Solves problem before factors (damping.getD 0) r J d.step where
  linear := linear
  formed := formed
  width := width
  fits := fits
  length := solves.length_step width.symm
  moves := moves
  stepNorm_eq := stepNorm.trans (Vec.safeNorm_eq_norm _)
  gradientNorm_eq := by rw [gradientNorm, Vec.safeNorm_eq_norm, solves.gradient_eq]
  equation a inside := solves.equation formed width.symm nonzero inside
  rank zero := (SparseMat.fullRank_scaleColumns width.symm nonzero).mp <|
    SparseMat.fullRank_of_positiveDefinite (SparseMat.scaleColumns_wellFormed formed) zero solves.definite

theorem GaussNewton.advance_solves {config : GaussNewton ℝ} (inside : problem.pattern.Inside)
    (first : problem.linearize initial = .ok (r₀, J₀))
    {s' : State ℝ} {step : Step ℝ} (follows : s.Follows config.useScaling config.damping.isSome initial J₀)
    (advanced : config.advance problem s = (s', .ok step)) :
    s'.Follows config.useScaling config.damping.isSome initial J₀ ∧ step.accepted = true ∧
      ∃ r J h, step.Solves problem s.values (ColumnScaling.factorsFrom config.useScaling J₀) (config.damping.getD 0)
        r J h := by
  obtain ⟨r, J, d, linear, solved, taken⟩ := advance_ok_iff.mp advanced
  obtain ⟨formed, width, support, ready, factors, scaled⟩ := follows.rescaled inside first linear
  have fits := State.direction_fits solved
  have solves := ready.direction_solves fits solved
  rw [factors] at solves
  have unmoved := config.rescaled_values J s
  simp only [take, Result.bind_ok_iff] at taken
  obtain ⟨moved, retracted, cost, known, done⟩ := taken
  obtain ⟨rfl, rfl⟩ := Prod.mk.inj (Except.ok.inj done)
  refine ⟨⟨support ▸ solves.planned, fun zero => absurd zero (Nat.succ_ne_zero _), fun on _ => scaled on⟩, rfl,
    r, J, d.step, solves.step_solves linear formed (width.trans (ColumnScaling.length_factorsFrom _ _).symm) fits
      (fun factor member => (ColumnScaling.factorsFrom_bounds factor member).1.ne')
      ⟨moved, cost, unmoved ▸ retracted, known, rfl⟩ rfl rfl⟩

theorem LevenbergMarquardt.rescaled_values {K : Type} [Scalar K] (config : LevenbergMarquardt K) (J : SparseMat K)
    (s : DampedState K) : (config.rescaled J s).values = s.values := by
  obtain ⟨scaling, -, frame⟩ := config.rescaled_eq J s
  rw [frame]

theorem LevenbergMarquardt.rescaled_damping {K : Type} [Scalar K] (config : LevenbergMarquardt K) (J : SparseMat K)
    (s : DampedState K) : (config.rescaled J s).damping = s.damping := by
  obtain ⟨scaling, -, frame⟩ := config.rescaled_eq J s
  rw [frame]

/-- An iteration reports the damping that it leaves. -/
theorem LevenbergMarquardt.advance_damping {config : LevenbergMarquardt ℝ} {s s' : DampedState ℝ} {step : Step ℝ}
    (advanced : config.advance problem s = (s', .ok step)) : s'.damping.lambda = step.damping.getD 0 := by
  obtain ⟨r, J, d, -, -, attempted⟩ := advance_ok_iff.mp advanced
  rw [attempt_damping attempted]
  rfl

theorem LevenbergMarquardt.advance_solves {config : LevenbergMarquardt ℝ} (inside : problem.pattern.Inside)
    (first : problem.linearize initial = .ok (r₀, J₀)) {s s' : DampedState ℝ} {step : Step ℝ}
    (follows : s.Follows config.useScaling true initial J₀) (advanced : config.advance problem s = (s', .ok step)) :
    s'.Follows config.useScaling true initial J₀ ∧
      ∃ r J h, step.Solves problem s.values (ColumnScaling.factorsFrom config.useScaling J₀) s.damping.lambda r J h := by
  obtain ⟨r, J, d, linear, solved, attempted⟩ := advance_ok_iff.mp advanced
  obtain ⟨formed, width, support, ready, factors, scaled⟩ := follows.rescaled inside first linear
  have solved' : (config.rescaled J s).direction config.useScaling (some s.damping.lambda) .because
      (.numericalInstability .gradientUnavailable) r J = .ok d := by
    rwa [direction, rescaled_damping] at solved
  have fits := State.direction_fits solved'
  have ready' : (config.rescaled J s).Ready config.useScaling (some s.damping.lambda).isSome J := ready
  have factors' : (config.rescaled J s).factors config.useScaling J = _ := factors
  have solves := ready'.direction_solves fits solved'
  rw [factors'] at solves
  simp only [attempt, Result.bind_ok_iff] at attempted
  obtain ⟨moved, retracted, cost, known, done⟩ := attempted
  obtain ⟨rfl, rfl⟩ := Prod.mk.inj (Except.ok.inj done)
  rw [rescaled_values] at retracted ⊢
  refine ⟨⟨support ▸ solves.planned, fun zero => absurd zero (Nat.succ_ne_zero _), fun on _ => scaled on⟩,
    r, J, d.step, solves.step_solves linear formed (width.trans (ColumnScaling.length_factorsFrom _ _).symm) fits
      (fun factor member => (ColumnScaling.factorsFrom_bounds factor member).1.ne')
      ⟨moved, cost, retracted, known, rfl⟩ rfl rfl⟩

namespace GaussNewton

theorem damping_eq_none {config : GaussNewton ℝ} (undamped : config.minDiagonal ≤ 0) : config.damping = none :=
  if_neg (by simpa using undamped)

theorem damping_getD (config : GaussNewton ℝ) : config.damping.getD 0 = max config.minDiagonal 0 := by
  rcases le_or_gt config.minDiagonal 0 with undamped | damped
  · rw [damping_eq_none undamped, max_eq_right undamped]
    rfl
  · simp [damping, damped, damped.le]

theorem damping_nonneg (config : GaussNewton ℝ) : 0 ≤ config.damping.getD 0 :=
  (le_max_right _ _).trans_eq config.damping_getD.symm

section Unscaled

variable {config : GaussNewton ℝ} (unscaled : config.useScaling = false)
  (planned : s.equations.PlannedFor J.support config.damping.isSome)
include unscaled planned

/-- Without scaling the system of an iteration is ready, with factors of one. -/
theorem unscaled_ready : (config.rescaled J s).Ready config.useScaling config.damping.isSome J ∧
    (config.rescaled J s).factors config.useScaling J = List.replicate J.width 1 := by
  refine ⟨⟨?_, fun on => absurd (unscaled.symm.trans on) Bool.false_ne_true⟩, ?_⟩
  · obtain ⟨scaling, frame⟩ := updateScaling_frame config.useScaling J s
    rw [rescaled, frame]
    exact planned
  · rw [unscaled]
    unfold State.factors
    cases (config.rescaled J s).scaling <;> rfl

/-- The step of an unscaled system solves the normal equations as they are. -/
theorem unscaled_equation (formed : J.WellFormed) (solved : config.direction r J (config.rescaled J s) = .ok d) :
    d.step.length = J.width ∧ ∀ a < J.width, (J.transposeMul (J.mulVec d.step)).getD a 0 +
      max config.minDiagonal 0 * d.step.getD a 0 = -(J.transposeMul r).getD a 0 := by
  obtain ⟨ready, ones⟩ := unscaled_ready unscaled planned
  have solves := ready.direction_solves (State.direction_fits solved) solved
  rw [ones] at solves
  have length : (List.replicate J.width (1 : ℝ)).length = J.width := List.length_replicate
  refine ⟨solves.length_step length, fun a inside => ?_⟩
  have row := solves.equation formed length (by simp) inside
  simpa [inside, damping_getD] using row

theorem unscaled_direction_exists (fits : r.length = J.height) (definite : (J.damped config.damping).PositiveDefinite) :
    ∃ d, config.direction r J (config.rescaled J s) = .ok d := by
  obtain ⟨ready, ones⟩ := unscaled_ready unscaled planned
  have definite' : ((J.scaleColumns ((config.rescaled J s).factors config.useScaling J)).damped
      config.damping).PositiveDefinite := by
    rwa [ones, SparseMat.scaleColumns_ones]
  obtain ⟨d, solved, -⟩ := ready.direction_exists fits definite' (fun _ => .gaussNewton)
    (.linearSolveFailed .gradientUnavailable)
  exact ⟨d, solved⟩

end Unscaled

/-- Where nothing is added to the diagonal, an iteration without scaling makes the same step from the same estimate. -/
theorem advance_unscaled {config : GaussNewton ℝ} (undamped : config.minDiagonal ≤ 0) {before : Values ℝ}
    {factors h : Vec ℝ} {step : Step ℝ} (solved : step.Solves problem before factors 0 r J h)
    (accepted : step.accepted = true) (here : s.values = before) (planned : s.equations.PlannedFor J.support false) :
    let plain : GaussNewton ℝ := { config with useScaling := false }
    ∃ d s' step', plain.direction r J (plain.rescaled J s) = .ok d ∧ d.step = h ∧
      plain.advance problem s = (s', .ok step') ∧ step'.values = step.values ∧ step'.stepNorm = step.stepNorm := by
  intro plain
  have rank := solved.rank rfl
  have damping : plain.damping = none := damping_eq_none undamped
  have planned' : s.equations.PlannedFor J.support plain.damping.isSome := by rwa [damping]
  have definite : (J.damped plain.damping).PositiveDefinite :=
    rank.positiveDefinite solved.formed (by rw [damping]; exact le_rfl)
  obtain ⟨d, found⟩ := unscaled_direction_exists rfl planned' solved.fits definite
  obtain ⟨length, equation⟩ := unscaled_equation rfl planned' solved.formed found
  -- With nothing added the equations of both steps are the same, whatever the factors are.
  have same : d.step = h := by
    refine rank.unique solved.formed length solved.length fun a inside => ?_
    have plainly := equation a inside
    have scaled := solved.equation a inside
    rw [max_eq_right (show plain.minDiagonal ≤ 0 from undamped), zero_mul, add_zero] at plainly
    rw [zero_mul, zero_mul, add_zero] at scaled
    exact plainly.trans scaled.symm
  obtain ⟨tried, cost, retracted, known, values⟩ := solved.moves
  rw [accepted, if_pos rfl] at values
  have moved : problem.retract (plain.rescaled J s).values d.step = .ok tried := by
    rw [rescaled_values, here, same]
    exact retracted
  obtain ⟨s', step', done, values', -, norm⟩ := take_exists moved known
  refine ⟨d, s', step', found, same, advance_ok_iff.mpr ⟨r, J, d, here ▸ solved.linear, found, done⟩,
    values'.trans values.symm, ?_⟩
  rw [norm, Vec.safeNorm_eq_norm, same, solved.stepNorm_eq]

end GaussNewton

end Iterations

section Runs

variable {clock : Clock} {problem : Problem ℝ} {initial : Values ℝ} {cost : ℝ} {method : Method ℝ} {run : Run ℝ}

/-- Every iteration that a run reports solves the system of its estimate, scaled by the factors of the first one. -/
theorem Method.Loops.solves (loops : method.Loops clock problem initial cost run) (inside : problem.pattern.Inside)
    {i : Nat} {step : Step ℝ} (reported : run.steps[i]? = some step) :
    ∃ r₀ J₀ r J h, problem.linearize initial = .ok (r₀, J₀) ∧
      step.Solves problem (run.estimate initial i) (ColumnScaling.factorsFrom method.criteria.useScaling J₀)
        (method.added run i) r J h ∧
      ∀ config, method = .gaussNewton config → step.accepted = true := by
  obtain ⟨bound, -⟩ := List.getElem?_eq_some_iff.mp reported
  have begun : run.steps[0]? = some run.steps[0] := List.getElem?_eq_getElem (by omega)
  cases loops with
  | @gaussNewton config history loops =>
      obtain ⟨r₀, J₀, -, first, -⟩ := GaussNewton.advance_ok_iff.mp (loops.advances begun)
      have preserved (s s' : State ℝ) (step : Step ℝ)
          (follows : s.Follows config.useScaling config.damping.isSome initial J₀)
          (advanced : config.advance problem s = (s', .ok step)) :
          s'.Follows config.useScaling config.damping.isSome initial J₀ :=
        (GaussNewton.advance_solves inside first follows advanced).1
      have follows := loops.before_preserved (State.start_follows _ _ _ _ cost) preserved i bound.le
      obtain ⟨-, accepted, r, J, h, solves⟩ :=
        GaussNewton.advance_solves inside first follows (loops.advances reported)
      have estimate := loops.carried (fun s s' step advanced => (config.advance_retracts problem advanced).1) bound.le
      refine ⟨r₀, J₀, r, J, h, first, ?_, fun _ _ => accepted⟩
      rw [Run.estimate, List.getD_eq_getElem?_getD]
      exact estimate ▸ solves
  | @levenbergMarquardt config history loops =>
      obtain ⟨r₀, J₀, -, first, -⟩ := LevenbergMarquardt.advance_ok_iff.mp (loops.advances begun)
      have preserved (s s' : DampedState ℝ) (step : Step ℝ) (follows : s.Follows config.useScaling true initial J₀)
          (advanced : config.advance problem s = (s', .ok step)) : s'.Follows config.useScaling true initial J₀ :=
        (LevenbergMarquardt.advance_solves inside first follows advanced).1
      have follows := loops.before_preserved (State.start_follows _ _ _ _ cost) preserved i bound.le
      obtain ⟨-, r, J, h, solves⟩ := LevenbergMarquardt.advance_solves inside first follows (loops.advances reported)
      have estimate := loops.carried (fun s s' step advanced => (config.advance_retracts problem advanced).1) bound.le
      have added := loops.carried (fun s s' step advanced => LevenbergMarquardt.advance_damping advanced) bound.le
      refine ⟨r₀, J₀, r, J, h, first, ?_, fun _ other => nomatch other⟩
      rw [Run.estimate, Method.added, List.getD_eq_getElem?_getD, List.getD_eq_getElem?_getD]
      exact estimate ▸ added ▸ solves

end Runs

end LeastSquares

end GraduatedFit

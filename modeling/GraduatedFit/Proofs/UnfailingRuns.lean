import GraduatedFit.Proofs.RegularizedSystems
import GraduatedFit.Proofs.ZeroWeight

/-! Where its factors evaluate a run that regularizes its systems has no failure of its own: it returns a result. -/

namespace GraduatedFit

open GraduatedFit.Result

theorem Noise.error_exists {K : Type} [Scalar K] {model : Noise K} (square : model.Square) {r : Vec K}
    (length : r.length = model.dim) : ∃ e, model.error? r = some e := by
  obtain ⟨whitened, found⟩ := whiten_exists square length
  unfold error?
  rw [found]
  cases model <;> exact ⟨_, rfl⟩

namespace GraphFactor

variable {K : Type} {f : GraphFactor K} {values : Values K}

/-- The factor evaluates at an estimate: its residual is of the dimension of the noise model, and where a Jacobian is
wanted it is as high and has a column for each component of the variables. -/
def Evaluates (f : GraphFactor K) (values : Values K) (wanted : Bool) : Prop :=
  ∃ params residual jacobian, f.params values = .ok params ∧
    f.factor.value.linearize? params wanted = some (residual, jacobian) ∧ residual.length = f.noise.dim ∧
      (wanted = true → ∃ A, jacobian = some A ∧ A.height = f.noise.dim ∧ A.width = params.flatten.length)

variable [Scalar K]

theorem Evaluates.error_exists (evaluates : f.Evaluates values false) (square : f.noise.Square) :
    ∃ e, f.error values = .ok e := by
  obtain ⟨params, residual, jacobian, found, evaluated, length, -⟩ := evaluates
  obtain ⟨e, known⟩ := Noise.error_exists square length
  exact ⟨e, error_ok_iff.mpr ⟨params, residual, jacobian, found, evaluated, length, known⟩⟩

theorem Evaluates.system_exists (evaluates : f.Evaluates values true) (square : f.noise.Square) :
    ∃ system, f.HasSystem values system := by
  obtain ⟨params, residual, jacobian, found, evaluated, length, shaped⟩ := evaluates
  obtain ⟨A, rfl, height, width⟩ := shaped rfl
  exact hasSystem_of_evaluated square found evaluated length height width

/-- A factor that is always the same evaluates where its variable has one component. -/
theorem fixed_evaluates {x : ℝ} {values : Values ℝ} (shape : (Values.single x).SameShape values) (tag : Nat)
    (residual : ℝ) {noise : Noise ℝ} (one : noise.dim = 1) (wanted : Bool) :
    Evaluates ⟨["x"], ⟨tag, .fixed residual⟩, noise⟩ values wanted := by
  obtain ⟨v, found, length⟩ := Option.map_eq_some_iff.mp (shape "x")
  have params : params ⟨["x"], ⟨tag, .fixed residual⟩, noise⟩ values = .ok [v] := by
    simp [GraphFactor.params, Values.find, found]
  refine ⟨[v], [residual], _, params, rfl, one.symm, fun want => ?_⟩
  subst want
  exact ⟨_, rfl, one.symm, by simpa [Mat.ofFn] using length.symm⟩

end GraphFactor

theorem Pattern.length_places (K : Type) [Scalar K] (pattern : Pattern) :
    (pattern.places K).length = pattern.width := by
  simp [places, SparseMat.support, SparseMat.ofEntries]

namespace LeastSquares

section Problems

variable {graph : Graph ℝ} {initial values : Values ℝ} {problem : Problem ℝ}

theorem Problem.cost_exists (prepared : Problem.prepare graph initial = .ok problem)
    (square : ∀ f ∈ graph.factors, f.noise.Square) (evaluates : ∀ f ∈ graph.factors, f.Evaluates values false) :
    ∃ cost, problem.cost values = .ok cost := by
  obtain ⟨errors, known⟩ := Result.mapM_exists fun f member => (evaluates f member).error_exists (square f member)
  rw [Problem.cost, (Problem.prepare_ok prepared).1, Graph.error, Graph.factorErrors, known]
  exact ⟨_, rfl⟩

/-- A graph with a degree of freedom is a problem at an estimate that has its variables. -/
theorem Problem.prepare_exists (addressable : (graph.factors.map (·.noise.dim)).sum < 2 ^ 64)
    (known : ∀ f ∈ graph.factors, ∀ key ∈ f.keys, initial.contains key = true)
    (free : ∃ f ∈ graph.factors, ∃ key ∈ f.keys, 0 < initial.sizeOf key) :
    ∃ problem, Problem.prepare graph initial = .ok problem := by
  obtain ⟨f, present, key, referred, wide⟩ := free
  obtain ⟨layout, laid⟩ := Graph.layout_exists known
  have columns := Graph.layout_columns laid
  obtain ⟨positions, found⟩ := columns.pattern_exists addressable
  have holds := columns.holds (columns.listed present referred) wide
  have inside := columns.inside _ _ _ holds
  have occupied : graph.isEmpty = false := by simpa [Graph.isEmpty] using List.ne_nil_of_mem present
  exact ⟨_, Problem.prepare_ok_iff.mpr ⟨occupied, layout, laid, by omega, _, found, rfl⟩⟩

variable (prepared : Problem.prepare graph initial = .ok problem) (shape : initial.SameShape values)
include prepared shape

/-- At estimates of the initial shape a problem has a linear system with the places of its pattern. -/
theorem Problem.linearize_exists (square : ∀ f ∈ graph.factors, f.noise.Square)
    (addressable : (graph.factors.map (·.noise.dim)).sum < 2 ^ 64)
    (evaluates : ∀ f ∈ graph.factors, f.Evaluates values true) :
    ∃ r J, problem.linearize values = .ok (r, J) ∧ r.length = J.height ∧ J.support = problem.pattern.places ℝ ∧
      J.WellFormed := by
  obtain ⟨-, layout, laid, -, pattern, found, rfl⟩ := Problem.prepare_ok_iff.mp prepared
  rw [← Graph.pattern_shape shape] at found
  obtain ⟨systems, each⟩ := forall₂_exists fun f member => (evaluates f member).system_exists (square f member)
  have linear := ((Graph.layout_columns laid).of_shape shape).linearize_systems found each
  obtain ⟨stored, formed⟩ := Graph.linearize_stored (Graph.pattern_inside found) linear
  refine ⟨_, _, linear, ?_, stored, formed⟩
  obtain ⟨positions, -, -, rfl⟩ := Graph.pattern_ok_iff.mp found
  exact (Graph.length_residual each).trans (Graph.residualDimension_eq addressable).symm

theorem Problem.retract_exists {step : Vec ℝ} (length : step.length = (problem.pattern.places ℝ).length) :
    ∃ moved, problem.retract values step = .ok moved ∧ initial.SameShape moved := by
  obtain ⟨-, layout, laid, -, pattern, found, rfl⟩ := Problem.prepare_ok_iff.mp prepared
  obtain ⟨positions, -, -, rfl⟩ := Graph.pattern_ok_iff.mp found
  rw [Pattern.length_places] at length
  obtain ⟨moved, retracted, -⟩ := ((Graph.layout_columns laid).of_shape shape).retract_exists step length.ge
  have done : Problem.retract ⟨graph, layout, ⟨graph.residualDimension, layout.totalDof, positions⟩⟩ values step =
      .ok moved := Result.ofShape_ok_iff.mpr retracted
  exact ⟨moved, done, Problem.retract_sameShape shape done⟩

end Problems

section Loops

variable {K σ : Type} {scheme : Scheme K σ} {limit : Nat} {Inv : σ → Prop}

/-- A loop returns if every iteration succeeds wherever it can evaluate what it asks for. -/
theorem Scheme.Loops.returns {estimate : σ → Values K} {candidate : σ → Result K (Values K)}
    {Evaluates : Values K → Bool → Prop}
    (progress : ∀ s, Inv s → Evaluates (estimate s) true →
      (∀ values, candidate s = .ok values → Evaluates values false) →
      ∃ s' step, scheme.advance s = (s', .ok step) ∧ Inv s')
    {start : σ} {history : History K σ} (loops : scheme.Loops limit start history) (initial : Inv start)
    (evaluates : ∀ values wanted, scheme.Asks limit estimate candidate start values wanted → Evaluates values wanted) :
    ∃ result, history.outcome = .ok result := by
  have each (s : σ) (before : Inv s)
      (evaluates : ∀ values wanted, scheme.Asks limit estimate candidate s values wanted → Evaluates values wanted) :=
    progress s before (evaluates _ _ (.start s)) fun values chosen => evaluates _ _ (.tried chosen)
  induction loops with
  | failed advanced =>
      obtain ⟨s', step, succeeded, -⟩ := each _ initial evaluates
      cases (Prod.mk.inj (advanced.symm.trans succeeded)).2
  | decided advanced verdict => exact ⟨_, rfl⟩
  | undecided advanced verdict later ih =>
      obtain ⟨s', step, succeeded, after⟩ := each _ initial evaluates
      obtain ⟨rfl, same⟩ := Prod.mk.inj (advanced.symm.trans succeeded)
      exact ih after fun values wanted asked => evaluates values wanted (.later advanced verdict asked)

end Loops

section Iterations

variable {graph : Graph ℝ} {initial : Values ℝ} {problem : Problem ℝ}
variable (prepared : Problem.prepare graph initial = .ok problem) (square : ∀ f ∈ graph.factors, f.noise.Square)
  (addressable : (graph.factors.map (·.noise.dim)).sum < 2 ^ 64)
include prepared square addressable

/-- A regularized system of the problem is formed and solved, and the step can be taken from the estimate. -/
theorem State.Equipped.trial_exists {useScaling : Bool} {s : State ℝ}
    (equipped : s.Equipped useScaling (problem.pattern.places ℝ)) (shape : initial.SameShape s.values)
    (evaluates : ∀ f ∈ graph.factors, f.Evaluates s.values true) {damping : ℝ} (positive : 0 < damping)
    (fault : LinearError → SystemFault) (noGradient : SolveError ℝ) :
    ∃ r J d moved, problem.linearize s.values = .ok (r, J) ∧
      let scaled := { s.updateScaling useScaling J with jacobianEvaluations := s.jacobianEvaluations + 1 }
      scaled.direction useScaling (some damping) fault noGradient r J = .ok d ∧
      problem.retract s.values d.step = .ok moved ∧ initial.SameShape moved ∧
      ∀ s' : State ℝ, s'.scaling = scaled.scaling → s'.equations = d.equations →
        s'.Equipped useScaling (problem.pattern.places ℝ) := by
  obtain ⟨r, J, linear, fits, stored, formed⟩ := Problem.linearize_exists prepared shape square addressable evaluates
  obtain ⟨scaled, scales⟩ := equipped.updateScaling stored
  have equipped' : State.Equipped useScaling (problem.pattern.places ℝ)
      { s.updateScaling useScaling J with jacobianEvaluations := s.jacobianEvaluations + 1 } :=
    ⟨scaled.planned, scaled.sized, scaled.scaled⟩
  obtain ⟨d, solved, length, planned⟩ :=
    equipped'.direction_exists scales stored formed fits positive fault noGradient
  obtain ⟨moved, retracted, shape'⟩ := Problem.retract_exists prepared shape length
  refine ⟨r, J, d, moved, linear, solved, retracted, shape', fun s' scaling equations => ?_⟩
  exact ⟨equations ▸ planned, fun other present => scaled.sized other (scaling.symm.trans present),
    fun on _ => (scales on).imp fun _ present => scaling.trans present⟩

theorem GaussNewton.advance_exists {config : GaussNewton ℝ} (regular : 0 < config.minDiagonal) {s : State ℝ}
    (equipped : s.Equipped config.useScaling (problem.pattern.places ℝ)) (shape : initial.SameShape s.values)
    (evaluates : ∀ f ∈ graph.factors, f.Evaluates s.values true)
    (tried : ∀ values, config.candidate problem s = .ok values → ∀ f ∈ graph.factors, f.Evaluates values false) :
    ∃ s' step, config.advance problem s = (s', .ok step) ∧
      s'.Equipped config.useScaling (problem.pattern.places ℝ) ∧ initial.SameShape s'.values := by
  obtain ⟨r, J, d, moved, linear, solved, retracted, shape', next⟩ := equipped.trial_exists prepared square addressable
    shape evaluates regular (fun _ => .gaussNewton) (.linearSolveFailed .gradientUnavailable)
  have damping : config.damping = some config.minDiagonal := by simp [GaussNewton.damping, regular]
  have solved : config.direction r J (config.rescaled J s) = .ok d := by rwa [direction, damping]
  have chosen : config.candidate problem s = .ok moved := by
    simp only [candidate, bind_ok_iff, Prod.exists]
    exact ⟨r, J, linear, d, solved, retracted⟩
  obtain ⟨cost, known⟩ := Problem.cost_exists prepared square (tried moved chosen)
  rw [← config.rescaled_values J s] at retracted
  have taken : ∃ s' step, take problem d (config.rescaled J s) = .ok (s', step) ∧
      s'.Equipped config.useScaling (problem.pattern.places ℝ) ∧ initial.SameShape s'.values := by
    rw [take, retracted, Result.ok_bind, known]
    exact ⟨_, _, rfl, next _ rfl rfl, shape'⟩
  obtain ⟨s', step, done, after⟩ := taken
  exact ⟨s', step, advance_ok_iff.mpr ⟨r, J, d, linear, solved, done⟩, after⟩

theorem LevenbergMarquardt.advance_exists {config : LevenbergMarquardt ℝ} {s : DampedState ℝ}
    (positive : s.damping.Positive) (equipped : s.Equipped config.useScaling (problem.pattern.places ℝ))
    (shape : initial.SameShape s.values) (evaluates : ∀ f ∈ graph.factors, f.Evaluates s.values true)
    (tried : ∀ values, config.candidate problem s = .ok values → ∀ f ∈ graph.factors, f.Evaluates values false) :
    ∃ s' step, config.advance problem s = (s', .ok step) ∧
      s'.Equipped config.useScaling (problem.pattern.places ℝ) ∧ initial.SameShape s'.values := by
  obtain ⟨r, J, d, moved, linear, solved, retracted, shape', next⟩ := equipped.trial_exists prepared square addressable
    shape evaluates positive.lambda .because (.numericalInstability .gradientUnavailable)
  have solved : config.direction r J (config.rescaled J s) = .ok d := solved
  have chosen : config.candidate problem s = .ok moved := by
    simp only [candidate, bind_ok_iff, Prod.exists]
    exact ⟨r, J, linear, d, solved, retracted⟩
  obtain ⟨cost, known⟩ := Problem.cost_exists prepared square (tried moved chosen)
  have unmoved : (config.rescaled J s).values = s.values := by
    obtain ⟨scaling, -, frame⟩ := config.rescaled_eq J s
    rw [frame]
  rw [← unmoved] at retracted shape
  have attempted : ∃ s' step, config.attempt problem d (config.rescaled J s) = .ok (s', step) ∧
      s'.Equipped config.useScaling (problem.pattern.places ℝ) ∧ initial.SameShape s'.values := by
    rw [attempt, retracted, Result.ok_bind, known]
    refine ⟨_, _, rfl, next _ rfl rfl, ?_⟩
    dsimp only
    split
    · exact shape'
    · exact shape
  obtain ⟨s', step, done, after⟩ := attempted
  exact ⟨s', step, advance_ok_iff.mpr ⟨r, J, d, linear, solved, done⟩, after⟩

end Iterations

/-- The damping stays positive, and an iteration reports the one that it leaves. -/
theorem LevenbergMarquardt.advance_positive {config : LevenbergMarquardt ℝ} {problem : Problem ℝ}
    (upper : 0 < config.dampingMax) {s s' : DampedState ℝ} {step : Step ℝ} (positive : s.damping.Positive)
    (advanced : config.advance problem s = (s', .ok step)) :
    s'.damping.Positive ∧ ∃ lambda, step.damping = some lambda ∧ 0 < lambda := by
  obtain ⟨r, J, d, -, -, attempted⟩ := advance_ok_iff.mp advanced
  obtain ⟨scaling, -, frame⟩ := config.rescaled_eq J s
  have same : (config.rescaled J s).damping = s.damping := by rw [frame]
  obtain ⟨tried, newCost, -, -, outcome⟩ := attempt_ok attempted
  have after : s'.damping.Positive := outcome.positive upper (same ▸ positive)
  exact ⟨after, _, attempt_damping attempted, after.lambda⟩

/-- What is added to the diagonal of every system is positive. -/
def Method.Regular : Method ℝ → Prop
  | gaussNewton config => 0 < config.minDiagonal
  | levenbergMarquardt config => 0 < config.damping ∧ 0 < config.dampingMax ∧ 0 < config.dampingNu

section Runs

variable {graph : Graph ℝ} {initial : Values ℝ} {problem : Problem ℝ} {cost : ℝ} {clock : Clock} {run : Run ℝ}

theorem Method.Loops.returns {solver : Solver ℝ} (regular : solver.method.Regular)
    (square : ∀ f ∈ graph.factors, f.noise.Square) (addressable : (graph.factors.map (·.noise.dim)).sum < 2 ^ 64)
    (prepared : Problem.prepare graph initial = .ok problem) (known : graph.error initial = .ok cost)
    (evaluates : ∀ values wanted, solver.Asks clock graph initial values wanted →
      ∀ f ∈ graph.factors, f.Evaluates values wanted)
    (loops : solver.method.Loops clock problem initial cost run) : ∃ solution, run.outcome = .ok solution := by
  obtain ⟨method, scaling⟩ := solver
  dsimp only at regular loops
  cases loops with
  | @gaussNewton config history loops =>
      have progress (s : State ℝ)
          (before : s.Equipped config.useScaling (problem.pattern.places ℝ) ∧ initial.SameShape s.values) :=
        GaussNewton.advance_exists prepared square addressable regular before.1 before.2
      obtain ⟨result, ended⟩ := loops.returns progress ⟨State.start_equipped _ _ initial cost, fun _ => rfl⟩
        fun values wanted asked => evaluates values wanted (.gaussNewton rfl prepared known asked)
      exact ⟨_, Result.except_map_ok_iff.mpr ⟨result, ended, rfl⟩⟩
  | @levenbergMarquardt config history loops =>
      obtain ⟨damping, upper, nu⟩ := regular
      have progress (s : DampedState ℝ) (before : s.damping.Positive ∧
          s.Equipped config.useScaling (problem.pattern.places ℝ) ∧ initial.SameShape s.values)
          (here : ∀ f ∈ graph.factors, f.Evaluates s.values true)
          (tried : ∀ values, config.candidate problem s = .ok values → ∀ f ∈ graph.factors, f.Evaluates values false) :
          ∃ s' step, config.advance problem s = (s', .ok step) ∧ s'.damping.Positive ∧
            s'.Equipped config.useScaling (problem.pattern.places ℝ) ∧ initial.SameShape s'.values := by
        obtain ⟨s', step, advanced, after⟩ :=
          LevenbergMarquardt.advance_exists prepared square addressable before.1 before.2.1 before.2.2 here tried
        exact ⟨s', step, advanced, (LevenbergMarquardt.advance_positive upper before.1 advanced).1, after⟩
      obtain ⟨result, ended⟩ := loops.returns progress
        ⟨⟨damping, nu⟩, State.start_equipped _ _ initial cost, fun _ => rfl⟩
        fun values wanted asked => evaluates values wanted (.levenbergMarquardt rfl prepared known asked)
      exact ⟨_, Result.except_map_ok_iff.mpr ⟨result, ended, rfl⟩⟩

/-- Every iteration of a damped run starts with a positive damping and reports one. -/
theorem Method.Loops.positive {config : LevenbergMarquardt ℝ} (damping : 0 < config.damping)
    (upper : 0 < config.dampingMax) (nu : 0 < config.dampingNu)
    (loops : (Method.levenbergMarquardt config).Loops clock problem initial cost run) :
    (∀ i ≤ run.steps.length,
      0 < ((config.scheme clock problem).before (config.start initial cost) i).damping.lambda) ∧
    ∀ step ∈ run.steps, ∃ lambda, step.damping = some lambda ∧ 0 < lambda := by
  cases loops with
  | levenbergMarquardt loops =>
      have start : (config.start initial cost).damping.Positive := ⟨damping, nu⟩
      have preserved (s s' : DampedState ℝ) (step : Step ℝ) (positive : s.damping.Positive)
          (advanced : config.advance problem s = (s', .ok step)) :=
        LevenbergMarquardt.advance_positive upper positive advanced
      refine ⟨fun i made => ?_, loops.always start preserved⟩
      exact (loops.before_preserved start (fun s s' step positive advanced =>
        (preserved s s' step positive advanced).1) i made).lambda

/-- In exact arithmetic the regularized systems of a run are always solved, whatever the ranks of its Jacobians are: if
the graph has a degree of freedom and if its factors evaluate wherever the run asks for them, Gauss-Newton with a positive
addition to the diagonal and Levenberg-Marquardt with a positive damping return a result. The damping is positive before
every iteration and after it. -/
theorem Solver.regularized_returns (solver : Solver ℝ) (regular : solver.method.Regular) (clock : Clock)
    (graph : Graph ℝ) (initial : Values ℝ) (square : ∀ f ∈ graph.factors, f.noise.Square)
    (addressable : (graph.factors.map (·.noise.dim)).sum < 2 ^ 64)
    (known : ∀ f ∈ graph.factors, ∀ key ∈ f.keys, initial.contains key = true)
    (free : ∃ f ∈ graph.factors, ∃ key ∈ f.keys, 0 < initial.sizeOf key)
    (evaluates : ∀ values wanted, solver.Asks clock graph initial values wanted →
      ∀ f ∈ graph.factors, f.Evaluates values wanted) :
    let run := (solver.optimize clock graph initial).2
    (∃ solution, run.outcome = .ok solution) ∧
      ∀ config, solver.method = .levenbergMarquardt config → ∃ problem cost,
        Problem.prepare graph initial = .ok problem ∧ graph.error initial = .ok cost ∧
        (∀ i ≤ run.steps.length,
          0 < ((config.scheme clock problem).before (config.start initial cost) i).damping.lambda) ∧
        ∀ step ∈ run.steps, ∃ lambda, step.damping = some lambda ∧ 0 < lambda := by
  obtain ⟨problem, prepared⟩ := Problem.prepare_exists addressable known free
  obtain ⟨cost, initially⟩ := Problem.cost_exists prepared square (evaluates _ _ (.initial prepared))
  rw [Problem.cost, (Problem.prepare_ok prepared).1] at initially
  have loops := solver.optimize_loops clock prepared initially
  refine ⟨loops.returns regular square addressable prepared initially evaluates, fun config damped => ?_⟩
  rw [damped] at loops regular
  obtain ⟨damping, upper, nu⟩ := regular
  exact ⟨problem, cost, prepared, initially, loops.positive damping upper nu⟩

/-- The only variable is constrained by a slot of weight zero. -/
theorem Solver.single_weightless_returns :
    let config : LevenbergMarquardt ℝ := { LevenbergMarquardt.standard with useScaling := true }
    ∃ g solution, (Graph.single 4 1).reweight [0] = .ok g ∧
      ((Method.levenbergMarquardt config).build.optimize (fun _ => 0) g (.single 0)).2.outcome = .ok solution := by
  intro config
  have regular : (Method.levenbergMarquardt config).Regular := by
    norm_num [Method.Regular, config, LevenbergMarquardt.standard]
  have square : ∀ f ∈ (Graph.single 4 (1 / √0)).factors, f.noise.Square := by simp [Graph.single, Noise.Square]
  have addressable : ((Graph.single 4 (1 / √0)).factors.map (·.noise.dim)).sum < 2 ^ 64 := by
    simp [Graph.single, Noise.dim]
  have known : ∀ f ∈ (Graph.single 4 (1 / √0)).factors, ∀ key ∈ f.keys, (Values.single 0).contains key = true := by
    simp [Graph.single, Values.contains, Values.get?, Values.single]
  have free : ∃ f ∈ (Graph.single 4 (1 / √0)).factors, ∃ key ∈ f.keys, 0 < (Values.single 0).sizeOf key := by
    simp [Graph.single, Values.sizeOf, Values.dim?, Values.get?, Values.single]
  obtain ⟨⟨solution, returned⟩, -⟩ := Solver.regularized_returns (Method.levenbergMarquardt config).build regular
    (fun _ => 0) (Graph.single 4 (1 / √0)) (Values.single 0) square addressable known free
    fun values wanted asked f member => by
      obtain rfl := List.mem_singleton.mp member
      exact GraphFactor.fixed_evaluates asked.sameShape 0 4 rfl wanted
  exact ⟨_, solution, Graph.single_reweight 4 1 le_rfl, returned⟩

end Runs

end LeastSquares

end GraduatedFit

import GraduatedFit.Proofs.MatchedRuns
import GraduatedFit.Proofs.RaisedErrors
import GraduatedFit.Proofs.SameNumbers

/-! Problems whose systems have the same numbers are solved in the same iterations, and fail alike, if the costs and the
systems agree wherever a run asks for them. -/

namespace GraduatedFit.LeastSquares

open GraduatedFit.Result

section Asking

variable {K σ : Type}

/-- Where a loop evaluates its problem from a state on: with Jacobians at the estimates that its iterations start from,
without at those that they try. -/
inductive Scheme.Asks (scheme : Scheme K σ) (limit : Nat) (estimate : σ → Values K)
    (candidate : σ → Result K (Values K)) : σ → Values K → Bool → Prop
  | start (s : σ) : Asks scheme limit estimate candidate s (estimate s) true
  | tried {s : σ} {values : Values K} (chosen : candidate s = .ok values) :
      Asks scheme limit estimate candidate s values false
  | later {s s' : σ} {step : Step K} {values : Values K} {wanted : Bool}
      (advanced : scheme.advance s = (s', .ok step)) (verdict : scheme.verdict limit step = none)
      (rest : Asks scheme limit estimate candidate s' values wanted) :
      Asks scheme limit estimate candidate s values wanted

/-- What holds of every estimate on the way, and of what is tried from there, holds wherever a loop asks. -/
theorem Scheme.Asks.always {scheme : Scheme K σ} {limit : Nat} {estimate : σ → Values K}
    {candidate : σ → Result K (Values K)} {Holds : Values K → Prop}
    (tried : ∀ s values, Holds (estimate s) → candidate s = .ok values → Holds values)
    (preserved : ∀ s s' step, Holds (estimate s) → scheme.advance s = (s', .ok step) → Holds (estimate s'))
    {s : σ} {values : Values K} {wanted : Bool} (asked : scheme.Asks limit estimate candidate s values wanted)
    (initial : Holds (estimate s)) : Holds values := by
  induction asked with
  | start s => exact initial
  | tried chosen => exact tried _ _ initial chosen
  | later advanced verdict rest ih => exact ih (preserved _ _ _ initial advanced)

/-- What a scheme does in an iteration, as one computation. -/
def Scheme.Iterates (scheme : Scheme K σ) (iteration : σ → Result K (σ × Step K)) : Prop :=
  ∀ s, (∀ failure, iteration s = .error failure → (scheme.advance s).2 = .error failure) ∧
    ∀ s' step, iteration s = .ok (s', step) → scheme.advance s = (s', .ok step)

variable {scheme scheme' : Scheme K σ} {iteration iteration' : σ → Result K (σ × Step K)} {R : σ → σ → Prop}

/-- Both schemes fail alike in an iteration, or both make the same step. -/
theorem Scheme.Iterates.alongside (iterates : scheme.Iterates iteration) (iterates' : scheme'.Iterates iteration')
    {s t : σ} (both : Alongside (fun a b => R a.1 b.1 ∧ b.2 = a.2) (iteration s) (iteration' t)) :
    (∃ s' t' failure, scheme.advance s = (s', .error failure) ∧ scheme'.advance t = (t', .error failure)) ∨
    ∃ s' t' step, scheme.advance s = (s', .ok step) ∧ scheme'.advance t = (t', .ok step) ∧ R s' t' := by
  generalize first : iteration s = result at both
  generalize second : iteration' t = result' at both
  cases both with
  | failed failure =>
      exact .inl ⟨_, _, failure, Prod.ext rfl ((iterates s).1 _ first), Prod.ext rfl ((iterates' t).1 _ second)⟩
  | @returned a b related =>
      obtain ⟨related, same⟩ := related
      have advanced := (iterates' t).2 b.1 b.2 second
      rw [same] at advanced
      exact .inr ⟨a.1, b.1, a.2, (iterates s).2 _ _ first, advanced, related⟩

/-- Two loops whose iterations stay side by side make the same steps and end alike. -/
theorem Scheme.Loops.alongside {limit : Nat} {estimate : σ → Values K} {candidate : σ → Result K (Values K)}
    (iterates : scheme.Iterates iteration) (iterates' : scheme'.Iterates iteration')
    {Evaluates : Values K → Bool → Prop}
    (follows : ∀ s t, R s t → Evaluates (estimate s) true → (∀ values, candidate s = .ok values → Evaluates values false) →
      Alongside (fun a b => R a.1 b.1 ∧ b.2 = a.2) (iteration s) (iteration' t))
    (verdicts : ∀ step, scheme'.verdict limit step = scheme.verdict limit step) {s t : σ} {history : History K σ}
    (loops : scheme.Loops limit s history) (related : R s t)
    (evaluates : ∀ values wanted, scheme.Asks limit estimate candidate s values wanted → Evaluates values wanted) :
    ∃ history', scheme'.Loops limit t history' ∧ history'.steps = history.steps ∧
      history'.outcome = history.outcome ∧ ∀ result, history.outcome = .ok result → R history.final history'.final := by
  have each (s t : σ) (related : R s t)
      (evaluates : ∀ values wanted, scheme.Asks limit estimate candidate s values wanted → Evaluates values wanted) :=
    iterates.alongside iterates' (follows s t related (evaluates _ _ (.start s)) fun values chosen =>
      evaluates _ _ (.tried chosen))
  -- on the first loop: what is asked for after an iteration is among what is asked for before it
  induction loops generalizing t with
  | @failed s s' failure advanced =>
      rcases each s t related evaluates with ⟨_, t', failure', first, second⟩ | ⟨_, _, step, first, -⟩
      · obtain ⟨rfl, same⟩ := Prod.mk.inj (advanced.symm.trans first)
        obtain rfl := Except.error.inj same
        refine ⟨_, .failed second, rfl, rfl, fun result ended => ?_⟩
        cases ended
      · cases (Prod.mk.inj (advanced.symm.trans first)).2
  | @decided s s' step status advanced verdict =>
      rcases each s t related evaluates with ⟨_, _, failure, first, -⟩ | ⟨_, t', step', first, second, next⟩
      · cases (Prod.mk.inj (advanced.symm.trans first)).2
      · obtain ⟨rfl, same⟩ := Prod.mk.inj (advanced.symm.trans first)
        obtain rfl := Except.ok.inj same
        exact ⟨_, .decided second ((verdicts _).trans verdict), rfl, rfl, fun _ _ => next⟩
  | @undecided s s' step rest advanced verdict later ih =>
      rcases each s t related evaluates with ⟨_, _, failure, first, -⟩ | ⟨_, t', step', first, second, next⟩
      · cases (Prod.mk.inj (advanced.symm.trans first)).2
      · obtain ⟨rfl, same⟩ := Prod.mk.inj (advanced.symm.trans first)
        obtain rfl := Except.ok.inj same
        obtain ⟨history', loops', steps, outcome, final⟩ := ih next fun values wanted asked =>
          evaluates values wanted (.later advanced verdict asked)
        exact ⟨_, .undecided second ((verdicts _).trans verdict) loops', congrArg (step :: ·) steps, outcome, final⟩

end Asking

section Methods

variable {K : Type} [Scalar K]

namespace GaussNewton

variable (config : GaussNewton K) (problem : Problem K)

/-- The estimate that an iteration moves to. -/
def candidate (s : State K) : Result K (Values K) := do
  let (r, J) ← problem.linearize s.values
  let d ← config.direction r J (config.rescaled J s)
  problem.retract s.values d.step

theorem rescaled_values (J : SparseMat K) (s : State K) : (config.rescaled J s).values = s.values := by
  obtain ⟨scaling, frame⟩ := updateScaling_frame config.useScaling J s
  rw [rescaled, frame]

/-- An iteration as a sequence of its operations. -/
def iteration (s : State K) : Result K (State K × Step K) := do
  let (r, J) ← problem.linearize s.values
  let d ← config.direction r J (config.rescaled J s)
  take problem d (config.rescaled J s)

theorem scheme_iterates (clock : Clock) : (config.scheme clock problem).Iterates (config.iteration problem) := by
  intro s
  constructor
  · intro failure failed
    have outcome : (config.advance problem s).2 = Prod.snd <$> config.iteration problem s := by
      rw [advance_outcome, iteration, map_bind]
      simp only [map_bind]
    exact outcome.trans (by rw [failed]; rfl)
  · intro s' step done
    simp only [iteration, bind_ok_iff, Prod.exists] at done
    obtain ⟨r, J, linear, d, solved, taken⟩ := done
    exact advance_ok_iff.mpr ⟨r, J, d, linear, solved, taken⟩

/-- The estimate after an iteration is reported, and it is a retraction of the one before. -/
theorem advance_retracts {s s' : State K} {step : Step K} (advanced : config.advance problem s = (s', .ok step)) :
    s'.values = step.values ∧ ∃ d, problem.retract s.values d = .ok step.values := by
  obtain ⟨r, J, d, -, -, taken⟩ := advance_ok_iff.mp advanced
  have unmoved := config.rescaled_values J s
  simp only [take, Result.bind_ok_iff] at taken
  obtain ⟨moved, retracted, cost, -, done⟩ := taken
  obtain ⟨rfl, rfl⟩ := Prod.mk.inj (Except.ok.inj done)
  exact ⟨rfl, d.step, unmoved ▸ retracted⟩

end GaussNewton

namespace LevenbergMarquardt

variable (config : LevenbergMarquardt K) (problem : Problem K)

/-- An iteration as a sequence of its operations. -/
def iteration (s : DampedState K) : Result K (DampedState K × Step K) := do
  let (r, J) ← problem.linearize s.values
  let d ← config.direction r J (config.rescaled J s)
  config.attempt problem d (config.rescaled J s)

theorem scheme_iterates (clock : Clock) : (config.scheme clock problem).Iterates (config.iteration problem) := by
  intro s
  constructor
  · intro failure failed
    have outcome : (config.advance problem s).2 = Prod.snd <$> config.iteration problem s := by
      rw [advance_outcome, iteration, map_bind]
      simp only [map_bind]
    exact outcome.trans (by rw [failed]; rfl)
  · intro s' step done
    simp only [iteration, bind_ok_iff, Prod.exists] at done
    obtain ⟨r, J, linear, d, solved, attempted⟩ := done
    exact advance_ok_iff.mpr ⟨r, J, d, linear, solved, attempted⟩

/-- The estimate after an iteration is reported, and it is the one before or a retraction of it. -/
theorem advance_retracts {s s' : DampedState K} {step : Step K} (advanced : config.advance problem s = (s', .ok step)) :
    s'.values = step.values ∧ (step.values = s.values ∨ ∃ d, problem.retract s.values d = .ok step.values) := by
  obtain ⟨r, J, d, -, -, attempted⟩ := advance_ok_iff.mp advanced
  obtain ⟨scaling, -, frame⟩ := config.rescaled_eq J s
  rw [frame] at attempted
  obtain ⟨tried, newCost, retracted, -, outcome⟩ := attempt_ok attempted
  refine ⟨outcome.state_values, ?_⟩
  rw [outcome.values_eq]
  split
  · exact .inr ⟨d.step, retracted⟩
  · exact .inl rfl

end LevenbergMarquardt

end Methods

/-- A problem that fails wherever the other one does and has the same numbers, at admissible estimates at which it is asked
to evaluate. What makes an estimate admissible is kept by every step. -/
structure Problem.Mirrors (problem problem' : Problem ℝ) (Admissible : Values ℝ → Prop)
    (Evaluates : Values ℝ → Bool → Prop) : Prop where
  layout_eq : problem'.layout = problem.layout
  inside : problem.pattern.Inside
  inside' : problem'.pattern.Inside
  cost_eq : ∀ values, Evaluates values false → problem'.cost values = problem.cost values
  linearize : ∀ values, Admissible values → Evaluates values true →
    Alongside (fun s s' => SameNumbers s.1 s'.1 s.2 s'.2) (problem.linearize values) (problem'.linearize values)
  admissible : ∀ values step moved, Admissible values → problem.retract values step = .ok moved → Admissible moved

/-- States that differ in what they keep of their systems, each keeping the plan of its own. -/
structure State.Beside (problem problem' : Problem ℝ) (damped : Bool) (s t : State ℝ) : Prop where
  frame : t = { s with equations := t.equations }
  planned : s.equations.PlannedFor (problem.pattern.places ℝ) damped
  planned' : t.equations.PlannedFor (problem'.pattern.places ℝ) damped
  sized : ∀ scaling, s.scaling = some scaling → scaling.factors.length = (problem.pattern.places ℝ).length

/-- Directions that differ in what they keep of their systems. -/
structure Direction.Beside (problem problem' : Problem ℝ) (damped : Bool) (d d' : Direction ℝ) : Prop where
  frame : d' = { d with equations := d'.equations }
  planned : d.equations.PlannedFor (problem.pattern.places ℝ) damped
  planned' : d'.equations.PlannedFor (problem'.pattern.places ℝ) damped

section Iterations

variable {problem problem' : Problem ℝ} {damped : Bool} {s t : State ℝ} {r r' : Vec ℝ} {J J' : SparseMat ℝ}

theorem State.start_beside (initial : Values ℝ) (cost : ℝ) :
    State.Beside problem problem' damped (.start initial cost) (.start initial cost) where
  frame := rfl
  planned := NormalEquations.plannedFor_nothing _ _
  planned' := NormalEquations.plannedFor_nothing _ _
  sized scaling present := by cases present

/-- What the solvers see of two linear systems of the problems. -/
structure Systems (problem problem' : Problem ℝ) (r r' : Vec ℝ) (J J' : SparseMat ℝ) : Prop where
  same : SameNumbers r r' J J'
  stored : J.support = problem.pattern.places ℝ
  stored' : J'.support = problem'.pattern.places ℝ

theorem Systems.width (systems : Systems problem problem' r r' J J') :
    J.columns.length = (problem.pattern.places ℝ).length := by
  rw [← systems.stored, SparseMat.support, List.length_map]

/-- The states in which both iterations solve their systems. -/
theorem State.Beside.rescaled (beside : s.Beside problem problem' damped t)
    (systems : Systems problem problem' r r' J J') (useScaling : Bool) :
    State.Beside problem problem' damped
      { s.updateScaling useScaling J with jacobianEvaluations := s.jacobianEvaluations + 1 }
      { t.updateScaling useScaling J' with jacobianEvaluations := t.jacobianEvaluations + 1 } := by
  obtain ⟨frame, planned, planned', sized⟩ := beside
  rw [frame]
  unfold State.updateScaling
  dsimp only
  split
  · refine ⟨by rw [systems.same.scaling_eq], planned, planned', fun scaling present => ?_⟩
    obtain rfl := Option.some.inj present
    exact (List.length_map _).trans systems.width
  · exact ⟨rfl, planned, planned', sized⟩

/-- Both systems are scaled alike, or neither can be. -/
theorem State.Beside.scaledJacobian (beside : s.Beside problem problem' damped t)
    (systems : Systems problem problem' r r' J J') (useScaling : Bool) :
    Alongside (fun scaled scaled' => Systems problem problem' r r' scaled scaled') (s.scaledJacobian useScaling J)
      (t.scaledJacobian useScaling J') := by
  rw [beside.frame]
  unfold State.scaledJacobian
  dsimp only
  split
  · cases present : s.scaling with
    | none => exact .failed _
    | some scaling =>
        have length := beside.sized scaling present
        refine .returned ⟨systems.same.scaleColumns _, ?_, ?_⟩
        · exact (SparseMat.scaleColumns_support (length.trans systems.width.symm)).trans systems.stored
        · rw [← systems.width, ← systems.same.width] at length
          exact (SparseMat.scaleColumns_support length).trans systems.stored'
  · exact .returned systems

/-- Both systems have the same solution, or fail alike. -/
theorem State.Beside.direction (beside : s.Beside problem problem' damped t)
    (systems : Systems problem problem' r r' J J') {damping : Option ℝ} (both : damping.isSome = damped)
    (useScaling : Bool) (fault : LinearError → SystemFault) (noGradient : SolveError ℝ) :
    Alongside (Direction.Beside problem problem' damped) (s.direction useScaling damping fault noGradient r J)
      (t.direction useScaling damping fault noGradient r' J') := by
  refine (beside.scaledJacobian systems useScaling).bind fun scaled scaled' _ _ systems => ?_
  obtain ⟨same, stored, stored'⟩ := systems
  have planned := beside.planned
  have planned' := beside.planned'
  rw [← stored, ← both] at planned
  rw [← stored', ← both] at planned'
  have solved := NormalEquations.solve_numbers same planned planned'
  obtain ⟨next, -, gradient⟩ := NormalEquations.solve_planned same.fits planned
  obtain ⟨next', -, gradient'⟩ := NormalEquations.solve_planned same.fits' planned'
  rw [stored, both] at next
  rw [stored', both] at next'
  have unscaled (x : Vec ℝ) : t.unscaledStep useScaling x = s.unscaledStep useScaling x := by rw [beside.frame]; rfl
  rcases first : s.equations.solve r scaled damping with ⟨equations, failure | x⟩
  · rcases second : t.equations.solve r' scaled' damping with ⟨equations', outcome⟩
    rw [first, second] at solved
    obtain rfl : outcome = .error failure := solved
    exact .failed _
  · rcases second : t.equations.solve r' scaled' damping with ⟨equations', outcome⟩
    rw [first, second] at solved
    rw [first] at next gradient
    rw [second] at next' gradient'
    obtain rfl : outcome = .ok x := solved
    have kept := gradient x rfl
    have kept' := (gradient' x rfl).trans (congrArg some same.transposeMul_eq)
    dsimp only at kept kept'
    simp only [kept, kept', unscaled]
    exact .returned ⟨rfl, next, next'⟩

/-- What a run returns does not depend on the systems. -/
theorem State.Beside.solution_eq (beside : s.Beside problem problem' damped t) (cost : ℝ) (step : Step ℝ)
    (status : Status) : solution cost t step status = solution cost s step status := by
  rw [beside.frame]
  rfl

variable {Admissible : Values ℝ → Prop} {Evaluates : Values ℝ → Bool → Prop}
  (mirrors : problem.Mirrors problem' Admissible Evaluates)
include mirrors

theorem Problem.Mirrors.retract_eq (values : Values ℝ) (step : Vec ℝ) :
    problem'.retract values step = problem.retract values step := by
  rw [Problem.retract, Problem.retract, mirrors.layout_eq]

theorem Problem.Mirrors.parameterNorm_eq (values : Values ℝ) :
    problem'.parameterNorm values = problem.parameterNorm values := by
  rw [Problem.parameterNorm, Problem.parameterNorm, mirrors.layout_eq]

theorem Problem.Mirrors.systems {values : Values ℝ} (linear : problem.linearize values = .ok (r, J))
    (linear' : problem'.linearize values = .ok (r', J')) (same : SameNumbers r r' J J') :
    Systems problem problem' r r' J J' :=
  ⟨same, (Problem.linearize_stored mirrors.inside linear).1, (Problem.linearize_stored mirrors.inside' linear').1⟩

variable {d d' : Direction ℝ}

theorem GaussNewton.take_beside (beside : s.Beside problem problem' damped t)
    (directions : d.Beside problem problem' damped d') (admissible : Admissible s.values)
    (evaluates : ∀ values, problem.retract s.values d.step = .ok values → Evaluates values false) :
    Alongside (fun a b => (a.1.Beside problem problem' damped b.1 ∧ Admissible a.1.values) ∧ b.2 = a.2)
      (take problem d s) (take problem' d' t) := by
  rw [beside.frame, directions.frame]
  simp only [take, mirrors.retract_eq, mirrors.parameterNorm_eq]
  refine (Alongside.refl _).bind fun values _ moved _ same => ?_
  obtain rfl := same
  rw [mirrors.cost_eq values (evaluates values moved)]
  refine (Alongside.refl _).bind fun cost _ _ _ same => ?_
  obtain rfl := same
  refine .returned ⟨⟨⟨rfl, directions.planned, directions.planned', beside.sized⟩, ?_⟩, rfl⟩
  exact mirrors.admissible _ _ _ admissible moved

/-- An iteration of both problems fails alike, or it makes the same step and leaves states side by side. -/
theorem GaussNewton.iteration_beside (config : GaussNewton ℝ) (beside : s.Beside problem problem' config.damping.isSome t)
    (admissible : Admissible s.values) (evaluates : Evaluates s.values true)
    (tried : ∀ values, config.candidate problem s = .ok values → Evaluates values false) :
    Alongside (fun a b => (a.1.Beside problem problem' config.damping.isSome b.1 ∧ Admissible a.1.values) ∧
      b.2 = a.2) (config.iteration problem s) (config.iteration problem' t) := by
  have estimate : t.values = s.values := by rw [beside.frame]
  rw [iteration, iteration, estimate]
  refine (mirrors.linearize s.values admissible evaluates).bind fun (r, J) (r', J') linear linear' same => ?_
  have systems := mirrors.systems linear linear' same
  have scaled : (config.rescaled J s).Beside problem problem' config.damping.isSome (config.rescaled J' t) :=
    beside.rescaled systems config.useScaling
  have unmoved := config.rescaled_values J s
  refine (scaled.direction systems rfl _ _ _).bind fun d d' solved _ directions => ?_
  refine take_beside mirrors scaled directions (unmoved ▸ admissible) fun values moved => tried values ?_
  rw [candidate, linear, Result.ok_bind, ← unmoved]
  dsimp only
  exact Result.bind_ok_iff.mpr ⟨d, solved, moved⟩

theorem LevenbergMarquardt.attempt_beside (config : LevenbergMarquardt ℝ) {s t : DampedState ℝ}
    (beside : s.Beside problem problem' damped t.toState) (damping : t.damping = s.damping)
    (directions : d.Beside problem problem' damped d') (admissible : Admissible s.values)
    (evaluates : ∀ values, problem.retract s.values d.step = .ok values → Evaluates values false) :
    Alongside (fun a b => (a.1.Beside problem problem' damped b.1.toState ∧ b.1.damping = a.1.damping ∧
      Admissible a.1.values) ∧ b.2 = a.2) (config.attempt problem d s) (config.attempt problem' d' t) := by
  simp only [attempt]
  rw [beside.frame, directions.frame, damping]
  simp only [mirrors.retract_eq, mirrors.parameterNorm_eq]
  refine (Alongside.refl _).bind fun values _ moved _ same => ?_
  obtain rfl := same
  rw [mirrors.cost_eq values (evaluates values moved)]
  refine (Alongside.refl _).bind fun cost _ _ _ same => ?_
  obtain rfl := same
  refine .returned ⟨⟨⟨rfl, directions.planned, directions.planned', beside.sized⟩, rfl, ?_⟩, rfl⟩
  dsimp only
  split
  · exact mirrors.admissible _ _ _ admissible moved
  · exact admissible

/-- An iteration of both problems fails alike, or it makes the same step and leaves states side by side. -/
theorem LevenbergMarquardt.iteration_beside (config : LevenbergMarquardt ℝ) {s t : DampedState ℝ}
    (beside : s.Beside problem problem' true t.toState) (damping : t.damping = s.damping)
    (admissible : Admissible s.values) (evaluates : Evaluates s.values true)
    (tried : ∀ values, config.candidate problem s = .ok values → Evaluates values false) :
    Alongside (fun a b => (a.1.Beside problem problem' true b.1.toState ∧ b.1.damping = a.1.damping ∧
      Admissible a.1.values) ∧ b.2 = a.2) (config.iteration problem s) (config.iteration problem' t) := by
  have estimate : t.values = s.values := by rw [beside.frame]
  rw [iteration, iteration, estimate]
  refine (mirrors.linearize s.values admissible evaluates).bind fun (r, J) (r', J') linear linear' same => ?_
  have systems := mirrors.systems linear linear' same
  have scaled : (config.rescaled J s).Beside problem problem' true (config.rescaled J' t).toState :=
    beside.rescaled systems config.useScaling
  have unmoved : (config.rescaled J s).values = s.values := by
    obtain ⟨scaling, -, frame⟩ := config.rescaled_eq J s
    rw [frame]
  have both : (config.direction r' J' (config.rescaled J' t)) = (config.rescaled J' t).direction config.useScaling
      (some s.damping.lambda) .because (.numericalInstability .gradientUnavailable) r' J' := by
    rw [← damping]
    rfl
  dsimp only
  rw [both]
  refine (scaled.direction systems rfl _ _ _).bind fun d d' solved _ directions => ?_
  refine attempt_beside mirrors config scaled damping directions (unmoved ▸ admissible) fun values moved =>
    tried values ?_
  rw [candidate, linear, Result.ok_bind, ← unmoved]
  dsimp only
  exact Result.bind_ok_iff.mpr ⟨d, solved, moved⟩

end Iterations

section Runs

variable {K : Type} [Scalar K]

/-- Where a run evaluates its factors: without Jacobians at the initial estimate, and then where its iterations do. -/
inductive Solver.Asks (solver : Solver K) (clock : Clock) (graph : Graph K) (initial : Values K) : Values K → Bool → Prop
  | initial {problem : Problem K} (prepared : Problem.prepare graph initial = .ok problem) :
      Asks solver clock graph initial initial false
  | gaussNewton {config : GaussNewton K} {problem : Problem K} {cost : K} {values : Values K} {wanted : Bool}
      (method : solver.method = .gaussNewton config) (prepared : Problem.prepare graph initial = .ok problem)
      (known : graph.error initial = .ok cost)
      (asked : (config.scheme clock problem).Asks config.maxIterations State.values (config.candidate problem)
        (.start initial cost) values wanted) : Asks solver clock graph initial values wanted
  | levenbergMarquardt {config : LevenbergMarquardt K} {problem : Problem K} {cost : K} {values : Values K}
      {wanted : Bool} (method : solver.method = .levenbergMarquardt config)
      (prepared : Problem.prepare graph initial = .ok problem) (known : graph.error initial = .ok cost)
      (asked : (config.scheme clock problem).Asks config.maxIterations (·.values) (config.candidate problem)
        ⟨.start initial cost, ⟨config.damping, config.dampingNu⟩⟩ values wanted) :
      Asks solver clock graph initial values wanted

/-- Loops that end alike in states side by side have the same result. -/
theorem outcome_beside {problem problem' : Problem ℝ} {damped : Bool} {s t : State ℝ}
    {outcome outcome' : Result ℝ (Step ℝ × Status)} (same : outcome' = outcome)
    (final : ∀ result, outcome = .ok result → s.Beside problem problem' damped t) (cost : ℝ) :
    (outcome'.map fun (step, status) => solution cost t step status) =
      outcome.map fun (step, status) => solution cost s step status := by
  subst same
  cases outcome' with
  | error failure => rfl
  | ok result => exact congrArg Except.ok ((final result rfl).solution_eq cost result.1 result.2)

/-- The loop of a problem is that of every problem that mirrors it: the same iterations with the same end. -/
theorem Method.Loops.mirrored {problem problem' : Problem ℝ} {Admissible : Values ℝ → Prop}
    {Evaluates : Values ℝ → Bool → Prop} (mirrors : problem.Mirrors problem' Admissible Evaluates)
    {solver : Solver ℝ} (untimed : solver.method.criteria.timeout = none) {graph : Graph ℝ}
    {clock : Clock} (clock' : Clock) {initial : Values ℝ} {cost : ℝ} (admissible : Admissible initial)
    (prepared : Problem.prepare graph initial = .ok problem) (known : graph.error initial = .ok cost)
    (evaluates : ∀ values wanted, solver.Asks clock graph initial values wanted → Evaluates values wanted) {run : Run ℝ}
    (loops : solver.method.Loops clock problem initial cost run) :
    solver.method.Loops clock' problem' initial cost run := by
  obtain ⟨method, scaling⟩ := solver
  dsimp only at untimed loops ⊢
  cases loops with
  | @gaussNewton config history loops =>
      have follows (s t : State ℝ) (related : s.Beside problem problem' config.damping.isSome t ∧ Admissible s.values) :=
        GaussNewton.iteration_beside mirrors config related.1 related.2
      have verdicts := config.verdict_untimed untimed clock clock' problem problem' config.maxIterations
      obtain ⟨history', loops', steps, outcome, final⟩ := loops.alongside (config.scheme_iterates problem clock)
        (config.scheme_iterates problem' clock') follows verdicts ⟨State.start_beside initial cost, admissible⟩
        fun values wanted asked => evaluates values wanted (.gaussNewton rfl prepared known asked)
      rw [← steps, ← outcome_beside outcome (fun result ended => (final result ended).1) cost]
      exact .gaussNewton loops'
  | @levenbergMarquardt config history loops =>
      have follows (s t : DampedState ℝ) (related : s.Beside problem problem' true t.toState ∧ t.damping = s.damping ∧
          Admissible s.values) :=
        LevenbergMarquardt.iteration_beside mirrors config related.1 related.2.1 related.2.2
      have verdicts := config.verdict_untimed untimed clock clock' problem problem' config.maxIterations
      obtain ⟨history', loops', steps, outcome, final⟩ := loops.alongside (config.scheme_iterates problem clock)
        (config.scheme_iterates problem' clock') follows verdicts ⟨State.start_beside initial cost, rfl, admissible⟩
        fun values wanted asked => evaluates values wanted (.levenbergMarquardt rfl prepared known asked)
      rw [← steps, ← outcome_beside outcome (fun result ended => (final result ended).1) cost]
      exact .levenbergMarquardt loops'

/-- A run that cannot begin tells why. -/
theorem Solver.optimize_failed (solver : Solver K) (clock : Clock) {graph : Graph K} {initial : Values K}
    {failure : Failure K} (failed : (do
      let problem ← Problem.prepare graph initial
      return (problem, ← problem.cost initial)) = .error failure) :
    (solver.optimize clock graph initial).2 = ⟨false, [], .error failure⟩ := by
  obtain ⟨method, scaling⟩ := solver
  cases method with
  | gaussNewton config => simp only [optimize, GaussNewton.run, failed]
  | levenbergMarquardt config => simp only [optimize, LevenbergMarquardt.run, failed]

/-- Without a time limit the runs of problems that mirror each other are the same, whether they succeed or fail. -/
theorem Solver.optimize_mirrored {solver : Solver ℝ} (untimed : solver.method.criteria.timeout = none)
    (clock clock' : Clock) {graph graph' : Graph ℝ} {initial : Values ℝ} {Admissible : Values ℝ → Prop}
    {Evaluates : Values ℝ → Bool → Prop} (admissible : Admissible initial)
    (prepared : Alongside (fun problem problem' => problem.Mirrors problem' Admissible Evaluates)
      (Problem.prepare graph initial) (Problem.prepare graph' initial))
    (evaluates : ∀ values wanted, solver.Asks clock graph initial values wanted → Evaluates values wanted) :
    (solver.optimize clock' graph' initial).2 = (solver.optimize clock graph initial).2 := by
  generalize first : Problem.prepare graph initial = begun at prepared
  generalize second : Problem.prepare graph' initial = begun' at prepared
  cases prepared with
  | failed failure =>
      rw [solver.optimize_failed clock (by rw [first]; rfl), solver.optimize_failed clock' (by rw [second]; rfl)]
  | @returned problem problem' mirrors =>
      have costs := mirrors.cost_eq initial (evaluates _ _ (.initial first))
      rcases known : problem.cost initial with failure | cost
      · rw [solver.optimize_failed clock (by rw [first, Result.ok_bind, known]; rfl),
          solver.optimize_failed clock' (by rw [second, Result.ok_bind, costs, known]; rfl)]
      · rw [known, Problem.cost, (Problem.prepare_ok second).1] at costs
        rw [Problem.cost, (Problem.prepare_ok first).1] at known
        have loops := solver.optimize_loops clock first known
        exact (loops.mirrored mirrors untimed clock' admissible first known evaluates).unique
          (solver.optimize_loops clock' second costs)

end Runs

end GraduatedFit.LeastSquares

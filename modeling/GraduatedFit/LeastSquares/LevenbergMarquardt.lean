import GraduatedFit.LeastSquares.Basic

/-!
Levenberg-Marquardt: damped steps, taken only where the cost goes down.
-/

namespace GraduatedFit

namespace LeastSquares

structure LevenbergMarquardt (K : Type) extends Criteria K where
  damping : K
  dampingMin : K
  dampingMax : K
  /-- The factor of the first rejection. -/
  dampingNu : K
  minTrustRegionRadius : K

/-- The damping in force and the factor of the next rejection. -/
structure Damping (K : Type) where
  lambda : K
  nu : K

structure DampedState (K : Type) extends State K where
  damping : Damping K

variable {K : Type} [Scalar K]

namespace Damping

/-- After a step that was taken the damping changes with the quality of the step, to a third of it at the least. -/
def accept (lower quality : K) (d : Damping K) : Damping K :=
  let t := 2.0 * quality - 1
  ⟨Scalar.max (d.lambda * Scalar.max (1 / 3.0) (1 - t * t * t)) lower, 2.0⟩

def reject (upper : K) (d : Damping K) : Damping K :=
  ⟨Scalar.min (d.lambda * d.nu) upper, d.nu * 2.0⟩

end Damping

namespace LevenbergMarquardt

/-- The configuration of a solver that nobody has configured. -/
def standard : LevenbergMarquardt K where
  maxIterations := 50
  costTolerance := 1e-6
  parameterTolerance := 1e-8
  gradientTolerance := 1e-10
  timeout := none
  minCost := none
  useScaling := false
  damping := 1e-4
  dampingMin := 1e-12
  dampingMax := 1e12
  dampingNu := 2.0
  minTrustRegionRadius := 1e-32

/-- The actual reduction of the cost relative to the predicted one. Where nothing is predicted only the sign of the
actual reduction counts. -/
def stepQuality (cost newCost predicted : K) : K :=
  let actual := cost - newCost
  if Scalar.lt (Scalar.abs predicted) 1e-15 then
    if Scalar.lt 0 actual then 1 else 0
  else actual / predicted

/-- Half the inner product of the step with its damped self less the gradient. -/
def predictedReduction (lambda : K) (step gradient : Vec K) : K :=
  Vec.dot (step.map (0.5 * ·)) (List.zipWith (fun h g => lambda * h - g) step gradient)

def direction (config : LevenbergMarquardt K) (r : Vec K) (J : SparseMat K) (s : DampedState K) :
    Result K (Direction K) :=
  s.toState.direction config.useScaling (some s.damping.lambda) .because
    (.numericalInstability .gradientUnavailable) r J

/-- Try the step of a solved system: keep it if its quality is positive, and else keep the estimate. -/
def attempt (config : LevenbergMarquardt K) (problem : Problem K) (d : Direction K) (s : DampedState K) :
    Result K (DampedState K × Step K) := do
  let candidate ← problem.retract s.values d.step
  let newCost ← problem.cost candidate
  let quality := stepQuality s.cost newCost (predictedReduction s.damping.lambda d.systemStep d.gradient)
  let accepted := Scalar.lt 0 quality
  let damping := if accepted then s.damping.accept config.dampingMin quality else s.damping.reject config.dampingMax
  let values := if accepted then candidate else s.values
  let cost := if accepted then newCost else s.cost
  let step : Step K := {
    iteration := s.iteration
    values
    cost
    costBefore := s.cost
    gradientNorm := Vec.safeNorm d.gradient
    stepNorm := Vec.safeNorm d.step
    parameterNorm := problem.parameterNorm values
    damping := some damping.lambda
    accepted }
  return ({ s with
    iteration := s.iteration + 1
    values
    cost
    equations := d.equations
    costEvaluations := s.costEvaluations + 1
    damping }, step)

def advance (config : LevenbergMarquardt K) (problem : Problem K) (s : DampedState K) :
    DampedState K × Result K (Step K) :=
  match problem.linearize s.values with
  | .error failure => (s, .error failure)
  | .ok (r, J) =>
    let s := { s with
      toState := { s.updateScaling config.useScaling J with jacobianEvaluations := s.jacobianEvaluations + 1 } }
    match config.direction r J s >>= fun d => config.attempt problem d s with
    | .error failure => (s, .error failure)
    | .ok (s, step) => (s, .ok step)

/-- The trust region of damping `lambda` has radius `1 / lambda`. -/
def radiusTest (config : LevenbergMarquardt K) (step : Step K) : Option Status :=
  match step.damping with
  | some lambda =>
    if Scalar.lt (1 / lambda) config.minTrustRegionRadius then some .trustRegionRadiusTooSmall else none
  | none => none

/-- The tests on progress are for steps that were taken. -/
def settlement (config : LevenbergMarquardt K) (step : Step K) : Option Status :=
  config.gradientTest step <|> config.radiusTest step <|>
    if step.accepted then config.progressTest step else none

def scheme (config : LevenbergMarquardt K) (clock : Clock) (problem : Problem K) :
    Scheme K (DampedState K) where
  advance := config.advance problem
  interruption step := config.interruption (clock step.iteration) step
  settlement := config.settlement

/-- A run from an initial estimate, and the scaling it leaves behind. -/
def run (config : LevenbergMarquardt K) (clock : Clock) (graph : Graph K) (initial : Values K)
    (scaling : Option (ColumnScaling K)) : Option (ColumnScaling K) × Run K :=
  match (do
    let problem ← Problem.prepare graph initial
    return (problem, ← problem.cost initial)) with
  | .error failure => (scaling, ⟨false, [], .error failure⟩)
  | .ok (problem, initialCost) =>
    let start : DampedState K := ⟨.start initial initialCost, ⟨config.damping, config.dampingNu⟩⟩
    let history := iterate (config.scheme clock problem) (config.maxIterations - 1) start
    (history.final.scaling,
      ⟨true, history.steps, history.outcome.map fun (step, status) =>
        solution initialCost history.final.toState step status⟩)

end LevenbergMarquardt

end LeastSquares

end GraduatedFit

import GraduatedFit.LeastSquares.Basic

/-!
Gauss-Newton: every step of the linear model is taken.
-/

namespace GraduatedFit

namespace LeastSquares

structure GaussNewton (K : Type) extends Criteria K where
  /-- Added to the diagonal of the system if positive. -/
  minDiagonal : K

namespace GaussNewton

variable {K : Type} [Scalar K]

/-- The configuration of a solver that nobody has configured. -/
def standard : GaussNewton K where
  maxIterations := 50
  costTolerance := 1e-6
  parameterTolerance := 1e-8
  gradientTolerance := 1e-10
  timeout := none
  minCost := none
  useScaling := false
  minDiagonal := 1e-10

def damping (config : GaussNewton K) : Option K :=
  if Scalar.lt 0 config.minDiagonal then some config.minDiagonal else none

def direction (config : GaussNewton K) (r : Vec K) (J : SparseMat K) (s : State K) : Result K (Direction K) :=
  s.direction config.useScaling config.damping (fun _ => .gaussNewton)
    (.linearSolveFailed .gradientUnavailable) r J

/-- Take the step of a solved system. -/
def take (problem : Problem K) (d : Direction K) (s : State K) : Result K (State K × Step K) := do
  let values ← problem.retract s.values d.step
  let cost ← problem.cost values
  let step : Step K := {
    iteration := s.iteration
    values
    cost
    costBefore := s.cost
    gradientNorm := Vec.safeNorm d.gradient
    stepNorm := Vec.safeNorm d.step
    parameterNorm := problem.parameterNorm values
    damping := none
    accepted := true }
  return ({ s with
    iteration := s.iteration + 1
    values
    cost
    equations := d.equations
    costEvaluations := s.costEvaluations + 1 }, step)

def advance (config : GaussNewton K) (problem : Problem K) (s : State K) : State K × Result K (Step K) :=
  match problem.linearize s.values with
  | .error failure => (s, .error failure)
  | .ok (r, J) =>
    let s := { s.updateScaling config.useScaling J with jacobianEvaluations := s.jacobianEvaluations + 1 }
    match config.direction r J s >>= fun d => take problem d s with
    | .error failure => (s, .error failure)
    | .ok (s, step) => (s, .ok step)

def settlement (config : GaussNewton K) (step : Step K) : Option Status :=
  config.gradientTest step <|> config.progressTest step

def scheme (config : GaussNewton K) (clock : Clock) (problem : Problem K) : Scheme K (State K) where
  advance := config.advance problem
  interruption step := config.interruption (clock step.iteration) step
  settlement := config.settlement

/-- A run from an initial estimate, and the scaling it leaves behind. -/
def run (config : GaussNewton K) (clock : Clock) (graph : Graph K) (initial : Values K)
    (scaling : Option (ColumnScaling K)) : Option (ColumnScaling K) × Run K :=
  match (do
    let problem ← Problem.prepare graph initial
    return (problem, ← problem.cost initial)) with
  | .error failure => (scaling, ⟨false, [], .error failure⟩)
  | .ok (problem, initialCost) =>
    let history := iterate (config.scheme clock problem) (config.maxIterations - 1) (.start initial initialCost)
    (history.final.scaling,
      ⟨true, history.steps, history.outcome.map fun (step, status) =>
        solution initialCost history.final step status⟩)

end GaussNewton

end LeastSquares

end GraduatedFit

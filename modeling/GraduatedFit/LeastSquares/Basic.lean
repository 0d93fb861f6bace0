import GraduatedFit.Graph.Layout
import GraduatedFit.NormalEquations

/-!
What the two least-squares solvers share: the tests that end a run, the linear system of an iteration, the loop and
its history.
-/

namespace GraduatedFit

abbrev Nanoseconds := Nat

/-- The time a run has taken after an iteration. -/
abbrev Clock := Nat → Nanoseconds

namespace LeastSquares

structure Criteria (K : Type) where
  maxIterations : Nat
  costTolerance : K
  parameterTolerance : K
  gradientTolerance : K
  timeout : Option Nanoseconds
  minCost : Option K
  useScaling : Bool

/-- The same criteria. A number that is not one differs from itself. -/
def Criteria.same {K : Type} [Scalar K] (a b : Criteria K) : Bool :=
  a.maxIterations == b.maxIterations && Scalar.eq a.costTolerance b.costTolerance &&
    Scalar.eq a.parameterTolerance b.parameterTolerance && Scalar.eq a.gradientTolerance b.gradientTolerance &&
    a.timeout == b.timeout && Vec.agree Scalar.eq a.minCost.toList b.minCost.toList &&
    a.useScaling == b.useScaling

/-- One iteration of a run. The estimate and the cost are those after it, also where its step was rejected. -/
structure Step (K : Type) where
  iteration : Nat
  values : Values K
  cost : K
  costBefore : K
  gradientNorm : K
  stepNorm : K
  parameterNorm : K
  damping : Option K
  accepted : Bool

structure ConvergenceInfo (K : Type) where
  gradientNorm : K
  stepNorm : K
  costEvaluations : Nat
  jacobianEvaluations : Nat

structure Solution (K : Type) where
  values : Values K
  status : Status
  initialCost : K
  finalCost : K
  iterations : Nat
  info : ConvergenceInfo K

/-- The iterations of a run in order. A run that has not begun failed before its first iteration. -/
structure Run (K : Type) where
  begun : Bool
  steps : List (Step K)
  outcome : Result K (Solution K)

/-- A graph with the layout and the pattern that a run keeps. -/
structure Problem (K : Type) where
  graph : Graph K
  layout : Layout
  pattern : Pattern

/-- What every iteration carries on. -/
structure State (K : Type) where
  iteration : Nat
  values : Values K
  cost : K
  scaling : Option (ColumnScaling K)
  equations : NormalEquations K
  costEvaluations : Nat
  jacobianEvaluations : Nat

/-- The solution of a linear system: the step of the variables, the step in the coordinates of the system, and the
gradient in those coordinates. -/
structure Direction (K : Type) where
  step : Vec K
  systemStep : Vec K
  gradient : Vec K
  equations : NormalEquations K

variable {K : Type} [Scalar K]

namespace Problem

def prepare (graph : Graph K) (initial : Values K) : Result K (Problem K) := do
  if graph.isEmpty then .failSolve .noResidualBlocks
  let layout ← graph.layout initial
  if layout.totalDof = 0 then .failSolve .emptyProblem
  let pattern ← graph.pattern initial layout
  return ⟨graph, layout, pattern⟩

def linearize (problem : Problem K) (values : Values K) : Result K (Vec K × SparseMat K) :=
  problem.graph.linearize values problem.pattern

def cost (problem : Problem K) (values : Values K) : Result K K := problem.graph.error values

/-- The norm of the variables that the factors refer to. -/
def parameterNorm (problem : Problem K) (values : Values K) : K :=
  Scalar.sqrt (Vec.sum ((problem.layout.order.filterMap values.get?).map Vec.normSq))

def retract (problem : Problem K) (values : Values K) (step : Vec K) : Result K (Values K) :=
  .ofShape (values.retract? problem.layout.order step)

end Problem

namespace Criteria

/-- A breakdown or the time limit ends a run before any other test. -/
def interruption (criteria : Criteria K) (elapsed : Nanoseconds) (step : Step K) : Option Status :=
  if !Scalar.finite step.cost || !Scalar.finite step.stepNorm || !Scalar.finite step.gradientNorm then
    some .invalidNumericalValues
  else match criteria.timeout with
    | some timeout => if timeout ≤ elapsed then some .timeout else none
    | none => none

def gradientTest (criteria : Criteria K) (step : Step K) : Option Status :=
  if Scalar.lt step.gradientNorm criteria.gradientTolerance then some .gradientToleranceReached else none

def smallStep (criteria : Criteria K) (step : Step K) : Bool :=
  Scalar.le step.stepNorm (criteria.parameterTolerance * (step.parameterNorm + criteria.parameterTolerance))

def smallCostChange (criteria : Criteria K) (step : Step K) : Bool :=
  Scalar.lt (Scalar.abs (step.costBefore - step.cost) / Scalar.max step.costBefore 1e-10) criteria.costTolerance

/-- The tests on the progress of a step that was taken. The first step is not tested for being small. -/
def progressTest (criteria : Criteria K) (step : Step K) : Option Status :=
  if 0 < step.iteration && criteria.smallStep step then some .parameterToleranceReached
  else if 0 < step.iteration && criteria.smallCostChange step then some .costToleranceReached
  else match criteria.minCost with
    | some minCost => if Scalar.lt step.cost minCost then some .minCostThresholdReached else none
    | none => none

end Criteria

namespace State

def start (initial : Values K) (cost : K) : State K := ⟨0, initial, cost, none, {}, 1, 0⟩

/-- The scaling in force: none when scaling is off, and else the one of the Jacobian of the first iteration. -/
def updateScaling (useScaling : Bool) (J : SparseMat K) (s : State K) : State K :=
  if useScaling && s.iteration == 0 then { s with scaling := some (.ofJacobian J) } else s

def scaledJacobian (useScaling : Bool) (J : SparseMat K) (s : State K) : Result K (SparseMat K) :=
  if useScaling then
    match s.scaling with
    | some scaling => .ok (scaling.scale J)
    | none => .failSolve .scalingNotInitialized
  else .ok J

def unscaledStep (useScaling : Bool) (step : Vec K) (s : State K) : Vec K :=
  match s.scaling, useScaling with
  | some scaling, true => scaling.unscale step
  | _, _ => step

/-- A linear error becomes the failure of the iteration that needed the solution. -/
def wrapLinear (fault : LinearError → SystemFault) : Failure K → Failure K
  | .raised (.linear error) causes => .raised (.solve (.linearSolveFailed (fault error))) (causes ++ [.linear error])
  | failure => failure

/-- Solve the system of an iteration, in scaled coordinates where scaling is on. -/
def direction (useScaling : Bool) (damping : Option K) (fault : LinearError → SystemFault)
    (noGradient : SolveError K) (r : Vec K) (J : SparseMat K) (s : State K) : Result K (Direction K) := do
  let scaled ← s.scaledJacobian useScaling J
  let (equations, solved) := s.equations.solve r scaled damping
  let systemStep ← solved.mapError (wrapLinear fault)
  match equations.gradient with
  | some gradient => return ⟨s.unscaledStep useScaling systemStep, systemStep, gradient, equations⟩
  | none => .failSolve noGradient

end State

/-- How an iteration changes the state of a run, and the tests that may end the run after it. -/
structure Scheme (K σ : Type) where
  advance : σ → σ × Result K (Step K)
  interruption : Step K → Option Status
  settlement : Step K → Option Status

/-- The iterations of a run and the state after them. A run that ends well ends with its last step. -/
structure History (K σ : Type) where
  steps : List (Step K)
  final : σ
  outcome : Result K (Step K × Status)

/-- Iterate until a test ends the run; `left` more iterations are allowed after the next one. -/
def iterate {σ : Type} (scheme : Scheme K σ) : Nat → σ → History K σ
  | left, s =>
    match scheme.advance s with
    | (s, .error failure) => ⟨[], s, .error failure⟩
    | (s, .ok step) =>
      match scheme.interruption step with
      | some status => ⟨[step], s, .ok (step, status)⟩
      | none =>
        match left with
        | 0 => ⟨[step], s, .ok (step, .maxIterationsReached)⟩
        | left + 1 =>
          match scheme.settlement step with
          | some status => ⟨[step], s, .ok (step, status)⟩
          | none =>
            let rest := iterate scheme left s
            { rest with steps := step :: rest.steps }

/-- The result of a run from its last step and its last state. -/
def solution (initialCost : K) (s : State K) (step : Step K) (status : Status) : Solution K where
  values := step.values
  status
  initialCost
  finalCost := step.cost
  iterations := step.iteration + 1
  info := ⟨step.gradientNorm, step.stepNorm, s.costEvaluations, s.jacobianEvaluations⟩

end LeastSquares

end GraduatedFit

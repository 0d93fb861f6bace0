import GraduatedFit.LeastSquares.Solver
import GraduatedFit.Log

/-!
Texts about least-squares runs: configurations, the table of iterations and the summary of a run.
-/

namespace GraduatedFit

/-- A time in seconds; there is none before zero, nor one whose seconds exceed a machine word. -/
def Nanoseconds.ofSeconds? (seconds : Float) : Option Nanoseconds :=
  match Text.decode seconds with
  | .finite negative mantissa exponent =>
    if negative && mantissa ≠ 0 then none
    else
      let nanoseconds := (((Text.Ratio.ofNat mantissa).shift 2 exponent).shift 10 9).round
      if nanoseconds < Nat.pow 2 64 * Nat.pow 10 9 then some nanoseconds else none
  | _ => none

namespace Text

/-- An amount in units of which one has `unit` parts, without trailing zeros. -/
def amount (parts unit : Nat) (suffix : String) : String :=
  let places := (Nat.toDigits 10 unit).length - 1
  let digits := Nat.toDigits 10 (parts % unit)
  let fraction := (List.replicate (places - digits.length) '0' ++ digits).reverse.dropWhile (· == '0')
  toString (parts / unit) ++ (if fraction.isEmpty then "" else "." ++ String.ofList fraction.reverse) ++ suffix

/-- A time in the largest unit that it reaches. -/
def duration (time : Nanoseconds) : String :=
  if 1000000000 ≤ time then amount time 1000000000 "s"
  else if 1000000 ≤ time then amount time 1000000 "ms"
  else if 1000 ≤ time then amount time 1000 "µs"
  else amount time 1 "ns"

def optional {α : Type} (text : α → String) : Option α → String
  | none => "None"
  | some a => s!"Some({text a})"

def record (title : String) (fields : List (String × String)) : String := (Shown.fields title fields).text

def truth : Bool → String
  | true => "true"
  | false => "false"

end Text

namespace LeastSquares

open Text

def scalingText (useScaling : Bool) : String := if useScaling then "enabled" else "disabled"

/-- The lines of a configuration that both solvers have, below a title. -/
def Criteria.block (criteria : Criteria Float) (title : String) : String :=
  "Configuration:\n  Solver:        " ++ title ++
  "\n  Linear solver: Sparse Cholesky\n  Convergence Criteria:" ++
  s!"\n  Max iterations:      {criteria.maxIterations}" ++
  s!"\n  Cost tolerance:      {scientificPlaces 2 criteria.costTolerance}" ++
  s!"\n  Parameter tolerance: {scientificPlaces 2 criteria.parameterTolerance}" ++
  s!"\n  Gradient tolerance:  {scientificPlaces 2 criteria.gradientTolerance}" ++
  s!"\n  Timeout:             {optional duration criteria.timeout}"

def Criteria.fields (criteria : Criteria Float) : List (String × String) :=
  [("max_iterations", toString criteria.maxIterations),
    ("cost_tolerance", debug criteria.costTolerance),
    ("parameter_tolerance", debug criteria.parameterTolerance),
    ("gradient_tolerance", debug criteria.gradientTolerance),
    ("timeout", optional duration criteria.timeout)]

def Criteria.scalingField (criteria : Criteria Float) : String × String :=
  ("use_jacobi_scaling", truth criteria.useScaling)

def Criteria.minCostField (criteria : Criteria Float) : String × String :=
  ("min_cost_threshold", optional debug criteria.minCost)

namespace GaussNewton

def block (config : GaussNewton Float) : String :=
  "\n" ++ config.toCriteria.block "Gauss-Newton" ++ "\n  Numerical Settings:" ++
  s!"\n  Jacobi scaling:      {scalingText config.useScaling}" ++
  s!"\n  Min diagonal:        {scientificPlaces 2 config.minDiagonal}"

def text (config : GaussNewton Float) : String :=
  record "GaussNewtonConfig" <| config.fields ++
    [config.scalingField, ("min_diagonal", debug config.minDiagonal), config.minCostField]

end GaussNewton

namespace LevenbergMarquardt

def block (config : LevenbergMarquardt Float) : String :=
  config.toCriteria.block "Levenberg-Marquardt" ++ "\n  Damping Parameters:" ++
  s!"\n  Initial damping:     {scientificPlaces 2 config.damping}" ++
  s!"\n  Damping range:       [{scientificPlaces 2 config.dampingMin}, " ++
  s!"{scientificPlaces 2 config.dampingMax}]" ++
  s!"\n  Initial nu:          {fixedPlaces 2 config.dampingNu}\n  Numerical Settings:" ++
  s!"\n  Jacobi scaling:      {scalingText config.useScaling}"

def text (config : LevenbergMarquardt Float) : String :=
  record "LevenbergMarquardtConfig" <| config.fields ++
    [("damping", debug config.damping), ("damping_min", debug config.dampingMin),
      ("damping_max", debug config.dampingMax), ("damping_nu", debug config.dampingNu), config.minCostField,
      ("min_trust_region_radius", debug config.minTrustRegionRadius), config.scalingField]

end LevenbergMarquardt

def Method.text : Method Float → String
  | gaussNewton config => config.text
  | levenbergMarquardt config => config.text

/-- One line of the table of iterations. -/
structure IterationStats where
  iteration : Nat
  cost : Float
  costChange : Float
  gradientNorm : Float
  stepNorm : Float
  quality : Float
  radius : Float
  iterationMs : Float
  totalMs : Float
  accepted : Bool

def tableRow (cells : List (Nat × String)) : String :=
  "  ".intercalate (cells.map fun (width, cell) => padLeft width cell)

def tableHeader : String :=
  tableRow [(4, "iter"), (13, "cost"), (13, "cost_change"), (13, "|gradient|"), (13, "|step|"),
    (11, "tr_ratio"), (11, "tr_radius"), (11, "iter_time"), (13, "total_time"), (6, "status")]

namespace IterationStats

def mark (stats : IterationStats) : String :=
  if stats.iteration = 0 then "-" else if stats.accepted then "✓" else "✗"

def row (stats : IterationStats) : String :=
  tableRow [(4, toString stats.iteration), (13, scientificPlaces 6 stats.cost),
    (13, scientificPlaces 2 stats.costChange), (13, scientificPlaces 2 stats.gradientNorm),
    (13, scientificPlaces 2 stats.stepNorm), (11, scientificPlaces 2 stats.quality),
    (11, scientificPlaces 2 stats.radius), (11, padLeft 9 (fixedPlaces 2 stats.iterationMs) ++ "ms"),
    (13, padLeft 11 (fixedPlaces 2 stats.totalMs) ++ "ms"), (6, stats.mark)]

end IterationStats

def tableLine (text : String) : LogLine := Speaker.solvers.line .debug text

/-- What is logged when a run begins. -/
def Method.openingLines : Method Float → List LogLine
  | gaussNewton config => [Speaker.gaussNewton.line .debug config.block, tableLine tableHeader]
  | levenbergMarquardt config => [Speaker.levenbergMarquardt.line .debug config.block, tableLine tableHeader]

/-- What is logged by a run, times apart. -/
def Run.lines (method : Method Float) (run : Run Float) : List LogLine :=
  (if run.begun then method.openingLines else []) ++ run.outcome.lines

def ConvergenceInfo.text (info : ConvergenceInfo Float) : String :=
  s!"Final gradient norm: {scientificPlaces 2 info.gradientNorm}, " ++
  s!"Final parameter update norm: {scientificPlaces 2 info.stepNorm}, " ++
  s!"Cost evaluations: {info.costEvaluations}, Jacobian evaluations: {info.jacobianEvaluations}"

/-- The statistics of a whole run. -/
structure Summary where
  title : String
  status : Status
  initialCost : Float
  finalCost : Float
  iterations : Nat
  acceptedSteps : Nat
  maxGradientNorm : Float
  finalGradientNorm : Float
  maxStepNorm : Float
  finalDamping : Option Float
  elapsed : Nanoseconds

namespace Summary

/-- The reduction of the cost in percent of the initial cost. -/
def reduction (summary : Summary) : Float :=
  100.0 * (summary.initialCost - summary.finalCost) / Scalar.max summary.initialCost Scalar.tiny

def milliseconds (summary : Summary) : Float :=
  ((summary.elapsed / 1000000000).toFloat + (summary.elapsed % 1000000000).toFloat / 1000000000.0) * 1000.0

def text (summary : Summary) : String :=
  let word := if summary.status.isConverged then "converged" else "stopped"
  s!"{summary.title} {word}: {summary.status.message}" ++
  s!"\n  cost        {scientificPlaces 6 summary.initialCost} -> {scientificPlaces 6 summary.finalCost} " ++
  s!"({fixedPlaces 2 summary.reduction}% reduction)" ++
  s!"\n  iterations  {summary.iterations} ({summary.acceptedSteps} accepted)" ++
  s!"\n  |gradient|  max {scientificPlaces 2 summary.maxGradientNorm}, " ++
  s!"final {scientificPlaces 2 summary.finalGradientNorm}" ++
  s!"\n  |step|      max {scientificPlaces 2 summary.maxStepNorm}" ++
  (match summary.finalDamping with
    | some damping => s!"\n  damping     {scientificPlaces 2 damping}"
    | none => "") ++
  s!"\n  time        {fixedPlaces 2 summary.milliseconds}ms " ++
  s!"({fixedPlaces 3 (summary.milliseconds / (max summary.iterations 1).toFloat)}ms per iteration)"

end Summary

end LeastSquares

end GraduatedFit

/-!
Why a least-squares run ended.
-/

namespace GraduatedFit

inductive Status
  | converged
  | maxIterationsReached
  | costToleranceReached
  | parameterToleranceReached
  | gradientToleranceReached
  | timeout
  | trustRegionRadiusTooSmall
  | minCostThresholdReached
  | invalidNumericalValues
  deriving DecidableEq, Repr

namespace Status

def name : Status → String
  | converged => "Converged"
  | maxIterationsReached => "MaxIterationsReached"
  | costToleranceReached => "CostToleranceReached"
  | parameterToleranceReached => "ParameterToleranceReached"
  | gradientToleranceReached => "GradientToleranceReached"
  | timeout => "Timeout"
  | trustRegionRadiusTooSmall => "TrustRegionRadiusTooSmall"
  | minCostThresholdReached => "MinCostThresholdReached"
  | invalidNumericalValues => "InvalidNumericalValues"

def all : List Status :=
  [converged, maxIterationsReached, costToleranceReached, parameterToleranceReached, gradientToleranceReached,
    timeout, trustRegionRadiusTooSmall, minCostThresholdReached, invalidNumericalValues]

def ofName? (name : String) : Option Status := all.find? (·.name == name)

/-- The run met a convergence test rather than a limit. -/
def isConverged : Status → Bool
  | converged | costToleranceReached | gradientToleranceReached | parameterToleranceReached
  | minCostThresholdReached => true
  | maxIterationsReached | timeout | trustRegionRadiusTooSmall | invalidNumericalValues => false

/-- The run broke down and left no usable estimate. -/
def isFailure (status : Status) : Bool := status == invalidNumericalValues

end Status

end GraduatedFit

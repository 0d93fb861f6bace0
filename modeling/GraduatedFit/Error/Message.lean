import GraduatedFit.Error
import GraduatedFit.Text.Decimal
import GraduatedFit.Text.Quoted

/-!
The wording of errors: a message for the reader, the chain of messages down to the first cause, and a form that shows
the kind of error and its data.
-/

namespace GraduatedFit

open Text

def Status.message : Status → String
  | .converged => "Converged"
  | .maxIterationsReached => "Maximum iterations reached"
  | .costToleranceReached => "Cost tolerance reached"
  | .parameterToleranceReached => "Parameter tolerance reached"
  | .gradientToleranceReached => "Gradient tolerance reached"
  | .timeout => "Timeout"
  | .trustRegionRadiusTooSmall => "Trust region radius too small"
  | .minCostThresholdReached => "Minimum cost threshold reached"
  | .invalidNumericalValues => "Invalid numerical values (NaN/Inf) detected"

def quoteAll (keys : List String) : String := bracketed (keys.map quote)

def shapeText (height width : Nat) : String := s!"{height}x{width}"

def VariableFault.text : VariableFault → String
  | missing key => s!"Missing value for key '{key}'"
  | outsideLayout key => s!"Key '{key}' missing from the column layout"
  | stated text => text

def LinearizationFault.text : LinearizationFault → String
  | noJacobian keys => s!"Factor on {quoteAll keys} returned no Jacobian when one was requested"
  | stated text => text

def StructureFault.text : StructureFault → String
  | entryOutOfBounds => "Failed to build symbolic sparse matrix structure"
  | stated text => text

def DimensionFault.text : DimensionFault → String
  | jacobianShape keys height width expectedHeight expectedWidth =>
    s!"Jacobian of factor on {quoteAll keys} is {shapeText height width}, expected " ++
      shapeText expectedHeight expectedWidth
  | residualSize keys size expected =>
    s!"Factor on {quoteAll keys} produced a residual of size {size}, noise model expects {expected}"
  | noiseDimension keys factor noise =>
    s!"factor on {quoteAll keys} has dimension {factor}, noise model has dimension {noise}"
  | stated text => text

def NoiseFault.text : NoiseFault Float → String
  | noDimension => "dimension must be at least 1"
  | sigma got => s!"sigma must be positive and finite, got {plain got}"
  | noSigmas => "diagonal model needs at least one sigma"
  | diagonalSigma got => s!"sigmas must be positive and finite, got {plain got}"
  | informationShape height width => s!"square-root information must be square, got {shapeText height width}"
  | covarianceShape height width => s!"covariance must be square, got {shapeText height width}"
  | notPositiveDefinite => "covariance is not positive definite"
  | singularFactor => "covariance factor is singular"
  | nested => "robust noise models cannot be nested"
  | stated text => text

def ScalingFault.text : ScalingFault → String
  | robust => "robust noise models cannot be reweighted"
  | stated text => text

def LossFault.text : LossFault Float → String
  | scale got => s!"scale must be positive and finite, got {plain got}"
  | stated text => text

def InputFault.text : InputFault Float → String
  | noKeys => "a factor needs at least one variable key"
  | keyCount keys arity =>
    s!"factor on {quoteAll keys} connects {arity} variables, got {keys.length} keys"
  | weight slot got => s!"weight of slot {slot} must be finite and non-negative, got {plain got}"
  | unknownLoss text => s!"unknown GNC loss '{text}', expected tls, gm or all"
  | unknownBase text => s!"unknown base optimizer '{text}', expected gn or lm"
  | stated text => text

def ParameterFault.text : ParameterFault Float → String
  | range got => s!"range must be finite and non-negative, got {plain got}"
  | stated text => text

def LinearError.message : LinearError → String
  | factorizationFailed text => s!"Cholesky factorization failed: {text}"
  | singularMatrix => "Singular matrix: normal equations are not positive definite"
  | sparseMatrixCreation text => s!"Could not assemble sparse matrix: {text}"
  | matrixConversion text => s!"Sparse storage conversion failed: {text}"

def SystemFault.text : SystemFault → String
  | gaussNewton => "Linear solver failed to solve Gauss-Newton system"
  | because error => error.message
  | gradientUnavailable => "Gradient unavailable after solve"
  | stated text => text

def InstabilityFault.text : InstabilityFault Float → String
  | stopped status cost => s!"base optimizer stopped with '{status.message}' at cost {scientific cost}"
  | gradientUnavailable => "Gradient not available"
  | stated text => text

def ConfigFault.text : ConfigFault Float → String
  | threshold got => s!"inlier cost threshold must be positive and finite, got {plain got}"
  | muStep got => s!"mu step must be finite and greater than 1, got {plain got}"
  | noIterations => "max iterations must be at least 1"
  | costTolerance got => s!"relative cost tolerance must be non-negative, got {plain got}"
  | weightsTolerance got => s!"weights tolerance must be non-negative, got {plain got}"
  | stated text => text

/-- A kind of error by its name, with its data as text: none, one text, or texts by name. -/
inductive Shown
  | bare (kind : String)
  | one (kind : String) (content : String)
  | fields (kind : String) (content : List (String × String))

namespace Shown

def kind : Shown → String
  | bare kind | one kind _ | fields kind _ => kind

def text : Shown → String
  | bare kind => kind
  | one kind content => s!"{kind}({content})"
  | fields kind content =>
    kind ++ " \x7b " ++ ", ".intercalate (content.map fun (name, value) => s!"{name}: {value}") ++ " \x7d"

/-- A kind of error that holds a text. -/
def quoted (kind : String) (content : String) : Shown := one kind (quote content)

end Shown

/-- The kind and data of an error, and its message. -/
structure Wording where
  shown : Shown
  message : String

/-- An error whose message is a heading and a text. -/
def Wording.headed (kind heading text : String) : Wording := ⟨.quoted kind text, s!"{heading}: {text}"⟩

def ModelError.wording : ModelError Float → Wording
  | lookup fault => .headed "Variable" "Variable error" fault.text
  | factorLinearization fault => .headed "FactorLinearization" "Factor linearization failed" fault.text
  | symbolicStructure fault => .headed "SymbolicStructure" "Symbolic structure error" fault.text
  | dimensionMismatch fault => .headed "DimensionMismatch" "Dimension mismatch" fault.text
  | invalidNoiseModel fault => .headed "InvalidNoiseModel" "Invalid noise model" fault.text
  | unscalableNoiseModel slot fault =>
    ⟨.fields "UnscalableNoiseModel" [("slot", toString slot), ("reason", quote fault.text)],
      s!"Noise model of factor {slot} cannot be rescaled: {fault.text}"⟩
  | slotOutOfRange slot size =>
    ⟨.fields "SlotOutOfRange" [("slot", toString slot), ("size", toString size)],
      s!"Factor slot {slot} out of range for graph of size {size}"⟩
  | lossFunction fault => .headed "LossFunction" "Loss function error" fault.text
  | invalidInput fault => .headed "InvalidInput" "Invalid input" fault.text

def FactorError.wording : FactorError Float → Wording
  | invalidDimension expected actual =>
    ⟨.fields "InvalidDimension" [("expected", toString expected), ("actual", toString actual)],
      s!"Invalid dimension: expected {expected}, got {actual}"⟩
  | invalidParameters fault => .headed "InvalidParameters" "Invalid parameter values" fault.text

def LinearError.shown : LinearError → Shown
  | factorizationFailed text => .quoted "FactorizationFailed" text
  | singularMatrix => .bare "SingularMatrix"
  | sparseMatrixCreation text => .quoted "SparseMatrixCreation" text
  | matrixConversion text => .quoted "MatrixConversion" text

def SolveError.wording : SolveError Float → Wording
  | linearSolveFailed fault => .headed "LinearSolveFailed" "Linear system solve failed" fault.text
  | invalidParameters text => .headed "InvalidParameters" "Invalid optimization parameters" text
  | numericalInstability fault =>
    .headed "NumericalInstability" "Numerical instability detected" fault.text
  | linear error => ⟨.one "LinAlg" error.shown.text, s!"Linear algebra error: {error.message}"⟩
  | emptyProblem => ⟨.bare "EmptyProblem", "Problem has no variables to optimize"⟩
  | noResidualBlocks => ⟨.bare "NoResidualBlocks", "Problem has no residual blocks"⟩
  | scalingCreation text =>
    .headed "JacobiScalingCreation" "Failed to create Jacobi scaling matrix" text
  | scalingNotInitialized => ⟨.bare "JacobiScalingNotInitialized", "Jacobi scaling not initialized"⟩

def ObserverError.wording : ObserverError → Wording
  | poisoned context reason =>
    ⟨.fields "MutexPoisoned" [("context", quote context), ("reason", quote reason)],
      s!"Mutex poisoned in {context}: {reason}"⟩

def ContinuationError.wording : ContinuationError Float → Wording
  | invalidConfig fault => .headed "InvalidConfig" "Invalid GNC configuration" fault.text
  | knownInlierOutOfRange slot size =>
    ⟨.fields "KnownInlierOutOfRange" [("slot", toString slot), ("size", toString size)],
      s!"Known inlier slot {slot} is out of range for a graph of {size} factors"⟩
  | degenerateMu mu maxError threshold =>
    ⟨.fields "DegenerateMu" [("mu", debug mu), ("max_error", debug maxError), ("threshold", debug threshold)],
      s!"Degenerate initial control parameter mu0 = {plain mu} (max factor error " ++
        s!"{scientificPlaces 6 maxError}, inlier threshold {scientificPlaces 6 threshold})"⟩
  | weightCountMismatch expected actual =>
    ⟨.fields "WeightCountMismatch" [("expected", toString expected), ("actual", toString actual)],
      s!"Weight vector has {actual} entries but the graph has {expected} factors"⟩
  | nonFiniteFactorError slot error =>
    ⟨.fields "NonFiniteFactorError" [("slot", toString slot), ("error", debug error)],
      s!"Factor {slot} has non-finite error {plain error} at the current estimate"⟩

namespace Error

def family : Error Float → String
  | model _ => "Core"
  | factor _ => "Factor"
  | solve _ => "Optimizer"
  | linear _ => "LinearAlgebra"
  | observer _ => "Observer"
  | continuation _ => "Gnc"

def wording : Error Float → Wording
  | model error => error.wording
  | factor error => error.wording
  | solve error => error.wording
  | linear error => ⟨error.shown, error.message⟩
  | observer error => error.wording
  | continuation error => error.wording

def message (error : Error Float) : String := error.wording.message

/-- The family and the kind within it. -/
def kind (error : Error Float) : String := s!"{error.family}.{error.wording.shown.kind}"

/-- The kind of error with its data. -/
def display (error : Error Float) : String := s!"{error.family}({error.wording.shown.text})"

/-- The error that this one passes on, if it is one that does. -/
def source? : Error Float → Option LinearError
  | solve (.linear error) => some error
  | _ => none

def messages (error : Error Float) : List String :=
  error.message :: (error.source?.map LinearError.message).toList

/-- The messages down to the first cause, each on a line of its own. -/
def chain (error : Error Float) : String := "\n  → ".intercalate error.messages

/-- The messages down to the first cause, on one line. -/
def compactChain (error : Error Float) : String := " → ".intercalate error.messages

end Error

end GraduatedFit

import GraduatedFit.LeastSquares.Status

/-!
What can go wrong, as causes with their data. The wording is in `GraduatedFit.Error.Message`.
A `stated` cause carries a text of the caller.
-/

namespace GraduatedFit

inductive VariableFault
  | missing (key : String)
  | outsideLayout (key : String)
  | stated (text : String)

inductive LinearizationFault
  | noJacobian (keys : List String)
  | stated (text : String)

inductive StructureFault
  | entryOutOfBounds
  | stated (text : String)

inductive DimensionFault
  | jacobianShape (keys : List String) (height width expectedHeight expectedWidth : Nat)
  | residualSize (keys : List String) (size expected : Nat)
  | noiseDimension (keys : List String) (factor noise : Nat)
  | stated (text : String)

inductive NoiseFault (K : Type)
  | noDimension
  | sigma (got : K)
  | noSigmas
  | diagonalSigma (got : K)
  | informationShape (height width : Nat)
  | covarianceShape (height width : Nat)
  | notPositiveDefinite
  | singularFactor
  | nested
  | stated (text : String)

inductive ScalingFault
  | robust
  | stated (text : String)

inductive LossFault (K : Type)
  | scale (got : K)
  | stated (text : String)

inductive InputFault (K : Type)
  | noKeys
  | keyCount (keys : List String) (arity : Nat)
  | weight (slot : Nat) (got : K)
  | unknownLoss (text : String)
  | unknownBase (text : String)
  | stated (text : String)

inductive ModelError (K : Type)
  | lookup (fault : VariableFault)
  | factorLinearization (fault : LinearizationFault)
  | symbolicStructure (fault : StructureFault)
  | dimensionMismatch (fault : DimensionFault)
  | invalidNoiseModel (fault : NoiseFault K)
  | unscalableNoiseModel (slot : Nat) (fault : ScalingFault)
  | slotOutOfRange (slot size : Nat)
  | lossFunction (fault : LossFault K)
  | invalidInput (fault : InputFault K)

inductive ParameterFault (K : Type)
  | range (got : K)
  | stated (text : String)

inductive FactorError (K : Type)
  | invalidDimension (expected actual : Nat)
  | invalidParameters (fault : ParameterFault K)

inductive LinearError
  | factorizationFailed (text : String)
  | singularMatrix
  | sparseMatrixCreation (text : String)
  | matrixConversion (text : String)

inductive SystemFault
  | gaussNewton
  | because (error : LinearError)
  | gradientUnavailable
  | stated (text : String)

inductive InstabilityFault (K : Type)
  | stopped (status : Status) (cost : K)
  | gradientUnavailable
  | stated (text : String)

inductive SolveError (K : Type)
  | linearSolveFailed (fault : SystemFault)
  | invalidParameters (text : String)
  | numericalInstability (fault : InstabilityFault K)
  | linear (error : LinearError)
  | emptyProblem
  | noResidualBlocks
  | scalingCreation (text : String)
  | scalingNotInitialized

inductive ObserverError
  | poisoned (context reason : String)

inductive ConfigFault (K : Type)
  | threshold (got : K)
  | muStep (got : K)
  | noIterations
  | costTolerance (got : K)
  | weightsTolerance (got : K)
  | stated (text : String)

inductive ContinuationError (K : Type)
  | invalidConfig (fault : ConfigFault K)
  | knownInlierOutOfRange (slot size : Nat)
  | degenerateMu (mu maxError threshold : K)
  | weightCountMismatch (expected actual : Nat)
  | nonFiniteFactorError (slot : Nat) (error : K)

inductive Error (K : Type)
  | model (error : ModelError K)
  | factor (error : FactorError K)
  | solve (error : SolveError K)
  | linear (error : LinearError)
  | observer (error : ObserverError)
  | continuation (error : ContinuationError K)

/-- Why an operation has no result. `misshapen`: its arguments do not fit together in shape, which is a mistake of
the caller and no error of the library. A raised error lists the errors it was made from, the first one first. -/
inductive Failure (K : Type)
  | misshapen
  | raised (error : Error K) (causes : List (Error K))

abbrev Result (K α : Type) := Except (Failure K) α

namespace Result

variable {K α : Type}

def fail (error : Error K) : Result K α := .error (.raised error [])

def failModel (error : ModelError K) : Result K α := fail (.model error)

def failSolve (error : SolveError K) : Result K α := fail (.solve error)

def failContinuation (error : ContinuationError K) : Result K α := fail (.continuation error)

/-- The value of an operation that is defined on arguments of fitting shape. -/
def ofShape : Option α → Result K α
  | some a => .ok a
  | none => .error .misshapen

end Result

/-- The errors made on the way to a failure, in order. -/
def Failure.errors {K : Type} : Failure K → List (Error K)
  | misshapen => []
  | raised error causes => causes ++ [error]

end GraduatedFit

import GraduatedFit.Continuation.Schedule
import GraduatedFit.LeastSquares.Solver

/-!
The parameters of a continuation.
-/

namespace GraduatedFit

namespace Continuation

open LeastSquares

/-- How much of a run is reported. -/
inductive Verbosity
  | silent
  | summary
  | values
  deriving DecidableEq, Repr

def Verbosity.rank : Verbosity → Nat
  | silent => 0
  | summary => 1
  | values => 2

structure Config (K : Type) where
  base : Method K
  family : Family
  /-- A factor whose error is at most this is an inlier of the final cost. -/
  threshold : K
  muStep : K
  maxIterations : Nat
  /-- The tolerance of the control parameter for truncated losses. -/
  costTolerance : K
  /-- The distance from zero or one at which a weight counts as decided. -/
  weightsTolerance : K
  /-- Slots that are trusted; their weight stays one. -/
  knownInliers : List Nat
  verbosity : Verbosity

namespace Config

variable {K : Type} [Scalar K]

open Scalar

def ofBase (base : Method K) : Config K where
  base
  family := .truncatedLeastSquares
  threshold := 1
  muStep := 1.4
  maxIterations := 100
  costTolerance := 1e-5
  weightsTolerance := 1e-4
  knownInliers := []
  verbosity := .silent

/-- The configuration with more trusted slots. -/
def trust (slots : List Nat) (config : Config K) : Config K :=
  { config with knownInliers := config.knownInliers ++ slots }

/-- The same parameters, the slots in the same order. -/
def same (a b : Config K) : Bool :=
  a.base.same b.base && a.family == b.family && eq a.threshold b.threshold && eq a.muStep b.muStep &&
    a.maxIterations == b.maxIterations && eq a.costTolerance b.costTolerance &&
    eq a.weightsTolerance b.weightsTolerance && a.knownInliers == b.knownInliers && a.verbosity == b.verbosity

/-- The slots are checked later, against a graph. -/
def validate (config : Config K) : Result K Unit :=
  let invalid (fault : ConfigFault K) : Result K Unit := .failContinuation (.invalidConfig fault)
  if !positive config.threshold then invalid (.threshold config.threshold)
  else if !(finite config.muStep && lt 1 config.muStep) then invalid (.muStep config.muStep)
  else if config.maxIterations = 0 then invalid .noIterations
  else if !nonNegative config.costTolerance then invalid (.costTolerance config.costTolerance)
  else if !nonNegative config.weightsTolerance then invalid (.weightsTolerance config.weightsTolerance)
  else .ok ()

end Config

end Continuation

end GraduatedFit

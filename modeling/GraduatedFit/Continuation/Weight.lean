import GraduatedFit.Vec

/-!
The weight of a factor from its error, for the two families of losses that a continuation moves through.
-/

namespace GraduatedFit

namespace Continuation

inductive Family
  | gemanMcClure
  | truncatedLeastSquares
  deriving DecidableEq, Repr

variable {K : Type} [Scalar K]

open Scalar

def rationalWeight (error scaledThreshold : K) : K := square (scaledThreshold / (error + scaledThreshold))

/-- One up to the scaled threshold, and below a quarter past it. -/
def truncatedWeight (error mu threshold : K) : K :=
  if le error (mu * threshold) then 1 else rationalWeight error (mu * threshold)

/-- An error of zero has weight one, also where the scaled threshold is zero. -/
def gemanMcClureWeight (error mu threshold : K) : K :=
  if eq error 0 then 1 else rationalWeight error (mu * threshold)

def Family.weight : Family → K → K → K → K
  | .gemanMcClure => gemanMcClureWeight
  | .truncatedLeastSquares => truncatedWeight

/-- The weights of errors in slot order; a pinned slot has weight one. -/
def weights (family : Family) (errors : List K) (mu threshold : K) (pinned : Nat → Bool) : Vec K :=
  errors.mapIdx fun slot error => if pinned slot then 1 else family.weight error mu threshold

end Continuation

end GraduatedFit

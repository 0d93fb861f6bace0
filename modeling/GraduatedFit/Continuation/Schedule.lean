import GraduatedFit.Continuation.Weight

/-!
How the control parameter moves. With truncated losses it grows from a small value; with Geman-McClure losses it
falls from a large value to one.
-/

namespace GraduatedFit

namespace Continuation

variable {K : Type} [Scalar K]

open Scalar

namespace Family

/-- The first value, from the largest factor error. For truncated losses it is not positive if every error is inside
the inlier region, and not finite at a pole. -/
def initialMu : Family → K → K → K
  | truncatedLeastSquares, maxError, threshold => threshold / (2.0 * maxError - threshold)
  | gemanMcClure, maxError, threshold => 2.0 * maxError / threshold

def nextMu : Family → K → K → K
  | truncatedLeastSquares, mu, step => mu * step
  | gemanMcClure, mu, step => Scalar.max (mu / step) 1

/-- The next values in order, as many as are asked for. -/
def followingMus (family : Family) (step : K) : Nat → K → List K
  | 0, _ => []
  | count + 1, mu =>
    let next := family.nextMu mu step
    next :: family.followingMus step count next

def muConverged : Family → K → K → K → Bool
  | gemanMcClure, mu, _, _ => eq mu 1
  | truncatedLeastSquares, mu, previous, tolerance => le (abs (mu - previous)) tolerance

end Family

def nearOne (tolerance weight : K) : Bool := le (1 - tolerance) weight

/-- Every slot that is not pinned is within the tolerance of zero or one, and some slot is near one. -/
def saturated (weights : Vec K) (tolerance : K) (pinned : Nat → Bool) : Bool :=
  (weights.zipIdx.all fun (w, slot) => pinned slot || le w tolerance || nearOne tolerance w) &&
    weights.any (nearOne tolerance)

/-- The largest error from zero on. An error that is not a number replaces whatever came before it. -/
def largestError (errors : List K) : K :=
  errors.foldl (fun largest e => if isNaN e || lt largest e then e else largest) 0

end Continuation

end GraduatedFit

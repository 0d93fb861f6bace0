import GraduatedFit.LeastSquares.GaussNewton
import GraduatedFit.LeastSquares.LevenbergMarquardt

/-!
Either least-squares solver, as an object that is used for one run after the other.
-/

namespace GraduatedFit

namespace LeastSquares

/-- A configuration of either solver. -/
inductive Method (K : Type)
  | gaussNewton (config : GaussNewton K)
  | levenbergMarquardt (config : LevenbergMarquardt K)

/-- What a solver object holds from its last run is the column scaling. -/
structure Solver (K : Type) where
  method : Method K
  scaling : Option (ColumnScaling K)

namespace Method

variable {K : Type}

/-- A fresh solver. -/
def build (method : Method K) : Solver K := ⟨method, none⟩

def title : Method K → String
  | gaussNewton _ => "Gauss-Newton"
  | levenbergMarquardt _ => "Levenberg-Marquardt"

/-- The same solver with the same parameters. -/
def same [Scalar K] : Method K → Method K → Bool
  | gaussNewton a, gaussNewton b => a.toCriteria.same b.toCriteria && Scalar.eq a.minDiagonal b.minDiagonal
  | levenbergMarquardt a, levenbergMarquardt b =>
    a.toCriteria.same b.toCriteria && Scalar.eq a.damping b.damping && Scalar.eq a.dampingMin b.dampingMin &&
      Scalar.eq a.dampingMax b.dampingMax && Scalar.eq a.dampingNu b.dampingNu &&
      Scalar.eq a.minTrustRegionRadius b.minTrustRegionRadius
  | _, _ => false

end Method

namespace Solver

variable {K : Type} [Scalar K]

def optimize (solver : Solver K) (clock : Clock) (graph : Graph K) (initial : Values K) : Solver K × Run K :=
  let (scaling, run) := match solver.method with
    | .gaussNewton config => config.run clock graph initial solver.scaling
    | .levenbergMarquardt config => config.run clock graph initial solver.scaling
  ({ solver with scaling }, run)

end Solver

end LeastSquares

end GraduatedFit

import GraduatedFit.Loss
import GraduatedFit.Mat

/-!
The second-order correction of a whitened residual block under a robust loss, after which plain least squares on
the block has the gradient of the robust cost.
-/

namespace GraduatedFit

structure Correction (K : Type) where
  sqrtSlope : K
  residualScaling : K
  alphaSqNorm : K

namespace Correction

open Scalar

variable {K : Type} [Scalar K]

/-- At a zero residual or where the loss is concave only the slope counts. -/
def ofLoss (loss : Loss K) (sqNorm : K) : Correction K :=
  let jet := loss.jet sqNorm
  let sqrtSlope := sqrt jet.slope
  if eq sqNorm 0 || le jet.curvature 0 then ⟨sqrtSlope, sqrtSlope, 0⟩
  else
    let d := 1 + 2.0 * sqNorm * jet.curvature / jet.slope
    let alpha := 1 - sqrt d
    ⟨sqrtSlope, sqrtSlope / (1 - alpha), alpha / sqNorm⟩

def residual (c : Correction K) (r : Vec K) : Vec K := Vec.scale c.residualScaling r

/-- The Jacobian less its part along the residual, times the root of the slope. -/
def jacobian? (c : Correction K) (r : Vec K) (J : Mat K) : Option (Mat K) :=
  if eq c.alphaSqNorm 0 then some (J.scale c.sqrtSlope)
  else if r.length = J.height then
    let along := J.columns.map (Vec.dot r)
    some {
      width := J.width
      rows := List.zipWith (fun ri row =>
        List.zipWith (fun entry t => (entry - ri * t * c.alphaSqNorm) * c.sqrtSlope) row along) r J.rows
      regular := by
        intro row member
        obtain ⟨i, h, rfl⟩ := List.mem_iff_getElem.mp member
        have := J.regular _ (List.getElem_mem (l := J.rows) (n := i) (by simp at h; omega))
        simp [along, Mat.columns, this] }
  else none

end Correction

end GraduatedFit

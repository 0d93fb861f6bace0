import GraduatedFit.Error
import GraduatedFit.Mat

/-!
Factors: residual functions of some variables, and the three that measurements of positions need.
-/

namespace GraduatedFit

/-- `linearize?` takes the values of the variables and whether a Jacobian is wanted. It has no result where the
values do not have the shape that the factor needs. -/
structure Factor (K : Type) where
  dim : Nat
  arity : Nat
  linearize? : List (Vec K) → Bool → Option (Vec K × Option (Mat K))

namespace Factor

open Scalar

variable {K : Type} [Scalar K]

/-- A factor given by a residual and a Jacobian that do not depend on each other. -/
def ofParts (dim arity : Nat) (residual? : List (Vec K) → Option (Vec K))
    (jacobian? : List (Vec K) → Option (Mat K)) : Factor K where
  dim
  arity
  linearize? params wanted := do
    let residual ← residual? params
    if wanted then return (residual, some (← jacobian? params)) else return (residual, none)

/-- The variable less a measured value. -/
def prior (data : Vec K) : Factor K :=
  ofParts data.length 1
    (fun params => do Vec.sub? (← params[0]?) data)
    (fun _ => some (Mat.identity data.length))

def betweenJacobian (n : Nat) : Mat K :=
  Mat.ofFn n (2 * n) fun i j => if j = i then -1 else if j = i + n then 1 else 0

/-- The second variable less the first less a measured difference. -/
def between (measurement : Vec K) : Result K (Factor K) :=
  if measurement.isEmpty then .fail (.factor (.invalidDimension 1 0))
  else .ok <| ofParts measurement.length 2
    (fun params => do Vec.sub? (← Vec.sub? (← params[1]?) (← params[0]?)) measurement)
    (fun _ => some (betweenJacobian measurement.length))

def difference? (params : List (Vec K)) : Option (Vec K) := do
  Vec.sub? (← params[0]?) (← params[1]?)

/-- The unit vector along a difference in the first half and its opposite in the second, or zero where the points
are as good as equal. -/
def rangeJacobian? (dim : Nat) (diff : Vec K) : Option (Mat K) :=
  let distance := Vec.norm diff
  if lt epsilon distance then
    if dim ≤ diff.length then
      let direction := (diff.take dim).map (· / distance)
      Mat.ofRows? (2 * dim) [direction ++ direction.map (- ·)]
    else none
  else Mat.ofRows? (2 * dim) [List.replicate (2 * dim) 0]

/-- The distance of two points less a measured range. -/
def distance (range : K) (pointDim : Nat) : Factor K :=
  ofParts 1 2
    (fun params => do return [Vec.norm (← difference? params) - range])
    (fun params => do rangeJacobian? pointDim (← difference? params))

/-- The factor of a range that is a length. -/
def range (range : K) (pointDim : Nat) : Result K (Factor K) :=
  if !nonNegative range then .fail (.factor (.invalidParameters (.range range)))
  else if pointDim = 0 then .fail (.factor (.invalidDimension 1 0))
  else .ok (distance range pointDim)

end Factor

end GraduatedFit

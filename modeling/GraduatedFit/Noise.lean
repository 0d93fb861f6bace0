import GraduatedFit.Correction
import GraduatedFit.Mat.Inverse
import GraduatedFit.Symmetric

/-!
Noise models: the whitening of a residual block, and robust losses on top of it. Whitening has no result where the
block does not fit the model in shape.
-/

namespace GraduatedFit

inductive Noise (K : Type)
  /-- The square root `R` of the information: the covariance is the inverse of `RᵀR`. -/
  | gaussian (sqrtInformation : Mat K)
  | diagonal (sigmas : Vec K)
  | isotropic (dim : Nat) (sigma : K)
  | unit (dim : Nat)
  | robust (loss : Shared (Loss K)) (base : Noise K)

namespace Noise

open Scalar

variable {K : Type}

def dim : Noise K → Nat
  | gaussian R => R.height
  | diagonal sigmas => sigmas.length
  | isotropic dim _ => dim
  | unit dim => dim
  | robust _ base => base.dim

def isRobust : Noise K → Bool
  | robust _ _ => true
  | _ => false

def loss? : Noise K → Option (Shared (Loss K))
  | robust loss _ => some loss
  | _ => none

def withoutRobustLoss : Noise K → Noise K
  | robust _ base => base
  | model => model

def invalid {α : Type} (fault : NoiseFault K) : Result K α := .failModel (.invalidNoiseModel fault)

/-- A robust model around a model that is not robust itself. -/
def ofLoss (loss : Shared (Loss K)) (base : Noise K) : Result K (Noise K) :=
  if base.isRobust then invalid .nested else .ok (robust loss base)

def ofDim (dim : Nat) : Result K (Noise K) :=
  if dim = 0 then invalid .noDimension else .ok (unit dim)

def ofSqrtInformation (R : Mat K) : Result K (Noise K) :=
  if !R.isSquare || R.height == 0 then invalid (.informationShape R.height R.width) else .ok (gaussian R)

variable [Scalar K]

def ofSigma (dim : Nat) (sigma : K) : Result K (Noise K) :=
  if dim = 0 then invalid .noDimension
  else if positive sigma then .ok (isotropic dim sigma)
  else invalid (.sigma sigma)

def ofSigmas (sigmas : Vec K) : Result K (Noise K) :=
  if sigmas.isEmpty then invalid .noSigmas
  else match sigmas.find? (!positive ·) with
    | some bad => invalid (.diagonalSigma bad)
    | none => .ok (diagonal sigmas)

/-- The model of a covariance `L Lᵀ` has the inverse of `L` for its square root. Only the lower triangle is read. -/
def ofCovariance (covariance : Mat K) : Result K (Noise K) :=
  if !covariance.isSquare then invalid (.covarianceShape covariance.height covariance.width)
  else match (Symmetric.ofLower covariance).cholesky? with
    | none => invalid .notPositiveDefinite
    | some L => match L.toMat.inverse? with
      | none => invalid .singularFactor
      | some R => ofSqrtInformation R

/-- The standard deviation of each component; none where the information is singular. -/
def sigmas? : Noise K → Option (Vec K)
  | gaussian R => do
    let covariance ← (← R.transpose.mul? R).inverse?
    return (List.range R.width).map fun i => sqrt (covariance.get i i)
  | diagonal sigmas => some sigmas
  | isotropic dim sigma => some (List.replicate dim sigma)
  | unit dim => some (List.replicate dim 1)
  | robust _ base => base.sigmas?

/-- The whitened residual; a robust loss plays no part. -/
def whiten? : Noise K → Vec K → Option (Vec K)
  | gaussian R, r => R.mulVec? r
  | diagonal sigmas, r => Vec.div? r sigmas
  | isotropic _ sigma, r => some (r.map (· / sigma))
  | unit _, r => some r
  | robust _ base, r => base.whiten? r

/-- The whitened Jacobian; a robust loss plays no part. -/
def whitenJacobian? : Noise K → Mat K → Option (Mat K)
  | gaussian R, J => R.mul? J
  | diagonal sigmas, J =>
    if sigmas.length ≤ J.height then
      some (J.mapRows fun i x => (sigmas[i]?).elim x fun sigma => x * (1 / sigma))
    else none
  | isotropic _ sigma, J => some (J.map (· / sigma))
  | unit _, J => some J
  | robust _ base, J => base.whitenJacobian? J

/-- Whitened residual and Jacobian, corrected for the robust loss if there is one. -/
def whitenSystem? (model : Noise K) (r : Vec K) (J : Option (Mat K)) : Option (Vec K × Option (Mat K)) := do
  let whitened ← model.whiten? r
  let whitenedJacobian ← J.mapM model.whitenJacobian?
  match model with
  | robust loss _ =>
    let correction := Correction.ofLoss loss.value (Vec.normSq whitened)
    let corrected ← whitenedJacobian.mapM (correction.jacobian? whitened)
    return (correction.residual whitened, corrected)
  | _ => return (whitened, whitenedJacobian)

/-- Half the squared norm of the whitened residual, or half the loss of it. -/
def error? (model : Noise K) (r : Vec K) : Option K := do
  let sqNorm := Vec.normSq (← model.whiten? r)
  match model with
  | robust loss _ => return 0.5 * (loss.value.jet sqNorm).value
  | _ => return 0.5 * sqNorm

/-- The model with its information multiplied by a weight. A robust model has no scale to adjust. -/
def scaledByWeight? (weight : K) : Noise K → Option (Noise K)
  | gaussian R => some (gaussian (R.scale (sqrt weight)))
  | diagonal sigmas => some (diagonal (sigmas.map (· / sqrt weight)))
  | isotropic dim sigma => some (isotropic dim (sigma / sqrt weight))
  | unit dim => some (isotropic dim (1 / sqrt weight))
  | robust _ _ => none

/-- The same kind of model with parameters close to each other; losses have to be the same object. -/
def agree (tolerance : K) : Noise K → Noise K → Bool
  | gaussian R, gaussian R' => Mat.agree (close tolerance) R R'
  | diagonal s, diagonal s' => Vec.agree (close tolerance) s s'
  | isotropic d s, isotropic d' s' => d == d' && close tolerance s s'
  | unit d, unit d' => d == d'
  | robust loss base, robust loss' base' => loss.sameAs loss' && agree tolerance base base'
  | _, _ => false

end Noise

end GraduatedFit

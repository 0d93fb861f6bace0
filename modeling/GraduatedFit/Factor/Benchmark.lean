import GraduatedFit.Factor

/-!
Test problems: affine residuals, constants, a guarded prior, and the usual small nonlinear functions.
All read the values of their variables as one stacked vector, of which they take as much as they need.
-/

namespace GraduatedFit

namespace Factor

open Scalar

variable {K : Type} [Scalar K]

/-- The residual `A x - b`, with the sums taken from zero left to right. -/
def affine (A : Mat K) (b : Vec K) (arity : Nat) : Factor K :=
  ofParts A.height arity
    (fun params => do Vec.sub? (← A.mulVec? (params.flatten.take A.width)) b)
    (fun _ => some A)

/-- A residual and a Jacobian that are the same everywhere; the Jacobian may be missing. -/
def constant (dim arity : Nat) (residual : Vec K) (jacobian : Option (Mat K)) : Factor K :=
  ⟨dim, arity, fun _ wanted => some (residual, if wanted then jacobian else none)⟩

/-- A prior that breaks down outside of a box around the origin. -/
def guarded (data : Vec K) (limit : K) : Factor K :=
  ofParts data.length 1
    (fun params => do
      let x := params.flatten
      let residual ← Vec.sub? x data
      if x.all fun xi => le (abs xi) limit then return residual
      else return residual.map fun _ => 0 / 0)
    (fun _ => some (Mat.identity data.length))

def rosenbrock : Factor K :=
  ofParts 2 2
    (fun params => match params.flatten with
      | x :: y :: _ => some [10.0 * (y - x * x), 1 - x]
      | _ => none)
    (fun params => match params.flatten with
      | x :: _ => Mat.ofRows? 2 [[-20.0 * x, 10.0], [-1, 0]]
      | _ => none)

/-- The curved valley of `rosenbrock` alone. -/
def valley : Factor K :=
  ofParts 1 2
    (fun params => match params.flatten with
      | x :: y :: _ => some [10.0 * (y - x * x)]
      | _ => none)
    (fun params => match params.flatten with
      | x :: _ => Mat.ofRows? 2 [[-20.0 * x, 10.0]]
      | _ => none)

def trigonometric : Factor Float :=
  ofParts 2 1
    (fun params => match params.flatten with
      | x :: y :: _ => some [x.cos - 1, y.sin]
      | _ => none)
    (fun params => match params.flatten with
      | x :: y :: _ => Mat.ofRows? 2 [[-x.sin, 0], [0, y.cos]]
      | _ => none)

/-- An exponential of the given rate less a level. -/
def exponential (rate level : Float) : Factor Float :=
  ofParts 1 1
    (fun params => match params.flatten with
      | x :: _ => some [(rate * x).exp - level]
      | _ => none)
    (fun params => match params.flatten with
      | x :: _ => Mat.ofRows? 1 [[rate * (rate * x).exp]]
      | _ => none)

end Factor

end GraduatedFit

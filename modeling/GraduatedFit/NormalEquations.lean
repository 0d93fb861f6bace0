import GraduatedFit.Elimination.Plan
import GraduatedFit.Sparse

/-!
The linear systems of the iterations: normal equations of a sparse Jacobian, plain or damped, and the scaling of
its columns.
-/

namespace GraduatedFit

variable {K : Type} [Scalar K]

/-- What is kept between systems: the plan of the first one, and the undamped matrix and the gradient of the last one
that was solved. -/
structure NormalEquations (K : Type) where
  plan : Option Elimination.Plan := none
  hessian : Option (Symmetric K) := none
  gradient : Option (Vec K) := none

namespace NormalEquations

/-- The step `x` with `(JᵀJ + damping) x = -Jᵀr`. On a failure only the plan is kept.

Errors of transposing the Jacobian, of making the diagonal of the damping and of planning the elimination are left out: the
first and the last need memory or indices to run out, the second an entry outside the matrix. -/
def solve (kept : NormalEquations K) (r : Vec K) (J : SparseMat K) (damping : Option K) :
    NormalEquations K × Result K (Vec K) :=
  if r.length ≠ J.height then (kept, .error .misshapen)
  else
    let hessian := J.gram
    let gradient := J.transposeMul r
    let matrix := damping.elim hessian fun x => hessian.addDiagonal x
    let plan := kept.plan.getD (.ofSymmetric matrix)
    match plan.solve matrix (gradient.map (- ·)) with
    | .ok x => (⟨some plan, some hessian, some gradient⟩, .ok x)
    | .error failure => ({ kept with plan := some plan }, .error failure)

end NormalEquations

/-- A diagonal matrix that shrinks each column by one plus its norm. -/
structure ColumnScaling (K : Type) where
  factors : Vec K

namespace ColumnScaling

/-- The error of making the diagonal matrix is left out: it needs an entry outside the matrix, or memory to run out. -/
def ofJacobian (J : SparseMat K) : ColumnScaling K :=
  ⟨J.columns.map fun column => 1 / (1 + Scalar.sqrt column.normSq)⟩

def scale (S : ColumnScaling K) (J : SparseMat K) : SparseMat K := J.scaleColumns S.factors

/-- A step in scaled coordinates as a step of the variables. -/
def unscale (S : ColumnScaling K) (step : Vec K) : Vec K := List.zipWith (· * ·) step S.factors

/-- The same for a step of any length, of which there may be no more than columns. -/
def unscale? (S : ColumnScaling K) (step : Vec K) : Option (Vec K) :=
  if step.length ≤ S.factors.length then some (S.unscale step) else none

end ColumnScaling

end GraduatedFit

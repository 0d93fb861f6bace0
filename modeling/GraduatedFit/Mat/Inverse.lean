import GraduatedFit.Mat

/-!
Inverses of dense matrices: by cofactors up to four rows, by elimination with row exchanges above. A matrix has no
inverse exactly when its determinant, or the largest candidate for a pivot, is zero. The order of the operations is
part of the definitions: it decides which numbers overflow on the way.
-/

namespace GraduatedFit

namespace Mat

open Scalar

variable {K : Type} [Scalar K]

def alternate (i : Nat) (x : K) : K := if i % 2 = 0 then x else -x

def inverse1? (A : Mat K) : Option (Mat K) :=
  let d := A.get 0 0
  if eq d 0 then none else some ⟨1, [[1 / d]], by simp⟩

def inverse2? (A : Mat K) : Option (Mat K) :=
  let d := A.get 0 0 * A.get 1 1 - A.get 1 0 * A.get 0 1
  if eq d 0 then none else some ⟨2, [[A.get 1 1 / d, -A.get 0 1 / d], [-A.get 1 0 / d, A.get 0 0 / d]], by simp⟩

/-- The difference of the two products of a minor: of the entries in rows `i` and `k` of one column with those of
another, crosswise. -/
def minor (A : Mat K) (i j k l : Nat) : K := A.get i j * A.get k l - A.get k j * A.get i l

def inverse3? (A : Mat K) : Option (Mat K) :=
  let first := A.minor 1 1 2 2
  let second := A.minor 1 0 2 2
  let third := A.minor 1 0 2 1
  let d := A.get 0 0 * first - A.get 0 1 * second + A.get 0 2 * third
  if eq d 0 then none
  else some ⟨3, [
    [first / d, (A.get 0 2 * A.get 2 1 - A.get 2 2 * A.get 0 1) / d, A.minor 0 1 1 2 / d],
    [-second / d, A.minor 0 0 2 2 / d, (A.get 0 2 * A.get 1 0 - A.get 1 2 * A.get 0 0) / d],
    [third / d, (A.get 0 1 * A.get 2 0 - A.get 2 1 * A.get 0 0) / d, A.minor 0 0 1 1 / d]], by simp⟩

/-- A cofactor of a matrix of four rows: six products, of which the first factor carries the sign. -/
def cofactor4 (A : Mat K) (i j : Nat) : K :=
  match (List.range 4).erase i, (List.range 4).erase j with
  | [r, s, t], [a, b, c] =>
    let product (k : Nat) (x y z : K) : K := alternate (i + j + k) x * y * z
    product 0 (A.get r a) (A.get s b) (A.get t c) + product 1 (A.get r a) (A.get t b) (A.get s c) +
      product 1 (A.get r b) (A.get s a) (A.get t c) + product 0 (A.get r b) (A.get t a) (A.get s c) +
      product 0 (A.get r c) (A.get s a) (A.get t b) + product 1 (A.get r c) (A.get t a) (A.get s b)
  | _, _ => 0

def inverse4? (A : Mat K) : Option (Mat K) :=
  let d := A.get 0 0 * A.cofactor4 0 0 + A.get 1 0 * A.cofactor4 1 0 + A.get 2 0 * A.cofactor4 2 0 +
    A.get 3 0 * A.cofactor4 3 0
  if eq d 0 then none
  else
    let scale := 1 / d
    some (ofFn 4 4 fun i j => A.cofactor4 j i * scale)

/-- One equation per row: coefficients of the unknowns, and a right-hand side of several columns. -/
structure Equation (K : Type) where
  coefficients : Vec K
  constants : Vec K

namespace Equation

def lead (e : Equation K) : K := e.coefficients.headD 0

/-- The equation with its first unknown eliminated by means of a pivot equation. -/
def eliminate (pivot e : Equation K) : Equation K :=
  let factor := e.lead * (1 / pivot.lead)
  ⟨List.zipWith (fun x p => x - factor * p) e.coefficients.tail pivot.coefficients.tail,
    List.zipWith (fun x p => x - factor * p) e.constants pivot.constants⟩

/-- The first unknown from the others; the last of them is moved to the other side first. -/
def backSubstitute (pivot : Equation K) (others : List (Vec K)) : Vec K :=
  let known := List.zipWith (fun c row => Vec.scale c row) pivot.coefficients.tail others
  (known.foldr (fun row acc => List.zipWith (· - ·) acc row) pivot.constants).map (· / pivot.lead)

/-- The place of the equation of largest leading coefficient. The best so far and its place come first, then the place
of the next one. -/
def pivotPlace (best : Equation K) (place next : Nat) : List (Equation K) → Nat
  | [] => place
  | e :: rest =>
    if lt (abs best.lead) (abs e.lead) then pivotPlace e next (next + 1) rest
    else pivotPlace best place (next + 1) rest

/-- Of a nonempty list of equations the pivot and the others; the first one takes the place of the pivot. -/
def choosePivot (e : Equation K) (rest : List (Equation K)) : Equation K × List (Equation K) :=
  match pivotPlace e 0 1 rest with
  | 0 => (e, rest)
  | k + 1 => (rest.getD k e, rest.set k e)

/-- The rows of the solution of as many equations as unknowns. -/
def solve? : Nat → List (Equation K) → Option (List (Vec K))
  | 0, _ => some []
  | _ + 1, [] => none
  | n + 1, e :: rest =>
    let (pivot, others) := choosePivot e rest
    if eq pivot.lead 0 then none
    else (solve? n (others.map (eliminate pivot))).map fun rows => backSubstitute pivot rows :: rows

end Equation

def inverseByElimination? (A : Mat K) : Option (Mat K) :=
  let n := A.height
  (Equation.solve? n (List.zipWith Equation.mk A.rows (identity n).rows)).bind (ofRows? n)

def inverse? (A : Mat K) : Option (Mat K) :=
  match A.height with
  | 0 => some A
  | 1 => A.inverse1?
  | 2 => A.inverse2?
  | 3 => A.inverse3?
  | 4 => A.inverse4?
  | _ => A.inverseByElimination?

end Mat

end GraduatedFit

import GraduatedFit.Mat

/-!
Symmetric matrices by the columns of their lower triangle, and their Cholesky factorization. An absent entry is a
structural zero: no operation touches it, so that a number it does not depend on cannot reach it.
-/

namespace GraduatedFit

structure SymColumn (K : Type) where
  diagonal : Option K
  below : List (Option K)

abbrev Symmetric (K : Type) := List (SymColumn K)

/-- A column of a lower triangular factor. -/
structure FactorColumn (K : Type) where
  pivot : K
  below : List (Option K)

abbrev Cholesky (K : Type) := List (FactorColumn K)

variable {K : Type} [Scalar K]

/-- The entry less the product of `x` with another entry; an absent entry leaves it alone. -/
def lessProduct (x : K) (entry : Option K) : Option K → Option K
  | some y => some (entry.getD 0 - x * y)
  | none => entry

namespace Symmetric

/-- The symmetric matrix of a lower triangle; what stands above it is not read. -/
def ofLower (A : Mat K) : Symmetric K :=
  (List.range A.height).map fun j =>
    ⟨some (A.get j j), (List.range' (j + 1) (A.height - (j + 1))).map fun i => some (A.get i j)⟩

def addDiagonal (x : K) (S : Symmetric K) : Symmetric K :=
  S.map fun column => { column with diagonal := some (column.diagonal.getD 0 + x) }

/-- The columns with their diagonal entries in front, for access by position. -/
def table (S : Symmetric K) : Array (Array (Option K)) :=
  (S.map fun column => (column.diagonal :: column.below).toArray).toArray

/-- The entry that a table has for row `i` and column `j`, in either order. -/
def stored? (table : Array (Array (Option K))) (i j : Nat) : Option K :=
  (table[min i j]?).bind fun column => (column[max i j - min i j]?).join

def get (S : Symmetric K) (i j : Nat) : K := (stored? S.table i j).getD 0

/-- Which entries are stored: for each column its diagonal entry and those below. -/
def shape (S : Symmetric K) : List (List Bool) :=
  S.map fun column => column.diagonal.isSome :: column.below.map Option.isSome

/-- For each row, the columns apart from its own in which it stores an entry. -/
def neighbours (S : Symmetric K) : List (List Nat) :=
  let table := S.table
  let indices := List.range S.length
  indices.map fun i => indices.filter fun j => i ≠ j && (stored? table i j).isSome

/-- The symmetric matrix of the given rows and columns of a table. -/
def select (table : Array (Array (Option K))) : List Nat → Symmetric K
  | [] => []
  | j :: rest => ⟨stored? table j j, rest.map (stored? table · j)⟩ :: select table rest

/-- The same matrix with its rows and columns in another order. -/
def reorder (order : List Nat) (S : Symmetric K) : Symmetric K := select S.table order

def toMat (S : Symmetric K) : Mat K :=
  let table := S.table
  Mat.ofFn S.length S.length fun i j => (stored? table i j).getD 0

/-- The matrix less the outer product of a vector with itself. -/
def downdate : List (Option K) → Symmetric K → Symmetric K
  | some x :: xs, column :: S =>
    ⟨lessProduct x column.diagonal (some x), List.zipWith (lessProduct x) column.below xs⟩ :: downdate xs S
  | none :: xs, column :: S => column :: downdate xs S
  | _, S => S

theorem length_downdate (xs : List (Option K)) (S : Symmetric K) : (downdate xs S).length = S.length := by
  induction xs generalizing S with
  | nil => cases S <;> rfl
  | cons x xs ih =>
    cases S with
    | nil => cases x <;> rfl
    | cons column S => cases x <;> simp [downdate, ih]

/-- Every pivot has to be positive. -/
def cholesky? : Symmetric K → Option (Cholesky K)
  | [] => some []
  | column :: S =>
    let d := column.diagonal.getD 0
    if Scalar.lt 0 d then
      let pivot := Scalar.sqrt d
      let below := column.below.map (·.map (· / pivot))
      (cholesky? (downdate below S)).map (⟨pivot, below⟩ :: ·)
    else none
termination_by S => S.length
decreasing_by simp [length_downdate]

end Symmetric

namespace Cholesky

/-- The solution of the system whose matrix is the factor times its transpose. -/
def solve : Cholesky K → Vec K → Vec K
  | column :: L, b :: bs =>
    let y := b / column.pivot
    let rest := solve L (List.zipWith (fun c entry => (entry.map (c - · * y)).getD c) bs column.below)
    let x := (List.zip column.below rest).foldl (fun acc (entry, z) => (entry.map (acc - · * z)).getD acc) y
    x / column.pivot :: rest
  | _, _ => []

/-- The factor as a dense matrix. -/
def toMat (L : Cholesky K) : Mat K :=
  Mat.ofFn L.length L.length fun i j =>
    match L[j]? with
    | none => 0
    | some column =>
      if i < j then 0 else if i = j then column.pivot else (column.below.getD (i - j - 1) none).getD 0

end Cholesky

end GraduatedFit

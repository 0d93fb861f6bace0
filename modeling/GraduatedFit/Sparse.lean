import GraduatedFit.Symmetric

/-!
Sparse matrices by columns. An entry that is stored counts as present even where its value is zero.
-/

namespace GraduatedFit

/-- Positions with their values, the positions increasing. -/
abbrev SparseVec (K : Type) := List (Nat × K)

structure SparseMat (K : Type) where
  height : Nat
  columns : List (SparseVec K)

variable {K : Type} [Scalar K]

namespace SparseVec

/-- Store a value, or add it to the one that is stored there already. -/
def accumulate (position : Nat) (value : K) : SparseVec K → SparseVec K
  | [] => [(position, value)]
  | (p, v) :: rest =>
    if position < p then (position, value) :: (p, v) :: rest
    else if position = p then (p, v + value) :: rest
    else (p, v) :: accumulate position value rest

def get (v : SparseVec K) (position : Nat) : K := (v.lookup position).getD 0

/-- The products over the positions that both store. -/
def products (v w : SparseVec K) : List K :=
  match v, w with
  | [], _ => []
  | _, [] => []
  | (i, x) :: v', (j, y) :: w' =>
    if i < j then products v' ((j, y) :: w')
    else if j < i then products ((i, x) :: v') w'
    else x * y :: products v' w'
termination_by v.length + w.length

/-- The inner product, if there is a position that both store. -/
def overlap (v w : SparseVec K) : Option K :=
  match products v w with
  | [] => none
  | terms => some (Vec.sum terms)

/-- A number and the inner product with a dense vector whose first entry has the given position. -/
def addDot (total : K) : Nat → SparseVec K → Vec K → K
  | _, [], _ => total
  | _, _, [] => total
  | i, (p, x) :: v, y :: ys =>
    if p = i then addDot (total + x * y) (i + 1) v ys else addDot total (i + 1) ((p, x) :: v) ys

def normSq (v : SparseVec K) : K := Vec.normSq (v.map Prod.snd)

end SparseVec

namespace SparseMat

def width (J : SparseMat K) : Nat := J.columns.length

/-- Entries by row, column and value; those of one position add up. -/
def ofEntries (height width : Nat) (entries : List ((Nat × Nat) × K)) : SparseMat K where
  height
  columns := (List.range width).map fun c =>
    (entries.filter (·.1.2 == c)).foldl (fun column e => SparseVec.accumulate e.1.1 e.2 column) []

def get (J : SparseMat K) (i j : Nat) : K := SparseVec.get (J.columns.getD j []) i

def toMat (J : SparseMat K) : Mat K := Mat.ofFn J.height J.width J.get

def gramOf : List (SparseVec K) → Symmetric K
  | [] => []
  | column :: columns =>
    ⟨column.overlap column, columns.map column.overlap⟩ :: gramOf columns

/-- The product of the transpose with the matrix. -/
def gram (J : SparseMat K) : Symmetric K := gramOf J.columns

/-- The product of the transpose with a vector. -/
def transposeMul (J : SparseMat K) (r : Vec K) : Vec K := J.columns.map fun column => column.addDot 0 0 r

/-- Each column times the factor that belongs to it. -/
def scaleColumns (factors : Vec K) (J : SparseMat K) : SparseMat K where
  height := J.height
  columns := List.zipWith (fun s column => column.map fun e => (e.1, e.2 * s)) factors J.columns

end SparseMat

end GraduatedFit

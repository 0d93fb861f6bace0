import GraduatedFit.Elimination.Places
import GraduatedFit.Error
import GraduatedFit.Symmetric

/-!
Elimination in the places that were laid out for another matrix of the same size. Row by row, each number goes to the
next free place of its column, whatever row that place is for, so that the result is of use only if the matrix fits.
-/

namespace GraduatedFit

namespace Elimination

/-- The row in work, the numbers in their places, and the next free place of each column. -/
structure Workspace (K : Type) where
  row : Array K
  factor : Array K
  free : Array Nat

variable {K : Type} [Scalar K]

namespace Workspace

def start (places : Places) : Workspace K :=
  let n := places.parents.size
  ⟨Array.replicate n 0, Array.replicate places.rows.size 0, (List.range n).toArray.map (places.start · + 1)⟩

/-- Eliminate a column from the row in work, of which `d` is the diagonal entry. -/
def useColumn (places : Places) (progress : Workspace K × K) (j : Nat) : Result K (Workspace K × K) :=
  let (w, d) := progress
  let free := w.free.getD j 0
  if w.factor.size ≤ free then .error .misshapen
  else
    let x := w.row.getD j 0 * (1 / w.factor.getD (places.start j) 0)
    let taken := List.range' (places.start j + 1) (free - (places.start j + 1))
    let row := taken.foldl (fun row place =>
      row.modify (places.rows.getD place 0) (· - w.factor.getD place 0 * x)) (w.row.setIfInBounds j 0)
    .ok (⟨row, w.factor.setIfInBounds free x, w.free.setIfInBounds j (free + 1)⟩, d - x * x)

/-- Eliminate row `k`, given by its entries up to the diagonal. -/
def useRow (places : Places) (w : Workspace K) (k : Nat) (entries : List (Nat × K)) : Result K (Workspace K) := do
  let row := entries.foldl (fun row (j, x) => row.modify j (· + x)) w.row
  let some columns := Places.reach? places.parents k ((entries.map Prod.fst).filter (· < k)) | .error .misshapen
  let (w, d) ← columns.foldlM (useColumn places) ({ w with row := row.setIfInBounds k 0 }, row.getD k 0)
  if Scalar.lt 0 d then return { w with factor := w.factor.setIfInBounds (places.start k) (Scalar.sqrt d) }
  else .fail (.linear .singularMatrix)

/-- The solution for the numbers that stand in the places. -/
def solve (places : Places) (w : Workspace K) (b : Vec K) : Vec K :=
  let pivot (j : Nat) : K := w.factor.getD (places.start j) 0
  let entry (place : Nat) : K := w.factor.getD place 0
  let row (place : Nat) : Nat := places.rows.getD place 0
  let indices := List.range b.length
  let forward := indices.foldl (fun (x : Array K) j =>
    let y := x.getD j 0 / pivot j
    (places.below j).foldl (fun x place => x.modify (row place) (· - entry place * y)) (x.setIfInBounds j y))
    b.toArray
  let backward := indices.foldr (fun j (x : Array K) =>
    let y := (places.below j).foldl (fun y place => y - entry place * x.getD (row place) 0) (x.getD j 0)
    x.setIfInBounds j (y / pivot j)) forward
  backward.toList

end Workspace

/-- The entries of each row up to the diagonal, with the columns in a given order. -/
def lowerRows (columns : List Nat) (S : Symmetric K) : List (List (Nat × K)) :=
  let table := S.table
  (List.range S.length).map fun i => (columns.filter (· ≤ i)).filterMap fun j =>
    (Symmetric.stored? table i j).map fun x => (j, x)

/-- The solution of a system in places that were made for another matrix, with the columns as each row takes them. -/
def solveInPlaces (places : Places) (columns : List Nat) (S : Symmetric K) (b : Vec K) : Result K (Vec K) := do
  let w ← (lowerRows columns S).zipIdx.foldlM (fun w (entries, k) => Workspace.useRow places w k entries)
    (Workspace.start places)
  return w.solve places b

end Elimination

end GraduatedFit

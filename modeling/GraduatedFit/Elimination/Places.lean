/-!
Where the entries of a triangular factor stand, as the shape of a symmetric matrix decides it: the elimination of a
column goes on in the row of its first entry below the diagonal, and a row depends on the columns on the way from its
entries to itself.
-/

namespace GraduatedFit

namespace Elimination

/-- The places of a triangular factor, column by column, the diagonal entry of a column first. -/
structure Places where
  /-- The column in which the elimination of a column goes on. -/
  parents : Array (Option Nat)
  starts : Array Nat
  rows : Array Nat

namespace Places

/-- The columns from one on to the first that was seen before, in the order of their elimination. There is none if the
elimination ends before. -/
def climb? (parents : Array (Option Nat)) (seen : List Nat) : Nat → Nat → Option (List Nat)
  | 0, _ => none
  | steps + 1, j =>
    if seen.contains j then some []
    else do
      let rest ← climb? parents seen steps (← parents.getD j none)
      return j :: rest

/-- The columns that a row depends on if it has entries in the given ones. -/
def reach? (parents : Array (Option Nat)) (row : Nat) (columns : List Nat) : Option (List Nat) :=
  columns.foldlM (fun found j => do
    let path ← climb? parents (row :: found) (parents.size + 1) j
    return path ++ found) []

/-- The columns from one on for which it is settled so far in which column their elimination goes on. -/
def adoptFrom (k : Nat) : Nat → Nat → Array (Option Nat) → Array (Option Nat)
  | 0, _, parents => parents
  | steps + 1, j, parents =>
    if j = k then parents
    else match parents.getD j none with
      | some parent => adoptFrom k steps parent parents
      | none => parents.setIfInBounds j (some k)

/-- Row `k` continues the columns that it depends on and that nothing has continued yet. -/
def adopt (parents : Array (Option Nat)) (k : Nat) (columns : List Nat) : Array (Option Nat) :=
  columns.foldl (fun parents j => adoptFrom k parents.size j parents) parents

/-- For each column, the rows in which a factor has an entry, from the columns before each row in which the matrix has
one. -/
def rowsOfColumns (parents : Array (Option Nat)) (before : List (List Nat)) : List (List Nat) :=
  let columns := before.zipIdx.foldl (fun columns (before, k) =>
    ((reach? parents k before).getD []).foldl (fun columns j => columns.modify j (k :: ·)) columns)
    (Array.replicate before.length ([] : List Nat))
  columns.toList.zipIdx.map fun (rows, j) => j :: rows.reverse

/-- The places for a matrix of which only the shape is read. -/
def ofNeighbours (before : List (List Nat)) : Places :=
  let parents := before.zipIdx.foldl (fun parents (columns, k) => adopt parents k columns)
    (Array.replicate before.length none)
  let columns := rowsOfColumns parents before
  let starts := columns.foldl (fun starts rows => starts.push (starts.back?.getD 0 + rows.length)) #[0]
  ⟨parents, starts, columns.flatten.toArray⟩

def start (places : Places) (j : Nat) : Nat := places.starts.getD j 0

/-- The places of a column below its diagonal. -/
def below (places : Places) (j : Nat) : List Nat :=
  List.range' (places.start j + 1) (places.start (j + 1) - (places.start j + 1))

/-- The rows below the diagonal for which a column has places. -/
def rowsBelow (places : Places) (j : Nat) : List Nat := (places.below j).map (places.rows.getD · 0)

end Places

end Elimination

end GraduatedFit

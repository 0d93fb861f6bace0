import GraduatedFit.Elimination.Places
import GraduatedFit.Error
import GraduatedFit.Symmetric

/-!
Elimination in blocks: every place of the factor takes part with a number, zero where the matrix has no entry.
-/

namespace GraduatedFit

namespace Elimination

variable {K : Type} [Scalar K]

/-- Column `j` with a number in each of the given rows. There is none if it has an entry in another row. -/
def completeColumn? (rows : List Nat) (j : Nat) (column : SymColumn K) : Option (SymColumn K) := do
  let below ← column.below.zipIdx (j + 1) |>.mapM fun (entry, i) =>
    if rows.contains i then some (some (entry.getD 0)) else if entry.isNone then some none else none
  return ⟨some (column.diagonal.getD 0), below⟩

def complete? (places : Places) (S : Symmetric K) : Option (Symmetric K) :=
  S.zipIdx.mapM fun (column, j) => completeColumn? (places.rowsBelow j) j column

/-- The solution of a system that has entries in the given places only. Every pivot has to be finite. -/
def solveInBlocks (places : Places) (S : Symmetric K) (b : Vec K) : Result K (Vec K) := do
  let some S := complete? places S | .error .misshapen
  match S.cholesky? with
  | some L => if L.all (Scalar.finite ·.pivot) then return L.solve b else .fail (.linear .singularMatrix)
  | none => .fail (.linear .singularMatrix)

end Elimination

end GraduatedFit

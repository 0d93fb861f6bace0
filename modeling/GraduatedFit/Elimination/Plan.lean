import GraduatedFit.Elimination.Block
import GraduatedFit.Elimination.Misfit
import GraduatedFit.Elimination.Order

/-!
How the systems of one shape are solved: the shape decides the order of the elimination once and for all.
-/

namespace GraduatedFit

namespace Elimination

/-- The shape of a system, the order in which its unknowns are eliminated, for each of them in this order those before
it that it is tied to, and whether they are eliminated in blocks. -/
structure Plan where
  shape : List (List Bool)
  order : List Nat
  before : List (List Nat)
  inBlocks : Bool

/-- The number of entries on and below the diagonal. -/
def lowerCount (shape : List (List Bool)) : Nat := (shape.map (·.count true)).foldr (· + ·) 0

/-- The number of entries of the whole matrix. -/
def wholeCount (shape : List (List Bool)) : Nat :=
  (shape.map fun column => column.count true + column.tail.count true).foldr (· + ·) 0

variable {K : Type} [Scalar K]

namespace Plan

/-- For each unknown, in the order given, those before it that it is tied to. -/
def tiesBefore (neighbours : List (List Nat)) (order : List Nat) : List (List Nat) :=
  let neighbours := neighbours.toArray
  let ranks := order.zipIdx.foldl (fun ranks (i, rank) => ranks.setIfInBounds i rank) (Array.replicate order.length 0)
  order.zipIdx.map fun (i, k) => (((neighbours.getD i []).map (ranks.getD · 0)).filter (· < k)).mergeSort

/-- Blocks pay if there are more than forty operations for each entry of the factor. -/
def blocksPay (work : Nat) (before : List (List Nat)) : Bool :=
  80 * before.length < work && 80 * (Places.ofNeighbours before).rows.size < work

def ofSymmetric (S : Symmetric K) : Plan :=
  let graph := GroupGraph.ofNeighbours S.neighbours
  let order := graph.order S.length
  let before := tiesBefore S.neighbours order
  ⟨S.shape, order, before, blocksPay graph.work before⟩

/-- Whether a matrix of another shape has room: it may store no more entries on and below its diagonal than the whole
matrix that the plan was made for. -/
def holds (plan : Plan) (S : Symmetric K) : Bool :=
  S.length == plan.shape.length && lowerCount S.shape ≤ wholeCount plan.shape

/-- Where each unknown stands in the order of the plan. -/
def ranks (plan : Plan) : List Nat := (List.range plan.order.length).map plan.order.idxOf

/-- The solution of a system whose unknowns stand in the order of the plan already. -/
def solveOrdered (plan : Plan) (fits : Bool) (S : Symmetric K) (b : Vec K) : Result K (Vec K) :=
  if plan.inBlocks then solveInBlocks (Places.ofNeighbours plan.before) S b
  else if fits then
    match S.cholesky? with
    | some L => .ok (L.solve b)
    | none => .fail (.linear .singularMatrix)
  else solveInPlaces (Places.ofNeighbours plan.before) plan.ranks S b

def solve (plan : Plan) (S : Symmetric K) (b : Vec K) : Result K (Vec K) := do
  let fits := S.shape == plan.shape
  if !fits && !plan.holds S then .error .misshapen
  else
    let x ← plan.solveOrdered fits (S.reorder plan.order) (plan.order.map (b.getD · 0))
    return plan.ranks.map fun rank => x.getD rank 0

end Plan

end Elimination

end GraduatedFit

import GraduatedFit.Graph
import GraduatedFit.Sparse

/-!
The columns of the stacked Jacobian: one block per variable, in the order of the names.
-/

namespace GraduatedFit

/-- Variables with their dimensions, in the order of their columns. -/
structure Layout where
  blocks : List (String × Nat)

/-- The positions at which a Jacobian stores entries, in the order in which its entries are listed. -/
structure Pattern where
  height : Nat
  width : Nat
  positions : List (Nat × Nat)

namespace Layout

def order (layout : Layout) : List String := layout.blocks.map Prod.fst

def totalDof (layout : Layout) : Nat := layout.blocks.foldr (fun block total => block.2 + total) 0

def startIn (key : String) : List (String × Nat) → Option Nat
  | [] => none
  | block :: blocks => if block.1 = key then some 0 else (startIn key blocks).map (block.2 + ·)

/-- The first column of a variable. -/
def start? (layout : Layout) (key : String) : Option Nat := startIn key layout.blocks

end Layout

namespace Pattern

/-- The number of different positions. -/
def size (pattern : Pattern) : Nat := pattern.positions.eraseDups.length

/-- The matrix with the given values at the positions of the pattern, if there are as many. -/
def fill? {K : Type} [Scalar K] (pattern : Pattern) (values : List K) : Option (SparseMat K) :=
  if values.length = pattern.positions.length then
    some (SparseMat.ofEntries pattern.height pattern.width (List.zip pattern.positions values))
  else none

end Pattern

/-- A name put into an increasing list of names unless it is there. -/
def insertName (name : String) : List String → List String
  | [] => [name]
  | first :: rest =>
    if name < first then name :: first :: rest
    else if name = first then first :: rest
    else first :: insertName name rest

/-- Different names in increasing order. -/
def sortedNames (names : List String) : List String := names.foldr insertName []

namespace Graph

variable {K : Type}

def variableNames (graph : Graph K) : List String := sortedNames (graph.factors.flatMap (·.keys))

def layout (graph : Graph K) (values : Values K) : Result K Layout := do
  let blocks ← graph.variableNames.mapM fun key => do return (key, (← values.find key).length)
  return ⟨blocks⟩

/-- The positions of one dense block, row by row. -/
def blockPositions (rowStart rows colStart cols : Nat) : List (Nat × Nat) :=
  (List.range rows).flatMap fun i => (List.range cols).map fun j => (rowStart + i, colStart + j)

/-- The positions of the factors from a first row on: a block for each variable of each factor. -/
def positionsFrom (values : Values K) (layout : Layout) :
    Nat → List (GraphFactor K) → Result K (List (Nat × Nat))
  | _, [] => .ok []
  | row, f :: rest => do
    let rows := f.noise.dim
    let blocks ← f.keys.mapM fun key => do
      let start ← match layout.start? key with
        | some start => pure start
        | none => .failModel (.lookup (.outsideLayout key))
      return blockPositions row rows start (← values.find key).length
    return blocks.flatten ++ (← positionsFrom values layout (row + rows) rest)

def pattern (graph : Graph K) (values : Values K) (layout : Layout) : Result K Pattern := do
  let positions ← positionsFrom values layout 0 graph.factors
  let height := graph.residualDimension
  let width := layout.totalDof
  if positions.all fun (i, j) => i < height && j < width then return ⟨height, width, positions⟩
  else .failModel (.symbolicStructure .entryOutOfBounds)

variable [Scalar K]

/-- The entries of a dense Jacobian block by block of columns, each block row by row. -/
def blockEntries (rows : List (Vec K)) : List Nat → List K
  | [] => []
  | size :: sizes =>
    rows.flatMap (·.take size) ++ blockEntries (rows.map (·.drop size)) sizes

/-- The whitened residual of a factor, and its Jacobian in the order of the pattern. -/
def linearizeBlock (values : Values K) (f : GraphFactor K) : Result K (Vec K × List K) := do
  let (residual, jacobian) ← f.linearize values true
  let sizes ← f.keys.mapM fun key => do return (← values.find key).length
  return (residual, blockEntries ((jacobian.map Mat.rows).getD []) sizes)

/-- The whitened residuals in slot order. -/
def stackedResidual (graph : Graph K) (values : Values K) : Result K (Vec K) := do
  let blocks ← graph.factors.mapM (·.linearize values false)
  return (blocks.map Prod.fst).flatten

/-- The whitened residuals in slot order and the Jacobian of all of them. -/
def linearize (graph : Graph K) (values : Values K) (pattern : Pattern) :
    Result K (Vec K × SparseMat K) := do
  let blocks ← graph.factors.mapM (linearizeBlock values)
  let jacobian ← .ofShape (pattern.fill? (blocks.map Prod.snd).flatten)
  return ((blocks.map Prod.fst).flatten, jacobian)

end Graph

end GraduatedFit

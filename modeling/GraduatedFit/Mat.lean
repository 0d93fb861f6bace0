import GraduatedFit.Vec

/-!
Dense matrices as lists of rows of one length.
-/

namespace GraduatedFit

structure Mat (K : Type) where
  width : Nat
  rows : List (Vec K)
  regular : ∀ row ∈ rows, row.length = width

namespace Mat

variable {K : Type}

def height (A : Mat K) : Nat := A.rows.length

def isSquare (A : Mat K) : Bool := A.height == A.width

def ofRows? (width : Nat) (rows : List (Vec K)) : Option (Mat K) :=
  if regular : ∀ row ∈ rows, row.length = width then some ⟨width, rows, regular⟩ else none

/-- The consecutive blocks of a length, as many as are asked for. -/
def blocks (width : Nat) : Nat → List K → List (List K)
  | 0, _ => []
  | count + 1, entries => entries.take width :: blocks width count (entries.drop width)

/-- A matrix from its entries row by row. -/
def ofEntries? (height width : Nat) (entries : List K) : Option (Mat K) :=
  if entries.length = height * width then ofRows? width (blocks width height entries) else none

def ofFn (height width : Nat) (entry : Nat → Nat → K) : Mat K where
  width
  rows := (List.range height).map fun i => (List.range width).map (entry i)
  regular := by simp

def map (f : K → K) (A : Mat K) : Mat K where
  width := A.width
  rows := A.rows.map (List.map f)
  regular := by
    intro row member
    obtain ⟨source, present, rfl⟩ := List.mem_map.mp member
    simpa using A.regular source present

/-- Each row is changed by a function of its index that keeps the length. -/
def mapRows (f : Nat → K → K) (A : Mat K) : Mat K where
  width := A.width
  rows := A.rows.mapIdx fun i row => row.map (f i)
  regular := by
    intro row member
    obtain ⟨i, h, rfl⟩ := List.mem_mapIdx.mp member
    simpa using A.regular _ (List.getElem_mem h)

variable [Scalar K]

def get (A : Mat K) (i j : Nat) : K := (A.rows.getD i []).getD j 0

def column (A : Mat K) (j : Nat) : Vec K := A.rows.map (·.getD j 0)

def columns (A : Mat K) : List (Vec K) := (List.range A.width).map A.column

def transpose (A : Mat K) : Mat K where
  width := A.height
  rows := A.columns
  regular := by
    intro row member
    obtain ⟨j, _, rfl⟩ := List.mem_map.mp member
    simp [column, height]

def identity (n : Nat) : Mat K := ofFn n n fun i j => if i = j then 1 else 0

def mulVec? (A : Mat K) (x : Vec K) : Option (Vec K) :=
  if A.width = x.length then some (A.rows.map (Vec.dot · x)) else none

def mul? (A B : Mat K) : Option (Mat K) :=
  if A.width = B.height then
    some {
      width := B.width
      rows := A.rows.map fun row => B.columns.map (Vec.dot row)
      regular := by
        intro row member
        obtain ⟨_, _, rfl⟩ := List.mem_map.mp member
        simp [columns] }
  else none

def scale (c : K) (A : Mat K) : Mat K := A.map (· * c)

def agree (related : K → K → Bool) (A B : Mat K) : Bool :=
  A.height == B.height && A.width == B.width &&
    (List.zipWith (Vec.agree related) A.rows B.rows).all id

end Mat

end GraduatedFit

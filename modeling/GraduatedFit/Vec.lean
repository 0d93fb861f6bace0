import GraduatedFit.Scalar

/-!
Vectors as lists. Operations on two vectors have no result when the lengths differ.
-/

namespace GraduatedFit

abbrev Vec (K : Type) := List K

namespace Vec

variable {K : Type} [Scalar K]

def sum (xs : Vec K) : K := xs.foldl (· + ·) 0

def dot (a b : Vec K) : K := sum (List.zipWith (· * ·) a b)

def normSq (a : Vec K) : K := sum (a.map Scalar.square)

def norm (a : Vec K) : K := Scalar.sqrt (normSq a)

/-- The Euclidean norm, with the squares taken of large components scaled down and of small ones scaled up. -/
def safeNorm (a : Vec K) : K :=
  let small := Scalar.sqrt (Scalar.tiny : K)
  let large := 1 / small
  let scaled (c : K) : K := normSq (a.map (· * c))
  if Scalar.le 1 (scaled small) then Scalar.sqrt (scaled small) * large
  else if Scalar.le 1 (normSq a) then norm a
  else Scalar.sqrt (scaled large) * small

def zip? {α β γ : Type} (f : α → β → γ) (a : List α) (b : List β) : Option (List γ) :=
  if a.length = b.length then some (List.zipWith f a b) else none

def sub? (a b : Vec K) : Option (Vec K) := zip? (· - ·) a b

def div? (a b : Vec K) : Option (Vec K) := zip? (· / ·) a b

def scale (c : K) (a : Vec K) : Vec K := a.map (· * c)

/-- The same length, and the entries in each place related. -/
def agree (related : K → K → Bool) (a b : Vec K) : Bool :=
  a.length == b.length && (List.zipWith related a b).all id

end Vec

end GraduatedFit

/-!
The arithmetic that a fit needs, as operations only. Everything numeric is written once over `Scalar` with its
order of operations spelled out, so that one definition has a floating-point and an exact meaning.
-/

namespace GraduatedFit

/-- Comparisons answer `false` when an operand is not a number. -/
class Scalar (K : Type) extends Zero K, One K, Add K, Sub K, Mul K, Div K, Neg K, OfScientific K where
  sqrt : K → K
  log : K → K
  lt : K → K → Bool
  le : K → K → Bool
  eq : K → K → Bool
  finite : K → Bool
  /-- The distance from one to the next larger number. -/
  epsilon : K
  /-- The least positive number of full precision. -/
  tiny : K

namespace Scalar

variable {K : Type} [Scalar K]

def isNaN (x : K) : Bool := !eq x x

def abs (x : K) : K := if lt x 0 then -x else x

def square (x : K) : K := x * x

/-- The larger of two numbers; an operand that is not a number is passed over. -/
def max (a b : K) : K :=
  if isNaN a then b else if isNaN b then a else if lt a b then b else a

/-- The smaller of two numbers; an operand that is not a number is passed over. -/
def min (a b : K) : K :=
  if isNaN a then b else if isNaN b then a else if lt b a then b else a

def positive (x : K) : Bool := finite x && lt 0 x

def nonNegative (x : K) : Bool := finite x && le 0 x

/-- Equal, or at most `tolerance` apart. -/
def close (tolerance a b : K) : Bool := eq a b || le (abs (a - b)) tolerance

end Scalar

instance : Scalar Float where
  zero := 0.0
  one := 1.0
  sqrt := Float.sqrt
  log := Float.log
  lt a b := a < b
  le a b := a ≤ b
  eq a b := a == b
  finite := Float.isFinite
  epsilon := Float.ofBits 0x3CB0000000000000
  tiny := Float.ofBits 0x0010000000000000

end GraduatedFit

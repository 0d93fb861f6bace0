/-!
Floating-point numbers as decimal text, by exact arithmetic on the number that the bits stand for.
-/

namespace GraduatedFit

namespace Text

/-- A number read off its bits: a finite one is its mantissa times a power of two, up to sign. -/
inductive Decoded
  | notANumber
  | infinite (negative : Bool)
  | finite (negative : Bool) (mantissa : Nat) (exponent : Int)

def decode (x : Float) : Decoded :=
  let bits := x.toBits.toNat
  let negative := bits / Nat.pow 2 63 == 1
  let biased : Nat := bits / Nat.pow 2 52 % Nat.pow 2 11
  let fraction : Nat := bits % Nat.pow 2 52
  if biased = 2047 then
    if fraction = 0 then .infinite negative else .notANumber
  else if biased = 0 then .finite negative fraction (-1074)
  else .finite negative (Nat.pow 2 52 + fraction) (biased - 1075)

/-- A positive number as a quotient. -/
structure Ratio where
  num : Nat
  den : Nat

namespace Ratio

/-- The quotient times a power of a base. -/
def shift (base : Nat) (exponent : Int) (r : Ratio) : Ratio :=
  match exponent with
  | .ofNat n => ⟨r.num * base.pow n, r.den⟩
  | .negSucc n => ⟨r.num, r.den * base.pow (n + 1)⟩

def floor (r : Ratio) : Nat := r.num / r.den

/-- The nearest integer; a tie goes to the even one. -/
def round (r : Ratio) : Nat :=
  let q := r.num / r.den
  let twice := 2 * (r.num % r.den)
  if twice < r.den then q
  else if twice = r.den then q + q % 2
  else q + 1

def le (r s : Ratio) : Bool := r.num * s.den ≤ s.num * r.den

def lt (r s : Ratio) : Bool := r.num * s.den < s.num * r.den

def ofNat (n : Nat) : Ratio := ⟨n, 1⟩

/-- The exponent of the leading decimal digit. -/
def leadingExponent (r : Ratio) : Int :=
  let guess : Int := (Nat.toDigits 10 r.num).length - (Nat.toDigits 10 r.den).length
  if (ofNat 1).le (r.shift 10 (-guess)) then guess else guess - 1

end Ratio

/-- A positive decimal number: digits, the first one not zero, and the exponent of the first digit. -/
structure Decimal where
  digits : List Char
  exponent : Int

namespace Decimal

/-- A positive integer times a power of ten. -/
def ofScaled (n : Nat) (exponent : Int) : Decimal :=
  let digits := Nat.toDigits 10 n
  ⟨digits, exponent + (digits.length - 1)⟩

def trim (d : Decimal) : Decimal :=
  { d with digits := (d.digits.reverse.dropWhile (· == '0')).reverse }

end Decimal

/-- The decimal with the given number of digits after the first one that is nearest to a quotient. -/
def roundScientific (places : Nat) (r : Ratio) : Decimal :=
  let grid := r.leadingExponent - places
  .ofScaled (r.shift 10 (-grid)).round grid

/-- The numbers that round to a floating-point number: from half the gap below it to half the gap above it, with the
ends included if the mantissa is even. -/
structure Interval where
  lower : Ratio
  upper : Ratio
  closed : Bool

namespace Interval

def ofFinite (mantissa : Nat) (exponent : Int) : Interval :=
  let below := if mantissa = Nat.pow 2 52 && (-1074 : Int) < exponent then 4 * mantissa - 1 else 4 * mantissa - 2
  ⟨(Ratio.ofNat below).shift 2 (exponent - 2), (Ratio.ofNat (4 * mantissa + 2)).shift 2 (exponent - 2),
    mantissa % 2 == 0⟩

def contains (i : Interval) (r : Ratio) : Bool :=
  if i.closed then i.lower.le r && r.le i.upper else i.lower.lt r && r.lt i.upper

/-- The point of a decimal grid in the interval that is nearest to the value, if there is one. A tie goes up. -/
def gridPoint? (i : Interval) (value : Ratio) (grid : Int) : Option Decimal :=
  let low := (value.shift 10 (-grid)).floor
  let inside (n : Nat) : Bool := 0 < n && i.contains ((Ratio.ofNat n).shift 10 grid)
  let twice := (value.shift 10 (-grid)).shift 2 1
  let lowIsNearer := twice.lt (Ratio.ofNat (2 * low + 1))
  if inside low && (lowIsNearer || !inside (low + 1)) then some (.ofScaled low grid)
  else if inside (low + 1) then some (.ofScaled (low + 1) grid)
  else none

end Interval

/-- The fewest digits that read back, and of those the nearest. Seventeen digits always read back. -/
def shortest (mantissa : Nat) (exponent : Int) : Decimal :=
  let value := (Ratio.ofNat mantissa).shift 2 exponent
  let interval := Interval.ofFinite mantissa exponent
  let lead := value.leadingExponent
  let found := (List.range 17).findSome? fun (places : Nat) => interval.gridPoint? value (lead - places)
  (found.getD (roundScientific 16 value)).trim

def withSign (negative : Bool) (text : String) : String := if negative then "-" ++ text else text

/-- A number as text, where the text of a positive finite one is given. -/
def render (zero : String) (positive : Nat → Int → String) (x : Float) : String :=
  match decode x with
  | .notANumber => "NaN"
  | .infinite negative => withSign negative "inf"
  | .finite negative mantissa exponent =>
    withSign negative (if mantissa = 0 then zero else positive mantissa exponent)

/-- Digits with a point after the given number of them. -/
def pointed (whole : Nat) (digits : List Char) : String :=
  let fraction := digits.drop whole
  String.ofList (digits.take whole) ++ if fraction.isEmpty then "" else "." ++ String.ofList fraction

namespace Decimal

/-- One digit, a point if digits follow, and the exponent. -/
def scientific (d : Decimal) : String := pointed 1 d.digits ++ "e" ++ toString d.exponent

/-- All digits in their places, with zeros up to the point. -/
def positional (d : Decimal) : String :=
  match d.exponent with
  | .ofNat n => pointed (n + 1) (d.digits ++ List.replicate (n + 1 - d.digits.length) '0')
  | .negSucc n => pointed 1 (List.replicate (n + 1) '0' ++ d.digits)

end Decimal

/-- Shortest digits, never with an exponent. -/
def plain : Float → String := render "0" fun m e => (shortest m e).positional

/-- Shortest digits with an exponent. -/
def scientific : Float → String := render "0e0" fun m e => (shortest m e).scientific

/-- Shortest digits with at least one place; an exponent below `1e-4` and from `1e16` on. -/
def debug : Float → String :=
  render "0.0" fun m e =>
    let d := shortest m e
    if d.exponent < -4 || 16 ≤ d.exponent then d.scientific
    else
      let text := d.positional
      if text.contains '.' then text else text ++ ".0"

/-- The given number of places and an exponent; ties go to the even digit. -/
def scientificPlaces (places : Nat) : Float → String :=
  render (pointed 1 (List.replicate (places + 1) '0') ++ "e0") fun m e =>
    let d := roundScientific places ((Ratio.ofNat m).shift 2 e)
    { d with digits := d.digits.take (places + 1) }.scientific

/-- The given number of places; ties go to the even digit. -/
def fixedPlaces (places : Nat) : Float → String :=
  render (pointed 1 (List.replicate (places + 1) '0')) fun m e =>
    let n := (((Ratio.ofNat m).shift 2 e).shift 10 (places : Int)).round
    let digits := Nat.toDigits 10 n
    let digits := List.replicate (places + 1 - digits.length) '0' ++ digits
    pointed (digits.length - places) digits

/-- Texts in brackets. -/
def bracketed (items : List String) : String := "[" ++ ", ".intercalate items ++ "]"

def padLeft (width : Nat) (text : String) : String :=
  String.ofList (List.replicate (width - text.length) ' ') ++ text

def padRight (width : Nat) (text : String) : String :=
  text ++ String.ofList (List.replicate (width - text.length) ' ')

end Text

end GraduatedFit

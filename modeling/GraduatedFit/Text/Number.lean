/-!
Numbers read from text.
-/

namespace GraduatedFit

namespace Text

def isDigit (c : Char) : Bool := '0' ≤ c && c ≤ '9'

def digitsValue (digits : List Char) : Nat := digits.foldl (fun n c => 10 * n + (c.toNat - 48)) 0

def isNumeral (digits : List Char) : Bool := !digits.isEmpty && digits.all isDigit

/-- A count that fits a machine word: decimal digits after an optional plus sign. -/
def count? (text : String) : Option Nat :=
  let digits := match text.toList with
    | '+' :: rest => rest
    | digits => digits
  if isNumeral digits && digitsValue digits < Nat.pow 2 64 then some (digitsValue digits) else none

/-- A sign, if there is one, and what follows it. -/
def signed : List Char → Bool × List Char
  | '-' :: rest => (true, rest)
  | '+' :: rest => (false, rest)
  | cs => (false, cs)

/-- The exponent after a mantissa: zero if there is none. -/
def exponent? : List Char → Option Int
  | [] => some 0
  | mark :: rest =>
    if mark = 'e' || mark = 'E' then
      let (negative, digits) := signed rest
      if isNumeral digits then some (if negative then -(digitsValue digits) else digitsValue digits) else none
    else none

/-- The number of a mantissa and a power of ten. Beyond the range of numbers it is infinite or zero. -/
def scaled (mantissa : Nat) (exponent : Int) : Float :=
  let size : Int := (Nat.toDigits 10 mantissa).length + exponent
  if mantissa = 0 || size < -400 then 0.0
  else if 400 < size then 1.0 / 0.0
  else match exponent with
    | .ofNat n => Float.ofScientific mantissa false n
    | .negSucc n => Float.ofScientific mantissa true (n + 1)

def unsignedFloat? (cs : List Char) : Option Float :=
  let word := String.ofList (cs.map Char.toLower)
  if word = "inf" || word = "infinity" then some (1.0 / 0.0)
  else if word = "nan" then some (0.0 / 0.0)
  else
    let whole := cs.takeWhile isDigit
    let rest := cs.dropWhile isDigit
    let (fraction, rest) := match rest with
      | '.' :: after => (after.takeWhile isDigit, after.dropWhile isDigit)
      | rest => ([], rest)
    if whole.isEmpty && fraction.isEmpty then none
    else (exponent? rest).map fun e => scaled (digitsValue (whole ++ fraction)) (e - fraction.length)

/-- A decimal number with an optional sign, point and exponent, or the name of an infinity or of no number. -/
def float? (text : String) : Option Float :=
  let (negative, cs) := signed text.toList
  (unsignedFloat? cs).map fun x => if negative then -x else x

end Text

end GraduatedFit

/-!
Classes of characters by ranges of code points.
-/

namespace GraduatedFit

namespace Text

/-- The first and the last code point of each range. -/
abbrev CharClass := List (Nat × Nat)

def CharClass.has (ranges : CharClass) (c : Char) : Bool :=
  ranges.any fun (first, last) => first ≤ c.toNat && c.toNat ≤ last

end Text

end GraduatedFit

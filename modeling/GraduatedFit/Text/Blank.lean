import GraduatedFit.Text.Class

/-!
Blank characters.
-/

namespace GraduatedFit

namespace Text

/-- Spaces, tabulators and the ends of lines, paragraphs and pages. -/
def blank : CharClass := [
  (9, 13), (32, 32), (133, 133), (160, 160), (5760, 5760), (8192, 8202), (8232, 8233), (8239, 8239), (8287, 8287),
  (12288, 12288)]

def trim (cs : List Char) : List Char := ((cs.dropWhile blank.has).reverse.dropWhile blank.has).reverse

end Text

end GraduatedFit

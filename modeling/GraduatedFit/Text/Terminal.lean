/-!
Text for a terminal: characters that could steer it are written as escapes. Blanks and line ends stay.
-/

namespace GraduatedFit

namespace Text

def hexadecimal (n : Nat) : String := String.ofList (Nat.toDigits 16 n)

def tame (c : Char) : String :=
  let n := c.toNat
  if n = 0x07 || n = 0x08 || n = 0x0c then "\\x0" ++ hexadecimal n
  else if n = 0x1b || n = 0x7f then "\\x" ++ hexadecimal n
  else if 0x80 ≤ n && n ≤ 0x9f then "\\u\x7b" ++ hexadecimal n ++ "\x7d"
  else c.toString

def forTerminal (text : String) : String := String.join (text.toList.map tame)

end Text

end GraduatedFit

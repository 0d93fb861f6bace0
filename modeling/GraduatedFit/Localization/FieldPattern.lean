import GraduatedFit.Text.Alphanumeric
import GraduatedFit.Text.Blank

/-!
Regular expressions for the values of fields. A log line has no field with a value, so that all that counts is whether
a pattern can be used. Braces belong to the directives around a pattern: there is none that counts a repetition or
names a class of characters. Classes and letter cases are those of ASCII.
-/

namespace GraduatedFit

namespace Localization

namespace FieldPattern

/-- Why a pattern cannot be used. -/
inductive Fault
  | malformed
  | wordBoundary

def Fault.message : Fault → String
  | malformed => "error building NFA"
  | wordBoundary => "unsupported regex feature for DFAs: cannot build DFAs for regexes with Unicode word boundaries; " ++
      "switch to ASCII word boundaries, or heuristically enable Unicode word boundaries or use a different regex engine"

/-- How a part of a pattern is meant. -/
structure Modes where
  /-- A letter stands for both of its cases. -/
  caseless : Bool := false
  /-- Characters of all scripts are told apart, not bytes. -/
  unicode : Bool := true
  /-- Blanks and comments are passed over. -/
  spaced : Bool := false

def skipBlanks (inComment : Bool) : List Char → List Char
  | [] => []
  | c :: cs =>
    if inComment then skipBlanks (c != '\n') cs
    else if Text.blank.has c then skipBlanks false cs
    else if c = '#' then skipBlanks true cs
    else c :: cs

namespace Modes

def skip (modes : Modes) (cs : List Char) : List Char := if modes.spaced then skipBlanks false cs else cs

/-- What comes after the next blanks, as far as a hyphen needs to know. Of a comment only the mark is passed over. -/
def peek (modes : Modes) (cs : List Char) : Option Char :=
  if modes.spaced then
    match cs.dropWhile Text.blank.has with
    | '#' :: comment => (comment.dropWhile Text.blank.has).head? <|> cs.head?
    | c :: _ => some c
    | [] => cs.head?
  else cs.head?

/-- Whether a character can stand for itself. As a byte it has to be ASCII. -/
def admits (modes : Modes) (c : Char) (asByte : Bool) : Bool :=
  if modes.unicode then !modes.caseless else !asByte || c.toNat < 128

/-- Whether a character can be one of a set. -/
def admitsMember (modes : Modes) (c : Char) : Bool := modes.admits c true

/-- Whether a set can have a named class of characters, or all but those, among its members. -/
def admitsClass (modes : Modes) (negated : Bool) : Bool := if modes.unicode then !modes.caseless else !negated

/-- The modes after letters that switch some on and, after a hyphen, some off. -/
def switch (letters : List Char) (modes : Modes) : Modes :=
  let on := letters.takeWhile (· != '-')
  let mode (letter : Char) (old : Bool) : Bool := if letters.contains letter then on.contains letter else old
  ⟨mode 'i' modes.caseless, mode 'u' modes.unicode, mode 'x' modes.spaced⟩

/-- Whether each letter is one of a mode and stands once, with a hyphen before some of them at most. -/
def areLetters (letters : List Char) : Bool :=
  letters.all ['i', 'm', 's', 'U', 'u', 'R', 'x', '-'].contains && letters.eraseDups.length = letters.length &&
    letters.getLast? != some '-'

end Modes

/-- What stands after a backslash: a character, perhaps by the number of its byte, a class of characters, or a place
between characters, perhaps one where a word begins or ends. -/
inductive Escape
  | char (c : Char) (asByte : Bool)
  | characters
  | place (ofWord : Bool)

def hexDigit? (c : Char) : Option Nat :=
  if '0' ≤ c && c ≤ '9' then some (c.toNat - 48)
  else if 'a' ≤ c.toLower && c.toLower ≤ 'f' then some (c.toLower.toNat - 87)
  else none

def hexNumber? (modes : Modes) : Nat → Nat → List Char → Option (Nat × List Char)
  | 0, n, cs => some (n, cs)
  | digits + 1, n, cs =>
    match modes.skip cs with
    | [] => none
    | c :: rest => (hexDigit? c).bind fun digit => hexNumber? modes digits (16 * n + digit) rest

def hexChar? (modes : Modes) (digits : Nat) (cs : List Char) : Option (Escape × List Char) := do
  let (n, rest) ← hexNumber? modes digits 0 cs
  if n.isValidChar then some (.char (Char.ofNat n) (digits = 2), rest) else none

/-- The letters that stand for control characters. -/
def controls : List (Char × Char) :=
  [('a', '\x07'), ('f', '\x0c'), ('n', '\n'), ('r', '\r'), ('t', '\t'), ('v', '\x0b')]

def escape? (modes : Modes) : List Char → Option (Escape × List Char)
  | [] => none
  | c :: cs =>
    if c = 'x' then hexChar? modes 2 cs
    else if c = 'u' then hexChar? modes 4 cs
    else if c = 'U' then hexChar? modes 8 cs
    else if ['d', 's', 'w'].contains c then if modes.unicode then none else some (.characters, cs)
    else if ['b', 'B', '<', '>'].contains c then some (.place true, cs)
    else if ['A', 'z'].contains c then some (.place false, cs)
    else if let some d := controls.lookup c then some (.char d false, cs)
    else if c.toNat < 128 && !c.isAlphanum then some (.char c false, cs)
    else none

/-- A part of a sequence. -/
structure Item where
  depth : Nat
  /-- Whether there can be a repetition of it. -/
  repeatable : Bool

/-- What is nested in a sequence or a choice of parts as deep as given; a single part adds nothing. -/
def nest : List Nat → Nat
  | [] => 0
  | [depth] => depth
  | depths => 1 + depths.foldl max 0

/-- A group that was left open, or the whole pattern: the last parts of the sequence in work come first. -/
structure Scope where
  modes : Modes := {}
  items : List Item := []
  branches : List Nat := []

namespace Scope

def add (depth : Nat) (scope : Scope) : Scope := { scope with items := ⟨depth, true⟩ :: scope.items }

/-- The modes change from here on. -/
def switch (letters : List Char) (scope : Scope) : Scope :=
  { scope with modes := scope.modes.switch letters, items := ⟨0, false⟩ :: scope.items }

def sequenceDepth (scope : Scope) : Nat := nest (scope.items.map Item.depth)

def depth (scope : Scope) : Nat := nest (scope.sequenceDepth :: scope.branches)

def branch (scope : Scope) : Scope := { scope with items := [], branches := scope.sequenceDepth :: scope.branches }

def repeated? (scope : Scope) : Option Scope :=
  match scope.items with
  | ⟨depth, true⟩ :: items => some { scope with items := ⟨depth + 1, true⟩ :: items }
  | _ => none

end Scope

/-- A set of characters that was left open, with the set before an operator. -/
structure Brackets where
  members : List Nat := []
  left : Option Nat := none

def Brackets.depth (brackets : Brackets) : Nat := nest (nest brackets.members :: brackets.left.toList)

def Brackets.add (depth : Nat) (brackets : Brackets) : Brackets :=
  { brackets with members := depth :: brackets.members }

/-- What is read so far: the group in work, those around it, the sets left open, the innermost first, the names of
groups, and whether a word boundary was asked for. -/
structure Reader where
  rest : List Char
  scope : Scope := {}
  outer : List Scope := []
  sets : List Brackets := []
  names : List (List Char) := []
  atWord : Bool := false

namespace Reader

def modes (r : Reader) : Modes := r.scope.modes

def item (depth : Nat) (rest : List Char) (r : Reader) : Reader := { r with rest, scope := r.scope.add depth }

def openGroup (modes : Modes) (rest : List Char) (r : Reader) : Reader :=
  { r with rest, scope := { modes }, outer := r.scope :: r.outer }

def closeGroup (rest : List Char) (r : Reader) : Option Reader :=
  match r.outer with
  | [] => none
  | scope :: outer => some { r with rest, scope := scope.add (1 + r.scope.depth), outer }

def isName (name : List Char) : Bool :=
  match name with
  | [] => false
  | c :: cs => (c = '_' || Text.isLetter c) &&
      cs.all fun c => ['_', '.', '[', ']'].contains c || Text.alphanumeric.has c

/-- After the beginning of a group with a name. -/
def named (cs : List Char) (r : Reader) : Option Reader :=
  let name := cs.takeWhile (· != '>')
  match cs.dropWhile (· != '>') with
  | _ :: rest =>
    if isName name && !r.names.contains name then
      some { r.openGroup r.modes rest with names := name :: r.names }
    else none
  | [] => none

/-- After the beginning of a group that changes modes, or of a change without a group. -/
def switching (cs : List Char) (r : Reader) : Option Reader :=
  let isEnd (c : Char) : Bool := c = ':' || c = ')'
  let letters := cs.takeWhile (!isEnd ·)
  if !Modes.areLetters letters then none
  else match cs.dropWhile (!isEnd ·) with
    | ':' :: rest => some (r.openGroup (r.modes.switch letters) rest)
    | ')' :: rest => if letters.isEmpty then none else some { r with rest, scope := r.scope.switch letters }
    | _ => none

/-- After an opening parenthesis. -/
def group (cs : List Char) (r : Reader) : Option Reader :=
  match r.modes.skip cs with
  | '?' :: 'P' :: '<' :: rest => r.named rest
  | '?' :: '<' :: rest => r.named rest
  | '?' :: rest => r.switching rest
  | rest => some (r.openGroup r.modes rest)

/-- The hyphens at the beginning of a set are members of it. -/
def hyphens (modes : Modes) : Nat → List Char → Nat × List Char
  | steps + 1, '-' :: cs =>
    let (count, rest) := hyphens modes steps (modes.skip cs)
    (count + 1, rest)
  | _, cs => (0, cs)

/-- After an opening bracket. A closing one in the first place is a member. -/
def openSet (cs : List Char) (r : Reader) : Option Reader :=
  let cs := r.modes.skip cs
  let negated := cs.head? == some '^'
  let cs := if negated then r.modes.skip cs.tail else cs
  let (count, rest) := match hyphens r.modes cs.length cs with
    | (0, ']' :: rest) => (1, rest)
    | hyphens => hyphens
  if (negated && !r.modes.unicode) || (0 < count && !r.modes.admitsMember '-') then none
  else some { r with rest, sets := ⟨List.replicate count 0, none⟩ :: r.sets }

def closeSet (rest : List Char) (r : Reader) : Option Reader :=
  match r.sets with
  | [] => none
  | [set] => some { r.item (1 + set.depth) rest with sets := [] }
  | set :: outer :: sets => some { r with rest, sets := outer.add (1 + set.depth) :: sets }

def addMember (rest : List Char) (r : Reader) : Option Reader :=
  match r.sets with
  | [] => none
  | set :: sets => some { r with rest, sets := set.add 0 :: sets }

/-- What came before becomes the left side of an operator. -/
def operator (rest : List Char) (r : Reader) : Option Reader :=
  match r.sets with
  | [] => none
  | set :: sets => some { r with rest, sets := ⟨[], some set.depth⟩ :: sets }

/-- A class with a name between colons, if there is one after an opening bracket, and whether it is negated. -/
def className? (cs : List Char) : Option (Bool × List Char) :=
  match cs with
  | ':' :: cs =>
    let negated := cs.head? == some '^'
    let cs := if negated then cs.tail else cs
    let name := String.ofList (cs.takeWhile (· != ':'))
    match cs.dropWhile (· != ':') with
    | ':' :: ']' :: rest =>
      if ["alnum", "alpha", "ascii", "blank", "cntrl", "digit", "graph", "lower", "print", "punct", "space", "upper",
        "word", "xdigit"].contains name then some (negated, rest) else none
    | _ => none
  | _ => none

/-- A member of a set: a character, or none for a class. -/
def member? (modes : Modes) : List Char → Option (Option Char × List Char)
  | [] => none
  | '\\' :: cs =>
    match escape? modes cs with
    | some (.char c _, rest) => some (some c, rest)
    | some (.characters, rest) => some (none, rest)
    | _ => none
  | c :: cs => some (some c, cs)

/-- A member of a set, or all those from one to another. -/
def range (cs : List Char) (r : Reader) : Option Reader := do
  let (first, rest) ← member? r.modes cs
  if !first.all r.modes.admitsMember then none
  else match r.modes.skip rest with
    | '-' :: after =>
      let next := r.modes.peek after
      if next == some ']' || next == some '-' then r.addMember ('-' :: after)
      else
        let (last, rest) ← member? r.modes (r.modes.skip after)
        match first, last with
        | some c, some d => if c ≤ d && r.modes.admitsMember d then r.addMember rest else none
        | _, _ => none
    | rest => r.addMember rest

def stepInSet (r : Reader) : Option Reader :=
  match r.rest with
  | '[' :: rest =>
    match className? rest with
    | some (negated, rest) => if r.modes.admitsClass negated then r.addMember rest else none
    | none => r.openSet rest
  | ']' :: rest => r.closeSet rest
  | '&' :: '&' :: rest => r.operator rest
  | '-' :: '-' :: rest => r.operator rest
  | '~' :: '~' :: rest => r.operator rest
  | rest => r.range rest

/-- After a sign of repetition. A question mark more asks for as little as possible. -/
def repetition (cs : List Char) (r : Reader) : Option Reader := do
  let scope ← r.scope.repeated?
  return { r with scope, rest := if cs.head? == some '?' then cs.tail else cs }

def stepInSequence (r : Reader) : Option Reader :=
  match r.rest with
  | '(' :: rest => r.group rest
  | ')' :: rest => r.closeGroup rest
  | '|' :: rest => some { r with rest, scope := r.scope.branch }
  | '[' :: rest => r.openSet rest
  | '*' :: rest => r.repetition rest
  | '+' :: rest => r.repetition rest
  | '?' :: rest => r.repetition rest
  | '\x7b' :: _ => none
  | '.' :: rest => if r.modes.unicode then some (r.item 0 rest) else none
  | '^' :: rest => some (r.item 0 rest)
  | '$' :: rest => some (r.item 0 rest)
  | '\\' :: rest =>
    match escape? r.modes rest with
    | some (.char c asByte, rest) => if r.modes.admits c asByte then some (r.item 0 rest) else none
    | some (.characters, rest) => some (r.item 0 rest)
    | some (.place ofWord, rest) =>
      some { r.item 0 rest with atWord := r.atWord || (ofWord && r.modes.unicode) }
    | none => none
  | c :: rest => if r.modes.admits c false then some (r.item 0 rest) else none
  | [] => some r

def step (r : Reader) : Option Reader := if r.sets.isEmpty then r.stepInSequence else r.stepInSet

/-- Every step reads a character at least. -/
def run : Nat → Reader → Option Reader
  | 0, r => some r
  | steps + 1, r =>
    let r := { r with rest := r.modes.skip r.rest }
    if r.rest.isEmpty then some r else r.step.bind (run steps)

/-- Nothing is left open, and nothing lies too deep. -/
def isComplete (r : Reader) : Bool := r.sets.isEmpty && r.outer.isEmpty && r.scope.depth ≤ 250

end Reader

def fault? (pattern : List Char) : Option Fault :=
  match Reader.run (pattern.length + 1) { rest := pattern } with
  | none => some .malformed
  | some r => if !r.isComplete then some .malformed else if r.atWord then some .wordBoundary else none

end FieldPattern

end Localization

end GraduatedFit

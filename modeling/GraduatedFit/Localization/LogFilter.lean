import GraduatedFit.Localization.FieldPattern
import GraduatedFit.Log
import GraduatedFit.Text.Alphanumeric
import GraduatedFit.Text.Blank
import GraduatedFit.Text.Number

/-!
Which log lines are written: directives that give a level for everything, for the targets with a given beginning, or
for the events inside of spans or with fields.
-/

namespace GraduatedFit

namespace Localization

/-- A field an event has to have, and whether a value is asked of it. -/
structure FieldTest where
  name : String
  valued : Bool

/-- Lines up to a rank are written if their target begins in the given way, inside of a span if one is named. -/
structure Directive where
  target : Option String := none
  span : Option String := none
  field : Option FieldTest := none
  rank : Nat

/-- Why a directive is ignored. -/
inductive DirectiveFault
  | form
  | level
  | pattern (fault : FieldPattern.Fault)

def DirectiveFault.message : DirectiveFault → String
  | form => "invalid filter directive"
  | level => "error parsing level filter: expected one of \"off\", \"error\", \"warn\", \"info\", \"debug\", " ++
      "\"trace\", or a number 0-5"
  | pattern fault => "invalid field filter: " ++ fault.message

namespace Directive

/-- A level by its name or its number. -/
def rank? (cs : List Char) : Option Nat :=
  (Text.count? (String.ofList cs)).filter (· ≤ 5) <|>
    ["off", "error", "warn", "info", "debug", "trace"].idxOf? (String.ofList (cs.map Char.toLower))

/-- A level as it follows an equals sign: everything is written where it is left out. -/
def level (cs : List Char) : Except DirectiveFault Nat :=
  if cs.isEmpty then .ok 5
  else match rank? cs with
    | some rank => .ok rank
    | none => .error .level

/-- What begins after so many bytes. -/
def afterBytes : Nat → List Char → List Char
  | 0, cs => cs
  | _, [] => []
  | n + 1, c :: cs => afterBytes (n + 1 - c.utf8Size) cs

/-- What ends before so many bytes. -/
def untilBytes : Nat → List Char → List Char
  | 0, _ => []
  | _, [] => []
  | n + 1, c :: cs => c :: untilBytes (n + 1 - c.utf8Size) cs

/-- The characters of a directive, and the same without blanks around them. Positions are looked for in the trimmed
text, and text is cut out of the whole after as many bytes. -/
structure Source where
  whole : List Char
  trimmed : List Char

namespace Source

def bytesBefore (s : Source) (position : Nat) : Nat :=
  (s.trimmed.take position).foldl (fun sum c => sum + c.utf8Size) 0

def sliceFrom (s : Source) (first : Nat) : List Char := afterBytes (s.bytesBefore first) s.whole

def slice (s : Source) (first last : Nat) : List Char :=
  untilBytes (s.bytesBefore last - s.bytesBefore first) (s.sliceFrom first)

/-- Where one of the given characters stands first, from a position on, and which one it is. -/
def next? (s : Source) (start : Nat) (stops : List Char) : Option (Nat × Char) :=
  let rest := s.trimmed.drop start
  match rest.findIdx? stops.contains with
  | some k => (rest[k]?).map fun c => (start + k, c)
  | none => none

/-- What follows the brackets: nothing, or a level. -/
def close (s : Source) (position : Nat) (directive : Directive) : Except DirectiveFault Directive :=
  match s.trimmed.drop position with
  | [] => .ok directive
  | '=' :: _ => return { directive with rank := ← level (s.sliceFrom (position + 1)) }
  | _ => .error .form

/-- A name, and perhaps a value after an equals sign: a truth value, a number, or a pattern. -/
def fieldTest (cs : List Char) : Except DirectiveFault FieldTest :=
  let name := String.ofList (cs.takeWhile (· != '='))
  match cs.dropWhile (· != '=') with
  | [] => .ok ⟨name, false⟩
  | _ :: rest =>
    let value := rest.takeWhile (· != '=')
    let text := String.ofList value
    if text = "true" || text = "false" || (Text.float? text).isSome then .ok ⟨name, true⟩
    else match FieldPattern.fault? value with
      | none => .ok ⟨name, true⟩
      | some fault => .error (.pattern fault)

/-- The part after an opening brace. -/
def field (s : Source) (first : Nat) (directive : Directive) : Except DirectiveFault Directive :=
  match s.next? first ['\x7d'] with
  | none => .error .form
  | some (last, _) =>
    let text := s.slice first last
    if text.isEmpty then .error .form
    else do
      let test ← fieldTest text
      match s.trimmed.drop (last + 1) with
      | ']' :: _ => s.close (last + 2) { directive with field := some test }
      | _ => .error .form

/-- The part after an opening bracket. -/
def span (s : Source) (first : Nat) (directive : Directive) : Except DirectiveFault Directive :=
  match s.next? first [']', '\x7b'] with
  | none => .error .form
  | some (last, c) =>
    let name := String.ofList (s.slice first last)
    if c = ']' then s.close (last + 1) { directive with span := some name }
    else s.field (last + 1) { directive with span := if name.isEmpty then none else some name }

def read (s : Source) : Except DirectiveFault Directive :=
  match s.trimmed with
  | [] => .error .form
  | '[' :: _ => s.span 1 { rank := 5 }
  | c :: _ =>
    if !(Text.alphanumeric.has c || ['-', ':', '_'].contains c) then .error .form
    else match s.next? 0 ['=', '['] with
      | none =>
        match rank? s.whole with
        | some rank => .ok { rank }
        | none => .ok { target := some (String.ofList s.whole), rank := 5 }
      | some (last, c) =>
        let target := some (String.ofList (s.slice 0 last))
        if c = '=' then return { target, rank := ← level (s.sliceFrom (last + 1)) }
        else s.span (last + 1) { target, rank := 5 }

end Source

def parse (text : String) : Except DirectiveFault Directive :=
  Source.read ⟨text.toList, Text.trim text.toList⟩

/-- A directive that names a span or asks for a value says nothing of a line outside of spans. -/
def isPlain (directive : Directive) : Bool := directive.span.isNone && !directive.field.any (·.valued)

/-- Whether the directive is about a line. The one field of a line is its message. -/
def concerns (directive : Directive) (target : String) : Bool :=
  directive.isPlain && (directive.target.all fun start => target.startsWith start) &&
    directive.field.all (·.name == "message")

/-- How much a directive demands: a long target first, then a field. -/
def demands (directive : Directive) : Nat × Nat :=
  (directive.target.elim 0 (·.length + 1), if directive.field.isSome then 1 else 0)

end Directive

structure LogFilter where
  directives : List Directive
  /-- What was not understood. -/
  complaints : List String

namespace LogFilter

/-- The directives of a list with commas. The given level is in force if there is none. -/
def parse (level : Level) (text : String) : LogFilter :=
  let items := (text.splitOn ",").filter (· != "")
  let directives := items.filterMap fun item => (Directive.parse item).toOption
  let complaints := items.filterMap fun item =>
    match Directive.parse item with
    | .ok _ => none
    | .error fault => some ("ignoring `" ++ item ++ "`: " ++ fault.message ++ "\n")
  ⟨if directives.isEmpty then [{ rank := level.rank }] else directives, complaints⟩

/-- The most demanding of the directives about a target; of two that demand the same the later one counts. -/
def directiveFor (filter : LogFilter) (target : String) : Option Directive :=
  (filter.directives.filter (·.concerns target)).foldl (fun best directive =>
    match best with
    | none => some directive
    | some other =>
      let (length, fields) := directive.demands
      let (length', fields') := other.demands
      if length < length' || (length == length' && fields < fields') then best else some directive) none

def admits (filter : LogFilter) (line : LogLine) : Bool :=
  (filter.directiveFor line.target).any fun directive => line.level.rank ≤ directive.rank

end LogFilter

end Localization

end GraduatedFit

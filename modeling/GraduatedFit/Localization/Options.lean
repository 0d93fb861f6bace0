import GraduatedFit.Text.Number

/-!
The options of the localization program, and how they are read from the words of a command line.
-/

namespace GraduatedFit

namespace Localization

structure Options where
  inliers : Nat
  outliers : Nat
  loss : String
  base : String
  noise : Float
  outlierScale : Float
  inlierThreshold : Float
  maxIterations : Nat
  verbose : Bool

namespace Options

def standard : Options where
  inliers := 12
  outliers := 6
  loss := "all"
  base := "gn"
  noise := 0.05
  outlierScale := 5.0
  inlierThreshold := 4.5
  maxIterations := 100
  verbose := false

/-- The number of beacons, as a machine word counts it. -/
def beacons (options : Options) : Nat := (options.inliers + options.outliers) % Nat.pow 2 64

/-- An option with a value has a reader for it, which fails on a text that is no such value. -/
inductive Kind
  | value (read : String → Options → Option Options)
  | switch (set : Options → Options)
  | help

structure Spec where
  long : String
  short : Option Char
  kind : Kind

def countOption (long : String) (short : Option Char) (set : Nat → Options → Options) : Spec :=
  ⟨long, short, .value fun text o => (Text.count? text).map (set · o)⟩

def floatOption (long : String) (set : Float → Options → Options) : Spec :=
  ⟨long, none, .value fun text o => (Text.float? text).map (set · o)⟩

def textOption (long : String) (short : Option Char) (set : String → Options → Options) : Spec :=
  ⟨long, short, .value fun text o => some (set text o)⟩

def specs : List Spec := [
  countOption "inliers" 'i' fun n o => { o with inliers := n },
  countOption "outliers" 'o' fun n o => { o with outliers := n },
  textOption "loss" 'l' fun text o => { o with loss := text },
  textOption "base" 'b' fun text o => { o with base := text },
  floatOption "noise" fun x o => { o with noise := x },
  floatOption "outlier-scale" fun x o => { o with outlierScale := x },
  floatOption "inlier-threshold" fun x o => { o with inlierThreshold := x },
  countOption "max-iterations" 'm' fun n o => { o with maxIterations := n },
  ⟨"verbose", 'v', .switch fun o => { o with verbose := true }⟩,
  ⟨"help", 'h', .help⟩]

/-- What a command line asks for. -/
inductive Request
  | run (options : Options)
  | help
  | misuse

/-- A part of a command line: an option by its name with a value given in the same word, or anything else. -/
inductive Token
  | option (spec : Spec) (attached : Option String)
  | unknown

def ofLong (name : List Char) : Token :=
  let key := String.ofList (name.takeWhile (· != '='))
  let attached := match name.dropWhile (· != '=') with
    | '=' :: value => some (String.ofList value)
    | _ => none
  match specs.find? (·.long == key) with
  | some spec => .option spec attached
  | none => .unknown

/-- The tokens of a cluster of short options. The first option that takes a value takes the rest for it. -/
def ofShort : List Char → List Token
  | [] => []
  | c :: rest =>
    match specs.find? (·.short == some c) with
    | none => [.unknown]
    | some spec =>
      match spec.kind with
      | .value _ =>
        let attached := match rest with
          | [] => none
          | '=' :: value => some (String.ofList value)
          | value => some (String.ofList value)
        [.option spec attached]
      | _ => .option spec none :: ofShort rest

/-- A word that cannot be the value of an option before it. -/
def looksLikeOption (word : String) : Bool :=
  match word.toList with
  | '-' :: _ :: _ => true
  | _ => false

def tokens (word : String) : List Token :=
  match word.toList with
  | '-' :: '-' :: name => [ofLong name]
  | '-' :: c :: cluster => ofShort (c :: cluster)
  | _ => [.unknown]

/-- The options read so far and the names of those that were given. -/
structure Progress where
  options : Options
  given : List String

def Progress.give (p : Progress) (spec : Spec) (options : Options) : Progress :=
  ⟨options, spec.long :: p.given⟩

/-- How reading goes on after a token: it ends the reading, takes the next word for a value, or neither. -/
inductive Next
  | stop (request : Request)
  | await (progress : Progress) (spec : Spec) (read : String → Options → Option Options)
  | go (progress : Progress)

def readValue (p : Progress) (spec : Spec) (read : String → Options → Option Options) (text : String) : Next :=
  match read text p.options with
  | some options => .go (p.give spec options)
  | none => .stop .misuse

/-- No option may be given twice. -/
def readToken (p : Progress) : Token → Next
  | .unknown => .stop .misuse
  | .option spec attached =>
    match spec.kind, attached with
    | .help, none => .stop .help
    | .help, some _ => .stop .misuse
    | .switch set, none => if p.given.contains spec.long then .stop .misuse else .go (p.give spec (set p.options))
    | .switch _, some _ => .stop .misuse
    | .value read, some text =>
      if p.given.contains spec.long then .stop .misuse else readValue p spec read text
    | .value read, none => if p.given.contains spec.long then .stop .misuse else .await p spec read

/-- The tokens of one word; only the last one can await a value. -/
def readTokens (p : Progress) : List Token → Next
  | [] => .go p
  | token :: rest =>
    match readToken p token with
    | .go p => readTokens p rest
    | next => next

/-- After a bare double dash nothing may follow. -/
def readWords (p : Progress) : List String → Request
  | [] => .run p.options
  | ["--"] => .run p.options
  | "--" :: _ => .misuse
  | word :: rest =>
    match readTokens p (tokens word) with
    | .stop request => request
    | .go p => readWords p rest
    | .await p spec read =>
      match rest with
      | [] => .misuse
      | text :: rest =>
        if looksLikeOption text then .misuse
        else match readValue p spec read text with
          | .go p => readWords p rest
          | _ => .misuse

def parse (words : List String) : Request := readWords ⟨standard, []⟩ words

end Options

end Localization

end GraduatedFit

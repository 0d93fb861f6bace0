import GraduatedFit.Error.Message

/-!
Log lines: a level, the part of the program that speaks, and a text.
-/

namespace GraduatedFit

inductive Level
  | error
  | warn
  | info
  | debug
  | trace
  deriving DecidableEq, Repr

namespace Level

/-- Larger for less severe levels. -/
def rank : Level → Nat
  | error => 1
  | warn => 2
  | info => 3
  | debug => 4
  | trace => 5

def label : Level → String
  | error => "ERROR"
  | warn => "WARN"
  | info => "INFO"
  | debug => "DEBUG"
  | trace => "TRACE"

def ofLabel? (label : String) : Option Level := [error, warn, info, debug, trace].find? (·.label == label)

end Level

structure LogLine where
  level : Level
  target : String
  text : String

/-- The names under which the parts of the program speak. -/
inductive Speaker
  | model
  | factors
  | linear
  | solvers
  | gaussNewton
  | levenbergMarquardt
  | continuation
  | configuration
  | observers
  | progress
  | program

def Speaker.target : Speaker → String
  | model => "gnc_solver::core"
  | factors => "gnc_solver::factors"
  | linear => "gnc_solver::linalg"
  | solvers => "gnc_solver::optimizer"
  | gaussNewton => "gnc_solver::optimizer::gauss_newton"
  | levenbergMarquardt => "gnc_solver::optimizer::levenberg_marquardt"
  | continuation => "gnc_solver::optimizer::gnc"
  | configuration => "gnc_solver::optimizer::gnc::config"
  | observers => "gnc_solver::observers"
  | progress => "gnc_solver::observers::logging"
  | program => "gnc_outlier_rejection"

def Speaker.line (speaker : Speaker) (level : Level) (text : String) : LogLine := ⟨level, speaker.target, text⟩

def Error.speaker : Error Float → Speaker
  | model _ => .model
  | factor _ => .factors
  | solve _ => .solvers
  | linear _ => .linear
  | observer _ => .observers
  | continuation _ => .continuation

/-- Every error is logged once, when it is made. -/
def Failure.lines (failure : Failure Float) : List LogLine :=
  failure.errors.map fun error => error.speaker.line .error error.message

def Result.lines {α : Type} : Result Float α → List LogLine
  | .ok _ => []
  | .error failure => failure.lines

end GraduatedFit

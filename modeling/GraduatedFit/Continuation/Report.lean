import GraduatedFit.Continuation.Optimizer
import GraduatedFit.LeastSquares.Report

/-!
Texts about continuations: names, configurations, and the log lines of events.
-/

namespace GraduatedFit

namespace Continuation

open Text

def Family.title : Family → String
  | gemanMcClure => "Geman-McClure"
  | truncatedLeastSquares => "Truncated Least Squares"

def Verbosity.title : Verbosity → String
  | silent => "silent"
  | summary => "summary"
  | values => "values"

def Outcome.message : Outcome → String
  | converged => "Converged"
  | maxIterationsReached => "Maximum iterations reached"

namespace Config

def block (config : Config Float) : String :=
  "\nConfiguration:\n  Solver:              Graduated Non-Convexity" ++
  s!"\n  Loss type:           {config.family.title}" ++
  s!"\n  Inlier threshold:    {scientificPlaces 4 config.threshold}" ++
  s!"\n  Mu step:             {fixedPlaces 3 config.muStep}" ++
  s!"\n  Max iterations:      {config.maxIterations}" ++
  s!"\n  Relative cost tol:   {scientificPlaces 2 config.costTolerance}" ++
  s!"\n  Weights tol:         {scientificPlaces 2 config.weightsTolerance}" ++
  s!"\n  Known inliers:       {bracketed (config.knownInliers.map toString)}" ++
  s!"\n  Verbosity:           {config.verbosity.title}" ++
  s!"\n  Base optimizer:      {config.base.text}"

def configurationLine (config : Config Float) : LogLine := Speaker.configuration.line .debug config.block

/-- The warning that goes with a change of the iteration limit. -/
def limitLine (maxIterations : Nat) : LogLine :=
  Speaker.configuration.line .warn <|
    s!"GNC max iterations set to {maxIterations}: changing it may lead to less accurate solutions"

end Config

def weightsText (weights : Vec Float) : String := bracketed (weights.map (fixedPlaces 4))

def Iteration.lines (i : Iteration Float) : List LogLine :=
  Speaker.progress.line .info (s!"GNC iter {padLeft 3 (toString i.iteration)}: mu = " ++
    s!"{scientificPlaces 6 i.mu}, cost = {scientificPlaces 6 i.cost}, weights = {weightsText i.weights}") ::
  i.values.entries.map fun (key, value) =>
    Speaker.progress.line .debug s!"  {key} = {bracketed (value.map debug)}"

/-- The lines of an event for listeners who see as much as the verbosity admits. -/
def progressLines (verbosity : Verbosity) : Event Float → List LogLine
  | .started mu cost =>
    if verbosity = .silent then []
    else [Speaker.progress.line .info <|
      s!"GNC start: mu = {scientificPlaces 6 mu}, initial cost = {scientificPlaces 6 cost}"]
  | .iterated i => if verbosity = .values then i.lines else []
  | .finished outcome iterations weights =>
    if verbosity = .silent then []
    else
      Speaker.progress.line .info (s!"GNC finished: {outcome.message} after {iterations} iterations, " ++
        s!"{(inlierSlots weights).length}/{weights.length} factors kept as inliers") ::
      if verbosity = .values then
        [Speaker.progress.line .info s!"GNC final weights: {weightsText weights}"]
      else []
  | _ => []

/-- The lines of an event that do not depend on the verbosity. -/
def noteLines : Event Float → List LogLine
  | .configured config => [config.configurationLine]
  | .stripped => [note "replacing robust noise models by their base models"]
  | .allKnown => [note "every factor is a known inlier, nothing to reweight"]
  | .allInside mu => [note s!"mu0 = {scientificPlaces 6 mu} <= 0, all factors already inside the inlier region"]
  | .solving method => method.openingLines
  | .weightsSaturated iteration => [note s!"weights saturated at iteration {iteration}"]
  | .muConverged iteration mu =>
    [note s!"mu converged at iteration {iteration} (mu = {scientificPlaces 6 mu})"]
  | _ => []
where
  note (text : String) : LogLine := Speaker.continuation.line .debug ("GNC: " ++ text)

def Event.lines (verbosity : Verbosity) (event : Event Float) : List LogLine :=
  noteLines event ++ progressLines verbosity event

/-- What is logged by a run, times apart. -/
def Run.lines (run : Run Float) : List LogLine :=
  run.events.flatMap (Event.lines run.optimizer.config.verbosity) ++ run.outcome.lines

end Continuation

end GraduatedFit

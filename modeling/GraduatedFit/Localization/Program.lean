import GraduatedFit.Continuation.Report
import GraduatedFit.Localization.LogFilter
import GraduatedFit.Localization.Options
import GraduatedFit.Text.Lowercase
import GraduatedFit.Text.Terminal

/-!
Localization of a point in the plane from its ranges to beacons, some of them corrupted, with and without a
continuation.
-/

namespace GraduatedFit

namespace Localization

open LeastSquares Continuation Text

def beaconRadius : Float := 10.0

def beaconSigma : Float := 1e-3

def truth : Vec Float := [2.0, -1.0]

def pi : Float := 3.141592653589793

structure Scenario where
  graph : Graph Float
  initial : Values Float
  /-- The slots of the beacon priors. -/
  beacons : List Nat
  /-- The slots of the ranges, with the information whether a range is correct. -/
  ranges : List (Nat × Bool)

namespace Scenario

def empty : Scenario := ⟨.empty, .empty, [], []⟩

def beacon (i count : Nat) : Vec Float :=
  let angle := 2.0 * pi * i.toFloat / count.toFloat
  [beaconRadius * angle.cos, beaconRadius * angle.sin]

def measurement (options : Options) (i : Nat) (beacon : Vec Float) : Float :=
  let range := Vec.norm (List.zipWith (· - ·) truth beacon)
  if i < options.inliers then range + options.noise * (1.7 * i.toFloat).sin
  else range + options.outlierScale * (1.0 + (0.37 * i.toFloat).cos)

/-- A scenario with a beacon and its range added. -/
def addBeacon (options : Options) (scenario : Scenario) (i : Nat) : Result Float Scenario := do
  let position := beacon i options.beacons
  let key := s!"b{i}"
  let slot := scenario.graph.size
  let graph ← scenario.graph.add [key] ⟨slot, .prior position⟩ (← Noise.ofSigma 2 beaconSigma)
  let factor ← Factor.range (measurement options i position) 2
  let graph ← graph.add ["p", key] ⟨slot + 1, factor⟩ (← Noise.ofSigma 1 options.noise)
  return {
    graph
    initial := scenario.initial.insert key position
    beacons := scenario.beacons ++ [slot]
    ranges := scenario.ranges ++ [(slot + 1, decide (i < options.inliers))] }

/-- Beacons on a circle with a range each, the last ones corrupted; the point starts at the origin. There is no room for
more beacons than a machine can address. -/
def build (options : Options) : Result Float Scenario := do
  if Nat.pow 2 59 ≤ options.beacons then .error .misshapen
  else
    let scenario ← (List.range options.beacons).foldlM (addBeacon options) empty
    return { scenario with initial := scenario.initial.insert "p" [0.0, 0.0] }

end Scenario

/-- A row of the final table. -/
structure Row where
  method : String
  estimate : Vec Float
  iterations : Nat
  status : String
  precision : Float
  coverage : Float

/-- The value of a computation with the lines that were logged on the way. -/
structure Logged (α : Type) where
  lines : List LogLine
  outcome : Result Float α

namespace Logged

variable {α β : Type}

def ofResult (r : Result Float α) : Logged α := ⟨r.lines, r⟩

def say (line : LogLine) : Logged Unit := ⟨[line], .ok ()⟩

instance : Monad Logged where
  pure a := ⟨[], .ok a⟩
  bind x f :=
    match x.outcome with
    | .error failure => ⟨x.lines, .error failure⟩
    | .ok a => ⟨x.lines ++ (f a).lines, (f a).outcome⟩

end Logged

def inform (text : String) : Logged Unit := .say (Speaker.program.line .info text)

def stopped : Clock := fun _ => 0

def runPlain (scenario : Scenario) (base : Method Float) : Logged Row := do
  let run := (base.build.optimize stopped scenario.graph scenario.initial).2
  let solution ← (⟨run.lines base, run.outcome⟩ : Logged (LeastSquares.Solution Float))
  let estimate ← .ofResult (solution.values.find "p")
  return ⟨base.title, estimate, solution.iterations, solution.status.message, 0.0 / 0.0, 0.0 / 0.0⟩

def ratio (part whole : Nat) : Float := if whole = 0 then 0.0 / 0.0 else part.toFloat / whole.toFloat

def configure (options : Options) (scenario : Scenario) (base : Method Float) (family : Family) : Config Float :=
  { Config.ofBase base with
    family
    threshold := options.inlierThreshold
    maxIterations := options.maxIterations
    knownInliers := scenario.beacons
    verbosity := if options.verbose then .values else .summary }

def runContinuation (options : Options) (scenario : Scenario) (base : Method Float) (family : Family) :
    Logged Row := do
  .say (Config.limitLine options.maxIterations)
  let optimizer ← .ofResult
    (Optimizer.create scenario.graph scenario.initial (configure options scenario base family))
  let run := optimizer.optimize fun _ => stopped
  let solution ← (⟨run.lines, run.outcome⟩ : Logged (Continuation.Solution Float))
  let estimate ← .ofResult (solution.values.find "p")
  let kept := scenario.ranges.filter fun (slot, _) => 0.5 < solution.weights.getD slot 0.0
  let correct := scenario.ranges.filter (·.2)
  let found := kept.filter (·.2)
  return ⟨s!"GNC-{family.title}", estimate, solution.iterations, solution.outcome.message,
    ratio found.length kept.length, ratio found.length correct.length⟩

def families? (loss : String) : Option (List Family) :=
  match loss with
  | "tls" => some [.truncatedLeastSquares]
  | "gm" => some [.gemanMcClure]
  | "all" => some [.truncatedLeastSquares, .gemanMcClure]
  | _ => none

def base? (base : String) : Option (Method Float) :=
  match base with
  | "gn" | "gauss-newton" => some (.gaussNewton .standard)
  | "lm" | "levenberg-marquardt" => some (.levenbergMarquardt .standard)
  | _ => none

/-- A continuation that fails is reported and has no row. -/
def tryContinuation (options : Options) (scenario : Scenario) (base : Method Float) (rows : List Row)
    (family : Family) : Logged (List Row) :=
  let run := runContinuation options scenario base family
  match run.outcome with
  | .ok row => ⟨run.lines, .ok (rows ++ [row])⟩
  | .error (.raised error _) =>
    ⟨run.lines ++ [Speaker.program.line .warn
      s!"GNC with {family.title} failed: {error.compactChain}"], .ok rows⟩
  | .error .misshapen => ⟨run.lines, .error .misshapen⟩

def runAll (options : Options) (scenario : Scenario) (base : Method Float) : Logged (List Row) := do
  let loss := lowercase options.loss
  let families ← match families? loss with
    | some families => pure families
    | none => .ofResult (.failModel (.invalidInput (.unknownLoss loss)))
  let plain ← runPlain scenario base
  families.foldlM (tryContinuation options scenario base) [plain]

def rule : String := String.ofList (List.replicate 130 '-')

def header : String :=
  " | ".intercalate [padRight 32 "Method", padRight 22 "Estimate", padRight 10 "Error", padRight 5 "Iters",
    padRight 9 "Precision", padRight 9 "Recall", padRight 26 "Status"]

def Row.text (row : Row) : String :=
  let coordinate (k : Nat) : String := padLeft 8 (fixedPlaces 4 (row.estimate.getD k 0.0))
  let error := Vec.norm (List.zipWith (· - ·) row.estimate truth)
  " | ".intercalate [padRight 32 row.method, s!"({coordinate 0}, {coordinate 1})  ",
    padRight 10 (scientificPlaces 4 error), padRight 5 (toString row.iterations),
    padRight 9 (fixedPlaces 3 row.precision), padRight 9 (fixedPlaces 3 row.coverage), padRight 26 row.status]

def table (rows : List Row) : Logged Unit := do
  inform "Final summary table:"
  inform header
  inform rule
  rows.forM fun row => inform row.text
  inform rule

def localize (options : Options) : Logged Unit := do
  inform (s!"Range localization with {options.inliers} inliers and {options.outliers} outliers " ++
    s!"(noise {fixedPlaces 3 options.noise}, outlier scale {fixedPlaces 2 options.outlierScale})")
  let scenario ← .ofResult (Scenario.build options)
  inform s!"Problem Structure: Factors: {scenario.graph.size}, Variables: {scenario.initial.size}"
  let base := lowercase options.base
  match base? base with
  | some method => table (← runAll options scenario method)
  | none => .ofResult (.failModel (.invalidInput (.unknownBase base)))

def usage : String :=
  "Localize a 2D point from beacon ranges corrupted by outliers, with and without GNC\n\n" ++
  "Options: -i/--inliers N, -o/--outliers N, -l/--loss tls|gm|all, -b/--base gn|lm, --noise X,\n" ++
  "  --outlier-scale X, --inlier-threshold X, -m/--max-iterations N, -v/--verbose, -h/--help\n"

/-- What a run of the program leaves: its exit code, the lines it logs, help if it was asked for, and what it
complains about. -/
structure Report where
  exit : Nat
  lines : List LogLine
  help : String
  complaint : String

/-- Run the program on the words of a command line and a list of log directives. -/
def program (words : List String) (directives : String) : Report :=
  match Options.parse words with
  | .misuse => ⟨2, [], "", usage⟩
  | .help => ⟨0, [], usage, ""⟩
  | .run options =>
    let filter := LogFilter.parse (if options.verbose then .debug else .info) directives
    let run := localize options
    let lines := (run.lines.filter filter.admits).map fun line => { line with text := forTerminal line.text }
    let complaints := String.join filter.complaints
    match run.outcome with
    | .ok () => ⟨0, lines, "", complaints⟩
    | .error (.raised error _) => ⟨1, lines, "", complaints ++ s!"Error: {error.display}\n"⟩
    | .error .misshapen => ⟨101, lines, "", complaints⟩

end Localization

end GraduatedFit

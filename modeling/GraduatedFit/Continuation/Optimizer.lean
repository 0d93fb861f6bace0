import GraduatedFit.Continuation.Config

/-!
Graduated non-convexity: a sequence of reweighted least-squares problems, each solved from the estimate of the one
before, while a control parameter moves the weights from nearly uniform to nearly zero or one.
-/

namespace GraduatedFit

namespace Continuation

open LeastSquares

inductive Outcome
  | converged
  | maxIterationsReached
  deriving DecidableEq, Repr

namespace Outcome

def name : Outcome → String
  | converged => "Converged"
  | maxIterationsReached => "MaxIterationsReached"

def ofName? (name : String) : Option Outcome := [converged, maxIterationsReached].find? (·.name == name)

end Outcome

/-- One reweighted solve: the weights are computed at the estimate it ends with, the cost is that of the weighted
problem. -/
structure Iteration (K : Type) where
  iteration : Nat
  mu : K
  weights : Vec K
  values : Values K
  cost : K

/-- What happens in a run, in order. -/
inductive Event (K : Type)
  | configured (config : Config K)
  | stripped
  | started (mu cost : K)
  | allKnown
  | allInside (mu : K)
  | solving (method : Method K)
  | iterated (iteration : Iteration K)
  | weightsSaturated (iteration : Nat)
  | muConverged (iteration : Nat) (mu : K)
  | finished (outcome : Outcome) (iterations : Nat) (weights : Vec K)

/-- A graph without robust losses and the estimate and weights that a run leaves. -/
structure Optimizer (K : Type) where
  graph : Graph K
  estimate : Values K
  config : Config K
  weights : Vec K
  known : List Bool

structure Solution (K : Type) where
  values : Values K
  weights : Vec K
  iterations : Nat
  outcome : Outcome
  mu : K

/-- The slots of weight above one half, in order. -/
def inlierSlots {K : Type} [Scalar K] (weights : Vec K) : List Nat :=
  (weights.zipIdx.filter fun (w, _) => Scalar.lt 0.5 w).map Prod.snd

def Solution.inlierSlots {K : Type} [Scalar K] (solution : Solution K) : List Nat :=
  Continuation.inlierSlots solution.weights

/-- What a run did, the optimizer after it, and its result. -/
structure Run (K : Type) where
  events : List (Event K)
  optimizer : Optimizer K
  outcome : Result K (Solution K)

namespace Run

variable {K : Type}

def after (events : List (Event K)) (run : Run K) : Run K := { run with events := events ++ run.events }

def failed (optimizer : Optimizer K) (failure : Failure K) : Run K := ⟨[], optimizer, .error failure⟩

end Run

namespace Optimizer

variable {K : Type} [Scalar K]

/-- A slot out of range is a failure. -/
def checkKnown (size : Nat) (slots : List Nat) : Result K Unit :=
  match slots.find? (size ≤ ·) with
  | some slot => .failContinuation (.knownInlierOutOfRange slot size)
  | none => .ok ()

/-- Robust losses of the graph are dropped; the weights are the only source of robustness. -/
def create (graph : Graph K) (initial : Values K) (config : Config K) : Result K (Optimizer K) := do
  config.validate
  checkKnown graph.size config.knownInliers
  return {
    graph := graph.stripRobustLosses
    estimate := initial
    config
    weights := List.replicate graph.size 1
    known := (List.range graph.size).map config.knownInliers.contains }

/-- What is worth a note at creation. -/
def creationEvents (graph : Graph K) : List (Event K) := if graph.hasRobustFactors then [.stripped] else []

def isKnown (o : Optimizer K) (slot : Nat) : Bool := o.known.getD slot false

def initialMu (o : Optimizer K) : Result K K := do
  let maxError := largestError (← o.graph.factorErrors o.estimate)
  let threshold := o.config.threshold
  let mu := o.config.family.initialMu maxError threshold
  if !Scalar.finite maxError || !Scalar.finite mu then
    .failContinuation (.degenerateMu mu maxError threshold)
  return mu

def nextMu (o : Optimizer K) (mu : K) : K := o.config.family.nextMu mu o.config.muStep

def muConverged (o : Optimizer K) (mu previous : K) : Bool :=
  o.config.family.muConverged mu previous o.config.costTolerance

def weightsSaturated (o : Optimizer K) (weights : Vec K) : Bool :=
  saturated weights o.config.weightsTolerance o.isKnown

def checkErrors (errors : List K) : Result K Unit :=
  match errors.zipIdx.find? fun (e, _) => !Scalar.finite e with
  | some (error, slot) => .failContinuation (.nonFiniteFactorError slot error)
  | none => .ok ()

/-- The weight of every slot at an estimate. -/
def weightsAt (o : Optimizer K) (values : Values K) (mu : K) : Result K (Vec K) := do
  let errors ← o.graph.factorErrors values
  checkErrors errors
  return Continuation.weights o.config.family errors mu o.config.threshold o.isKnown

def reweighted (o : Optimizer K) (weights : Vec K) : Result K (Graph K) := o.graph.reweight weights

/-- A solution that broke down or has no finite cost is a failure; one that stopped at a limit is kept. -/
def checkSolution (solution : LeastSquares.Solution K) : Result K (LeastSquares.Solution K) :=
  if solution.status.isFailure || !Scalar.finite solution.finalCost then
    .failSolve (.numericalInstability (.stopped solution.status solution.finalCost))
  else .ok solution

/-- One solve from the current estimate by a fresh base solver. -/
def solve (o : Optimizer K) (clock : Clock) (graph : Graph K) :
    List (Event K) × Result K (LeastSquares.Solution K) :=
  let run := (o.config.base.build.optimize clock graph o.estimate).2
  (if run.begun then [.solving o.config.base] else [], run.outcome >>= checkSolution)

def finish (o : Optimizer K) (outcome : Outcome) (iterations : Nat) (mu : K) : Run K :=
  ⟨[.finished outcome iterations o.weights], o, .ok ⟨o.estimate, o.weights, iterations, outcome, mu⟩⟩

/-- A single solve of the unweighted problem. -/
def solvePlain (o : Optimizer K) (clock : Clock) (mu : K) : Run K :=
  match o.solve clock o.graph with
  | (events, .error failure) => (Run.failed o failure).after events
  | (events, .ok solution) => ({ o with estimate := solution.values }.finish .converged 0 mu).after events

/-- One outer iteration: the optimizer with the new estimate and its weights, and a record of it. On a failure the
optimizer is as before. -/
def step (o : Optimizer K) (clock : Clock) (iteration : Nat) (mu : K) :
    List (Event K) × Result K (Optimizer K × Iteration K) :=
  match o.reweighted o.weights with
  | .error failure => ([], .error failure)
  | .ok graph =>
    let (events, outcome) := o.solve clock graph
    (events, do
      let solution ← outcome
      let weights ← o.weightsAt solution.values mu
      return ({ o with estimate := solution.values, weights },
        ⟨iteration, mu, weights, solution.values, solution.finalCost⟩))

/-- The outer iterations from a number on, at most `left` of them. -/
def continueFrom (clock : Nat → Clock) : Nat → Nat → K → Optimizer K → Run K
  | 0, iteration, mu, o => o.finish .maxIterationsReached iteration mu
  | left + 1, iteration, mu, o =>
    match o.step (clock iteration) iteration mu with
    | (events, .error failure) => (Run.failed o failure).after events
    | (events, .ok (o, record)) =>
      let events := events ++ [.iterated record]
      if o.weightsSaturated o.weights then
        (o.finish .converged (iteration + 1) mu).after (events ++ [.weightsSaturated iteration])
      else
        let next := o.nextMu mu
        if o.muConverged next mu then
          (o.finish .converged (iteration + 1) next).after (events ++ [.muConverged iteration next])
        else (continueFrom clock left (iteration + 1) next o).after events

/-- Run the continuation. `clock` gives the times of the base solves by their number. -/
def optimize (o : Optimizer K) (clock : Nat → Clock) : Run K :=
  let configured := Event.configured o.config
  match o.initialMu with
  | .error failure => (Run.failed o failure).after [configured]
  | .ok mu =>
    let o := { o with weights := List.replicate o.graph.size 1 }
    match o.graph.error o.estimate with
    | .error failure => (Run.failed o failure).after [configured]
    | .ok cost =>
      let begun := [configured, .started mu cost]
      if o.known.all id then (o.solvePlain (clock 0) mu).after (begun ++ [.allKnown])
      else if Scalar.le mu 0 then (o.solvePlain (clock 0) mu).after (begun ++ [.allInside mu])
      else (continueFrom clock o.config.maxIterations 0 mu o).after begun

end Optimizer

end Continuation

end GraduatedFit

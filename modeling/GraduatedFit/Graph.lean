import GraduatedFit.Factor
import GraduatedFit.Noise
import GraduatedFit.Values

/-!
Factor graphs. The place of a factor in the list is its slot; errors and weights are in slot order.
-/

namespace GraduatedFit

structure GraphFactor (K : Type) where
  keys : List String
  factor : Shared (Factor K)
  noise : Noise K

structure Graph (K : Type) where
  factors : List (GraphFactor K)

variable {K : Type}

namespace GraphFactor

def params (f : GraphFactor K) (values : Values K) : Result K (List (Vec K)) := f.keys.mapM values.find

def checkResidual (f : GraphFactor K) (residual : Vec K) : Result K Unit :=
  if residual.length = f.noise.dim then .ok ()
  else .failModel (.dimensionMismatch (.residualSize f.keys residual.length f.noise.dim))

/-- The residual before whitening. -/
def residual (f : GraphFactor K) (values : Values K) : Result K (Vec K) := do
  let params ← f.params values
  let (residual, _) ← .ofShape (f.factor.value.linearize? params false)
  f.checkResidual residual
  return residual

/-- A Jacobian with a row per residual and a column per component of the variables. -/
def checkJacobian (f : GraphFactor K) (params : List (Vec K)) (residual : Vec K) :
    Option (Mat K) → Result K (Mat K)
  | none => .failModel (.factorLinearization (.noJacobian f.keys))
  | some J =>
    let width := params.flatten.length
    if J.height = residual.length ∧ J.width = width then .ok J
    else .failModel (.dimensionMismatch (.jacobianShape f.keys J.height J.width residual.length width))

variable [Scalar K]

def error (f : GraphFactor K) (values : Values K) : Result K K := do
  .ofShape (f.noise.error? (← f.residual values))

/-- Whitened and corrected residual, with the Jacobian if it is wanted. -/
def linearize (f : GraphFactor K) (values : Values K) (wanted : Bool) :
    Result K (Vec K × Option (Mat K)) := do
  let params ← f.params values
  let (residual, jacobian) ← .ofShape (f.factor.value.linearize? params wanted)
  f.checkResidual residual
  let jacobian ← if wanted then some <$> f.checkJacobian params residual jacobian else pure none
  .ofShape (f.noise.whitenSystem? residual jacobian)

end GraphFactor

namespace Graph

def empty : Graph K := ⟨[]⟩

def size (graph : Graph K) : Nat := graph.factors.length

def isEmpty (graph : Graph K) : Bool := graph.factors.isEmpty

def get? (graph : Graph K) (slot : Nat) : Option (GraphFactor K) := graph.factors[slot]?

/-- The graph with one more factor, whose slot is the size before. -/
def add (graph : Graph K) (keys : List String) (factor : Shared (Factor K)) (noise : Noise K) :
    Result K (Graph K) :=
  if keys.isEmpty then .failModel (.invalidInput .noKeys)
  else if keys.length ≠ factor.value.arity then
    .failModel (.invalidInput (.keyCount keys factor.value.arity))
  else if factor.value.dim ≠ noise.dim then
    .failModel (.dimensionMismatch (.noiseDimension keys factor.value.dim noise.dim))
  else .ok ⟨graph.factors ++ [⟨keys, factor, noise⟩]⟩

def isRobust (graph : Graph K) (slot : Nat) : Bool := (graph.get? slot).any (·.noise.isRobust)

def hasRobustFactors (graph : Graph K) : Bool := graph.factors.any (·.noise.isRobust)

def residualDimension (graph : Graph K) : Nat :=
  (graph.factors.foldr (fun f total => f.noise.dim + total) 0) % Nat.pow 2 64

/-- The same keys and factors under other noise models. The first slot without a model decides the failure. -/
def withNoise (graph : Graph K) (noiseOf : Nat → GraphFactor K → Result K (Noise K)) :
    Result K (Graph K) := do
  let factors ← graph.factors.zipIdx.mapM fun (f, slot) => do
    return { f with noise := (← noiseOf slot f) }
  return ⟨factors⟩

/-- The graph with every robust model replaced by its base model. -/
def stripRobustLosses (graph : Graph K) : Graph K :=
  ⟨graph.factors.map fun f => { f with noise := f.noise.withoutRobustLoss }⟩

/-- The graph with one loss around every model. -/
def wrapLosses (graph : Graph K) (loss : Shared (Loss K)) : Result K (Graph K) :=
  graph.withNoise fun _ f => Noise.ofLoss loss f.noise

variable [Scalar K]

def factorError (graph : Graph K) (slot : Nat) (values : Values K) : Result K K :=
  match graph.get? slot with
  | some f => f.error values
  | none => .failModel (.slotOutOfRange slot graph.size)

def factorErrors (graph : Graph K) (values : Values K) : Result K (List K) :=
  graph.factors.mapM (·.error values)

/-- The sum of the factor errors, from minus zero on, which is neutral in floating point too. -/
def error (graph : Graph K) (values : Values K) : Result K K := do
  return (← graph.factorErrors values).foldl (· + ·) (-0)

/-- Slot by slot the same keys, the same factor object and models close to each other. -/
def agree (tolerance : K) (a b : Graph K) : Bool :=
  a.size == b.size && (List.zipWith (fun f g =>
    f.keys == g.keys && f.factor.sameAs g.factor && Noise.agree tolerance f.noise g.noise)
    a.factors b.factors).all id

def checkWeight (slot : Nat) (weight : K) : Result K Unit :=
  if Scalar.nonNegative weight then .ok () else .failModel (.invalidInput (.weight slot weight))

/-- The graph with the information of each slot multiplied by its weight. A slot of weight zero stays, without
influence. -/
def reweight (graph : Graph K) (weights : Vec K) : Result K (Graph K) :=
  if weights.length ≠ graph.size then .failContinuation (.weightCountMismatch graph.size weights.length)
  else graph.withNoise fun slot f => do
    let weight := weights.getD slot 0
    checkWeight slot weight
    match f.noise.scaledByWeight? weight with
    | some noise => return noise
    | none => .failModel (.unscalableNoiseModel slot .robust)

end Graph

end GraduatedFit

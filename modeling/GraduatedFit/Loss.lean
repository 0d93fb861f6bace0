import GraduatedFit.Error
import GraduatedFit.Scalar

/-!
Robust losses: functions of a squared residual norm, with their first two derivatives.
-/

namespace GraduatedFit

/-- A loss at one point: its value, its slope and its curvature. -/
structure Jet (K : Type) where
  value : K
  slope : K
  curvature : K

/-- `title` and `parameters` are for display only. -/
structure Loss (K : Type) where
  name : String
  title : String
  parameters : List (String × K)
  jet : K → Jet K

/-- A value together with the identity of the object that holds it: copies keep the tag, and two holders are the
same object when their tags agree. -/
structure Shared (α : Type) where
  tag : Nat
  value : α

namespace Shared

variable {α : Type}

def sameAs (a b : Shared α) : Bool := a.tag == b.tag

end Shared

namespace Loss

open Scalar

variable {K : Type} [Scalar K]

/-- Quadratic up to the squared scale, then linear in the norm. -/
def huberJet (scale scaleSq s : K) : Jet K :=
  if lt scaleSq s then
    let r := sqrt s
    let slope := Scalar.max (scale / r) tiny
    ⟨2.0 * scale * r - scaleSq, slope, -slope / (2.0 * s)⟩
  else ⟨s, 1, 0⟩

/-- Logarithmic growth. -/
def cauchyJet (scaleSq invScaleSq s : K) : Jet K :=
  let sum := 1 + s * invScaleSq
  let inv := 1 / sum
  ⟨scaleSq * log sum, Scalar.max inv tiny, -invScaleSq * inv * inv⟩

/-- Bounded by the squared scale. -/
def gemanMcClureJet (invScaleSq s : K) : Jet K :=
  let inv := 1 / (1 + s * invScaleSq)
  let invSq := inv * inv
  ⟨s * inv, invSq, -2.0 * invScaleSq * invSq * inv⟩

def checkScale (scale : K) : Result K K :=
  if positive scale then .ok scale else .failModel (.lossFunction (.scale scale))

def huber (scale : K) : Result K (Loss K) := do
  let scale ← checkScale scale
  let scaleSq := scale * scale
  return ⟨"Huber", "HuberLoss", [("scale", scale), ("scale2", scaleSq)], huberJet scale scaleSq⟩

def cauchy (scale : K) : Result K (Loss K) := do
  let scale ← checkScale scale
  let scaleSq := scale * scale
  let invScaleSq := 1 / scaleSq
  return ⟨"Cauchy", "CauchyLoss", [("scale2", scaleSq), ("inv_scale2", invScaleSq)],
    cauchyJet scaleSq invScaleSq⟩

def gemanMcClure (scale : K) : Result K (Loss K) := do
  let scale ← checkScale scale
  let invScaleSq := 1 / (scale * scale)
  return ⟨"GemanMcClure", "GemanMcClureLoss", [("inv_scale2", invScaleSq)], gemanMcClureJet invScaleSq⟩

/-- The quadratic `first * s + second * s ^ 2`. -/
def quadratic (first second : K) : Loss K :=
  ⟨"Poly", "Poly", [("c1", first), ("c2", second)], fun s =>
    ⟨first * s + second * s * s, first + 2.0 * second * s, 2.0 * second⟩⟩

end Loss

end GraduatedFit

import GraduatedFit.Proofs.WeightedGraph

/-! What a robust loss does to the whitened system of a noise model. -/

namespace GraduatedFit

namespace Correction

variable {loss : Loss ℝ} {s : ℝ}

/-- Where only the slope counts. -/
theorem ofLoss_plain (plain : s = 0 ∨ (loss.jet s).curvature ≤ 0) :
    ofLoss loss s = ⟨√(loss.jet s).slope, √(loss.jet s).slope, 0⟩ := by
  simp only [ofLoss, Scalar.eq_real, Scalar.le_real, Scalar.sqrt_real, Bool.or_eq_true, decide_eq_true_eq]
  exact if_pos plain

/-- Where a loss is concave the correction multiplies by the root of the slope. -/
theorem ofLoss_concave (concave : (loss.jet s).curvature ≤ 0) :
    ofLoss loss s = ⟨√(loss.jet s).slope, √(loss.jet s).slope, 0⟩ := ofLoss_plain (.inr concave)

/-- Where the curvature counts as well. -/
theorem ofLoss_convex (convex : ¬(s = 0 ∨ (loss.jet s).curvature ≤ 0)) :
    let root := √(1 + 2 * s * (loss.jet s).curvature / (loss.jet s).slope)
    ofLoss loss s = ⟨√(loss.jet s).slope, √(loss.jet s).slope / (1 - (1 - root)), (1 - root) / s⟩ := by
  simp only [ofLoss, Scalar.eq_real, Scalar.le_real, Scalar.sqrt_real, Bool.or_eq_true, decide_eq_true_eq,
    Scalar.two_real]
  exact if_neg convex

/-- What stands under the root there. -/
theorem stretch_pos (nonneg : 0 ≤ s) (positive : 0 < (loss.jet s).slope)
    (convex : ¬(s = 0 ∨ (loss.jet s).curvature ≤ 0)) :
    0 < 1 + 2 * s * (loss.jet s).curvature / (loss.jet s).slope := by
  have curvature : 0 < (loss.jet s).curvature := not_le.mp (not_or.mp convex).2
  positivity

end Correction

namespace Noise

open GraphFactor.Weighted

/-- Under a concave loss the system of a model is scaled by the slope of the loss at the squared norm of its residual,
as a weight would scale it. -/
theorem whitenSystem_concave {loss : Shared (Loss ℝ)} {base : Noise ℝ} (plain : base.isRobust = false)
    (concave : ∀ s, 0 ≤ s → (loss.value.jet s).curvature ≤ 0) (r : Vec ℝ) (J : Option (Mat ℝ)) :
    (robust loss base).whitenSystem? r J = (base.whitenSystem? r J).map fun system =>
      scaleSystem (loss.value.jet (Vec.normSq system.1)).slope system := by
  have jacobian : (robust loss base).whitenJacobian? = base.whitenJacobian? := rfl
  rw [whitenSystem_plain plain]
  unfold whitenSystem?
  rw [whiten?, jacobian]
  cases base.whiten? r with
  | none => rfl
  | some whitened =>
      have corrected := Correction.ofLoss_concave (concave _ (Vec.normSq_nonneg whitened))
      cases J with
      | none => simp [corrected, scaleSystem, Correction.residual, Vec.scale, mul_comm]
      | some A =>
          cases transformed : base.whitenJacobian? A with
          | none => simp [transformed]
          | some B =>
              simp [transformed, corrected, scaleSystem, Correction.residual, Vec.scale, Correction.jacobian?,
                Mat.scale, mul_comm]

theorem error_robust (loss : Shared (Loss ℝ)) (base : Noise ℝ) (r : Vec ℝ) :
    (robust loss base).error? r =
      (base.whiten? r).map fun whitened => 0.5 * (loss.value.jet (Vec.normSq whitened)).value := by
  unfold error?
  rw [whiten?]
  cases base.whiten? r <;> rfl

end Noise

end GraduatedFit
